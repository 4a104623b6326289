import Overture.Lib.FirstByKey
import Overture.Coordinator.WalCodec

/-!
# The cumulative recovery checkpoint

Runtimes push deltas. Before a task is handed to another runtime its committed entries are
collected from all stored checkpoints, one for each step up to the greatest watermark.
-/

namespace Overture

open FirstByKey List Option UInt32 WalEntry

def errInvalidCumulativeCheckpoint (detail : Text) : Text :=
  "invalid cumulative checkpoint: " ++ detail

def mergeEntry (taskID : Uuid) (kept : List WalEntry) (entry : WalEntry) : Except Text (List WalEntry) :=
  if entry.taskID != taskID then
    .error (errInvalidCumulativeCheckpoint "WAL entry task_id mismatch")
  else if !entry.committed then .ok kept
  else
    match insert stepIndex walEntriesEquivalent kept entry with
    | some kept => .ok kept
    | none =>
      .error (errInvalidCumulativeCheckpoint
        ("conflicting duplicate step " ++ Nat.toDigits 10 entry.stepIndex.toNat))

def mergeEntries (taskID : Uuid) : List WalEntry → List WalEntry → Except Text (List WalEntry)
  | kept, [] => .ok kept
  | kept, entry :: rest =>
    match mergeEntry taskID kept entry with
    | .ok kept => mergeEntries taskID kept rest
    | .error e => .error e

/-- The latest checkpoint so far and the entries kept so far; a nil pointer is passed over. -/
def mergeCheckpoints (taskID : Uuid) :
    Option CheckpointPayload → List WalEntry → List (Option CheckpointPayload) →
      Except Text (Option CheckpointPayload × List WalEntry)
  | latest, kept, [] => .ok (latest, kept)
  | latest, kept, none :: rest => mergeCheckpoints taskID latest kept rest
  | latest, kept, some cp :: rest =>
    if cp.taskID != taskID then
      .error (errInvalidCumulativeCheckpoint "checkpoint task_id mismatch")
    else
      match mergeEntries taskID kept cp.walEntries with
      | .ok kept =>
        mergeCheckpoints taskID
          (if latest.isNone || taskCheckpointAdvances latest (some cp) then some cp else latest) kept rest
      | .error e => .error e

/-- The loop over the steps, with a counter that wraps around; none while it has not returned after
`fuel` tests of its condition. -/
def collectSteps (byStep : UInt32 → Option WalEntry) (lastStep : UInt32) :
    Nat → UInt32 → List WalEntry → Option (Except Text (List WalEntry))
  | 0, _, _ => none
  | fuel + 1, step, entries =>
    if step ≤ lastStep then
      match byStep step with
      | none =>
        some (.error (errInvalidCumulativeCheckpoint
          ("missing committed step " ++ Nat.toDigits 10 step.toNat)))
      | some entry =>
        if step = 0xFFFFFFFF then some (.ok (entries ++ [entry]))
        else collectSteps byStep lastStep fuel (step + 1) (entries ++ [entry])
    else some (.ok entries)

def buildCumulativeWithin (fuel : Nat) (taskID : Uuid) (checkpoints : List (Option CheckpointPayload)) :
    Option (Except Text (Option CheckpointPayload)) :=
  if taskID = Uuid.nil then some (.error (errInvalidCumulativeCheckpoint "task_id is required"))
  else if checkpoints.isEmpty then some (.ok none)
  else
    match mergeCheckpoints taskID none [] checkpoints with
    | .error e => some (.error e)
    | .ok (none, _) => some (.ok none)
    | .ok (some latest, kept) =>
      if !taskRecoveryCheckpointUsable taskID (some latest) then
        some (.error (errInvalidCumulativeCheckpoint "latest checkpoint is not usable"))
      else
        (collectSteps (lookup stepIndex · kept) latest.watermark fuel 0 []).map fun out =>
          out.map fun entries =>
            some { latest with
              walEntries := entries.insertionSort fun a b => a.stepIndex ≤ b.stepIndex }

def buildCumulativeRecoveryCheckpoint (taskID : Uuid) (checkpoints : List (Option CheckpointPayload)) :
    Except Text (Option CheckpointPayload) :=
  (buildCumulativeWithin (2 ^ 32 + 1) taskID checkpoints).getD (.ok none)

def succeeded (built : Except Text (Option CheckpointPayload)) : Bool :=
  match built with
  | .ok (some _) => true
  | _ => false

theorem succeeded_iff {built : Except Text (Option CheckpointPayload)} :
    succeeded built = true ↔ ∃ r, built = .ok (some r) := by
  cases built with
  | error e => simp [succeeded]
  | ok out => cases out <;> simp [succeeded]

def committedEntries (checkpoints : List CheckpointPayload) : List WalEntry :=
  checkpoints.flatMap fun cp => cp.walEntries.filter committed

def Belong (taskID : Uuid) (checkpoints : List CheckpointPayload) : Prop :=
  ∀ cp ∈ checkpoints, cp.taskID = taskID ∧ ∀ e ∈ cp.walEntries, e.taskID = taskID

def IsTop (checkpoints : List CheckpointPayload) (top : CheckpointPayload) : Prop :=
  top ∈ checkpoints ∧ ∀ cp ∈ checkpoints, cp.watermark.toNat ≤ top.watermark.toNat

structure Recoverable (taskID : Uuid) (checkpoints : List CheckpointPayload) (top : CheckpointPayload) :
    Prop where
  belong : Belong taskID checkpoints
  usable : taskRecoveryCheckpointUsable taskID (some top) = true
  covered : ∀ step ≤ top.watermark, ∃ e ∈ committedEntries checkpoints, e.stepIndex = step
  agree : (committedEntries checkpoints).Pairwise fun a b =>
    a.stepIndex = b.stepIndex → walEntriesEquivalent a b = true

def SameEntry (a b : WalEntry) : Prop := a = b ∨ walEntriesEquivalent a b = true

theorem walEntriesEquivalent_symm (a b : WalEntry) (h : walEntriesEquivalent a b = true) :
    walEntriesEquivalent b a = true := by
  unfold walEntriesEquivalent at *
  cases ha : marshalWalEntry a <;> cases hb : marshalWalEntry b <;> simp_all

theorem walEntriesEquivalent_trans (a b c : WalEntry) (hab : walEntriesEquivalent a b = true)
    (hbc : walEntriesEquivalent b c = true) : walEntriesEquivalent a c = true := by
  unfold walEntriesEquivalent at *
  cases ha : marshalWalEntry a <;> cases hb : marshalWalEntry b <;> cases hc : marshalWalEntry c <;> simp_all

variable {taskID : Uuid} {cps cps' : List CheckpointPayload} {top : CheckpointPayload}

theorem mergeEntries_ok_iff {kept kept' entries : List WalEntry} :
    mergeEntries taskID kept entries = .ok kept' ↔
      (∀ e ∈ entries, e.taskID = taskID) ∧
        insertAll stepIndex walEntriesEquivalent kept (entries.filter committed) =
          some kept' := by
  induction entries generalizing kept with
  | nil => simp [mergeEntries, insertAll]
  | cons e rest ih =>
    rw [mergeEntries, forall_mem_cons]
    by_cases ht : e.taskID = taskID
    · by_cases hc : e.committed = true
      · cases hi : insert stepIndex walEntriesEquivalent kept e with
        | none => simp [mergeEntry, ht, hc, hi, insertAll]
        | some kept₁ => simp [mergeEntry, ht, hc, hi, insertAll, ih]
      · simp [mergeEntry, ht, hc, ih]
    · simp [mergeEntry, ht]

def pickLatest (latest : Option CheckpointPayload) (cp : CheckpointPayload) : Option CheckpointPayload :=
  if latest.isNone || taskCheckpointAdvances latest (some cp) then some cp else latest

theorem mergeCheckpoints_ok_iff {latest latest' : Option CheckpointPayload} {kept kept' : List WalEntry} :
    mergeCheckpoints taskID latest kept (cps.map some) = .ok (latest', kept') ↔
      Belong taskID cps ∧
        insertAll stepIndex walEntriesEquivalent kept (committedEntries cps) = some kept' ∧
        cps.foldl pickLatest latest = latest' := by
  induction cps generalizing latest kept with
  | nil =>
    simp only [map_nil, mergeCheckpoints, Except.ok.injEq, Prod.mk.injEq, Belong, not_mem_nil,
      false_implies, implies_true, committedEntries, flatMap_nil, insertAll, some.injEq,
      foldl_nil, true_and]
    exact and_comm
  | cons cp rest ih =>
    rw [map_cons, mergeCheckpoints, committedEntries, flatMap_cons, insertAll_append,
      foldl_cons]
    simp only [Belong, forall_mem_cons]
    by_cases ht : cp.taskID = taskID
    · cases hm : mergeEntries taskID kept cp.walEntries with
      | error e =>
        simp only [ht, bne_self_eq_false, Bool.false_eq_true, if_false, reduceCtorEq, false_iff]
        rintro ⟨⟨⟨-, he⟩, -⟩, hi, -⟩
        obtain ⟨k, hk, -⟩ := bind_eq_some_iff.mp hi
        rw [mergeEntries_ok_iff.mpr ⟨he, hk⟩] at hm
        cases hm
      | ok k =>
        obtain ⟨he, hk⟩ := mergeEntries_ok_iff.mp hm
        simp only [ht, bne_self_eq_false, Bool.false_eq_true, if_false, true_and, hk, bind_some]
        rw [ih]
        constructor
        · rintro ⟨hb, hi, hl⟩
          exact ⟨⟨he, hb⟩, hi, hl⟩
        · rintro ⟨⟨-, hb⟩, hi, hl⟩
          exact ⟨hb, hi, hl⟩
    · simp [ht]

theorem foldl_pickLatest_some (cps : List CheckpointPayload) (latest : CheckpointPayload) :
    ∃ top, cps.foldl pickLatest (some latest) = some top ∧ IsTop (latest :: cps) top := by
  induction cps generalizing latest with
  | nil => exact ⟨latest, rfl, by simp [IsTop]⟩
  | cons cp rest ih =>
    rw [foldl_cons]
    by_cases h : latest.watermark < cp.watermark
    · obtain ⟨top, htop, hmem, hmax⟩ := ih cp
      refine ⟨top, ?_, mem_cons_of_mem _ hmem, ?_⟩
      · rwa [pickLatest, taskCheckpointAdvances_iff.mpr h, Bool.or_true, if_pos rfl]
      have hle := hmax cp (by simp)
      have hlt : latest.watermark.toNat < cp.watermark.toNat := UInt32.lt_iff_toNat_lt.mp h
      exact List.forall_mem_cons.mpr ⟨by omega, hmax⟩
    obtain ⟨top, htop, hmem, hmax⟩ := ih latest
    refine ⟨top, ?_, ?_, ?_⟩
    · have hnot : taskCheckpointAdvances (some latest) (some cp) = false := by
        simpa [← taskCheckpointAdvances_iff] using h
      rwa [pickLatest, hnot, isNone_some, Bool.or_false, if_neg (by decide)]
    · exact List.mem_cons.mpr ((List.mem_cons.mp hmem).imp id (mem_cons_of_mem _))
    have hle := hmax latest (by simp)
    have hge : cp.watermark.toNat ≤ latest.watermark.toNat :=
      UInt32.le_iff_toNat_le.mp (UInt32.not_lt.mp h)
    refine List.forall_mem_cons.mpr ⟨hle, List.forall_mem_cons.mpr ⟨by omega, ?_⟩⟩
    exact (List.forall_mem_cons.mp hmax).2

theorem foldl_pickLatest (hne : cps ≠ []) :
    ∃ top, cps.foldl pickLatest none = some top ∧ IsTop cps top := by
  cases cps with
  | nil => exact absurd rfl hne
  | cons cp rest => exact foldl_pickLatest_some rest cp

theorem collectSteps_spec {byStep : UInt32 → Option WalEntry} (last : UInt32)
    (hkey : ∀ s e, byStep s = some e → e.stepIndex = s) (fuel : Nat) (step : UInt32)
    (hstep : step.toNat ≤ last.toNat + 1) (hfuel : last.toNat + 2 ≤ fuel + step.toNat)
    (acc : List WalEntry) :
    ∃ r, collectSteps byStep last fuel step acc = some r ∧
      ((∃ l, r = .ok l) ↔ ∀ s, step ≤ s → s ≤ last → ∃ e, byStep s = some e) ∧
      ∀ l, r = .ok l → ∃ tail, l = acc ++ tail ∧
        tail.map (·.stepIndex.toNat) = List.range' step.toNat (last.toNat + 1 - step.toNat) ∧
        ∀ e ∈ tail, byStep e.stepIndex = some e := by
  induction fuel generalizing step acc with
  | zero => omega
  | succ fuel ih =>
    rw [collectSteps]
    by_cases hle : step ≤ last
    · have hle' : step.toNat ≤ last.toNat := UInt32.le_iff_toNat_le.mp hle
      rw [if_pos hle]
      cases hb : byStep step with
      | none =>
        refine ⟨_, rfl, ⟨by simp, fun h => ?_⟩, by simp⟩
        obtain ⟨e, he⟩ := h step (UInt32.le_refl step) hle
        rw [hb] at he
        cases he
      | some e =>
        have hlast := last.toNat_lt
        by_cases hmax : step = 0xFFFFFFFF
        · -- the counter is at its greatest value, so this was the last step
          have hnat : step.toNat = 4294967295 := by rw [hmax]; rfl
          have hone : last.toNat + 1 - step.toNat = 1 := by omega
          dsimp only
          rw [if_pos hmax]
          refine ⟨_, rfl, ⟨fun _ s hs _ => ?_, fun _ => ⟨_, rfl⟩⟩, ?_⟩
          · have hs' := UInt32.le_iff_toNat_le.mp hs
            have hlt := s.toNat_lt
            obtain rfl : s = step := UInt32.toNat_inj.mp (by omega)
            exact ⟨e, hb⟩
          rintro l hl
          cases hl
          refine ⟨[e], rfl, ?_, ?_⟩
          · simp [hone, hkey step e hb]
          · simpa [hkey step e hb] using hb
        have hne : step.toNat ≠ 4294967295 := fun h => hmax (UInt32.toNat_inj.mp h)
        have hlt := step.toNat_lt
        have hsucc : (step + 1).toNat = step.toNat + 1 := by
          rw [UInt32.toNat_add]
          exact Nat.mod_eq_of_lt (by simp; omega)
        obtain ⟨r, hr, hiff, hok⟩ := ih (step + 1) (by omega) (by omega) (acc ++ [e])
        dsimp only
        rw [if_neg hmax]
        refine ⟨r, hr, ?_, ?_⟩
        · rw [hiff]
          constructor
          · intro h s hs hsl
            by_cases heq : s = step
            · exact ⟨e, heq ▸ hb⟩
            have hs' := UInt32.le_iff_toNat_le.mp hs
            have hne' : s.toNat ≠ step.toNat := fun h => heq (UInt32.toNat_inj.mp h)
            exact h s (UInt32.le_iff_toNat_le.mpr (by omega)) hsl
          · intro h s hs hsl
            have hs' := UInt32.le_iff_toNat_le.mp hs
            exact h s (UInt32.le_iff_toNat_le.mpr (by omega)) hsl
        intro l hl
        obtain ⟨tail, rfl, hmap, hmem⟩ := hok l hl
        refine ⟨e :: tail, by simp, ?_, ?_⟩
        · have hlen : last.toNat + 1 - step.toNat = (last.toNat + 1 - (step + 1).toNat) + 1 := by omega
          rw [List.map_cons, hmap, hlen, List.range'_succ, hkey step e hb, hsucc]
        · exact List.forall_mem_cons.mpr ⟨by rw [hkey step e hb, hb], hmem⟩
    have hlt : last.toNat < step.toNat := UInt32.lt_iff_toNat_lt.mp (UInt32.not_le.mp hle)
    rw [if_neg hle]
    refine ⟨_, rfl, ⟨fun _ s hs hsl => absurd (UInt32.le_trans hs hsl) hle, fun _ => ⟨_, rfl⟩⟩, ?_⟩
    rintro l hl
    cases hl
    have hzero : last.toNat + 1 - step.toNat = 0 := by omega
    exact ⟨[], by simp, by simp [hzero], by simp⟩

theorem isTop_unique (hdistinct : (cps.map (·.watermark)).Nodup)
    {top' : CheckpointPayload} (h : IsTop cps top) (h' : IsTop cps top') : top = top' := by
  have heq : top.watermark = top'.watermark :=
    UInt32.toNat_inj.mp (Nat.le_antisymm (h'.2 top h.1) (h.2 top' h'.1))
  exact inj_on_of_nodup_map hdistinct h.1 h'.1 heq

theorem sorted_of_steps {l : List WalEntry} {n : Nat} (h : l.map (·.stepIndex.toNat) = range n) :
    l.insertionSort (fun a b => a.stepIndex ≤ b.stepIndex) = l := by
  have hsorted : (l.map (·.stepIndex.toNat)).Pairwise (· < ·) := h ▸ pairwise_lt_range
  have hle : l.Pairwise fun a b => a.stepIndex ≤ b.stepIndex :=
    (pairwise_map.mp hsorted).imp fun hab => le_iff_toNat_le.mpr (Nat.le_of_lt hab)
  exact hle.insertionSort_eq

/-- The entries kept of a list of checkpoints, and when its committed entries can all be gone through. -/
theorem insertAll_committedEntries (cps : List CheckpointPayload) :
    (∀ kept, insertAll stepIndex walEntriesEquivalent [] (committedEntries cps) = some kept →
      Kept stepIndex walEntriesEquivalent (committedEntries cps) kept) ∧
    ((∃ kept, insertAll stepIndex walEntriesEquivalent [] (committedEntries cps) = some kept) ↔
      Agree stepIndex walEntriesEquivalent (committedEntries cps)) := by
  have hnil : Kept stepIndex walEntriesEquivalent [] [] := Kept.nil
  exact hnil.insertAll_spec walEntriesEquivalent_symm walEntriesEquivalent_trans (committedEntries cps)

theorem buildCumulative_spec (taskID : Uuid) (hne : cps ≠ []) :
    ∃ top, IsTop cps top ∧
      buildCumulativeWithin (2 ^ 32 + 1) taskID (cps.map some) =
        some (buildCumulativeRecoveryCheckpoint taskID (cps.map some)) ∧
      ((∃ r, buildCumulativeRecoveryCheckpoint taskID (cps.map some) = .ok (some r)) ↔
        Recoverable taskID cps top) ∧
      ∀ r, buildCumulativeRecoveryCheckpoint taskID (cps.map some) = .ok (some r) →
        (∃ entries, r = { top with walEntries := entries }) ∧
        r.walEntries.map (·.stepIndex.toNat) = List.range (top.watermark.toNat + 1) ∧
        ∀ e ∈ r.walEntries, lookup stepIndex e.stepIndex (committedEntries cps) = some e := by
  obtain ⟨top, htop, hmax⟩ := foldl_pickLatest hne
  refine ⟨top, hmax, ?_⟩
  have hempty : (cps.map some).isEmpty = false := by simpa using hne
  unfold buildCumulativeRecoveryCheckpoint
  unfold buildCumulativeWithin
  by_cases hnil : taskID = Uuid.nil
  · -- a nil task id is refused, and no checkpoint is usable for it
    simp only [hnil, if_true, Option.getD_some, reduceCtorEq, exists_false, false_implies, implies_true,
      and_true, false_iff, true_and]
    intro h
    have := h.usable
    simp [taskRecoveryCheckpointUsable] at this
  simp only [hnil, if_false, hempty, Bool.false_eq_true]
  cases hm : mergeCheckpoints taskID none [] (cps.map some) with
  | error e =>
    simp only [Option.getD_some, reduceCtorEq, exists_false, false_implies, implies_true, and_true,
      false_iff, true_and]
    intro h
    obtain ⟨kept, hk⟩ := (insertAll_committedEntries cps).2.mpr h.agree
    rw [mergeCheckpoints_ok_iff.mpr ⟨h.belong, hk, htop⟩] at hm
    cases hm
  | ok out =>
    obtain ⟨latest, kept⟩ := out
    obtain ⟨hbelong, hinsert, hlatest⟩ := mergeCheckpoints_ok_iff.mp hm
    have hkept := (insertAll_committedEntries cps).1 kept hinsert
    obtain rfl : latest = some top := hlatest.symm.trans htop
    by_cases husable : taskRecoveryCheckpointUsable taskID (some top) = true
    · have hkey : ∀ s e, lookup stepIndex s kept = some e → e.stepIndex = s :=
        fun s e h => (lookup_eq_some h).2
      have hlt := top.watermark.toNat_lt
      have hcollect := collectSteps_spec top.watermark hkey (2 ^ 32 + 1) 0 (by simp)
        (by simp; omega) []
      obtain ⟨r, hr, hiff, hok⟩ := hcollect
      simp only [husable, Bool.not_true, Bool.false_eq_true, if_false, hr, Option.map_some,
        Option.getD_some, true_and]
      have hcovered : (∃ l, r = .ok l) ↔
          ∀ step ≤ top.watermark, ∃ e ∈ committedEntries cps, e.stepIndex = step := by
        rw [hiff]
        refine forall_congr' fun s => ?_
        rw [hkept.lookup_eq, lookup_isSome]
        exact ⟨fun h => h (UInt32.zero_le), fun h _ => h⟩
      refine ⟨?_, ?_⟩
      · constructor
        · rintro ⟨p, hp⟩
          refine ⟨hbelong, husable, hcovered.mp ?_, hkept.agree⟩
          cases r with
          | error e => cases hp
          | ok l => exact ⟨l, rfl⟩
        · intro h
          obtain ⟨l, rfl⟩ := hcovered.mpr h.covered
          exact ⟨_, rfl⟩
      intro p hp
      cases r with
      | error e => cases hp
      | ok l =>
        obtain ⟨tail, htail, hmap, hmem⟩ := hok l rfl
        rw [List.nil_append] at htail
        subst htail
        have hsteps : l.map (·.stepIndex.toNat) = List.range (top.watermark.toNat + 1) := by
          simpa [List.range_eq_range'] using hmap
        obtain rfl : { top with walEntries := l } = p := by
          simpa [Except.map, sorted_of_steps hsteps] using hp
        refine ⟨⟨l, rfl⟩, hsteps, fun e he => ?_⟩
        rw [← hkept.lookup_eq]
        exact hmem e he
    · simp only [husable, Bool.not_false, if_true, Option.getD_some, reduceCtorEq, exists_false,
        false_implies, implies_true, and_true, false_iff, true_and]
      intro h
      exact husable h.usable

theorem committedEntries_perm (h : cps.Perm cps') :
    (committedEntries cps).Perm (committedEntries cps') := h.flatMap_right _

theorem Recoverable.perm (h : Recoverable taskID cps top) (hp : cps.Perm cps') : Recoverable taskID cps' top := by
  have hentries := committedEntries_perm hp
  refine ⟨fun cp hcp => h.belong cp (hp.mem_iff.mpr hcp), h.usable, fun step hle => ?_, ?_⟩
  · obtain ⟨e, he, hs⟩ := h.covered step hle
    exact ⟨e, hentries.mem_iff.mp he, hs⟩
  · exact Agree.perm walEntriesEquivalent_symm h.agree hentries

theorem IsTop.perm (h : IsTop cps top)
    (hp : cps.Perm cps') : IsTop cps' top :=
  ⟨hp.mem_iff.mp h.1, fun cp hcp => h.2 cp (hp.mem_iff.mpr hcp)⟩

theorem Recoverable.sameEntry (h : Recoverable taskID cps top) {a b : WalEntry} (ha : a ∈ committedEntries cps)
    (hb : b ∈ committedEntries cps) (hs : a.stepIndex = b.stepIndex) : SameEntry a b := by
  by_cases hab : a = b
  · exact .inl hab
  refine .inr ?_
  have hsymm : Std.Symm fun a b : WalEntry => a.stepIndex = b.stepIndex → walEntriesEquivalent a b = true :=
    ⟨fun x y hxy hs => walEntriesEquivalent_symm x y (hxy hs.symm)⟩
  exact h.agree.forall ha hb hab hs

theorem forall₂_sameEntry {l l' : List WalEntry} (hsteps : l.map (·.stepIndex.toNat) = l'.map (·.stepIndex.toNat))
    (hsame : ∀ a ∈ l, ∀ b ∈ l', a.stepIndex = b.stepIndex → SameEntry a b) :
    List.Forall₂ SameEntry l l' := by
  induction l generalizing l' with
  | nil =>
    obtain rfl : l' = [] := by simpa using hsteps.symm
    exact .nil
  | cons a l ih =>
    cases l' with
    | nil => simp at hsteps
    | cons b l' =>
      simp only [map_cons, List.cons.injEq] at hsteps
      refine .cons (hsame a (by simp) b (by simp) (UInt32.toNat_inj.mp hsteps.1)) (ih hsteps.2 ?_)
      intro x hx y hy
      exact hsame x (by simp [hx]) y (by simp [hy])

theorem buildCumulativeRecoveryCheckpoint_correct (taskID : Uuid) (cps : List CheckpointPayload)
    (hne : cps ≠ []) (hdistinct : (cps.map (·.watermark)).Nodup) :
    ∃ top, IsTop cps top ∧
      buildCumulativeWithin (2 ^ 32 + 1) taskID (cps.map some) =
        some (buildCumulativeRecoveryCheckpoint taskID (cps.map some)) ∧
      ((∃ r, buildCumulativeRecoveryCheckpoint taskID (cps.map some) = .ok (some r)) ↔
        Recoverable taskID cps top) ∧
      (∀ r, buildCumulativeRecoveryCheckpoint taskID (cps.map some) = .ok (some r) →
        r.taskID = taskID ∧ r.resumeToken = top.resumeToken ∧
        r.walEntries.map (·.stepIndex.toNat) = List.range (top.watermark.toNat + 1) ∧
        ∀ e ∈ r.walEntries, e ∈ committedEntries cps) ∧
      ∀ cps', cps.Perm cps' →
        ((∃ r, buildCumulativeRecoveryCheckpoint taskID (cps'.map some) = .ok (some r)) ↔
          ∃ r, buildCumulativeRecoveryCheckpoint taskID (cps.map some) = .ok (some r)) ∧
        ∀ r r', buildCumulativeRecoveryCheckpoint taskID (cps.map some) = .ok (some r) →
          buildCumulativeRecoveryCheckpoint taskID (cps'.map some) = .ok (some r') →
          r' = { r with walEntries := r'.walEntries } ∧ List.Forall₂ SameEntry r.walEntries r'.walEntries := by
  obtain ⟨top, htop, hreturn, hiff, hresult⟩ := buildCumulative_spec taskID hne
  refine ⟨top, htop, hreturn, hiff, fun r hr => ?_, fun cps' hp => ?_⟩
  · obtain ⟨⟨entries, rfl⟩, hsteps, hmem⟩ := hresult r hr
    have hbelong := (hiff.mp ⟨_, hr⟩).belong top htop.1
    exact ⟨hbelong.1, rfl, hsteps, fun e he => (lookup_eq_some (hmem e he)).1⟩
  have hne' : cps' ≠ [] := fun h => hne (by simpa [h] using hp)
  obtain ⟨top', htop', -, hiff', hresult'⟩ := buildCumulative_spec taskID hne'
  obtain rfl : top' = top := isTop_unique hdistinct (htop'.perm hp.symm) htop
  refine ⟨?_, fun r r' hr hr' => ?_⟩
  · rw [hiff, hiff']
    exact ⟨fun h => h.perm hp.symm, fun h => h.perm hp⟩
  have hrec := hiff.mp ⟨r, hr⟩
  obtain ⟨⟨entries, rfl⟩, hsteps, hmem⟩ := hresult r hr
  obtain ⟨⟨entries', rfl⟩, hsteps', hmem'⟩ := hresult' r' hr'
  refine ⟨rfl, forall₂_sameEntry (hsteps.trans hsteps'.symm) fun a ha b hb hs => ?_⟩
  refine hrec.sameEntry (lookup_eq_some (hmem a ha)).1 ?_ hs
  exact (committedEntries_perm hp).mem_iff.mpr (lookup_eq_some (hmem' b hb)).1

def firstStepCheckpoint : CheckpointPayload where
  taskID := 7
  resumeToken := ⟨0, [], []⟩
  walEntries := [⟨1, 7, 0, .null, "committed", [], none, 0, [], none⟩]
  metadata := []
  capturedAt := Time.zero

theorem buildCumulativeRecoveryCheckpoint_first_step :
    ∃ top, IsTop [firstStepCheckpoint] top ∧ Recoverable 7 [firstStepCheckpoint] top := by
  obtain ⟨top, htop, -, hiff, -⟩ :=
    buildCumulativeRecoveryCheckpoint_correct 7 [firstStepCheckpoint] (by simp) (by decide)
  have hbuilt : succeeded (buildCumulativeRecoveryCheckpoint 7 [some firstStepCheckpoint]) = true := by
    decide +kernel
  exact ⟨top, htop, hiff.mp (succeeded_iff.mp hbuilt)⟩

end Overture
