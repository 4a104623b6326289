import Overture.Policyproposals.Store

/-!
# The lifecycle of a proposal

An update is checked against the row it has read and then writes every column of it. As long as each update finds the
row as it has read it, the status moves as documented and the content of a proposal is frozen once it has left the
draft. A simulation is evidence for a rule only while no update changes the rule under it.
-/

namespace Overture.Proposals

open Option

open Service (Pool Move)

/-! ## The status -/

structure Proposal.Follows (p p' : Proposal) : Prop where
  status : p'.status = p.status ∨ (p.status = .draft ∧ p'.status = .reviewReady) ∨
    (p.status = .reviewReady ∧ p'.status = .draft) ∨ (p.status = .reviewReady ∧ p'.status = .approved) ∨
    p'.status = .archived
  content : p.status ≠ .draft → p'.content = p.content
  approved : p.status = .approved → p'.status = .approved ∨ p'.status = .archived

theorem Proposal.Follows.refl (p : Proposal) : p.Follows p := ⟨.inl rfl, fun _ => rfl, .inl⟩

def Undisturbed (q : Pool Rows Flight) : Move Flight Chance Empty → Prop
  | .act i _ =>
    match q.flights[i]? with
    | some (.updating tenantID _ read) => ∀ row ∈ live q.store tenantID read.proposalID,
      row.status = read.status ∧ row.content = read.content
    | _ => True
  | _ => True

instance (q : Pool Rows Flight) (m : Move Flight Chance Empty) : Decidable (Undisturbed q m) := by
  unfold Undisturbed
  split
  · split <;> infer_instance
  · infer_instance

def Consistent (rows : Rows) : Prop :=
  ∀ id p, rows.get? id = some p → (p.archived = true ↔ p.status = .archived)

def Checked : Flight → Prop
  | .updating _ edit read => edit.permitted read = true ∧ read.status ≠ .archived
  | _ => True

theorem Edit.status_write {edit : Edit} {read : Proposal} (h : edit.permitted read = true) (row : Proposal) :
    (edit.write read row).status = read.status ∨
      (read.status = .draft ∧ (edit.write read row).status = .reviewReady) ∨
      (read.status = .reviewReady ∧ (edit.write read row).status = .draft) := by
  rw [permitted, Bool.and_eq_true] at h
  cases hreadiness : edit.readiness with
  | none => simp [write, hreadiness]
  | some r =>
    have hr := h.2
    rw [hreadiness, all_some] at hr
    simp only [canToggleReadiness, Bool.or_eq_true, Bool.and_eq_true, beq_iff_eq] at hr
    simp only [write, hreadiness, map_some, getD_some]
    rcases hr with hr | (⟨hr, hr'⟩ | ⟨hr, hr'⟩) | hr
    · exact .inl hr
    · exact .inr (.inl ⟨hr, hr'⟩)
    · exact .inr (.inr ⟨hr, hr'⟩)
    · exact .inl hr.symm

theorem Edit.content_write {edit : Edit} {read row : Proposal} (h : edit.permitted read = true)
    (hstatus : read.status ≠ .draft) : (edit.write read row).content = read.content := by
  rw [permitted, Bool.and_eq_true] at h
  have hno : edit.hasContentEdit = false := by
    simpa [canEditContent, hstatus] using h.1
  simp only [hasContentEdit, Bool.or_eq_false_iff, isSome_eq_false_iff, isNone_iff_eq_none] at hno
  obtain ⟨⟨⟨hname, hdescription⟩, hmode⟩, hcriteria⟩ := hno
  simp [write, Proposal.content, hname, hdescription, hmode, hcriteria]

variable {rows : Rows} {f : Flight} {p p' : Proposal}

theorem checked_of_prepared (hrows : Consistent rows) (h : Prepared rows f) : Checked f := by
  cases h with
  | @updating tenantID edit read hlive hpermitted =>
    obtain ⟨hget, -, harchived⟩ := live_eq_some_iff.mp hlive
    refine ⟨hpermitted, fun hstatus => ?_⟩
    rw [(hrows _ _ hget).mpr hstatus] at harchived
    cases harchived
  | saveSimulation => trivial
  | approving => trivial
  | answered => trivial

theorem consistent_of_wrote (hp : p.archived = true ↔ p.status = .archived)
    (harchived : p.archived = false) (hf : Checked f) (h : Wrote f p p') :
    p'.archived = true ↔ p'.status = .archived := by
  cases h with
  | @update tenantID edit read row =>
    have hstatus : (edit.write read p).status ≠ .archived := by
      rcases Edit.status_write hf.1 p with hs | ⟨-, hs⟩ | ⟨-, hs⟩
      · rw [hs]
        exact hf.2
      · simp [hs]
      · simp [hs]
    simp [Edit.write, harchived] at hstatus ⊢
    exact hstatus
  | simulation => exact hp
  | approve => simp [harchived]
  | archive => simp

theorem keeps_checked (ok : Pool Rows Flight → Move Flight Chance Empty → Prop) :
    store.Keeps ok Consistent (fun _ => Checked) (fun _ _ => True) where
  arrive rows f _ hentry := by cases f <;> trivial
  exec q i f c rows' f' hq _ hf hexec := by
    obtain ⟨heffect, hprepared⟩ := exec_effect hexec
    have hrows : Consistent rows' := by
      intro id p' hp'
      rcases heffect.cases_of_get? hp' with hp | ⟨hstatus, harchived, -⟩ | ⟨p, hp, harchived, hwrote⟩
      · exact hq.store id p' hp
      · simp [hstatus, harchived]
      · exact consistent_of_wrote (hq.store id p hp) harchived (hq.flights f (List.mem_of_getElem? hf)) hwrote
    exact ⟨hrows, trivial, fun g hg => checked_of_prepared hrows (hprepared g hg)⟩
  env _ e := nomatch e
  stable _ _ _ _ _ _ h := h

theorem holds_start : Service.Holds Consistent (fun _ => Checked) start := by
  constructor
  · intro id p hp
    cases hp
  · simp [start]

theorem follows_of_wrote (hf : Checked f)
    (hread : ∀ tenantID edit read, f = .updating tenantID edit read → p.status = read.status ∧ p.content = read.content)
    (h : Wrote f p p') : p.Follows p' := by
  cases h with
  | @update tenantID edit read =>
    obtain ⟨hstatus, hcontent⟩ := hread tenantID edit read rfl
    have hmoves := Edit.status_write hf.1 p
    rw [← hstatus] at hmoves
    constructor
    · rcases hmoves with hs | hs | hs
      · exact .inl hs
      · exact .inr (.inl hs)
      · exact .inr (.inr (.inl hs))
    · intro hdraft
      rw [hcontent]
      exact edit.content_write hf.1 (hstatus ▸ hdraft)
    intro happroved
    rcases hmoves with hs | ⟨hs, -⟩ | ⟨hs, -⟩
    · exact .inl (hs.trans happroved)
    · simp [happroved] at hs
    · simp [happroved] at hs
  | simulation => exact ⟨.inl rfl, fun _ => rfl, .inl⟩
  | approve _ hready => exact ⟨.inr (.inr (.inr (.inl ⟨hready, rfl⟩))), fun _ => rfl, fun _ => .inl rfl⟩
  | archive => exact ⟨.inr (.inr (.inr (.inr rfl))), fun _ => rfl, fun _ => .inr rfl⟩

theorem follows_of_move {q r : Pool Rows Flight} {m : Move Flight Chance Empty}
    (hq : Service.Holds Consistent (fun _ => Checked) q) (hok : Undisturbed q m) (h : store.move q m = some r)
    {id : Uuid} (hp : q.store.get? id = some p) : ∃ p', r.store.get? id = some p' ∧ p.Follows p' := by
  cases m with
  | arrive f =>
    obtain ⟨-, rfl⟩ := Service.move_arrive h
    exact ⟨p, hp, .refl p⟩
  | act i c =>
    obtain ⟨f, rows', f', hf, hexec, rfl⟩ := Service.move_act h
    rcases (exec_effect hexec).1.get? hp with hp' | ⟨p', hp', harchived, hwrote⟩
    · exact ⟨p, hp', .refl p⟩
    refine ⟨p', hp', follows_of_wrote (hq.flights f (List.mem_of_getElem? hf)) ?_ hwrote⟩
    rintro tenantID edit read rfl
    cases hwrote with
    | update htenant hid =>
      rw [Undisturbed, hf] at hok
      have hpid : p.proposalID = id := Table.key_of_get? hp
      exact hok p (live_eq_some_iff.mpr ⟨by rw [← hid, hpid, hp], htenant, harchived⟩)
  | env e => exact nomatch e

/-- In every run whose updates find what they have read, a proposal moves as documented, and once approved it
can only be archived. -/
theorem proposals_follow {q : Pool Rows Flight} (hq : store.Run Undisturbed start q) :
    (∀ m r, Undisturbed q m → store.move q m = some r →
      ∀ id p, q.store.get? id = some p → ∃ p', r.store.get? id = some p' ∧ p.Follows p') ∧
    ∀ r, store.Run Undisturbed q r → ∀ id p, q.store.get? id = some p → p.status = .approved →
      ∃ p', r.store.get? id = some p' ∧ (p'.status = .approved ∨ p'.status = .archived) ∧ p'.content = p.content := by
  have hholds := (keeps_checked Undisturbed).run holds_start hq
  constructor
  · intro m r hok hmove id p hp
    exact follows_of_move hholds hok hmove hp
  intro r hr id p hp happroved
  -- what is claimed of the last state is kept by every move, together with the invariant
  have hall : Service.Holds Consistent (fun _ => Checked) r ∧
      ∃ p', r.store.get? id = some p' ∧ (p'.status = .approved ∨ p'.status = .archived) ∧ p'.content = p.content := by
    refine hr.invariant (I := fun s => Service.Holds Consistent (fun _ => Checked) s ∧ ∃ p',
      s.store.get? id = some p' ∧ (p'.status = .approved ∨ p'.status = .archived) ∧ p'.content = p.content)
      ⟨hholds, p, hp, .inl happroved, rfl⟩ ?_
    rintro s m s' ⟨hs, p₁, hp₁, hstatus, hcontent⟩ hok hmove
    obtain ⟨p₂, hp₂, hfollows⟩ := follows_of_move hs hok hmove hp₁
    refine ⟨(keeps_checked Undisturbed).move hs hok hmove, p₂, hp₂, ?_, ?_⟩
    · rcases hstatus with hstatus | hstatus
      · exact hfollows.approved hstatus
      · rcases hfollows.status with h | ⟨h, -⟩ | ⟨h, -⟩ | ⟨h, -⟩ | h
        · exact .inr (h.trans hstatus)
        · simp [hstatus] at h
        · simp [hstatus] at h
        · simp [hstatus] at h
        · exact .inr h
    · rw [← hcontent]
      apply hfollows.content
      rcases hstatus with hstatus | hstatus <;> simp [hstatus]
  exact hall.2

/-! ## The evidence -/

/-- An update changes the rule only of a proposal without a simulation, and a simulation is saved for the rule
it was computed for. -/
def Evidenced (q : Pool Rows Flight) : Move Flight Chance Empty → Prop
  | .act i _ =>
    match q.flights[i]? with
    | some (.updating tenantID edit read) => ∀ row ∈ live q.store tenantID read.proposalID,
      row.latestSimulation = none ∨
        (row.policyMode = read.policyMode ∧ row.matchCriteria = read.matchCriteria ∧
          edit.policyMode.getD read.policyMode = read.policyMode ∧
          edit.matchCriteria.getD read.matchCriteria = read.matchCriteria)
    | some (.saveSimulation tenantID proposalID simulation) => ∀ row ∈ live q.store tenantID proposalID,
      row.policyMode = simulation.policyMode ∧ row.matchCriteria = simulation.matchCriteria
    | _ => True
  | _ => True

instance (q : Pool Rows Flight) (m : Move Flight Chance Empty) : Decidable (Evidenced q m) := by
  unfold Evidenced
  split
  · split <;> infer_instance
  · infer_instance

def Simulation.For (simulation : Simulation) (p : Proposal) : Prop :=
  simulation.policyMode = p.policyMode ∧ simulation.matchCriteria = p.matchCriteria

structure Proposal.Sound (p : Proposal) : Prop where
  simulated : ∀ simulation ∈ p.latestSimulation, simulation.For p
  approved : p.status = .approved → p.latestSimulation.isSome = true

def Sound (rows : Rows) : Prop := ∀ id p, rows.get? id = some p → p.Sound

def KeepsSimulations (rows rows' : Rows) : Prop :=
  ∀ id p, rows.get? id = some p → ∃ p', rows'.get? id = some p' ∧
    (p.latestSimulation.isSome = true → p'.latestSimulation.isSome = true)

def Simulated (rows : Rows) (proposalID : Uuid) : Prop :=
  ∃ p, rows.get? proposalID = some p ∧ p.latestSimulation.isSome = true

def ReadSimulated (rows : Rows) : Flight → Prop
  | .updating _ _ read => read.status = .approved → Simulated rows read.proposalID
  | .approving _ read => Simulated rows read.proposalID
  | _ => True

theorem Wrote.keeps_simulation (h : Wrote f p p')
    (hp : p.latestSimulation.isSome = true) : p'.latestSimulation.isSome = true := by
  cases h with
  | update => exact hp
  | simulation => rfl
  | approve => exact hp
  | archive => exact hp

theorem Effect.keepsSimulations {rows' : Rows} (h : Effect rows f rows') :
    KeepsSimulations rows rows' := by
  intro id p hp
  rcases h.get? hp with hp' | ⟨p', hp', -, hwrote⟩
  · exact ⟨p, hp', fun hsimulated => hsimulated⟩
  · exact ⟨p', hp', hwrote.keeps_simulation⟩

theorem Simulated.mono {rows' : Rows} (h : KeepsSimulations rows rows') {proposalID : Uuid}
    (hp : Simulated rows proposalID) : Simulated rows' proposalID := by
  obtain ⟨p, hp, hsimulated⟩ := hp
  obtain ⟨p', hp', hkept⟩ := h _ p hp
  exact ⟨p', hp', hkept hsimulated⟩

theorem readSimulated_of_prepared (hrows : Sound rows) (h : Prepared rows f) :
    ReadSimulated rows f := by
  cases h with
  | @updating tenantID edit read hlive =>
    intro happroved
    have hget := (live_eq_some_iff.mp hlive).1
    exact ⟨read, hget, (hrows _ _ hget).approved happroved⟩
  | saveSimulation => trivial
  | @approving tenantID read hlive _ hsimulated => exact ⟨read, (live_eq_some_iff.mp hlive).1, hsimulated⟩
  | answered => trivial

theorem Readiness.status_ne_approved (r : Readiness) : r.status ≠ .approved := by
  cases r <;> simp [status]

theorem sound_of_wrote {q : Pool Rows Flight} {i : Nat} {c : Chance} {id : Uuid}
    (hok : Evidenced q (.act i c)) (hf : q.flights[i]? = some f) (hread : ReadSimulated q.store f)
    (hp : q.store.get? id = some p) (hsound : p.Sound) (harchived : p.archived = false) (h : Wrote f p p') :
    p'.Sound := by
  have hid : p.proposalID = id := Table.key_of_get? hp
  have hself : ∀ row, q.store.get? p.proposalID = some row → row = p := by
    intro row hrow
    rw [hid, hp, some_inj] at hrow
    exact hrow.symm
  rw [Evidenced, hf] at hok
  cases h with
  | @update tenantID edit read _ htenant hpid =>
    have hlive : live q.store tenantID read.proposalID = some p :=
      live_eq_some_iff.mpr ⟨by rw [← hpid, hid, hp], htenant, harchived⟩
    constructor
    · intro simulation hsimulation
      have hfor := hsound.simulated simulation hsimulation
      rcases hok p hlive with hnone | ⟨hmode, hcriteria, hmode', hcriteria'⟩
      · have hsome : p.latestSimulation = some simulation := hsimulation
        rw [hnone] at hsome
        cases hsome
      · exact ⟨hfor.1.trans (hmode.trans hmode'.symm), hfor.2.trans (hcriteria.trans hcriteria'.symm)⟩
    intro happroved
    have hreadiness : edit.readiness = none := by
      cases hr : edit.readiness with
      | none => rfl
      | some r =>
        simp only [Edit.write, hr, map_some, getD_some] at happroved
        exact absurd happroved r.status_ne_approved
    simp only [Edit.write, hreadiness, map_none, getD_none] at happroved
    obtain ⟨row, hrow, hsimulated⟩ := hread happroved
    rw [← hpid] at hrow
    rwa [hself row hrow] at hsimulated
  | @simulation tenantID simulation _ htenant =>
    have hlive : live q.store tenantID p.proposalID = some p :=
      live_eq_some_iff.mpr ⟨by rw [hid, hp], htenant, harchived⟩
    obtain ⟨hmode, hcriteria⟩ := hok p hlive
    refine ⟨?_, fun _ => rfl⟩
    rintro s ⟨⟩
    exact ⟨hmode.symm, hcriteria.symm⟩
  | @approve tenantID read _ hpid =>
    refine ⟨hsound.simulated, fun _ => ?_⟩
    obtain ⟨row, hrow, hsimulated⟩ := hread
    rw [← hpid] at hrow
    rwa [hself row hrow] at hsimulated
  | archive => exact ⟨hsound.simulated, by simp⟩

theorem keeps_sound : store.Keeps Evidenced Sound ReadSimulated KeepsSimulations where
  arrive rows f _ hentry := by cases f <;> trivial
  exec q i f c rows' f' hq hok hf hexec := by
    obtain ⟨heffect, hprepared⟩ := exec_effect hexec
    have hrows : Sound rows' := by
      intro id p' hp'
      rcases heffect.cases_of_get? hp' with hp | ⟨hstatus, -, hsimulation⟩ | ⟨p, hp, harchived, hwrote⟩
      · exact hq.store id p' hp
      · exact ⟨by simp [hsimulation], by simp [hstatus]⟩
      · exact sound_of_wrote hok hf (hq.flights f (List.mem_of_getElem? hf)) hp (hq.store id p hp) harchived hwrote
    exact ⟨hrows, heffect.keepsSimulations, fun g hg => readSimulated_of_prepared hrows (hprepared g hg)⟩
  env _ e := nomatch e
  stable rows rows' f _ _ hkeeps h := by
    cases f with
    | updating tenantID edit read => exact fun happroved => (h happroved).mono hkeeps
    | approving tenantID read => exact Simulated.mono hkeeps h
    | _ => trivial

/-- In every run that meets the condition, an approved proposal is approved on a simulation of its own rule. -/
theorem approved_on_evidence {q : Pool Rows Flight} (hq : store.Run Evidenced start q) {id : Uuid} {p : Proposal}
    (hp : q.store.get? id = some p) (happroved : p.status = .approved) :
    ∃ simulation, p.latestSimulation = some simulation ∧ simulation.policyMode = p.policyMode ∧
      simulation.matchCriteria = p.matchCriteria := by
  have hstart : Service.Holds Sound ReadSimulated start := by
    constructor
    · intro id p hp
      cases hp
    · simp [start]
  have hsound := (keeps_sound.run hstart hq).store id p hp
  obtain ⟨simulation, hsimulation⟩ := isSome_iff_exists.mp (hsound.approved happroved)
  obtain ⟨hmode, hcriteria⟩ := hsound.simulated simulation hsimulation
  exact ⟨simulation, hsimulation, hmode, hcriteria⟩

/-! ## A proposal -/

def sampleCriteria (action : String) : MatchCriteria where
  range := "24h"
  matchActionName := action.toList
  matchActionPrefix := []
  matchAgentID := []
  matchAgentType := []
  matchResultStatus := []
  requireProofMissing := false
  requireRecoveryOccurred := false
  requireEvalFailed := false

def noUpdate : UpdateInput := ⟨none, none, none, none, none⟩

def createRefunds : Flight := .create "acme" ⟨"Refunds", [], "block", sampleCriteria "refund"⟩

def sampleID : Text := Uuid.toText 5

def markReady : Flight := .update "acme" sampleID { noUpdate with status := some "review_ready" }

def renameRefunds : Flight := .update "acme" sampleID { noUpdate with name := some "All refunds" }

def twice (i : Nat) (c : Chance) : List (Move Flight Chance Empty) := [.act i c, .act i c]

def created : List (Move Flight Chance Empty) := [.arrive createRefunds, .act 0 { newID := 5 }]

def reviewed : List (Move Flight Chance Empty) :=
  created ++ [.arrive markReady] ++ twice 1 {} ++ [.arrive (.simulate "acme" sampleID)] ++
    twice 2 { summary := some "none affected" } ++ [.arrive (.approve "acme" sampleID)] ++ twice 3 {}

theorem exists_reviewed {ok : Pool Rows Flight → Move Flight Chance Empty → Prop}
    (hmeets : store.Meets ok start reviewed) :
    ∃ q p, store.Run ok start q ∧ q.store.get? 5 = some p ∧ p.status = .approved := by
  have hrun : (store.run start reviewed).any (fun q =>
      (q.store.get? 5).any fun p => p.status == .approved) = true := by decide +kernel
  obtain ⟨q, hq, h⟩ := (any_eq_true _ _).mp hrun
  obtain ⟨p, hp, h⟩ := (any_eq_true _ _).mp h
  exact ⟨q, p, .of_run .refl hmeets hq, hp, beq_iff_eq.mp h⟩

/-- An update that was read while the proposal was a draft takes an approved proposal back to draft. -/
theorem approved_back_to_draft : ∃ q r p p', store.Run Service.anyMove start q ∧
    store.move q (.act 1 {}) = some r ∧ q.store.get? 5 = some p ∧ r.store.get? 5 = some p' ∧
    p.status = .approved ∧ p'.status = .draft ∧ p'.name ≠ p.name := by
  -- the rename arrives second and reads; the rest of the run happens before it writes
  have hrun : (store.run start (created ++ [.arrive renameRefunds, .act 1 {}, .arrive markReady] ++ twice 2 {} ++
      [.arrive (.simulate "acme" sampleID)] ++ twice 3 { summary := some "none affected" } ++
      [.arrive (.approve "acme" sampleID)] ++ twice 4 {})).any (fun q =>
        (store.move q (.act 1 {})).any fun r => (q.store.get? 5).any fun p => (r.store.get? 5).any fun p' =>
          p.status == .approved && p'.status == .draft && p'.name != p.name) = true := by
    decide +kernel
  obtain ⟨q, hq, h⟩ := (any_eq_true _ _).mp hrun
  obtain ⟨r, hr, h⟩ := (any_eq_true _ _).mp h
  obtain ⟨p, hp, h⟩ := (any_eq_true _ _).mp h
  obtain ⟨p', hp', h⟩ := (any_eq_true _ _).mp h
  simp only [Bool.and_eq_true, beq_iff_eq, bne_iff_ne] at h
  exact ⟨q, r, p, p', .of_run .refl (Service.meets_anyMove _ _) hq, hr, hp, hp', h.1.1, h.1.2, h.2⟩

theorem approved_stays_approved : ∃ q p, store.Run Undisturbed start q ∧ q.store.get? 5 = some p ∧
    p.status = .approved ∧ ∀ r, store.Run Undisturbed q r →
      ∃ p', r.store.get? 5 = some p' ∧ (p'.status = .approved ∨ p'.status = .archived) ∧ p'.content = p.content := by
  have hmeets : store.Meets Undisturbed start reviewed := by decide +kernel
  obtain ⟨q, p, hreach, hp, happroved⟩ := exists_reviewed hmeets
  exact ⟨q, p, hreach, hp, happroved, fun r hr => (proposals_follow hreach).2 r hr 5 p hp happroved⟩

def widen : Flight :=
  .update "acme" sampleID { noUpdate with matchCriteria := some (sampleCriteria "payout") }

/-- Simulated for refunds, then edited to match payouts, marked ready and approved. -/
theorem approved_on_other_rule : ∃ q p simulation, store.Run Service.anyMove start q ∧ q.store.get? 5 = some p ∧
    p.status = .approved ∧ p.latestSimulation = some simulation ∧ simulation.matchCriteria ≠ p.matchCriteria := by
  have hrun : (store.run start (created ++ [.arrive (.simulate "acme" sampleID)] ++
      twice 1 { summary := some "none affected" } ++ [.arrive widen] ++ twice 2 {} ++ [.arrive markReady] ++
      twice 3 {} ++ [.arrive (.approve "acme" sampleID)] ++ twice 4 {})).any (fun q =>
        (q.store.get? 5).any fun p => p.latestSimulation.any fun simulation =>
          p.status == .approved && simulation.matchCriteria != p.matchCriteria) = true := by
    decide +kernel
  obtain ⟨q, hq, h⟩ := (any_eq_true _ _).mp hrun
  obtain ⟨p, hp, h⟩ := (any_eq_true _ _).mp h
  obtain ⟨simulation, hsimulation, h⟩ := (any_eq_true _ _).mp h
  simp only [Bool.and_eq_true, beq_iff_eq, bne_iff_ne] at h
  exact ⟨q, p, simulation, .of_run .refl (Service.meets_anyMove _ _) hq, hp, h.1, hsimulation, h.2⟩

theorem approved_on_simulation : ∃ q p simulation, store.Run Evidenced start q ∧ q.store.get? 5 = some p ∧
    p.status = .approved ∧ p.latestSimulation = some simulation ∧ simulation.policyMode = p.policyMode ∧
    simulation.matchCriteria = p.matchCriteria := by
  have hmeets : store.Meets Evidenced start reviewed := by decide +kernel
  obtain ⟨q, p, hreach, hp, happroved⟩ := exists_reviewed hmeets
  obtain ⟨simulation, hsimulation⟩ := approved_on_evidence hreach hp happroved
  exact ⟨q, p, simulation, hreach, hp, happroved, hsimulation⟩

end Overture.Proposals
