import Overture.Lib.RelyGuarantee
import Overture.Api.OperatorReconciliation

/-!
# Turns of reconciliation requests

The advisory lock gives the requests on one run their turns. During its turn a request finds the history of the run
unchanged, so its answer is the one that this history calls for.
-/

namespace Overture

open Interleave List Function ReconciliationEvents Table Option ReconciliationEvent ReconciliationState

def OperatorRequest.fits (q : OperatorRequest) : Bool :=
  decide (1 ≤ q.actorID.length) && decide (q.actorID.length ≤ 256) && decide (q.actorEmail.length ≤ 320) &&
    decide (1 ≤ q.reason.length) && decide (q.reason.length ≤ 1000) &&
    q.externalReference.all (fun r => decide (1 ≤ r.2.length) && decide (r.2.length ≤ 256))

def Resolves (q : OperatorRequest) (e : ReconciliationEvent) : Prop :=
  e.run = q.run ∧ e.operatorRequestID = some q.requestID ∧ reconciliationRequestMatches e q = true

def Settles (q : OperatorRequest) (seen now : List ReconciliationEvent) (recorded : Option ReconciliationEvent)
    (a : ReconciliationAnswer) : Prop :=
  match seen.find? fun e => e.operatorRequestID == some q.requestID with
  | some original =>
    recorded = none ∧ a = if reconciliationRequestMatches original q = true then .replayed original else .conflict
  | none =>
    if seen.any (·.isTerminal) = true then recorded = none ∧ a = .conflict
    else if seen.any (·.isObservation) = false then recorded = none ∧ a = .notRequired
    else if q.fits = false then recorded = none ∧ a = .dbError
    else ∃ e, recorded = some e ∧ a = .created e ∧ Resolves q e ∧ seen ++ [e] <+: now

def FoundNone (q : OperatorRequest) (i : Nat) (s : ReconciliationState) : Prop :=
  ∃ seen, s.seen? i q.run = some seen ∧ seen.find? (fun e => e.operatorRequestID == some q.requestID) = none

/-- Unless one of its statements failed, a request is answered by what it found when it got its lock. -/
def AnsweredInTurn (q : OperatorRequest) (i : Nat) (a : ReconciliationAnswer) (s : ReconciliationState) : Prop :=
  (s.faulted i = true ∧ a = .dbError ∧ (s.recorded i = none ∨ FoundNone q i s)) ∨
    ∃ seen, s.seen? i q.run = some seen ∧ seen <+: s.history q.run ∧ Settles q seen (s.history q.run) (s.recorded i) a

theorem Settles.mono {q : OperatorRequest} {seen now now' : List ReconciliationEvent}
    {recorded : Option ReconciliationEvent} {a : ReconciliationAnswer} (h : Settles q seen now recorded a)
    (hgrows : now <+: now') : Settles q seen now' recorded a := by
  cases hfind : seen.find? fun e => e.operatorRequestID == some q.requestID with
  | some original =>
    rw [Settles, hfind] at h ⊢
    exact h
  | none =>
    rw [Settles, hfind] at h ⊢
    dsimp only at h ⊢
    split_ifs at h ⊢
    · exact h
    · exact h
    · exact h
    · obtain ⟨e, hrec, ha, hres, hpre⟩ := h
      exact ⟨e, hrec, ha, hres, hpre.trans hgrows⟩

namespace ReconciliationState

variable (lockKey : Text × Uuid → Int)

structure Inv (s : ReconciliationState) : Prop where
  identified : ∀ e ∈ s.store.events.rows, s.store.tables.identifies e = true
  issued : ∀ e ∈ s.store.events.rows, e.id ∈ s.issued
  issued_pending : ∀ i e, s.pending i = some e → e.id ∈ s.issued
  distinct : ∀ i j e e', i ≠ j → s.pending i = some e → s.pending j = some e' → e.id ≠ e'.id
  held : ∀ i e, s.pending i = some e → s.holder (lockKey e.run) = some i
  admitted : ∀ i e, s.pending i = some e → s.store.events.Admits e
  pending_identified : ∀ i e, s.pending i = some e → s.store.tables.identifies e = true
  source : ∀ e ∈ s.store.events.rows, e.isObservation = false → ∃ i, s.recorded i = some e

/-- What the others leave to a thread: its locks, the history of the runs it has locked, and its own
transaction. No event is lost. -/
structure Rely (i : Nat) (s s' : ReconciliationState) : Prop where
  holder : ∀ k, s'.holder k = some i ↔ s.holder k = some i
  kept : ∀ run, s.holder (lockKey run) = some i → s'.history run = s.history run
  grows : ∀ run, s.history run <+: s'.history run
  pending : s'.pending i = s.pending i
  entered : s'.entered i = s.entered i
  recorded : s'.recorded i = s.recorded i
  faulted : s'.faulted i = s.faulted i

structure Idle (i : Nat) (s : ReconciliationState) : Prop where
  holder : ∀ k, s.holder k ≠ some i
  pending : s.pending i = none
  entered : s.entered i = none
  recorded : s.recorded i = none
  faulted : s.faulted i = false

def Guar (i : Nat) (s s' : ReconciliationState) : Prop :=
  (s.Inv lockKey → s'.Inv lockKey) ∧ ∀ j, j ≠ i → s.Rely lockKey j s'

variable {lockKey} {i : Nat} {s s' s'' : ReconciliationState}

theorem Rely.refl (i : Nat) (s : ReconciliationState) : s.Rely lockKey i s where
  holder _ := Iff.rfl
  kept _ _ := rfl
  grows _ := prefix_refl _
  pending := rfl
  entered := rfl
  recorded := rfl
  faulted := rfl

theorem Rely.trans (h : s.Rely lockKey i s') (h' : s'.Rely lockKey i s'') : s.Rely lockKey i s'' where
  holder k := (h'.holder k).trans (h.holder k)
  kept run hrun := (h'.kept run ((h.holder _).mpr hrun)).trans (h.kept run hrun)
  grows run := (h.grows run).trans (h'.grows run)
  pending := h'.pending.trans h.pending
  entered := h'.entered.trans h.entered
  recorded := h'.recorded.trans h.recorded
  faulted := h'.faulted.trans h.faulted

theorem Rely.seen?_eq (h : s.Rely lockKey i s') (run : Text × Uuid) : s'.seen? i run = s.seen? i run := by
  rw [seen?, h.entered]
  rfl

theorem Idle.rely (h : s.Idle i) (hrely : s.Rely lockKey i s') : s'.Idle i where
  holder k hk := h.holder k ((hrely.holder k).mp hk)
  pending := hrely.pending.trans h.pending
  entered := hrely.entered.trans h.entered
  recorded := hrely.recorded.trans h.recorded
  faulted := hrely.faulted.trans h.faulted

theorem Guar.refl (i : Nat) (s : ReconciliationState) : s.Guar lockKey i s := ⟨id, fun j _ => .refl j s⟩

theorem Guar.trans (h : s.Guar lockKey i s') (h' : s'.Guar lockKey i s'') : s.Guar lockKey i s'' :=
  ⟨h'.1 ∘ h.1, fun j hj => (h.2 j hj).trans (h'.2 j hj)⟩

end ReconciliationState

theorem AnsweredInTurn.rely {lockKey : Text × Uuid → Int} {q : OperatorRequest} {i : Nat} {a : ReconciliationAnswer}
    {s s' : ReconciliationState} (h : AnsweredInTurn q i a s) (hrely : s.Rely lockKey i s') :
    AnsweredInTurn q i a s' := by
  rcases h with ⟨hfault, ha, hnew⟩ | ⟨seen, hseen, hpre, hsettles⟩
  · refine .inl ⟨hrely.faulted.trans hfault, ha, ?_⟩
    rw [hrely.recorded, FoundNone, hrely.seen?_eq]
    exact hnew
  refine .inr ⟨seen, (hrely.seen?_eq _).trans hseen, hpre.trans (hrely.grows _), ?_⟩
  rw [hrely.recorded]
  exact hsettles.mono (hrely.grows _)

namespace ReconciliationState

variable {lockKey : Text × Uuid → Int} {i : Nat} {s s' : ReconciliationState}

theorem guar_fault : s.Guar lockKey i (s.fault i) := by
  refine ⟨fun h => ⟨h.1, h.2, h.3, h.4, h.5, h.6, h.7, h.8⟩, fun j hj => ?_⟩
  exact ⟨fun _ => Iff.rfl, fun _ _ => rfl, fun _ => prefix_refl _, rfl, rfl, rfl, update_of_ne hj _ _⟩

theorem pending_release {j : Nat} {e : ReconciliationEvent} (h : (s.release i).pending j = some e) :
    j ≠ i ∧ s.pending j = some e := by
  change update s.pending i none j = some e at h
  by_cases hj : j = i
  · rw [hj, update_self] at h
    cases h
  · rw [update_of_ne hj] at h
    exact ⟨hj, h⟩

theorem holder_release {k : Int} {j : Nat} (hj : j ≠ i) : (s.release i).holder k = some j ↔ s.holder k = some j := by
  show (if s.holder k = some i then none else s.holder k) = some j ↔ s.holder k = some j
  split
  · next hk =>
    rw [hk]
    simp [hj.symm]
  · rfl

theorem guar_release : s.Guar lockKey i (s.release i) := by
  constructor
  · intro h
    refine ⟨h.identified, h.issued, ?_, ?_, ?_, ?_, ?_, h.source⟩
    · intro j e he
      exact h.issued_pending j e (pending_release he).2
    · intro j j' e e' hne he he'
      exact h.distinct j j' e e' hne (pending_release he).2 (pending_release he').2
    · intro j e he
      obtain ⟨hj, he⟩ := pending_release he
      exact (holder_release hj).mpr (h.held j e he)
    · intro j e he
      exact h.admitted j e (pending_release he).2
    · intro j e he
      exact h.pending_identified j e (pending_release he).2
  · intro j hj
    exact ⟨fun k => holder_release hj, fun _ _ => rfl, fun _ => prefix_refl _, update_of_ne hj _ _,
      rfl, rfl, rfl⟩

theorem Inv.widen (h : s.Inv lockKey) (tables : RunTables)
    (hmono : ∀ e, s.store.tables.identifies e = true → tables.identifies e = true) {issued : List Uuid}
    (hissued : s.issued ⊆ issued) : Inv lockKey { s with store := ⟨tables, s.store.events⟩, issued := issued } where
  identified e he := hmono e (h.identified e he)
  issued e he := hissued (h.issued e he)
  issued_pending i e he := hissued (h.issued_pending i e he)
  distinct := h.distinct
  held := h.held
  admitted := h.admitted
  pending_identified i e he := hmono e (h.pending_identified i e he)
  source := h.source

section Add

variable {e : ReconciliationEvent} (hallows : s.store.events.Admits e)

theorem Inv.add (h : s.Inv lockKey) (hident : s.store.tables.identifies e = true) (hissued : e.id ∈ s.issued)
    (hothers : ∀ j e', s.pending j = some e' → e.run ≠ e'.run ∧ e'.id ≠ e.id)
    {recorded : Nat → Option ReconciliationEvent} (hkept : ∀ j e', s.recorded j = some e' → recorded j = some e')
    (hsource : e.isObservation = false → ∃ j, recorded j = some e) :
    Inv lockKey { s with store := ⟨s.store.tables, s.store.events.add e hallows⟩, recorded := recorded } := by
  refine ⟨?_, ?_, h.issued_pending, h.distinct, h.held, ?_, h.pending_identified, ?_⟩
  · intro e' he'
    rcases mem_append.mp he' with hold | hlast
    · exact h.identified e' hold
    rw [mem_singleton.mp hlast]
    exact hident
  · intro e' he'
    rcases mem_append.mp he' with hold | hlast
    · exact h.issued e' hold
    rw [mem_singleton.mp hlast]
    exact hissued
  · intro j e' he'
    exact .add hallows (h.admitted j e' he') (hothers j e' he').1 (hothers j e' he').2
  · intro e' he' hres
    rcases mem_append.mp he' with hold | hlast
    · obtain ⟨j, hj⟩ := h.source e' hold hres
      exact ⟨j, hkept j e' hj⟩
    · rw [mem_singleton.mp hlast] at hres ⊢
      exact hsource hres

theorem rely_add (hlock : s.holder (lockKey e.run) ≠ some i) {tables : RunTables} {issued : List Uuid}
    {recorded : Nat → Option ReconciliationEvent} (hkept : recorded i = s.recorded i) :
    s.Rely lockKey i
      { s with
        store := ⟨tables, s.store.events.add e hallows⟩
        issued := issued
        recorded := recorded } := by
  refine ⟨fun _ => Iff.rfl, ?_, fun run => history_prefix_add hallows run, rfl, rfl, hkept, rfl⟩
  intro run hrun
  refine history_add_of_ne hallows ?_
  rintro rfl
  exact hlock hrun

include hallows in
theorem guar_record (hident : s.store.tables.identifies e = true) (hissued : e.id ∈ s.issued)
    (hdistinct : ∀ j e', s.pending j = some e' → e'.id ≠ e.id)
    (hlock : ∀ j, j ≠ i → s.holder (lockKey e.run) ≠ some j) (hi : s.pending i = none) (hnew : s.recorded i = none) :
    s.Guar lockKey i (s.record i e) := by
  rw [record, dif_pos hallows]
  constructor
  · intro h
    refine h.add hallows hident hissued ?_ ?_ fun _ => ⟨i, update_self i _ _⟩
    · intro j e' he'
      refine ⟨fun heq => hlock j ?_ (heq ▸ h.held j e' he'), hdistinct j e' he'⟩
      rintro rfl
      rw [hi] at he'
      cases he'
    intro j e' hj
    have hji : j ≠ i := by
      rintro rfl
      rw [hnew] at hj
      cases hj
    exact (update_of_ne hji _ _).trans hj
  · intro j hj
    exact rely_add hallows (hlock j hj) (update_of_ne hj _ _)

end Add

end ReconciliationState

theorem identifies_mono {s s' : RunTables} (hruns : ∀ r ∈ s.runs.rows, r ∈ s'.runs.rows) {e : ReconciliationEvent}
    (h : s.identifies e = true) : s'.identifies e = true := by
  obtain ⟨r, hr, hall⟩ := any_eq_true.mp h
  exact any_eq_true.mpr ⟨r, hruns r hr, hall⟩

theorem runs_createTask (columns : TaskColumns) (run : Option BoundRun) (s : RunTables) :
    ∀ r ∈ s.runs.rows, r ∈ (s.createTask columns run).runs.rows := by
  intro r hr
  rw [RunTables.createTask.eq_def]
  split
  · exact hr
  · cases run with
    | none => exact hr
    | some r' =>
      dsimp only
      split
      · have hget : (s.runs.putNew r').get? r.taskID = some r := by
          rw [get?_putNew, get?_of_mem hr]
          rfl
        exact mem_of_get? hget
      · exact hr

theorem observedTx_cases (s : RunStore) (fault : Option TxFault) (g : GeneratedColumns) (taskID : Uuid)
    (report : FailureReport) :
    (s.observedTx fault g taskID report).2 = s ∨
      ∃ events, (s.updated report taskID).insertObservation g taskID report.details s.events = .ok events ∧
        (s.observedTx fault g taskID report).2 = ⟨s.updated report taskID, events⟩ := by
  rw [RunStore.observedTx]
  split
  · exact .inl rfl
  split
  · exact .inl rfl
  split
  · exact .inl rfl
  split
  · exact .inl rfl
  next events hins =>
  split
  · exact .inl rfl
  · dsimp only
    split
    · exact .inr ⟨events, hins, rfl⟩
    · exact .inl rfl
  · exact .inr ⟨events, hins, rfl⟩

theorem selectObservation_eq_some {s : RunTables} {g : GeneratedColumns} {taskID : Uuid} {d : TaskFailureDetails}
    {e : ReconciliationEvent} (h : s.selectObservation g taskID d = some e) :
    ∃ r, s.runs.get? taskID = some r ∧ e.run = (r.tenantID, taskID) ∧ e.id = g.id ∧ e.isObservation = true := by
  rw [RunTables.selectObservation] at h
  obtain ⟨r, hr, h⟩ := bind_eq_some_iff.mp h
  obtain ⟨b, -, h⟩ := bind_eq_some_iff.mp h
  obtain ⟨t, -, h⟩ := bind_eq_some_iff.mp h
  split at h
  · cases h
    refine ⟨r, hr, ?_, rfl, rfl⟩
    rw [← key_of_get? hr]
    rfl
  · cases h

theorem insertObservation_eq_ok {s : RunTables} {g : GeneratedColumns} {taskID : Uuid} {d : TaskFailureDetails}
    {t t' : ReconciliationEvents} (h : s.insertObservation g taskID d t = .ok t') :
    t' = t ∨ ∃ e, s.selectObservation g taskID d = some e ∧ s.identifies e = true ∧
      ∃ hallows : t.Admits e, t' = t.add e hallows := by
  rw [RunTables.insertObservation] at h
  split at h
  · exact .inl (Except.ok.inj h).symm
  next e hselect =>
  split at h
  · exact .inl (Except.ok.inj h).symm
  obtain ⟨hguard, hallows, rfl⟩ := append_eq_ok.mp h
  obtain ⟨r, -, -, -, hobs⟩ := selectObservation_eq_some hselect
  have htype : e.eventType = .unresolvedEffectObserved := by simpa [isObservation] using hobs
  exact .inr ⟨e, hselect, ((guard_observation htype).mp hguard).1, hallows, rfl⟩

namespace ReconciliationState

variable {lockKey : Text × Uuid → Int} {s s' : ReconciliationState}

theorem rely_tables (i : Nat) {tables : RunTables} {issued : List Uuid} :
    s.Rely lockKey i { s with store := ⟨tables, s.store.events⟩, issued := issued } :=
  ⟨fun _ => Iff.rfl, fun _ _ => rfl, fun _ => prefix_refl _, rfl, rfl, rfl, rfl⟩

theorem tables_sound (h : s.Inv lockKey) (tables : RunTables) (hruns : ∀ r ∈ s.store.tables.runs.rows, r ∈ tables.runs.rows) :
    Inv lockKey { s with store := ⟨tables, s.store.events⟩ } ∧
      ∀ i, s.Rely lockKey i { s with store := ⟨tables, s.store.events⟩ } :=
  ⟨h.widen tables (fun _ he => identifies_mono hruns he) (List.Subset.refl _), fun i => rely_tables i⟩

/-- The other writes leave every thread its own, since an observation waits for the lock of its run. -/
theorem env_sound {step : RunStep} (h : s.Inv lockKey) (henv : reconciliationEnv lockKey step s = some s') :
    s'.Inv lockKey ∧ ∀ i, s.Rely lockKey i s' := by
  cases step with
  | resolve e => cases henv
  | register b =>
    cases henv
    exact tables_sound h (s.store.tables.register b) fun r hr => hr
  | createTask columns run =>
    cases henv
    exact tables_sound h (s.store.tables.createTask columns run) (runs_createTask columns run _)
  | update now u =>
    cases henv
    exact tables_sound h (s.store.tables.update now u) fun r hr => hr
  | observe fault g taskID report =>
    rw [reconciliationEnv] at henv
    split at henv
    · cases henv
    next hfree =>
    rw [not_or, Bool.not_eq_true] at hfree
    cases henv
    have hissued : s.issued ⊆ g.id :: s.issued := subset_cons_self _ _
    rw [RunStep.apply]
    rcases observedTx_cases s.store fault g taskID report with hsame | ⟨events, hins, hdone⟩
    · rw [hsame]
      exact ⟨h.widen s.store.tables (fun e he => he) hissued, fun i => rely_tables i⟩
    rw [hdone]
    have hwide := h.widen (s.store.updated report taskID) (fun e he => he) hissued
    rcases insertObservation_eq_ok hins with rfl | ⟨e, hselect, hident, hallows, rfl⟩
    · exact ⟨hwide, fun i => rely_tables i⟩
    obtain ⟨r, hr, hrun, hid, hobs⟩ := selectObservation_eq_some hselect
    have hlock : s.holder (lockKey e.run) = none := by
      have := hfree.2
      rw [show s.store.tables.runs.get? taskID = some r from hr] at this
      rw [hrun]
      simpa using this
    have hothers : ∀ j e', s.pending j = some e' → e.run ≠ e'.run ∧ e'.id ≠ e.id := by
      intro j e' he'
      refine ⟨fun heq => ?_, fun heq => ?_⟩
      · have hheld := h.held j e' he'
        rw [← heq, hlock] at hheld
        cases hheld
      · rw [hid] at heq
        exact hfree.1 (heq ▸ h.issued_pending j e' he')
    have hnew : e.id ∈ g.id :: s.issued := by
      rw [hid]
      exact mem_cons_self
    refine ⟨?_, fun i => rely_add hallows (by rw [hlock]; simp) rfl⟩
    exact Inv.add (s := { s with store := ⟨s.store.updated report taskID, s.store.events⟩, issued := g.id :: s.issued })
      hallows hwide hident hnew hothers (fun _ _ hj => hj) (fun hres => by rw [hobs] at hres; cases hres)

end ReconciliationState

/-! ## The transaction -/

variable (lockKey : Text × Uuid → Int)

def reconciliationRules : Rules (reconciliationSystem lockKey) where
  ok := (reconciliationSystem lockKey).always
  inv := ReconciliationState.Inv lockKey
  rely i s s' := s.Rely lockKey i s'
  guar i s s' := s.Guar lockKey i s'
  fresh n s := ∀ j, n ≤ j → s.Idle j
  atOp _ _ _ := True
  start _ j s := s.Idle j
  post q i a s := AnsweredInTurn q i a s

structure InTurn (q : OperatorRequest) (i : Nat) (seen : List ReconciliationEvent) (s : ReconciliationState) : Prop where
  lock : s.holder (lockKey q.run) = some i
  entered : s.seen? i q.run = some seen
  found : s.history q.run = seen
  recorded : s.recorded i = none

variable {lockKey} {q : OperatorRequest} {i : Nat} {seen : List ReconciliationEvent} {s s' : ReconciliationState}
  {a : ReconciliationAnswer}

theorem InTurn.rely (h : InTurn lockKey q i seen s) (hrely : s.Rely lockKey i s') : InTurn lockKey q i seen s' where
  lock := (hrely.holder _).mpr h.lock
  entered := (hrely.seen?_eq _).trans h.entered
  found := (hrely.kept _ h.lock).trans h.found
  recorded := hrely.recorded.trans h.recorded

theorem InTurn.answered (h : InTurn lockKey q i seen s) (ha : Settles q seen seen none a) : AnsweredInTurn q i a s := by
  refine .inr ⟨seen, h.entered, by rw [h.found], ?_⟩
  rw [h.recorded, h.found]
  exact ha

theorem answered_fault (h : s.recorded i = none ∨ FoundNone q i s) : AnsweredInTurn q i .dbError (s.fault i) :=
  .inl ⟨update_self i _ _, rfl, h⟩

theorem AnsweredInTurn.release (h : AnsweredInTurn q i a s) : AnsweredInTurn q i a (s.release i) := h

theorem guar_publish (hinv : s.Inv lockKey) (hnew : s.recorded i = none) : s.Guar lockKey i (s.publish i) := by
  rw [publish]
  split
  · exact guar_release
  next e he =>
  refine guar_release.trans ?_
  have hheld := hinv.held i e he
  refine guar_record (hinv.admitted i e he) (hinv.pending_identified i e he)
    (hinv.issued_pending i e he) ?_ ?_ (update_self i _ _) hnew
  · intro j e' he'
    obtain ⟨hj, he'⟩ := pending_release he'
    exact (hinv.distinct i j e e' hj.symm he he').symm
  intro j hj hlock
  rw [holder_release hj, hheld] at hlock
  exact hj (some.inj hlock).symm

theorem wp_reconciliationStatement {Q : ReconciliationAnswer → ReconciliationState → Prop} {o : ReconciliationOp}
    {k : o.Res → ReconciliationProg}
    (h : ∀ s₁, s.Rely lockKey i s₁ → s₁.Inv lockKey → ∀ c r s₂, reconciliationExec lockKey c i o s₁ = some (r, s₂) →
      s₁.Guar lockKey i s₂ ∧ (reconciliationRules lockKey).Wp i Q (k r) s₂) :
    (reconciliationRules lockKey).Wp i Q ((reconciliationStatement o).bind k) s := by
  intro s₁ hrely hinv
  exact ⟨trivial, fun c r s₂ _ hexec => h s₁ hrely hinv c r s₂ hexec⟩

theorem final_of_answered (h : AnsweredInTurn q i a s) : (reconciliationRules lockKey).Final i q a s :=
  ⟨ReconciliationState.Guar.refl i s, h⟩

theorem wp_rolledBack (h : AnsweredInTurn q i a s) :
    (reconciliationRules lockKey).Wp i ((reconciliationRules lockKey).Final i q) (rolledBack a) s := by
  refine wp_reconciliationStatement fun s₁ hrely hinv c r s₂ hexec => ?_
  cases hexec
  exact ⟨guar_release, final_of_answered (h.rely hrely).release⟩

theorem commitStep_cases {c : ReconciliationChoice} {r : Bool} (h : commitStep c i s = some (r, s')) :
    (r = true ∧ s' = s.publish i) ∨
      (r = false ∧ (s' = (s.publish i).fault i ∨ s' = (s.release i).fault i)) := by
  rw [commitStep] at h
  split at h
  · cases h
    split
    · exact .inr ⟨rfl, .inl rfl⟩
    · exact .inr ⟨rfl, .inr rfl⟩
  · cases h
    exact .inl ⟨rfl, rfl⟩

theorem publish_recorded (hnew : s.recorded i = none) (h : s.pending i = none ∨ FoundNone q i s) :
    (s.publish i).recorded i = none ∨ FoundNone q i (s.publish i) := by
  rw [publish]
  split
  · exact .inl hnew
  next e he =>
  rcases h with h | h
  · rw [he] at h
    cases h
  refine .inr ?_
  rw [record]
  split
  · exact h
  · exact h

theorem wp_committed (hnew : s.recorded i = none) (hfault : s.pending i = none ∨ FoundNone q i s)
    (h : ∀ s₁, s.Rely lockKey i s₁ → s₁.Inv lockKey → AnsweredInTurn q i a (s₁.publish i)) :
    (reconciliationRules lockKey).Wp i ((reconciliationRules lockKey).Final i q) (committed a) s := by
  refine wp_reconciliationStatement fun s₁ hrely hinv c r s₂ hexec => ?_
  have hnew₁ : s₁.recorded i = none := hrely.recorded.trans hnew
  have hfault₁ : s₁.pending i = none ∨ FoundNone q i s₁ := by
    rw [hrely.pending, FoundNone, hrely.seen?_eq]
    exact hfault
  have hpublish := guar_publish hinv hnew₁
  rcases commitStep_cases hexec with ⟨rfl, rfl⟩ | ⟨rfl, rfl | rfl⟩
  · exact ⟨hpublish, final_of_answered (h s₁ hrely hinv)⟩
  · exact ⟨hpublish.trans guar_fault,
      final_of_answered (answered_fault (publish_recorded hnew₁ hfault₁))⟩
  · exact ⟨guar_release.trans guar_fault,
      final_of_answered (answered_fault (.inl hnew₁))⟩

section Insert

variable {r : BoundRun} {b : ExecutionBinding} (g : GeneratedColumns)

theorem checks_resolutionOf (hformat : contractHashPattern r.contractHash = true ∧ contractHashPattern r.targetVersionHash = true) :
    (resolutionOf g q r).checks = q.fits := by
  have hemail : (if q.actorEmail = [] then none else some q.actorEmail).all (fun t => decide (t.length ≤ 320)) =
      decide (q.actorEmail.length ≤ 320) := by
    split
    · next hnil => simp [hnil]
    · rfl
  simp only [checks, shape, OperatorRequest.fits, resolutionOf, hformat.1,
    hformat.2, BoundRun.idempotencyDigest, contractHashPattern_sha256Hex, all_none, isSome_some,
    beq_self_eq_true, Bool.and_true, hemail]
  rfl

theorem identifies_resolutionOf {t : RunTables} (hr : r ∈ t.runs.rows) : t.identifies (resolutionOf g q r) = true := by
  refine any_eq_true.mpr ⟨r, hr, ?_⟩
  simp [resolutionOf]

theorem resolves_resolutionOf (hrun : (r.tenantID, r.taskID) = q.run) : Resolves q (resolutionOf g q r) :=
  ⟨hrun, rfl, by simp [reconciliationRequestMatches, resolutionOf]⟩

theorem append_resolutionOf {tables : RunTables} {t : ReconciliationEvents} (hr : r ∈ tables.runs.rows)
    (hrun : (r.tenantID, r.taskID) = q.run) (hobs : t.observed q.run = true) (hopen : t.resolved q.run = false)
    (hnew : (t.history q.run).find? (fun e => e.operatorRequestID == some q.requestID) = none)
    (hid : g.id ∉ t.rows.map ReconciliationEvent.id) :
    (q.fits = true ∧ ∃ h : t.Admits (resolutionOf g q r),
        t.append tables (resolutionOf g q r) = .ok (t.add (resolutionOf g q r) h)) ∨
      (q.fits = false ∧ t.append tables (resolutionOf g q r) = .error .checkViolation) := by
  have heRun : (resolutionOf g q r).run = q.run := hrun
  have hguard : enforceReconciliationEventAppend tables t (resolutionOf g q r) = .ok () :=
    (guard_resolution rfl).mpr ⟨identifies_resolutionOf g hr, heRun ▸ hobs, heRun ▸ hopen⟩
  obtain ⟨b, -, href⟩ := tables.bound r hr
  have hchecks := checks_resolutionOf (q := q) g (RunTables.hashFormat_of_refersTo href)
  cases hfits : q.fits with
  | false =>
    refine .inr ⟨rfl, ?_⟩
    rw [append, hguard]
    exact if_pos (hchecks.trans hfits)
  | true =>
    have hallows : t.Admits (resolutionOf g q r) := by
      refine ⟨hchecks.trans hfits, hid, all_eq_true.mpr fun e he => ?_, fun _ => heRun ▸ hobs, fun _ => heRun ▸ hopen⟩
      by_contra hclash
      simp only [clashes, Bool.not_eq_true', Bool.not_eq_false, Bool.and_eq_true, beq_iff_eq,
        Bool.or_eq_true] at hclash
      obtain ⟨hsame, (⟨-, hcon⟩ | ⟨-, hrequest⟩) | ⟨hterm, -⟩⟩ := hclash
      · cases hcon
      · have hmem : e ∈ t.history q.run := mem_history.mpr ⟨he, hsame.trans heRun⟩
        exact find?_eq_none.mp hnew e hmem (by rw [hrequest]; simp [resolutionOf])
      · rw [← Bool.not_eq_true, resolved_iff] at hopen
        exact hopen ⟨e, he, hsame.trans heRun, hterm⟩
    exact .inl ⟨rfl, hallows, append_eq_ok.mpr ⟨hguard, hallows, rfl⟩⟩

end Insert

theorem insertStep_cases {c : ReconciliationChoice} {r : InsertReply} (hinv : s.Inv lockKey)
    (hopen : s.store.events.resolved q.run = false)
    (hnew : (s.history q.run).find? (fun e => e.operatorRequestID == some q.requestID) = none)
    (h : insertStep c i q s = some (r, s')) :
    (r = .failed ∧ s' = s.fault i) ∨
      (r = .noRows ∧ s' = s ∧ s.store.events.observed q.run = false) ∨
      (r = .refused .checkViolation ∧ s' = s ∧ s.store.events.observed q.run = true ∧ q.fits = false) ∨
      ∃ e, r = .row e ∧ s.store.events.observed q.run = true ∧ q.fits = true ∧ Resolves q e ∧
        s.store.events.Admits e ∧ s.store.tables.identifies e = true ∧ e.id ∉ s.issued ∧
        s' = { s with pending := Function.update s.pending i (some e), issued := e.id :: s.issued } := by
  -- an observation belongs to a run that is there
  have hbound : s.store.events.observed q.run = true →
      ∃ r, s.store.tables.runs.get? q.taskID = some r ∧ r.tenantID = q.tenantID := by
    intro hobs
    obtain ⟨o, ho, horun, -⟩ := ReconciliationEvents.observed_iff.mp hobs
    obtain ⟨r, hr, hall⟩ := List.any_eq_true.mp (hinv.identified o ho)
    simp only [Bool.and_eq_true, beq_iff_eq] at hall
    obtain ⟨⟨⟨⟨⟨⟨htenant, htask⟩, -⟩, -⟩, -⟩, -⟩, -⟩ := hall
    have hget : s.store.tables.runs.get? r.taskID = some r := Table.get?_of_mem hr
    rw [htask, show o.taskID = q.taskID from congrArg Prod.snd horun] at hget
    exact ⟨r, hget, htenant.trans (congrArg Prod.fst horun)⟩
  rw [insertStep] at h
  split at h
  · cases h
    exact .inl ⟨rfl, rfl⟩
  split at h
  · next hnone =>
    cases h
    refine .inr (.inl ⟨rfl, rfl, Bool.not_eq_true _ |>.mp fun hobs => ?_⟩)
    obtain ⟨r, hr, -⟩ := hbound hobs
    rw [hnone] at hr
    cases hr
  next r hr =>
  split at h
  · next hfound =>
    split at h
    · cases h
    next hissued =>
    have hid : c.generated.id ∉ s.store.events.rows.map ReconciliationEvent.id := by
      intro hmem
      obtain ⟨e, he, heq⟩ := List.mem_map.mp hmem
      exact hissued (heq ▸ hinv.issued e he)
    have hrun : (r.tenantID, r.taskID) = q.run := by
      rw [OperatorRequest.run, hfound.1, show r.taskID = q.taskID from Table.key_of_get? hr]
    rcases append_resolutionOf c.generated (Table.mem_of_get? hr) hrun hfound.2 hopen hnew hid with
      ⟨hfits, hallows, happend⟩ | ⟨hfits, happend⟩
    · rw [happend] at h
      cases h
      exact .inr (.inr (.inr ⟨_, rfl, hfound.2, hfits, resolves_resolutionOf _ hrun, hallows,
        identifies_resolutionOf _ (Table.mem_of_get? hr), hissued, rfl⟩))
    rw [happend] at h
    cases h
    exact .inr (.inr (.inl ⟨rfl, rfl, hfound.2, hfits⟩))
  next hfound =>
  cases h
  refine .inr (.inl ⟨rfl, rfl, Bool.not_eq_true _ |>.mp fun hobs => ?_⟩)
  obtain ⟨r', hr', htenant⟩ := hbound hobs
  rw [hr] at hr'
  cases hr'
  exact hfound ⟨htenant, hobs⟩

variable {e : ReconciliationEvent} {run : Text × Uuid}

theorem guar_insert (hlock : s.holder (lockKey e.run) = some i)
    (hallows : s.store.events.Admits e) (hident : s.store.tables.identifies e = true) (hissued : e.id ∉ s.issued) :
    s.Guar lockKey i { s with pending := update s.pending i (some e), issued := e.id :: s.issued } := by
  have hpending : ∀ j e', update s.pending i (some e) j = some e' →
      (j = i ∧ e' = e) ∨ (j ≠ i ∧ s.pending j = some e') := by
    intro j e' he'
    by_cases hj : j = i
    · rw [hj, update_self] at he'
      exact .inl ⟨hj, (some.inj he').symm⟩
    · rw [update_of_ne hj] at he'
      exact .inr ⟨hj, he'⟩
  constructor
  · intro h
    have hfresh : ∀ j e', s.pending j = some e' → e'.id ≠ e.id :=
      fun j e' he' heq => hissued (heq ▸ h.issued_pending j e' he')
    refine ⟨h.identified, fun e' he' => mem_cons_of_mem _ (h.issued e' he'), ?_, ?_, ?_, ?_, ?_, h.source⟩
    · intro j e' he'
      rcases hpending j e' he' with ⟨-, rfl⟩ | ⟨-, he'⟩
      · exact mem_cons_self
      · exact mem_cons_of_mem _ (h.issued_pending j e' he')
    · intro j j' e₁ e₂ hne h₁ h₂
      rcases hpending j e₁ h₁ with ⟨hj, he₁⟩ | ⟨-, hold₁⟩ <;> rcases hpending j' e₂ h₂ with ⟨hj', he₂⟩ | ⟨-, hold₂⟩
      · exact absurd (hj.trans hj'.symm) hne
      · rw [he₁]
        exact (hfresh j' e₂ hold₂).symm
      · rw [he₂]
        exact hfresh j e₁ hold₁
      · exact h.distinct j j' e₁ e₂ hne hold₁ hold₂
    · intro j e' he'
      rcases hpending j e' he' with ⟨rfl, rfl⟩ | ⟨-, he'⟩
      · exact hlock
      · exact h.held j e' he'
    · intro j e' he'
      rcases hpending j e' he' with ⟨-, rfl⟩ | ⟨-, he'⟩
      · exact hallows
      · exact h.admitted j e' he'
    · intro j e' he'
      rcases hpending j e' he' with ⟨-, rfl⟩ | ⟨-, he'⟩
      · exact hident
      · exact h.pending_identified j e' he'
  · intro j hj
    exact ⟨fun _ => Iff.rfl, fun _ _ => rfl, fun _ => prefix_refl _, update_of_ne hj _ _, rfl, rfl, rfl⟩

theorem answered_publish (h : InTurn lockKey q i seen s) (hinv : s.Inv lockKey)
    (hpending : s.pending i = some e) (hres : Resolves q e)
    (hsettles : ∀ now, seen ++ [e] <+: now → Settles q seen now (some e) (.created e)) :
    AnsweredInTurn q i (.created e) (s.publish i) := by
  have hallows := hinv.admitted i e hpending
  have hpublish : s.publish i = (s.release i).record i e := by rw [publish, hpending]
  have hrecord : (s.release i).record i e = { s.release i with
      store := ⟨s.store.tables, s.store.events.add e hallows⟩
      recorded := update s.recorded i (some e) } := dif_pos hallows
  have hhistory : ((s.release i).record i e).history q.run = seen ++ [e] := by
    rw [hrecord, ← hres.1, ← h.found, ← hres.1]
    exact history_add_self hallows
  have hrecorded : ((s.release i).record i e).recorded i = some e := by
    rw [hrecord]
    exact update_self i _ _
  rw [hpublish]
  refine .inr ⟨seen, by rw [hrecord]; exact h.entered, ?_, ?_⟩
  · rw [hhistory]
    exact prefix_append _ _
  · rw [hhistory, hrecorded]
    exact hsettles _ (prefix_refl _)

theorem wp_insertResolution (h : InTurn lockKey q i seen s)
    (hnew : seen.find? (fun e => e.operatorRequestID == some q.requestID) = none)
    (hopen : seen.any (·.isTerminal) = false) :
    (reconciliationRules lockKey).Wp i ((reconciliationRules lockKey).Final i q) (insertResolution q) s := by
  refine wp_reconciliationStatement fun s₁ hrely hinv c r s₂ hexec => ?_
  have hturn := h.rely hrely
  have hfound : s₁.store.events.history q.run = seen := hturn.found
  have hobserved : s₁.store.events.observed q.run = seen.any (·.isObservation) := by
    rw [observed, hfound]
  have hopen₁ : s₁.store.events.resolved q.run = false := by
    rw [resolved, hfound]
    exact hopen
  have hnew₁ : (s₁.history q.run).find? (fun e => e.operatorRequestID == some q.requestID) = none := by
    rw [hturn.found]
    exact hnew
  have hterm : ¬ seen.any (·.isTerminal) = true := by simp [hopen]
  rcases insertStep_cases hinv hopen₁ hnew₁ hexec with ⟨rfl, rfl⟩ | ⟨rfl, hs₂, hobs⟩ | ⟨rfl, hs₂, hobs, hfits⟩ |
    ⟨e, rfl, hobs, hfits, hres, hallows, hident, hissued, rfl⟩
  · exact ⟨guar_fault, wp_rolledBack (answered_fault (.inl hturn.recorded))⟩
  · rw [hs₂]
    refine ⟨.refl i s₁, wp_rolledBack (hturn.answered ?_)⟩
    rw [Settles, hnew]
    dsimp only
    rw [if_neg hterm, if_pos (hobserved ▸ hobs)]
    exact ⟨rfl, rfl⟩
  · rw [hs₂]
    refine ⟨.refl i s₁, wp_rolledBack (hturn.answered ?_)⟩
    rw [Settles, hnew]
    dsimp only
    rw [if_neg hterm, if_neg (by rw [← hobserved, hobs]; simp), if_pos hfits]
    exact ⟨rfl, rfl⟩
  · have hguar := guar_insert (hres.1 ▸ hturn.lock) hallows hident hissued
    refine ⟨hguar, wp_committed hturn.recorded (.inr ⟨seen, hturn.entered, hnew⟩) fun s₃ hs₃ hinv₃ => ?_⟩
    have hturn₂ : InTurn lockKey q i seen
        { s₁ with pending := update s₁.pending i (some e), issued := e.id :: s₁.issued } :=
      ⟨hturn.lock, hturn.entered, hturn.found, hturn.recorded⟩
    refine answered_publish (hturn₂.rely hs₃) hinv₃ (hs₃.pending.trans (update_self i _ _)) hres fun now hnow => ?_
    rw [Settles, hnew]
    dsimp only
    rw [if_neg hterm, if_neg (by rw [← hobserved, hobs]; simp), if_neg (by simp [hfits])]
    exact ⟨e, rfl, rfl, hres, hnow⟩

theorem wp_resolveNew (h : InTurn lockKey q i seen s)
    (hnew : seen.find? (fun e => e.operatorRequestID == some q.requestID) = none) :
    (reconciliationRules lockKey).Wp i ((reconciliationRules lockKey).Final i q) (resolveNew q) s := by
  refine wp_reconciliationStatement fun s₁ hrely hinv c r s₂ hexec => ?_
  have hturn := h.rely hrely
  have hresolved : s₁.store.events.resolved q.run = seen.any (·.isTerminal) := by
    rw [resolved, show s₁.store.events.history q.run = seen from hturn.found]
  change selectTerminalStep c i q.run s₁ = some (r, s₂) at hexec
  rw [selectTerminalStep] at hexec
  split at hexec
  · cases hexec
    exact ⟨guar_fault, wp_rolledBack (answered_fault (.inl hturn.recorded))⟩
  obtain ⟨rfl, hs₂⟩ := Prod.mk.inj (some.inj hexec)
  rw [← hs₂, hresolved]
  refine ⟨.refl i s₁, ?_⟩
  cases hterm : seen.any (·.isTerminal) with
  | true =>
    refine wp_rolledBack (hturn.answered ?_)
    rw [Settles, hnew]
    dsimp only
    rw [if_pos hterm]
    exact ⟨rfl, rfl⟩
  | false => exact wp_insertResolution hturn hnew hterm

theorem wp_answerRequest (h : InTurn lockKey q i seen s) (hpending : s.pending i = none) :
    (reconciliationRules lockKey).Wp i ((reconciliationRules lockKey).Final i q) (answerRequest q) s := by
  refine wp_reconciliationStatement fun s₁ hrely hinv c r s₂ hexec => ?_
  have hturn := h.rely hrely
  change selectRequestStep c i q.run q.requestID s₁ = some (r, s₂) at hexec
  rw [selectRequestStep] at hexec
  split at hexec
  · cases hexec
    exact ⟨guar_fault, wp_rolledBack (answered_fault (.inl hturn.recorded))⟩
  obtain ⟨rfl, hs₂⟩ := Prod.mk.inj (some.inj hexec)
  rw [← hs₂, hturn.found]
  refine ⟨.refl i s₁, ?_⟩
  cases hfind : seen.find? (fun e => e.operatorRequestID == some q.requestID) with
  | none => exact wp_resolveNew hturn hfind
  | some original =>
    dsimp only
    split
    · next hmatch =>
      refine wp_committed hturn.recorded (.inl (hrely.pending.trans hpending)) fun s₃ hs₃ hinv₃ => ?_
      have hnothing : s₃.pending i = none := (hs₃.pending.trans hrely.pending).trans hpending
      rw [publish, hnothing]
      refine ((hturn.rely hs₃).answered ?_).release
      rw [Settles, hfind]
      exact ⟨rfl, (if_pos hmatch).symm⟩
    · next hmatch =>
      refine wp_rolledBack (hturn.answered ?_)
      rw [Settles, hfind]
      exact ⟨rfl, (if_neg hmatch).symm⟩

theorem guar_lock (hfree : s.holder (lockKey run) = none ∨ s.holder (lockKey run) = some i) :
    s.Guar lockKey i { s with
      holder := update s.holder (lockKey run) (some i)
      entered := update s.entered i (some s.store.events) } := by
  have hother : ∀ k j, j ≠ i → (update s.holder (lockKey run) (some i) k = some j ↔ s.holder k = some j) := by
    intro k j hj
    by_cases hk : k = lockKey run
    · rw [hk, update_self]
      refine iff_of_false (by simpa using hj.symm) ?_
      rcases hfree with h | h <;> simp [h, hj.symm]
    · rw [update_of_ne hk]
  constructor
  · intro h
    refine ⟨h.identified, h.issued, h.issued_pending, h.distinct, ?_, h.admitted, h.pending_identified, h.source⟩
    intro j e he
    have hheld := h.held j e he
    by_cases hj : j = i
    · show update s.holder (lockKey run) (some i) (lockKey e.run) = some j
      rw [hj] at hheld ⊢
      by_cases hk : lockKey e.run = lockKey run
      · rw [hk, update_self]
      · rw [update_of_ne hk, hheld]
    · exact (hother _ j hj).mpr hheld
  · intro j hj
    exact ⟨fun k => hother k j hj, fun _ _ => rfl, fun _ => prefix_refl _, rfl, update_of_ne hj _ _, rfl,
      rfl⟩

theorem wp_appendOperatorReconciliation (h : s.Idle i) :
    (reconciliationRules lockKey).Wp i ((reconciliationRules lockKey).Final i q) (appendOperatorReconciliation q) s := by
  refine wp_reconciliationStatement fun s₁ hrely hinv c r s₂ hexec => ?_
  have hidle := h.rely hrely
  change lockStep lockKey c i q.run s₁ = some (r, s₂) at hexec
  rw [lockStep] at hexec
  split at hexec
  · cases hexec
    exact ⟨guar_fault, wp_rolledBack (answered_fault (.inl hidle.recorded))⟩
  split at hexec
  · next hfree =>
    cases hexec
    refine ⟨guar_lock hfree, wp_answerRequest ⟨update_self (lockKey q.run) _ _, ?_, rfl, hidle.recorded⟩
      hidle.pending⟩
    show (update s₁.entered i (some s₁.store.events) i).map (fun t => t.history q.run) = _
    rw [update_self]
    rfl
  · cases hexec

theorem reconciliationRules_lawful : (reconciliationRules lockKey).Lawful where
  rely_refl i s := .refl i s
  rely_trans i s₁ s₂ s₃ h h' := h.trans h'
  guar_rely i j s s' hij h := h.2 j hij.symm
  guar_inv i s s' hinv h := h.1 hinv
  env_rely e s s' hinv henv i := (env_sound hinv henv).2 i
  env_inv e s s' hinv henv := (env_sound hinv henv).1
  fresh_le m n s hmn h j hj := h j (hmn.trans hj)
  fresh_guar i n s s' hin h hguar j hj := (h j hj).rely (hguar.2 j (by omega))
  fresh_fork i j l s hij h k hk := h k (by omega)
  fresh_env e n s s' hinv henv h j hj := (h j hj).rely ((env_sound hinv henv).2 j)
  start_rely l j s s' hinv h hrely := h.rely hrely
  external_start l j s hext hinv h := h j le_rfl
  post_rely l i a s s' hinv h hrely := h.rely hrely
  body_wp l j s hinv h := wp_appendOperatorReconciliation h

theorem initial_sound : (reconciliationRules lockKey).Sound ⟨.initial, []⟩ where
  inv := by
    constructor <;> simp [ReconciliationState.initial, RunStore.empty, ReconciliationEvents.empty]
  fresh := by
    intro j _
    constructor <;> simp [ReconciliationState.initial]
  good := by simp

/-! ## Every interleaving -/

structure SameContent (e : ReconciliationEvent) (q : OperatorRequest) : Prop where
  actorID : e.actorID = q.actorID
  resolution : e.resolution = some q.resolution
  reason : e.reason = q.reason
  externalReference : e.externalReference = q.externalReference

theorem reconciliationRequestMatches_iff :
    reconciliationRequestMatches e q = true ↔ SameContent e q := by
  simp only [reconciliationRequestMatches, Bool.and_eq_true, beq_iff_eq]
  constructor
  · rintro ⟨⟨⟨h₁, h₂⟩, h₃⟩, h₄⟩
    exact ⟨h₁, h₂, h₃, h₄⟩
  · rintro ⟨h₁, h₂, h₃, h₄⟩
    exact ⟨⟨⟨h₁, h₂⟩, h₃⟩, h₄⟩

/-- Since a state was reached no event was lost, and what later threads found is at least what was there. -/
structure Since (n : Nat) (s₀ s : ReconciliationState) : Prop where
  grows : ∀ run, s₀.history run <+: s.history run
  found : ∀ i, n ≤ i → ∀ t, s.entered i = some t → ∀ run, s₀.history run <+: t.history run

theorem ReconciliationState.entered_record (i : Nat) (e : ReconciliationEvent) (s : ReconciliationState) :
    (s.record i e).entered = s.entered := by
  rw [record]
  split <;> rfl

theorem ReconciliationState.history_record (i : Nat) (e : ReconciliationEvent) (s : ReconciliationState)
    (run : Text × Uuid) : s.history run <+: (s.record i e).history run := by
  rw [record]
  split
  · next h => exact history_prefix_add h run
  · exact prefix_refl _

def Onward (s s' : ReconciliationState) : Prop :=
  (∀ run, s.history run <+: s'.history run) ∧
    ∀ j t, s'.entered j = some t → s.entered j = some t ∨ t = s.store.events

theorem Onward.refl (s : ReconciliationState) : Onward s s :=
  ⟨fun _ => prefix_refl _, fun _ _ ht => .inl ht⟩

theorem onward_publish : Onward s (s.publish i) := by
  rw [publish]
  split
  · exact .refl s
  refine ⟨fun run => history_record i _ (s.release i) run, fun j t ht => ?_⟩
  rw [entered_record] at ht
  exact .inl ht

theorem exec_cases {c : ReconciliationChoice} {o : ReconciliationOp} {r : o.Res}
    {s' : ReconciliationState} (h : reconciliationExec lockKey c i o s = some (r, s')) : Onward s s' := by
  cases o with
  | lock run =>
    change lockStep lockKey c i run s = some (r, s') at h
    rw [lockStep] at h
    split at h
    · cases h
      exact .refl s
    split at h
    · cases h
      refine ⟨fun _ => prefix_refl _, fun j t ht => ?_⟩
      change update s.entered i (some s.store.events) j = some t at ht
      by_cases hj : j = i
      · rw [hj, update_self] at ht
        exact .inr (some.inj ht).symm
      · rw [update_of_ne hj] at ht
        exact .inl ht
    · cases h
  | selectRequest run requestID =>
    change selectRequestStep c i run requestID s = some (r, s') at h
    rw [selectRequestStep] at h
    split at h <;> cases h <;> exact .refl s
  | selectTerminal run =>
    change selectTerminalStep c i run s = some (r, s') at h
    rw [selectTerminalStep] at h
    split at h <;> cases h <;> exact .refl s
  | insert q =>
    change insertStep c i q s = some (r, s') at h
    rw [insertStep] at h
    split at h
    · cases h
      exact .refl s
    split at h
    · cases h
      exact .refl s
    split at h
    · split at h
      · cases h
      · split at h <;> cases h <;> exact .refl s
    · cases h
      exact .refl s
  | commit =>
    rcases commitStep_cases h with ⟨-, rfl⟩ | ⟨-, rfl | rfl⟩
    · exact onward_publish
    · exact onward_publish
    · exact .refl s
  | rollback =>
    cases h
    exact .refl s

theorem env_cases {step : RunStep} {s' : ReconciliationState} (h : reconciliationEnv lockKey step s = some s') :
    (∀ run, s.history run <+: s'.history run) ∧ s'.entered = s.entered := by
  cases step with
  | resolve e => cases h
  | observe fault g taskID report =>
    rw [reconciliationEnv] at h
    split at h
    · cases h
    · cases h
      refine ⟨fun run => ?_, rfl⟩
      rw [RunStep.apply]
      rcases observedTx_cases s.store fault g taskID report with hsame | ⟨events, hins, hdone⟩
      · rw [hsame]
        exact prefix_refl _
      rw [hdone]
      rcases insertObservation_eq_ok hins with rfl | ⟨e, -, -, hallows, rfl⟩
      · exact prefix_refl _
      · exact history_prefix_add hallows run
  | _ =>
    cases h
    exact ⟨fun _ => prefix_refl _, rfl⟩

abbrev ReconciliationPool := Pool reconciliationSql OperatorRequest ReconciliationAnswer ReconciliationState

def ReconciliationReachable (lockKey : Text × Uuid → Int) (p : ReconciliationPool) : Prop :=
  (reconciliationSystem lockKey).Reaches (reconciliationSystem lockKey).always ⟨.initial, []⟩ p

variable {p : ReconciliationPool}

theorem ReconciliationReachable.sound (h : ReconciliationReachable lockKey p) :
    (reconciliationRules lockKey).Sound p := reconciliationRules_lawful.sound_reaches initial_sound h

theorem since_of_reaches {p₀ : ReconciliationPool} (h₀ : ReconciliationReachable lockKey p₀)
    (h : (reconciliationSystem lockKey).Reaches (reconciliationSystem lockKey).always p₀ p) :
    Since p₀.threads.length p₀.state p.state := by
  refine reconciliationRules_lawful.invariant_of_reaches (J := Since p₀.threads.length p₀.state)
    (fun _ _ _ _ hok => hok) ?_ (fun _ _ _ _ hJ => hJ) (fun _ _ hJ => hJ) ?_ h₀.sound ?_ h
  · intro c i o s r s' _ _ hJ hexec
    obtain ⟨hgrows, hentered⟩ := exec_cases hexec
    refine ⟨fun run => (hJ.grows run).trans (hgrows run), fun j hj t ht run => ?_⟩
    rcases hentered j t ht with hold | rfl
    · exact hJ.found j hj t hold run
    · exact hJ.grows run
  · intro step s s' hJ henv
    obtain ⟨hgrows, hentered⟩ := env_cases henv
    refine ⟨fun run => (hJ.grows run).trans (hgrows run), fun j hj t ht run => ?_⟩
    rw [hentered] at ht
    exact hJ.found j hj t ht run
  · refine ⟨fun _ => prefix_refl _, fun j hj t ht => ?_⟩
    rw [(h₀.sound.fresh j hj).entered] at ht
    cases ht

theorem terminal_last {t : ReconciliationEvents} {before after : List ReconciliationEvent}
    (h : t.history run = before ++ e :: after) (hterm : e.isTerminal = true) : after = [] := by
  have hclosed : (t.history run).Pairwise fun e e' => e.run = e'.run → e.isTerminal = false :=
    t.closed.sublist filter_sublist
  have hrun : ∀ e' ∈ t.history run, e'.run = run := fun e' he' => (mem_history.mp he').2
  rw [h] at hclosed hrun
  cases after with
  | nil => rfl
  | cons e' after =>
    have hpair := (pairwise_cons.mp (pairwise_append.mp hclosed).2.1).1 e' mem_cons_self
    rw [hpair ((hrun e (by simp)).trans (hrun e' (by simp)).symm)] at hterm
    cases hterm

theorem request_unique {t : ReconciliationEvents} {id : Uuid} {e' : ReconciliationEvent}
    (he : e ∈ t.history run) (he' : e' ∈ t.history run) (h : e.operatorRequestID = some id)
    (h' : e'.operatorRequestID = some id) : e = e' := by
  rw [mem_history] at he he'
  refine eq_of_clashes he.1 he'.1 ?_
  simp [clashes, he.2, he'.2, h, h']

theorem repeated_answer {a : ReconciliationAnswer}
    (h : AnsweredInTurn q i a s) (he : ∀ t, s.entered i = some t → e ∈ t.history q.run)
    (hid : e.operatorRequestID = some q.requestID) :
    s.recorded i = none ∧
      (s.faulted i = false → (SameContent e q → a = .replayed e) ∧ (¬ SameContent e q → a = .conflict)) := by
  have hfind : ∀ seen, s.seen? i q.run = some seen →
      seen.find? (fun e => e.operatorRequestID == some q.requestID) = some e := by
    intro seen hseen
    obtain ⟨t, ht, rfl⟩ := map_eq_some_iff.mp hseen
    cases hfound : (t.history q.run).find? (fun e => e.operatorRequestID == some q.requestID) with
    | none => exact absurd (by simp [hid]) (find?_eq_none.mp hfound e (he t ht))
    | some e' =>
      have hid' : e'.operatorRequestID = some q.requestID := by simpa using find?_some hfound
      rw [request_unique (mem_of_find?_eq_some hfound) (he t ht) hid' hid]
  rcases h with ⟨hfault, -, hnew⟩ | ⟨seen, hs, -, hsettles⟩
  · refine ⟨?_, fun hok => by rw [hfault] at hok; cases hok⟩
    rcases hnew with hnew | ⟨seen, hs, hnone⟩
    · exact hnew
    rw [hfind seen hs] at hnone
    cases hnone
  rw [Settles, hfind seen hs] at hsettles
  obtain ⟨hrec, ha⟩ := hsettles
  refine ⟨hrec, fun _ => ⟨fun hsame => ?_, fun hdiffers => ?_⟩⟩
  · rw [ha, if_pos (reconciliationRequestMatches_iff.mpr hsame)]
  · rw [ha, if_neg (mt reconciliationRequestMatches_iff.mp hdiffers)]

/-- A run has at most one terminal resolution, its last event, and one event for a request id; every resolution was
recorded by a request. The reported state is the settled one. A request that starts once its id is on record records
nothing: unless a statement of it fails, it returns the original if it says the same and conflicts if not. Every other
request is answered by what it found when it got its lock. -/
theorem reconciliation_serialized {p₀ p : ReconciliationPool} (h₀ : ReconciliationReachable lockKey p₀)
    (h : (reconciliationSystem lockKey).Reaches (reconciliationSystem lockKey).always p₀ p) :
    (∀ run, p₀.state.history run <+: p.state.history run ∧
      (∀ e ∈ p.state.history run, ∀ e' ∈ p.state.history run, e.isTerminal = true → e'.isTerminal = true → e = e') ∧
      (∀ before e after, p.state.history run = before ++ e :: after → e.isTerminal = true → after = []) ∧
      (∀ e ∈ p.state.history run, e.isObservation = false → ∃ i, p.state.recorded i = some e) ∧
      (loadOperatorReconciliationState p.state.store.events run).map (·.currentState) =
        if p.state.store.events.observed run = true then some (settledState (p.state.history run)) else none) ∧
    ∀ i q a, p.threads[i]? = some ⟨q, .ret a⟩ →
      AnsweredInTurn q i a p.state ∧
      (p₀.threads.length ≤ i → ∀ e ∈ p₀.state.history q.run, e.operatorRequestID = some q.requestID →
        p.state.recorded i = none ∧
          (p.state.faulted i = false → (SameContent e q → a = .replayed e) ∧ (¬ SameContent e q → a = .conflict))) := by
  have hsound : (reconciliationRules lockKey).Sound p := ReconciliationReachable.sound (h₀.trans h)
  have hsince := since_of_reaches h₀ h
  refine ⟨fun run => ⟨hsince.grows run, fun e he e' he' => terminal_unique he he', fun before e after => terminal_last, ?_,
    load_eq p.state.store.events run⟩, fun i q a hi => ?_⟩
  · intro e he
    exact hsound.inv.source e (mem_history.mp he).1
  have hanswered : AnsweredInTurn q i a p.state := hsound.good i _ hi
  refine ⟨hanswered, fun hlate e he hid => repeated_answer hanswered (fun t ht => ?_) hid⟩
  exact (hsince.found i hlate t ht q.run).subset he

def sampleRequest : OperatorRequest where
  tenantID := "tenant"
  taskID := 3
  actorID := "tenant"
  actorEmail := []
  requestID := 9
  resolution := .confirmedFailed
  reason := "refunded"
  externalReference := none

abbrev ReconciliationMove := Move OperatorRequest ReconciliationChoice RunStep

def requestMoves (i : Nat) (id : Uuid) (steps : Nat) : List ReconciliationMove :=
  .start sampleRequest :: replicate steps (.step i ⟨false, false, ⟨id, 1⟩⟩)

def observedMoves : List ReconciliationMove :=
  sampleSteps.map .env ++ [.env (.observe none ⟨4, 0⟩ 3 (sampleReport 'a'))]

def answerOf (p : ReconciliationPool) (i : Nat) : Option (OperatorRequest × ReconciliationAnswer) :=
  (p.threads[i]?).bind fun thread => thread.prog.result?.map fun a => (thread.label, a)

theorem thread_of_answerOf {a : ReconciliationAnswer}
    (h : answerOf p i = some (q, a)) : p.threads[i]? = some ⟨q, .ret a⟩ := by
  obtain ⟨⟨l, prog⟩, hthread, hresult⟩ := Option.bind_eq_some_iff.mp h
  obtain ⟨b, hprog, hpair⟩ := Option.map_eq_some_iff.mp hresult
  obtain ⟨rfl, rfl⟩ := Prod.mk.inj hpair
  rw [hthread, show prog = .ret b from Prog.eq_ret_of_result? hprog]

/-- The operator asks again for a resolution that is on record. -/
theorem repeated_resolution_replayed :
    ∃ (p₀ p : ReconciliationPool) (e : ReconciliationEvent), ReconciliationReachable (fun _ => 0) p₀ ∧
      (reconciliationSystem fun _ => 0).Reaches (reconciliationSystem fun _ => 0).always p₀ p ∧
      e ∈ p₀.state.history sampleRequest.run ∧ p.threads[1]? = some ⟨sampleRequest, .ret (.replayed e)⟩ := by
  have h : ((reconciliationSystem fun _ => 0).run ⟨.initial, []⟩
      (observedMoves ++ requestMoves 0 5 5 : List ReconciliationMove)).bind (fun p₀ =>
        ((reconciliationSystem fun _ => 0).run p₀ (requestMoves 1 6 3 : List ReconciliationMove)).bind fun p =>
          ((p₀.state.history sampleRequest.run)[1]?).bind fun e =>
            (answerOf p 1).map fun answer =>
              (decide (p₀.threads.length = 1), answer.1, p.state.faulted 1, e)) =
      some (true, sampleRequest, false, resolutionOf ⟨5, 1⟩ sampleRequest sampleBoundRun) := by decide +kernel
  obtain ⟨p₀, hrun₀, h⟩ := bind_eq_some_iff.mp h
  obtain ⟨p, hrun, h⟩ := bind_eq_some_iff.mp h
  obtain ⟨e, he, h⟩ := bind_eq_some_iff.mp h
  obtain ⟨⟨q, a⟩, hanswer, h⟩ := map_eq_some_iff.mp h
  simp only [Prod.mk.injEq, decide_eq_true_eq] at h
  obtain ⟨hlength, rfl, hfault, rfl⟩ := h
  have hreach₀ : ReconciliationReachable (fun _ => 0) p₀ := System.reaches_of_run hrun₀
  have hreach := System.reaches_of_run hrun
  have hthread := thread_of_answerOf hanswer
  have hmem := mem_of_getElem? he
  have hsame : SameContent (resolutionOf ⟨5, 1⟩ sampleRequest sampleBoundRun) sampleRequest := ⟨rfl, rfl, rfl, rfl⟩
  obtain ⟨-, hrepeated⟩ := (reconciliation_serialized hreach₀ hreach).2 1 _ a hthread
  have ha := ((hrepeated (by omega) _ hmem rfl).2 hfault).1 hsame
  exact ⟨p₀, p, _, hreach₀, hreach, hmem, ha ▸ hthread⟩

end Overture
