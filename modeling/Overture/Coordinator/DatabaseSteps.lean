import Overture.Coordinator.Database

/-!
# What one statement can do

Each statement by its cases, and what all of them have in common: they leave the rows of
other transactions alone, and they move rows along every preorder that the updates respect.
-/

namespace Overture

open Interleave Option List

namespace Db

variable {db db' w : Db} {i now : Nat} {jsonb : Text → Option Text} {u : TaskUpdate} {columns : TaskColumns}

theorem autocommit_cases {ρ : Type} {outcome : Outcome} {run : Option (Option (ρ × Db))}
    {r : Option ρ} (h : autocommit outcome db run = some (r, db')) :
    (r = none ∧ db' = db) ∨ ∃ a w, run = some (some (a, w)) ∧ db' = w ∧ (r = some a ∨ r = none) := by
  cases outcome with
  | failed => exact .inl (by simp_all [autocommit])
  | done | lost =>
    obtain ⟨res, hres, heq⟩ := map_eq_some_iff.mp h
    cases res with
    | none => exact .inl (by simp_all)
    | some p => exact .inr ⟨p.1, p.2, hres, by simp_all⟩

theorem statement_cases {ρ : Type} {outcome : Outcome}
    {run : Option (Option (ρ × Db))} {r : Option ρ} (h : statement outcome i db run = some (r, db')) :
    (r = none ∧ (db' = db ∨ db' = db.abort i)) ∨
    ∃ a, run = some (some (a, db')) ∧ r = some a := by
  unfold statement at h
  split at h
  · exact .inl (by simp_all)
  · cases outcome with
    | failed | lost => exact .inl (by simp_all)
    | done =>
      obtain ⟨res, hres, heq⟩ := map_eq_some_iff.mp h
      cases res with
      | none => exact .inl (by simp_all)
      | some p =>
        cases heq
        exact .inr ⟨p.1, hres, rfl⟩

theorem update_cases {rows : List TaskRow}
    (h : db.update jsonb now u = some (some (rows, w))) :
    ∃ u', u.encode jsonb = some u' ∧
      (∀ r ∈ db.rows.rows, u'.admits r = true → db.lock r.taskID = none) ∧
      rows = (db.rows.rows.filter u'.admits).map (u'.set now) ∧
      w = db.store ((db.rows.rows.filter u'.admits).map (u'.set now)) := by
  unfold update at h
  split at h
  · simp at h
  next u' hu' =>
  dsimp only at h
  split at h
  · next hfree =>
    simp only [some.injEq, Prod.mk.injEq] at h
    refine ⟨u', hu', fun r hr hallows => ?_, h.1.symm, h.2.symm⟩
    simpa using all_eq_true.mp hfree r (mem_filter.mpr ⟨hr, hallows⟩)
  · simp at h

theorem txUpdate_cases {rows : List TaskRow}
    (h : db.txUpdate jsonb now i u = some (some (rows, w))) :
    ∃ u', u.encode jsonb = some u' ∧
      (∀ r ∈ (db.view i).rows, u'.admits r = true → db.free i r.taskID = true) ∧
      rows = ((db.view i).rows.filter u'.admits).map (u'.set now) ∧
      w = db.write i (((db.view i).rows.filter u'.admits).map (u'.set now)) := by
  unfold txUpdate at h
  split at h
  · simp at h
  next u' hu' =>
  dsimp only at h
  split at h
  · next hfree =>
    simp only [some.injEq, Prod.mk.injEq] at h
    refine ⟨u', hu', fun r hr hallows => ?_, h.1.symm, h.2.symm⟩
    exact all_eq_true.mp hfree r (mem_filter.mpr ⟨hr, hallows⟩)
  · simp at h

theorem insertion_row {view : Table taskSchema.key} {rowFree indexFree : Bool}
    {r : TaskRow} (h : insertion jsonb view rowFree indexFree columns = .row r) :
    (∃ taskDefinition, r = { columns with taskDefinition := taskDefinition : TaskColumns }.row) ∧
      view.get? columns.taskID = none ∧ rowFree = true := by
  unfold insertion at h
  split at h
  · simp at h
  next taskDefinition _ =>
  split at h
  · simp at h
  split at h
  · simp at h
  split at h
  · simp at h
  next hnone =>
  split at h
  · next hfree =>
    exact ⟨⟨taskDefinition, (Insertion.row.inj h).symm⟩, not_isSome_iff_eq_none.mp hnone, hfree⟩
  · simp at h

theorem insertTask_cases {inserted : Bool} (h : db.insertTask jsonb columns = some (some (inserted, w))) :
    (inserted = false ∧ w = db) ∨
    ∃ taskDefinition, inserted = true ∧ db.rows.get? columns.taskID = none ∧ db.lock columns.taskID = none ∧
      w = db.store [{ columns with taskDefinition := taskDefinition : TaskColumns }.row] := by
  unfold insertTask at h
  split at h
  · simp at h
  · exact .inl (by simp_all)
  · simp at h
  · next r hrow =>
    obtain ⟨⟨taskDefinition, rfl⟩, hnone, hfree⟩ := insertion_row hrow
    simp only [some.injEq, Prod.mk.injEq] at h
    exact .inr ⟨taskDefinition, h.1.symm, hnone, by simpa using hfree, h.2.symm⟩

theorem txInsertTask_cases {inserted : Bool} (h : db.txInsertTask jsonb i columns = some (some (inserted, w))) :
    (inserted = false ∧ w = db) ∨
    ∃ taskDefinition, inserted = true ∧ (db.view i).get? columns.taskID = none ∧
      db.free i columns.taskID = true ∧
      w = db.insert i { columns with taskDefinition := taskDefinition : TaskColumns }.row := by
  unfold txInsertTask at h
  split at h
  · simp at h
  · exact .inl (by simp_all)
  · simp at h
  · next r hrow =>
    obtain ⟨⟨taskDefinition, rfl⟩, hnone, hfree⟩ := insertion_row hrow
    simp only [some.injEq, Prod.mk.injEq] at h
    exact .inr ⟨taskDefinition, h.1.symm, hnone, hfree, h.2.symm⟩

theorem txInsertWal_cases {taskID : Uuid} {stepIndex : Nat} {cpBytes : Text}
    (h : db.txInsertWal jsonb i taskID stepIndex cpBytes = some (some ((), w))) :
    ∃ walEntries, db.free i taskID = true ∧ w = db.append i ⟨taskID, stepIndex, walEntries, i⟩ := by
  unfold txInsertWal at h
  split at h
  · simp at h
  next walEntries _ =>
  split at h
  · simp at h
  split at h
  · next hfree => exact ⟨walEntries, hfree, by simpa using h.symm⟩
  · simp at h

theorem txLockCheckpoint_cases {taskID : Uuid} {cp : Option (Option Text)}
    (h : db.txLockCheckpoint i taskID = some (some (cp, w))) :
    w = db ∨ db.free i taskID = true ∧ w = db.acquire i [taskID] := by
  unfold txLockCheckpoint at h
  split at h
  · exact .inl (by simp_all)
  split at h
  · next hfree => exact .inr ⟨hfree, by simp_all⟩
  · simp at h

theorem txLockExpired_cases {ids : List Uuid}
    (h : db.txLockExpired now i = some (some (ids, w))) :
    (∀ id ∈ ids, db.free i id = true) ∧ w = db.acquire i ids := by
  simp only [txLockExpired, some.injEq, Prod.mk.injEq] at h
  refine ⟨fun id hid => ?_, by rw [← h.2, ← h.1]⟩
  rw [← h.1] at hid
  obtain ⟨r, hr, rfl⟩ := mem_map.mp hid
  have hmem := (mem_insertionSort _).mp (mem_of_mem_take hr)
  have hexp := (mem_filter.mp hmem).2
  simp only [Bool.and_eq_true] at hexp
  exact hexp.2

theorem begin_cases {A : Interface} {c : Choice A}
    {r : Bool} (h : exec jsonb c i .begin db = some (r, db')) :
    (r = true ∧ db' = db.begin i) ∨ (r = false ∧ db' = db) := by
  simp only [exec] at h
  split at h
  · cases h
  split at h <;> cases h
  · exact .inl ⟨rfl, rfl⟩
  · exact .inr ⟨rfl, rfl⟩

theorem commit_cases {A : Interface} {c : Choice A}
    {r : Bool} (h : exec jsonb c i .commit db = some (r, db')) :
    (r = false ∧ db' = db.release i) ∨ db' = db.commit i := by
  simp only [exec] at h
  split at h
  · cases h
    exact .inl ⟨rfl, rfl⟩
  split at h <;> cases h
  · exact .inr rfl
  · exact .inl ⟨rfl, rfl⟩
  · exact .inr rfl

theorem update_taskID {t : Table taskSchema.key} {k : Uuid} :
    ((t.rows.filter u.admits).map (u.set now)).find? (fun r => taskSchema.key r = k) =
      ((t.get? k).filter u.admits).map (u.set now) := by
  apply ext
  intro a
  simp only [find?_map, map_eq_some_iff, filter_eq_some_iff, Table.get?_eq_some_iff]
  constructor
  · rintro ⟨r, hr, rfl⟩
    obtain ⟨hmem, hallows⟩ := mem_filter.mp (mem_of_find?_eq_some hr)
    have hkey := find?_some hr
    simp only [Function.comp_apply, taskSchema, TaskUpdate.taskID_set, decide_eq_true_eq] at hkey
    exact ⟨r, ⟨⟨hmem, hkey⟩, hallows⟩, rfl⟩
  rintro ⟨r, ⟨⟨hmem, hkey⟩, hallows⟩, rfl⟩
  refine ⟨r, ?_, rfl⟩
  have hin : r ∈ t.rows.filter u.admits := mem_filter.mpr ⟨hmem, hallows⟩
  cases hfind : (t.rows.filter u.admits).find?
      ((fun r => decide (taskSchema.key r = k)) ∘ u.set now) with
  | none => exact absurd (by simpa [taskSchema] using hkey) (find?_eq_none.mp hfind r hin)
  | some r' =>
    have hkey' := find?_some hfind
    simp only [Function.comp_apply, taskSchema, TaskUpdate.taskID_set, decide_eq_true_eq] at hkey'
    have hmem' := (mem_filter.mp (mem_of_find?_eq_some hfind)).1
    rw [inj_on_of_nodup_map t.nodup hmem' hmem (hkey'.trans hkey.symm)]

theorem get?_update (u : TaskUpdate) (now : Nat) (t : Table taskSchema.key) (k : Uuid) :
    (t.putAll ((t.rows.filter u.admits).map (u.set now))).get? k =
      (t.get? k).map fun r => if u.admits r then u.set now r else r := by
  rw [Table.get?_putAll, update_taskID]
  cases hget : t.get? k with
  | none => simp
  | some r => by_cases hallows : u.admits r = true <;> simp [Option.filter, hallows]

theorem get?_store_update (u : TaskUpdate) (now : Nat) (db : Db) (k : Uuid) :
    (db.store ((db.rows.rows.filter u.admits).map (u.set now))).rows.get? k =
      (db.rows.get? k).map fun r => if u.admits r then u.set now r else r :=
  get?_update u now db.rows k

section Moves

open RowStore

variable {E : TaskRow → TaskRow → Prop} {N : TaskRow → Prop}

structure Law (E : TaskRow → TaskRow → Prop) (N : TaskRow → Prop) : Prop where
  refl : ∀ r, E r r
  trans : ∀ r₁ r₂ r₃, E r₁ r₂ → E r₂ r₃ → E r₁ r₃
  columns : ∀ columns : TaskColumns, N columns.row

/-- What a step of thread `i` does to the rows: the others keep what they locked, and rows only move
forward. -/
structure Steps (E : TaskRow → TaskRow → Prop) (N : TaskRow → Prop) (i : Nat) (db db' : Db) : Prop where
  isolated : db'.Isolated
  derived : Derived E N db'
  moved : Moved E N db db'
  frame : ∀ j, j ≠ i → Frame j db db'

theorem Steps.of_quiet (law : Law E N) {i : Nat} {db db' : Db} (hiso : db.Isolated) (hder : Derived E N db)
    (hacts : Acts i db db') (hquiet : Quiet db db') : Steps E N i db db' :=
  ⟨(hacts hiso).1, hquiet.derived hder, hquiet.moved law.refl, (hacts hiso).2⟩

theorem Steps.of_moved (hiso : db.Isolated) (hacts : Acts i db db') (hmoved : Derived E N db' ∧ Moved E N db db') :
    Steps E N i db db' :=
  ⟨(hacts hiso).1, hmoved.1, hmoved.2, (hacts hiso).2⟩

theorem mem_updated {t : Table taskSchema.key} {a : TaskRow} (ha : a ∈ (t.rows.filter u.admits).map (u.set now)) :
    ∃ r ∈ t.rows, u.admits r = true ∧ u.set now r = a ∧ t.get? (taskSchema.key a) = some r := by
  obtain ⟨r, hr, rfl⟩ := mem_map.mp ha
  obtain ⟨hmem, hallows⟩ := mem_filter.mp hr
  refine ⟨r, hmem, hallows, rfl, ?_⟩
  rw [show taskSchema.key (u.set now r) = taskSchema.key r by simp [taskSchema]]
  exact Table.get?_of_mem hmem

variable (law : Law E N) {jsonb : Text → Option Text} {i : Nat} {db db' : Db} (hiso : db.Isolated)
  (hder : Derived E N db)
include law hiso hder

theorem steps_autocommit {ρ : Type} {outcome : Outcome} {run : Option (Option (ρ × Db))} {r : Option ρ}
    (h : autocommit outcome db run = some (r, db'))
    (hrun : ∀ a w, run = some (some (a, w)) → Steps E N i db w) : Steps E N i db db' := by
  rcases autocommit_cases h with ⟨-, rfl⟩ | ⟨a, w, hw, rfl, -⟩
  · exact .of_quiet law hiso hder (acts_refl i _) (quiet_refl _)
  · exact hrun a db' hw

theorem steps_statement {ρ : Type} {outcome : Outcome} {run : Option (Option (ρ × Db))} {r : Option ρ}
    (h : statement outcome i db run = some (r, db'))
    (hrun : ∀ a w, run = some (some (a, w)) → Steps E N i db w) : Steps E N i db db' := by
  rcases statement_cases h with ⟨-, rfl | rfl⟩ | ⟨a, hw, -⟩
  · exact .of_quiet law hiso hder (acts_refl i _) (quiet_refl _)
  · exact .of_quiet law hiso hder (acts_abort i db) (quiet_abort i db)
  · exact hrun a db' hw

theorem steps_update {now : Nat} {u : TaskUpdate} {rows : List TaskRow}
    (h : db.update jsonb now u = some (some (rows, db')))
    (hE : ∀ u', u.encode jsonb = some u' → ∀ r, u'.admits r = true → E r (u'.set now r)) :
    Steps E N i db db' := by
  obtain ⟨u', hu', hfree, -, rfl⟩ := update_cases h
  have hlock : ∀ a ∈ (db.rows.rows.filter u'.admits).map (u'.set now), db.lock (taskSchema.key a) = none := by
    intro a ha
    obtain ⟨r, hmem, hallows, rfl, -⟩ := mem_updated ha
    simpa [taskSchema] using hfree r hmem hallows
  refine .of_moved hiso (acts_store hlock) (moved_store law.refl hiso hder hlock fun a ha => ?_)
  obtain ⟨r, -, hallows, rfl, hget⟩ := mem_updated ha
  rw [hget]
  exact hE u' hu' r hallows

theorem steps_txUpdate {now : Nat} {u : TaskUpdate} {rows : List TaskRow}
    (h : db.txUpdate jsonb now i u = some (some (rows, db')))
    (hE : ∀ u', u.encode jsonb = some u' → ∀ r, u'.admits r = true → E r (u'.set now r)) :
    Steps E N i db db' := by
  obtain ⟨u', hu', hfree, -, rfl⟩ := txUpdate_cases h
  refine .of_moved hiso (acts_write fun a ha => ?_) (moved_write law.refl law.trans hder fun a ha => ?_)
  · obtain ⟨r, hmem, hallows, rfl, -⟩ := mem_updated ha
    simpa [taskSchema] using hfree r hmem hallows
  obtain ⟨r, -, hallows, rfl, hget⟩ := mem_updated ha
  rw [hget]
  exact hE u' hu' r hallows

theorem steps_insertTask {columns : TaskColumns} {inserted : Bool}
    (h : db.insertTask jsonb columns = some (some (inserted, db'))) : Steps E N i db db' := by
  rcases insertTask_cases h with ⟨-, rfl⟩ | ⟨d, -, hnone, hlock, rfl⟩
  · exact .of_quiet law hiso hder (acts_refl i _) (quiet_refl _)
  have hlocks : ∀ a ∈ [{ columns with taskDefinition := d : TaskColumns }.row],
      db.lock (taskSchema.key a) = none := by
    intro a ha
    obtain rfl := mem_singleton.mp ha
    exact hlock
  refine .of_moved hiso (acts_store hlocks) (moved_store law.refl hiso hder hlocks fun a ha => ?_)
  obtain rfl := mem_singleton.mp ha
  rw [show taskSchema.key { columns with taskDefinition := d : TaskColumns }.row = columns.taskID from rfl, hnone]
  exact ⟨_, law.columns _, law.refl _⟩

theorem steps_txInsertTask {columns : TaskColumns} {inserted : Bool}
    (h : db.txInsertTask jsonb i columns = some (some (inserted, db'))) : Steps E N i db db' := by
  rcases txInsertTask_cases h with ⟨-, rfl⟩ | ⟨d, -, hnone, hfree, rfl⟩
  · exact .of_quiet law hiso hder (acts_refl i _) (quiet_refl _)
  · exact .of_moved hiso (acts_insert hfree) (moved_insert law.refl law.trans hder hnone (law.columns _))

theorem steps_exec {A : Interface} {c : Choice A} {o : Op A} {res : o.Res}
    (h : exec jsonb c i o db = some (res, db'))
    (hE : ∀ u u', o = .update u ∨ o = .txUpdate u → u.encode jsonb = some u' →
      ∀ now r, u'.admits r = true → E r (u'.set now r)) : Steps E N i db db' := by
  have hquiet : ∀ {w}, Acts i db w → Quiet db w → Steps E N i db w := fun ha hq => .of_quiet law hiso hder ha hq
  cases o with
  | update u =>
    exact steps_autocommit law hiso hder h fun ids w hw =>
      steps_update law hiso hder hw fun u' hu' => hE u u' (.inl rfl) hu' c.now
  | insertTask columns =>
    exact steps_autocommit law hiso hder h fun inserted w hw => steps_insertTask law hiso hder hw
  | select q | selectWal taskID =>
    refine steps_autocommit law hiso hder h fun rows w hw => ?_
    simp only [some.injEq, Prod.mk.injEq] at hw
    exact hw.2 ▸ hquiet (acts_refl i db) (quiet_refl db)
  | write table | ask q =>
    cases h
    exact hquiet (acts_refl i db) (quiet_refl db)
  | begin =>
    rcases begin_cases h with ⟨-, rfl⟩ | ⟨-, rfl⟩
    · exact hquiet (acts_begin i db) (quiet_begin i db)
    · exact hquiet (acts_refl i db') (quiet_refl db')
  | txUpdate u =>
    exact steps_statement law hiso hder h fun ids w hw =>
      steps_txUpdate law hiso hder hw fun u' hu' => hE u u' (.inr rfl) hu' c.now
  | txInsertTask columns =>
    exact steps_statement law hiso hder h fun inserted w hw => steps_txInsertTask law hiso hder hw
  | txInsertWal taskID stepIndex cpBytes =>
    refine steps_statement law hiso hder h fun _ w hw => ?_
    obtain ⟨walEntries, hfree, rfl⟩ := txInsertWal_cases hw
    exact hquiet (acts_append hfree) (quiet_append i _ db)
  | txLockCheckpoint taskID =>
    refine steps_statement law hiso hder h fun cp w hw => ?_
    rcases txLockCheckpoint_cases hw with rfl | ⟨hfree, rfl⟩
    · exact hquiet (acts_refl i w) (quiet_refl w)
    · exact hquiet (acts_acquire (by simpa using hfree)) (quiet_acquire i _ db)
  | txLockExpired =>
    refine steps_statement law hiso hder h fun ids w hw => ?_
    obtain ⟨hfree, rfl⟩ := txLockExpired_cases hw
    exact hquiet (acts_acquire hfree) (quiet_acquire i _ db)
  | txWrite table =>
    obtain ⟨⟨r', db''⟩, hst, heq⟩ := map_eq_some_iff.mp h
    cases heq
    refine steps_statement law hiso hder hst fun _ w hw => ?_
    simp only [some.injEq, Prod.mk.injEq] at hw
    exact hw.2 ▸ hquiet (acts_refl i db) (quiet_refl db)
  | commit =>
    rcases commit_cases h with ⟨-, rfl⟩ | rfl
    · exact hquiet (acts_release i db) (quiet_release i db)
    · exact .of_moved hiso (acts_commit i db) (moved_commit law.refl i hiso hder)
  | rollback =>
    cases h
    exact hquiet (acts_release i db) (quiet_release i db)

end Moves

end Db

end Overture
