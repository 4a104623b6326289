import Mathlib.Data.List.Sort
import Mathlib.Data.List.Perm.Lattice

/-!
# Queries with an order and a limit

A query that orders its rows by a key and keeps a number of them may give any list that is the beginning of some
arrangement of the rows in which the keys ascend; rows of one key stand in any order.
-/

namespace LimitedQuery

open List

variable {α : Type*}

def Answers (key : α → Nat) (limit : Nat) (rows answer : List α) : Prop :=
  ∃ order : List α, order.Perm rows ∧ order.Pairwise (fun a b => key a ≤ key b) ∧ answer = order.take limit

def early (key : α → Nat) (good : α → Bool) (rows : List α) : List α :=
  rows.filter fun row => !good row && rows.all fun other => !good other || decide (key row ≤ key other)

variable {key : α → Nat} {good : α → Bool} {limit : Nat} {rows answer : List α}

theorem mem_early {row : α} : row ∈ early key good rows ↔
    row ∈ rows ∧ good row = false ∧ ∀ other ∈ rows, good other = true → key row ≤ key other := by
  simp [early, imp_iff_not_or]

theorem mem_of_answers (h : Answers key limit rows answer) {row : α} (hrow : row ∈ answer) : row ∈ rows := by
  obtain ⟨order, hperm, -, rfl⟩ := h
  exact hperm.subset (mem_of_mem_take hrow)

def sorted (key : α → Nat) (rows : List α) : List α := rows.mergeSort fun a b => decide (key a ≤ key b)

theorem sorted_perm : (sorted key rows).Perm rows := mergeSort_perm ..

theorem pairwise_sorted : (sorted key rows).Pairwise fun a b => key a ≤ key b := by
  have htrans : ∀ a b c : α, decide (key a ≤ key b) = true → decide (key b ≤ key c) = true →
      decide (key a ≤ key c) = true := by
    simp only [decide_eq_true_eq]
    intro a b c hab hbc
    omega
  have htotal : ∀ a b : α, (decide (key a ≤ key b) || decide (key b ≤ key a)) = true := by
    simp only [Bool.or_eq_true, decide_eq_true_eq]
    intro a b
    omega
  simpa only [sorted, decide_eq_true_eq] using pairwise_mergeSort htrans htotal rows

theorem exists_answer (key : α → Nat) (limit : Nat) (rows : List α) : ∃ answer, Answers key limit rows answer :=
  ⟨_, sorted key rows, sorted_perm, pairwise_sorted, rfl⟩

theorem limit_le_early (h : Answers key limit rows answer) (hgood : ∃ row ∈ rows, good row = true)
    (hnone : ∀ row ∈ answer, good row = false) : limit ≤ (early key good rows).length := by
  obtain ⟨order, hperm, hpairwise, rfl⟩ := h
  obtain ⟨row, hrow, hrowGood⟩ := hgood
  have hsplit := hpairwise
  rw [← take_append_drop limit order, pairwise_append] at hsplit
  -- a row with the property can only stand behind the limit
  have hbehind : ∀ other ∈ rows, good other = true → other ∈ order.drop limit := by
    intro other hother hotherGood
    have hmem : other ∈ order.take limit ++ order.drop limit := by
      rw [take_append_drop]
      exact hperm.symm.subset hother
    rcases mem_append.mp hmem with htake | hdrop
    · rw [hnone other htake] at hotherGood
      cases hotherGood
    · exact hdrop
  have hlength : (order.take limit).length = limit := by
    have hpos := length_pos_of_mem (hbehind row hrow hrowGood)
    rw [length_drop] at hpos
    rw [length_take]
    omega
  have hearly : ∀ first ∈ order.take limit, first ∈ early key good rows := by
    intro first hfirst
    refine mem_early.mpr ⟨hperm.subset (mem_of_mem_take hfirst), hnone first hfirst, ?_⟩
    intro other hother hotherGood
    exact hsplit.2.2 first hfirst other (hbehind other hother hotherGood)
  calc limit = (order.take limit).length := hlength.symm
    _ ≤ (early key good rows).length := by
      have hkeep : (order.take limit).filter (fun first => !good first && rows.all fun other =>
          !good other || decide (key first ≤ key other)) = order.take limit := by
        apply filter_eq_self.mpr
        intro first hfirst
        exact (mem_filter.mp (hearly first hfirst)).2
      rw [← hkeep, early, ← (hperm.filter _).length_eq]
      exact ((take_sublist limit order).filter _).length_le

theorem exists_good_of_answers (h : Answers key limit rows answer) (hgood : ∃ row ∈ rows, good row = true)
    (hfew : (early key good rows).length < limit) : ∃ row ∈ answer, good row = true := by
  by_contra hnone
  have hle := limit_le_early h hgood fun row hrow => by
    rw [← Bool.not_eq_true]
    exact fun htrue => hnone ⟨row, hrow, htrue⟩
  omega

theorem exists_answer_without (hmany : limit ≤ (early key good rows).length) :
    ∃ answer, Answers key limit rows answer ∧ ∀ row ∈ answer, good row = false := by
  let first := fun row => !good row && rows.all fun other => !good other || decide (key row ≤ key other)
  have hbefore : ∀ a ∈ sorted key (early key good rows), ∀ b ∈ sorted key (rows.filter fun row => !first row),
      key a ≤ key b := by
    intro a ha b hb
    obtain ⟨-, -, hmin⟩ := mem_early.mp (sorted_perm.subset ha)
    obtain ⟨hbrows, hblate⟩ := mem_filter.mp (sorted_perm.subset hb)
    cases hbgood : good b with
    | true => exact hmin b hbrows hbgood
    | false =>
      obtain ⟨other, hother, hotherGood, hlt⟩ : ∃ other ∈ rows, good other = true ∧ key other < key b := by
        simpa [first, hbgood] using hblate
      have hle := hmin other hother hotherGood
      omega
  refine ⟨_, ⟨sorted key (early key good rows) ++ sorted key (rows.filter fun row => !first row), ?_, ?_, rfl⟩, ?_⟩
  · exact (sorted_perm.append sorted_perm).trans (filter_append_perm first rows)
  · exact pairwise_append.mpr ⟨pairwise_sorted, pairwise_sorted, hbefore⟩
  intro row hrow
  rw [take_append_of_le_length (by rw [sorted_perm.length_eq]; exact hmany)] at hrow
  exact (mem_early.mp (sorted_perm.subset (mem_of_mem_take hrow))).2.1

theorem exists_answer_with (key : α → Nat) {row : α} (hlimit : 0 < limit) (hrow : row ∈ rows)
    (hleast : ∀ other ∈ rows, key row ≤ key other) : ∃ answer, Answers key limit rows answer ∧ row ∈ answer := by
  obtain ⟨before, behind, rfl⟩ := append_of_mem hrow
  refine ⟨_, ⟨row :: sorted key (before ++ behind), ?_, ?_, rfl⟩, ?_⟩
  · exact (sorted_perm.cons row).trans perm_middle.symm
  · refine pairwise_cons.mpr ⟨?_, pairwise_sorted⟩
    intro other hother
    apply hleast
    rw [mem_append, mem_cons]
    rcases mem_append.mp (sorted_perm.subset hother) with hbefore | hbehind
    · exact .inl hbefore
    · exact .inr (.inr hbehind)
  · obtain ⟨n, rfl⟩ : ∃ n, limit = n + 1 := ⟨limit - 1, by omega⟩
    rw [take_succ_cons]
    exact mem_cons_self

end LimitedQuery
