import Mathlib.Data.List.Basic
import Mathlib.Tactic.Common

/-!
# Blocks of network addresses

An address is the list of its bytes, the most significant first. A block is given by an address and the number of
leading bits its members share with it.
-/

structure AddressBlock where
  base : List UInt8
  bits : Nat

namespace AddressBlock

def agree : Nat → List UInt8 → List UInt8 → Bool
  | 0, _, _ => true
  | n + 1, b :: bs, c :: cs =>
    if 8 ≤ n + 1 then b == c && agree (n + 1 - 8) bs cs else b.toNat >>> (8 - (n + 1)) == c.toNat >>> (8 - (n + 1))
  | _, _, _ => false

def contains (block : AddressBlock) (address : List UInt8) : Bool :=
  address.length == block.base.length && agree block.bits address block.base

@[simp] theorem agree_zero (bs cs : List UInt8) : agree 0 bs cs = true := by
  rw [agree]

theorem agree_byte {n : Nat} (hn : 8 ≤ n) (b c : UInt8) (bs cs : List UInt8) :
    agree n (b :: bs) (c :: cs) = (b == c && agree (n - 8) bs cs) := by
  obtain ⟨m, rfl⟩ : ∃ m, n = m + 1 := ⟨n - 1, by omega⟩
  rw [agree, if_pos hn]

theorem agree_part {n : Nat} (hn : 0 < n) (hpart : n < 8) (b c : UInt8) (bs cs : List UInt8) :
    agree n (b :: bs) (c :: cs) = (b.toNat >>> (8 - n) == c.toNat >>> (8 - n)) := by
  obtain ⟨m, rfl⟩ : ∃ m, n = m + 1 := ⟨n - 1, by omega⟩
  rw [agree, if_neg (by omega)]

theorem agree_bytes {k : Nat} {address base : List UInt8} (h : k ≤ address.length) (hbase : k ≤ base.length) :
    agree (8 * k) address base = true ↔ address.take k = base.take k := by
  induction k generalizing address base with
  | zero => simp
  | succ k ih =>
    cases address with
    | nil => cases h
    | cons b bs =>
      cases base with
      | nil => cases hbase
      | cons c cs =>
        rw [Nat.mul_succ, agree_byte (by omega), Nat.add_sub_cancel, Bool.and_eq_true, beq_iff_eq,
          ih (Nat.le_of_succ_le_succ h) (Nat.le_of_succ_le_succ hbase), List.take_succ_cons, List.take_succ_cons,
          List.cons.injEq]

theorem forall_byte {p : UInt8 → Prop} (h : ∀ n < 256, p (UInt8.ofNat n)) (b : UInt8) : p b := by
  have hb := h b.toNat b.toNat_lt
  rwa [UInt8.ofNat_toNat] at hb

end AddressBlock
