import Overture.Lib.Json.Integer

/-!
# Texts with separators

A text is cut at the first or at the last separator when the part before or behind it has none. Parts
that may contain the separator are told apart by their lengths only.
-/

namespace Delimited

open List

variable {sep : Char}

theorem cut_first {a b c d : Text} (h : a ++ sep :: b = c ++ sep :: d) (ha : sep ∉ a) (hc : sep ∉ c) :
    a = c ∧ b = d := by
  induction a generalizing c with
  | nil =>
    cases c with
    | nil => exact ⟨rfl, by simpa using h⟩
    | cons x c =>
      simp only [nil_append, cons_append, cons.injEq] at h
      exact absurd (h.1 ▸ mem_cons_self) hc
  | cons x a ih =>
    cases c with
    | nil =>
      simp only [nil_append, cons_append, cons.injEq] at h
      exact absurd (h.1 ▸ mem_cons_self) ha
    | cons y c =>
      simp only [cons_append, cons.injEq] at h
      obtain ⟨hac, hbd⟩ := ih h.2 (fun hmem => ha (mem_cons_of_mem _ hmem)) fun hmem =>
        hc (mem_cons_of_mem _ hmem)
      exact ⟨by rw [h.1, hac], hbd⟩

theorem cut_last {a b c d : Text} (h : a ++ sep :: b = c ++ sep :: d) (hb : sep ∉ b) (hd : sep ∉ d) :
    a = c ∧ b = d := by
  have hreverse : b.reverse ++ sep :: a.reverse = d.reverse ++ sep :: c.reverse := by
    simpa using congrArg reverse h
  obtain ⟨hbd, hac⟩ := cut_first hreverse (by simpa using hb) (by simpa using hd)
  exact ⟨reverse_injective hac, reverse_injective hbd⟩

theorem cut_length {a b c d : Text} (h : a ++ sep :: b = c ++ sep :: d) (hlength : a.length = c.length) :
    a = c ∧ b = d := by
  obtain ⟨hac, hbd⟩ := append_inj h hlength
  exact ⟨hac, (cons.inj hbd).2⟩

def join (sep : Char) : List Text → Text
  | [] => []
  | [t] => t
  | t :: rest => t ++ sep :: join sep rest

theorem join_inj {ts us : List Text} (h : join sep ts = join sep us)
    (hlength : ts.map List.length = us.map List.length) : ts = us := by
  induction ts generalizing us with
  | nil =>
    cases us with
    | nil => rfl
    | cons u us => simp at hlength
  | cons t ts ih =>
    cases us with
    | nil => simp at hlength
    | cons u us =>
      simp only [map_cons, cons.injEq] at hlength
      cases ts with
      | nil =>
        cases us with
        | nil => simpa [join] using h
        | cons u' us => simp at hlength
      | cons t' ts =>
        cases us with
        | nil => simp at hlength
        | cons u' us =>
          obtain ⟨htu, hrest⟩ := cut_length (by simpa only [join] using h) hlength.1
          rw [htu, ih hrest hlength.2]

theorem colon_notMem_intLiteral (n : Int) : ':' ∉ Json.intLiteral n := by
  have hdigits : ∀ m, ':' ∉ Nat.toDigits 10 m := by
    intro m hmem
    have hdigit := Json.isDigit_toDigits m ':' hmem
    revert hdigit
    decide
  cases n with
  | ofNat m => exact hdigits m
  | negSucc m =>
    rw [Json.intLiteral, mem_cons]
    rintro (hminus | hmem)
    · cases hminus
    · exact hdigits _ hmem

theorem intLiteral_inj {m n : Int} (h : Json.intLiteral m = Json.intLiteral n) : m = n := by
  have hpow : ((m.natAbs + n.natAbs : Nat) : Int) < 2 ^ (m.natAbs + n.natAbs) := by
    exact_mod_cast Nat.lt_two_pow_self
  have hparse : ∀ k : Int, k.natAbs ≤ m.natAbs + n.natAbs →
      Json.parseInt (m.natAbs + n.natAbs + 1) (Json.intLiteral k) = some k := by
    intro k hk
    apply Json.parseInt_intLiteral (Nat.succ_pos _)
    · rw [Nat.succ_sub_one]
      omega
    · rw [Nat.succ_sub_one]
      omega
  have hm := hparse m (Nat.le_add_right _ _)
  rw [h, hparse n (Nat.le_add_left _ _)] at hm
  exact (Option.some.inj hm).symm

theorem colon_notMem_hex (bytes : List UInt8) : ':' ∉ Hex.encode bytes := by
  intro hmem
  obtain ⟨d, hd, heq⟩ := Hex.mem_encode hmem
  revert heq
  revert d
  decide

end Delimited
