import Overture.Lib.Json.Number
import Overture.Lib.Json.Quote

/-!
# What the reader accepts is well formed

The insides of strings are given by their runes and escapes, so that a rewriting of a
string can be followed escape by escape.
-/

namespace Json

open Option

inductive RawText : Text → Prop
  | nil : RawText []
  | rune {c : Char} {raw : Text} (hquote : c ≠ '\x22') (hslash : c ≠ '\x5c') (hctl : ¬ c.toNat < 32)
      (hraw : RawText raw) : RawText (c :: raw)
  | unicode {a b c d : Char} {raw : Text} (hhex : (hexDigits [a, b, c, d]).isSome = true) (hraw : RawText raw) :
      RawText ('\x5c' :: 'u' :: a :: b :: c :: d :: raw)
  | letter {e : Char} {raw : Text} (hcode : (escapeCode e).isSome = true) (hraw : RawText raw) :
      RawText ('\x5c' :: e :: raw)

theorem not_escapeCode_u : ¬ (escapeCode 'u').isSome = true := by decide

theorem scanString_rawText {t raw rest : Text} (h : scanString t = some (raw, rest)) : RawText raw := by
  fun_induction scanString t generalizing raw rest with
  | case1 => cases h
  | case2 c t hc =>
    cases h
    exact .nil
  | case3 => cases h
  | case4 c t hquote hctl hslash ih =>
    obtain ⟨⟨raw', rest'⟩, hscan, heq⟩ := map_eq_some_iff.mp h
    cases heq
    exact .rune (by simpa using hquote) (by simpa using hslash) hctl (ih hscan)
  | case5 => cases h
  | case6 c hquote hctl hslash a b d e t hhex ih =>
    obtain ⟨⟨raw', rest'⟩, hscan, heq⟩ := map_eq_some_iff.mp h
    cases heq
    exact .unicode hhex (ih hscan)
  | case7 => cases h
  | case8 c hquote hctl hslash e t hne hcode ih =>
    obtain ⟨⟨raw', rest'⟩, hscan, heq⟩ := map_eq_some_iff.mp h
    cases heq
    exact .letter hcode (ih hscan)
  | case9 => cases h

theorem RawText.isRaw {raw : Text} (h : RawText raw) : IsRaw raw := by
  intro rest
  induction h with
  | nil =>
    rw [List.nil_append]
    unfold scanString
    rfl
  | rune hquote hslash hctl hraw ih =>
    rw [List.cons_append]
    unfold scanString
    simp [hquote, hslash, hctl, ih]
  | unicode hhex hraw ih => simp [scanString, hhex, ih]
  | @letter e raw hcode hraw ih =>
    have hu : e ≠ 'u' := by
      rintro rfl
      exact not_escapeCode_u hcode
    rw [List.cons_append, List.cons_append, scanString]
    · simp [hcode, ih]
    intro a b c d t he
    exact absurd he hu

theorem isGap_takeWhile (t : Text) : IsGap (t.takeWhile isGap) := fun _ hc => List.mem_takeWhile_imp hc

section

variable {fuel : Nat}
  (hvalue : ∀ {t rest : Text} {v : Value}, parseValue fuel t = some (v, rest) → v.WF)
  (hitems : ∀ {t rest : Text} {items : Items}, parseItems fuel t = some (items, rest) → items.WF)
  (hmembers : ∀ {t rest : Text} {members : Members}, parseMembers fuel t = some (members, rest) → members.WF)

include hitems hmembers in
theorem parseValue_succ_wf {t rest : Text} {v : Value} (h : parseValue (fuel + 1) t = some (v, rest)) : v.WF := by
  cases t with
  | nil => simp [parseValue] at h
  | cons c t =>
    rw [parseValue] at h
    split at h
    · obtain ⟨⟨raw, after⟩, hscan, heq⟩ := map_eq_some_iff.mp h
      cases heq
      exact (scanString_rawText hscan).isRaw
    split at h
    · split at h
      · cases h
        exact isGap_takeWhile t
      · obtain ⟨⟨items, after⟩, hread, heq⟩ := map_eq_some_iff.mp h
        cases heq
        exact hitems hread
    split at h
    · split at h
      · cases h
        exact isGap_takeWhile t
      · obtain ⟨⟨members, after⟩, hread, heq⟩ := map_eq_some_iff.mp h
        cases heq
        exact hmembers hread
    split at h
    · cases h; trivial
    · cases h; trivial
    · cases h; trivial
    · obtain ⟨⟨lit, after⟩, hnum, heq⟩ := map_eq_some_iff.mp h
      cases heq
      exact (scanNumber_spec hnum).2

include hvalue hitems in
theorem parseItems_succ_wf {t rest : Text} {items : Items} (h : parseItems (fuel + 1) t = some (items, rest)) :
    items.WF := by
  rw [parseItems] at h
  split at h
  · cases h
  next v after hv =>
  split at h
  · cases h
    exact ⟨isGap_takeWhile t, hvalue hv, isGap_takeWhile after⟩
  · obtain ⟨⟨more, last⟩, hmore, heq⟩ := map_eq_some_iff.mp h
    cases heq
    exact ⟨isGap_takeWhile t, hvalue hv, isGap_takeWhile after, hitems hmore⟩
  · cases h

include hvalue hmembers in
theorem parseMembers_succ_wf {t rest : Text} {members : Members}
    (h : parseMembers (fuel + 1) t = some (members, rest)) : members.WF := by
  rw [parseMembers] at h
  split at h
  · next start hstart =>
    split at h
    · cases h
    next key afterKey hkey =>
    have hraw := (scanString_rawText hkey).isRaw
    split at h
    · next colon hcolon =>
      split at h
      · cases h
      next v after hv =>
      split at h
      · cases h
        exact ⟨isGap_takeWhile t, hraw, isGap_takeWhile afterKey, isGap_takeWhile colon, hvalue hv,
          isGap_takeWhile after⟩
      · obtain ⟨⟨more, last⟩, hmore, heq⟩ := map_eq_some_iff.mp h
        cases heq
        exact ⟨isGap_takeWhile t, hraw, isGap_takeWhile afterKey, isGap_takeWhile colon, hvalue hv,
          isGap_takeWhile after, hmembers hmore⟩
      · cases h
    · cases h
  · cases h

end

theorem parse_sound (fuel : Nat) :
    (∀ {t rest : Text} {v : Value}, parseValue fuel t = some (v, rest) → v.WF) ∧
    (∀ {t rest : Text} {items : Items}, parseItems fuel t = some (items, rest) → items.WF) ∧
    (∀ {t rest : Text} {members : Members}, parseMembers fuel t = some (members, rest) → members.WF) := by
  induction fuel with
  | zero =>
    refine ⟨?_, ?_, ?_⟩
    · intro t rest v h
      simp [parseValue] at h
    · intro t rest items h
      simp [parseItems] at h
    · intro t rest members h
      simp [parseMembers] at h
  | succ fuel ih =>
    obtain ⟨hvalue, hitems, hmembers⟩ := ih
    exact ⟨parseValue_succ_wf hitems hmembers, parseItems_succ_wf hvalue hitems,
      parseMembers_succ_wf hvalue hmembers⟩

theorem parse_wf {t : Text} {v : Value} (h : parse t = some v) : v.WF ∧ v.depth ≤ maxNestingDepth := by
  unfold parse at h
  split at h
  · next w rest hw =>
    split at h
    · next hok =>
      cases h
      simp only [Bool.and_eq_true, decide_eq_true_eq] at hok
      exact ⟨(parse_sound _).1 hw, hok.2⟩
    · cases h
  · cases h

end Json
