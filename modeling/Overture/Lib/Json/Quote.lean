import Overture.Lib.Json.Print

/-!
# Strings as `json.Marshal` writes them

Quoting a text gives the inside of a JSON string, and unquoting gives the text back.
-/

namespace Json

open List

theorem hexDigits_unicodeEscape {n : Nat} (hn : n < 65536) :
    hexDigits [Hex.char (n / 4096 % 16), Hex.char (n / 256 % 16), Hex.char (n / 16 % 16), Hex.char (n % 16)] =
      some n := by
  have h (m : Nat) : Hex.digit (Hex.char (m % 16)) = some (m % 16) := Hex.digit_char (by omega)
  simp only [hexDigits, foldl_cons, foldl_nil, h, Option.bind_some, Option.map_some]
  congr 1
  omega

theorem scanString_unicodeEscape {n : Nat} (hn : n < 65536) (t : Text) :
    scanString (unicodeEscape n ++ t) = (scanString t).map fun r => (unicodeEscape n ++ r.1, r.2) := by
  simp [unicodeEscape, scanString, hexDigits_unicodeEscape hn]

theorem unescape_unicodeEscape {n : Nat} (hn : n < 65536) (t : Text) :
    unescape (unicodeEscape n ++ t) = n :: unescape t := by
  simp [unicodeEscape, unescape, hexDigits_unicodeEscape hn]

/-- A way of writing runes that a reader of strings understands: each rune is written as a short escape, as
four hexadecimal digits or as itself. -/
def Spells (spell : Char → Text) : Prop :=
  ∀ c, (∃ e, spell c = ['\x5c', e] ∧ e ≠ 'u' ∧ escapeCode e = some c.toNat) ∨
    (spell c = unicodeEscape c.toNat ∧ c.toNat < 65536) ∨
    (spell c = [c] ∧ c ≠ '\x22' ∧ c ≠ '\x5c' ∧ ¬ c.toNat < 32)

section

variable {spell : Char → Text}

theorem scanString_spelled (h : Spells spell) (c : Char) (t : Text) :
    scanString (spell c ++ t) = (scanString t).map fun r => (spell c ++ r.1, r.2) := by
  rcases h c with ⟨e, he, hu, hcode⟩ | ⟨he, hn⟩ | ⟨he, hq, hb, hn⟩
  · rw [he]
    simp [scanString, hu, hcode]
  · rw [he, scanString_unicodeEscape hn]
  · rw [he, singleton_append, scanString.eq_def]
    simp [hq, hb, hn]

theorem unescape_spelled (h : Spells spell) (c : Char) (t : Text) :
    unescape (spell c ++ t) = c.toNat :: unescape t := by
  rcases h c with ⟨e, he, hu, hcode⟩ | ⟨he, hn⟩ | ⟨he, hq, hb, hn⟩
  · rw [he]
    simp [unescape, hu, hcode]
  · rw [he, unescape_unicodeEscape hn]
  · rw [he, singleton_append, unescape.eq_def]
    simp [hb]

theorem isRaw_spelled (h : Spells spell) (t : Text) : IsRaw (t.flatMap spell) := by
  intro rest
  induction t with
  | nil => rw [flatMap_nil, nil_append, scanString.eq_def]; rfl
  | cons c t ih =>
    rw [flatMap_cons, append_assoc, scanString_spelled h, ih]
    rfl

theorem unescape_flatMap (h : Spells spell) (t : Text) :
    unescape (t.flatMap spell) = t.map Char.toNat := by
  induction t with
  | nil => rfl
  | cons c t ih => rw [flatMap_cons, unescape_spelled h, ih, map_cons]

end

def escapeControl (c : Char) : Text :=
  if c == '\x22' || c == '\x5c' then ['\x5c', c]
  else if c == '\x08' then ['\x5c', 'b']
  else if c == '\x0c' then ['\x5c', 'f']
  else if c == '\n' then ['\x5c', 'n']
  else if c == '\r' then ['\x5c', 'r']
  else if c == '\t' then ['\x5c', 't']
  else if c.toNat < 32 then unicodeEscape c.toNat
  else [c]

def isLineSeparator (c : Char) : Bool := c == '\u2028' || c == '\u2029'

/-- How an encoder of `encoding/json` writes a rune when the escaping of HTML is off. -/
def escapeLines (c : Char) : Text := if isLineSeparator c then unicodeEscape c.toNat else escapeControl c

theorem spells_escapeControl : Spells escapeControl := by
  intro c
  unfold escapeControl
  split_ifs with h1 h2 h3 h4 h5 h6 h7
  · simp only [Bool.or_eq_true, beq_iff_eq] at h1
    rcases h1 with rfl | rfl
    · exact .inl ⟨'\x22', rfl, by decide, rfl⟩
    · exact .inl ⟨'\x5c', rfl, by decide, rfl⟩
  · obtain rfl := beq_iff_eq.mp h2
    exact .inl ⟨'b', rfl, by decide, rfl⟩
  · obtain rfl := beq_iff_eq.mp h3
    exact .inl ⟨'f', rfl, by decide, rfl⟩
  · obtain rfl := beq_iff_eq.mp h4
    exact .inl ⟨'n', rfl, by decide, rfl⟩
  · obtain rfl := beq_iff_eq.mp h5
    exact .inl ⟨'r', rfl, by decide, rfl⟩
  · obtain rfl := beq_iff_eq.mp h6
    exact .inl ⟨'t', rfl, by decide, rfl⟩
  · exact .inr (.inl ⟨rfl, by omega⟩)
  · refine .inr (.inr ⟨rfl, ?_⟩)
    simp_all

theorem spells_escapeMore {spell : Char → Text} (h : Spells spell) {more : Char → Bool}
    (hmore : ∀ c, more c = true → c.toNat < 65536) :
    Spells fun c => if more c then unicodeEscape c.toNat else spell c := by
  intro c
  dsimp only
  split
  · next hc => exact .inr (.inl ⟨rfl, hmore c hc⟩)
  · exact h c

theorem toNat_of_isLineSeparator {c : Char} (h : isLineSeparator c = true) : c.toNat < 65536 := by
  simp only [isLineSeparator, Bool.or_eq_true, beq_iff_eq] at h
  rcases h with rfl | rfl <;> decide

theorem spells_escapeLines : Spells escapeLines :=
  spells_escapeMore spells_escapeControl fun _ => toNat_of_isLineSeparator

def isHTML (c : Char) : Bool := c == '<' || c == '>' || c == '&' || c == '\u2028' || c == '\u2029'

theorem toNat_of_isHTML {c : Char} (h : isHTML c = true) : c.toNat < 65536 := by
  simp only [isHTML, Bool.or_eq_true, beq_iff_eq] at h
  rcases h with (((rfl | rfl) | rfl) | rfl) | rfl <;> decide

theorem escapeRune_eq (c : Char) :
    escapeRune c = if isHTML c then unicodeEscape c.toNat else escapeControl c := by
  unfold escapeRune
  by_cases hc : isHTML c = true
  · rw [if_pos hc]
    simp only [isHTML, Bool.or_eq_true, beq_iff_eq] at hc
    rcases hc with (((rfl | rfl) | rfl) | rfl) | rfl <;> rfl
  rw [if_neg hc]
  simp only [isHTML, Bool.or_eq_true, beq_iff_eq, not_or] at hc
  simp [escapeControl, hc]

theorem spells_escapeRune : Spells escapeRune := by
  have h : escapeRune = fun c => if isHTML c then unicodeEscape c.toNat else escapeControl c :=
    funext escapeRune_eq
  rw [h]
  exact spells_escapeMore spells_escapeControl fun _ => toNat_of_isHTML

theorem not_surrogate (c : Char) : isHighSurrogate c.toNat = false ∧ isLowSurrogate c.toNat = false := by
  have hvalid := c.valid
  simp only [isHighSurrogate, isLowSurrogate, Bool.and_eq_false_iff, decide_eq_false_iff_not]
  simp only [UInt32.isValidChar, Nat.isValidChar, Char.toNat] at hvalid ⊢
  omega

theorem joinSurrogates_map (t : Text) : joinSurrogates (t.map Char.toNat) = t := by
  induction t with
  | nil => rfl
  | cons c t ih =>
    cases t with
    | nil => simp [joinSurrogates, not_surrogate]
    | cons d t => simpa [joinSurrogates, not_surrogate] using ih

theorem unquote_spelled {spell : Char → Text} (h : Spells spell) (t : Text) :
    unquote (t.flatMap spell) = t := by
  rw [unquote, unescape_flatMap h, joinSurrogates_map]

theorem isRaw_quote (t : Text) : IsRaw (quote t) := isRaw_spelled spells_escapeRune t

theorem unquote_quote (t : Text) : unquote (quote t) = t := unquote_spelled spells_escapeRune t

end Json
