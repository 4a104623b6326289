import Overture.Lib.Json.Print

/-!
# Number literals

The scanner reads a number as far as it goes; decimal numerals are number literals,
and reading one as an unsigned integer gives the number back.
-/

namespace Json

open List

def NotStarting (p : Char → Bool) (t : Text) : Prop := ∀ c ∈ t.head?, p c = false

variable {p : Char → Bool} {t a r : Text}

theorem NotStarting.dropWhile_append {ds rest : Text} (hds : ∀ c ∈ ds, p c = true)
    (hrest : NotStarting p rest) :
    (ds ++ rest).takeWhile p = ds ∧ (ds ++ rest).dropWhile p = rest := by
  rw [takeWhile_append_of_pos hds, dropWhile_append_of_pos hds]
  cases rest with
  | nil => simp
  | cons c l =>
    have hc : p c = false := hrest c rfl
    simp [hc]

theorem mem_takeWhile_isDigit : ∀ c ∈ t.takeWhile Char.isDigit, c.isDigit = true := by
  intro c hc
  exact mem_takeWhile_imp hc

theorem scanInt_spec (h : scanInt t = some (a, r)) :
    t = a ++ r ∧ (∃ c l, a = c :: l ∧ c.isDigit = true) ∧
      ∀ rest, NotStarting Char.isDigit rest → scanInt (a ++ rest) = some (a, rest) := by
  unfold scanInt at h
  split at h
  · cases h
    exact ⟨rfl, ⟨'0', [], rfl, by decide⟩, fun rest _ => rfl⟩
  · next c l hne =>
    split at h
    · next hc =>
      obtain ⟨rfl, rfl⟩ : (c :: l).takeWhile Char.isDigit = a ∧ (c :: l).dropWhile Char.isDigit = r := by
        simpa using h
      refine ⟨takeWhile_append_dropWhile.symm, ⟨c, _, takeWhile_cons_of_pos hc, hc⟩, ?_⟩
      intro rest hrest
      obtain ⟨htake, hdrop⟩ := hrest.dropWhile_append (mem_takeWhile_isDigit (t := c :: l))
      rw [takeWhile_cons_of_pos hc] at htake hdrop ⊢
      rw [cons_append] at htake hdrop ⊢
      have h0 : c ≠ '0' := by rintro rfl; exact hne rfl
      unfold scanInt
      split
      · simp_all
      · simp_all
      · simp_all
    · simp at h
  · simp at h

theorem scanFrac_spec (h : scanFrac t = some (a, r)) :
    t = a ++ r ∧ (a = [] ∨ ∃ l, a = '.' :: l) ∧
      ∀ rest, NotStarting (fun c => c.isDigit || c == '.') rest → scanFrac (a ++ rest) = some (a, rest) := by
  unfold scanFrac at h
  split at h
  · next l =>
    split at h
    · simp at h
    next hne =>
    obtain ⟨rfl, rfl⟩ : '.' :: l.takeWhile Char.isDigit = a ∧ l.dropWhile Char.isDigit = r := by
      simpa using h
    refine ⟨by simp, .inr ⟨_, rfl⟩, ?_⟩
    intro rest hrest
    have hd : NotStarting Char.isDigit rest := fun c hc => by
      have := hrest c hc
      simp_all
    obtain ⟨htake, hdrop⟩ := hd.dropWhile_append (mem_takeWhile_isDigit (t := l))
    simp only [cons_append, scanFrac, htake, hdrop]
    simp [hne]
  next hne =>
  cases h
  refine ⟨rfl, .inl rfl, ?_⟩
  intro rest hrest
  cases rest with
  | nil => rfl
  | cons c l =>
    have hc := hrest c rfl
    simp only [Bool.or_eq_false_iff, beq_eq_false_iff_ne] at hc
    unfold scanFrac
    split
    · simp_all
    · rfl

theorem scanSign_spec (t : Text) :
    t = (scanSign t).1 ++ (scanSign t).2 ∧
      ∀ c l, c.isDigit = true → scanSign ((scanSign t).1 ++ c :: l) = ((scanSign t).1, c :: l) := by
  unfold scanSign
  split
  · exact ⟨rfl, fun c l _ => rfl⟩
  · exact ⟨rfl, fun c l _ => rfl⟩
  refine ⟨rfl, fun c l hc => ?_⟩
  rw [nil_append]
  split
  · simp_all
  · simp_all
  · rfl

theorem scanExp_of_notStarting {rest : Text}
    (h : NotStarting (fun c => c.isDigit || c == 'e' || c == 'E') rest) : scanExp rest = some ([], rest) := by
  cases rest with
  | nil => rfl
  | cons d l =>
    have hd := h d rfl
    simp only [Bool.or_eq_false_iff, beq_eq_false_iff_ne] at hd
    simp [scanExp, hd]

theorem scanExp_spec (h : scanExp t = some (a, r)) :
    t = a ++ r ∧ (a = [] ∨ ∃ c l, a = c :: l ∧ (c = 'e' ∨ c = 'E')) ∧
      ∀ rest, NotStarting (fun c => c.isDigit || c == 'e' || c == 'E') rest →
        scanExp (a ++ rest) = some (a, rest) := by
  unfold scanExp at h
  split at h
  · next c l =>
    split at h
    · next hc =>
      simp only [Bool.or_eq_true, beq_iff_eq] at hc
      dsimp only at h
      split at h
      · simp at h
      next hne =>
      obtain ⟨rfl, rfl⟩ : c :: ((scanSign l).1 ++ (scanSign l).2.takeWhile Char.isDigit) = a ∧
          (scanSign l).2.dropWhile Char.isDigit = r := by simpa using h
      obtain ⟨hl, hsign⟩ := scanSign_spec l
      generalize (scanSign l).1 = sign at *
      generalize (scanSign l).2 = t at *
      refine ⟨by simpa using hl, .inr ⟨c, _, rfl, hc⟩, ?_⟩
      intro rest hrest
      have hd : NotStarting Char.isDigit rest := fun c hc => by
        have := hrest c hc
        simp_all
      obtain ⟨htake, hdrop⟩ := hd.dropWhile_append (mem_takeWhile_isDigit (t := t))
      cases hds : t.takeWhile Char.isDigit with
      | nil => simp [hds] at hne
      | cons d ds =>
        have hdig : d.isDigit = true := mem_takeWhile_isDigit (t := t) d (by rw [hds]; simp)
        have hs := hsign d (ds ++ rest) hdig
        rw [hds, cons_append] at htake hdrop
        have hce : (c == 'e' || c == 'E') = true := by simpa using hc
        simp only [cons_append, append_assoc, scanExp, hce, if_true, hs, htake, hdrop]
        rfl
    · next hc =>
      cases h
      exact ⟨rfl, .inl rfl, fun _ => scanExp_of_notStarting⟩
  · cases h
    exact ⟨rfl, .inl rfl, fun _ => scanExp_of_notStarting⟩

theorem Ends.notStarting (hp : ∀ c, isEnd c = true → p c = false) {rest : Text}
    (h : Ends rest) : NotStarting p rest := fun c hc => hp c (h c hc)

theorem isEnd_imp
    (h : p ' ' = false ∧ p '\t' = false ∧ p '\n' = false ∧ p '\r' = false ∧ p ',' = false ∧ p ']' = false ∧
      p '\x7d' = false) : ∀ c, isEnd c = true → p c = false := by
  intro c hc
  simp only [isEnd, isGap, Bool.or_eq_true, beq_iff_eq] at hc
  rcases hc with (((((rfl | rfl) | rfl) | rfl) | rfl) | rfl) | rfl <;> simp [h]

theorem scanMinus_spec (t : Text) :
    t = (scanMinus t).1 ++ (scanMinus t).2 ∧ ((scanMinus t).1 = [] ∨ (scanMinus t).1 = ['-']) ∧
      ∀ c l, c.isDigit = true → scanMinus ((scanMinus t).1 ++ c :: l) = ((scanMinus t).1, c :: l) := by
  unfold scanMinus
  split
  · exact ⟨rfl, .inr rfl, fun c l _ => rfl⟩
  refine ⟨rfl, .inl rfl, fun c l hc => ?_⟩
  rw [nil_append]
  split
  · simp_all
  · rfl

theorem scanNumber_spec {lit : Text} (h : scanNumber t = some (lit, r)) :
    t = lit ++ r ∧ IsNumber lit := by
  unfold scanNumber at h
  obtain ⟨ht, hsign, hminus⟩ := scanMinus_spec t
  generalize (scanMinus t).1 = minus at *
  generalize (scanMinus t).2 = t' at *
  split at h
  · simp at h
  next int t₁ hint =>
  split at h
  · simp at h
  next frac t₂ hfrac =>
  split at h
  · simp at h
  next exp t₃ hexp =>
  cases h
  obtain ⟨rfl, ⟨c, l, rfl, hc⟩, hint'⟩ := scanInt_spec hint
  obtain ⟨rfl, hfs, hfrac'⟩ := scanFrac_spec hfrac
  obtain ⟨rfl, hes, hexp'⟩ := scanExp_spec hexp
  refine ⟨by simp [ht], ?_, ?_⟩
  · rcases hsign with rfl | rfl
    · exact ⟨c, _, rfl, .inr hc⟩
    · exact ⟨'-', _, rfl, .inl rfl⟩
  intro rest hrest
  have he := hexp' rest (hrest.notStarting (isEnd_imp (by decide)))
  have hf := hfrac' (exp ++ rest) (by
    rcases hes with rfl | ⟨d, l, rfl, rfl | rfl⟩
    · exact hrest.notStarting (isEnd_imp (by decide))
    all_goals simp [NotStarting])
  have hi := hint' (frac ++ (exp ++ rest)) (by
    rcases hfs with rfl | ⟨l, rfl⟩
    · rcases hes with rfl | ⟨d, l, rfl, rfl | rfl⟩
      · exact hrest.notStarting (isEnd_imp (by decide))
      all_goals simp [NotStarting]
    · simp [NotStarting])
  have hm := hminus c (l ++ (frac ++ (exp ++ rest))) hc
  simp only [cons_append] at hi
  simp only [scanNumber, append_assoc, cons_append, hm, hi, hf, he]

theorem toDigits_head {n : Nat} (hn : n ≠ 0) : ∃ c l, Nat.toDigits 10 n = c :: l ∧ c ≠ '0' := by
  induction n using Nat.strong_induction_on with
  | _ n ih =>
    by_cases h : n < 10
    · refine ⟨n.digitChar, [], Nat.toDigits_of_lt_base h, ?_⟩
      interval_cases n <;> simp_all
    · obtain ⟨c, l, hl, hc⟩ := ih (n / 10) (by omega) (by omega)
      exact ⟨c, _, by rw [Nat.toDigits_of_base_le (by decide) (by omega), hl, cons_append], hc⟩

theorem isDigit_toDigits (n : Nat) : ∀ c ∈ Nat.toDigits 10 n, c.isDigit = true :=
  fun _ hc => Nat.isDigit_of_mem_toDigits (by decide) (by decide) hc

theorem scanInt_toDigits (n : Nat) : scanInt (Nat.toDigits 10 n) = some (Nat.toDigits 10 n, []) := by
  by_cases hn : n = 0
  · subst hn
    decide
  have hdigits := isDigit_toDigits n
  obtain ⟨c, l, hl, hc⟩ := toDigits_head hn
  rw [hl] at hdigits ⊢
  have htake := takeWhile_eq_self_iff.mpr hdigits
  have hdrop := dropWhile_eq_nil_iff.mpr hdigits
  unfold scanInt
  split
  · simp_all
  · simp_all
  · simp_all

theorem scanMinus_toDigits (n : Nat) (rest : Text) :
    scanMinus (Nat.toDigits 10 n ++ rest) = ([], Nat.toDigits 10 n ++ rest) := by
  unfold scanMinus
  split
  · next l h =>
    cases hd : Nat.toDigits 10 n with
    | nil => exact absurd hd Nat.toDigits_ne_nil
    | cons c ds =>
      have hdigit := isDigit_toDigits n c (by simp [hd])
      rw [hd, cons_append, cons.injEq] at h
      rw [h.1] at hdigit
      simp at hdigit
  · rfl

theorem isNumber_toDigits (n : Nat) : IsNumber (Nat.toDigits 10 n) := by
  have hmin := scanMinus_toDigits n []
  rw [append_nil] at hmin
  refine (scanNumber_spec (t := Nat.toDigits 10 n) (r := []) ?_).2
  simp [scanNumber, hmin, scanInt_toDigits, scanFrac, scanExp]

def parseUint (bits : Nat) (lit : Text) : Option Nat :=
  if lit ≠ [] ∧ lit.all Char.isDigit ∧ Nat.ofDigitChars 10 lit 0 < 2 ^ bits then
    some (Nat.ofDigitChars 10 lit 0)
  else none

theorem parseUint_toDigits {bits n : Nat} (hn : n < 2 ^ bits) :
    parseUint bits (Nat.toDigits 10 n) = some n := by
  have hdigits : (Nat.toDigits 10 n).all Char.isDigit = true := all_eq_true.mpr (isDigit_toDigits n)
  simp [parseUint, Nat.toDigits_ne_nil, hdigits, hn]

/-- A finite number of the type `float64`: the mantissa times a power of two. -/
structure Float64 where
  neg : Bool
  mant : Nat
  exp : Int
deriving DecidableEq

namespace Float64

def divRound (n d : Nat) : Nat :=
  let q := n / d
  let r := n % d
  if 2 * r < d || (2 * r == d && q % 2 == 0) then q else q + 1

def mantAt (n d : Nat) (e : Int) : Nat :=
  divRound (n * 2 ^ (-e).toNat) (d * 2 ^ e.toNat)

/-- The number nearest to `n / d`, or none when it is out of range. -/
def ofRatio (neg : Bool) (n d : Nat) : Option Float64 :=
  if n = 0 then some ⟨neg, 0, 0⟩
  else
    let low := max ((n.log2 : Int) - d.log2 - 53) (-1074)
    -- the exponent at which the quotient has 53 bits, or the least one
    let e := if n * 2 ^ (-low).toNat / (d * 2 ^ low.toNat) < 2 ^ 53 then low else low + 1
    let m := mantAt n d e
    let x : Float64 :=
      if m = 0 then ⟨neg, 0, 0⟩ else if m = 2 ^ 53 then ⟨neg, 2 ^ 52, e + 1⟩ else ⟨neg, m, e⟩
    if x.exp ≤ 971 then some x else none

def parse (lit : Text) : Option Float64 :=
  let t := (scanMinus lit).2
  let neg := (scanMinus lit).1 == ['-']
  let int := t.takeWhile Char.isDigit
  let frac := match t.dropWhile Char.isDigit with
    | '.' :: rest => rest.takeWhile Char.isDigit
    | _ => []
  let tail := t.dropWhile fun c => c.isDigit || c == '.'
  let sign := scanSign (tail.drop 1)
  let scale := (Nat.ofDigitChars 10 sign.2 0 : Int)
  let exp := (if sign.1 == ['-'] then -scale else scale) - frac.length
  let m := Nat.ofDigitChars 10 (int ++ frac) 0
  ofRatio neg (m * 10 ^ exp.toNat) (10 ^ (-exp).toNat)

/-- The decimal digits of a number and where the point stands in them, in the two layouts
`encoding/json` uses. -/
def layout (neg : Bool) (digits : Text) (point : Int) : Text :=
  let sign := if neg then ['-'] else []
  let count : Int := digits.length
  if point < -5 || point > 21 then
    let e := point - 1
    let frac := if digits.length ≤ 1 then [] else '.' :: digits.drop 1
    let power := if e < 0 then '-' :: Nat.toDigits 10 (-e).toNat else '+' :: Nat.toDigits 10 e.toNat
    sign ++ digits.take 1 ++ frac ++ 'e' :: power
  else if point ≤ 0 then
    sign ++ '0' :: '.' :: (List.replicate (-point).toNat '0' ++ digits)
  else if point ≥ count then
    sign ++ digits ++ List.replicate (point - count).toNat '0'
  else
    sign ++ digits.take point.toNat ++ '.' :: digits.drop point.toNat

/-- The two decimals of `len` digits around the number, the nearer one first: their digits without the zeros
at the end, and where the point stands. -/
def decimals (x : Float64) (len : Nat) : List (Text × Int) :=
  let n := x.mant * 2 ^ x.exp.toNat
  let d := 2 ^ (-x.exp).toNat
  let point : Int :=
    if d ≤ n then (Nat.toDigits 10 (n / d)).length
    else 1 - ((Nat.toDigits 10 ((d + n - 1) / n - 1)).length : Int)
  let scale := point - len
  let num := n * 10 ^ (-scale).toNat
  let den := d * 10 ^ scale.toNat
  let below := num / den
  let near := divRound num den
  let far := if near = below then below + 1 else below
  [near, far].map fun m =>
    let ds := Nat.toDigits 10 m
    let kept := (ds.reverse.dropWhile (· == '0')).reverse
    (kept, point + ds.length - len)

def candidates (x : Float64) (len : Nat) : List Text :=
  (x.decimals len).map fun d => layout x.neg d.1 d.2

/-- All digits of the number. Seventeen of them tell it from the others, so that this literal is never the
first that is read back; it makes the search below succeed. -/
def exactLiteral (x : Float64) : Text :=
  let sign := if x.neg then ['-'] else []
  if 0 ≤ x.exp then sign ++ Nat.toDigits 10 (x.mant * 2 ^ x.exp.toNat)
  else sign ++ Nat.toDigits 10 (x.mant * 5 ^ (-x.exp).toNat) ++ 'e' :: '-' :: Nat.toDigits 10 (-x.exp).toNat

def readBack (x : Float64) (lits : List Text) : Option Text :=
  (lits ++ [x.exactLiteral]).find? fun lit => scanNumber lit == some (lit, []) && parse lit == some x

/-- The shortest literal that is read back as the number: how `encoding/json` writes a `float64`. -/
def format (x : Float64) : Option Text :=
  x.readBack (if x.mant = 0 then [] else (List.range 17).flatMap fun k => x.candidates (k + 1))

theorem readBack_spec {x : Float64} {lits : List Text} {lit : Text} (h : x.readBack lits = some lit) :
    IsNumber lit ∧ parse lit = some x := by
  have hfind := find?_some h
  simp only [Bool.and_eq_true, beq_iff_eq] at hfind
  exact ⟨(scanNumber_spec hfind.1).2, hfind.2⟩

theorem format_spec {x : Float64} {lit : Text} (h : x.format = some lit) :
    IsNumber lit ∧ parse lit = some x := readBack_spec h

/-- The layout of Python's `float.__repr__`: a point or an exponent always shows that it is a float. -/
def reprLayout (neg : Bool) (digits : Text) (point : Int) : Text :=
  let sign := if neg then ['-'] else []
  let count : Int := digits.length
  if point ≤ -4 || point > 16 then
    let e := point - 1
    let frac := if digits.length ≤ 1 then [] else '.' :: digits.drop 1
    let power := Nat.toDigits 10 e.natAbs
    let padded := if power.length < 2 then '0' :: power else power
    sign ++ digits.take 1 ++ frac ++ 'e' :: (if e < 0 then '-' else '+') :: padded
  else if point ≤ 0 then
    sign ++ '0' :: '.' :: (List.replicate (-point).toNat '0' ++ digits)
  else if point ≥ count then
    sign ++ digits ++ List.replicate (point - count).toNat '0' ++ ['.', '0']
  else
    sign ++ digits.take point.toNat ++ '.' :: digits.drop point.toNat

def repr (x : Float64) : Option Text :=
  x.readBack
    (if x.mant = 0 then [reprLayout x.neg ['0'] 1]
    else (List.range 17).flatMap fun k => (x.decimals (k + 1)).map fun d => reprLayout x.neg d.1 d.2)

end Float64

end Json
