import Overture.Lib.Json.Number

/-!
# Every number that is read can be written

The exact decimal of a number is read back as the number, so the search for the shortest
literal always ends with one.
-/

namespace Json

namespace Float64

variable {n d : Nat} {e : Int} {x : Float64}

theorem divRound_bounds {a b : Nat} (hd : 0 < d) (ha : a * d ≤ n) (hb : n ≤ b * d) :
    a ≤ divRound n d ∧ divRound n d ≤ b := by
  have hlow : a ≤ n / d := (Nat.le_div_iff_mul_le hd).mpr ha
  have hhigh : n / d ≤ b := Nat.div_le_of_le_mul (by rwa [Nat.mul_comm])
  have hmod := Nat.div_add_mod n d
  unfold divRound
  dsimp only
  split
  · exact ⟨hlow, hhigh⟩
  next hround =>
  refine ⟨by omega, ?_⟩
  -- rounding up needs a rest, and then the quotient is below the bound
  rcases Nat.lt_or_ge (n / d) b with h | h
  · omega
  have heq : n / d = b := by omega
  have hrest : n % d = 0 := by
    rw [heq, Nat.mul_comm] at hmod
    omega
  simp [hrest, hd] at hround

theorem zpow_toNat (e : Int) : (2 : ℚ) ^ e = 2 ^ e.toNat / 2 ^ (-e).toNat := by
  rcases le_total 0 e with h | h
  · obtain ⟨k, rfl⟩ := Int.eq_ofNat_of_zero_le h
    simp
  obtain ⟨k, hk⟩ := Int.eq_ofNat_of_zero_le (neg_nonneg.mpr h)
  obtain rfl : e = -(k : Int) := by omega
  simp

theorem scaled_eq (n d : Nat) (e : Int) :
    ((n * 2 ^ (-e).toNat : Nat) : ℚ) / ((d * 2 ^ e.toNat : Nat) : ℚ) = n / d * 2 ^ (-e) := by
  rw [zpow_neg, zpow_toNat]
  push_cast
  field_simp

theorem log2_bounds (hn : n ≠ 0) :
    (2 : ℚ) ^ (n.log2 : Int) ≤ n ∧ (n : ℚ) < 2 ^ ((n.log2 : Int) + 1) := by
  constructor
  · exact_mod_cast Nat.log2_self_le hn
  · exact_mod_cast Nat.lt_log2_self (n := n)

theorem ratio_bounds (hn : n ≠ 0) (hd : d ≠ 0) :
    (2 : ℚ) ^ ((n.log2 : Int) - d.log2 - 1) < n / d ∧ (n : ℚ) / d < 2 ^ ((n.log2 : Int) - d.log2 + 1) := by
  obtain ⟨hn1, hn2⟩ := log2_bounds hn
  obtain ⟨hd1, hd2⟩ := log2_bounds hd
  have hdpos : (0 : ℚ) < d := by exact_mod_cast Nat.pos_of_ne_zero hd
  constructor
  · rw [lt_div_iff₀ hdpos]
    calc (2 : ℚ) ^ ((n.log2 : Int) - d.log2 - 1) * d
        < 2 ^ ((n.log2 : Int) - d.log2 - 1) * 2 ^ ((d.log2 : Int) + 1) := by gcongr
      _ = 2 ^ (n.log2 : Int) := by rw [← zpow_add₀ two_ne_zero]; congr 1; ring
      _ ≤ n := hn1
  rw [div_lt_iff₀ hdpos]
  calc (n : ℚ) < 2 ^ ((n.log2 : Int) + 1) := hn2
    _ = 2 ^ ((n.log2 : Int) - d.log2 + 1) * 2 ^ (d.log2 : Int) := by
      rw [← zpow_add₀ two_ne_zero]; congr 1; ring
    _ ≤ 2 ^ ((n.log2 : Int) - d.log2 + 1) * d := by gcongr

def Fits (q : ℚ) (e : Int) : Prop := -1074 ≤ e ∧ q * 2 ^ (-e) < 2 ^ 53 ∧ (e = -1074 ∨ 2 ^ 52 ≤ q * 2 ^ (-e))

theorem not_lt_of_fits {q : ℚ} {e' : Int} (hq : 0 < q) (h : Fits q e) (h' : Fits q e') : ¬e < e' := by
  intro hlt
  obtain ⟨hmin, hhigh, -⟩ := h
  obtain ⟨-, -, hlow⟩ := h'
  have hnormal : (2 : ℚ) ^ 52 ≤ q * 2 ^ (-e') := hlow.resolve_left (by omega)
  have hstep : q * 2 ^ (-e') ≤ q * 2 ^ (-e) / 2 := by
    calc q * 2 ^ (-e') ≤ q * 2 ^ (-e - 1) := by
          gcongr
          · norm_num
          · omega
      _ = q * 2 ^ (-e) / 2 := by rw [zpow_sub_one₀ two_ne_zero]; ring
  linarith

theorem fits_unique {q : ℚ} {e' : Int} (hq : 0 < q) (h : Fits q e) (h' : Fits q e') : e = e' := by
  have h1 := not_lt_of_fits hq h h'
  have h2 := not_lt_of_fits hq h' h
  omega

def pack (neg : Bool) (m : Nat) (e : Int) : Float64 :=
  if m = 0 then ⟨neg, 0, 0⟩ else if m = 2 ^ 53 then ⟨neg, 2 ^ 52, e + 1⟩ else ⟨neg, m, e⟩

theorem div_lt_iff_scaled (hd : d ≠ 0) (e : Int) (k : Nat) :
    n * 2 ^ (-e).toNat / (d * 2 ^ e.toNat) < k ↔ (n : ℚ) / d * 2 ^ (-e) < k := by
  have hpos : 0 < d * 2 ^ e.toNat := Nat.mul_pos (Nat.pos_of_ne_zero hd) (by positivity)
  have hposq : (0 : ℚ) < ((d * 2 ^ e.toNat : Nat) : ℚ) := by exact_mod_cast hpos
  rw [Nat.div_lt_iff_lt_mul hpos, ← scaled_eq, div_lt_iff₀ hposq]
  exact_mod_cast Iff.rfl

theorem ofRatio_eq (neg : Bool) (hn : n ≠ 0) (hd : d ≠ 0) :
    ∃ e, Fits (n / d) e ∧
      ofRatio neg n d = if (pack neg (mantAt n d e) e).exp ≤ 971 then some (pack neg (mantAt n d e) e) else none := by
  obtain ⟨hlow, hhigh⟩ := ratio_bounds hn hd
  set first : Int := (n.log2 : Int) - d.log2 - 53 with hfirst
  have hpos : (0 : ℚ) < 2 ^ (-max first (-1074)) := by positivity
  have hbelow : (n : ℚ) / d * 2 ^ (-max first (-1074)) < 2 ^ 54 := by
    calc (n : ℚ) / d * 2 ^ (-max first (-1074))
        < 2 ^ ((n.log2 : Int) - d.log2 + 1) * 2 ^ (-max first (-1074)) := by gcongr
      _ = 2 ^ ((n.log2 : Int) - d.log2 + 1 - max first (-1074)) := by rw [← zpow_add₀ two_ne_zero]; congr 1
      _ ≤ 2 ^ (54 : Int) := by
        gcongr
        · norm_num
        · omega
  by_cases hfits : n * 2 ^ (-max first (-1074)).toNat / (d * 2 ^ (max first (-1074)).toNat) < 2 ^ 53
  · refine ⟨max first (-1074), ⟨le_max_right _ _, ?_, ?_⟩, ?_⟩
    · exact_mod_cast (div_lt_iff_scaled hd _ (2 ^ 53)).mp hfits
    · rcases le_total first (-1074) with h | h
      · exact .inl (max_eq_right h)
      · right
        calc (2 : ℚ) ^ 52 = 2 ^ ((n.log2 : Int) - d.log2 - 1) * 2 ^ (-max first (-1074)) := by
              rw [← zpow_add₀ two_ne_zero, max_eq_left h, hfirst, ← zpow_natCast]
              congr 1
              push_cast
              ring
          _ ≤ n / d * 2 ^ (-max first (-1074)) := by gcongr
    · unfold ofRatio
      rw [if_neg hn]
      dsimp only
      rw [← hfirst, if_pos hfits]
      rfl
  have habove : (2 : ℚ) ^ 53 ≤ n / d * 2 ^ (-max first (-1074)) := by
    have := mt (div_lt_iff_scaled hd _ (2 ^ 53)).mpr hfits
    exact_mod_cast not_lt.mp this
  have hhalf : (n : ℚ) / d * 2 ^ (-(max first (-1074) + 1)) = n / d * 2 ^ (-max first (-1074)) / 2 := by
    rw [neg_add, ← sub_eq_add_neg, zpow_sub_one₀ two_ne_zero]
    ring
  refine ⟨max first (-1074) + 1, ⟨?_, ?_, .inr ?_⟩, ?_⟩
  · have := le_max_right first (-1074)
    omega
  · rw [hhalf]
    linarith
  · rw [hhalf]
    linarith
  · unfold ofRatio
    rw [if_neg hn]
    dsimp only
    rw [← hfirst, if_neg hfits]
    rfl

/-- A number as `strconv` holds one: the mantissa has 53 bits, or fewer at the least exponent. -/
def Normal (x : Float64) : Prop :=
  (x.mant = 0 ∧ x.exp = 0) ∨
    (0 < x.mant ∧ x.mant < 2 ^ 53 ∧ -1074 ≤ x.exp ∧ x.exp ≤ 971 ∧ (x.exp = -1074 ∨ 2 ^ 52 ≤ x.mant))

theorem mantAt_bounds {a b : Nat} (hd : d ≠ 0) (ha : (a : ℚ) ≤ n / d * 2 ^ (-e))
    (hb : (n : ℚ) / d * 2 ^ (-e) ≤ b) : a ≤ mantAt n d e ∧ mantAt n d e ≤ b := by
  have hpos : 0 < d * 2 ^ e.toNat := Nat.mul_pos (Nat.pos_of_ne_zero hd) (by positivity)
  have hposq : (0 : ℚ) < ((d * 2 ^ e.toNat : Nat) : ℚ) := by exact_mod_cast hpos
  rw [← scaled_eq, le_div_iff₀ hposq] at ha
  rw [← scaled_eq, div_le_iff₀ hposq] at hb
  exact divRound_bounds hpos (by exact_mod_cast ha) (by exact_mod_cast hb)

theorem ofRatio_normal {neg : Bool} (hd : d ≠ 0) (h : ofRatio neg n d = some x) :
    x.Normal := by
  by_cases hn : n = 0
  · subst hn
    cases h
    exact .inl ⟨rfl, rfl⟩
  obtain ⟨e, ⟨hmin, hhigh, hlow⟩, heq⟩ := ofRatio_eq neg hn hd
  rw [heq] at h
  split at h
  · next hexp =>
    cases h
    have hle : mantAt n d e ≤ 2 ^ 53 :=
      (mantAt_bounds (a := 0) hd (by simp; positivity) (by exact_mod_cast hhigh.le)).2
    have hge : e = -1074 ∨ 2 ^ 52 ≤ mantAt n d e := by
      refine hlow.imp id fun hlow => ?_
      exact (mantAt_bounds (b := 2 ^ 53) hd (by exact_mod_cast hlow) (by exact_mod_cast hhigh.le)).1
    unfold pack at hexp ⊢
    unfold Normal
    split_ifs at hexp ⊢ <;> dsimp only at hexp ⊢ <;> omega
  · simp at h

theorem ofRatio_exact (hx : x.Normal) (hd : d ≠ 0)
    (h : (n : ℚ) = x.mant * 2 ^ x.exp * d) : ofRatio x.neg n d = some x := by
  have hdq : (d : ℚ) ≠ 0 := by exact_mod_cast hd
  rcases hx with ⟨hmant, hexp⟩ | ⟨hmant, hhigh, hmin, hmax, hlow⟩
  · have hn : n = 0 := by
      rw [hmant] at h
      exact_mod_cast (by simpa using h : (n : ℚ) = 0)
    obtain ⟨neg, mant, exp⟩ := x
    simp only at hmant hexp
    simp [ofRatio, hn, hmant, hexp]
  have hratio : (n : ℚ) / d = x.mant * 2 ^ x.exp := by rw [h]; field_simp
  have hscaled : (n : ℚ) / d * 2 ^ (-x.exp) = x.mant := by
    rw [hratio, mul_assoc, ← zpow_add₀ two_ne_zero]
    simp
  have hpos : (0 : ℚ) < n / d := by
    rw [hratio]
    positivity
  have hn : n ≠ 0 := by
    rintro rfl
    simp at hpos
  have hfits : Fits (n / d) x.exp := by
    refine ⟨hmin, ?_, hlow.imp id ?_⟩
    · rw [hscaled]
      exact_mod_cast hhigh
    · rw [hscaled]
      exact fun h => by exact_mod_cast h
  obtain ⟨e, he, heq⟩ := ofRatio_eq x.neg hn hd
  obtain rfl := fits_unique hpos he hfits
  have hm : mantAt n d x.exp = x.mant := by
    obtain ⟨h1, h2⟩ := mantAt_bounds hd hscaled.ge hscaled.le
    omega
  have hpack : pack x.neg (mantAt n d x.exp) x.exp = x := by
    rw [hm, pack, if_neg (by omega), if_neg (by omega)]
  rw [heq, hpack, if_pos hmax]

theorem parse_normal {lit : Text} (h : parse lit = some x) : x.Normal :=
  ofRatio_normal (by positivity) h

theorem dropWhile_digitOrPoint (n : Nat) {rest : Text} (hrest : NotStarting (fun c => c.isDigit || c == '.') rest) :
    (Nat.toDigits 10 n ++ rest).dropWhile (fun c => c.isDigit || c == '.') = rest :=
  (hrest.dropWhile_append fun c hc => by simp [isDigit_toDigits n c hc]).2

def signText (neg : Bool) : Text := if neg then ['-'] else []

theorem scanMinus_signText (neg : Bool) (n : Nat) (rest : Text) :
    scanMinus (signText neg ++ (Nat.toDigits 10 n ++ rest)) = (signText neg, Nat.toDigits 10 n ++ rest) := by
  cases neg with
  | false => exact scanMinus_toDigits n rest
  | true => rfl

theorem signText_beq (neg : Bool) : (signText neg == ['-']) = neg := by cases neg <;> rfl

theorem parse_whole (neg : Bool) (n : Nat) : parse (signText neg ++ Nat.toDigits 10 n) = ofRatio neg n 1 := by
  have hscan := scanMinus_signText neg n []
  have hnil : ∀ p, NotStarting p [] := fun p c hc => by simp at hc
  obtain ⟨htake, hdrop⟩ := (hnil Char.isDigit).dropWhile_append (isDigit_toDigits n)
  have hrest := dropWhile_digitOrPoint n (hnil _)
  rw [List.append_nil] at hscan htake hdrop hrest
  unfold parse
  rw [hscan]
  simp only [signText_beq, htake, hdrop, hrest]
  simp [scanSign]

theorem parse_scaled (neg : Bool) (n k : Nat) :
    parse (signText neg ++ (Nat.toDigits 10 n ++ 'e' :: '-' :: Nat.toDigits 10 k)) = ofRatio neg n (10 ^ k) := by
  have hscan := scanMinus_signText neg n ('e' :: '-' :: Nat.toDigits 10 k)
  have hdigit : NotStarting Char.isDigit ('e' :: '-' :: Nat.toDigits 10 k) := by
    intro c hc
    cases hc
    decide
  have hpoint : NotStarting (fun c => c.isDigit || c == '.') ('e' :: '-' :: Nat.toDigits 10 k) := by
    intro c hc
    cases hc
    decide
  obtain ⟨htake, hdrop⟩ := hdigit.dropWhile_append (isDigit_toDigits n)
  have hrest := dropWhile_digitOrPoint n hpoint
  unfold parse
  rw [hscan]
  simp only [signText_beq, htake, hdrop, hrest]
  simp [scanSign]

theorem scanInt_toDigits_append (n : Nat) {rest : Text} (hrest : NotStarting Char.isDigit rest) :
    scanInt (Nat.toDigits 10 n ++ rest) = some (Nat.toDigits 10 n, rest) :=
  (scanInt_spec (scanInt_toDigits n)).2.2 rest hrest

theorem scanNumber_whole (neg : Bool) (n : Nat) :
    scanNumber (signText neg ++ Nat.toDigits 10 n) = some (signText neg ++ Nat.toDigits 10 n, []) := by
  have hscan := scanMinus_signText neg n []
  rw [List.append_nil] at hscan
  simp [scanNumber, hscan, scanInt_toDigits, scanFrac, scanExp]

theorem scanNumber_scaled (neg : Bool) (n k : Nat) :
    scanNumber (signText neg ++ (Nat.toDigits 10 n ++ 'e' :: '-' :: Nat.toDigits 10 k)) =
      some (signText neg ++ (Nat.toDigits 10 n ++ 'e' :: '-' :: Nat.toDigits 10 k), []) := by
  have hscan := scanMinus_signText neg n ('e' :: '-' :: Nat.toDigits 10 k)
  have hint : scanInt (Nat.toDigits 10 n ++ 'e' :: '-' :: Nat.toDigits 10 k) =
      some (Nat.toDigits 10 n, 'e' :: '-' :: Nat.toDigits 10 k) := by
    apply scanInt_toDigits_append
    intro c hc
    cases hc
    decide
  have htake := List.takeWhile_eq_self_iff.mpr (isDigit_toDigits k)
  have hdrop := List.dropWhile_eq_nil_iff.mpr (isDigit_toDigits k)
  simp [scanNumber, hscan, hint, scanFrac, scanExp, scanSign, htake, hdrop, Nat.toDigits_ne_nil]

theorem exactLiteral_spec (hx : x.Normal) :
    scanNumber x.exactLiteral = some (x.exactLiteral, []) ∧ parse x.exactLiteral = some x := by
  unfold exactLiteral
  dsimp only
  rw [← signText]
  split
  · next hexp =>
    refine ⟨scanNumber_whole _ _, ?_⟩
    rw [parse_whole]
    apply ofRatio_exact hx one_ne_zero
    obtain ⟨k, hk⟩ := Int.eq_ofNat_of_zero_le hexp
    rw [hk]
    simp
  next hexp =>
  rw [List.append_assoc]
  refine ⟨scanNumber_scaled _ _ _, ?_⟩
  rw [parse_scaled]
  apply ofRatio_exact hx (by positivity)
  obtain ⟨k, hk⟩ := Int.eq_ofNat_of_zero_le (by omega : 0 ≤ -x.exp)
  -- a tenth is a half of a fifth
  obtain hk' : x.exp = -(k : Int) := by omega
  rw [hk']
  push_cast
  simp only [neg_neg, Int.toNat_natCast, zpow_neg, zpow_natCast]
  rw [show (10 : ℚ) = 2 * 5 by norm_num, mul_pow]
  field_simp

theorem readBack_isSome (hx : x.Normal) (lits : List Text) : (x.readBack lits).isSome = true := by
  obtain ⟨hscan, hparse⟩ := exactLiteral_spec hx
  unfold readBack
  rw [List.find?_isSome]
  refine ⟨x.exactLiteral, by simp, ?_⟩
  simp [hscan, hparse]

theorem format_isSome (hx : x.Normal) : x.format.isSome = true := readBack_isSome hx _

theorem parse_toDigits_isSome (hn : n < 2 ^ 63) : (parse (Nat.toDigits 10 n)).isSome = true := by
  rw [show Nat.toDigits 10 n = signText false ++ Nat.toDigits 10 n from rfl, parse_whole]
  by_cases h0 : n = 0
  · simp [ofRatio, h0]
  obtain ⟨e, ⟨hmin, -, hlow⟩, heq⟩ := ofRatio_eq false h0 one_ne_zero
  have he : e < 971 := by
    rcases hlow with rfl | hlow
    · decide
    have hnq : (n : ℚ) < 2 ^ (63 : Int) := by exact_mod_cast hn
    have hlt : (2 : ℚ) ^ (52 : Int) < 2 ^ (63 - e) := by
      calc (2 : ℚ) ^ (52 : Int) ≤ n / (1 : Nat) * 2 ^ (-e) := by exact_mod_cast hlow
        _ = n * 2 ^ (-e) := by simp
        _ < 2 ^ (63 : Int) * 2 ^ (-e) := by gcongr
        _ = 2 ^ (63 - e) := by rw [← zpow_add₀ two_ne_zero]; rfl
    have := (zpow_lt_zpow_iff_right₀ (by norm_num)).mp hlt
    omega
  rw [heq, if_pos]
  · rfl
  unfold pack
  split_ifs <;> dsimp only <;> omega

end Float64

def Finite64 : Type := { x : Float64 // x.Normal }

namespace Finite64

def repr (x : Finite64) : Text := x.1.repr.get (Float64.readBack_isSome x.2 _)

theorem isNumber_repr (x : Finite64) : IsNumber x.repr :=
  (Float64.readBack_spec (Option.some_get (Float64.readBack_isSome x.2 _)).symm).1

end Finite64

end Json
