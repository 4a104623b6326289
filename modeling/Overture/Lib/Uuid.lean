import Overture.Lib.Encoding

/-!
# UUIDs

A UUID is a number of 128 bits. Its text is the hexadecimal one in five groups; the reader
takes the other spellings of `google/uuid` too.
-/

abbrev Uuid := Fin (2 ^ 128)

namespace Uuid

open List

instance neZero : NeZero (2 ^ 128) := inferInstance

instance lawfulBEq : LawfulBEq Uuid := inferInstance

def nil : Uuid := 0

def lastDigits : Nat → Nat → Text
  | 0, _ => []
  | k + 1, n => lastDigits k (n / 16) ++ [Hex.char (n % 16)]

def toText (u : Uuid) : Text :=
  lastDigits 8 (u.val / 16 ^ 24) ++ '-' :: (lastDigits 4 (u.val / 16 ^ 20) ++
    '-' :: (lastDigits 4 (u.val / 16 ^ 16) ++ '-' :: (lastDigits 4 (u.val / 16 ^ 12) ++
      '-' :: lastDigits 12 u.val)))

def readDigits (acc : Nat) : Text → Option Nat
  | [] => some acc
  | c :: rest =>
    match Hex.digit c with
    | some d => readDigits (16 * acc + d) rest
    | none => none

def ofDigits (ds : Text) : Option Uuid := (readDigits 0 ds).map (Fin.ofNat (2 ^ 128))

def parseDashed (t : Text) : Option Uuid :=
  if t.length < 36 || t.getD 8 ' ' != '-' || t.getD 13 ' ' != '-' || t.getD 18 ' ' != '-' ||
    t.getD 23 ' ' != '-' then none
  else
    ofDigits (t.take 8 ++ (t.drop 9).take 4 ++ (t.drop 14).take 4 ++ (t.drop 19).take 4 ++
      (t.drop 24).take 12)

/-- `uuid.ParseBytes`. In the form with braces neither brace is looked at. -/
def parse (t : Text) : Option Uuid :=
  if t.any fun c => c.toNat >= 128 then none
  else if t.length = 36 then parseDashed t
  else if t.length = 45 then
    if Text.toLower (t.take 9) = "urn:uuid:" then parseDashed (t.drop 9) else none
  else if t.length = 38 then parseDashed (t.drop 1)
  else if t.length = 32 then ofDigits t
  else none

theorem length_lastDigits (k n : Nat) : (lastDigits k n).length = k := by
  induction k generalizing n with
  | zero => rfl
  | succ k ih => simp [lastDigits, ih]

theorem readDigits_append (acc : Nat) (a b : Text) :
    readDigits acc (a ++ b) = (readDigits acc a).bind fun n => readDigits n b := by
  induction a generalizing acc with
  | nil => rfl
  | cons c rest ih =>
    rw [cons_append, readDigits, readDigits]
    cases Hex.digit c with
    | none => rfl
    | some d => exact ih _

theorem readDigits_lastDigits (k n acc : Nat) :
    readDigits acc (lastDigits k n) = some (acc * 16 ^ k + n % 16 ^ k) := by
  induction k generalizing n acc with
  | zero => simp [lastDigits, readDigits, Nat.mod_one]
  | succ k ih =>
    have hmod : n % 16 ^ (k + 1) = 16 * (n / 16 % 16 ^ k) + n % 16 := by
      rw [Nat.pow_succ', Nat.mod_mul]
      omega
    have hmul : acc * 16 ^ (k + 1) = 16 * (acc * 16 ^ k) := by rw [Nat.pow_succ', Nat.mul_left_comm]
    rw [lastDigits, readDigits_append, ih]
    simp only [Option.bind_some, readDigits, Hex.digit_char (Nat.mod_lt n (by decide : 16 > 0)), hmod, hmul]
    congr 1
    omega

theorem lastDigits_ascii (k n : Nat) : ∀ c ∈ lastDigits k n, c.toNat < 128 := by
  induction k generalizing n with
  | zero => simp [lastDigits]
  | succ k ih =>
    intro c hc
    rcases mem_append.mp hc with hc | hc
    · exact ih _ c hc
    obtain rfl := mem_singleton.mp hc
    have hlt : n % 16 < 16 := Nat.mod_lt n (by decide)
    generalize n % 16 = d at hlt
    revert d
    decide

theorem lastDigits_add (j k n : Nat) : lastDigits (j + k) n = lastDigits j (n / 16 ^ k) ++ lastDigits k n := by
  induction k generalizing n with
  | zero => simp [lastDigits]
  | succ k ih =>
    rw [← Nat.add_assoc, lastDigits, ih, lastDigits, Nat.div_div_eq_div_mul, Nat.pow_succ', append_assoc]

theorem parseDashed_groups {a b c d e : Text} (ha : a.length = 8) (hb : b.length = 4) (hc : c.length = 4)
    (hd : d.length = 4) (he : e.length = 12) :
    parseDashed (a ++ '-' :: (b ++ '-' :: (c ++ '-' :: (d ++ '-' :: e)))) =
      ofDigits (a ++ b ++ c ++ d ++ e) := by
  have hdrop {l : Text} {k n : Nat} (hl : l.length = k) (hk : k ≤ n) : l.drop n = [] :=
    drop_eq_nil_of_le (hl ▸ hk)
  simp [parseDashed, drop_append, ha, hb, hc, hd, he, hdrop ha, hdrop hb, hdrop hc,
    hdrop hd, take_of_length_le]

theorem parse_toText (u : Uuid) : parse u.toText = some u := by
  have hlen : u.toText.length = 36 := by simp [toText, length_lastDigits]
  have hascii : (u.toText.any fun c => c.toNat >= 128) = false := by
    rw [any_eq_false]
    intro c hc
    have hdash : ('-' : Char).toNat < 128 := by decide
    have hlt : c.toNat < 128 := by
      simp only [toText, mem_append, mem_cons] at hc
      rcases hc with hc | rfl | hc | rfl | hc | rfl | hc | rfl | hc
      all_goals first | exact hdash | exact lastDigits_ascii _ _ c hc
    simpa using hlt
  have hdigits : lastDigits 32 u.val = lastDigits 8 (u.val / 16 ^ 24) ++ lastDigits 4 (u.val / 16 ^ 20) ++
      lastDigits 4 (u.val / 16 ^ 16) ++ lastDigits 4 (u.val / 16 ^ 12) ++ lastDigits 12 u.val := by
    rw [lastDigits_add 20 12, lastDigits_add 16 4, lastDigits_add 12 4, lastDigits_add 8 4]
    simp only [Nat.div_div_eq_div_mul, ← Nat.pow_add]
  rw [parse, hascii, hlen]
  simp only [toText, Bool.false_eq_true, if_false, if_true]
  rw [parseDashed_groups (length_lastDigits _ _) (length_lastDigits _ _) (length_lastDigits _ _)
    (length_lastDigits _ _) (length_lastDigits _ _), ← hdigits, ofDigits, readDigits_lastDigits]
  have hlt : u.val < 16 ^ 32 := u.isLt
  rw [Nat.mod_eq_of_lt hlt]
  simp

end Uuid
