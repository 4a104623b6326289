import Overture.Lib.Text

/-!
# Times in RFC 3339

A time as the JSON codec of the package `time` reads and writes it. The fraction of a second
is kept as its digits, without trailing zeros.
-/

def daysIn (month year : Nat) : Nat :=
  if month = 2 then (if year % 4 = 0 ∧ (year % 100 ≠ 0 ∨ year % 400 = 0) then 29 else 28)
  else if month = 4 ∨ month = 6 ∨ month = 9 ∨ month = 11 then 30
  else 31

/-- A date of the calendar with a time of day and the offset of its zone in minutes. -/
structure Time where
  (year month day hour minute second : Nat)
  frac : Text
  offset : Int
  year_le : year ≤ 9999
  month_le : 1 ≤ month ∧ month ≤ 12
  day_le : 1 ≤ day ∧ day ≤ daysIn month year
  clock_le : hour ≤ 23 ∧ minute ≤ 59 ∧ second ≤ 59
  frac_digits : frac.length ≤ 9 ∧ frac.all Char.isDigit = true ∧ frac.getLast? ≠ some '0'
  offset_le : -1440 < offset ∧ offset < 1440

namespace Time

open List

def zero : Time :=
  ⟨1, 1, 1, 0, 0, 0, [], 0, by decide, by decide, by decide, by decide, by decide, by decide⟩

def pad : Nat → Nat → Text
  | 0, _ => []
  | k + 1, n => pad k (n / 10) ++ [(n % 10).digitChar]

def number (ds : Text) : Option Nat :=
  if ds.all Char.isDigit then some (Nat.ofDigitChars 10 ds 0) else none

def printZone (offset : Int) : Text :=
  if offset = 0 then ['Z']
  else
    (if offset < 0 then '-' else '+') ::
      (pad 2 (offset.natAbs / 60) ++ ':' :: pad 2 (offset.natAbs % 60))

def print (t : Time) : Text :=
  pad 4 t.year ++ '-' :: (pad 2 t.month ++ '-' :: (pad 2 t.day ++ 'T' :: (pad 2 t.hour ++
    ':' :: (pad 2 t.minute ++ ':' :: (pad 2 t.second ++
      ((if t.frac.isEmpty then [] else '.' :: t.frac) ++ printZone t.offset))))))

def parseZone (t : Text) : Option Int :=
  match t with
  | ['Z'] => some 0
  | [sign, a, b, ':', c, d] =>
    match number [a, b], number [c, d] with
    | some h, some m =>
      if h ≤ 23 ∧ m ≤ 59 ∧ (sign = '+' ∨ sign = '-') then
        some (if sign = '-' then -((60 * h + m : Nat) : Int) else ((60 * h + m : Nat) : Int))
      else none
    | _, _ => none
  | _ => none

def dropZeros (ds : Text) : Text := (ds.reverse.dropWhile (· == '0')).reverse

/-- The fraction of a second, of which nine digits count, and what follows it. -/
def parseFrac (t : Text) : Text × Text :=
  match t with
  | '.' :: rest =>
    if (rest.takeWhile Char.isDigit).isEmpty then ([], t)
    else (dropZeros ((rest.takeWhile Char.isDigit).take 9), rest.dropWhile Char.isDigit)
  | _ => ([], t)

theorem dropZeros_digits {ds : Text} (h : ds.all Char.isDigit = true) (hlen : ds.length ≤ 9) :
    (dropZeros ds).length ≤ 9 ∧ (dropZeros ds).all Char.isDigit = true ∧
      (dropZeros ds).getLast? ≠ some '0' := by
  refine ⟨?_, ?_, ?_⟩
  · have := (dropWhile_sublist (· == '0') (l := ds.reverse)).length_le
    simp only [dropZeros, length_reverse] at this ⊢
    omega
  · rw [all_eq_true] at h ⊢
    intro c hc
    refine h c (mem_reverse.mp ((dropWhile_sublist (· == '0')).subset ?_))
    exact mem_reverse.mp hc
  rw [dropZeros, getLast?_reverse]
  intro hzero
  have := head?_dropWhile_not (· == '0') ds.reverse
  simp [hzero] at this

theorem parseFrac_digits (t : Text) :
    (parseFrac t).1.length ≤ 9 ∧ (parseFrac t).1.all Char.isDigit = true ∧
      (parseFrac t).1.getLast? ≠ some '0' := by
  unfold parseFrac
  split
  · split
    · simp
    · next rest _ =>
      refine dropZeros_digits ?_ (by simp)
      rw [all_eq_true]
      intro c hc
      exact (all_eq_true.mp all_takeWhile) c (mem_of_mem_take hc)
  · simp

theorem parseZone_range {t : Text} {o : Int} (h : parseZone t = some o) : -1440 < o ∧ o < 1440 := by
  unfold parseZone at h
  split at h
  · cases h; decide
  · split at h
    · split at h
      · next hb =>
        simp only [Option.some.injEq] at h
        split at h <;> omega
      · simp at h
    · simp at h
  · simp at h

def parse (t : Text) : Option Time :=
  match t with
  | y₁ :: y₂ :: y₃ :: y₄ :: '-' :: m₁ :: m₂ :: '-' :: d₁ :: d₂ :: 'T' :: h₁ :: h₂ :: ':' :: n₁ :: n₂ :: ':' ::
      s₁ :: s₂ :: rest =>
    match number [y₁, y₂, y₃, y₄], number [m₁, m₂], number [d₁, d₂], number [h₁, h₂], number [n₁, n₂],
      number [s₁, s₂] with
    | some year, some month, some day, some hour, some minute, some second =>
      match hz : parseZone (parseFrac rest).2 with
      | some offset =>
        if h : year ≤ 9999 ∧ (1 ≤ month ∧ month ≤ 12) ∧ (1 ≤ day ∧ day ≤ daysIn month year) ∧
            hour ≤ 23 ∧ minute ≤ 59 ∧ second ≤ 59 then
          some ⟨year, month, day, hour, minute, second, (parseFrac rest).1, offset, h.1, h.2.1, h.2.2.1,
            h.2.2.2, parseFrac_digits rest, parseZone_range hz⟩
        else none
      | none => none
    | _, _, _, _, _, _ => none
  | _ => none

end Time
