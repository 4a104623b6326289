import Overture.Lib.Time

/-!
# Instants

An instant is counted in nanoseconds from the first of January of the year one, the zero value
of the Go type. It is read from a text by `time.Parse` with the layout of RFC 3339 and written in
UTC with the layout `RFC3339Nano`.
-/

namespace Instant

def second : Int := 10 ^ 9

def daysBeforeYear (year : Int) : Int :=
  365 * (year - 1) + (year - 1) / 4 - (year - 1) / 100 + (year - 1) / 400

def daysBeforeMonth (month year : Nat) : Nat := ((List.range (month - 1)).map fun i => daysIn (i + 1) year).sum

def ofCivil (year month day hour minute sec nanos : Nat) (offset : Int) : Int :=
  let days := daysBeforeYear year + daysBeforeMonth month year + day - 1
  (86400 * days + 3600 * hour + 60 * minute + sec - offset) * second + nanos

def twoDigits : Text → Option (Nat × Text)
  | a :: b :: rest => (Time.number [a, b]).map fun n => (n, rest)
  | _ => none

def hourDigits : Text → Option (Nat × Text)
  | a :: b :: rest =>
    match Time.number [a, b] with
    | some n => some (n, rest)
    | none => (Time.number [a]).map fun n => (n, b :: rest)
  | _ => none

def skip (c : Char) : Text → Option Text
  | d :: rest => if d = c then some rest else none
  | [] => none

def fraction (t : Text) : Nat × Text :=
  match t with
  | c :: rest =>
    let digits := rest.takeWhile Char.isDigit
    if (c = '.' ∨ c = ',') ∧ digits ≠ [] then
      (Nat.ofDigitChars 10 ((digits ++ List.replicate 9 '0').take 9) 0, rest.dropWhile Char.isDigit)
    else (0, t)
  | [] => (0, t)

/-- The offset of the zone in seconds; twenty-four hours and sixty minutes are let through. -/
def zone : Text → Option Int
  | ['Z'] => some 0
  | [sign, a, b, ':', c, d] =>
    match Time.number [a, b], Time.number [c, d] with
    | some h, some m =>
      if h ≤ 24 ∧ m ≤ 60 ∧ (sign = '+' ∨ sign = '-') then
        some (if sign = '-' then -((3600 * h + 60 * m : Nat) : Int) else ((3600 * h + 60 * m : Nat) : Int))
      else none
    | _, _ => none
  | _ => none

def parseClock (t : Text) : Option (Nat × Nat × Nat × Nat × Int) := do
  let (hour, t) ← hourDigits t
  let (minute, t) ← (skip ':' t).bind twoDigits
  let (sec, t) ← (skip ':' t).bind twoDigits
  let (nanos, t) := fraction t
  let offset ← zone t
  if hour ≤ 23 ∧ minute ≤ 59 ∧ sec ≤ 59 then some (hour, minute, sec, nanos, offset) else none

def parse (t : Text) : Option Int := do
  let year ← if (t.take 4).length = 4 then Time.number (t.take 4) else none
  let (month, t) ← (skip '-' (t.drop 4)).bind twoDigits
  let (day, t) ← (skip '-' t).bind twoDigits
  let (hour, minute, sec, nanos, offset) ← (skip 'T' t).bind parseClock
  if 1 ≤ month ∧ month ≤ 12 ∧ 1 ≤ day ∧ day ≤ daysIn month year then
    some (ofCivil year month day hour minute sec nanos offset)
  else none

/-- The year of a day and the day's place in it, both counted from the first of January of the year one. -/
def yearOf (days : Int) : Int × Nat :=
  let d400 := days % 146097
  let n100 := min 3 (d400 / 36524)
  let d100 := d400 - 36524 * n100
  let d4 := d100 % 1461
  let n1 := min 3 (d4 / 365)
  (400 * (days / 146097) + 100 * n100 + 4 * (d100 / 1461) + n1 + 1, (d4 - 365 * n1).toNat)

def monthOf (year : Nat) : Nat → Nat → Nat → Nat × Nat
  | 0, month, day => (month, day + 1)
  | fuel + 1, month, day =>
    if day < daysIn month year then (month, day + 1) else monthOf year fuel (month + 1) (day - daysIn month year)

def printYear (year : Int) : Text :=
  let digits := Nat.toDigits 10 year.natAbs
  (if year < 0 then ['-'] else []) ++ List.replicate (4 - digits.length) '0' ++ digits

def format (t : Int) : Text :=
  let seconds := t / second
  let (year, place) := yearOf (seconds / 86400)
  let (month, day) := monthOf (year % 400).toNat 11 1 place
  let clock := (seconds % 86400).toNat
  let frac := Time.dropZeros (Time.pad 9 (t % second).toNat)
  printYear year ++ '-' :: (Time.pad 2 month ++ '-' :: (Time.pad 2 day ++ 'T' :: (Time.pad 2 (clock / 3600) ++
    ':' :: (Time.pad 2 (clock / 60 % 60) ++ ':' :: (Time.pad 2 (clock % 60) ++
      ((if frac.isEmpty then [] else '.' :: frac) ++ ['Z']))))))

def toMicros (t : Int) : Int := 1000 * ((t + 500) / 1000)

example : (parse "2024-02-29T23:59:59.25+01:30").map format = some "2024-02-29T22:29:59.25Z" := by
  decide +kernel

example : (parse "2023-02-29T00:00:00Z") = none := by decide +kernel

example : (parse "0001-01-01T00:00:00Z") = some 0 := by decide +kernel

end Instant
