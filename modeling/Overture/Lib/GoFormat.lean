import Overture.Lib.Json.Integer

/-!
# Numbers and values as Go formats them

`strconv.FormatFloat` without an exponent, the conversion of a float to an integer, and the
verb `%v` on values that were decoded from JSON.
-/

namespace Json

namespace Float64

def fixedLayout (neg : Bool) (digits : Text) (point : Int) : Text :=
  let sign := if neg then ['-'] else []
  if point ≤ 0 then sign ++ '0' :: '.' :: (List.replicate (-point).toNat '0' ++ digits)
  else if point ≥ digits.length then sign ++ digits ++ List.replicate (point - digits.length).toNat '0'
  else sign ++ digits.take point.toNat ++ '.' :: digits.drop point.toNat

/-- The layout of the format `g` when the shortest digits are asked for: powers of ten below the minus fourth
and from the sixth on are written with an exponent. -/
def generalLayout (neg : Bool) (digits : Text) (point : Int) : Text :=
  let e := point - 1
  if e < -4 || e ≥ 6 then
    let frac := if digits.length ≤ 1 then [] else '.' :: digits.drop 1
    let power := Nat.toDigits 10 e.natAbs
    let padded := if power.length < 2 then '0' :: power else power
    (if neg then ['-'] else []) ++ digits.take 1 ++ frac ++ 'e' :: (if e < 0 then '-' else '+') :: padded
  else fixedLayout neg digits point

def shortest (layout : Bool → Text → Int → Text) (x : Float64) : Text :=
  (x.readBack
    (if x.mant = 0 then [layout x.neg ['0'] 1]
    else (List.range 17).flatMap fun k => (x.decimals (k + 1)).map fun d => layout x.neg d.1 d.2)).getD []

def natural? (x : Float64) : Option Nat :=
  if 0 ≤ x.exp then some (x.mant * 2 ^ x.exp.toNat)
  else if x.mant % 2 ^ (-x.exp).toNat = 0 then some (x.mant / 2 ^ (-x.exp).toNat)
  else none

/-- `int64(v)` on an integer; what does not fit gives the least integer of the type. -/
def toInt64 (neg : Bool) (n : Nat) : Int :=
  let v : Int := if neg then -(n : Int) else n
  if -(2 ^ 63) ≤ v ∧ v < 2 ^ 63 then v else -(2 ^ 63)

end Float64

mutual

def Any.verbV : Any → Text
  | .null => "<nil>"
  | .bool true => "true"
  | .bool false => "false"
  | .num x => x.shortest Float64.generalLayout
  | .str s => s
  | .arr items => '[' :: (items.verbV ++ [']'])
  | .obj fields => "map[" ++ (fields.verbV ++ [']'])

def Anys.verbV : Anys → Text
  | .nil => []
  | .cons v .nil => v.verbV
  | .cons v rest => v.verbV ++ ' ' :: rest.verbV

def AnyMap.verbV : AnyMap → Text
  | .nil => []
  | .cons key v .nil => key ++ ':' :: v.verbV
  | .cons key v rest => key ++ ':' :: (v.verbV ++ ' ' :: rest.verbV)

end

end Json
