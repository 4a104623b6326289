import Overture.Lib.Json.Doc
import Overture.Lib.Json.Float
import Overture.Lib.Json.Integer
import Overture.Lib.Utf8
import Overture.Lib.Except

/-!
# Canonical serialization of evidence

The value policy and the canonical bytes of `canonical.py`. A Python string is a text here: one
that holds a lone surrogate has no UTF-8 bytes, so that nothing is ever serialized from it.
Values are trees; a cyclic container is refused by the source.
-/

namespace Overture

open Json

inductive PyFloat where
  | finite (x : Finite64)
  | notFinite

mutual

/-- What may stand in the arguments and results of a guarded function. -/
inductive PyValue where
  | none
  | bool (b : Bool)
  | int (n : Int)
  | float (x : PyFloat)
  | str (s : Text)
  | list (items : PyValues)
  | tuple (items : PyValues)
  | dict (fields : PyFields)
  /-- A dictionary with a key that is not a string. -/
  | mixedDict
  /-- An instance of a dataclass, field by field. -/
  | dataclass (fields : PyFields)
  /-- Any other object, with the dotted name of its type. -/
  | other (typeName : Text)

inductive PyValues where
  | nil
  | cons (v : PyValue) (rest : PyValues)

inductive PyFields where
  | nil
  | cons (key : Text) (v : PyValue) (rest : PyFields)

end

inductive PyNumber where
  | int (n : Int)
  | float (x : Finite64)

/-- A canonical structure: `None`, `bool`, numbers, `str`, `list`, and `dict` with string keys. -/
abbrev Canonical := Doc PyNumber

inductive CanonicalizationError where
  | nesting
  | notFinite
deriving DecidableEq

def CanonicalizationError.message : CanonicalizationError → String
  | .nesting => "nesting exceeds maximum depth of 64"
  | .notFinite => "NaN and infinite floats are not permitted in canonical evidence"

def maxDepth : Nat := 64

def unsupportedMarker (typeName : Text) : Text := "<igris:unsupported:" ++ typeName ++ ">"

def nonStringKeyMarker : Text := "<igris:unsupported:mapping-with-non-string-keys>"

mutual

def toCanonical (depth : Nat) (v : PyValue) : Except CanonicalizationError Canonical :=
  if depth > maxDepth then .error .nesting
  else
    match v with
    | .none => .ok .null
    | .bool b => .ok (.bool b)
    | .int n => .ok (.num (.int n))
    | .str s => .ok (.str s)
    | .float (.finite x) => .ok (.num (.float x))
    | .float .notFinite => .error .notFinite
    | .list items => (toCanonicalItems (depth + 1) items).map .arr
    | .tuple items => (toCanonicalItems (depth + 1) items).map .arr
    | .dict fields => (toCanonicalFields (depth + 1) fields).map .obj
    | .mixedDict => .ok (.str nonStringKeyMarker)
    | .dataclass fields => (toCanonicalFields (depth + 1) fields).map .obj
    | .other typeName => .ok (.str (unsupportedMarker typeName))

def toCanonicalItems (depth : Nat) : PyValues → Except CanonicalizationError (Docs PyNumber)
  | .nil => .ok .nil
  | .cons v rest =>
    match toCanonical depth v with
    | .error e => .error e
    | .ok d => (toCanonicalItems depth rest).map (.cons d)

def toCanonicalFields (depth : Nat) : PyFields → Except CanonicalizationError (DocMap PyNumber)
  | .nil => .ok .nil
  | .cons key v rest =>
    match toCanonical depth v with
    | .error e => .error e
    | .ok d => (toCanonicalFields depth rest).map (.cons key d)

end

def PyNumber.text : PyNumber → Text
  | .int n => intLiteral n
  | .float x => x.repr

theorem PyNumber.isNumber_text (n : PyNumber) : IsNumber n.text := by
  cases n with
  | int n => exact isNumber_intLiteral n
  | float x => exact x.isNumber_repr

/-- `json.dumps` with sorted keys, compact separators and `ensure_ascii=False`. -/
def Canonical.dumps (d : Canonical) : Value := d.write PyNumber.text escapeControl

theorem Canonical.dumps_wf (d : Canonical) : d.dumps.WF := d.write_wf PyNumber.isNumber_text spells_escapeControl

def canonicalJsonBytes (d : Canonical) : List UInt8 := Utf8.encode d.dumps.print

end Overture
