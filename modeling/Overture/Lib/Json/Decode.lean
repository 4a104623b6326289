import Overture.Lib.Json.Any

/-!
# Decoding documents into Go values

`json.Unmarshal` decodes into a value that is already there: a null member leaves it alone, a second member of one name
decodes over the first, and a member of the wrong type is reported at the end while everything else is decoded. A
decoder therefore takes the old value and returns the new one, with a flag that is false when an error is reported.
-/

namespace Json

abbrev Decoder (σ : Type) := Value → σ → σ × Bool

namespace Decoder

def text : Decoder Text
  | .str raw, _ => (unquote raw, true)
  | .null, old => (old, true)
  | _, old => (old, false)

def bool : Decoder Bool
  | .bool b, _ => (b, true)
  | .null, old => (old, true)
  | _, old => (old, false)

def uint (bits : Nat) : Decoder Nat
  | .num lit, old =>
    match parseUint bits lit with
    | some n => (n, true)
    | none => (old, false)
  | .null, old => (old, true)
  | _, old => (old, false)

def raw : Decoder (Option Value) := fun v _ => (some v, true)

def any : Decoder Any := fun v old =>
  match v.toAny with
  | some a => (a, true)
  | none => (old, false)

end Decoder

structure StructField (σ : Type) where
  name : Text
  decode : Decoder σ

def StructField.of {σ τ : Type} (name : String) (get : σ → τ) (set : σ → τ → σ) (d : Decoder τ) : StructField σ where
  name := name.toList
  decode := fun v s => (set s (d v (get s)).1, (d v (get s)).2)

/-- The rune that stands for its class when two names are compared without regard to case. Of the runes
outside ASCII only the long s and the Kelvin sign fold into it. -/
def foldRune (c : Char) : Char :=
  if c == '\u017f' then 'S' else if c == '\u212a' then 'K' else c.toUpper

def foldName (t : Text) : Text := t.map foldRune

def findField {σ : Type} (fields : List (StructField σ)) (key : Text) : Option (StructField σ) :=
  match fields.find? fun f => f.name == key with
  | some f => some f
  | none => fields.find? fun f => foldName f.name == foldName key

def decodeMember {σ : Type} (fields : List (StructField σ)) (acc : σ × Bool) (m : Text × Value) : σ × Bool :=
  match findField fields (unquote m.1) with
  | some f => ((f.decode m.2 acc.1).1, acc.2 && (f.decode m.2 acc.1).2)
  | none => acc

namespace Decoder

def struct {σ : Type} (fields : List (StructField σ)) : Decoder σ
  | .obj members, old => members.toList.foldl (decodeMember fields) (old, true)
  | .emptyObj _, old => (old, true)
  | .null, old => (old, true)
  | _, old => (old, false)

end Decoder

/-- A slice: the elements of its backing array that were ever set, of which the first `len` are in view. -/
structure Slice (σ : Type) where
  cells : List σ
  len : Nat

namespace Slice

def empty {σ : Type} : Slice σ := ⟨[], 0⟩

def toList {σ : Type} (s : Slice σ) : List σ := s.cells.take s.len

end Slice

def decodeItems {σ : Type} (zero : σ) (d : Decoder σ) : List Value → List σ → List σ × Bool
  | [], cells => (cells, true)
  | v :: rest, cells =>
    let head := d v (cells.head?.getD zero)
    let tail := decodeItems zero d rest cells.tail
    (head.1 :: tail.1, head.2 && tail.2)

namespace Decoder

def slice {σ : Type} (zero : σ) (d : Decoder σ) : Decoder (Slice σ)
  | .arr items, old =>
    let out := decodeItems zero d items.toList old.cells
    (⟨out.1, items.toList.length⟩, out.2)
  | .emptyArr _, _ => (Slice.empty, true)
  | .null, _ => (Slice.empty, true)
  | _, old => (old, false)

def map {σ : Type} (zero : σ) (d : Decoder σ) : Decoder (Option (List (Text × σ)))
  | .obj members, old =>
    let assign (acc : List (Text × σ) × Bool) (m : Text × Value) :=
      (acc.1 ++ [(unquote m.1, (d m.2 zero).1)], acc.2 && (d m.2 zero).2)
    let out := members.toList.foldl assign (old.getD [], true)
    (some out.1, out.2)
  | .emptyObj _, old => (some (old.getD []), true)
  | .null, _ => (none, true)
  | _, old => (old, false)

end Decoder

def lookup {σ : Type} (m : Option (List (Text × σ))) (key : Text) : Option σ :=
  ((m.getD []).reverse.find? fun e => e.1 == key).map Prod.snd

def unmarshal {σ : Type} (d : Decoder σ) (t : Text) (old : σ) : σ × Bool :=
  match parse t with
  | some v => d v old
  | none => (old, false)

end Json
