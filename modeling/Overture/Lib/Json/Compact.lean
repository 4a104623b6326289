import Overture.Lib.Json.Decode
import Overture.Lib.Json.Sound

/-!
# Compact documents

How `json.Marshal` writes a raw message and a map of raw messages: white space is dropped,
the three HTML characters and the two line separators are escaped, and the keys of the map
come in ascending order.
-/

namespace Json

def escapeHTML (raw : Text) : Text := raw.flatMap fun c => if isHTML c then unicodeEscape c.toNat else [c]

mutual

def Value.compact : Value → Value
  | .null => .null
  | .bool b => .bool b
  | .num lit => .num lit
  | .str raw => .str (escapeHTML raw)
  | .emptyArr _ => .emptyArr []
  | .arr items => .arr items.compact
  | .emptyObj _ => .emptyObj []
  | .obj members => .obj members.compact

def Items.compact : Items → Items
  | .last _ v _ => .last [] v.compact []
  | .more _ v _ rest => .more [] v.compact [] rest.compact

def Members.compact : Members → Members
  | .last _ key _ _ v _ => .last [] (escapeHTML key) [] [] v.compact []
  | .more _ key _ _ v _ rest => .more [] (escapeHTML key) [] [] v.compact [] rest.compact

end

def insertEntry {σ : Type} (key : Text) (x : σ) : List (Text × σ) → List (Text × σ)
  | [] => [(key, x)]
  | e :: rest =>
    if key < e.1 then (key, x) :: e :: rest
    else if key = e.1 then e :: rest
    else e :: insertEntry key x rest

def mapEntries {σ : Type} (assignments : List (Text × σ)) : List (Text × σ) :=
  assignments.foldr (fun e entries => insertEntry e.1 e.2 entries) []

def marshalRawMap (assignments : List (Text × Value)) : Value :=
  Value.object ((mapEntries assignments).map fun e => (e.1, e.2.compact))

end Json
