import Overture.Lib.Encoding

/-!
# JSON documents with their spelling

A document is kept as it is written: the spelling of every number and string and
all white space stay in the tree, so that printing a tree gives back the very text
it was read from. A raw message is then the print of a subtree.
-/

namespace Json

/-- The length of what stands in a tree is not bounded; its nesting is, by the scanner of `encoding/json`. -/
def maxNestingDepth : Nat := 10000

mutual

inductive Value where
  | null
  | bool (b : Bool)
  | num (lit : Text)
  | str (raw : Text)
  | emptyArr (gap : Text)
  | arr (items : Items)
  | emptyObj (gap : Text)
  | obj (members : Members)

inductive Items where
  | last (pre : Text) (v : Value) (post : Text)
  | more (pre : Text) (v : Value) (post : Text) (rest : Items)

/-- The members of a non-empty object: white space, the raw key, the white space on both sides of the
colon, the value and the white space after it. -/
inductive Members where
  | last (pre key mid gap : Text) (v : Value) (post : Text)
  | more (pre key mid gap : Text) (v : Value) (post : Text) (rest : Members)

end

def isGap (c : Char) : Bool := c == ' ' || c == '\t' || c == '\n' || c == '\r'

def quoted (raw : Text) : Text := '\x22' :: (raw ++ ['\x22'])

mutual

def Value.print : Value → Text
  | .null => "null"
  | .bool true => "true"
  | .bool false => "false"
  | .num lit => lit
  | .str raw => quoted raw
  | .emptyArr gap => '[' :: (gap ++ [']'])
  | .arr items => '[' :: items.print
  | .emptyObj gap => '\x7b' :: (gap ++ ['\x7d'])
  | .obj members => '\x7b' :: members.print

def Items.print : Items → Text
  | .last pre v post => pre ++ (v.print ++ (post ++ [']']))
  | .more pre v post rest => pre ++ (v.print ++ (post ++ ',' :: rest.print))

def Members.print : Members → Text
  | .last pre key mid gap v post =>
    pre ++ (quoted key ++ (mid ++ ':' :: (gap ++ (v.print ++ (post ++ ['\x7d'])))))
  | .more pre key mid gap v post rest =>
    pre ++ (quoted key ++ (mid ++ ':' :: (gap ++ (v.print ++ (post ++ ',' :: rest.print)))))

end

mutual

def Value.depth : Value → Nat
  | .arr items => items.depth + 1
  | .obj members => members.depth + 1
  | .emptyArr _ => 1
  | .emptyObj _ => 1
  | _ => 0

def Items.depth : Items → Nat
  | .last _ v _ => v.depth
  | .more _ v _ rest => max v.depth rest.depth

def Members.depth : Members → Nat
  | .last _ _ _ _ v _ => v.depth
  | .more _ _ _ _ v _ rest => max v.depth rest.depth

end

def Items.toList : Items → List Value
  | .last _ v _ => [v]
  | .more _ v _ rest => v :: rest.toList

def Members.toList : Members → List (Text × Value)
  | .last _ key _ _ v _ => [(key, v)]
  | .more _ key _ _ v _ rest => (key, v) :: rest.toList

def hexDigits (ds : List Char) : Option Nat :=
  ds.foldl (fun acc d => acc.bind fun n => (Hex.digit d).map (16 * n + ·)) (some 0)

def escapeCode (c : Char) : Option Nat :=
  if c == '\x22' || c == '\x5c' || c == '/' then some c.toNat
  else if c == 'b' then some 8
  else if c == 'f' then some 12
  else if c == 'n' then some 10
  else if c == 'r' then some 13
  else if c == 't' then some 9
  else none

/-- The codes a raw string stands for. A surrogate can only come from an escape, since a rune never is one. -/
def unescape : Text → List Nat
  | [] => []
  | c :: rest =>
    if c != '\x5c' then c.toNat :: unescape rest
    else
      match rest with
      | [] => []
      | 'u' :: a :: b :: c :: d :: rest => (hexDigits [a, b, c, d]).getD 0 :: unescape rest
      | e :: rest => (escapeCode e).getD 0 :: unescape rest

def isHighSurrogate (n : Nat) : Bool := 0xD800 <= n && n < 0xDC00

def isLowSurrogate (n : Nat) : Bool := 0xDC00 <= n && n < 0xE000

def joinSurrogates : List Nat → Text
  | [] => []
  | [n] => [if isHighSurrogate n || isLowSurrogate n then '\ufffd' else Char.ofNat n]
  | n :: m :: rest =>
    if isHighSurrogate n && isLowSurrogate m then
      Char.ofNat (0x10000 + (n - 0xD800) * 1024 + (m - 0xDC00)) :: joinSurrogates rest
    else
      (if isHighSurrogate n || isLowSurrogate n then '\ufffd' else Char.ofNat n) :: joinSurrogates (m :: rest)

def unquote (raw : Text) : Text := joinSurrogates (unescape raw)

def unicodeEscape (n : Nat) : Text :=
  ['\x5c', 'u', Hex.char (n / 4096 % 16), Hex.char (n / 256 % 16), Hex.char (n / 16 % 16), Hex.char (n % 16)]

/-- How `json.Marshal` writes one rune of a string; the three HTML characters and the two line separators
are escaped too. -/
def escapeRune (c : Char) : Text :=
  if c == '\x22' || c == '\x5c' then ['\x5c', c]
  else if c == '\x08' then ['\x5c', 'b']
  else if c == '\x0c' then ['\x5c', 'f']
  else if c == '\n' then ['\x5c', 'n']
  else if c == '\r' then ['\x5c', 'r']
  else if c == '\t' then ['\x5c', 't']
  else if c.toNat < 32 || c == '<' || c == '>' || c == '&' || c == '\u2028' || c == '\u2029' then
    unicodeEscape c.toNat
  else [c]

def quote (t : Text) : Text := t.flatMap escapeRune

end Json
