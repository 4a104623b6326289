import Overture.Lib.Json.Value

/-!
# Reading JSON documents

The reader accepts what the scanner of `encoding/json` accepts and keeps the spelling.
-/

namespace Json

def scanString : Text → Option (Text × Text)
  | [] => none
  | c :: rest =>
    if c == '\x22' then some ([], rest)
    else if c.toNat < 32 then none
    else if c != '\x5c' then (scanString rest).map fun r => (c :: r.1, r.2)
    else
      match rest with
      | [] => none
      | 'u' :: a :: b :: c :: d :: rest =>
        if (hexDigits [a, b, c, d]).isSome then
          (scanString rest).map fun r => ('\x5c' :: 'u' :: a :: b :: c :: d :: r.1, r.2)
        else none
      | e :: rest =>
        if (escapeCode e).isSome then (scanString rest).map fun r => ('\x5c' :: e :: r.1, r.2)
        else none

def scanInt (t : Text) : Option (Text × Text) :=
  match t with
  | '0' :: rest => some (['0'], rest)
  | c :: _ => if c.isDigit then some (t.takeWhile Char.isDigit, t.dropWhile Char.isDigit) else none
  | [] => none

def scanFrac (t : Text) : Option (Text × Text) :=
  match t with
  | '.' :: rest =>
    if (rest.takeWhile Char.isDigit).isEmpty then none
    else some ('.' :: rest.takeWhile Char.isDigit, rest.dropWhile Char.isDigit)
  | _ => some ([], t)

def scanSign (t : Text) : Text × Text :=
  match t with
  | '+' :: rest => (['+'], rest)
  | '-' :: rest => (['-'], rest)
  | _ => ([], t)

def scanExp (t : Text) : Option (Text × Text) :=
  match t with
  | c :: rest =>
    if c == 'e' || c == 'E' then
      let digits := (scanSign rest).2.takeWhile Char.isDigit
      if digits.isEmpty then none
      else some (c :: ((scanSign rest).1 ++ digits), (scanSign rest).2.dropWhile Char.isDigit)
    else some ([], t)
  | [] => some ([], t)

def scanMinus (t : Text) : Text × Text :=
  match t with
  | '-' :: rest => (['-'], rest)
  | _ => ([], t)

def scanNumber (t : Text) : Option (Text × Text) :=
  match scanInt (scanMinus t).2 with
  | none => none
  | some (int, t₁) =>
    match scanFrac t₁ with
    | none => none
    | some (frac, t₂) =>
      match scanExp t₂ with
      | none => none
      | some (exp, t₃) => some ((scanMinus t).1 ++ int ++ frac ++ exp, t₃)

mutual

def parseValue : Nat → Text → Option (Value × Text)
  | 0, _ => none
  | _, [] => none
  | fuel + 1, c :: rest =>
    if c == '\x22' then (scanString rest).map fun r => (.str r.1, r.2)
    else if c == '[' then
      match rest.dropWhile isGap with
      | ']' :: after => some (.emptyArr (rest.takeWhile isGap), after)
      | _ => (parseItems fuel rest).map fun r => (.arr r.1, r.2)
    else if c == '\x7b' then
      match rest.dropWhile isGap with
      | '\x7d' :: after => some (.emptyObj (rest.takeWhile isGap), after)
      | _ => (parseMembers fuel rest).map fun r => (.obj r.1, r.2)
    else
      match c :: rest with
      | 'n' :: 'u' :: 'l' :: 'l' :: after => some (.null, after)
      | 't' :: 'r' :: 'u' :: 'e' :: after => some (.bool true, after)
      | 'f' :: 'a' :: 'l' :: 's' :: 'e' :: after => some (.bool false, after)
      | t => (scanNumber t).map fun r => (.num r.1, r.2)

def parseItems : Nat → Text → Option (Items × Text)
  | 0, _ => none
  | fuel + 1, t =>
    match parseValue fuel (t.dropWhile isGap) with
    | none => none
    | some (v, rest) =>
      match rest.dropWhile isGap with
      | ']' :: after => some (.last (t.takeWhile isGap) v (rest.takeWhile isGap), after)
      | ',' :: after =>
        (parseItems fuel after).map fun r =>
          (.more (t.takeWhile isGap) v (rest.takeWhile isGap) r.1, r.2)
      | _ => none

def parseMembers : Nat → Text → Option (Members × Text)
  | 0, _ => none
  | fuel + 1, t =>
    match t.dropWhile isGap with
    | '\x22' :: start =>
      match scanString start with
      | none => none
      | some (key, afterKey) =>
        match afterKey.dropWhile isGap with
        | ':' :: colon =>
          match parseValue fuel (colon.dropWhile isGap) with
          | none => none
          | some (v, rest) =>
            match rest.dropWhile isGap with
            | '\x7d' :: after =>
              some (.last (t.takeWhile isGap) key (afterKey.takeWhile isGap) (colon.takeWhile isGap) v
                (rest.takeWhile isGap), after)
            | ',' :: after =>
              (parseMembers fuel after).map fun r =>
                (.more (t.takeWhile isGap) key (afterKey.takeWhile isGap) (colon.takeWhile isGap) v
                  (rest.takeWhile isGap) r.1, r.2)
            | _ => none
        | _ => none
    | _ => none

end

/-- A whole document: one value with white space around it, nested no deeper than the scanner allows. -/
def parse (t : Text) : Option Value :=
  match parseValue (t.length + 1) (t.dropWhile isGap) with
  | some (v, rest) =>
    if rest.all isGap && v.depth <= maxNestingDepth then some v else none
  | none => none

end Json
