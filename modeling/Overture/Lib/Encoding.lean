import Overture.Lib.Text

/-!
# Hexadecimal and base64

The encodings of `encoding/hex` and `encoding/base64`. Decoding base64 skips line breaks and
does not look at the bits past the last byte. Encoding and decoding give the bytes back.
-/

namespace Hex

def digit (c : Char) : Option Nat :=
  if '0' <= c && c <= '9' then some (c.toNat - 48)
  else if 'a' <= c && c <= 'f' then some (c.toNat - 87)
  else if 'A' <= c && c <= 'F' then some (c.toNat - 55)
  else none

def char (n : Nat) : Char := if n < 10 then Char.ofNat (48 + n) else Char.ofNat (87 + n)

theorem digit_char {d : Nat} (hd : d < 16) : digit (char d) = some d := by
  revert d
  decide

def encode (bytes : List UInt8) : Text :=
  bytes.flatMap fun b => [char (b.toNat / 16), char (b.toNat % 16)]

def decode : Text → Option (List UInt8)
  | [] => some []
  | [_] => none
  | a :: b :: rest =>
    match digit a, digit b, decode rest with
    | some x, some y, some bytes => some (UInt8.ofNat (16 * x + y) :: bytes)
    | _, _, _ => none

theorem encode_cons (b : UInt8) (bytes : List UInt8) :
    encode (b :: bytes) = char (b.toNat / 16) :: char (b.toNat % 16) :: encode bytes := rfl

@[simp] theorem length_encode (bytes : List UInt8) : (encode bytes).length = 2 * bytes.length := by
  simp [encode, Nat.mul_comm]

theorem decode_encode (bytes : List UInt8) : decode (encode bytes) = some bytes := by
  induction bytes with
  | nil => rfl
  | cons b rest ih =>
    have hb := b.toNat_lt
    have hsum : 16 * (b.toNat / 16) + b.toNat % 16 = b.toNat := by omega
    rw [encode_cons, decode, digit_char (by omega), digit_char (by omega), ih]
    simp [hsum]

theorem mem_encode {bytes : List UInt8} {c : Char} (hc : c ∈ encode bytes) : ∃ d < 16, c = char d := by
  obtain ⟨b, -, hb⟩ := List.mem_flatMap.mp hc
  have hlt : b.toNat < 256 := b.toNat_lt
  simp only [List.mem_cons, List.not_mem_nil, or_false] at hb
  rcases hb with rfl | rfl
  · exact ⟨_, by omega, rfl⟩
  · exact ⟨_, by omega, rfl⟩

theorem isSpace_char {d : Nat} (hd : d < 16) : Text.isSpace (char d) = false := by
  revert d
  decide

end Hex

namespace Base64

def sextet (url : Bool) (c : Char) : Option Nat :=
  if 'A' <= c && c <= 'Z' then some (c.toNat - 65)
  else if 'a' <= c && c <= 'z' then some (c.toNat - 71)
  else if '0' <= c && c <= '9' then some (c.toNat + 4)
  else if c == (if url then '-' else '+') then some 62
  else if c == (if url then '_' else '/') then some 63
  else none

def char (n : Nat) : Char :=
  if n < 26 then Char.ofNat (65 + n)
  else if n < 52 then Char.ofNat (71 + n)
  else if n < 62 then Char.ofNat (n - 4)
  else if n = 62 then '+' else '/'

def bytesOf (count : Nat) (sextets : List (Option Nat)) : Option (List UInt8) :=
  match sextets with
  | [some a, some b, some c, some d] =>
    let n := ((a * 64 + b) * 64 + c) * 64 + d
    some ([UInt8.ofNat (n / 65536), UInt8.ofNat (n / 256 % 256), UInt8.ofNat (n % 256)].take count)
  | _ => none

/-- Four characters at a time. The last group may be short, by padding or, without it, by its length. -/
def decodeQuanta (url padded : Bool) : Text → Option (List UInt8)
  | [] => some []
  | [_] => none
  | [a, b] => if padded then none else bytesOf 1 [sextet url a, sextet url b, some 0, some 0]
  | [a, b, c] => if padded then none else bytesOf 2 [sextet url a, sextet url b, sextet url c, some 0]
  | a :: b :: c :: d :: rest =>
    if padded && d == '=' then
      if !rest.isEmpty then none
      else if c == '=' then bytesOf 1 [sextet url a, sextet url b, some 0, some 0]
      else bytesOf 2 [sextet url a, sextet url b, sextet url c, some 0]
    else
      match bytesOf 3 [sextet url a, sextet url b, sextet url c, sextet url d], decodeQuanta url padded rest with
      | some head, some tail => some (head ++ tail)
      | _, _ => none

def decode (url padded : Bool) (t : Text) : Option (List UInt8) :=
  decodeQuanta url padded (t.filter fun c => c != '\n' && c != '\r')

def encode : List UInt8 → Text
  | [] => []
  | [x] =>
    let n := x.toNat * 65536
    [char (n / 262144), char (n / 4096 % 64), '=', '=']
  | [x, y] =>
    let n := x.toNat * 65536 + y.toNat * 256
    [char (n / 262144), char (n / 4096 % 64), char (n / 64 % 64), '=']
  | x :: y :: z :: rest =>
    let n := x.toNat * 65536 + y.toNat * 256 + z.toNat
    char (n / 262144) :: char (n / 4096 % 64) :: char (n / 64 % 64) :: char (n % 64) :: encode rest

theorem sextet_char {n : Nat} (hn : n < 64) :
    sextet false (char n) = some n ∧ char n ≠ '=' ∧ char n ≠ '\n' ∧ char n ≠ '\r' := by
  constructor
  · revert n
    decide
  · revert n
    decide

theorem bytesOf_four {a b c d n : Nat} (count : Nat) (ha : a = n / 262144) (hb : b = n / 4096 % 64)
    (hc : c = n / 64 % 64) (hd : d = n % 64) :
    bytesOf count [some a, some b, some c, some d] =
      some ([UInt8.ofNat (n / 65536), UInt8.ofNat (n / 256 % 256), UInt8.ofNat (n % 256)].take count) := by
  have hsum : ((a * 64 + b) * 64 + c) * 64 + d = n := by omega
  simp only [bytesOf, hsum]

theorem decodeQuanta_one {a b : Nat} (ha : a < 64) (hb : b < 64) :
    decodeQuanta false true [char a, char b, '=', '='] = bytesOf 1 [some a, some b, some 0, some 0] := by
  simp [decodeQuanta, sextet_char ha, sextet_char hb]

theorem decodeQuanta_two {a b c : Nat} (ha : a < 64) (hb : b < 64) (hc : c < 64) :
    decodeQuanta false true [char a, char b, char c, '='] = bytesOf 2 [some a, some b, some c, some 0] := by
  simp [decodeQuanta, sextet_char ha, sextet_char hb, sextet_char hc]

theorem decodeQuanta_group {a b c d : Nat} {rest : Text} {head tail : List UInt8} (ha : a < 64) (hb : b < 64)
    (hc : c < 64) (hd : d < 64) (hhead : bytesOf 3 [some a, some b, some c, some d] = some head)
    (htail : decodeQuanta false true rest = some tail) :
    decodeQuanta false true (char a :: char b :: char c :: char d :: rest) = some (head ++ tail) := by
  simp [decodeQuanta, sextet_char ha, sextet_char hb, sextet_char hc, sextet_char hd, hhead, htail]

theorem decodeQuanta_encode (bytes : List UInt8) : decodeQuanta false true (encode bytes) = some bytes := by
  fun_induction encode bytes with
  | case1 => rfl
  | case2 x n =>
    have hx := x.toNat_lt
    have hn : n / 65536 = x.toNat := by omega
    have hlow : 0 = n / 64 % 64 ∧ 0 = n % 64 := by omega
    clear_value n
    rw [decodeQuanta_one (by omega) (by omega), bytesOf_four (n := n) 1 rfl rfl hlow.1 hlow.2]
    simp [hn]
  | case3 x y n =>
    have hx := x.toNat_lt
    have hy := y.toNat_lt
    have hn : n / 65536 = x.toNat ∧ n / 256 % 256 = y.toNat := by omega
    have hlow : 0 = n % 64 := by omega
    clear_value n
    rw [decodeQuanta_two (by omega) (by omega) (by omega), bytesOf_four (n := n) 2 rfl rfl rfl hlow]
    simp [hn]
  | case4 x y z rest n ih =>
    have hx := x.toNat_lt
    have hy := y.toNat_lt
    have hz := z.toNat_lt
    have hn : n / 65536 = x.toNat ∧ n / 256 % 256 = y.toNat ∧ n % 256 = z.toNat := by omega
    clear_value n
    rw [decodeQuanta_group (by omega) (by omega) (by omega) (by omega)
      (bytesOf_four (n := n) 3 rfl rfl rfl rfl) ih]
    simp [hn]

theorem mem_encode {bytes : List UInt8} {c : Char} (hc : c ∈ encode bytes) : c = '=' ∨ ∃ n < 64, c = char n := by
  fun_induction encode bytes with
  | case1 => simp at hc
  | case2 x n =>
    have hx := x.toNat_lt
    simp only [List.mem_cons, List.not_mem_nil, or_false] at hc
    rcases hc with rfl | rfl | rfl | rfl <;> first | exact .inl rfl | exact .inr ⟨_, by omega, rfl⟩
  | case3 x y n =>
    have hx := x.toNat_lt
    have hy := y.toNat_lt
    simp only [List.mem_cons, List.not_mem_nil, or_false] at hc
    rcases hc with rfl | rfl | rfl | rfl <;> first | exact .inl rfl | exact .inr ⟨_, by omega, rfl⟩
  | case4 x y z rest n ih =>
    have hx := x.toNat_lt
    have hy := y.toNat_lt
    have hz := z.toNat_lt
    simp only [List.mem_cons] at hc
    rcases hc with rfl | rfl | rfl | rfl | hc <;> first | exact ih hc | exact .inr ⟨_, by omega, rfl⟩

theorem isSpace_char {n : Nat} (hn : n < 64) : Text.isSpace (char n) = false := by
  revert n
  decide

theorem decode_encode (bytes : List UInt8) : decode false true (encode bytes) = some bytes := by
  have hclean : (encode bytes).filter (fun c => c != '\n' && c != '\r') = encode bytes := by
    rw [List.filter_eq_self]
    intro c hc
    rcases mem_encode hc with rfl | ⟨n, hn, rfl⟩
    · decide
    obtain ⟨-, -, hline, hreturn⟩ := sextet_char hn
    simp [hline, hreturn]
  rw [decode, hclean, decodeQuanta_encode]

end Base64
