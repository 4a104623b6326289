import Overture.Lib.Text

/-!
# UTF-8

Texts as bytes. The strict reader refuses bytes that are no text, as `bytes.decode` of Python
does; the lossy one reads a wrong byte as the replacement character, as Go does.
-/

namespace Utf8

open List

def encode (t : Text) : List UInt8 := t.flatMap String.utf8EncodeChar

def firstRune (bytes : List UInt8) : Option Char := bytes.toByteArray.utf8DecodeChar? 0

def decodeWith : Nat → List UInt8 → Option Text
  | _, [] => some []
  | 0, _ => none
  | fuel + 1, bytes =>
    match firstRune bytes with
    | some c => (decodeWith fuel (bytes.drop c.utf8Size)).map (c :: ·)
    | none => none

def decode (bytes : List UInt8) : Option Text := decodeWith bytes.length bytes

def decodeLossyWith : Nat → List UInt8 → Text
  | _, [] => []
  | 0, _ => []
  | fuel + 1, bytes =>
    match firstRune bytes with
    | some c => c :: decodeLossyWith fuel (bytes.drop c.utf8Size)
    | none => '\ufffd' :: decodeLossyWith fuel (bytes.drop 1)

def decodeLossy (bytes : List UInt8) : Text := decodeLossyWith bytes.length bytes

example : decode [0xe2, 0x80, 0xa8] = some ['\u2028'] := by decide +kernel

example : decode [0xe2, 0x80] = none := by decide +kernel

theorem encode_cons (c : Char) (t : Text) : encode (c :: t) = String.utf8EncodeChar c ++ encode t := rfl

theorem encode_append (t u : Text) : encode (t ++ u) = encode t ++ encode u := flatMap_append

theorem length_encode_le (t : Text) : (encode t).length ≤ 4 * t.length := by
  induction t with
  | nil => simp [encode]
  | cons c t ih =>
    have hc := c.utf8Size_le_four
    rw [encode_cons, length_append, String.length_utf8EncodeChar, length_cons]
    omega

theorem firstRune_encodeChar (c : Char) (rest : List UInt8) :
    firstRune (String.utf8EncodeChar c ++ rest) = some c := by
  rw [firstRune, toByteArray_append]
  exact ByteArray.utf8DecodeChar?_utf8EncodeChar_append

theorem drop_encodeChar (c : Char) (rest : List UInt8) :
    (String.utf8EncodeChar c ++ rest).drop c.utf8Size = rest :=
  drop_left' (String.length_utf8EncodeChar c)

theorem encodeChar_ne_nil (c : Char) : String.utf8EncodeChar c ≠ [] := by
  apply ne_nil_of_length_pos
  rw [String.length_utf8EncodeChar]
  exact c.utf8Size_pos

theorem decodes_encode (t : Text) (fuel : Nat) (h : (encode t).length ≤ fuel) :
    decodeWith fuel (encode t) = some t ∧ decodeLossyWith fuel (encode t) = t := by
  induction t generalizing fuel with
  | nil => cases fuel <;> exact ⟨rfl, rfl⟩
  | cons c t ih =>
    rw [encode_cons] at h ⊢
    have hpos := c.utf8Size_pos
    rw [length_append, String.length_utf8EncodeChar] at h
    obtain ⟨fuel, rfl⟩ : ∃ n, fuel = n + 1 := ⟨fuel - 1, by omega⟩
    have hne : String.utf8EncodeChar c ++ encode t ≠ [] :=
      fun hnil => encodeChar_ne_nil c (append_eq_nil_iff.mp hnil).1
    rw [decodeWith.eq_3 _ _ hne, decodeLossyWith.eq_3 _ _ hne, firstRune_encodeChar]
    dsimp only
    rw [drop_encodeChar, (ih fuel (by omega)).1, (ih fuel (by omega)).2]
    exact ⟨rfl, rfl⟩

theorem decode_encode (t : Text) : decode (encode t) = some t := (decodes_encode t _ le_rfl).1

theorem encode_inj {t u : Text} (h : encode t = encode u) : t = u := by
  have hdecode := decode_encode t
  rw [h, decode_encode] at hdecode
  exact (Option.some.inj hdecode).symm

theorem decodeLossy_encode (t : Text) : decodeLossy (encode t) = t := (decodes_encode t _ le_rfl).2

end Utf8
