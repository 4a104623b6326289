import Mathlib

/-!
# SHA-256

The hash of a byte string, with 32-bit words as natural numbers.
-/

namespace Sha256

def roundConstants : List Nat :=
  [0x428a2f98, 0x71374491, 0xb5c0fbcf, 0xe9b5dba5, 0x3956c25b, 0x59f111f1, 0x923f82a4, 0xab1c5ed5,
   0xd807aa98, 0x12835b01, 0x243185be, 0x550c7dc3, 0x72be5d74, 0x80deb1fe, 0x9bdc06a7, 0xc19bf174,
   0xe49b69c1, 0xefbe4786, 0x0fc19dc6, 0x240ca1cc, 0x2de92c6f, 0x4a7484aa, 0x5cb0a9dc, 0x76f988da,
   0x983e5152, 0xa831c66d, 0xb00327c8, 0xbf597fc7, 0xc6e00bf3, 0xd5a79147, 0x06ca6351, 0x14292967,
   0x27b70a85, 0x2e1b2138, 0x4d2c6dfc, 0x53380d13, 0x650a7354, 0x766a0abb, 0x81c2c92e, 0x92722c85,
   0xa2bfe8a1, 0xa81a664b, 0xc24b8b70, 0xc76c51a3, 0xd192e819, 0xd6990624, 0xf40e3585, 0x106aa070,
   0x19a4c116, 0x1e376c08, 0x2748774c, 0x34b0bcb5, 0x391c0cb3, 0x4ed8aa4a, 0x5b9cca4f, 0x682e6ff3,
   0x748f82ee, 0x78a5636f, 0x84c87814, 0x8cc70208, 0x90befffa, 0xa4506ceb, 0xbef9a3f7, 0xc67178f2]

def initial : List Nat :=
  [0x6a09e667, 0xbb67ae85, 0x3c6ef372, 0xa54ff53a, 0x510e527f, 0x9b05688c, 0x1f83d9ab, 0x5be0cd19]

def word (n : Nat) : Nat := n % 2 ^ 32

def rotr (x k : Nat) : Nat := (x >>> k) ||| word (x <<< (32 - k))

def pad (bytes : List UInt8) : List UInt8 :=
  let bits := 8 * bytes.length
  let zeros := (55 + 64 - bytes.length % 64) % 64
  let size := (List.range 8).map fun i => UInt8.ofNat (bits >>> (8 * (7 - i)))
  bytes ++ 0x80 :: List.replicate zeros 0 ++ size

def words : List UInt8 → List Nat
  | a :: b :: c :: d :: rest =>
    (a.toNat <<< 24 ||| b.toNat <<< 16 ||| c.toNat <<< 8 ||| d.toNat) :: words rest
  | _ => []

def nextWord (w : List Nat) : Nat :=
  let s0 (x : Nat) := rotr x 7 ^^^ rotr x 18 ^^^ (x >>> 3)
  let s1 (x : Nat) := rotr x 17 ^^^ rotr x 19 ^^^ (x >>> 10)
  word (w.getD 0 0 + s0 (w.getD 1 0) + w.getD 9 0 + s1 (w.getD 14 0))

def round (state : List Nat) (k w : Nat) : List Nat :=
  match state with
  | [a, b, c, d, e, f, g, h] =>
    let s1 := rotr e 6 ^^^ rotr e 11 ^^^ rotr e 25
    let ch := (e &&& f) ^^^ ((2 ^ 32 - 1 - e) &&& g)
    let t1 := h + s1 + ch + k + w
    let s0 := rotr a 2 ^^^ rotr a 13 ^^^ rotr a 22
    let maj := (a &&& b) ^^^ (a &&& c) ^^^ (b &&& c)
    [word (t1 + s0 + maj), a, b, c, word (d + t1), e, f, g]
  | other => other

def rounds : List Nat → List Nat → List Nat → List Nat
  | [], _, state => state
  | k :: ks, w, state => rounds ks (w.tail ++ [nextWord w]) (round state k (w.getD 0 0))

def blocks : Nat → List Nat → List Nat → List Nat
  | 0, _, state => state
  | n + 1, w, state =>
    let out := rounds roundConstants (w.take 16) state
    blocks n (w.drop 16) (List.zipWith (fun x y => word (x + y)) state out)

def sum256 (bytes : List UInt8) : List UInt8 :=
  let w := words (pad bytes)
  (blocks (w.length / 16) w initial).flatMap fun x =>
    [x >>> 24, x >>> 16, x >>> 8, x].map UInt8.ofNat

theorem length_round {state : List Nat} (h : state.length = 8) (k w : Nat) : (round state k w).length = 8 := by
  rw [round.eq_def]
  split
  · rfl
  · exact h

theorem length_rounds (ks w : List Nat) {state : List Nat} (h : state.length = 8) :
    (rounds ks w state).length = 8 := by
  induction ks generalizing w state with
  | nil => exact h
  | cons k ks ih => exact ih _ (length_round h _ _)

theorem length_blocks (n : Nat) (w : List Nat) {state : List Nat} (h : state.length = 8) :
    (blocks n w state).length = 8 := by
  induction n generalizing w state with
  | zero => exact h
  | succ n ih =>
    apply ih
    rw [List.length_zipWith, length_rounds _ _ h, h, min_self]

@[simp] theorem length_sum256 (bytes : List UInt8) : (sum256 bytes).length = 32 := by
  simp [sum256, List.length_flatMap, length_blocks _ _ (show initial.length = 8 from rfl)]

end Sha256
