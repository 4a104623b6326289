import Mathlib

/-!
# Signature schemes
-/

structure SignatureScheme where
  Secret : Type
  secret : Secret
  publicKey : Secret → List UInt8
  sign : Secret → List UInt8 → List UInt8
  verify : List UInt8 → List UInt8 → List UInt8 → Bool
  length_publicKey : ∀ k, (publicKey k).length = 32
  length_sign : ∀ k message, (sign k message).length = 64
  verify_sign : ∀ k message, verify (publicKey k) message (sign k message) = true

def echoScheme : SignatureScheme where
  Secret := Unit
  secret := ()
  publicKey _ := List.replicate 32 0
  sign _ message := (message ++ List.replicate 64 0).take 64
  verify _ message signature := signature == (message ++ List.replicate 64 0).take 64
  length_publicKey _ := by simp
  length_sign _ message := by simp
  verify_sign _ message := by simp
