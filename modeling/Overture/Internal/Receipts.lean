import Overture.Lib.GoFormat
import Overture.Lib.Sha256
import Overture.Lib.Signature
import Overture.Lib.Utf8
import Overture.Lib.Except

/-!
# Signed execution receipts

A runtime signs the SHA-256 hash of the canonical form of a receipt: an object of strings with
thirteen of its fields, of which three are left out when they are empty. Field values are
rendered as text, whatever their type in the receipt.
-/

namespace Overture

open Json List

inductive ReceiptValue where
  | decoded (a : Any)
  | int64 (n : Int)

abbrev Receipt := Text → Option ReceiptValue

def Receipt.ofMap (fields : AnyMap) : Receipt := fun key => (fields.get? key).map .decoded

def Receipt.string (receipt : Receipt) (key : String) : Text :=
  match receipt key.toList with
  | some (.decoded (.str s)) => s
  | _ => []

def Any.fieldString : Any → Text
  | .null => []
  | .str s => s
  | .bool true => "true"
  | .bool false => "false"
  | .num x =>
    match x.natural? with
    | some n => intLiteral (Float64.toInt64 x.neg n)
    | none => x.shortest Float64.fixedLayout
  | v => v.verbV

def receiptFieldString (receipt : Receipt) (key : Text) : Text :=
  match receipt key with
  | none => []
  | some (.decoded v) => Any.fieldString v
  | some (.int64 n) => intLiteral n

/-- The signed fields in ascending order, and whether the field is left out when it is empty. -/
def receiptKeys : List (Text × Bool) :=
  [("agent_id", false), ("cpu_time_ms", false), ("execution_id", false),
    ("fs_bytes_written", false), ("memory_peak_mb", false), ("previous_hash", false),
    ("runtime_id", true), ("timestamp_utc", false), ("tool_calls", false),
    ("transaction_hash", true), ("transaction_id", true), ("violation_occurred", false),
    ("wall_time_ms", false)]

def canonicalEntries (keys : List (Text × Bool)) (field : Text → Text) : List (Text × Text) :=
  keys.filterMap fun k => if k.2 && (field k.1).isEmpty then none else some (k.1, field k.1)

def canonicalFieldBytes (field : Text → Text) : List UInt8 :=
  let entries := canonicalEntries receiptKeys field
  Utf8.encode (Value.object (entries.map fun e => (e.1, .str (quote e.2)))).print

def canonicalReceiptBytes (receipt : Receipt) : List UInt8 := canonicalFieldBytes (receiptFieldString receipt)

def receiptDigest (receipt : Receipt) : List UInt8 := Sha256.sum256 (canonicalReceiptBytes receipt)

section

variable (scheme : SignatureScheme)

def verifyReceipt (publicKey : List UInt8) (receipt : Receipt) : Except String Unit :=
  if publicKey = [] then .ok ()
  else if (receipt "signature").isNone then .error "execution_receipt missing signature field"
  else if receipt.string "signature" = [] then .error "execution_receipt has empty signature"
  else
    match Base64.decode false true (receipt.string "signature") with
    | none => .error "execution_receipt signature base64 decode"
    | some signature =>
      if receipt.string "hash" ≠ [] ∧ receipt.string "hash" ≠ Hex.encode (receiptDigest receipt) then
        .error "execution_receipt hash mismatch"
      else if !scheme.verify publicKey (receiptDigest receipt) signature then
        .error "execution_receipt signature verification failed"
      else .ok ()

def decodeReceipt (raw : Text) : Option AnyMap :=
  match (parse raw).bind Value.toAny with
  | some (.obj fields) => some fields
  | some .null => some .nil
  | _ => none

def receiptOf (raw : Text) : Receipt := .ofMap ((decodeReceipt raw).getD .nil)

def verifyReceiptRaw (publicKey : List UInt8) (raw : Text) : Except String Unit :=
  match decodeReceipt raw with
  | none => .error "execution_receipt decode"
  | some fields => verifyReceipt scheme publicKey (.ofMap fields)

structure ReceiptVerificationResult where
  runtimeKeyFound : Bool := false
  receiptPresent : Bool := false
  signaturePresent : Bool := false
  hashValid : Bool := false
  signatureValid : Bool := false
  computedHash : Text := []
  storedHash : Text := []
  reason : String := ""

def ReceiptVerificationResult.verified (r : ReceiptVerificationResult) : Bool :=
  r.runtimeKeyFound && r.receiptPresent && r.signaturePresent && r.hashValid && r.signatureValid

def verifyReceiptCryptographic (receipt : Receipt) (publicKeyHex : Text) : ReceiptVerificationResult :=
  let result : ReceiptVerificationResult := { receiptPresent := true }
  let publicKeyHex := Text.trimSpace publicKeyHex
  if publicKeyHex = [] then { result with reason := "runtime public key not found" }
  else
    match Hex.decode publicKeyHex with
    | none => { result with reason := "runtime public key invalid" }
    | some key =>
      if key.length ≠ 32 then { result with reason := "runtime public key invalid" }
      else
        let storedHash := receipt.string "hash"
        let computedHash := Hex.encode (receiptDigest receipt)
        let hashValid := decide (storedHash ≠ [] ∧ computedHash = storedHash)
        let result := { result with runtimeKeyFound := true, storedHash, computedHash, hashValid }
        if receipt.string "signature" = [] then { result with reason := "receipt has no signature" }
        else
          let result := { result with signaturePresent := true }
          match Base64.decode false true (receipt.string "signature") with
          | none => { result with reason := "receipt signature base64 decode failed" }
          | some signature =>
            if !scheme.verify key (receiptDigest receipt) signature then
              { result with reason := "receipt signature verification failed" }
            else
              let result := { result with signatureValid := true }
              if !hashValid then
                { result with reason := "receipt hash does not match canonical re-computation" }
              else { result with reason := "receipt cryptographically verified" }

end

variable {field : Text → Text} {scheme : SignatureScheme}

theorem mem_canonicalEntries {keys : List (Text × Bool)} {e : Text × Text}
    (h : e ∈ canonicalEntries keys field) : e.1 ∈ keys.map Prod.fst := by
  obtain ⟨k, hk, hsome⟩ := mem_filterMap.mp h
  split at hsome
  · cases hsome
  obtain rfl := Option.some.inj hsome
  exact mem_map.mpr ⟨k, hk, rfl⟩

theorem canonicalEntries_cons (k : Text × Bool) (keys : List (Text × Bool)) (field : Text → Text) :
    canonicalEntries (k :: keys) field =
      (if k.2 && (field k.1).isEmpty then [] else [(k.1, field k.1)]) ++ canonicalEntries keys field := by
  unfold canonicalEntries
  rw [filterMap_cons]
  split_ifs
  · rfl
  · rfl

theorem canonicalEntries_eq_iff {keys : List (Text × Bool)} (hkeys : (keys.map Prod.fst).Nodup)
    {field' : Text → Text} :
    canonicalEntries keys field = canonicalEntries keys field' ↔ ∀ k ∈ keys, field k.1 = field' k.1 := by
  induction keys with
  | nil => simp [canonicalEntries]
  | cons k keys ih =>
    obtain ⟨hnew, hrest⟩ := List.nodup_cons.mp hkeys
    -- an entry for the first key cannot come from the other keys
    have hhead {f : Text → Text} {x : Text} {l : List (Text × Text)}
        (h : canonicalEntries keys f = (k.1, x) :: l) : False :=
      hnew (mem_canonicalEntries (h ▸ List.mem_cons_self : (k.1, x) ∈ canonicalEntries keys f))
    rw [canonicalEntries_cons, canonicalEntries_cons, List.forall_mem_cons, ← ih hrest]
    split_ifs with h h' h'
    · simp only [Bool.and_eq_true, List.isEmpty_iff] at h h'
      simp [h.2, h'.2]
    · refine iff_of_false (fun heq => hhead (by simpa using heq)) ?_
      rintro ⟨heq, -⟩
      rw [heq] at h
      exact h' h
    · refine iff_of_false (fun heq => hhead (by simpa using heq.symm)) ?_
      rintro ⟨heq, -⟩
      rw [← heq] at h'
      exact h h'
    · simp

theorem canonicalFieldBytes_eq_iff {field' : Text → Text} :
    canonicalFieldBytes field = canonicalFieldBytes field' ↔ ∀ k ∈ receiptKeys, field k.1 = field' k.1 := by
  have hwf (l : List (Text × Text)) : (Value.object (l.map fun e => (e.1, .str (quote e.2)))).WF := by
    refine Value.object_wf fun m hm => ?_
    obtain ⟨e, -, rfl⟩ := mem_map.mp hm
    exact isRaw_quote e.2
  have hentry : Function.Injective fun e : Text × Text => (e.1, Value.str (quote e.2)) := by
    rintro ⟨k, x⟩ ⟨k', x'⟩ h
    simp only [Prod.mk.injEq, Value.str.injEq, quote_inj] at h ⊢
    exact h
  rw [← canonicalEntries_eq_iff (by decide)]
  constructor
  · intro h
    have hvalue := print_inj (hwf _) (hwf _) (Utf8.encode_inj h)
    exact hentry.list_map (Value.object_inj.mp hvalue)
  · intro h
    rw [canonicalFieldBytes, canonicalFieldBytes, h]

theorem verifyReceipt_ok {publicKey : List UInt8} {receipt : Receipt}
    (hkey : publicKey ≠ []) (h : verifyReceipt scheme publicKey receipt = .ok ()) :
    ∃ signature, receipt.string "signature" ≠ [] ∧
      Base64.decode false true (receipt.string "signature") = some signature ∧
      scheme.verify publicKey (receiptDigest receipt) signature = true ∧
      (receipt.string "hash" ≠ [] → receipt.string "hash" = Hex.encode (receiptDigest receipt)) := by
  rw [verifyReceipt, if_neg hkey] at h
  split at h
  · cases h
  split at h
  · cases h
  next hempty =>
  split at h
  · cases h
  next signature hdecode =>
  split at h
  · cases h
  next hhash =>
  split at h
  · cases h
  next hverify =>
  refine ⟨signature, hempty, hdecode, by simpa using hverify, ?_⟩
  intro hne
  by_contra hdiff
  exact hhash ⟨hne, hdiff⟩

theorem verifyReceipt_of_raw {publicKey : List UInt8} {raw : Text}
    (h : verifyReceiptRaw scheme publicKey raw = .ok ()) :
    verifyReceipt scheme publicKey (receiptOf raw) = .ok () := by
  unfold verifyReceiptRaw at h
  rw [receiptOf]
  cases hdecode : decodeReceipt raw with
  | none => simp [hdecode] at h
  | some fields => simpa [hdecode] using h

theorem verifyReceiptCryptographic_verified {receipt : Receipt} {publicKeyHex : Text}
    {key : List UInt8} (hkey : Hex.decode (Text.trimSpace publicKeyHex) = some key) (hlength : key.length = 32) :
    (verifyReceiptCryptographic scheme receipt publicKeyHex).verified = true ↔
      receipt.string "hash" ≠ [] ∧ Hex.encode (receiptDigest receipt) = receipt.string "hash" ∧
        receipt.string "signature" ≠ [] ∧
        ∃ signature, Base64.decode false true (receipt.string "signature") = some signature ∧
          scheme.verify key (receiptDigest receipt) signature = true := by
  have hne : Text.trimSpace publicKeyHex ≠ [] := by
    intro hnil
    rw [hnil] at hkey
    obtain rfl := Option.some.inj hkey
    cases hlength
  unfold verifyReceiptCryptographic
  dsimp only
  rw [if_neg hne, hkey]
  dsimp only
  rw [if_neg (not_not_intro hlength)]
  generalize receipt.string "hash" = stored
  generalize receipt.string "signature" = signed
  generalize receiptDigest receipt = digest
  by_cases hsig : signed = []
  · rw [if_pos hsig]
    simp [hsig, ReceiptVerificationResult.verified]
  rw [if_neg hsig]
  cases hdecode : Base64.decode false true signed with
  | none => simp [ReceiptVerificationResult.verified]
  | some signature =>
    dsimp only
    cases hverify : scheme.verify key digest signature with
    | false => simp [ReceiptVerificationResult.verified, hverify]
    | true =>
      by_cases hhash : stored ≠ [] ∧ Hex.encode digest = stored
      · simp [ReceiptVerificationResult.verified, hhash, hverify, hsig]
      refine iff_of_false (by simp [ReceiptVerificationResult.verified, hhash]) ?_
      rintro ⟨hstored, hequal, -⟩
      exact hhash ⟨hstored, hequal⟩

section

variable {scheme : SignatureScheme} {key : List UInt8}

def Receipt.ofEntries (entries : List (Text × ReceiptValue)) : Receipt := fun key =>
  (entries.find? fun e => e.1 == key).map Prod.snd

def verifyReceiptObject (scheme : SignatureScheme) (entries : List (Text × ReceiptValue)) (publicKeyHex : Text) :
    ReceiptVerificationResult :=
  if entries.isEmpty then { reason := "receipt is empty" }
  else verifyReceiptCryptographic scheme (.ofEntries entries) publicKeyHex

def Receipt.Signed (scheme : SignatureScheme) (key : List UInt8) (receipt : Receipt) : Prop :=
  receipt.string "signature" ≠ [] ∧
    ∃ signature, Base64.decode false true (receipt.string "signature") = some signature ∧
      scheme.verify key (receiptDigest receipt) signature = true

def Receipt.statedHash (receipt : Receipt) : Text := receipt.string "hash"

theorem present_of_string_ne {receipt : Receipt} {name : String} (h : receipt.string name ≠ []) :
    ¬ (receipt name.toList).isNone = true := by
  rw [Receipt.string] at h
  intro hnone
  rw [Option.isNone_iff_eq_none.mp hnone] at h
  exact h rfl

theorem verifyReceipt_eq_ok_iff {receipt : Receipt} (hkey : key ≠ []) :
    verifyReceipt scheme key receipt = .ok () ↔
      receipt.Signed scheme key ∧
        (receipt.statedHash ≠ [] → receipt.statedHash = Hex.encode (receiptDigest receipt)) := by
  constructor
  · intro h
    obtain ⟨signature, hempty, hdecode, hverify, hhash⟩ := verifyReceipt_ok hkey h
    exact ⟨⟨hempty, signature, hdecode, hverify⟩, hhash⟩
  rintro ⟨⟨hempty, signature, hdecode, hverify⟩, hhash⟩
  have hpresent := present_of_string_ne hempty
  have hsame : ¬ (receipt.string "hash" ≠ [] ∧ receipt.string "hash" ≠ Hex.encode (receiptDigest receipt)) := by
    rintro ⟨hstated, hdiff⟩
    exact hdiff (hhash hstated)
  rw [verifyReceipt, if_neg hkey, if_neg hpresent, if_neg hempty, hdecode]
  dsimp only
  rw [if_neg hsame, hverify]
  rfl

theorem verifyReceiptObject_verified {entries : List (Text × ReceiptValue)} {publicKeyHex : Text}
    (hkey : Hex.decode (Text.trimSpace publicKeyHex) = some key) (hlength : key.length = 32) :
    (verifyReceiptObject scheme entries publicKeyHex).verified = true ↔
      (Receipt.ofEntries entries).Signed scheme key ∧ (Receipt.ofEntries entries).statedHash ≠ [] ∧
        (Receipt.ofEntries entries).statedHash = Hex.encode (receiptDigest (.ofEntries entries)) := by
  rw [verifyReceiptObject]
  split
  · next hempty =>
    -- an empty receipt has no signature
    obtain rfl := isEmpty_iff.mp hempty
    refine iff_of_false (by simp [ReceiptVerificationResult.verified]) ?_
    rintro ⟨⟨hsignature, -⟩, -⟩
    exact hsignature rfl
  rw [verifyReceiptCryptographic_verified hkey hlength]
  constructor
  · rintro ⟨hstated, hhash, hempty, hverify⟩
    exact ⟨⟨hempty, hverify⟩, hstated, hhash.symm⟩
  · rintro ⟨⟨hempty, hverify⟩, hstated, hhash⟩
    exact ⟨hstated, hhash.symm, hempty, hverify⟩

/-- The two checks agree on a receipt unless it is signed and states no hash: the check at ingestion then
passes it over the missing hash, the check of the stored receipt does not. -/
theorem verifiers_agree_iff (scheme : SignatureScheme) (entries : List (Text × ReceiptValue)) {publicKeyHex : Text}
    {key : List UInt8} (hkey : Hex.decode (Text.trimSpace publicKeyHex) = some key) (hlength : key.length = 32) :
    (verifyReceipt scheme key (.ofEntries entries) = .ok () ↔
        (verifyReceiptObject scheme entries publicKeyHex).verified = true) ↔
      ((Receipt.ofEntries entries).Signed scheme key → (Receipt.ofEntries entries).statedHash ≠ []) := by
  have hne : key ≠ [] := by
    rintro rfl
    cases hlength
  rw [verifyReceipt_eq_ok_iff hne, verifyReceiptObject_verified hkey hlength]
  constructor
  · intro hagree hsigned hempty
    have haccepted := hagree.mp ⟨hsigned, fun hstated => absurd hempty hstated⟩
    exact haccepted.2.1 hempty
  intro hstates
  constructor
  · rintro ⟨hsigned, hhash⟩
    exact ⟨hsigned, hstates hsigned, hhash (hstates hsigned)⟩
  · rintro ⟨hsigned, -, hhash⟩
    exact ⟨hsigned, fun _ => hhash⟩

end

section Sample

def blankKey : List UInt8 := List.replicate 32 0

def blankKeyHex : Text := List.replicate 64 '0'

theorem decode_blankKeyHex : Hex.decode (Text.trimSpace blankKeyHex) = some blankKey := by decide +kernel

def statedEntries : List (Text × ReceiptValue) :=
  [("execution_id", .decoded (.str "exec-1")), ("agent_id", .decoded (.str "agent-1"))]

def signedEntries : List (Text × ReceiptValue) :=
  ("signature",
    .decoded (.str (Base64.encode (echoScheme.sign () (receiptDigest (.ofEntries statedEntries)))))) :: statedEntries

theorem digest_signedEntries : receiptDigest (.ofEntries signedEntries) = receiptDigest (.ofEntries statedEntries) := by
  have hfields : ∀ k ∈ receiptKeys, receiptFieldString (.ofEntries signedEntries) k.1 =
      receiptFieldString (.ofEntries statedEntries) k.1 := by
    simp [receiptKeys, receiptFieldString, Receipt.ofEntries, signedEntries]
  rw [receiptDigest, canonicalReceiptBytes, canonicalFieldBytes_eq_iff.mpr hfields]
  rfl

theorem signed_signedEntries : (Receipt.ofEntries signedEntries).Signed echoScheme blankKey := by
  have htext : (Receipt.ofEntries signedEntries).string "signature" =
      Base64.encode (echoScheme.sign () (receiptDigest (.ofEntries statedEntries))) := rfl
  have hdecode := Base64.decode_encode (echoScheme.sign () (receiptDigest (.ofEntries statedEntries)))
  rw [Receipt.Signed, htext, digest_signedEntries]
  refine ⟨?_, _, hdecode, echoScheme.verify_sign () _⟩
  intro hempty
  rw [hempty] at hdecode
  have hlength := echoScheme.length_sign () (receiptDigest (.ofEntries statedEntries))
  rw [← Option.some.inj hdecode] at hlength
  cases hlength

/-- A receipt that is signed and states no hash is stored and never verified. -/
theorem signed_without_hash :
    ¬ (verifyReceipt echoScheme blankKey (.ofEntries signedEntries) = .ok () ↔
      (verifyReceiptObject echoScheme signedEntries blankKeyHex).verified = true) := by
  intro hagree
  have hempty : (Receipt.ofEntries signedEntries).statedHash = [] := rfl
  have haccepted : verifyReceipt echoScheme blankKey (.ofEntries signedEntries) = .ok () :=
    (verifyReceipt_eq_ok_iff (cons_ne_nil _ _)).mpr ⟨signed_signedEntries, fun hstated => absurd hempty hstated⟩
  have hverified := (verifyReceiptObject_verified decode_blankKeyHex rfl).mp (hagree.mp haccepted)
  exact hverified.2.1 hempty

theorem agree_with_hash :
    verifyReceipt echoScheme blankKey (.ofEntries (("hash".toList, .decoded (.str "00".toList)) :: signedEntries)) =
        .ok () ↔
      (verifyReceiptObject echoScheme (("hash".toList, .decoded (.str "00".toList)) :: signedEntries)
        blankKeyHex).verified = true :=
  (verifiers_agree_iff echoScheme _ decode_blankKeyHex rfl).mpr fun _ hempty => cons_ne_nil _ _ hempty

end Sample

end Overture
