import Overture.Coordinator.RoundTrip
import Overture.Lib.Table

/-!
# The scope of an encrypted input reference

A stored row is decrypted for a tenant, a task and a purpose. The query compares them with the columns of the row, the
associated data binds them and the identifier to the ciphertext, and the digest is compared after decryption.
-/

namespace Overture

open Json List Option Except

variable {N C : Type}

/-- A row of `execution_input_refs`; only the identifier is unique. -/
structure StoredInputRef (N C : Type) where
  id : Uuid
  tenantID : Text
  taskID : Option Uuid
  purpose : Text
  ciphertext : C
  nonce : N
  (aad digest : Text)
  plaintextBytes : Nat
  keyVersion : Text
  (expiresAt revokedAt : Option Int)

abbrev InputRefRows (N C : Type) := Table (StoredInputRef.id (N := N) (C := C))

inductive InputRefError where
  | notFound
  | scope
  | revoked
  | expired
  | keyMissing
  | keyVersionMissing
  | decrypt
deriving DecidableEq

def StoredInputRef.found (row : StoredInputRef N C) (tenantID : Text) (taskID : Uuid) (purpose : Text) : Bool :=
  row.tenantID == tenantID && row.taskID.all (· == taskID) && row.purpose == purpose

def loadStoredInputRef (now : Int) (rows : InputRefRows N C) (tenantID : Text) (taskID refID : Uuid) (purpose : Text) :
    Except InputRefError (StoredInputRef N C) := do
  let row ← need .notFound ((rows.get? refID).filter fun row => row.found tenantID taskID purpose)
  -- a null column leaves the nil identifier in place
  let rowTask := row.taskID.getD Uuid.nil
  ensure .scope (rowTask == Uuid.nil || rowTask == taskID)
  ensure .revoked row.revokedAt.isNone
  ensure .expired (row.expiresAt.all fun e => decide (now ≤ e))
  return row

def decryptStoredInputRef (keyring : Option (InputKeyring N C)) (now : Int) (rows : InputRefRows N C) (tenantID : Text)
    (taskID refID : Uuid) (purpose : Text) : Except InputRefError Text := do
  let row ← loadStoredInputRef now rows tenantID taskID refID purpose
  let keyring ← need .keyMissing keyring
  let cipher ← need .keyVersionMissing (keyring.forVersion row.keyVersion)
  let expectedAAD := executionInputAssociatedData tenantID taskID refID purpose row.keyVersion
  ensure .scope (jsonValuesEqual expectedAAD row.aad)
  let plaintext ← need .decrypt (cipher.decrypt row.nonce row.ciphertext expectedAAD)
  ensure .decrypt (sha256InputBytes plaintext == row.digest && byteLength plaintext == row.plaintextBytes)
  return plaintext

def aadMembers (tenantID : Text) (taskID refID : Uuid) (purpose keyVersion : Text) : List (Text × Value) :=
  [("tenant_id", textValue tenantID), ("task_id", textValue taskID.toText),
    ("input_ref_id", textValue refID.toText), ("purpose", textValue purpose),
    ("key_version", textValue keyVersion)]

theorem aadMembers_wf (tenantID : Text) (taskID refID : Uuid) (purpose keyVersion : Text) :
    (Value.object (aadMembers tenantID taskID refID purpose keyVersion)).WF := by
  apply Value.object_wf
  intro e he
  simp only [aadMembers, mem_cons, not_mem_nil, or_false] at he
  rcases he with rfl | rfl | rfl | rfl | rfl <;> exact isRaw_quote _

theorem textValue_inj {t t' : Text} (h : textValue t = textValue t') : t = t' := by
  have hany := (standsFor_textValue t).toAny_eq
  rw [h, (standsFor_textValue t').toAny_eq, some_inj] at hany
  exact (Any.str.inj hany).symm

theorem toText_inj {u u' : Uuid} (h : u.toText = u'.toText) : u = u' := by
  have hparse := Uuid.parse_toText u
  rw [h, Uuid.parse_toText, some_inj] at hparse
  exact hparse.symm

variable {tenantID purpose : Text} {taskID refID : Uuid} {refs : List (InputRef N C)}

theorem executionInputAssociatedData_inj {tenantID' : Text} {taskID' refID' : Uuid}
    {purpose' keyVersion keyVersion' : Text}
    (h : executionInputAssociatedData tenantID taskID refID purpose keyVersion =
      executionInputAssociatedData tenantID' taskID' refID' purpose' keyVersion') :
    tenantID = tenantID' ∧ taskID = taskID' ∧ refID = refID' ∧ purpose = purpose' ∧ keyVersion = keyVersion' := by
  have hparse := parse_print (aadMembers_wf tenantID taskID refID purpose keyVersion) (by change 1 ≤ 10000; decide)
  have hparse' := parse_print (aadMembers_wf tenantID' taskID' refID' purpose' keyVersion') (by change 1 ≤ 10000; decide)
  change (Value.object (aadMembers tenantID taskID refID purpose keyVersion)).print =
    (Value.object (aadMembers tenantID' taskID' refID' purpose' keyVersion')).print at h
  rw [h, hparse', some_inj] at hparse
  simp only [aadMembers, Value.object, membersOf, Value.obj.injEq, Members.more.injEq, Members.last.injEq, true_and,
    and_true] at hparse
  obtain ⟨htenant, htask, href, hpurpose, hversion⟩ := hparse
  exact ⟨(textValue_inj htenant).symm, (toText_inj (textValue_inj htask)).symm, (toText_inj (textValue_inj href)).symm,
    (textValue_inj hpurpose).symm, (textValue_inj hversion).symm⟩

structure SealedInput (N C : Type) where
  ref : InputRef N C
  plaintext : Text
  built : ∃ (s : ProtectionState N C) (path : List Nat) (value : Any),
    s.buildRef path value ref.purpose = .ok ref ∧ plaintext = valueToInputString value

theorem SealedInput.aad_eq (w : SealedInput N C) : w.ref.aad =
    executionInputAssociatedData w.ref.tenantID w.ref.taskID w.ref.id w.ref.purpose w.ref.keyVersion := by
  obtain ⟨s, path, value, hbuilt, -⟩ := w.built
  unfold ProtectionState.buildRef at hbuilt
  dsimp only at hbuilt
  split_ifs at hbuilt
  split at hbuilt
  · cases hbuilt
  · rw [← ok.inj hbuilt]

theorem SealedInput.digest_eq (w : SealedInput N C) : w.ref.digest = sha256InputBytes w.plaintext := by
  obtain ⟨s, path, value, hbuilt, hplaintext⟩ := w.built
  unfold ProtectionState.buildRef at hbuilt
  dsimp only at hbuilt
  split_ifs at hbuilt
  split at hbuilt
  · cases hbuilt
  · rw [← ok.inj hbuilt, hplaintext]

/-- No stored row holds a forgery: what opens under a key of the ring was encrypted here, and opens only with the
associated data it was encrypted with. -/
structure Unforged (keyring : InputKeyring N C) (rows : InputRefRows N C) (written : List (SealedInput N C)) : Prop where
  opened : ∀ row ∈ rows.rows, ∀ version cipher, keyring.ciphers version = some cipher → ∀ aad plaintext,
    cipher.decrypt row.nonce row.ciphertext aad = some plaintext →
      ∃ w ∈ written, w.ref.nonce = row.nonce ∧ w.ref.ciphertext = row.ciphertext
  bound : ∀ row ∈ rows.rows, ∀ version cipher, keyring.ciphers version = some cipher → ∀ aad plaintext,
    cipher.decrypt row.nonce row.ciphertext aad = some plaintext →
      ∀ w ∈ written, w.ref.nonce = row.nonce → w.ref.ciphertext = row.ciphertext →
        aad = w.ref.aad ∧ plaintext = w.plaintext

theorem loadStoredInputRef_eq_ok {now : Int} {rows : InputRefRows N C}
    {row : StoredInputRef N C} (h : loadStoredInputRef now rows tenantID taskID refID purpose = .ok row) :
    rows.get? refID = some row ∧ row.found tenantID taskID purpose = true ∧ row.revokedAt = none ∧
      ∀ e ∈ row.expiresAt, now ≤ e := by
  unfold loadStoredInputRef at h
  obtain ⟨row', hneed, h⟩ := exists_of_bind_ok h
  obtain ⟨-, h⟩ := ok_of_bind_ok h
  obtain ⟨hrevoked, h⟩ := ok_of_bind_ok h
  obtain ⟨hexpired, h⟩ := ok_of_bind_ok h
  cases h
  obtain ⟨hget, hfound⟩ := filter_eq_some_iff.mp (need_eq_ok.mp hneed)
  have hnone := ensure_eq_ok.mp hrevoked
  have hall := ensure_eq_ok.mp hexpired
  refine ⟨hget, hfound, isNone_iff_eq_none.mp hnone, fun e he => ?_⟩
  have heq : row.expiresAt = some e := he
  rw [heq, all_some, decide_eq_true_eq] at hall
  exact hall

theorem decryptStoredInputRef_eq_ok {keyring : Option (InputKeyring N C)} {now : Int} {rows : InputRefRows N C}
    {plaintext : Text}
    (h : decryptStoredInputRef keyring now rows tenantID taskID refID purpose = .ok plaintext) :
    ∃ row ring version cipher, loadStoredInputRef now rows tenantID taskID refID purpose = .ok row ∧ keyring = some ring ∧
      ring.ciphers version = some cipher ∧ cipher.decrypt row.nonce row.ciphertext
        (executionInputAssociatedData tenantID taskID refID purpose row.keyVersion) = some plaintext ∧
      sha256InputBytes plaintext = row.digest := by
  unfold decryptStoredInputRef at h
  obtain ⟨row, hload, h⟩ := exists_of_bind_ok h
  obtain ⟨ring, hring, h⟩ := exists_of_bind_ok h
  obtain ⟨cipher, hcipher, h⟩ := exists_of_bind_ok h
  obtain ⟨-, h⟩ := ok_of_bind_ok h
  obtain ⟨text, htext, h⟩ := exists_of_bind_ok h
  obtain ⟨hdigest, h⟩ := ok_of_bind_ok h
  cases h
  have hversion := need_eq_ok.mp hcipher
  rw [InputKeyring.forVersion] at hversion
  split_ifs at hversion
  have hdigest := beq_iff_eq.mp (Bool.and_eq_true_iff.mp (ensure_eq_ok.mp hdigest)).1
  exact ⟨row, ring, _, cipher, hload, need_eq_ok.mp hring, hversion, need_eq_ok.mp htext, hdigest⟩

/-- A plaintext is returned only for the place it was written for, and a row with the columns of another one is not
decrypted at its own place. -/
theorem decrypted_as_written {keyring : InputKeyring N C} {rows : InputRefRows N C} {written : List (SealedInput N C)}
    (hsecure : Unforged keyring rows written) {now : Int} {tenantID : Text} {taskID refID : Uuid}
    {purpose plaintext : Text}
    (h : decryptStoredInputRef (some keyring) now rows tenantID taskID refID purpose = .ok plaintext) :
    ∃ row, rows.get? refID = some row ∧ row.revokedAt = none ∧ (∀ e ∈ row.expiresAt, now ≤ e) ∧
      (∃ w ∈ written, w.ref.tenantID = tenantID ∧ w.ref.taskID = taskID ∧ w.ref.id = refID ∧ w.ref.purpose = purpose ∧
        w.ref.keyVersion = row.keyVersion ∧ w.ref.digest = row.digest ∧ w.plaintext = plaintext) ∧
      ∀ w ∈ written, w.ref.nonce = row.nonce → w.ref.ciphertext = row.ciphertext →
        row.id = w.ref.id ∧ row.tenantID = w.ref.tenantID ∧ taskID = w.ref.taskID ∧
          (row.taskID = none ∨ row.taskID = some w.ref.taskID) ∧ row.purpose = w.ref.purpose ∧
          row.keyVersion = w.ref.keyVersion := by
  obtain ⟨row, ring, version, cipher, hload, hring, hversion, hopen, hdigest⟩ := decryptStoredInputRef_eq_ok h
  cases hring
  obtain ⟨hget, hfound, hrevoked, hexpires⟩ := loadStoredInputRef_eq_ok hload
  have hrow := Table.mem_of_get? hget
  -- whatever was encrypted to this ciphertext was encrypted for this place
  have hplace : ∀ w ∈ written, w.ref.nonce = row.nonce → w.ref.ciphertext = row.ciphertext →
      (tenantID = w.ref.tenantID ∧ taskID = w.ref.taskID ∧ refID = w.ref.id ∧ purpose = w.ref.purpose ∧
        row.keyVersion = w.ref.keyVersion) ∧ plaintext = w.plaintext := by
    intro w hw hnonce hciphertext
    obtain ⟨haad, hplaintext⟩ := hsecure.bound row hrow version cipher hversion _ _ hopen w hw hnonce hciphertext
    rw [w.aad_eq] at haad
    exact ⟨executionInputAssociatedData_inj haad, hplaintext⟩
  refine ⟨row, hget, hrevoked, hexpires, ?_, ?_⟩
  · obtain ⟨w, hw, hnonce, hciphertext⟩ := hsecure.opened row hrow version cipher hversion _ _ hopen
    obtain ⟨⟨htenant, htask, href, hpurpose, hkey⟩, hplaintext⟩ := hplace w hw hnonce hciphertext
    refine ⟨w, hw, htenant.symm, htask.symm, href.symm, hpurpose.symm, hkey.symm, ?_, hplaintext.symm⟩
    rw [w.digest_eq, ← hplaintext, hdigest]
  intro w hw hnonce hciphertext
  obtain ⟨⟨htenant, htask, href, hpurpose, hkey⟩, -⟩ := hplace w hw hnonce hciphertext
  rw [StoredInputRef.found, Bool.and_eq_true, Bool.and_eq_true, beq_iff_eq, beq_iff_eq] at hfound
  obtain ⟨⟨hrowTenant, hrowTask⟩, hrowPurpose⟩ := hfound
  refine ⟨(Table.key_of_get? hget).trans href, hrowTenant.trans htenant, htask, ?_, hrowPurpose.trans hpurpose, hkey⟩
  cases hcolumn : row.taskID with
  | none => exact .inl rfl
  | some rowTask =>
    rw [hcolumn, all_some, beq_iff_eq] at hrowTask
    exact .inr (by rw [hrowTask, htask])

def InputRef.stored (ref : InputRef N C) : StoredInputRef N C where
  id := ref.id
  tenantID := ref.tenantID
  taskID := some ref.taskID
  purpose := ref.purpose
  ciphertext := ref.ciphertext
  nonce := ref.nonce
  aad := ref.aad
  digest := ref.digest
  plaintextBytes := ref.plaintextBytes
  keyVersion := ref.keyVersion
  expiresAt := none
  revokedAt := none

def storedRows (refs : List (InputRef N C)) (h : (refs.map InputRef.id).Nodup) : InputRefRows N C where
  rows := refs.map InputRef.stored
  nodup := by rwa [List.map_map]

theorem get?_storedRows (h : (refs.map InputRef.id).Nodup) (tenantID : Text)
    (taskID refID : Uuid) (purpose : Text) :
    ((storedRows refs h).get? refID).filter (fun row => row.found tenantID taskID purpose) =
      (loadExecutionInputRef refs tenantID taskID refID purpose).map InputRef.stored := by
  have hfound : ∀ ref : InputRef N C, ref.stored.found tenantID taskID purpose = true ↔
      ref.tenantID = tenantID ∧ ref.taskID = taskID ∧ ref.purpose = purpose := by
    intro ref
    simp [StoredInputRef.found, InputRef.stored, and_assoc]
  apply Option.ext
  intro row
  rw [Option.filter_eq_some_iff, Option.map_eq_some_iff, Table.get?_eq_some_iff, storedRows, List.mem_map]
  constructor
  · rintro ⟨⟨⟨ref, href, rfl⟩, hid⟩, hrow⟩
    obtain ⟨htenant, htask, hpurpose⟩ := (hfound ref).mp hrow
    have hid : ref.id = refID := hid
    refine ⟨ref, ?_, rfl⟩
    cases hload : loadExecutionInputRef refs tenantID taskID refID purpose with
    | none =>
      have hnone := List.find?_eq_none.mp hload ref href
      simp [hid, htenant, htask, hpurpose] at hnone
    | some other =>
      have hmatch := List.find?_some hload
      simp only [Bool.and_eq_true, beq_iff_eq] at hmatch
      rw [List.inj_on_of_nodup_map h (List.mem_of_find?_eq_some hload) href (hmatch.1.1.1.trans hid.symm)]
  rintro ⟨ref, hload, rfl⟩
  have hmatch := List.find?_some hload
  simp only [Bool.and_eq_true, beq_iff_eq] at hmatch
  exact ⟨⟨⟨ref, List.mem_of_find?_eq_some hload, rfl⟩, hmatch.1.1.1⟩,
    (hfound ref).mpr ⟨hmatch.1.1.2, hmatch.1.2, hmatch.2⟩⟩

theorem loadStoredInputRef_stored (h : (refs.map InputRef.id).Nodup) (now : Int)
    {ref : InputRef N C}
    (hload : loadExecutionInputRef refs tenantID taskID refID purpose = some ref) :
    loadStoredInputRef now (storedRows refs h) tenantID taskID refID purpose = .ok ref.stored := by
  have hmatch := List.find?_some hload
  simp only [Bool.and_eq_true, beq_iff_eq] at hmatch
  have hscope : (ref.taskID == Uuid.nil || ref.taskID == taskID) = true := by simp [hmatch.1.2]
  unfold loadStoredInputRef
  rw [get?_storedRows, hload, Option.map_some]
  simp only [need, bind, Except.bind, InputRef.stored, Option.getD_some, hscope, ensure, if_true,
    Option.isNone_none, Option.all_none]
  rfl

theorem decryptStoredInputRef_stored (keyring : InputKeyring N C) (now : Int)
    (h : (refs.map InputRef.id).Nodup) (tenantID : Text) (taskID refID : Uuid) (purpose : Text) :
    (decryptStoredInputRef (some keyring) now (storedRows refs h) tenantID taskID refID purpose).toOption =
      decryptExecutionInputRef keyring refs tenantID taskID refID purpose := by
  unfold decryptStoredInputRef decryptExecutionInputRef
  cases hload : loadExecutionInputRef refs tenantID taskID refID purpose with
  | none =>
    unfold loadStoredInputRef
    rw [get?_storedRows, hload]
    rfl
  | some ref =>
    rw [loadStoredInputRef_stored h now hload]
    simp only [bind, Except.bind, need, InputRef.stored]
    cases keyring.forVersion ref.keyVersion with
    | none => rfl
    | some cipher =>
      dsimp only
      cases jsonValuesEqual (executionInputAssociatedData tenantID taskID refID purpose ref.keyVersion) ref.aad with
      | false => rfl
      | true =>
        simp only [ensure, if_true, Bool.not_true, Bool.false_eq_true, if_false]
        cases cipher.decrypt ref.nonce ref.ciphertext
            (executionInputAssociatedData tenantID taskID refID purpose ref.keyVersion) with
        | none => rfl
        | some plaintext =>
          dsimp only
          by_cases hdigest : sha256InputBytes plaintext = ref.digest ∧ byteLength plaintext = ref.plaintextBytes
          · rw [if_pos (by simpa using hdigest), if_pos hdigest]
            rfl
          · rw [if_neg (by simpa using hdigest), if_neg hdigest]
            rfl

def tokenState : ProtectionState Nat (Nat × Text × Text) := ⟨"acme", 7, boxCipher, httpsURLs, placeDraws⟩

def tokenRef : InputRef Nat (Nat × Text × Text) := tokenState.refAt [] (.str "abc") "sensitive_input" 0

def tokenInput : SealedInput Nat (Nat × Text × Text) where
  ref := tokenRef
  plaintext := "abc"
  built := by
    refine ⟨tokenState, [], .str "abc", ?_, rfl⟩
    unfold ProtectionState.buildRef
    dsimp only
    rw [if_neg (by decide +kernel)]
    rfl

def copiedRows : InputRefRows Nat (Nat × Text × Text) :=
  (Table.empty.put { tokenRef.stored with taskID := none }).put { tokenRef.stored with id := 9, taskID := some 8 }

theorem copiedRows_columns {row : StoredInputRef Nat (Nat × Text × Text)} (h : row ∈ copiedRows.rows) :
    row.nonce = tokenRef.nonce ∧ row.ciphertext = tokenRef.ciphertext := by
  have hget := Table.get?_of_mem h
  unfold copiedRows at hget
  rw [Table.get?_put, Table.get?_put] at hget
  split_ifs at hget
  · cases hget
    exact ⟨rfl, rfl⟩
  · cases hget
    exact ⟨rfl, rfl⟩
  · cases hget

theorem boxKeyring_cipher {version : Text} {cipher : InputCipher Nat (Nat × Text × Text)}
    (h : boxKeyring.ciphers version = some cipher) : cipher = boxCipher := by
  change (if version = "v1" then some boxCipher else none) = some cipher at h
  split_ifs at h
  exact (some_inj.mp h).symm

theorem unforged_copiedRows : Unforged boxKeyring copiedRows [tokenInput] := by
  constructor
  · intro row hrow version cipher _ aad plaintext _
    obtain ⟨hnonce, hciphertext⟩ := copiedRows_columns hrow
    exact ⟨tokenInput, mem_singleton_self _, hnonce.symm, hciphertext.symm⟩
  intro row hrow version cipher hcipher aad plaintext hopen w hw _ _
  obtain rfl := boxKeyring_cipher hcipher
  obtain rfl := mem_singleton.mp hw
  obtain ⟨hnonce, hciphertext⟩ := copiedRows_columns hrow
  rw [hnonce, hciphertext] at hopen
  change (if tokenRef.ciphertext.1 = tokenRef.nonce ∧ tokenRef.aad = aad then some "abc".toList else none) =
    some plaintext at hopen
  by_cases hbox : tokenRef.ciphertext.1 = tokenRef.nonce ∧ tokenRef.aad = aad
  · rw [if_pos hbox] at hopen
    exact ⟨hbox.2.symm, (some_inj.mp hopen).symm⟩
  · rw [if_neg hbox] at hopen
    cases hopen

/-- The row without a task is decrypted for the task it was written for. -/
theorem token_decrypted_as_written :
    decryptStoredInputRef (some boxKeyring) 5 copiedRows "acme".toList 7 1 "sensitive_input".toList = .ok "abc".toList ∧
      ∃ w ∈ [tokenInput], w.ref.taskID = 7 ∧ w.plaintext = "abc".toList := by
  have hopen : decryptStoredInputRef (some boxKeyring) 5 copiedRows "acme" 7 1 "sensitive_input" =
      .ok "abc" := by
    decide +kernel
  obtain ⟨row, -, -, -, ⟨w, hw, -, htask, -, -, -, -, hplaintext⟩, -⟩ := decrypted_as_written unforged_copiedRows hopen
  exact ⟨hopen, w, hw, htask, hplaintext⟩

end Overture
