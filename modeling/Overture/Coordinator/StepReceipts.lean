import Overture.Coordinator.ProofState

/-!
# The receipts of the steps

A runtime may answer a submission with a receipt for every step besides that of the execution. The coordinator checks
all of them, stores the receipt of the execution on the task and writes one receipt after the other into the ledger.
The check of the envelope and the failing statements are parameters; the key of the runtime is read once.
-/

namespace Overture

open Option

namespace StepReceipts

/-- What a submission is answered with; an artifact that is left out is an empty text. -/
structure SubmitResult where
  (executionEnvelope executionReceipt : Text)
  stepReceipts : List Text

structure Surroundings where
  /-- `runtimePublicKeyForTask`; nothing when it is missing. -/
  publicKeyHex : Option Text
  /-- Whether the envelope is verified and agrees with the receipt on the runtime. -/
  envelopeVerified : List UInt8 → Text → Text → Bool
  args : LineageArgs
  now : Int
  /-- Whether `SaveExecutionArtifacts` fails. -/
  artifactsFail : Bool
  /-- Whether the statement for the receipt at an index fails. -/
  lineageFails : Nat → Bool

structure TaskProofs where
  executionReceipt : Option Text
  lineage : LineageTable

section

variable (scheme : SignatureScheme)

def verifyExecutionArtifactsRawWithPublicKey (env : Surroundings) (envelope receipt publicKeyHex : Text) : Bool :=
  match Hex.decode publicKeyHex with
  | none => false
  | some key =>
    if key.length ≠ 32 then false
    else if receipt ≠ [] ∧ verifyReceiptRaw scheme key receipt ≠ .ok () then false
    else env.envelopeVerified key envelope receipt

def validateReceiptChainLinksFrom : Option Text → List Text → Option Text
  | prevHash, [] => some (prevHash.getD [])
  | prevHash, raw :: rest =>
    match decodeReceipt raw with
    | none => none
    | some fields =>
      let receipt := Receipt.ofMap fields
      if prevHash.any (· != receipt.string "previous_hash") then none
      else if (Text.trimSpace (receipt.string "hash")).isEmpty then none
      else validateReceiptChainLinksFrom (some (receipt.string "hash")) rest

def validateReceiptChainLinks (stepReceipts : List Text) : Option Text :=
  validateReceiptChainLinksFrom none stepReceipts

def verifyStepReceipt (publicKeyHex raw : Text) : Bool :=
  match decodeReceipt raw with
  | none | some .nil => false
  | some fields => (verifyReceiptCryptographic scheme (.ofMap fields) publicKeyHex).verified

def verifyStepReceiptsForTask (publicKeyHex : Text) (stepReceipts : List Text) : Bool :=
  stepReceipts.all (verifyStepReceipt scheme publicKeyHex) && (validateReceiptChainLinks stepReceipts).isSome

/-- The loop over the receipts, from an index on: what goes wrong with one of them is logged. -/
def saveReceipts (env : Surroundings) : Nat → List Text → LineageTable → LineageTable
  | _, [], t => t
  | idx, raw :: rest, t =>
    match buildExecutionLineageRecordFromReceipt raw env.args with
    | .error _ | .ok none => saveReceipts env (idx + 1) rest t
    | .ok (some record) =>
      if env.lineageFails idx then saveReceipts env (idx + 1) rest t
      else
        match saveExecutionLineage (some record) env.now t with
        | .error _ => saveReceipts env (idx + 1) rest t
        | .ok t' => saveReceipts env (idx + 1) rest t'

def accepts (env : Surroundings) (result : SubmitResult) : Bool :=
  !(result.executionEnvelope.isEmpty && result.executionReceipt.isEmpty) &&
    env.publicKeyHex.any (fun publicKeyHex =>
      verifyExecutionArtifactsRawWithPublicKey scheme env result.executionEnvelope result.executionReceipt publicKeyHex &&
        (result.stepReceipts.isEmpty || verifyStepReceiptsForTask scheme publicKeyHex result.stepReceipts)) &&
    !env.artifactsFail

def persistArtifacts (env : Surroundings) (result : SubmitResult) (s : TaskProofs) : TaskProofs :=
  if accepts scheme env result then
    let receiptsToPersist := if result.stepReceipts = [] then [result.executionReceipt] else result.stepReceipts
    { executionReceipt := (nullIfEmpty result.executionReceipt).or s.executionReceipt
      lineage := saveReceipts env 0 receiptsToPersist s.lineage }
  else s

end

def executionOf (raw : Text) : Text := (receiptOf raw).string "execution_id"

def hashOf (raw : Text) : Text := (receiptOf raw).string "hash"

def previousOf (raw : Text) : Text := (receiptOf raw).string "previous_hash"

structure Signed (scheme : SignatureScheme) (key : List UInt8) (raw : Text) : Prop where
  hashed : hashOf raw = Hex.encode (receiptDigest (receiptOf raw))
  signed : ∃ signature, Base64.decode false true ((receiptOf raw).string "signature") = some signature ∧
    scheme.verify key (receiptDigest (receiptOf raw)) signature = true

def saved (env : Surroundings) (idx : Nat) (raw : Text) : Option LineageRecord :=
  match buildExecutionLineageRecordFromReceipt raw env.args with
  | .error _ | .ok none => none
  | .ok (some record) =>
    if env.lineageFails idx then none
    else if (Text.trimSpace record.executionID).isEmpty ∨ (Text.trimSpace record.receiptHash).isEmpty then none
    else if (Text.trimSpace record.tenantID).isEmpty then none
    else some record

def HasRow (env : Surroundings) (t : LineageTable) (idx : Nat) (raw : Text) : Prop :=
  (∃ record, saved env idx raw = some record ∧ record.executionID = executionOf raw) ∧
    ∃ row, t.get? (executionOf raw) = some row ∧ row.receiptHash = hashOf raw ∧ row.previousHash = previousOf raw ∧
      row.tenantID = some env.args.tenantID

structure Persisted (scheme : SignatureScheme) (env : Surroundings) (stepReceipts : List Text) (s : TaskProofs) : Prop where
  signed : ∃ publicKeyHex key, env.publicKeyHex = some publicKeyHex ∧
    Hex.decode (Text.trimSpace publicKeyHex) = some key ∧ ∀ raw ∈ stepReceipts, Signed scheme key raw
  linked : stepReceipts.IsChain fun raw next => previousOf next = hashOf raw
  head : ∃ last receipt, stepReceipts.getLast? = some last ∧ s.executionReceipt = some receipt ∧
    receiptOf receipt = receiptOf last
  distinct : (stepReceipts.map executionOf).Nodup
  rows : ∀ idx raw, stepReceipts[idx]? = some raw → HasRow env s.lineage idx raw

def AllOrNone (scheme : SignatureScheme) (env : Surroundings) (result : SubmitResult) (s s' : TaskProofs) : Prop :=
  (accepts scheme env result = false ∧ s' = s) ∨ Persisted scheme env result.stepReceipts s'

def ReadAsSigned (env : Surroundings) (idx : Nat) (raw : Text) : Prop :=
  ∃ record, saved env idx raw = some record ∧ record.executionID = executionOf raw ∧
    record.receiptHash = hashOf raw ∧ record.previousHash = previousOf raw

/-- The receipt of the execution is the last of the steps, the executions differ, and the ledger
takes every receipt as it was signed. -/
structure Agreeing (env : Surroundings) (result : SubmitResult) (stored : Option Text) : Prop where
  head : ∃ last receipt, result.stepReceipts.getLast? = some last ∧
    (nullIfEmpty result.executionReceipt).or stored = some receipt ∧ receiptOf receipt = receiptOf last
  distinct : (result.stepReceipts.map executionOf).Nodup
  read : ∀ idx raw, result.stepReceipts[idx]? = some raw → ReadAsSigned env idx raw

variable {env : Surroundings} {idx : Nat} {raw : Text} {record : LineageRecord} {t : LineageTable}

def saveReceipt (env : Surroundings) (idx : Nat) (raw : Text) (t : LineageTable) : LineageTable :=
  match saved env idx raw with
  | none => t
  | some record =>
    match t.get? record.executionID with
    | none => t.put (record.row env.now)
    | some old => t.put (old.merge (record.row env.now))

theorem saveReceipts_cons (env : Surroundings) (idx : Nat) (raw : Text) (rest : List Text) (t : LineageTable) :
    saveReceipts env idx (raw :: rest) t = saveReceipts env (idx + 1) rest (saveReceipt env idx raw t) := by
  rw [saveReceipts, saveReceipt, saved]
  cases buildExecutionLineageRecordFromReceipt raw env.args with
  | error e => rfl
  | ok found =>
    cases found with
    | none => rfl
    | some record =>
      dsimp only
      by_cases hfails : env.lineageFails idx = true
      · rw [if_pos hfails, if_pos hfails]
      rw [if_neg hfails, if_neg hfails, saveExecutionLineage]
      by_cases hblank : (Text.trimSpace record.executionID).isEmpty = true ∨
          (Text.trimSpace record.receiptHash).isEmpty = true
      · rw [if_pos hblank, if_pos hblank]
      rw [if_neg hblank, if_neg hblank]
      by_cases htenant : (Text.trimSpace record.tenantID).isEmpty = true
      · rw [if_pos htenant, if_pos htenant]
      rw [if_neg htenant, if_neg htenant]
      dsimp only
      cases t.get? record.executionID <;> rfl

theorem saved_cases (h : saved env idx raw = some record) :
    buildExecutionLineageRecordFromReceipt raw env.args = .ok (some record) ∧ record.tenantID ≠ [] := by
  unfold saved at h
  split at h
  · cases h
  · cases h
  next found hbuild =>
  split at h
  · cases h
  split at h
  · cases h
  split at h
  · cases h
  next htenant =>
  cases h
  refine ⟨hbuild, ?_⟩
  intro hnil
  rw [hnil] at htenant
  exact htenant rfl

theorem saved_tenantID (h : saved env idx raw = some record) : record.tenantID = env.args.tenantID := by
  obtain ⟨hbuild, -⟩ := saved_cases h
  rw [build_eq] at hbuild
  cases hreading : lineageReading raw with
  | error e =>
    rw [hreading] at hbuild
    cases hbuild
  | ok found =>
    rw [hreading] at hbuild
    cases found with
    | none => cases hbuild
    | some receipt =>
      cases hbuild
      rfl

structure RowOf (record : LineageRecord) (row : LineageRow) : Prop where
  executionID : row.executionID = record.executionID
  receiptHash : row.receiptHash = record.receiptHash
  previousHash : row.previousHash = record.previousHash
  tenantID : row.tenantID = some record.tenantID

theorem saveReceipt_of_saved (t : LineageTable) (h : saved env idx raw = some record) :
    ∃ row, saveReceipt env idx raw t = t.put row ∧ RowOf record row := by
  have htenant : nullIfEmpty record.tenantID = some record.tenantID := nullIfEmpty_of_ne (saved_cases h).2
  rw [saveReceipt, h]
  dsimp only
  cases hold : t.get? record.executionID with
  | none => exact ⟨record.row env.now, rfl, rfl, rfl, rfl, htenant⟩
  | some old =>
    have hkey : old.executionID = record.executionID := Table.key_of_get? hold
    refine ⟨old.merge (record.row env.now), rfl, hkey, rfl, rfl, ?_⟩
    show (nullIfEmpty record.tenantID).or old.tenantID = _
    rw [htenant]
    rfl

theorem get?_saveReceipt_of_ne {k : Text} (h : ∀ record, saved env idx raw = some record → record.executionID ≠ k) :
    (saveReceipt env idx raw t).get? k = t.get? k := by
  cases hsaved : saved env idx raw with
  | none => rw [saveReceipt, hsaved]
  | some record =>
    obtain ⟨row, hput, hrow⟩ := saveReceipt_of_saved t hsaved
    rw [hput, Table.get?_put, if_neg (by rw [hrow.executionID]; exact h record hsaved)]

def Taken (env : Surroundings) (idx : Nat) (raws : List Text) : Prop :=
  ∀ i raw, raws[i]? = some raw → ∃ record, saved env (idx + i) raw = some record ∧ record.executionID = executionOf raw

theorem Taken.tail {rest : List Text} (h : Taken env idx (raw :: rest)) : Taken env (idx + 1) rest := by
  intro i next hnext
  have hat := h (i + 1) next (by simpa using hnext)
  rwa [show idx + 1 + i = idx + (i + 1) by omega]

theorem Taken.head {rest : List Text} (h : Taken env idx (raw :: rest)) :
    ∃ record, saved env idx raw = some record ∧ record.executionID = executionOf raw := h 0 raw rfl

variable {raws : List Text} {scheme : SignatureScheme}

theorem get?_saveReceipts_of_notMem {k : Text} (htaken : Taken env idx raws)
    (hk : k ∉ raws.map executionOf) : (saveReceipts env idx raws t).get? k = t.get? k := by
  induction raws generalizing idx t with
  | nil => rfl
  | cons raw rest ih =>
    rw [List.map_cons, List.mem_cons, not_or] at hk
    rw [saveReceipts_cons, ih htaken.tail hk.2]
    apply get?_saveReceipt_of_ne
    intro record hsaved hrecord
    obtain ⟨record', hsaved', hexecution⟩ := htaken.head
    rw [hsaved] at hsaved'
    cases hsaved'
    exact hk.1 (hrecord.symm.trans hexecution)

theorem get?_saveReceipts (htaken : Taken env idx raws) (hdistinct : (raws.map executionOf).Nodup)
    {i : Nat} (hraw : raws[i]? = some raw) (hsaved : saved env (idx + i) raw = some record) :
    ∃ row, (saveReceipts env idx raws t).get? (executionOf raw) = some row ∧ RowOf record row := by
  induction raws generalizing idx t i with
  | nil => cases hraw
  | cons first rest ih =>
    rw [List.map_cons, List.nodup_cons] at hdistinct
    rw [saveReceipts_cons]
    cases i with
    | zero =>
      obtain rfl : first = raw := some.inj hraw
      obtain ⟨row, hput, hrow⟩ := saveReceipt_of_saved t hsaved
      obtain ⟨record', hsaved', hexecution⟩ := htaken.head
      rw [Nat.add_zero, hsaved'] at hsaved
      cases hsaved
      refine ⟨row, ?_, hrow⟩
      rw [get?_saveReceipts_of_notMem htaken.tail hdistinct.1]
      rw [show saveReceipt env idx first t = t.put row from hput, Table.get?_put,
        if_pos (hrow.executionID.trans hexecution)]
    | succ i =>
      apply ih htaken.tail hdistinct.2 (by simpa using hraw)
      rwa [show idx + 1 + i = idx + (i + 1) by omega]

theorem isChain_of_validateFrom {prevHash : Option Text}
    (h : (validateReceiptChainLinksFrom prevHash raws).isSome = true) :
    raws.IsChain (fun raw next => previousOf next = hashOf raw) ∧
      ∀ first ∈ raws.head?, ∀ hash ∈ prevHash, previousOf first = hash := by
  induction raws generalizing prevHash with
  | nil => exact ⟨.nil, by simp⟩
  | cons raw rest ih =>
    rw [validateReceiptChainLinksFrom] at h
    cases hdecode : decodeReceipt raw with
    | none => simp [hdecode] at h
    | some fields =>
      have hreceipt : receiptOf raw = .ofMap fields := by rw [receiptOf, hdecode]; rfl
      rw [hdecode] at h
      dsimp only at h
      rw [← hreceipt] at h
      split at h
      · cases h
      next hprevious =>
      split at h
      · cases h
      obtain ⟨hchain, hlink⟩ := ih h
      constructor
      · cases rest with
        | nil => exact .singleton raw
        | cons next rest => exact .cons_cons (hlink next rfl (hashOf raw) rfl) hchain
      rintro first hfirst hash hhash
      obtain rfl : raw = first := some.inj hfirst
      cases hhash
      simp only [any_some, bne_iff_ne, ne_eq, not_not] at hprevious
      exact hprevious.symm

theorem key_of_verifyStepReceipt {publicKeyHex : Text}
    (h : verifyStepReceipt scheme publicKeyHex raw = true) :
    ∃ key, Hex.decode (Text.trimSpace publicKeyHex) = some key ∧ key.length = 32 := by
  unfold verifyStepReceipt at h
  split at h
  · cases h
  · cases h
  unfold verifyReceiptCryptographic at h
  dsimp only at h
  split at h
  · cases h
  split at h
  · cases h
  next key hkey =>
  refine ⟨key, hkey, ?_⟩
  by_contra hlength
  rw [if_pos hlength] at h
  cases h

theorem signed_of_verifyStepReceipt {publicKeyHex : Text} {key : List UInt8}
    (hkey : Hex.decode (Text.trimSpace publicKeyHex) = some key) (hlength : key.length = 32)
    (h : verifyStepReceipt scheme publicKeyHex raw = true) : Signed scheme key raw := by
  unfold verifyStepReceipt at h
  split at h
  · cases h
  · cases h
  next fields _ hdecode =>
  have hreceipt : receiptOf raw = .ofMap fields := by rw [receiptOf, hdecode]; rfl
  rw [← hreceipt, verifyReceiptCryptographic_verified hkey hlength] at h
  obtain ⟨-, hhash, -, hsignature⟩ := h
  exact ⟨hhash.symm, hsignature⟩

theorem accepted_chain {result : SubmitResult} (h : accepts scheme env result = true)
    (hne : result.stepReceipts ≠ []) :
    (∃ publicKeyHex key, env.publicKeyHex = some publicKeyHex ∧
      Hex.decode (Text.trimSpace publicKeyHex) = some key ∧ ∀ raw ∈ result.stepReceipts, Signed scheme key raw) ∧
    result.stepReceipts.IsChain fun raw next => previousOf next = hashOf raw := by
  simp only [accepts, Bool.and_eq_true, any_eq_true] at h
  obtain ⟨⟨-, publicKeyHex, hkeyHex, -, hsteps⟩, -⟩ := h
  have hisEmpty : result.stepReceipts.isEmpty = false := by simpa using hne
  rw [hisEmpty, Bool.false_or, verifyStepReceiptsForTask, Bool.and_eq_true, List.all_eq_true] at hsteps
  obtain ⟨hverified, hlinks⟩ := hsteps
  refine ⟨?_, (isChain_of_validateFrom hlinks).1⟩
  obtain ⟨first, hfirst⟩ := List.exists_mem_of_ne_nil _ hne
  obtain ⟨key, hkey, hlength⟩ := key_of_verifyStepReceipt (hverified first hfirst)
  refine ⟨publicKeyHex, key, hkeyHex, hkey, ?_⟩
  intro raw hraw
  exact signed_of_verifyStepReceipt hkey hlength (hverified raw hraw)

theorem Agreeing.taken {result : SubmitResult} {stored : Option Text} (h : Agreeing env result stored) :
    Taken env 0 result.stepReceipts := by
  intro i raw hraw
  obtain ⟨record, hsaved, hexecution, -⟩ := h.read i raw hraw
  exact ⟨record, by rwa [Nat.zero_add], hexecution⟩

theorem Persisted.taken {s : TaskProofs}
    (h : Persisted scheme env raws s) : Taken env 0 raws := by
  intro i raw hraw
  obtain ⟨⟨record, hsaved, hexecution⟩, -⟩ := h.rows i raw hraw
  exact ⟨record, by rwa [Nat.zero_add], hexecution⟩

/-- The receipts of the steps are persisted all or not at all, each signed by the runtime of the task and linked to the
one before it, up to the receipt of the task, exactly when the answer is refused, or its receipts agree with each other
and with what the ledger reads. -/
theorem allOrNone_iff (scheme : SignatureScheme) (env : Surroundings) (result : SubmitResult) (s : TaskProofs) :
    AllOrNone scheme env result s (persistArtifacts scheme env result s) ↔
      accepts scheme env result = false ∨ Agreeing env result s.executionReceipt := by
  cases haccepts : accepts scheme env result with
  | false =>
    refine iff_of_true (.inl ⟨haccepts, ?_⟩) (.inl rfl)
    rw [persistArtifacts, haccepts]
    rfl
  | true =>
    have hpersist : result.stepReceipts ≠ [] → persistArtifacts scheme env result s =
        ⟨(nullIfEmpty result.executionReceipt).or s.executionReceipt,
          saveReceipts env 0 result.stepReceipts s.lineage⟩ := by
      intro hne
      rw [persistArtifacts, if_pos haccepts]
      dsimp only
      rw [if_neg hne]
    constructor
    · rintro (⟨hrefused, -⟩ | hall)
      · rw [haccepts] at hrefused
        cases hrefused
      · right
        obtain ⟨last, receipt, hlast, hstored, hsame⟩ := hall.head
        have hne : result.stepReceipts ≠ [] := by
          intro hnil
          rw [hnil] at hlast
          cases hlast
        rw [hpersist hne] at hall hstored
        refine ⟨⟨last, receipt, hlast, hstored, hsame⟩, hall.distinct, ?_⟩
        intro idx raw hraw
        obtain ⟨⟨record, hsaved, hexecution⟩, row, hrow, hhash, hprevious, -⟩ := hall.rows idx raw hraw
        obtain ⟨row', hrow', hof⟩ := get?_saveReceipts (t := s.lineage) hall.taken hall.distinct hraw
          (by rwa [Nat.zero_add])
        cases hrow'.symm.trans hrow
        exact ⟨record, hsaved, hexecution, hof.receiptHash.symm.trans hhash, hof.previousHash.symm.trans hprevious⟩
    rintro (hrefused | hagree)
    · cases hrefused
    right
    obtain ⟨last, receipt, hlast, hstored, hsame⟩ := hagree.head
    have hne : result.stepReceipts ≠ [] := by
      intro hnil
      rw [hnil] at hlast
      cases hlast
    obtain ⟨hsigned, hlinked⟩ := accepted_chain haccepts hne
    rw [hpersist hne]
    refine ⟨hsigned, hlinked, ⟨last, receipt, hlast, hstored, hsame⟩, hagree.distinct, ?_⟩
    intro idx raw hraw
    obtain ⟨record, hsaved, hexecution, hhash, hprevious⟩ := hagree.read idx raw hraw
    obtain ⟨row, hrow, hof⟩ := get?_saveReceipts (t := s.lineage) hagree.taken hagree.distinct hraw
      (by rwa [Nat.zero_add])
    refine ⟨⟨record, hsaved, hexecution⟩, row, hrow, hof.receiptHash.trans hhash,
      hof.previousHash.trans hprevious, ?_⟩
    rw [hof.tenantID, saved_tenantID hsaved]

def stepReceipt (executionID : String) : Text :=
  let fields := "\x7b\"execution_id\":\"" ++ executionID.toList ++ "\""
  let digest := receiptDigest (receiptOf (fields ++ "\x7d"))
  fields ++ ",\"hash\":\"" ++ Hex.encode digest ++ "\",\"signature\":\"" ++
    Base64.encode (echoScheme.sign () digest) ++ "\"\x7d"

def stepSurroundings : Surroundings where
  publicKeyHex := some (Hex.encode (echoScheme.publicKey ()))
  envelopeVerified _ _ _ := true
  args := sampleArgs
  now := 0
  artifactsFail := false
  lineageFails _ := false

def otherHead : SubmitResult := ⟨[], stepReceipt "exec-2", [stepReceipt "exec-1"]⟩

def noProofs : TaskProofs := ⟨none, .empty⟩

theorem other_head_persisted : ¬ AllOrNone echoScheme stepSurroundings otherHead noProofs
    (persistArtifacts echoScheme stepSurroundings otherHead noProofs) := by
  have haccepts : accepts echoScheme stepSurroundings otherHead = true := by decide +kernel
  have hdiffer : executionOf (stepReceipt "exec-2") ≠ executionOf (stepReceipt "exec-1") := by decide +kernel
  rintro (⟨hrefused, -⟩ | hall)
  · rw [haccepts] at hrefused
    cases hrefused
  obtain ⟨last, receipt, hlast, hstored, hsame⟩ := hall.head
  obtain rfl : stepReceipt "exec-1" = last := Option.some.inj hlast
  rw [persistArtifacts, if_pos haccepts] at hstored
  have hreceipt : nullIfEmpty (stepReceipt "exec-2") = some receipt := by
    simpa [otherHead, noProofs] using hstored
  rw [nullIfEmpty_of_ne (by decide +kernel)] at hreceipt
  cases hreceipt
  apply hdiffer
  rw [executionOf, executionOf, hsame]

end StepReceipts

end Overture
