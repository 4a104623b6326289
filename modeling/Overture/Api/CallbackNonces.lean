import Overture.Lib.Utf8
import Overture.Lib.Uuid
import Overture.Lib.Sha256
import Overture.Lib.Signature
import Overture.Lib.Table
import Overture.Lib.Json.Integer
import Overture.Lib.Json.Struct
import Overture.Lib.Except

/-!
# Signed runtime callbacks

A runtime signs the envelope of a callback. An envelope is accepted when its timestamp is fresh, its signature holds
and its nonce could be stored; a cleanup deletes old nonces. Instants are in nanoseconds, the column `accepted_at` in
microseconds.
-/

namespace Overture

open Json Except Table List

def runtimeCallbackVersion : Text := "runtime_callback.v1"

def runtimeCallbackAlgorithm : Text := "ed25519-sha256-canonical-json"

def minute : Int := 60 * 10 ^ 9

def runtimeCallbackFreshness : Int := 5 * minute

def runtimeCallbackNonceRetention : Int := 24 * 60 * minute

structure CallbackEnvelope where
  version : Text := []
  tenantID : Text := []
  taskID : Text := []
  runtimeID : Text := []
  callbackType : Text := []
  bodyDigest : Text := []
  timestampUnixMs : Int := 0
  nonce : Text := []
  algorithm : Text := []
  signature : Text := []
deriving DecidableEq

def envelopeFieldDecoders : List (StructField CallbackEnvelope) :=
  [.of "version" (·.version) (fun e t => { e with version := t }) .text,
    .of "tenant_id" (·.tenantID) (fun e t => { e with tenantID := t }) .text,
    .of "task_id" (·.taskID) (fun e t => { e with taskID := t }) .text,
    .of "runtime_id" (·.runtimeID) (fun e t => { e with runtimeID := t }) .text,
    .of "callback_type" (·.callbackType) (fun e t => { e with callbackType := t }) .text,
    .of "body_digest" (·.bodyDigest) (fun e t => { e with bodyDigest := t }) .text,
    .of "timestamp_unix_ms" (·.timestampUnixMs) (fun e n => { e with timestampUnixMs := n }) (.int 64),
    .of "nonce" (·.nonce) (fun e t => { e with nonce := t }) .text,
    .of "algorithm" (·.algorithm) (fun e t => { e with algorithm := t }) .text,
    .of "signature" (·.signature) (fun e t => { e with signature := t }) .text]

def parseRuntimeCallbackEnvelope (raw : Text) : Option CallbackEnvelope :=
  let data :=
    if "\x7b".toList.isPrefixOf raw then some raw
    else
      ((Base64.decode false true raw).or
        ((Base64.decode false false raw).or (Base64.decode true false raw))).map Utf8.decodeLossy
  match data with
  | none => none
  | some text =>
    match unmarshal (Decoder.struct envelopeFieldDecoders) text {} with
    | (envelope, true) => some envelope
    | (_, false) => none

def canonicalRuntimeCallbackEnvelope (e : CallbackEnvelope) : Text :=
  (Value.object
    [("algorithm", .str (quote e.algorithm)), ("body_digest", .str (quote e.bodyDigest)),
      ("callback_type", .str (quote e.callbackType)), ("nonce", .str (quote e.nonce)),
      ("runtime_id", .str (quote e.runtimeID)), ("task_id", .str (quote e.taskID)),
      ("tenant_id", .str (quote e.tenantID)), ("timestamp_unix_ms", intValue e.timestampUnixMs),
      ("version", .str (quote e.version))]).print

/-! ## Validation -/

inductive CallbackType where
  | checkpoint
  | complete
  | failed
deriving DecidableEq

def CallbackType.toText : CallbackType → Text
  | .checkpoint => "checkpoint"
  | .complete => "complete"
  | .failed => "failed"

structure CallbackTask where
  taskID : Uuid
  runtimeID : Option Text

structure CallbackRequest where
  header : Text
  body : List UInt8
  tenantID : Text
  callbackType : CallbackType
  task : Option CallbackTask
  publicKey : Option Text

structure CallbackRejection where
  reason : String
  status : Nat := 403

def isBlank (t : Text) : Bool := (Text.trimSpace t).isEmpty

def runtimeCallbackMatchesTask (task : CallbackTask) (runtimeID : Text) : Bool :=
  match task.runtimeID with
  | none => true
  | some want =>
    isBlank want || isBlank runtimeID || decide (Text.trimSpace runtimeID = Text.trimSpace want)

def validateRuntimeCallbackTimestamp (timestampUnixMs now : Int) : Except CallbackRejection Unit :=
  if timestampUnixMs = 0 then .error ⟨"runtime callback timestamp missing", 403⟩
  else if timestampUnixMs * 10 ^ 6 < now - runtimeCallbackFreshness ∨
      now + runtimeCallbackFreshness < timestampUnixMs * 10 ^ 6 then
    .error ⟨"runtime callback timestamp outside freshness window", 403⟩
  else .ok ()

def verifyRuntimeCallbackSignature (scheme : SignatureScheme) (e : CallbackEnvelope) (publicKeyHex : Text) :
    Except CallbackRejection Unit :=
  match Hex.decode (Text.trimSpace publicKeyHex) with
  | none => .error ⟨"runtime callback public key invalid", 403⟩
  | some keyBytes =>
    if keyBytes.length ≠ 32 then .error ⟨"runtime callback public key invalid", 403⟩
    else
      match Base64.decode false true (Text.trimSpace e.signature) with
      | none => .error ⟨"runtime callback signature invalid", 403⟩
      | some signature =>
        if signature.length ≠ 64 then .error ⟨"runtime callback signature invalid", 403⟩
        else if isBlank e.signature then .error ⟨"runtime callback signature missing", 403⟩
        else
          let digest := Sha256.sum256 (Utf8.encode (canonicalRuntimeCallbackEnvelope e))
          if scheme.verify keyBytes digest signature then .ok ()
          else .error ⟨"runtime callback signature verification failed", 403⟩

def sha256Hex (body : List UInt8) : Text := Hex.encode (Sha256.sum256 body)

def require (condition : Bool) (reason : String) : Except CallbackRejection Unit :=
  if condition then .ok () else .error ⟨reason, 403⟩

def checkEnvelope (scheme : SignatureScheme) (request : CallbackRequest) (e : CallbackEnvelope) (now : Int) :
    Except CallbackRejection Unit := do
  require (e.version = runtimeCallbackVersion) "unsupported runtime callback envelope version"
  require (e.algorithm = runtimeCallbackAlgorithm) "unsupported runtime callback signature algorithm"
  require (e.tenantID = request.tenantID) "runtime callback tenant mismatch"
  require (request.task.any fun task => e.taskID = task.taskID.toText) "runtime callback task mismatch"
  require (e.callbackType = request.callbackType.toText) "runtime callback type mismatch"
  require (e.bodyDigest = sha256Hex request.body) "runtime callback body digest mismatch"
  require (!isBlank e.nonce) "runtime callback nonce missing"
  require (!isBlank e.runtimeID) "runtime callback runtime missing"
  require (request.task.all fun task => runtimeCallbackMatchesTask task e.runtimeID)
    "runtime callback identity does not match assigned task runtime"
  validateRuntimeCallbackTimestamp e.timestampUnixMs now
  match request.publicKey with
  | none => .error ⟨"runtime callback public key unavailable", 403⟩
  | some publicKeyHex =>
    require (!isBlank publicKeyHex) "runtime callback public key unavailable"
    verifyRuntimeCallbackSignature scheme e publicKeyHex

/-! ## Nonces -/

structure NonceRow where
  tenantID : Text
  taskID : Uuid
  (runtimeID callbackType nonce bodyDigest : Text)
  (timestampUnixMs acceptedAt : Int)

def NonceRow.key (row : NonceRow) : Text × Text × Text := (row.tenantID, row.runtimeID, row.nonce)

abbrev Nonces := Table NonceRow.key

def CallbackEnvelope.nonceKey (e : CallbackEnvelope) : Text × Text × Text := (e.tenantID, e.runtimeID, e.nonce)

inductive InsertFate where
  | answered
  | failed
  | lost

def reserveRuntimeCallbackNonce (e : CallbackEnvelope) (at' : Int) (fate : InsertFate) (nonces : Nonces) :
    Option String × Nonces :=
  match Uuid.parse e.taskID with
  | none => (some "runtime callback task id invalid", nonces)
  | some taskID =>
    let row : NonceRow :=
      { tenantID := e.tenantID
        taskID := taskID
        runtimeID := e.runtimeID
        callbackType := e.callbackType
        nonce := e.nonce
        bodyDigest := e.bodyDigest
        timestampUnixMs := e.timestampUnixMs
        acceptedAt := at' / 1000 }
    match fate with
    | .failed => (some "runtime callback replay store failed", nonces)
    | .lost => (some "runtime callback replay store failed", nonces.putNew row)
    | .answered =>
      if (nonces.get? e.nonceKey).isSome then (some "runtime callback replay detected", nonces)
      else (none, nonces.putNew row)

inductive CallbackVerdict where
  | unsigned
  | accepted (e : CallbackEnvelope)
  | rejected (rejection : CallbackRejection)

def validateRuntimeCallback (scheme : SignatureScheme) (allowUnsigned : Bool) (request : CallbackRequest)
    (now at' : Int) (fate : InsertFate) (nonces : Nonces) : CallbackVerdict × Nonces :=
  let rawEnvelope := Text.trimSpace request.header
  if rawEnvelope.isEmpty then
    if allowUnsigned then (.unsigned, nonces)
    else (.rejected ⟨"missing runtime callback envelope", 403⟩, nonces)
  else
    match parseRuntimeCallbackEnvelope rawEnvelope with
    | none => (.rejected ⟨"malformed runtime callback envelope", 400⟩, nonces)
    | some e =>
      match checkEnvelope scheme request e now with
      | .error rejection => (.rejected rejection, nonces)
      | .ok () =>
        match reserveRuntimeCallbackNonce e at' fate nonces with
        | (some reason, after) => (.rejected ⟨reason, 403⟩, after)
        | (none, after) => (.accepted e, after)

def cleanupRetention (retention : Int) : Int :=
  let retention := if retention ≤ 0 then runtimeCallbackNonceRetention else retention
  if retention < runtimeCallbackFreshness then runtimeCallbackFreshness else retention

def toMicros (n : Int) : Int := (n + 500) / 1000

def cleanupExpiredRuntimeCallbackNonces (retention now : Int) (nonces : Nonces) : Nonces :=
  nonces.keep fun row => !decide (row.acceptedAt < toMicros (now - cleanupRetention retention))

inductive CallbackEvent where
  | arrival (request : CallbackRequest) (now at' : Int) (fate : InsertFate)
  | cleanup (now : Int) (fails : Bool)

namespace CallbackEvent

def start : CallbackEvent → Int
  | arrival _ now _ _ => now
  | cleanup now _ => now

def finish : CallbackEvent → Int
  | arrival _ _ at' _ => at'
  | cleanup now _ => now

end CallbackEvent

structure CallbackState where
  clock : Int
  nonces : Nonces
  accepted : List CallbackEnvelope

namespace CallbackState

def initial (clock : Int) : CallbackState := ⟨clock, Table.empty, []⟩

def Stored (s : CallbackState) (e : CallbackEnvelope) : Prop := (s.nonces.get? e.nonceKey).isSome = true

def Fresh (e : CallbackEnvelope) (now : Int) : Prop :=
  validateRuntimeCallbackTimestamp e.timestampUnixMs now = .ok ()

section

variable (scheme : SignatureScheme) (allowUnsigned : Bool) (retention : Int)

def step (s : CallbackState) : CallbackEvent → CallbackState
  | .arrival request now at' fate =>
    match validateRuntimeCallback scheme allowUnsigned request now at' fate s.nonces with
    | (.accepted e, after) => ⟨at', after, e :: s.accepted⟩
    | (_, after) => ⟨at', after, s.accepted⟩
  | .cleanup now fails =>
    ⟨now, if fails then s.nonces else cleanupExpiredRuntimeCallbackNonces retention now s.nonces, s.accepted⟩

inductive Reachable : CallbackState → Prop
  | initial (clock : Int) : Reachable (initial clock)
  | step {s : CallbackState} (event : CallbackEvent) : Reachable s → s.clock ≤ event.start →
    event.start ≤ event.finish → Reachable (s.step scheme allowUnsigned retention event)

/-- No envelope is accepted twice, and an accepted one has its nonce stored for as long as it is fresh. -/
def ReplayProtected : Prop :=
  ∀ s, Reachable scheme allowUnsigned retention s →
    s.accepted.Nodup ∧ ∀ e ∈ s.accepted, ∀ now, s.clock ≤ now → Fresh e now → s.Stored e

end

variable {e : CallbackEnvelope} {now at' : Int}

theorem fresh_iff :
    Fresh e now ↔ e.timestampUnixMs ≠ 0 ∧ now - runtimeCallbackFreshness ≤ e.timestampUnixMs * 10 ^ 6 ∧
      e.timestampUnixMs * 10 ^ 6 ≤ now + runtimeCallbackFreshness := by
  unfold Fresh validateRuntimeCallbackTimestamp
  split_ifs with hzero hrange
  · simp [hzero]
  · simp only [false_iff]
    omega
  · simp only [true_iff]
    omega

theorem fresh_of_checkEnvelope {scheme : SignatureScheme} {request : CallbackRequest}
    (h : checkEnvelope scheme request e now = .ok ()) : Fresh e now := by
  unfold checkEnvelope at h
  -- nine checks stand before that of the timestamp
  have h₁ := (ok_of_bind_ok h).2
  have h₂ := (ok_of_bind_ok (ok_of_bind_ok h₁).2).2
  have h₃ := (ok_of_bind_ok (ok_of_bind_ok h₂).2).2
  have h₄ := (ok_of_bind_ok (ok_of_bind_ok h₃).2).2
  have h₅ := (ok_of_bind_ok (ok_of_bind_ok h₄).2).2
  exact (ok_of_bind_ok h₅).1

structure RowFor (e : CallbackEnvelope) (at' : Int) (row : NonceRow) : Prop where
  key : row.key = e.nonceKey
  timestamp : row.timestampUnixMs = e.timestampUnixMs
  acceptedAt : row.acceptedAt = at' / 1000

theorem reserve_cases {fate : InsertFate} {nonces after : Nonces}
    {refusal : Option String} (h : reserveRuntimeCallbackNonce e at' fate nonces = (refusal, after)) :
    (after = nonces ∧ refusal.isSome = true) ∨
      ∃ row, RowFor e at' row ∧ after = nonces.putNew row ∧ (refusal = none → nonces.get? e.nonceKey = none) := by
  unfold reserveRuntimeCallbackNonce at h
  split at h
  · cases h
    exact .inl ⟨rfl, rfl⟩
  next taskID _ =>
  cases fate with
  | failed =>
    cases h
    exact .inl ⟨rfl, rfl⟩
  | lost =>
    cases h
    exact .inr ⟨_, ⟨rfl, rfl, rfl⟩, rfl, by simp⟩
  | answered =>
    dsimp only at h
    split_ifs at h with hstored
    · cases h
      exact .inl ⟨rfl, rfl⟩
    · cases h
      exact .inr ⟨_, ⟨rfl, rfl, rfl⟩, rfl, fun _ => by simpa using hstored⟩

theorem validate_cases {scheme : SignatureScheme} {allowUnsigned : Bool} {request : CallbackRequest}
    {fate : InsertFate} {nonces after : Nonces} {verdict : CallbackVerdict}
    (h : validateRuntimeCallback scheme allowUnsigned request now at' fate nonces = (verdict, after)) :
    (after = nonces ∧ ∀ e, verdict ≠ .accepted e) ∨
      ∃ e row, Fresh e now ∧ RowFor e at' row ∧ after = nonces.putNew row ∧
        (∀ e', verdict = .accepted e' → e' = e ∧ nonces.get? e.nonceKey = none) := by
  unfold validateRuntimeCallback at h
  dsimp only at h
  split_ifs at h
  · cases h
    exact .inl ⟨rfl, by simp⟩
  · cases h
    exact .inl ⟨rfl, by simp⟩
  split at h
  · cases h
    exact .inl ⟨rfl, by simp⟩
  next e _ =>
  split at h
  · cases h
    exact .inl ⟨rfl, by simp⟩
  next hcheck =>
  have hfresh := fresh_of_checkEnvelope hcheck
  split at h
  · next reason after' hreserve =>
    cases h
    rcases reserve_cases hreserve with ⟨rfl, -⟩ | ⟨row, hrow, rfl, -⟩
    · exact .inl ⟨rfl, by simp⟩
    · exact .inr ⟨e, row, hfresh, hrow, rfl, by simp⟩
  next after' hreserve =>
  cases h
  rcases reserve_cases hreserve with ⟨-, hsome⟩ | ⟨row, hrow, rfl, hfree⟩
  · cases hsome
  refine .inr ⟨e, row, hfresh, hrow, rfl, ?_⟩
  rintro e' he'
  obtain rfl := CallbackVerdict.accepted.inj he'
  exact ⟨rfl, hfree rfl⟩

structure Guarded (s : CallbackState) : Prop where
  row_time : ∀ row ∈ s.nonces.rows, row.timestampUnixMs * 1000 ≤ row.acceptedAt + runtimeCallbackFreshness / 1000
  covered : ∀ e ∈ s.accepted,
    (∃ row, s.nonces.get? e.nonceKey = some row ∧ row.timestampUnixMs = e.timestampUnixMs) ∨
      e.timestampUnixMs * 10 ^ 6 + runtimeCallbackFreshness < s.clock
  nodup : s.accepted.Nodup

theorem guarded_initial (clock : Int) : Guarded (initial clock) where
  row_time := by simp [initial, empty]
  covered := by simp [initial]
  nodup := nodup_nil

theorem row_time_of_fresh {row : NonceRow} (hfresh : Fresh e now)
    (hrow : RowFor e at' row) (hle : now ≤ at') :
    row.timestampUnixMs * 1000 ≤ row.acceptedAt + runtimeCallbackFreshness / 1000 := by
  obtain ⟨-, -, hupper⟩ := fresh_iff.mp hfresh
  rw [hrow.timestamp, hrow.acceptedAt]
  simp only [runtimeCallbackFreshness, minute] at hupper ⊢
  omega

variable {scheme : SignatureScheme} {allowUnsigned : Bool} {retention : Int}

variable {s : CallbackState} {now : Int}

theorem Guarded.reserve (h : s.Guarded) {e : CallbackEnvelope} {at' : Int} {row : NonceRow}
    (hfresh : Fresh e now) (hrow : RowFor e at' row) (hclock : s.clock ≤ at') (hle : now ≤ at') :
    Guarded ⟨at', s.nonces.putNew row, s.accepted⟩ := by
  refine ⟨?_, ?_, h.nodup⟩
  · intro r hr
    rcases mem_putNew hr with rfl | hr
    · exact row_time_of_fresh hfresh hrow hle
    · exact h.row_time r hr
  intro x hx
  rcases h.covered x hx with ⟨r, hr, htime⟩ | hstale
  · refine .inl ⟨r, ?_, htime⟩
    rw [get?_putNew, hr, Option.some_or]
  · exact .inr (hstale.trans_le hclock)

theorem Guarded.arrival (h : s.Guarded) {request : CallbackRequest} {at' : Int}
    (fate : InsertFate) (hclock : s.clock ≤ now) (hle : now ≤ at') :
    (s.step scheme allowUnsigned retention (.arrival request now at' fate)).Guarded := by
  have hat := hclock.trans hle
  rw [step]
  split
  · next e after hverdict =>
    rcases validate_cases hverdict with ⟨-, hnot⟩ | ⟨e', row, hfresh, hrow, rfl, haccepted⟩
    · exact absurd rfl (hnot e)
    obtain ⟨rfl, hfree⟩ := haccepted e rfl
    obtain ⟨htimes, hcovered, -⟩ := h.reserve hfresh hrow hat hle
    refine ⟨htimes, ?_, nodup_cons.mpr ⟨?_, h.nodup⟩⟩
    · intro x hx
      rcases mem_cons.mp hx with rfl | hx
      · refine .inl ⟨row, ?_, hrow.timestamp⟩
        rw [get?_putNew, hfree, Option.none_or, if_pos hrow.key]
      · exact hcovered x hx
    -- an envelope accepted before would have its nonce stored or be stale
    intro hmem
    rcases h.covered e hmem with ⟨r, hr, -⟩ | hstale
    · rw [hfree] at hr
      cases hr
    · obtain ⟨-, hlower, -⟩ := fresh_iff.mp hfresh
      omega
  next verdict after hnot hverdict =>
  rcases validate_cases hverdict with ⟨rfl, -⟩ | ⟨e', row, hfresh, hrow, rfl, -⟩
  · refine ⟨h.row_time, ?_, h.nodup⟩
    intro x hx
    exact (h.covered x hx).imp id fun hstale => hstale.trans_le hat
  · exact h.reserve hfresh hrow hat hle

theorem stale_of_deleted {retention : Int} {row : NonceRow}
    (hkeep : 2 * runtimeCallbackFreshness < cleanupRetention retention + 500)
    (hrow : row.timestampUnixMs * 1000 ≤ row.acceptedAt + runtimeCallbackFreshness / 1000)
    (hdeleted : row.acceptedAt < toMicros (now - cleanupRetention retention)) :
    row.timestampUnixMs * 10 ^ 6 + runtimeCallbackFreshness < now := by
  generalize cleanupRetention retention = kept at hkeep hdeleted
  simp only [toMicros, runtimeCallbackFreshness, minute] at *
  omega

theorem Guarded.cleanup (h : s.Guarded) (fails : Bool) (hclock : s.clock ≤ now)
    (hkeep : 2 * runtimeCallbackFreshness < cleanupRetention retention + 500) :
    (s.step scheme allowUnsigned retention (.cleanup now fails)).Guarded := by
  cases fails with
  | true =>
    refine ⟨h.row_time, ?_, h.nodup⟩
    intro e he
    rcases h.covered e he with hrow | hstale
    · exact .inl hrow
    · exact .inr (hstale.trans_le hclock)
  | false =>
    refine ⟨?_, ?_, h.nodup⟩
    · intro row hrow
      exact h.row_time row (mem_of_mem_filter hrow)
    intro e he
    rcases h.covered e he with ⟨row, hrow, htime⟩ | hstale
    · by_cases hdeleted : row.acceptedAt < toMicros (now - cleanupRetention retention)
      · have hmem := mem_of_get? hrow
        rw [← htime]
        exact .inr (stale_of_deleted hkeep (h.row_time row hmem) hdeleted)
      · refine .inl ⟨row, ?_, htime⟩
        exact get?_keep.mpr ⟨hrow, by simp [hdeleted]⟩
    · exact .inr (hstale.trans_le hclock)

theorem Reachable.guarded (hkeep : 2 * runtimeCallbackFreshness < cleanupRetention retention + 500)
    (h : Reachable scheme allowUnsigned retention s) : s.Guarded := by
  induction h with
  | initial clock => exact guarded_initial clock
  | step event _ hclock hle ih =>
    cases event with
    | arrival request now at' fate => exact ih.arrival fate hclock hle
    | cleanup now fails => exact ih.cleanup fails hclock hkeep

theorem Guarded.protected (h : s.Guarded) :
    s.accepted.Nodup ∧ ∀ e ∈ s.accepted, ∀ now, s.clock ≤ now → Fresh e now → s.Stored e := by
  refine ⟨h.nodup, ?_⟩
  intro e he now hnow hfresh
  rcases h.covered e he with ⟨row, hrow, -⟩ | hstale
  · simp [Stored, hrow]
  obtain ⟨-, hlower, -⟩ := fresh_iff.mp hfresh
  omega

/-! ## An envelope dated ahead -/

def envelopeHeader (e : CallbackEnvelope) : Text :=
  (Value.object
    [("version", .str (quote e.version)), ("tenant_id", .str (quote e.tenantID)),
      ("task_id", .str (quote e.taskID)), ("runtime_id", .str (quote e.runtimeID)),
      ("callback_type", .str (quote e.callbackType)), ("body_digest", .str (quote e.bodyDigest)),
      ("timestamp_unix_ms", intValue e.timestampUnixMs), ("nonce", .str (quote e.nonce)),
      ("algorithm", .str (quote e.algorithm)), ("signature", .str (quote e.signature))]).print

theorem parse_envelopeHeader {e : CallbackEnvelope} (hlo : -2 ^ 63 ≤ e.timestampUnixMs)
    (hhi : e.timestampUnixMs < 2 ^ 63) : parseRuntimeCallbackEnvelope (envelopeHeader e) = some e := by
  have hnum (old : Int) : Decoder.int 64 (intValue e.timestampUnixMs) old = (e.timestampUnixMs, true) := by
    have hint : parseInt 64 (intLiteral e.timestampUnixMs) = some e.timestampUnixMs :=
      parseInt_intLiteral (by decide) hlo hhi
    simp only [Decoder.int, intValue, hint]
  unfold parseRuntimeCallbackEnvelope envelopeHeader
  rw [if_pos (by rfl)]
  dsimp only
  rw [unmarshal, parse_print]
  · dsimp only
    rw [struct_object]
    simp only [foldl_cons, foldl_nil]
    rw [decodeNamed_of "version" _ _ rfl, decodeNamed_of "tenant_id" _ _ rfl,
      decodeNamed_of "task_id" _ _ rfl, decodeNamed_of "runtime_id" _ _ rfl,
      decodeNamed_of "callback_type" _ _ rfl, decodeNamed_of "body_digest" _ _ rfl,
      decodeNamed_of "timestamp_unix_ms" _ _ rfl, decodeNamed_of "nonce" _ _ rfl,
      decodeNamed_of "algorithm" _ _ rfl, decodeNamed_of "signature" _ _ rfl]
    simp only [StructField.of, text_quote, hnum, Bool.and_self]
  · apply Value.object_wf
    intro m hm
    simp only [mem_cons, not_mem_nil, or_false] at hm
    rcases hm with rfl | rfl | rfl | rfl | rfl | rfl | rfl | rfl | rfl | rfl
    all_goals first | exact isRaw_quote _ | exact isNumber_intLiteral _
  · refine (Value.object_depth fun m hm => ?_).trans (by decide : 0 + 1 ≤ maxNestingDepth)
    simp only [mem_cons, not_mem_nil, or_false] at hm
    rcases hm with rfl | rfl | rfl | rfl | rfl | rfl | rfl | rfl | rfl | rfl
    all_goals exact le_rfl

variable (scheme : SignatureScheme) (allowUnsigned : Bool)

def signed (e : CallbackEnvelope) : CallbackEnvelope :=
  { e with
    signature := Base64.encode (scheme.sign scheme.secret
      (Sha256.sum256 (Utf8.encode (canonicalRuntimeCallbackEnvelope e)))) }

def registeredKey (scheme : SignatureScheme) : Text := Hex.encode (scheme.publicKey scheme.secret)

theorem trimSpace_hex (bytes : List UInt8) : Text.trimSpace (Hex.encode bytes) = Hex.encode bytes := by
  apply Text.trimSpace_of_clean
  intro c hc
  obtain ⟨d, hd, rfl⟩ := Hex.mem_encode hc
  exact Hex.isSpace_char hd

theorem trimSpace_base64 (bytes : List UInt8) : Text.trimSpace (Base64.encode bytes) = Base64.encode bytes := by
  apply Text.trimSpace_of_clean
  intro c hc
  rcases Base64.mem_encode hc with rfl | ⟨n, hn, rfl⟩
  · decide
  · exact Base64.isSpace_char hn

theorem verify_signed (e : CallbackEnvelope) :
    verifyRuntimeCallbackSignature scheme (signed scheme e) (registeredKey scheme) = .ok () := by
  have hcanonical : canonicalRuntimeCallbackEnvelope (signed scheme e) = canonicalRuntimeCallbackEnvelope e := rfl
  have hblank : isBlank (signed scheme e).signature = false := by
    rw [isBlank, signed, trimSpace_base64, Bool.eq_false_iff]
    intro hempty
    have hdecoded := Base64.decode_encode (scheme.sign scheme.secret
      (Sha256.sum256 (Utf8.encode (canonicalRuntimeCallbackEnvelope e))))
    rw [isEmpty_iff.mp hempty] at hdecoded
    have hlen := congrArg length (Option.some_inj.mp hdecoded)
    rw [scheme.length_sign] at hlen
    cases hlen
  unfold verifyRuntimeCallbackSignature
  rw [registeredKey, trimSpace_hex, Hex.decode_encode]
  dsimp only
  rw [if_neg (by simp [scheme.length_publicKey]), hblank, hcanonical]
  rw [signed, trimSpace_base64, Base64.decode_encode]
  dsimp only
  rw [if_neg (by simp [scheme.length_sign]), if_neg Bool.false_ne_true, scheme.verify_sign, if_pos rfl]

def completion (scheme : SignatureScheme) : CallbackEnvelope :=
  signed scheme
    { version := runtimeCallbackVersion
      tenantID := "acme"
      taskID := Uuid.nil.toText
      runtimeID := "runtime-1"
      callbackType := CallbackType.complete.toText
      bodyDigest := sha256Hex []
      timestampUnixMs := 1700000000000
      nonce := "n"
      algorithm := runtimeCallbackAlgorithm }

def completionRequest (scheme : SignatureScheme) : CallbackRequest where
  header := envelopeHeader (completion scheme)
  body := []
  tenantID := "acme"
  callbackType := .complete
  task := some ⟨Uuid.nil, none⟩
  publicKey := some (registeredKey scheme)

theorem require_of {condition : Bool} (h : condition = true) (reason : String) : require condition reason = .ok () := by
  rw [require, if_pos h]

theorem checkEnvelope_completion (hfresh : Fresh (completion scheme) now) :
    checkEnvelope scheme (completionRequest scheme) (completion scheme) now = .ok () := by
  have hkey : (!isBlank (registeredKey scheme)) = true := by
    have hlen : (scheme.publicKey scheme.secret).length = 32 := scheme.length_publicKey _
    cases hbytes : scheme.publicKey scheme.secret with
    | nil => simp [hbytes] at hlen
    | cons b rest =>
      rw [isBlank, registeredKey, trimSpace_hex, hbytes]
      rfl
  unfold checkEnvelope
  refine bind_ok (require_of (decide_eq_true rfl) _) (bind_ok (require_of (decide_eq_true rfl) _)
    (bind_ok (require_of (decide_eq_true rfl) _) (bind_ok (require_of ?_ _)
      (bind_ok (require_of (decide_eq_true rfl) _) (bind_ok (require_of (decide_eq_true rfl) _)
        (bind_ok (require_of ?_ _) (bind_ok (require_of ?_ _) (bind_ok (require_of rfl _)
          (bind_ok hfresh (bind_ok (require_of hkey _) (verify_signed scheme _)))))))))))
  · change decide (Uuid.nil.toText = Uuid.nil.toText) = true
    exact decide_eq_true rfl
  · change (!isBlank "n") = true
    decide
  · change (!isBlank "runtime-1") = true
    decide

theorem accept_completion (retention : Int) (s : CallbackState)
    (hfresh : Fresh (completion scheme) now)
    (hfree : s.nonces.get? (completion scheme).nonceKey = none) :
    ∃ row, RowFor (completion scheme) now row ∧
      s.step scheme allowUnsigned retention (.arrival (completionRequest scheme) now now .answered) =
        ⟨now, s.nonces.putNew row, completion scheme :: s.accepted⟩ := by
  have htrim : Text.trimSpace (completionRequest scheme).header = envelopeHeader (completion scheme) := by
    obtain ⟨t, ht⟩ : ∃ t, envelopeHeader (completion scheme) = '\x7b' :: (t ++ ['\x7d']) := Value.print_object _
    change Text.trimSpace (envelopeHeader (completion scheme)) = _
    rw [ht]
    exact Text.trimSpace_between (by decide) (by decide) t
  have hparse : parseRuntimeCallbackEnvelope (envelopeHeader (completion scheme)) = some (completion scheme) := by
    apply parse_envelopeHeader
    · change (-2 ^ 63 : Int) ≤ 1700000000000
      decide
    · change (1700000000000 : Int) < 2 ^ 63
      decide
  have hreserve : ∃ row, RowFor (completion scheme) now row ∧
      reserveRuntimeCallbackNonce (completion scheme) now .answered s.nonces = (none, s.nonces.putNew row) := by
    unfold reserveRuntimeCallbackNonce
    have htask : Uuid.parse (completion scheme).taskID = some Uuid.nil := Uuid.parse_toText Uuid.nil
    rw [htask]
    dsimp only
    rw [hfree, if_neg (by simp)]
    exact ⟨_, ⟨rfl, rfl, rfl⟩, rfl⟩
  obtain ⟨row, hrow, hreserve⟩ := hreserve
  refine ⟨row, hrow, ?_⟩
  have hvalidate : validateRuntimeCallback scheme allowUnsigned (completionRequest scheme) now now .answered s.nonces =
      (.accepted (completion scheme), s.nonces.putNew row) := by
    unfold validateRuntimeCallback
    dsimp only
    rw [htrim, if_neg (by rw [envelopeHeader]; exact Bool.false_ne_true), hparse]
    dsimp only
    rw [checkEnvelope_completion scheme hfresh]
    dsimp only
    rw [hreserve]
  rw [step, hvalidate]

theorem nonce_deleted {retention : Int}
    (hshort : cleanupRetention retention + 500 ≤ 2 * runtimeCallbackFreshness) :
    ∃ s, Reachable scheme allowUnsigned retention s ∧ s.accepted = [completion scheme] ∧
      Fresh (completion scheme) s.clock ∧ s.nonces.get? (completion scheme).nonceKey = none := by
  have hdate : (completion scheme).timestampUnixMs = 1700000000000 := rfl
  have hearly : Fresh (completion scheme) (1700000000000 * 10 ^ 6 - runtimeCallbackFreshness) := by
    rw [fresh_iff, hdate]
    simp only [runtimeCallbackFreshness, minute]
    omega
  have hlate : Fresh (completion scheme) (1700000000000 * 10 ^ 6 + runtimeCallbackFreshness) := by
    rw [fresh_iff, hdate]
    simp only [runtimeCallbackFreshness, minute]
    omega
  generalize hearlyAt : 1700000000000 * 10 ^ 6 - runtimeCallbackFreshness = early at hearly
  generalize hlateAt : 1700000000000 * 10 ^ 6 + runtimeCallbackFreshness = late at hlate
  have hle : early ≤ late := by
    rw [← hearlyAt, ← hlateAt]
    decide
  obtain ⟨row, hrow, hstep⟩ := accept_completion scheme allowUnsigned retention (initial early) hearly rfl
  have hfirst : Reachable scheme allowUnsigned retention ((initial early).step scheme allowUnsigned retention
      (.arrival (completionRequest scheme) early early .answered)) :=
    .step _ (.initial early) le_rfl le_rfl
  rw [hstep] at hfirst
  refine ⟨_, hfirst.step (.cleanup late false) hle le_rfl, rfl, hlate, ?_⟩
  change ((empty.putNew row).keep _).get? _ = none
  rw [Option.eq_none_iff_forall_ne_some]
  intro r hr
  obtain ⟨hmem, hkept⟩ := get?_keep.mp hr
  rw [get?_putNew, if_pos hrow.key] at hmem
  cases hmem
  -- the row is older than the cutoff
  have hold : row.acceptedAt < toMicros (late - cleanupRetention retention) := by
    rw [hrow.acceptedAt, ← hearlyAt, ← hlateAt]
    generalize cleanupRetention retention = kept at hshort
    simp only [toMicros, runtimeCallbackFreshness, minute] at hshort ⊢
    omega
  simp [hold] at hkept

/-- Envelopes are accepted once exactly when nonces outlive both sides of the freshness window. -/
theorem replayProtected_iff (retention : Int) :
    ReplayProtected scheme allowUnsigned retention ↔
      2 * runtimeCallbackFreshness < cleanupRetention retention + 500 := by
  constructor
  · intro hprotected
    by_contra hshort
    obtain ⟨s, hs, haccepted, hfresh, hfree⟩ := nonce_deleted scheme allowUnsigned (not_lt.mp hshort)
    have hstored := (hprotected s hs).2 (completion scheme) (by simp [haccepted]) s.clock le_rfl hfresh
    rw [Stored, hfree] at hstored
    cases hstored
  · intro hkeep s hs
    exact (hs.guarded hkeep).protected

/-- With a retention of five minutes one envelope is accepted twice. -/
theorem envelope_accepted_twice :
    (∃ s, Reachable echoScheme false (5 * minute) s ∧ s.accepted = [completion echoScheme, completion echoScheme]) ∧
      ¬ReplayProtected echoScheme false (5 * minute) := by
  have hshort : cleanupRetention (5 * minute) + 500 ≤ 2 * runtimeCallbackFreshness := by decide
  obtain ⟨s, hs, haccepted, hfresh, hfree⟩ := nonce_deleted echoScheme false hshort
  obtain ⟨row, -, hstep⟩ := accept_completion echoScheme false (5 * minute) s hfresh hfree
  have hagain := hs.step (.arrival (completionRequest echoScheme) s.clock s.clock .answered) le_rfl le_rfl
  rw [hstep, haccepted] at hagain
  refine ⟨⟨_, hagain, rfl⟩, ?_⟩
  intro hprotected
  have hnodup := (hprotected _ hagain).1
  simp at hnodup

end CallbackState

end Overture
