import Overture.Api.EvidenceVerify

/-!
# Submitting evidence

The handler of `POST /v1/evidence/batches`, statement by statement, and the system in which any
number of such requests are interleaved.
-/

namespace Overture

open Json Interleave

structure EvidenceRequest where
  tenantID : Text
  body : List UInt8
  idempotencyKey : Text

inductive EvidenceResponse where
  | error (status : Nat) (code : String) (detail : Text)
  | chainMismatch (expected : Option Text)
  | batch (status : Nat) (response : BatchResponse)
  | replayed (status : Nat) (response : BatchResponse)

def EvidenceResponse.dbError : EvidenceResponse := .error 500 "db_error" []

abbrev EvidenceProg (α : Type) := Prog evidenceInterface EvidenceRequest α

structure ParsedKey where
  pub : List UInt8
  (fingerprint keyID : Text)

/-- `parseSDKPublicKey`, where `pemKey` reads the Ed25519 key of a SubjectPublicKeyInfo PEM. -/
def parseSDKPublicKey (pemKey : Text → Option (List UInt8)) (pemText : Text) : Option ParsedKey :=
  (pemKey pemText).map fun key =>
    let fingerprint := Hex.encode (Sha256.sum256 key)
    ⟨key, fingerprint, evidenceKeyPrefix ++ fingerprint.take 16⟩

structure SubmitContext where
  stream : StreamID
  submission : EvidenceSubmission
  key : ParsedKey
  idempotencyKey : Text

namespace SubmitContext

variable (ctx : SubmitContext)

def respondEvidenceBatch (record : EvidenceBatchRow) (created : Bool) (status : Nat) :
    EvidenceProg EvidenceResponse :=
  let response : BatchResponse := ⟨record, created, ctx.key.fingerprint⟩
  if ctx.idempotencyKey = [] then .ret (.batch status response)
  else
    (statement (.insertIdempotencyRecord
      ⟨ctx.stream, ctx.idempotencyKey, ctx.submission.contentHash, status, response⟩)).bind fun
        | .error () => .ret .dbError
        | .ok () => .ret (.batch status response)

def afterPersist : PersistResult → EvidenceProg EvidenceResponse
  | .stored record => ctx.respondEvidenceBatch record true 202
  | .raced =>
    (statement (.getEvidenceBatchByContent ctx.stream ctx.submission.contentHash)).bind fun
      | .ok (some record) => ctx.respondEvidenceBatch record false 200
      | _ => .ret .dbError
  | .chainHeadMismatch =>
    (statement (.currentEvidenceChainHead ctx.stream)).bind fun
      | .ok current => .ret (.chainMismatch current)
      | .error () => .ret .dbError
  | .signingKeyConflict =>
    .ret (.error 409 "signing_key_conflict"
      "this key_id is already registered for this tenant with a different public key")
  | .dbError => .ret .dbError

variable (scheme : SignatureScheme)

def verifyAndPersist : EvidenceProg EvidenceResponse :=
  (verifyEvidenceEvents scheme ctx.key.pub ctx.submission.keyID ctx.stream ctx.submission.events
    ctx.submission.firstPrev).bind fun
      | .error () => .ret .dbError
      | .ok (verified, issues) =>
        (statement (.persist ⟨ctx.stream, ctx.submission, ctx.key.fingerprint, verified, issues⟩)).bind
          ctx.afterPersist

def replayOrMismatch (expected : Option Text) : EvidenceProg EvidenceResponse :=
  (statement (.getEvidenceBatchByContent ctx.stream ctx.submission.contentHash)).bind fun
    | .error () => .ret .dbError
    | .ok (some raced) => ctx.respondEvidenceBatch raced false 200
    | .ok none => .ret (.chainMismatch expected)

def extendStream : EvidenceProg EvidenceResponse :=
  (statement (.currentEvidenceChainHead ctx.stream)).bind fun
    | .error () => .ret .dbError
    | .ok expected =>
      if ctx.submission.firstPrev = expected then ctx.verifyAndPersist scheme else ctx.replayOrMismatch expected

def replayOrExtend : EvidenceProg EvidenceResponse :=
  (statement (.getEvidenceBatchByContent ctx.stream ctx.submission.contentHash)).bind fun
    | .error () => .ret .dbError
    | .ok (some existing) => ctx.respondEvidenceBatch existing false 200
    | .ok none => ctx.extendStream scheme

def checkIdempotency : EvidenceProg EvidenceResponse :=
  if ctx.idempotencyKey = [] then ctx.replayOrExtend scheme
  else
    (statement (.getIdempotencyRecord ctx.stream ctx.idempotencyKey)).bind fun
      | .error () => .ret .dbError
      | .ok none => ctx.replayOrExtend scheme
      | .ok (some record) =>
        if record.requestFingerprint ≠ ctx.submission.contentHash then
          .ret (.error 409 "idempotency_key_conflict"
            "this Idempotency-Key was already used with a different evidence batch; use a new key")
        else .ret (.replayed record.responseStatus record.responseBody)

def checkKey : EvidenceProg EvidenceResponse :=
  (statement (.getSDKSigningKey ctx.stream)).bind fun
    | .error () => .ret .dbError
    | .ok existing =>
      if existing.any (fun key => key.fingerprint != ctx.key.fingerprint) then
        .ret (.error 409 "signing_key_conflict"
          "this key_id is already registered for this tenant with a different public key")
      else ctx.checkIdempotency scheme

end SubmitContext

def prepareSubmit (pemKey : Text → Option (List UInt8)) (req : EvidenceRequest) :
    Except EvidenceResponse SubmitContext :=
  let idempotencyKey := Text.trimSpace req.idempotencyKey
  if req.tenantID = [] then .error (.error 401 "unauthenticated" [])
  else if req.body.length > evidenceMaxBodyBytes then
    .error (.error 413 "payload_too_large" "request body exceeds 1 MiB")
  else if idempotencyKey ≠ [] ∧ contractIdempotencyKeyPattern idempotencyKey = false then
    .error (.error 422 "validation_failed" "Idempotency-Key must be 1-128 chars of [A-Za-z0-9._:-]")
  else
    match decodeEvidenceSubmission req.body with
    | .error e => .error (.error e.status e.code e.detail)
    | .ok submission =>
      match parseSDKPublicKey pemKey submission.publicKeyPEM with
      | none =>
        .error (.error 422 "validation_failed"
          "public_key_pem must be an Ed25519 SubjectPublicKeyInfo PEM")
      | some key =>
        if key.keyID ≠ submission.keyID then
          .error (.error 422 "validation_failed" "key_id does not match public_key_pem")
        else .ok ⟨(req.tenantID, submission.keyID), submission, key, idempotencyKey⟩

def handleEvidenceBatchSubmit (scheme : SignatureScheme) (pemKey : Text → Option (List UInt8))
    (req : EvidenceRequest) : EvidenceProg EvidenceResponse :=
  match prepareSubmit pemKey req with
  | .error response => .ret response
  | .ok ctx => ctx.checkKey scheme

def evidenceSystem (scheme : SignatureScheme) (pemKey : Text → Option (List UInt8)) :
    System evidenceInterface EvidenceRequest EvidenceResponse EvidenceDb where
  Choice := EvidenceChoice
  exec c _ o s := some (s.exec c o)
  body := handleEvidenceBatchSubmit scheme pemKey
  external _ := true
  forked _ _ _ s := s
  returned _ s := s
  Event := Empty
  env e := nomatch e

end Overture
