import Overture.Lib.Interleave
import Overture.Lib.Table
import Overture.Api.EvidenceSubmission

/-!
# The tables of evidence

The four tables of embedded evidence with their unique indexes, and the statements of the store. A read is one atomic
step, and so is the transaction that stores a batch: an insert waits for a transaction that holds one of its index
entries. A statement that reports an error had no effect, or a commit went through and only the answer was lost.
-/

namespace Overture

open Json Interleave

/-! ## Rows -/

abbrev StreamID := Text × Text

structure SigningKeyRow where
  stream : StreamID
  (publicKeyPEM fingerprint : Text)

/-- The state `received` is admitted by the table and never written. -/
inductive EvidenceState where
  | verified
  | rejected
deriving DecidableEq

structure EvidenceBatchRow where
  id : Text
  stream : StreamID
  evidenceState : EvidenceState
  contentHash : Text
  (firstPreviousEventHash chainHead : Option Text)
  (eventsAccepted eventsVerified : Nat)
  receivedAt : Int
  verifiedAt : Option Int
  verificationErrorCode : Option EvidenceIssueCode
  issues : List EvidenceIssue
deriving DecidableEq

structure VerifiedEvidenceEvent where
  event : EvidenceEvent
  (eventHash eventID : Text)
  eventType : EvidenceEventType
  (actionName contractHash : Text)
  previousEventHash : Option Text
  timestampUTC : Int
deriving DecidableEq

structure EvidenceEventRow extends VerifiedEvidenceEvent where
  stream : StreamID
  batchID : Text
deriving DecidableEq

def EvidenceEventRow.key (r : EvidenceEventRow) : StreamID × Text := (r.stream, r.eventHash)

structure BatchResponse where
  record : EvidenceBatchRow
  created : Bool
  fingerprint : Text

structure IdempotencyRow where
  stream : StreamID
  (idempotencyKey requestFingerprint : Text)
  responseStatus : Nat
  responseBody : BatchResponse

def IdempotencyRow.key (r : IdempotencyRow) : StreamID × Text := (r.stream, r.idempotencyKey)

namespace EvidenceBatchRow

def isVerified (r : EvidenceBatchRow) : Bool := r.evidenceState == .verified

def contentKey (r : EvidenceBatchRow) : StreamID × Text := (r.stream, r.contentHash)

/-- The entry of the index `sdk_evidence_batches_chain_slot_idx`. -/
def slot (r : EvidenceBatchRow) : StreamID × Text := (r.stream, r.firstPreviousEventHash.getD "genesis")

end EvidenceBatchRow

/-! ## Tables -/

/-- The table `sdk_evidence_batches`: its primary key and its two unique indexes, the second one over the
verified batches only. -/
structure EvidenceBatches where
  rows : List EvidenceBatchRow
  nodup_id : (rows.map EvidenceBatchRow.id).Nodup
  nodup_content : (rows.map EvidenceBatchRow.contentKey).Nodup
  nodup_slot : ((rows.filter EvidenceBatchRow.isVerified).map EvidenceBatchRow.slot).Nodup

namespace EvidenceBatches

def empty : EvidenceBatches := ⟨[], by simp, by simp, by simp⟩

inductive Inserted where
  | added (t : EvidenceBatches)
  | contentTaken
  | slotTaken
  | failed

def slots (t : EvidenceBatches) : List (StreamID × Text) :=
  (t.rows.filter EvidenceBatchRow.isVerified).map EvidenceBatchRow.slot

def insert (row : EvidenceBatchRow) (t : EvidenceBatches) : Inserted :=
  if hcontent : row.contentKey ∈ t.rows.map EvidenceBatchRow.contentKey then .contentTaken
  else if hid : row.id ∈ t.rows.map EvidenceBatchRow.id then .failed
  else if hslot : row.isVerified = true ∧ row.slot ∈ t.slots then .slotTaken
  else
    .added {
      rows := t.rows ++ [row]
      nodup_id := by
        simpa using t.nodup_id.concat hid
      nodup_content := by
        simpa using t.nodup_content.concat hcontent
      nodup_slot := by
        rw [List.filter_append, List.map_append]
        cases hv : row.isVerified with
        | false => simpa [hv] using t.nodup_slot
        | true => simpa [hv, slots] using t.nodup_slot.concat fun h => hslot ⟨hv, h⟩ }

theorem insert_cases {row : EvidenceBatchRow} {t t' : EvidenceBatches} (h : t.insert row = .added t') :
    t'.rows = t.rows ++ [row] ∧ (row.isVerified = true → row.slot ∉ t.slots) := by
  rw [insert] at h
  split at h
  · cases h
  split at h
  · cases h
  split at h
  · cases h
  next hslot =>
  obtain rfl := Inserted.added.inj h
  exact ⟨rfl, fun hv hmem => hslot ⟨hv, hmem⟩⟩

end EvidenceBatches

structure AcceptedBatch where
  row : EvidenceBatchRow
  events : List VerifiedEvidenceEvent

/-- The tables. `accepted` is no table: it records the verified batches in the order of their commits, with
the events the verifier passed. -/
structure EvidenceDb where
  keys : Table SigningKeyRow.stream
  batches : EvidenceBatches
  events : Table EvidenceEventRow.key
  idempotency : Table IdempotencyRow.key
  accepted : List AcceptedBatch

namespace EvidenceDb

def empty : EvidenceDb := ⟨.empty, .empty, .empty, .empty, []⟩

def stream (s : EvidenceDb) (id : StreamID) : List EvidenceBatchRow :=
  s.batches.rows.filter fun r => r.isVerified && r.stream == id

def streamEvents (s : EvidenceDb) (id : StreamID) : List EvidenceEventRow :=
  s.events.rows.filter fun r => r.stream == id

def getEvidenceBatchByContent (id : StreamID) (contentHash : Text) (s : EvidenceDb) : Option EvidenceBatchRow :=
  s.batches.rows.find? fun r => r.contentKey == (id, contentHash)

def unextended (id : StreamID) (s : EvidenceDb) : List EvidenceBatchRow :=
  (s.stream id).filter fun b =>
    !(s.stream id).any fun n => n.firstPreviousEventHash.isSome && n.firstPreviousEventHash == b.chainHead

/-- The rows that may come first in descending order of `received_at`. -/
def latest (rows : List EvidenceBatchRow) : List EvidenceBatchRow :=
  rows.filter fun b => rows.all fun c => decide (c.receivedAt ≤ b.receivedAt)

def pick {α : Type} (n : Nat) (rows : List α) : Option α := rows[n % rows.length]?

/-- The head of the stream, none when it has no verified batch. A head that is NULL cannot be scanned. -/
def currentEvidenceChainHead (n : Nat) (id : StreamID) (s : EvidenceDb) : Except Unit (Option Text) :=
  match pick n (latest (s.unextended id)) with
  | none => .ok none
  | some b =>
    match b.chainHead with
    | some head => .ok (some head)
    | none => .error ()

def decisionsUnder (id : StreamID) (eventID : Text) (s : EvidenceDb) : List EvidenceEventRow :=
  (s.streamEvents id).filter fun r => r.eventID == eventID && r.eventType == .decision

def getStoredDecision (n : Nat) (id : StreamID) (eventID : Text) (s : EvidenceDb) : Option Text :=
  (pick n (s.decisionsUnder id eventID)).map fun r => (r.event.text? "decision").getD []

end EvidenceDb

/-! ## Storing a batch -/

structure PersistArgs where
  stream : StreamID
  submission : EvidenceSubmission
  fingerprint : Text
  verified : List VerifiedEvidenceEvent
  issues : List EvidenceIssue

inductive PersistResult where
  | stored (record : EvidenceBatchRow)
  | raced
  | chainHeadMismatch
  | signingKeyConflict
  | dbError

/-- The most frequent code, of several the first in the order of their texts. -/
def dominantIssueCode : List EvidenceIssue → Option EvidenceIssueCode
  | [] => none
  | first :: rest =>
    let codes := (first :: rest).map EvidenceIssue.code
    some (codes.foldl (fun best code =>
      if codes.count best < codes.count code ∨ (codes.count code = codes.count best ∧ code.toText < best.toText) then
        code
      else best) first.code)

abbrev CodeCounts (codes : List Text) : Type :=
  { entries : List (Text × Nat) // entries.Perm (codes.dedup.map fun code => (code, codes.count code)) }

def dominantStep (best entry : Text × Nat) : Text × Nat :=
  if best.2 < entry.2 ∨ (entry.2 = best.2 ∧ entry.1 < best.1) then entry else best

def dominantCode (codes : List Text) (counts : CodeCounts codes) : Text :=
  match codes.head? with
  | none => "verification_failed"
  | some first => (counts.val.foldl dominantStep (first, 0)).1

def codeRank (entry : Text × Nat) : ℕᵒᵈ ×ₗ Text := toLex (OrderDual.toDual entry.2, entry.1)

theorem foldl_dominantStep (entries : List (Text × Nat)) (best : Text × Nat) :
    entries.foldl dominantStep best ∈ (best :: entries).argmin codeRank := by
  refine List.foldl_hom some fun chosen entry => ?_
  have hrank : codeRank entry < codeRank chosen ↔ chosen.2 < entry.2 ∨ (entry.2 = chosen.2 ∧ entry.1 < chosen.1) :=
    Prod.Lex.toLex_lt_toLex
  rw [List.argAux, dominantStep]
  simp only [hrank, apply_ite some]

/-- The smallest of the most frequent codes, in whatever order the counts are visited. -/
theorem dominantCode_smallest (first : Text) (rest : List Text) (counts : CodeCounts (first :: rest)) :
    let codes := first :: rest
    let best := dominantCode codes counts
    best ∈ codes ∧ ∀ code ∈ codes,
      codes.count code < codes.count best ∨ (codes.count best = codes.count code ∧ best ≤ code) := by
  intro codes best
  have hbest := foldl_dominantStep counts.val (first, 0)
  have hleast (code : Text) (hcode : code ∈ codes) :
      codes.count code < (counts.val.foldl dominantStep (first, 0)).2 ∨
        ((counts.val.foldl dominantStep (first, 0)).2 = codes.count code ∧ best ≤ code) := by
    have hmem : (code, codes.count code) ∈ counts.val :=
      counts.property.mem_iff.mpr (List.mem_map_of_mem (List.mem_dedup.mpr hcode))
    have hle := List.le_of_mem_argmin (List.mem_cons_of_mem _ hmem) hbest
    exact Prod.Lex.toLex_le_toLex.mp hle
  rcases List.mem_cons.mp (List.argmin_mem hbest) with heq | hmem
  · -- the start with count zero cannot be left, since the first code occurs
    have hfirst := hleast first List.mem_cons_self
    have hpos : 0 < codes.count first := List.count_pos_iff.mpr List.mem_cons_self
    rw [heq] at hfirst
    omega
  · obtain ⟨code, hcode, heq⟩ := List.mem_map.mp (counts.property.mem_iff.mp hmem)
    obtain rfl : code = best := congrArg Prod.fst heq
    rw [← heq] at hleast
    exact ⟨List.mem_dedup.mp hcode, hleast⟩

structure EvidenceChoice where
  (answered effective : Bool)
  pick : Nat
  id : Text
  (receivedAt now : Int)

def PersistArgs.rejectedRow (p : PersistArgs) (c : EvidenceChoice) : EvidenceBatchRow where
  id := c.id
  stream := p.stream
  evidenceState := .rejected
  contentHash := p.submission.contentHash
  firstPreviousEventHash := p.submission.firstPrev
  chainHead := none
  eventsAccepted := 0
  eventsVerified := 0
  receivedAt := c.receivedAt
  verifiedAt := none
  verificationErrorCode := dominantIssueCode p.issues
  issues := p.issues

def PersistArgs.verifiedRow (p : PersistArgs) (c : EvidenceChoice) (last : VerifiedEvidenceEvent) :
    EvidenceBatchRow where
  id := c.id
  stream := p.stream
  evidenceState := .verified
  contentHash := p.submission.contentHash
  firstPreviousEventHash := p.submission.firstPrev
  chainHead := some last.eventHash
  eventsAccepted := p.verified.length
  eventsVerified := p.verified.length
  receivedAt := c.receivedAt
  verifiedAt := some c.now
  verificationErrorCode := none
  issues := []

def VerifiedEvidenceEvent.row (e : VerifiedEvidenceEvent) (stream : StreamID) (batchID : Text) : EvidenceEventRow :=
  { e with
    timestampUTC := Instant.toMicros e.timestampUTC
    stream
    batchID }

namespace EvidenceDb

def persist (c : EvidenceChoice) (p : PersistArgs) (s : EvidenceDb) : PersistResult × EvidenceDb :=
  if p.issues ≠ [] then
    match s.batches.insert (p.rejectedRow c) with
    | .added batches => (.stored (p.rejectedRow c), { s with batches })
    | .contentTaken => (.raced, s)
    | .slotTaken | .failed => (.dbError, s)
  else
    let keys := s.keys.putNew ⟨p.stream, p.submission.publicKeyPEM, p.fingerprint⟩
    if (keys.get? p.stream).any (fun k => k.fingerprint != p.fingerprint) then (.signingKeyConflict, s)
    else
      match p.verified.getLast? with
      | none => (.dbError, s)
      | some last =>
        match s.batches.insert (p.verifiedRow c last) with
        | .added batches =>
          (.stored (p.verifiedRow c last),
            { s with
              keys, batches
              events := (p.verified.map fun e => e.row p.stream c.id).foldl (fun t r => t.putNew r) s.events
              accepted := s.accepted ++ [⟨p.verifiedRow c last, p.verified⟩] })
        | .contentTaken => (.raced, s)
        | .slotTaken => (.chainHeadMismatch, s)
        | .failed => (.dbError, s)

end EvidenceDb

inductive EvidenceOp where
  | getSDKSigningKey (stream : StreamID)
  | getIdempotencyRecord (stream : StreamID) (idempotencyKey : Text)
  | getEvidenceBatchByContent (stream : StreamID) (contentHash : Text)
  | currentEvidenceChainHead (stream : StreamID)
  | getStoredDecision (stream : StreamID) (eventID : Text)
  | persist (p : PersistArgs)
  | insertIdempotencyRecord (row : IdempotencyRow)

def EvidenceOp.Res : EvidenceOp → Type
  | getSDKSigningKey _ => Except Unit (Option SigningKeyRow)
  | getIdempotencyRecord _ _ => Except Unit (Option IdempotencyRow)
  | getEvidenceBatchByContent _ _ => Except Unit (Option EvidenceBatchRow)
  | currentEvidenceChainHead _ => Except Unit (Option Text)
  | getStoredDecision _ _ => Except Unit (Option Text)
  | persist _ => PersistResult
  | insertIdempotencyRecord _ => Except Unit Unit

def evidenceInterface : Interface := ⟨EvidenceOp, EvidenceOp.Res⟩

namespace EvidenceDb

def read {α : Type} (c : EvidenceChoice) (value : Except Unit α) : Except Unit α :=
  if c.answered = true then value else .error ()

def answer (c : EvidenceChoice) (s : EvidenceDb) : (o : EvidenceOp) → o.Res
  | .getSDKSigningKey stream => read c (.ok (s.keys.get? stream))
  | .getIdempotencyRecord stream key => read c (.ok (s.idempotency.get? (stream, key)))
  | .getEvidenceBatchByContent stream hash => read c (.ok (s.getEvidenceBatchByContent stream hash))
  | .currentEvidenceChainHead stream => read c (s.currentEvidenceChainHead c.pick stream)
  | .getStoredDecision stream eventID => read c (.ok (s.getStoredDecision c.pick stream eventID))
  | .persist p => if c.answered = true then (s.persist c p).1 else .dbError
  | .insertIdempotencyRecord _ => read c (.ok ())

def effect (c : EvidenceChoice) (s : EvidenceDb) : EvidenceOp → EvidenceDb
  | .persist p => if c.answered = true ∨ c.effective = true then (s.persist c p).2 else s
  | .insertIdempotencyRecord row =>
    if c.answered = true ∨ c.effective = true then { s with idempotency := s.idempotency.putNew row } else s
  | _ => s

def exec (c : EvidenceChoice) (s : EvidenceDb) (o : EvidenceOp) : o.Res × EvidenceDb := (s.answer c o, s.effect c o)

end EvidenceDb

end Overture
