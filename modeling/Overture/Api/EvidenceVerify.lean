import Overture.Api.EvidenceStore

/-!
# Verification of evidence

`verifyEvidenceEvents` goes through the events of a batch in order. Some failures end it, the
others are recorded and the next event is checked. The decision an outcome refers to is looked
up among the events of the batch and then, by a statement of its own, among the stored ones.
-/

namespace Overture

open Json Interleave

variable {L : Type}

def evidenceMaxIssues : Nat := 20

def addIssue (index : Nat) (issues : List EvidenceIssue) (code : EvidenceIssueCode) : List EvidenceIssue :=
  if issues.length < evidenceMaxIssues then issues ++ [⟨index, code⟩] else issues

def addIssues (index : Nat) (issues : List EvidenceIssue) (codes : List EvidenceIssueCode) : List EvidenceIssue :=
  codes.foldl (addIssue index) issues

inductive EventCheck where
  | stop (codes : List EvidenceIssueCode)
  | go (f : EventFields) (recomputedHash : Text) (codes : List EvidenceIssueCode)

section Check

variable (scheme : SignatureScheme) (pub : List UInt8) (expectedKeyID : Text)

def checkEvent (expectedPrev : Option Text) (event : EvidenceEvent) : EventCheck :=
  match readEventFields event with
  | .error code => .stop [code]
  | .ok f =>
    let chain := if f.previousHash = expectedPrev then [] else [.chainBreak]
    match unsignedBytes event with
    | none => .stop (chain ++ [.invalidField])
    | some canonicalUnsigned =>
      let recomputedHash := CanonicalJson.sha256Hex canonicalUnsigned
      let integrity := if recomputedHash = f.submittedHash then [] else [.hashMismatch]
      .go f recomputedHash
        (chain ++ integrity ++ signatureIssues scheme pub expectedKeyID f (Sha256.sum256 canonicalUnsigned))

end Check

structure VerifyState where
  issues : List EvidenceIssue := []
  verified : List VerifiedEvidenceEvent := []
  expectedPrev : Option Text
  batchDecisions : List (Text × Text) := []
  outcomesSeen : List Text := []

def allowed : Text := "allowed"

def denied : Text := "denied"

def evidenceDecisionValues : List Text := [allowed, denied]

def evidenceOutcomeStatuses : List Text := ["succeeded", "failed"]

def EvidenceEvent.decision (event : EvidenceEvent) : Text := (event.text? "decision").getD []

def EvidenceEvent.decisionEventID (event : EvidenceEvent) : Text := (event.text? "decision_event_id").getD []

def EvidenceEvent.status (event : EvidenceEvent) : Text := (event.text? "status").getD []

def decisionTransition (event : EvidenceEvent) (eventID : Text) (st : VerifyState) :
    List EvidenceIssueCode × VerifyState :=
  if event.decision ∈ evidenceDecisionValues then
    ([], { st with batchDecisions := st.batchDecisions ++ [(eventID, event.decision)] })
  else ([.invalidField], st)

def judgeOutcome (decision id : Text) (st : VerifyState) : List EvidenceIssueCode × VerifyState :=
  if decision = denied then ([.invalidTransition], st)
  else if id ∈ st.outcomesSeen then ([.invalidTransition], st)
  else ([], { st with outcomesSeen := id :: st.outcomesSeen })

def outcomeVerdict (event : EvidenceEvent) (known : Option Text) (st : VerifyState) :
    List EvidenceIssueCode × VerifyState :=
  let statusCodes : List EvidenceIssueCode :=
    if event.status ∈ evidenceOutcomeStatuses then [] else [.invalidField]
  if event.decisionEventID = [] then (statusCodes ++ [.invalidField], st)
  else
    match known with
    | none => (statusCodes ++ [.unknownDecisionReference], st)
    | some decision =>
      (statusCodes ++ (judgeOutcome decision event.decisionEventID st).1,
        (judgeOutcome decision event.decisionEventID st).2)

def VerifyState.next (st : VerifyState) (index : Nat) (event : EvidenceEvent) (f : EventFields)
    (recomputedHash : Text) (codes : List EvidenceIssueCode) : VerifyState :=
  if codes = [] then
    match CanonicalJson.encode (some event) with
    | none => { st with issues := addIssue index st.issues .invalidField, expectedPrev := some f.submittedHash }
    | some _ =>
      { st with
        verified := st.verified ++
          [{ event, eventHash := recomputedHash, eventID := f.eventID, eventType := f.eventType
             actionName := f.actionName, contractHash := f.contractHash
             previousEventHash := f.previousHash, timestampUTC := f.timestamp }]
        expectedPrev := some f.submittedHash }
  else { st with issues := addIssues index st.issues codes, expectedPrev := some f.submittedHash }

def statement (o : EvidenceOp) : Prog evidenceInterface L o.Res := @Prog.perform evidenceInterface L o

section Batch

variable (scheme : SignatureScheme) (pub : List UInt8) (expectedKeyID : Text) (stream : StreamID)

def findDecision (id : Text) (st : VerifyState) : Prog evidenceInterface L (Except Unit (Option Text)) :=
  match assigned id st.batchDecisions with
  | some decision => .ret (.ok (some decision))
  | none => statement (.getStoredDecision stream id)

def eventTransition (event : EvidenceEvent) (f : EventFields) (st : VerifyState) :
    Prog evidenceInterface L (Except Unit (List EvidenceIssueCode × VerifyState)) :=
  match f.eventType with
  | .decision => .ret (.ok (decisionTransition event f.eventID st))
  | .outcome =>
    if event.decisionEventID = [] then .ret (.ok (outcomeVerdict event none st))
    else
      (findDecision stream event.decisionEventID st).bind fun
        | .error () => .ret (.error ())
        | .ok known => .ret (.ok (outcomeVerdict event known st))

abbrev Verification := List VerifiedEvidenceEvent × List EvidenceIssue

def verifyFrom : Nat → List EvidenceEvent → VerifyState → Prog evidenceInterface L (Except Unit Verification)
  | _, [], st => .ret (.ok (if st.issues = [] then (st.verified, []) else ([], st.issues)))
  | index, event :: rest, st =>
    match checkEvent scheme pub expectedKeyID st.expectedPrev event with
    | .stop codes => .ret (.ok ([], addIssues index st.issues codes))
    | .go f recomputedHash codes =>
      (eventTransition stream event f st).bind fun
        | .error () => .ret (.error ())
        | .ok (more, st') => verifyFrom (index + 1) rest (st'.next index event f recomputedHash (codes ++ more))

def verifyEvidenceEvents (events : List EvidenceEvent) (firstPrev : Option Text) :
    Prog evidenceInterface L (Except Unit Verification) :=
  verifyFrom scheme pub expectedKeyID stream 0 events { expectedPrev := firstPrev }

end Batch

end Overture
