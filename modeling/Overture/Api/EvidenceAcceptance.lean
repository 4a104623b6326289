import Overture.Api.EvidenceReady

/-!
# What evidence is accepted

The verification of a batch goes on after most failures and reports a bounded list of issues. Here is without the loop
which batches it accepts: each event is compared with the events before it and with the stored decisions. An accepted
batch is no longer accepted when one member of one event has another value.
-/

namespace Overture.EvidenceAcceptance

open Json Interleave CanonicalJson Except List Option DocMap

structure DecisionLookup where
  find : Text → Option Text
  values : ∀ {id decision : Text}, find id = some decision → decision ∈ evidenceDecisionValues

def DecisionLookup.answer (lookup : DecisionLookup) :
    (o : evidenceInterface.Op) → Unit → Option (evidenceInterface.Res o × Unit)
  | EvidenceOp.getStoredDecision _ id, () => some ((.ok (lookup.find id) : Except Unit (Option Text)), ())
  | _, () => none

section Batch

variable (scheme : SignatureScheme) (pub : List UInt8) (keyID : Text) (stream : StreamID) (lookup : DecisionLookup)

def verify (events : List EvidenceEvent) (firstPrev : Option Text) : Option (Except Unit Verification) :=
  ((verifyEvidenceEvents scheme pub keyID stream events firstPrev : EvidenceProg _).solo lookup.answer ()).map Prod.fst

def Accepted (events : List EvidenceEvent) (firstPrev : Option Text) (verified : List VerifiedEvidenceEvent) : Prop :=
  verify scheme pub keyID stream lookup events firstPrev = some (.ok (verified, []))

end Batch

def typeOf (event : EvidenceEvent) : Option EvidenceEventType :=
  (event.text? "event_type").bind EvidenceEventType.ofText

structure WellFormed (event : EvidenceEvent) (f : EventFields) : Prop where
  schemaVersion : event.text? "schema_version" = some evidenceEventSchemaVersion
  eventType : typeOf event = some f.eventType
  complete : ∀ field ∈ f.eventType.requiredFields, (event.get? field).isSome = true
  previousPresent : (event.get? previousKey).isSome = true
  submittedHash : event.text? "event_hash" = some f.submittedHash
  hexHash : contractHashPattern f.submittedHash = true
  signature : event.text? "signature" = some f.signature
  eventID : event.text? "event_id" = some f.eventID
  actionName : event.text? "action_name" = some f.actionName
  contractHash : event.text? "contract_hash" = some f.contractHash
  keyID : event.text? "key_id" = some f.eventKeyID
  timestamp : (event.text? "timestamp_utc").bind Instant.parse = some f.timestamp
  idNonempty : f.eventID ≠ []
  idShort : (Utf8.encode f.eventID).length ≤ evidenceMaxEventIDChars
  namePattern : contractActionNamePattern f.actionName = true
  contractPattern : contractHashPattern f.contractHash = true
  previous : event.previous = .ok f.previousHash

def decisionsOf (events : List EvidenceEvent) : List (Text × Text) :=
  events.filterMap fun event =>
    match typeOf event with
    | some .decision => (event.text? "event_id").map fun id => (id, event.decision)
    | _ => none

def outcomesOf (events : List EvidenceEvent) : List Text :=
  events.filterMap fun event =>
    match typeOf event with
    | some .outcome => some event.decisionEventID
    | _ => none

def lastHash (firstPrev : Option Text) (events : List EvidenceEvent) : Option Text :=
  events.getLast?.elim firstPrev fun event => event.text? "event_hash"

/-- The decision that an id refers to after some events: the last of them with that id, or else the stored one. -/
def decisionFor (lookup : DecisionLookup) (before : List EvidenceEvent) (id : Text) : Option Text :=
  (assigned id (decisionsOf before)).or (lookup.find id)

structure InOrder (scheme : SignatureScheme) (pub : List UInt8) (keyID : Text) (lookup : DecisionLookup)
    (firstPrev : Option Text) (before : List EvidenceEvent) (event : EvidenceEvent) (f : EventFields) : Prop where
  wellFormed : WellFormed event f
  encodes : (encode (some event)).isSome = true
  sealed : ∃ bytes, unsignedBytes event = some bytes ∧ CanonicalJson.sha256Hex bytes = f.submittedHash ∧ f.eventKeyID = keyID ∧
    ∃ rawSig, Base64.decode false true f.signature = some rawSig ∧
      scheme.verify pub (Sha256.sum256 bytes) rawSig = true
  linked : f.previousHash = lastHash firstPrev before
  decision : f.eventType = .decision → event.decision ∈ evidenceDecisionValues
  outcome : f.eventType = .outcome → event.status ∈ evidenceOutcomeStatuses ∧ event.decisionEventID ≠ [] ∧
    decisionFor lookup before event.decisionEventID = some allowed ∧ event.decisionEventID ∉ outcomesOf before

def ListedAs (event : EvidenceEvent) (e : VerifiedEvidenceEvent) : Prop :=
  ∃ f, WellFormed event f ∧ e = ⟨event, f.submittedHash, f.eventID, f.eventType, f.actionName, f.contractHash,
    f.previousHash, f.timestamp⟩

def valueOf (event : EvidenceEvent) (key : Text) : Option Value :=
  (event.get? key).map (Doc.write numberText escapeLines)

def Tampered (event event' : EvidenceEvent) : Prop :=
  ∃ key, key ≠ "signature".toList ∧ valueOf event' key ≠ valueOf event key ∧
    ∀ other, other ≠ key → valueOf event' other = valueOf event other

/-! ## One event -/

variable {event : EvidenceEvent} {f : EventFields} {st : VerifyState}

theorem read_iff : readEventFields event = .ok f ↔ WellFormed event f := by
  constructor
  · intro h
    rw [readEventFields] at h
    obtain ⟨hschema, h⟩ := ok_of_bind_ok h
    obtain ⟨eventType, htype, h⟩ := exists_of_bind_ok h
    obtain ⟨hfields, h⟩ := ok_of_bind_ok h
    obtain ⟨submittedHash, hhash, h⟩ := exists_of_bind_ok h
    obtain ⟨hhex, h⟩ := ok_of_bind_ok h
    obtain ⟨signature, hsignature, h⟩ := exists_of_bind_ok h
    obtain ⟨eventID, hid, h⟩ := exists_of_bind_ok h
    obtain ⟨actionName, hname, h⟩ := exists_of_bind_ok h
    obtain ⟨contractHash, hcontract, h⟩ := exists_of_bind_ok h
    obtain ⟨eventKeyID, hkey, h⟩ := exists_of_bind_ok h
    obtain ⟨timestampText, htext, h⟩ := exists_of_bind_ok h
    obtain ⟨hidShape, h⟩ := ok_of_bind_ok h
    obtain ⟨hpatterns, h⟩ := ok_of_bind_ok h
    obtain ⟨previousHash, hprev, h⟩ := exists_of_bind_ok h
    obtain ⟨timestamp, htime, h⟩ := exists_of_bind_ok h
    obtain rfl := Except.ok.inj h
    rw [need_eq_ok] at htype hhash hsignature hid hname hcontract hkey htext htime
    simp only [ensure_eq_ok, Bool.and_eq_true, Bool.not_eq_true', List.isEmpty_eq_false_iff, beq_iff_eq,
      decide_eq_true_eq, List.all_eq_true] at hschema hfields hhex hidShape hpatterns
    exact ⟨hschema, htype, hfields.1, hfields.2, hhash, hhex, hsignature, hid, hname, hcontract, hkey,
      by rw [htext]; exact htime, hidShape.1, hidShape.2, hpatterns.1, hpatterns.2, hprev⟩
  intro h
  obtain ⟨timestampText, htext, htime⟩ := Option.bind_eq_some_iff.mp h.timestamp
  have hfields : (f.eventType.requiredFields.all (fun field => (event.get? field).isSome) &&
      (event.get? previousKey).isSome) = true := by
    rw [Bool.and_eq_true, List.all_eq_true]
    exact ⟨h.complete, h.previousPresent⟩
  have hid : (!f.eventID.isEmpty && decide ((Utf8.encode f.eventID).length ≤ evidenceMaxEventIDChars)) = true := by
    simp [h.idNonempty, h.idShort]
  have htype : (event.text? "event_type").bind EvidenceEventType.ofText = some f.eventType := h.eventType
  simp only [readEventFields, h.schemaVersion, htype, hfields, h.submittedHash, h.hexHash, h.signature,
    h.eventID, h.actionName, h.contractHash, h.keyID, htext, hid, h.namePattern, h.contractPattern, h.previous, htime,
    Except.ensure, Except.need, beq_self_eq_true, Bool.and_self, if_true, bind, Except.bind, pure, Except.pure]

theorem signatureIssues_iff {scheme : SignatureScheme} {pub : List UInt8} {keyID : Text}
    {digest : List UInt8} : signatureIssues scheme pub keyID f digest = [] ↔
      f.eventKeyID = keyID ∧ ∃ rawSig, Base64.decode false true f.signature = some rawSig ∧
        scheme.verify pub digest rawSig = true := by
  rw [signatureIssues]
  split
  · next hne => simp [hne]
  next heq =>
  rw [not_not] at heq
  cases hraw : Base64.decode false true f.signature with
  | none => simp
  | some rawSig =>
    by_cases hverify : scheme.verify pub digest rawSig = true
    · simp [hverify, heq]
    · simp [hverify]

theorem check_iff {scheme : SignatureScheme} {pub : List UInt8} {keyID : Text} {expectedPrev : Option Text}
    {recomputedHash : Text} :
    checkEvent scheme pub keyID expectedPrev event = .go f recomputedHash [] ↔
      WellFormed event f ∧ f.previousHash = expectedPrev ∧
        ∃ bytes, unsignedBytes event = some bytes ∧ recomputedHash = CanonicalJson.sha256Hex bytes ∧
          CanonicalJson.sha256Hex bytes = f.submittedHash ∧ f.eventKeyID = keyID ∧
          ∃ rawSig, Base64.decode false true f.signature = some rawSig ∧
            scheme.verify pub (Sha256.sum256 bytes) rawSig = true := by
  rw [← read_iff, checkEvent]
  cases hread : readEventFields event with
  | error code => simp
  | ok f' =>
    cases hbytes : unsignedBytes event with
    | none => simp
    | some bytes =>
      simp only [EventCheck.go.injEq, append_eq_nil_iff, ite_eq_left_iff, cons_ne_nil, imp_false, not_not,
        signatureIssues_iff, ok.injEq, some.injEq, exists_eq_left']
      constructor
      · rintro ⟨rfl, rfl, ⟨hprev, hhash⟩, hsigned⟩
        exact ⟨rfl, hprev, rfl, hhash, hsigned⟩
      · rintro ⟨rfl, hprev, rfl, hhash, hsigned⟩
        exact ⟨rfl, rfl, ⟨hprev, hhash⟩, hsigned⟩

def transition (lookup : DecisionLookup) (event : EvidenceEvent) (f : EventFields) (st : VerifyState) :
    List EvidenceIssueCode × VerifyState :=
  match f.eventType with
  | .decision => decisionTransition event f.eventID st
  | .outcome =>
    outcomeVerdict event ((assigned event.decisionEventID st.batchDecisions).or (lookup.find event.decisionEventID)) st

theorem solo_eventTransition (stream : StreamID) (lookup : DecisionLookup) (event : EvidenceEvent) (f : EventFields)
    (st : VerifyState) : (eventTransition stream event f st : EvidenceProg _).solo lookup.answer () =
      some (.ok (transition lookup event f st), ()) := by
  rw [eventTransition.eq_def, transition.eq_def]
  cases f.eventType with
  | decision => rfl
  | outcome =>
    dsimp only
    split
    · next hid =>
      unfold outcomeVerdict
      rw [if_pos hid, if_pos hid]
      rfl
    rw [Prog.solo_bind, findDecision.eq_def]
    cases assigned event.decisionEventID st.batchDecisions with
    | some decision => rfl
    | none => rfl

theorem outcomeVerdict_sameChain (event : EvidenceEvent) (known : Option Text) (st : VerifyState) :
    st.SameChain (outcomeVerdict event known st).2 := by
  unfold outcomeVerdict
  by_cases hid : event.decisionEventID = []
  · rw [if_pos hid]
    exact ⟨rfl, rfl, rfl⟩
  rw [if_neg hid]
  cases known with
  | none => exact ⟨rfl, rfl, rfl⟩
  | some decision =>
    dsimp only
    rw [judgeOutcome]
    split
    · exact ⟨rfl, rfl, rfl⟩
    · split <;> exact ⟨rfl, rfl, rfl⟩

theorem transition_sameChain (lookup : DecisionLookup) (event : EvidenceEvent) (f : EventFields) (st : VerifyState) :
    st.SameChain (transition lookup event f st).2 := by
  rw [transition.eq_def]
  cases f.eventType with
  | decision =>
    dsimp only
    rw [decisionTransition]
    split <;> exact ⟨rfl, rfl, rfl⟩
  | outcome => exact outcomeVerdict_sameChain event _ st

theorem decisionTransition_iff {eventID : Text} :
    (decisionTransition event eventID st).1 = [] ↔ event.decision ∈ evidenceDecisionValues := by
  rw [decisionTransition]
  split
  · next h => simp [h]
  · next h => simp [h]

theorem outcomeVerdict_iff {known : Option Text} :
    (outcomeVerdict event known st).1 = [] ↔ event.status ∈ evidenceOutcomeStatuses ∧ event.decisionEventID ≠ [] ∧
      (∃ decision, known = some decision ∧ decision ≠ denied) ∧ event.decisionEventID ∉ st.outcomesSeen := by
  unfold outcomeVerdict
  by_cases hid : event.decisionEventID = []
  · simp [hid]
  rw [if_neg hid]
  cases known with
  | none => simp
  | some decision =>
    simp only [judgeOutcome, append_eq_nil_iff, ite_eq_left_iff, cons_ne_nil, imp_false, not_not,
      some.injEq, exists_eq_left']
    by_cases hdenied : decision = denied
    · simp [hdenied]
    by_cases hseen : event.decisionEventID ∈ st.outcomesSeen
    · simp [hdenied, hseen]
    · simp [hdenied, hseen, hid]

theorem batchDecisions_of_outcome (event : EvidenceEvent) (known : Option Text) (st : VerifyState) :
    (outcomeVerdict event known st).2.batchDecisions = st.batchDecisions := by
  unfold outcomeVerdict
  by_cases hid : event.decisionEventID = []
  · rw [if_pos hid]
  rw [if_neg hid]
  cases known with
  | none => rfl
  | some decision =>
    dsimp only
    rw [judgeOutcome]
    split
    · rfl
    · split <;> rfl

theorem outcomesSeen_of_outcome {known : Option Text}
    (h : (outcomeVerdict event known st).1 = []) :
    (outcomeVerdict event known st).2.outcomesSeen = event.decisionEventID :: st.outcomesSeen := by
  obtain ⟨-, hid, ⟨decision, rfl, hdenied⟩, hseen⟩ := outcomeVerdict_iff.mp h
  simp [outcomeVerdict, judgeOutcome, hid, hdenied, hseen]

/-! ## The state and the events before -/

structure Tracks (firstPrev : Option Text) (done : List EvidenceEvent) (st : VerifyState) : Prop where
  expectedPrev : st.expectedPrev = lastHash firstPrev done
  batchDecisions : st.batchDecisions = decisionsOf done
  outcomesSeen : ∀ id, id ∈ st.outcomesSeen ↔ id ∈ outcomesOf done
  values : ∀ e ∈ decisionsOf done, e.2 ∈ evidenceDecisionValues

theorem decisionFor_allowed_iff {lookup : DecisionLookup} {done : List EvidenceEvent} {id : Text}
    (hdone : ∀ e ∈ decisionsOf done, e.2 ∈ evidenceDecisionValues) :
    decisionFor lookup done id = some allowed ↔
      ∃ decision, (assigned id (decisionsOf done)).or (lookup.find id) = some decision ∧ decision ≠ denied := by
  have hvalue : ∀ decision, (assigned id (decisionsOf done)).or (lookup.find id) = some decision →
      decision ∈ evidenceDecisionValues := by
    intro decision h
    cases hassigned : assigned id (decisionsOf done) with
    | none =>
      rw [hassigned, none_or] at h
      exact lookup.values h
    | some value =>
      rw [hassigned, some_or] at h
      cases h
      exact hdone _ (mem_of_assigned hassigned)
  constructor
  · intro h
    exact ⟨allowed, h, by decide⟩
  rintro ⟨decision, h, hne⟩
  have hmem := hvalue decision h
  rw [evidenceDecisionValues, mem_cons, mem_singleton] at hmem
  rw [decisionFor, h, hmem.resolve_right hne]

theorem decisionsOf_append_singleton (h : WellFormed event f)
    (done : List EvidenceEvent) : decisionsOf (done ++ [event]) =
      decisionsOf done ++ (match f.eventType with | .decision => [(f.eventID, event.decision)] | .outcome => []) := by
  rw [decisionsOf, filterMap_append, ← decisionsOf, filterMap_cons, h.eventType]
  cases f.eventType with
  | decision =>
    rw [h.eventID]
    rfl
  | outcome => rfl

theorem outcomesOf_append_singleton (h : WellFormed event f)
    (done : List EvidenceEvent) : outcomesOf (done ++ [event]) =
      outcomesOf done ++ (match f.eventType with | .decision => [] | .outcome => [event.decisionEventID]) := by
  rw [outcomesOf, filterMap_append, ← outcomesOf, filterMap_cons, h.eventType]
  cases f.eventType <;> rfl

theorem lastHash_append_singleton (h : WellFormed event f)
    (firstPrev : Option Text) (done : List EvidenceEvent) :
    lastHash firstPrev (done ++ [event]) = some f.submittedHash := by
  rw [lastHash, getLast?_concat, ← h.submittedHash]
  rfl

section Loop

variable {scheme : SignatureScheme} {pub : List UInt8} {keyID : Text} {stream : StreamID} {lookup : DecisionLookup}
  {firstPrev : Option Text} {done : List EvidenceEvent} {st : VerifyState}

variable {event : EvidenceEvent} {f : EventFields} {index : Nat} {codes : List EvidenceIssueCode}

theorem transition_iff (hst : Tracks firstPrev done st) :
    (transition lookup event f st).1 = [] ↔
      (f.eventType = .decision → event.decision ∈ evidenceDecisionValues) ∧
      (f.eventType = .outcome → event.status ∈ evidenceOutcomeStatuses ∧ event.decisionEventID ≠ [] ∧
        decisionFor lookup done event.decisionEventID = some allowed ∧
          event.decisionEventID ∉ outcomesOf done) := by
  rw [transition.eq_def]
  cases f.eventType with
  | decision => simp [decisionTransition_iff]
  | outcome =>
    simp only [outcomeVerdict_iff, hst.batchDecisions, decisionFor_allowed_iff hst.values, hst.outcomesSeen,
      reduceCtorEq, false_implies, true_and, true_implies]

theorem passes_iff (hst : Tracks firstPrev done st) :
    (∃ recomputedHash, checkEvent scheme pub keyID st.expectedPrev event = .go f recomputedHash []) ∧
      (transition lookup event f st).1 = [] ∧ (encode (some event)).isSome = true ↔
    InOrder scheme pub keyID lookup firstPrev done event f := by
  rw [transition_iff hst]
  constructor
  · rintro ⟨⟨recomputedHash, hcheck⟩, ⟨hdecision, houtcome⟩, hencodes⟩
    obtain ⟨hwf, hprev, bytes, hbytes, -, hsealed⟩ := check_iff.mp hcheck
    exact ⟨hwf, hencodes, ⟨bytes, hbytes, hsealed⟩, hprev.trans hst.expectedPrev, hdecision, houtcome⟩
  rintro ⟨hwf, hencodes, ⟨bytes, hbytes, hsealed⟩, hlinked, hdecision, houtcome⟩
  exact ⟨⟨_, check_iff.mpr ⟨hwf, hlinked.trans hst.expectedPrev.symm, bytes, hbytes, rfl, hsealed⟩⟩,
    ⟨hdecision, houtcome⟩, hencodes⟩

theorem tracks_next (hst : Tracks firstPrev done st)
    (h : InOrder scheme pub keyID lookup firstPrev done event f) (index : Nat) :
    Tracks firstPrev (done ++ [event])
      ((transition lookup event f st).2.next index event f f.submittedHash []) ∧
    ((transition lookup event f st).2.next index event f f.submittedHash []).verified =
      st.verified ++ [⟨event, f.submittedHash, f.eventID, f.eventType, f.actionName, f.contractHash,
        f.previousHash, f.timestamp⟩] ∧
    ((transition lookup event f st).2.next index event f f.submittedHash []).issues = st.issues := by
  have hchain := transition_sameChain lookup event f st
  obtain ⟨bytes, hbytes⟩ := isSome_iff_exists.mp h.encodes
  have hnil := (transition_iff hst).mpr ⟨h.decision, h.outcome⟩
  rw [VerifyState.next, if_pos rfl, hbytes]
  refine ⟨⟨(lastHash_append_singleton h.wellFormed firstPrev done).symm, ?_, ?_, ?_⟩, by rw [hchain.verified],
    hchain.issues⟩
  · rw [decisionsOf_append_singleton h.wellFormed, ← hst.batchDecisions]
    cases htype : f.eventType with
    | decision => simp [transition, htype, decisionTransition, h.decision htype]
    | outcome => simp [transition, htype, batchDecisions_of_outcome]
  · intro id
    rw [outcomesOf_append_singleton h.wellFormed, mem_append, ← hst.outcomesSeen]
    cases htype : f.eventType with
    | decision => simp [transition, htype, decisionTransition, h.decision htype]
    | outcome =>
      rw [transition, htype] at hnil
      simp [transition, htype, outcomesSeen_of_outcome hnil, or_comm]
  rw [decisionsOf_append_singleton h.wellFormed]
  intro e he
  rcases mem_append.mp he with hold | hnew
  · exact hst.values e hold
  · cases htype : f.eventType with
    | decision =>
      rw [htype] at hnew
      obtain rfl := mem_singleton.mp hnew
      exact h.decision htype
    | outcome =>
      rw [htype] at hnew
      cases hnew

def verifyRest (scheme : SignatureScheme) (pub : List UInt8) (keyID : Text) (stream : StreamID)
    (lookup : DecisionLookup) (index : Nat) (rest : List EvidenceEvent) (st : VerifyState) :
    Option (Except Unit Verification × Unit) :=
  (verifyFrom scheme pub keyID stream index rest st : EvidenceProg _).solo lookup.answer ()

theorem verifyRest_stop {rest : List EvidenceEvent}
    (h : checkEvent scheme pub keyID st.expectedPrev event = .stop codes) :
    verifyRest scheme pub keyID stream lookup index (event :: rest) st =
      some (.ok ([], addIssues index st.issues codes), ()) := by
  rw [verifyRest, verifyFrom, h]
  rfl

theorem verifyRest_go {rest : List EvidenceEvent}
    {recomputedHash : Text}
    (h : checkEvent scheme pub keyID st.expectedPrev event = .go f recomputedHash codes) :
    verifyRest scheme pub keyID stream lookup index (event :: rest) st =
      verifyRest scheme pub keyID stream lookup (index + 1) rest
        ((transition lookup event f st).2.next index event f recomputedHash
          (codes ++ (transition lookup event f st).1)) := by
  rw [verifyRest, verifyFrom, h]
  dsimp only
  rw [Prog.solo_bind, solo_eventTransition]
  rfl

theorem forall_cut_cons {α : Type} {P : List α → α → Prop} {a : α} {l : List α} :
    (∀ before x after, a :: l = before ++ x :: after → P before x) ↔
      P [] a ∧ ∀ before x after, l = before ++ x :: after → P (a :: before) x := by
  constructor
  · intro h
    refine ⟨h [] a l rfl, ?_⟩
    rintro before x after rfl
    exact h (a :: before) x after rfl
  rintro ⟨hhead, htail⟩ before x after hcut
  cases before with
  | nil =>
    cases hcut
    exact hhead
  | cons b before =>
    obtain ⟨rfl, hrest⟩ := cons.inj hcut
    exact htail before x after hrest

theorem next_issues_ne_nil {st' : VerifyState}
    {recomputedHash : Text}
    (h : st'.issues ≠ [] ∨ codes ≠ [] ∨ encode (some event) = none) :
    (st'.next index event f recomputedHash codes).issues ≠ [] := by
  rw [VerifyState.next]
  split
  · next hcodes =>
    cases hencode : encode (some event) with
    | none => exact addIssue_ne_nil index st'.issues _
    | some bytes =>
      rw [hcodes, hencode] at h
      simpa using h
  · next hcodes => exact addIssues_ne_nil (.inl hcodes)

theorem verifyRest_spec (scheme : SignatureScheme) (pub : List UInt8) (keyID : Text) (stream : StreamID)
    (lookup : DecisionLookup) (firstPrev : Option Text) (rest : List EvidenceEvent) (index : Nat)
    (done : List EvidenceEvent) (st : VerifyState)
    (hst : st.issues = [] → Tracks firstPrev done st) :
    ∃ verified issues,
      verifyRest scheme pub keyID stream lookup index rest st = some (.ok (verified, issues), ()) ∧
      (issues = [] ↔ st.issues = [] ∧ ∀ before event after, rest = before ++ event :: after →
        ∃ f, InOrder scheme pub keyID lookup firstPrev (done ++ before) event f) ∧
      (issues = [] → ∃ listed, verified = st.verified ++ listed ∧ List.Forall₂ ListedAs rest listed) := by
  induction rest generalizing index done st with
  | nil =>
    by_cases hissues : st.issues = []
    · refine ⟨st.verified, [], by simp [verifyRest, verifyFrom, hissues], iff_of_true rfl ⟨hissues, ?_⟩, fun _ => ?_⟩
      · intro before event after hcut
        simp at hcut
      · exact ⟨[], (append_nil _).symm, .nil⟩
    · exact ⟨[], st.issues, by simp [verifyRest, verifyFrom, hissues], iff_of_false hissues fun h => hissues h.1,
        fun h => absurd h hissues⟩
  | cons event rest ih =>
    rw [forall_cut_cons, append_nil]
    cases hcheck : checkEvent scheme pub keyID st.expectedPrev event with
    | stop codes =>
      have hne : addIssues index st.issues codes ≠ [] := addIssues_ne_nil (.inl (stop_codes_ne_nil hcheck))
      refine ⟨[], _, verifyRest_stop hcheck, iff_of_false hne ?_, fun h => absurd h hne⟩
      rintro ⟨hissues, ⟨f, hevent⟩, -⟩
      obtain ⟨⟨recomputedHash, hgo⟩, -⟩ := (passes_iff (hst hissues)).mpr hevent
      rw [hcheck] at hgo
      cases hgo
    | go f recomputedHash codes =>
      rw [verifyRest_go hcheck]
      by_cases hevent : st.issues = [] ∧ ∃ f, InOrder scheme pub keyID lookup firstPrev done event f
      · -- the event is in order: the loop goes on in a state without issues
        obtain ⟨hissues, f', hevent⟩ := hevent
        obtain ⟨⟨hash, hgo⟩, hnil, -⟩ := (passes_iff (hst hissues)).mpr hevent
        obtain ⟨-, -, bytes, -, rfl, hhash, -⟩ := check_iff.mp hgo
        rw [hcheck] at hgo
        cases hgo
        rw [hnil, append_nil, hhash]
        obtain ⟨htracks, hverified, hsame⟩ := tracks_next (hst hissues) hevent index
        obtain ⟨verified, issues, hrun, hiff, hlisted⟩ := ih (index + 1) (done ++ [event]) _ fun _ => htracks
        refine ⟨verified, issues, hrun, ?_, ?_⟩
        · rw [hiff, hsame]
          simp only [append_assoc, singleton_append, hissues, true_and]
          exact (and_iff_right ⟨f, hevent⟩).symm
        intro hissues'
        obtain ⟨listed, rfl, hall⟩ := hlisted hissues'
        exact ⟨_ :: listed, by rw [hverified, append_assoc, singleton_append],
          .cons ⟨f, hevent.wellFormed, rfl⟩ hall⟩
      -- otherwise there is an issue at the end
      have hne : ((transition lookup event f st).2.next index event f recomputedHash
          (codes ++ (transition lookup event f st).1)).issues ≠ [] := by
        apply next_issues_ne_nil
        by_contra hall
        simp only [not_or, ne_eq, not_not, append_eq_nil_iff] at hall
        obtain ⟨hissues, ⟨rfl, hnil⟩, hencode⟩ := hall
        rw [(transition_sameChain lookup event f st).issues] at hissues
        exact hevent ⟨hissues, f, (passes_iff (hst hissues)).mp
          ⟨⟨recomputedHash, hcheck⟩, hnil, isSome_iff_ne_none.mpr hencode⟩⟩
      obtain ⟨verified, issues, hrun, hiff, -⟩ := ih (index + 1) done _ fun h => absurd h hne
      have hissues : issues ≠ [] := fun h => hne (hiff.mp h).1
      refine ⟨verified, issues, hrun, iff_of_false hissues ?_, fun h => absurd h hissues⟩
      rintro ⟨hst', hhead, -⟩
      exact hevent ⟨hst', hhead⟩

end Loop

variable {event event' : EvidenceEvent}

theorem unsignedBytes_congr {bytes bytes' : List UInt8}
    (h : ∀ key, key ∉ ["event_hash".toList, "signature".toList] → valueOf event' key = valueOf event key)
    (hbytes : unsignedBytes event = some bytes) (hbytes' : unsignedBytes event' = some bytes') : bytes' = bytes := by
  obtain ⟨-, rfl⟩ := wf_of_encode hbytes
  obtain ⟨-, rfl⟩ := wf_of_encode hbytes'
  congr 2
  rw [Doc.write, Doc.write, write_eq, write_eq]
  congr 2
  apply mapEntries_ext
  intro key
  rw [assigned_map, assigned_map]
  by_cases hkey : key ∈ ["event_hash".toList, "signature".toList]
  · have hnone := get?_without_of_mem hkey event
    have hnone' := get?_without_of_mem hkey event'
    rw [get?] at hnone hnone'
    rw [hnone, hnone']
  have hget := get?_without hkey event
  have hget' := get?_without hkey event'
  rw [get?] at hget hget'
  rw [hget, hget']
  exact h key hkey

theorem valueOf_of_unsignedBytes {bytes : List UInt8}
    (hbytes : unsignedBytes event = some bytes) (hbytes' : unsignedBytes event' = some bytes) {key : Text}
    (hkey : key ∉ ["event_hash".toList, "signature".toList]) : valueOf event' key = valueOf event key := by
  have hget := get?_of_encode hbytes' hbytes key
  rwa [get?_without hkey, get?_without hkey] at hget

theorem get?_of_text? {key t : Text} (h : event.text? key = some t) :
    event.get? key = some (.str t) := by
  rw [text?] at h
  split at h
  · next s hs => rw [hs, some.inj h]
  · cases h

theorem not_inOrder_of_tampered {scheme : SignatureScheme} {pub : List UInt8} {keyID : Text} {lookup : DecisionLookup}
    {firstPrev firstPrev' : Option Text} {before before' : List EvidenceEvent}
    {f f' : EventFields} (h : InOrder scheme pub keyID lookup firstPrev before event f)
    (htampered : Tampered event event')
    (hinj : ∀ bytes bytes', unsignedBytes event = some bytes → unsignedBytes event' = some bytes' →
      Sha256.sum256 bytes = Sha256.sum256 bytes' → bytes = bytes') :
    ¬InOrder scheme pub keyID lookup firstPrev' before' event' f' := by
  intro h'
  obtain ⟨key, hsignature, hchanged, hsame⟩ := htampered
  obtain ⟨bytes, hbytes, hhash, -⟩ := h.sealed
  obtain ⟨bytes', hbytes', hhash', -⟩ := h'.sealed
  by_cases hkey : key = "event_hash"
  · -- the bytes are the same, so the two events state the same hash
    subst hkey
    have heq : bytes' = bytes := by
      refine unsignedBytes_congr (fun other hother => hsame other ?_) hbytes hbytes'
      rintro rfl
      exact hother mem_cons_self
    apply hchanged
    rw [valueOf, valueOf, get?_of_text? h.wellFormed.submittedHash, get?_of_text? h'.wellFormed.submittedHash, ← hhash,
      ← hhash', heq]
  -- the hash is the same, so the two have the same bytes
  have hhashes : CanonicalJson.sha256Hex bytes = CanonicalJson.sha256Hex bytes' := by
    have hvalue := hsame "event_hash" (Ne.symm hkey)
    rw [valueOf, valueOf, get?_of_text? h.wellFormed.submittedHash, get?_of_text? h'.wellFormed.submittedHash,
      map_some, map_some, some_inj, Doc.write, Doc.write, Value.str.injEq] at hvalue
    rw [hhash, hhash', flatMap_spell_inj spells_escapeLines hvalue]
  have heq := hinj bytes bytes' hbytes hbytes' (sha256Hex_inj hhashes)
  subst heq
  apply hchanged
  apply valueOf_of_unsignedBytes hbytes hbytes'
  simp only [mem_cons, not_mem_nil, or_false, not_or]
  exact ⟨hkey, hsignature⟩

/-- The verification ends with a result. There are no issues exactly when every event is in order after those before
it, and then all are listed. With another value of one member of an event, its signature apart, there are. -/
theorem evidence_acceptance (scheme : SignatureScheme) (pub : List UInt8) (keyID : Text) (stream : StreamID)
    (lookup : DecisionLookup) (firstPrev : Option Text) :
    (∀ events, ∃ verified issues,
      verify scheme pub keyID stream lookup events firstPrev = some (.ok (verified, issues)) ∧
      (issues = [] ↔ ∀ before event after, events = before ++ event :: after →
        ∃ f, InOrder scheme pub keyID lookup firstPrev before event f) ∧
      (issues = [] → List.Forall₂ ListedAs events verified)) ∧
    ∀ before event after verified event', Tampered event event' →
      Accepted scheme pub keyID stream lookup (before ++ event :: after) firstPrev verified →
      (∀ bytes bytes', unsignedBytes event = some bytes → unsignedBytes event' = some bytes' →
        Sha256.sum256 bytes = Sha256.sum256 bytes' → bytes = bytes') →
      ∃ verified' issues, issues ≠ [] ∧
        verify scheme pub keyID stream lookup (before ++ event' :: after) firstPrev =
          some (.ok (verified', issues)) := by
  have hspec : ∀ events, ∃ verified issues,
      verify scheme pub keyID stream lookup events firstPrev = some (.ok (verified, issues)) ∧
      (issues = [] ↔ ∀ before event after, events = before ++ event :: after →
        ∃ f, InOrder scheme pub keyID lookup firstPrev before event f) ∧
      (issues = [] → List.Forall₂ ListedAs events verified) := by
    intro events
    obtain ⟨verified, issues, hrun, hiff, hlisted⟩ := verifyRest_spec scheme pub keyID stream lookup firstPrev events
      0 [] { expectedPrev := firstPrev } fun _ => ⟨rfl, rfl, fun id => Iff.rfl, fun e he => (not_mem_nil he).elim⟩
    refine ⟨verified, issues, ?_, ?_, ?_⟩
    · rw [verify, verifyEvidenceEvents]
      rw [verifyRest] at hrun
      rw [hrun]
      rfl
    · simpa using hiff
    intro hissues
    obtain ⟨listed, rfl, hall⟩ := hlisted hissues
    exact hall
  refine ⟨hspec, ?_⟩
  intro before event after verified event' htampered haccepted hinj
  obtain ⟨verified₁, issues₁, hrun₁, hiff₁, -⟩ := hspec (before ++ event :: after)
  obtain ⟨verified', issues, hrun, hiff, -⟩ := hspec (before ++ event' :: after)
  refine ⟨verified', issues, ?_, hrun⟩
  intro hissues
  rw [Accepted, hrun₁] at haccepted
  obtain ⟨-, rfl⟩ := Prod.mk.inj (ok.inj (some.inj haccepted))
  obtain ⟨f, hevent⟩ := hiff₁.mp rfl before event after rfl
  obtain ⟨f', hevent'⟩ := hiff.mp hissues before event' after rfl
  exact not_inOrder_of_tampered hevent htampered hinj hevent'

end Overture.EvidenceAcceptance
