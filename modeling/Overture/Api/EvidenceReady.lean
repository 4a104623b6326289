import Overture.Lib.HashChain
import Overture.Lib.RelyGuarantee
import Overture.Api.Evidence

/-!
# What a request knows when it stores its batch

Between two statements of a request the tables only grow. So what was read about the head of the
stream and about stored decisions still holds when the batch is stored.
-/

namespace Overture

open Json Interleave HashChain List EvidenceBatches Option EvidenceDb VerifyState Except SubmitContext

abbrev EventLinks := Links VerifiedEvidenceEvent.previousEventHash VerifiedEvidenceEvent.eventHash

abbrev eventTip := tip VerifiedEvidenceEvent.eventHash

structure VerifiedEvidenceEvent.Genuine (e : VerifiedEvidenceEvent) : Prop where
  hash : ∃ bytes, unsignedBytes e.event = some bytes ∧ e.eventHash = CanonicalJson.sha256Hex bytes
  previous : e.event.previous = .ok e.previousEventHash
  eventType : (e.event.text? "event_type").bind EvidenceEventType.ofText = some e.eventType
  eventID : e.event.text? "event_id" = some e.eventID

theorem VerifiedEvidenceEvent.Genuine.previous_eq {e f : VerifiedEvidenceEvent} (he : e.Genuine) (hf : f.Genuine)
    (hcollision : ∀ a b, unsignedBytes e.event = some a → unsignedBytes f.event = some b →
      Sha256.sum256 a = Sha256.sum256 b → a = b) (h : e.eventHash = f.eventHash) :
    e.previousEventHash = f.previousEventHash := by
  obtain ⟨a, ha, hea⟩ := he.hash
  obtain ⟨b, hb, hfb⟩ := hf.hash
  rw [hea, hfb] at h
  obtain rfl := hcollision a b ha hb (CanonicalJson.sha256Hex_inj h)
  exact previous_of_unsignedBytes ha hb he.previous hf.previous

/-- Each outcome refers to a decision before it or to a stored one, not to a denial, and no earlier one refers
to the same. -/
def Referenced (s : EvidenceDb) (stream : StreamID) (events : List VerifiedEvidenceEvent) : Prop :=
  ∀ l o r, events = l ++ o :: r → o.eventType = .outcome →
    ((∃ d ∈ l, d.eventType = .decision ∧ d.eventID = o.event.decisionEventID ∧ d.event.decision ≠ denied) ∨
      ∃ d ∈ s.decisionsUnder stream o.event.decisionEventID, d.event.decision ≠ denied) ∧
    ∀ o' ∈ l, o'.eventType = .outcome → o'.event.decisionEventID ≠ o.event.decisionEventID

structure Ready (s : EvidenceDb) (p : PersistArgs) : Prop where
  head : p.submission.firstPrev = none ∨ ∃ b ∈ s.stream p.stream, b.chainHead = p.submission.firstPrev
  nonempty : p.verified ≠ []
  events : p.verified.map VerifiedEvidenceEvent.event = p.submission.events
  links : EventLinks p.submission.firstPrev p.verified
  genuine : ∀ e ∈ p.verified, e.Genuine
  referenced : Referenced s p.stream p.verified

/-! ## Growing tables -/

structure EvidenceDb.Extends (s s' : EvidenceDb) : Prop where
  batches : s.batches.rows <+: s'.batches.rows
  events : s.events.rows <+: s'.events.rows

namespace EvidenceDb

variable (c : EvidenceChoice) (s : EvidenceDb)

theorem Extends.refl : s.Extends s := ⟨prefix_refl _, prefix_refl _⟩

theorem Extends.trans {s₁ s₂ s₃ : EvidenceDb} (h : s₁.Extends s₂) (h' : s₂.Extends s₃) : s₁.Extends s₃ :=
  ⟨h.batches.trans h'.batches, h.events.trans h'.events⟩

theorem Extends.mem_stream {s s' : EvidenceDb} (h : s.Extends s') {id : StreamID} {b : EvidenceBatchRow}
    (hb : b ∈ s.stream id) : b ∈ s'.stream id :=
  mem_filter.mpr ⟨h.batches.subset (mem_filter.mp hb).1, (mem_filter.mp hb).2⟩

theorem Extends.mem_decisionsUnder {s s' : EvidenceDb} (h : s.Extends s') {id : StreamID} {eventID : Text}
    {d : EvidenceEventRow} (hd : d ∈ s.decisionsUnder id eventID) : d ∈ s'.decisionsUnder id eventID := by
  obtain ⟨hstream, hunder⟩ := mem_filter.mp hd
  obtain ⟨hrow, hid⟩ := mem_filter.mp hstream
  exact mem_filter.mpr ⟨mem_filter.mpr ⟨h.events.subset hrow, hid⟩, hunder⟩

theorem prefix_putNew (rows : List EvidenceEventRow) (t : Table EvidenceEventRow.key) :
    t.rows <+: (rows.foldl (fun t r => t.putNew r) t).rows := by
  induction rows generalizing t with
  | nil => exact prefix_refl _
  | cons r rows ih =>
    refine List.IsPrefix.trans ?_ (ih (t.putNew r))
    by_cases hmem : r.key ∈ t.rows.map EvidenceEventRow.key
    · rw [Table.rows_putNew_of_mem hmem]
    rw [Table.rows_putNew_of_not_mem hmem]
    exact prefix_append _ _

theorem persist_cases (p : PersistArgs) (s : EvidenceDb) :
    (s.persist c p).2 = s ∨
    (p.issues ≠ [] ∧ ∃ batches, s.batches.insert (p.rejectedRow c) = .added batches ∧
      (s.persist c p).2 = { s with batches }) ∨
    p.issues = [] ∧ ∃ last keys batches, p.verified.getLast? = some last ∧
      s.batches.insert (p.verifiedRow c last) = .added batches ∧
      s.persist c p = (.stored (p.verifiedRow c last),
        { s with
          keys, batches
          events := (p.verified.map fun e => e.row p.stream c.id).foldl (fun t r => t.putNew r) s.events
          accepted := s.accepted ++ [⟨p.verifiedRow c last, p.verified⟩] }) := by
  rw [persist]
  split
  · next hissues =>
    split
    · next batches hinsert => exact .inr (.inl ⟨hissues, batches, hinsert, rfl⟩)
    · exact .inl rfl
    · exact .inl rfl
    · exact .inl rfl
  next hissues =>
  dsimp only
  split
  · exact .inl rfl
  split
  · exact .inl rfl
  next last hlast =>
  split
  · next batches hinsert =>
    exact .inr (.inr ⟨not_not.mp hissues, last, _, batches, hlast, hinsert, rfl⟩)
  · exact .inl rfl
  · exact .inl rfl
  · exact .inl rfl

theorem extends_persist (p : PersistArgs) (s : EvidenceDb) : s.Extends (s.persist c p).2 := by
  rcases persist_cases c p s with h | ⟨-, batches, hinsert, h⟩ | ⟨-, last, keys, batches, -, hinsert, h⟩
  · rw [h]
    exact Extends.refl s
  · rw [h]
    exact ⟨(insert_cases hinsert).1 ▸ prefix_append _ _, prefix_refl _⟩
  · rw [h]
    exact ⟨(insert_cases hinsert).1 ▸ prefix_append _ _, prefix_putNew _ _⟩

theorem effect_cases (o : EvidenceOp) :
    (∃ p, o = .persist p ∧ s.effect c o = (s.persist c p).2) ∨
      ((s.effect c o).batches = s.batches ∧ (s.effect c o).events = s.events ∧
        (s.effect c o).accepted = s.accepted) := by
  cases o with
  | persist p =>
    rw [effect]
    split
    · exact .inl ⟨p, rfl, rfl⟩
    · exact .inr ⟨rfl, rfl, rfl⟩
  | insertIdempotencyRecord row =>
    right
    rw [effect]
    split <;> exact ⟨rfl, rfl, rfl⟩
  | _ => exact .inr ⟨rfl, rfl, rfl⟩

theorem extends_effect (o : EvidenceOp) : s.Extends (s.effect c o) := by
  rcases effect_cases c s o with ⟨p, -, h⟩ | ⟨hbatches, hevents, -⟩
  · rw [h]
    exact extends_persist c p s
  · exact ⟨hbatches ▸ prefix_refl _, hevents ▸ prefix_refl _⟩

end EvidenceDb

theorem Referenced.mono {s s' : EvidenceDb} (h : s.Extends s') {stream : StreamID}
    {events : List VerifiedEvidenceEvent} (href : Referenced s stream events) : Referenced s' stream events := by
  intro l o r hcut ho
  obtain ⟨hdecision, hone⟩ := href l o r hcut ho
  refine ⟨hdecision.imp_right ?_, hone⟩
  rintro ⟨d, hd, hvalue⟩
  exact ⟨d, h.mem_decisionsUnder hd, hvalue⟩

variable (scheme : SignatureScheme) (pemKey : Text → Option (List UInt8))

def evidenceRules : Rules (evidenceSystem scheme pemKey) where
  ok _ _ _ _ := True
  inv _ := True
  rely _ s s' := s.Extends s'
  guar _ s s' := s.Extends s'
  fresh _ _ := True
  atOp _ o s := ∀ p, o = EvidenceOp.persist p → p.issues = [] → Ready s p
  start _ _ _ := True
  post _ _ _ _ := True

variable {scheme pemKey}

section Wp

variable {i : Nat} {α : Type} {Q : α → EvidenceDb → Prop} {s : EvidenceDb}

theorem wp_statement {o : EvidenceOp} {k : o.Res → EvidenceProg α}
    (h : ∀ s₁, s.Extends s₁ → (∀ p, o = EvidenceOp.persist p → p.issues = [] → Ready s₁ p) ∧
      ∀ c, (evidenceRules scheme pemKey).Wp i Q (k (s₁.answer c o)) (s₁.effect c o)) :
    (evidenceRules scheme pemKey).Wp i Q ((statement o).bind k) s := by
  intro s₁ hrely _
  obtain ⟨hat, hcont⟩ := h s₁ hrely
  refine ⟨hat, fun c r s₂ _ hexec => ?_⟩
  cases hexec
  exact ⟨EvidenceDb.extends_effect c s₁ o, hcont c⟩

theorem wp_plain {o : EvidenceOp} {k : o.Res → EvidenceProg α} (ho : ∀ p, o ≠ EvidenceOp.persist p)
    (h : ∀ s₁, s.Extends s₁ → ∀ c, (evidenceRules scheme pemKey).Wp i Q (k (s₁.answer c o)) (s₁.effect c o)) :
    (evidenceRules scheme pemKey).Wp i Q ((statement o).bind k) s :=
  wp_statement fun s₁ hs₁ => ⟨fun p hp => absurd hp (ho p), h s₁ hs₁⟩

end Wp

theorem addIssue_ne_nil (index : Nat) (issues : List EvidenceIssue) (code : EvidenceIssueCode) :
    addIssue index issues code ≠ [] := by
  rw [addIssue]
  split
  · simp
  next h =>
  rintro rfl
  exact h (by decide)

theorem addIssues_ne_nil {index : Nat} {issues : List EvidenceIssue} {codes : List EvidenceIssueCode}
    (h : codes ≠ [] ∨ issues ≠ []) : addIssues index issues codes ≠ [] := by
  induction codes generalizing issues with
  | nil => simpa [addIssues] using h
  | cons code codes ih => exact ih (.inr (addIssue_ne_nil index issues code))

theorem stop_codes_ne_nil {scheme : SignatureScheme} {pub : List UInt8} {keyID : Text} {expectedPrev : Option Text}
    {event : EvidenceEvent} {codes : List EvidenceIssueCode}
    (h : checkEvent scheme pub keyID expectedPrev event = .stop codes) : codes ≠ [] := by
  rw [checkEvent] at h
  split at h
  · obtain rfl := EventCheck.stop.inj h
    simp
  dsimp only at h
  split at h
  · obtain rfl := EventCheck.stop.inj h
    simp
  · cases h

theorem check_passed {scheme : SignatureScheme} {pub : List UInt8} {keyID : Text} {expectedPrev : Option Text}
    {event : EvidenceEvent} {f : EventFields} {recomputedHash : Text}
    (h : checkEvent scheme pub keyID expectedPrev event = .go f recomputedHash []) :
    FieldsOf event f ∧ f.previousHash = expectedPrev ∧ recomputedHash = f.submittedHash ∧
      ∃ bytes, unsignedBytes event = some bytes ∧ recomputedHash = CanonicalJson.sha256Hex bytes := by
  rw [checkEvent] at h
  split at h
  · cases h
  next f' hread =>
  dsimp only at h
  split at h
  · cases h
  next bytes hbytes =>
  obtain ⟨rfl, rfl, hcodes⟩ := EventCheck.go.inj h
  obtain ⟨hfront, -⟩ := append_eq_nil_iff.mp hcodes
  obtain ⟨hchain, hintegrity⟩ := append_eq_nil_iff.mp hfront
  refine ⟨fieldsOf_read hread, ?_, ?_, bytes, hbytes, rfl⟩
  · by_contra hne
    rw [if_neg hne] at hchain
    cases hchain
  by_contra hne
  rw [if_neg hne] at hintegrity
  cases hintegrity

structure VerifyState.SameChain (st st' : VerifyState) : Prop where
  issues : st'.issues = st.issues
  verified : st'.verified = st.verified
  expectedPrev : st'.expectedPrev = st.expectedPrev

inductive Admitted (s : EvidenceDb) (stream : StreamID) (event : EvidenceEvent) (f : EventFields)
    (st : VerifyState) : VerifyState → Prop
  | decision (htype : f.eventType = .decision) :
    Admitted s stream event f st
      { st with batchDecisions := st.batchDecisions ++ [(f.eventID, event.decision)] }
  | outcome (htype : f.eventType = .outcome) (decision : Text) (hdenied : decision ≠ denied)
    (hknown : assigned event.decisionEventID st.batchDecisions = some decision ∨
      ∃ d ∈ s.decisionsUnder stream event.decisionEventID, d.event.decision = decision)
    (hseen : event.decisionEventID ∉ st.outcomesSeen) :
    Admitted s stream event f st { st with outcomesSeen := event.decisionEventID :: st.outcomesSeen }

theorem decision_admitted (s : EvidenceDb) (stream : StreamID) (event : EvidenceEvent) {f : EventFields}
    (htype : f.eventType = .decision) (st : VerifyState) :
    st.SameChain (decisionTransition event f.eventID st).2 ∧
      ((decisionTransition event f.eventID st).1 = [] →
        Admitted s stream event f st (decisionTransition event f.eventID st).2) := by
  rw [decisionTransition]
  split
  · exact ⟨⟨rfl, rfl, rfl⟩, fun _ => .decision htype⟩
  · exact ⟨⟨rfl, rfl, rfl⟩, nofun⟩

theorem outcome_admitted (s : EvidenceDb) (stream : StreamID) (event : EvidenceEvent) {f : EventFields}
    (htype : f.eventType = .outcome) (st : VerifyState) {known : Option Text}
    (hknown : ∀ decision, known = some decision → assigned event.decisionEventID st.batchDecisions = some decision ∨
      ∃ d ∈ s.decisionsUnder stream event.decisionEventID, d.event.decision = decision) :
    st.SameChain (outcomeVerdict event known st).2 ∧
      ((outcomeVerdict event known st).1 = [] → Admitted s stream event f st (outcomeVerdict event known st).2) := by
  rw [outcomeVerdict.eq_def]
  dsimp only
  generalize (if event.status ∈ evidenceOutcomeStatuses then [] else [EvidenceIssueCode.invalidField]) = statusCodes
  split
  · exact ⟨⟨rfl, rfl, rfl⟩, fun h => by simp at h⟩
  · cases known with
    | none => exact ⟨⟨rfl, rfl, rfl⟩, fun h => by simp at h⟩
    | some decision =>
      dsimp only
      rw [judgeOutcome]
      split
      · exact ⟨⟨rfl, rfl, rfl⟩, fun h => by simp at h⟩
      next hdenied =>
      split
      · exact ⟨⟨rfl, rfl, rfl⟩, fun h => by simp at h⟩
      next hseen =>
      exact ⟨⟨rfl, rfl, rfl⟩, fun _ => .outcome htype decision hdenied (hknown decision rfl) hseen⟩

structure Sofar (s : EvidenceDb) (stream : StreamID) (firstPrev : Option Text) (done : List EvidenceEvent)
    (st : VerifyState) : Prop where
  events : st.verified.map VerifiedEvidenceEvent.event = done
  links : EventLinks firstPrev st.verified
  tip : eventTip firstPrev st.verified = st.expectedPrev
  genuine : ∀ e ∈ st.verified, e.Genuine
  decisions : ∀ id decision, assigned id st.batchDecisions = some decision →
    ∃ d ∈ st.verified, d.eventType = .decision ∧ d.eventID = id ∧ d.event.decision = decision
  seen : ∀ o ∈ st.verified, o.eventType = .outcome → o.event.decisionEventID ∈ st.outcomesSeen
  referenced : Referenced s stream st.verified

theorem Sofar.mono {s s' : EvidenceDb} (h : s.Extends s') {stream : StreamID} {firstPrev : Option Text}
    {done : List EvidenceEvent} {st : VerifyState} (hst : Sofar s stream firstPrev done st) :
    Sofar s' stream firstPrev done st :=
  { hst with referenced := hst.referenced.mono h }

theorem referenced_append {s : EvidenceDb} {stream : StreamID} {events : List VerifiedEvidenceEvent}
    {e : VerifiedEvidenceEvent} (h : Referenced s stream events)
    (he : e.eventType = .outcome →
      ((∃ d ∈ events, d.eventType = .decision ∧ d.eventID = e.event.decisionEventID ∧ d.event.decision ≠ denied) ∨
        ∃ d ∈ s.decisionsUnder stream e.event.decisionEventID, d.event.decision ≠ denied) ∧
      ∀ o ∈ events, o.eventType = .outcome → o.event.decisionEventID ≠ e.event.decisionEventID) :
    Referenced s stream (events ++ [e]) := by
  intro l o r hcut
  rcases eq_nil_or_concat r with rfl | ⟨r', e', rfl⟩
  · obtain ⟨rfl, heq⟩ := append_inj' hcut rfl
    obtain rfl := singleton_inj.mp heq
    exact he
  · rw [concat_eq_append, ← cons_append, ← append_assoc] at hcut
    exact h l o r' (append_inj' hcut rfl).1

theorem Sofar.next {s : EvidenceDb} {stream : StreamID} {firstPrev : Option Text}
    {done : List EvidenceEvent} {index : Nat} {st st' : VerifyState} (hst : Sofar s stream firstPrev done st) {scheme : SignatureScheme} {pub : List UInt8}
    {keyID : Text} {event : EvidenceEvent} {f : EventFields} {recomputedHash : Text}
    (hcheck : checkEvent scheme pub keyID st.expectedPrev event = .go f recomputedHash [])
    (hacceptted : Admitted s stream event f st st') {bytes : List UInt8}
    (hencode : CanonicalJson.encode (some event) = some bytes) :
    Sofar s stream firstPrev (done ++ [event]) (st'.next index event f recomputedHash []) := by
  obtain ⟨hfields, hprev, rfl, hash⟩ := check_passed hcheck
  rw [VerifyState.next, if_pos rfl, hencode]
  dsimp only
  have hlinks : ∀ e : VerifiedEvidenceEvent, e.previousEventHash = f.previousHash →
      EventLinks firstPrev (st.verified ++ [e]) := by
    intro e he
    exact links_append.mpr ⟨hst.links, (he.trans hprev).trans hst.tip.symm, trivial⟩
  have hgenuine : ∀ e : VerifiedEvidenceEvent, e.Genuine → ∀ e' ∈ st.verified ++ [e], e'.Genuine := by
    intro e he e' he'
    rcases List.mem_append.mp he' with hold | hnew
    · exact hst.genuine e' hold
    · exact List.mem_singleton.mp hnew ▸ he
  cases hacceptted with
  | decision htype =>
    refine ⟨by simp [hst.events], hlinks _ rfl, by rw [eventTip, tip_append]; rfl,
      hgenuine _ ⟨hash, hfields.previous, hfields.eventType, hfields.eventID⟩, ?_, ?_, ?_⟩
    · intro id decision hassigned
      rw [assigned_append] at hassigned
      rcases Option.or_eq_some_iff.mp hassigned with hnew | ⟨-, hold⟩
      · obtain ⟨rfl, rfl⟩ : f.eventID = id ∧ event.decision = decision := by simpa [assigned] using hnew
        exact ⟨_, List.mem_append_right _ List.mem_cons_self, htype, rfl, rfl⟩
      · obtain ⟨d, hd, hrest⟩ := hst.decisions id decision hold
        exact ⟨d, by simp [hd], hrest⟩
    · intro o ho hotype
      rcases List.mem_append.mp ho with hold | hnew
      · exact hst.seen o hold hotype
      obtain rfl := List.mem_singleton.mp hnew
      exact absurd (htype.symm.trans hotype) (by decide)
    · exact referenced_append hst.referenced fun hotype => absurd (htype.symm.trans hotype) (by decide)
  | outcome htype decision hdenied hknown hseen =>
    refine ⟨by simp [hst.events], hlinks _ rfl, by rw [eventTip, tip_append]; rfl,
      hgenuine _ ⟨hash, hfields.previous, hfields.eventType, hfields.eventID⟩, ?_, ?_, ?_⟩
    · intro id value hassigned
      obtain ⟨d, hd, hrest⟩ := hst.decisions id value hassigned
      exact ⟨d, by simp [hd], hrest⟩
    · intro o ho hotype
      rcases List.mem_append.mp ho with hold | hnew
      · exact List.mem_cons_of_mem _ (hst.seen o hold hotype)
      obtain rfl := List.mem_singleton.mp hnew
      exact List.mem_cons_self
    refine referenced_append hst.referenced fun _ => ⟨?_, ?_⟩
    · rcases hknown with hbatch | ⟨d, hd, rfl⟩
      · obtain ⟨d, hd, hdtype, hid, rfl⟩ := hst.decisions _ _ hbatch
        exact .inl ⟨d, hd, hdtype, hid, hdenied⟩
      · exact .inr ⟨d, hd, hdenied⟩
    · intro o ho hotype heq
      exact hseen (heq ▸ hst.seen o ho hotype)

structure Passed (s : EvidenceDb) (stream : StreamID) (firstPrev : Option Text) (events : List EvidenceEvent)
    (verified : List VerifiedEvidenceEvent) : Prop where
  events : verified.map VerifiedEvidenceEvent.event = events
  links : EventLinks firstPrev verified
  genuine : ∀ e ∈ verified, e.Genuine
  referenced : Referenced s stream verified

section Batch

variable {i : Nat} {pub : List UInt8} {keyID : Text} {stream : StreamID} {s : EvidenceDb}

theorem pick_mem {α : Type} {n : Nat} {rows : List α} {a : α} (h : EvidenceDb.pick n rows = some a) : a ∈ rows :=
  mem_of_getElem? h

theorem read_eq_ok {α : Type} {c : EvidenceChoice} {value : Except Unit α} {a : α}
    (h : EvidenceDb.read c value = .ok a) : value = .ok a := by
  rw [EvidenceDb.read] at h
  split at h
  · exact h
  · cases h

theorem wp_transition (event : EvidenceEvent) (f : EventFields) (st : VerifyState) :
    (evidenceRules scheme pemKey).Wp i
      (fun r s' => s.Extends s' ∧ ∀ codes st', r = .ok (codes, st') →
        st.SameChain st' ∧ (codes = [] → Admitted s' stream event f st st'))
      (eventTransition stream event f st) s := by
  rw [eventTransition]
  cases htype : f.eventType with
  | decision =>
    refine ⟨EvidenceDb.Extends.refl s, ?_⟩
    intro codes st' hr
    obtain ⟨rfl, rfl⟩ := Prod.mk.inj (Except.ok.inj hr)
    exact decision_admitted s stream event htype st
  | outcome =>
    dsimp only
    split
    · refine ⟨EvidenceDb.Extends.refl s, ?_⟩
      intro codes st' hr
      obtain ⟨rfl, rfl⟩ := Prod.mk.inj (Except.ok.inj hr)
      exact outcome_admitted s stream event htype st fun _ (h : none = some _) => by cases h
    rw [findDecision]
    split
    · next decision hassigned =>
      refine ⟨EvidenceDb.Extends.refl s, ?_⟩
      intro codes st' hr
      obtain ⟨rfl, rfl⟩ := Prod.mk.inj (Except.ok.inj hr)
      exact outcome_admitted s stream event htype st fun _ h => .inl (hassigned.trans h)
    refine wp_plain nofun fun s₁ hs₁ c => ?_
    generalize hanswer : s₁.answer c (.getStoredDecision stream event.decisionEventID) = answer
    match answer with
    | .error () => exact ⟨hs₁, nofun⟩
    | .ok known =>
      refine ⟨hs₁, ?_⟩
      intro codes st' hr
      obtain ⟨rfl, rfl⟩ := Prod.mk.inj (Except.ok.inj hr)
      refine outcome_admitted s₁ stream event htype st ?_
      rintro decision rfl
      obtain ⟨d, hd, rfl⟩ := Option.map_eq_some_iff.mp (Except.ok.inj (read_eq_ok hanswer))
      exact .inr ⟨d, pick_mem hd, rfl⟩

theorem wp_verifyFrom (firstPrev : Option Text) (done events : List EvidenceEvent) (index : Nat) (st : VerifyState)
    (h : st.issues = [] → Sofar s stream firstPrev done st) :
    (evidenceRules scheme pemKey).Wp i
      (fun r s' => ∀ verified, r = .ok (verified, []) → Passed s' stream firstPrev (done ++ events) verified)
      (verifyFrom scheme pub keyID stream index events st) s := by
  induction events generalizing done index st s with
  | nil =>
    intro verified hr
    by_cases hissues : st.issues = []
    · rw [if_pos hissues] at hr
      obtain ⟨rfl, -⟩ := Prod.mk.inj (Except.ok.inj hr)
      have hst := h hissues
      exact ⟨hst.events.trans (List.append_nil _).symm, hst.links, hst.genuine, hst.referenced⟩
    · rw [if_neg hissues] at hr
      exact absurd (Prod.mk.inj (Except.ok.inj hr)).2 hissues
  | cons event events ih =>
    rw [verifyFrom]
    split
    · next codes hcheck =>
      intro verified hr
      exact absurd (Prod.mk.inj (Except.ok.inj hr)).2 (addIssues_ne_nil (.inl (stop_codes_ne_nil hcheck)))
    next f recomputedHash codes hcheck =>
    refine Rules.Wp.bind (Rules.Wp.mono (wp_transition event f st) ?_)
    rintro (- | ⟨more, st'⟩) s' ⟨hextends, hresult⟩
    · exact nofun
    obtain ⟨hsame, hacceptted⟩ := hresult more st' rfl
    rw [List.append_cons]
    apply ih
    intro hissues
    by_cases hcodes : codes ++ more = []
    · obtain ⟨rfl, rfl⟩ := List.append_eq_nil_iff.mp hcodes
      cases hencode : CanonicalJson.encode (some event) with
      | none =>
        rw [List.append_nil, VerifyState.next, if_pos rfl, hencode] at hissues
        exact absurd hissues (addIssue_ne_nil _ _ _)
      | some bytes =>
        rw [List.append_nil, VerifyState.next, if_pos rfl, hencode] at hissues
        exact Sofar.next ((h (hsame.issues.symm.trans hissues)).mono hextends) hcheck (hacceptted rfl) hencode
    · rw [VerifyState.next, if_neg hcodes] at hissues
      exact absurd hissues (addIssues_ne_nil (.inl hcodes))

theorem wp_verifyEvidenceEvents (events : List EvidenceEvent) (firstPrev : Option Text) :
    (evidenceRules scheme pemKey).Wp i
      (fun r s' => ∀ verified, r = .ok (verified, []) → Passed s' stream firstPrev events verified)
      (verifyEvidenceEvents scheme pub keyID stream events firstPrev) s := by
  apply wp_verifyFrom firstPrev [] events
  intro _
  refine ⟨rfl, trivial, rfl, by simp, by simp [assigned], by simp, ?_⟩
  intro l o r hcut
  simp at hcut

end Batch

theorem events_of_prepareSubmit {req : EvidenceRequest} {ctx : SubmitContext}
    (h : prepareSubmit pemKey req = .ok ctx) : ctx.submission.events ≠ [] := by
  rw [prepareSubmit] at h
  split at h
  · cases h
  split at h
  · cases h
  split at h
  · cases h
  split at h
  · cases h
  next submission hdecode =>
  split at h
  · cases h
  split at h
  · cases h
  · cases h
    exact events_ne_nil hdecode

section Request

variable {i : Nat} {s : EvidenceDb} (ctx : SubmitContext)

theorem wp_respondEvidenceBatch (record : EvidenceBatchRow) (created : Bool) (status : Nat) :
    (evidenceRules scheme pemKey).Wp i (fun _ _ => True) (ctx.respondEvidenceBatch record created status) s := by
  rw [respondEvidenceBatch]
  split
  · trivial
  refine wp_plain nofun fun s₁ _ c => ?_
  split <;> trivial

theorem wp_afterPersist (result : PersistResult) :
    (evidenceRules scheme pemKey).Wp i (fun _ _ => True) (ctx.afterPersist result) s := by
  cases result with
  | stored record => exact wp_respondEvidenceBatch ctx record true 202
  | raced =>
    refine wp_plain nofun fun s₁ _ c => ?_
    split
    · exact wp_respondEvidenceBatch ctx _ false 200
    · trivial
  | chainHeadMismatch =>
    refine wp_plain nofun fun s₁ _ c => ?_
    split <;> trivial
  | signingKeyConflict => trivial
  | dbError => trivial

theorem wp_verifyAndPersist (hevents : ctx.submission.events ≠ [])
    (hhead : ctx.submission.firstPrev = none ∨
      ∃ b ∈ s.stream ctx.stream, b.chainHead = ctx.submission.firstPrev) :
    (evidenceRules scheme pemKey).Wp i (fun _ _ => True) (ctx.verifyAndPersist scheme) s := by
  rw [verifyAndPersist]
  refine Rules.Wp.bind (Rules.Wp.mono (Rules.Wp.relates EvidenceDb.Extends.refl
    (fun _ _ _ => EvidenceDb.Extends.trans) (fun _ _ => id) (fun _ _ => id)
    (wp_verifyEvidenceEvents ctx.submission.events ctx.submission.firstPrev)) ?_)
  rintro (- | ⟨verified, issues⟩) s' ⟨hextends, hpassed⟩
  · trivial
  refine wp_statement fun s₁ hs₁ => ⟨?_, fun c => wp_afterPersist ctx _⟩
  rintro p ⟨⟩ hissues
  dsimp only at hissues
  subst hissues
  have h := hpassed verified rfl
  refine ⟨hhead.imp_right ?_, ?_, h.events, h.links, h.genuine, h.referenced.mono hs₁⟩
  · rintro ⟨b, hb, hchain⟩
    exact ⟨b, (hextends.trans hs₁).mem_stream hb, hchain⟩
  · rintro rfl
    exact hevents h.events.symm

theorem mem_of_currentEvidenceChainHead {n : Nat} {id : StreamID} {head : Text}
    (h : s.currentEvidenceChainHead n id = .ok (some head)) : ∃ b ∈ s.stream id, b.chainHead = some head := by
  rw [currentEvidenceChainHead] at h
  split at h
  · cases h
  next b hb =>
  split at h
  · next head' hhead =>
    cases h
    exact ⟨b, (mem_filter.mp (mem_filter.mp (pick_mem hb)).1).1, hhead⟩
  · cases h

theorem wp_extendStream (hevents : ctx.submission.events ≠ []) :
    (evidenceRules scheme pemKey).Wp i (fun _ _ => True) (ctx.extendStream scheme) s := by
  refine wp_plain nofun fun s₁ _ c => ?_
  generalize hanswer : s₁.answer c (.currentEvidenceChainHead ctx.stream) = answer
  match answer with
  | .error () => trivial
  | .ok expected =>
    dsimp only
    split
    · next hexpected =>
      apply wp_verifyAndPersist ctx hevents
      cases expected with
      | none => exact .inl hexpected
      | some head =>
        rw [hexpected]
        exact .inr (mem_of_currentEvidenceChainHead (read_eq_ok hanswer))
    refine wp_plain nofun fun s₂ _ c => ?_
    split
    · trivial
    · exact wp_respondEvidenceBatch ctx _ false 200
    · trivial

theorem wp_replayOrExtend (hevents : ctx.submission.events ≠ []) :
    (evidenceRules scheme pemKey).Wp i (fun _ _ => True) (ctx.replayOrExtend scheme) s := by
  refine wp_plain nofun fun s₁ _ c => ?_
  split
  · trivial
  · exact wp_respondEvidenceBatch ctx _ false 200
  · exact wp_extendStream ctx hevents

theorem wp_checkKey (hevents : ctx.submission.events ≠ []) :
    (evidenceRules scheme pemKey).Wp i (fun _ _ => True) (ctx.checkKey scheme) s := by
  refine wp_plain nofun fun s₁ _ c => ?_
  split
  · trivial
  split
  · trivial
  rw [checkIdempotency]
  split
  · exact wp_replayOrExtend ctx hevents
  refine wp_plain nofun fun s₂ _ c => ?_
  split
  · trivial
  · exact wp_replayOrExtend ctx hevents
  · split <;> trivial

end Request

theorem wp_handleEvidenceBatchSubmit (i : Nat) (s : EvidenceDb) (req : EvidenceRequest) :
    (evidenceRules scheme pemKey).Wp i (fun _ _ => True) (handleEvidenceBatchSubmit scheme pemKey req) s := by
  rw [handleEvidenceBatchSubmit]
  split
  · trivial
  · next ctx hctx => exact wp_checkKey ctx (events_of_prepareSubmit hctx)

theorem evidenceRules_lawful : (evidenceRules scheme pemKey).Lawful where
  rely_refl _ s := EvidenceDb.Extends.refl s
  rely_trans _ _ _ _ h h' := h.trans h'
  guar_rely _ _ _ _ _ h := h
  guar_inv _ _ _ _ _ := trivial
  env_rely e := nomatch e
  env_inv e := nomatch e
  fresh_le _ _ _ _ _ := trivial
  fresh_guar _ _ _ _ _ _ _ := trivial
  fresh_fork _ _ _ _ _ _ := trivial
  fresh_env e := nomatch e
  start_rely _ _ _ _ _ _ _ := trivial
  external_start _ _ _ _ _ _ := trivial
  post_rely _ _ _ _ _ _ _ _ := trivial
  body_wp req j s _ _ := (wp_handleEvidenceBatchSubmit j s req).mono fun _ s' _ =>
    ⟨EvidenceDb.Extends.refl s', trivial⟩

variable (scheme pemKey) in
def EvidenceReachable (ok : EvidenceChoice → EvidenceOp → EvidenceDb → Prop) (s : EvidenceDb) : Prop :=
  ∃ p, (evidenceSystem scheme pemKey).Reaches (fun c _ o s => ok c o s) ⟨.empty, []⟩ p ∧ p.state = s

theorem EvidenceReachable.invariant {ok : EvidenceChoice → EvidenceOp → EvidenceDb → Prop} {s : EvidenceDb}
    (h : EvidenceReachable scheme pemKey ok s) {J : EvidenceDb → Prop} (hempty : J .empty)
    (hframe : ∀ s s', J s → s'.batches = s.batches → s'.events = s.events → s'.accepted = s.accepted → J s')
    (hpersist : ∀ c p s, ok c (.persist p) s → (p.issues = [] → Ready s p) → J s → J (s.persist c p).2) :
    J s := by
  obtain ⟨p, hreaches, rfl⟩ := h
  refine evidenceRules_lawful.invariant_of_reaches (fun _ _ _ _ _ => trivial) ?_ (fun _ _ _ _ h => h)
    (fun _ _ h => h) (fun e => nomatch e) ⟨trivial, trivial, by simp⟩ hempty hreaches
  intro c i o s r s' hok hat hJ hexec
  cases hexec
  rcases EvidenceDb.effect_cases c s o with ⟨p, rfl, heffect⟩ | ⟨hbatches, hevents, haccepted⟩
  · rw [heffect]
    exact hpersist c p s hok (hat p rfl) hJ
  · exact hframe s _ hJ hbatches hevents haccepted

/-! ## A first batch -/

theorem reaches_op {ok : EvidenceChoice → EvidenceOp → EvidenceDb → Prop} {c : EvidenceChoice} {s : EvidenceDb}
    {req : EvidenceRequest} {o : EvidenceOp} {k : o.Res → EvidenceProg EvidenceResponse}
    {p : Pool evidenceInterface EvidenceRequest EvidenceResponse EvidenceDb}
    (h : (evidenceSystem scheme pemKey).Reaches (fun c _ o s => ok c o s) p ⟨s, [⟨req, (statement o).bind k⟩]⟩)
    (hok : ok c o s) :
    (evidenceSystem scheme pemKey).Reaches (fun c _ o s => ok c o s) p
      ⟨s.effect c o, [⟨req, k (s.answer c o)⟩]⟩ := by
  refine .step (.step 0 c) h ?_ ?_
  · rintro l o' k' hthread
    obtain ⟨rfl, hprog⟩ := Thread.mk.inj (some.inj hthread)
    cases hprog
    exact hok
  have hsettle : (evidenceSystem scheme pemKey).settle 0 (k (s.answer c o)) (s.effect c o) = s.effect c o := by
    cases k (s.answer c o) <;> rfl
  exact congrArg (fun state => some (Pool.mk state [⟨req, k (s.answer c o)⟩])) hsettle

theorem reachable_first {ok : EvidenceChoice → EvidenceOp → EvidenceDb → Prop} {c : EvidenceChoice}
    {req : EvidenceRequest} {ctx : SubmitContext} {verified : List VerifiedEvidenceEvent}
    (hanswered : c.answered = true) (hprepare : prepareSubmit pemKey req = .ok ctx) (hkey : ctx.idempotencyKey = [])
    (hprev : ctx.submission.firstPrev = none)
    (hverify : (verifyEvidenceEvents scheme ctx.key.pub ctx.submission.keyID ctx.stream ctx.submission.events
      ctx.submission.firstPrev : EvidenceProg _) = .ret (.ok (verified, [])))
    (hplain : ∀ o, (∀ p, o ≠ EvidenceOp.persist p) → ok c o .empty)
    (hpersist : ok c (.persist ⟨ctx.stream, ctx.submission, ctx.key.fingerprint, verified, []⟩) .empty) :
    EvidenceReachable scheme pemKey ok
      (EvidenceDb.empty.persist c ⟨ctx.stream, ctx.submission, ctx.key.fingerprint, verified, []⟩).2 := by
  have hread : ∀ {α : Type} (value : Except Unit α), EvidenceDb.read c value = value := by
    intro α value
    rw [EvidenceDb.read, if_pos hanswered]
  have hstart : (evidenceSystem scheme pemKey).Reaches (fun c _ o s => ok c o s) ⟨.empty, []⟩
      ⟨.empty, [⟨req, ctx.checkKey scheme⟩]⟩ := by
    refine .step (.start req) .refl trivial ?_
    have hbody : (evidenceSystem scheme pemKey).body req = ctx.checkKey scheme := by
      change handleEvidenceBatchSubmit scheme pemKey req = _
      rw [handleEvidenceBatchSubmit, hprepare]
    change some ((evidenceSystem scheme pemKey).launch req ⟨.empty, []⟩) = _
    rw [System.launch, hbody]
    rfl
  have hkeyed := reaches_op hstart (hplain _ (by simp))
  have hlooking : (evidenceSystem scheme pemKey).Reaches (fun c _ o s => ok c o s) ⟨.empty, []⟩
      ⟨.empty, [⟨req, ctx.replayOrExtend scheme⟩]⟩ := by
    rw [show EvidenceDb.empty.answer c (.getSDKSigningKey ctx.stream) = .ok none from hread _] at hkeyed
    change (evidenceSystem scheme pemKey).Reaches _ _ ⟨.empty, [⟨req, ctx.checkIdempotency scheme⟩]⟩ at hkeyed
    rwa [SubmitContext.checkIdempotency, if_pos hkey] at hkeyed
  have hlooked := reaches_op hlooking (hplain _ (by simp))
  have hextending : (evidenceSystem scheme pemKey).Reaches (fun c _ o s => ok c o s) ⟨.empty, []⟩
      ⟨.empty, [⟨req, ctx.extendStream scheme⟩]⟩ := by
    rwa [show EvidenceDb.empty.answer c (.getEvidenceBatchByContent ctx.stream ctx.submission.contentHash) = .ok none
      from hread _] at hlooked
  have hheaded := reaches_op hextending (hplain _ (by simp))
  have hverifying : (evidenceSystem scheme pemKey).Reaches (fun c _ o s => ok c o s) ⟨.empty, []⟩
      ⟨.empty, [⟨req, ctx.verifyAndPersist scheme⟩]⟩ := by
    rw [show EvidenceDb.empty.answer c (.currentEvidenceChainHead ctx.stream) = .ok none from hread _] at hheaded
    change (evidenceSystem scheme pemKey).Reaches _ _ ⟨.empty, [⟨req,
      if ctx.submission.firstPrev = none then ctx.verifyAndPersist scheme else ctx.replayOrMismatch none⟩]⟩ at hheaded
    rwa [if_pos hprev] at hheaded
  rw [SubmitContext.verifyAndPersist, hverify] at hverifying
  have hpersisted := reaches_op hverifying hpersist
  refine ⟨_, hpersisted, ?_⟩
  change EvidenceDb.effect c .empty (.persist _) = _
  rw [EvidenceDb.effect, if_pos (.inl hanswered)]

theorem persist_empty (c : EvidenceChoice) {p : PersistArgs} {last : VerifiedEvidenceEvent} (hissues : p.issues = [])
    (hlast : p.verified.getLast? = some last) :
    (EvidenceDb.empty.persist c p).1 = .stored (p.verifiedRow c last) ∧
      (EvidenceDb.empty.persist c p).2.accepted = [⟨p.verifiedRow c last, p.verified⟩] := by
  have hkeys : ((EvidenceDb.empty.keys.putNew ⟨p.stream, p.submission.publicKeyPEM, p.fingerprint⟩).get? p.stream).any
      (fun k => k.fingerprint != p.fingerprint) = false := by
    rw [Table.get?_putNew]
    simp [EvidenceDb.empty, Table.empty, Table.get?]
  have hinsert : ∃ batches, EvidenceDb.empty.batches.insert (p.verifiedRow c last) = .added batches := by
    rw [EvidenceBatches.insert, dif_neg (by simp [EvidenceDb.empty, EvidenceBatches.empty]),
      dif_neg (by simp [EvidenceDb.empty, EvidenceBatches.empty]),
      dif_neg (by simp [EvidenceDb.empty, EvidenceBatches.empty, EvidenceBatches.slots])]
    exact ⟨_, rfl⟩
  obtain ⟨batches, hinsert⟩ := hinsert
  rw [EvidenceDb.persist, if_neg (not_not.mpr hissues)]
  dsimp only
  rw [hkeys, if_neg Bool.false_ne_true, hlast]
  dsimp only
  rw [hinsert]
  exact ⟨rfl, rfl⟩

/-! ## Sample batches

Texts are written in short pieces. -/

def textDoc (pieces : List String) : Doc Text := .str (pieces.flatMap String.toList)

def docOf : List (String × Doc Text) → DocMap Text
  | [] => .nil
  | (key, d) :: rest => .cons key.toList d (docOf rest)

def docsOf : List EvidenceEvent → Docs Text
  | [] => .nil
  | e :: rest => .cons (.obj e) (docsOf rest)

def sampleKeyID : List String := ["ed25519:", "66687aadf862bd77"]

def zeroHash : List String := List.replicate 4 "0000000000000000"

structure SampleHead where
  previous : Option (List String)
  (hash signature : List String)

def SampleHead.previousDoc (h : SampleHead) : Doc Text :=
  match h.previous with
  | none => .null
  | some pieces => textDoc pieces

def sampleDecision (value : String) (h : SampleHead) : EvidenceEvent :=
  docOf [("action_id", textDoc ["a"]), ("action_name", textDoc ["a"]), ("approval_mode", textDoc []),
    ("contract_hash", textDoc zeroHash), ("decision", textDoc [value]), ("event_hash", textDoc h.hash),
    ("event_id", textDoc ["d"]), ("event_type", textDoc ["decision"]), ("input_hash", textDoc []),
    ("key_id", textDoc sampleKeyID), ("previous_event_hash", h.previousDoc), ("redacted_input_summary", textDoc []),
    ("risk", textDoc []), ("schema_version", textDoc ["1"]), ("signature", textDoc h.signature),
    ("timestamp_utc", textDoc ["2024-05-01T10:00:00Z"])]

def sampleOutcome (h : SampleHead) : EvidenceEvent :=
  docOf [("action_id", textDoc ["a"]), ("action_name", textDoc ["a"]), ("contract_hash", textDoc zeroHash),
    ("decision_event_id", textDoc ["d"]), ("event_hash", textDoc h.hash), ("event_id", textDoc ["o"]),
    ("event_type", textDoc ["outcome"]), ("key_id", textDoc sampleKeyID), ("previous_event_hash", h.previousDoc),
    ("schema_version", textDoc ["1"]), ("signature", textDoc h.signature), ("status", textDoc ["succeeded"]),
    ("timestamp_utc", textDoc ["2024-05-01T10:00:00Z"])]

def sampleFields (events : List EvidenceEvent) : DocMap Text :=
  docOf [("journal_segment", .obj (docOf [("events", .arr (docsOf events))])), ("key_id", textDoc sampleKeyID),
    ("public_key_pem", textDoc ["k"])]

def sampleValue (events : List EvidenceEvent) : Value := (Doc.obj (sampleFields events)).write id escapeLines

def sampleVerified (event : EvidenceEvent) (eventType : EvidenceEventType) (eventID : String) (h : SampleHead) :
    VerifiedEvidenceEvent where
  event
  eventHash := h.hash.flatMap String.toList
  eventID := eventID.toList
  eventType
  actionName := "a"
  contractHash := zeroHash.flatMap String.toList
  previousEventHash := h.previous.map fun pieces => pieces.flatMap String.toList
  timestampUTC := (Instant.parse "2024-05-01T10:00:00Z").getD 0

def sampleStream : StreamID := ("t", sampleKeyID.flatMap String.toList)

def samplePemKey (_ : Text) : Option (List UInt8) := some (echoScheme.publicKey ())

def sampleChoice : EvidenceChoice := ⟨true, true, 0, "b", 0, 0⟩

structure SampleBatch (events : List EvidenceEvent) (verified : List VerifiedEvidenceEvent) : Prop where
  plain : (Doc.obj (sampleFields events)).all (fun _ => false) (fun _ => true) = true
  short : (sampleValue events).print.length ≤ 262144
  decoded : (if (sampleValue events).depth > maxNestingDepth then none
    else CanonicalJson.goMapOf (sampleValue events).doc) = some (some (sampleFields events))
  read : (readSubmission (sampleFields events)).toOption.map
    (fun sub => (sub.keyID, sub.publicKeyPEM, sub.firstPrev, sub.events)) =
      some (sampleKeyID.flatMap String.toList, "k".toList, none, events)
  verifies : (verifyEvidenceEvents echoScheme (echoScheme.publicKey ()) (sampleKeyID.flatMap String.toList)
    sampleStream events none : EvidenceProg _).result? = some (.ok (verified, []))

theorem SampleBatch.decodes {events : List EvidenceEvent} {verified : List VerifiedEvidenceEvent}
    (h : SampleBatch events verified) :
    ∃ hash, decodeEvidenceSubmission (Utf8.encode (sampleValue events).print) =
      .ok ⟨sampleKeyID.flatMap String.toList, "k".toList, none, events, hash⟩ := by
  have hwf : (sampleValue events).WF :=
    Doc.wf_of_all spells_escapeLines (fun _ hn => absurd hn Bool.false_ne_true) _ h.plain
  rw [decodeEvidenceSubmission, CanonicalJson.decodeObjectPreserving_print hwf, h.decoded, need]
  dsimp only [bind, Except.bind, Option.getD]
  obtain ⟨sub, hsub, hfields⟩ := map_eq_some_iff.mp h.read
  obtain ⟨keyID, publicKeyPEM, firstPrev, events', hash⟩ := sub
  simp only [Prod.mk.injEq] at hfields
  obtain ⟨rfl, rfl, rfl, rfl⟩ := hfields
  refine ⟨hash, ?_⟩
  cases hread : readSubmission (sampleFields events') with
  | error e =>
    rw [hread] at hsub
    cases hsub
  | ok sub =>
    rw [hread] at hsub
    cases hsub
    rfl

def samplePersist (events : List EvidenceEvent) (verified : List VerifiedEvidenceEvent) (hash : Text) : PersistArgs :=
  ⟨sampleStream, ⟨sampleKeyID.flatMap String.toList, "k", none, events, hash⟩,
    Hex.encode (Sha256.sum256 (echoScheme.publicKey ())), verified, []⟩

theorem SampleBatch.reachable {ok : EvidenceChoice → EvidenceOp → EvidenceDb → Prop} {events : List EvidenceEvent}
    {verified : List VerifiedEvidenceEvent} (h : SampleBatch events verified)
    (hplain : ∀ o, (∀ p, o ≠ EvidenceOp.persist p) → ok sampleChoice o .empty)
    (hpersist : ∀ hash, ok sampleChoice (.persist (samplePersist events verified hash)) .empty) :
    ∃ hash, EvidenceReachable echoScheme samplePemKey ok
      (EvidenceDb.empty.persist sampleChoice (samplePersist events verified hash)).2 := by
  obtain ⟨hash, hdecode⟩ := h.decodes
  have hlength : (Utf8.encode (sampleValue events).print).length ≤ evidenceMaxBodyBytes :=
    (Utf8.length_encode_le _).trans (Nat.mul_le_mul_left 4 h.short)
  have hprepare : prepareSubmit samplePemKey ⟨"t".toList, Utf8.encode (sampleValue events).print, []⟩ =
      .ok ⟨sampleStream, ⟨sampleKeyID.flatMap String.toList, "k".toList, none, events, hash⟩,
        ⟨echoScheme.publicKey (), Hex.encode (Sha256.sum256 (echoScheme.publicKey ())),
          sampleKeyID.flatMap String.toList⟩, []⟩ := by
    have hkey : parseSDKPublicKey samplePemKey "k".toList = some ⟨echoScheme.publicKey (),
        Hex.encode (Sha256.sum256 (echoScheme.publicKey ())), sampleKeyID.flatMap String.toList⟩ := by
      rw [parseSDKPublicKey, samplePemKey, map_some]
      have hid : evidenceKeyPrefix ++ (Hex.encode (Sha256.sum256 (echoScheme.publicKey ()))).take 16 =
          sampleKeyID.flatMap String.toList := by decide +kernel
      rw [← hid]
    have htenant : "t".toList ≠ [] := by decide
    have hnone : ¬(Text.trimSpace [] ≠ [] ∧ contractIdempotencyKeyPattern (Text.trimSpace []) = false) := by decide
    rw [prepareSubmit, if_neg htenant, if_neg (not_lt.mpr hlength), if_neg hnone, hdecode]
    dsimp only
    rw [hkey]
    dsimp only
    rw [if_neg (by simp)]
    rfl
  exact ⟨hash, reachable_first rfl hprepare rfl rfl (Prog.eq_ret_of_result? h.verifies) hplain (hpersist hash)⟩

end Overture
