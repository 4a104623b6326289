import Overture.Api.EvidenceChain

/-!
# Outcomes of a stream

An outcome belongs to a decision that was stored before it, a decision has one outcome, and a
denial has none. Within a batch the verifier sees to that. Across batches it does so only as
far as a batch does not decide again under a stored event id and does not bring a second
outcome for a stored one.
-/

namespace Overture

open Json Interleave HashChain List EvidenceDb

structure OutcomesSettled (events : List EvidenceEventRow) : Prop where
  referenced : ∀ l o r, events = l ++ o :: r → o.eventType = .outcome →
    ∃ d ∈ l, d.eventType = .decision ∧ d.eventID = o.event.decisionEventID
  single : events.Pairwise fun o o' => o.eventType = .outcome → o'.eventType = .outcome →
    o.event.decisionEventID ≠ o'.event.decisionEventID
  undenied : ∀ o ∈ events, o.eventType = .outcome → ∀ d ∈ events, d.eventType = .decision →
    d.eventID = o.event.decisionEventID → d.event.decision ≠ denied

def EvidenceEvent.kind (event : EvidenceEvent) : Option EvidenceEventType :=
  (event.text? "event_type").bind EvidenceEventType.ofText

/-- The decisions of a batch agree with each other and with the stored ones under the same event id, and none of
its outcomes belongs to a decision that has a stored outcome. -/
structure ConsistentBatch (s : EvidenceDb) (stream : StreamID) (events : List EvidenceEvent) : Prop where
  decisions : ∀ d ∈ events, d.kind = some .decision → ∀ d' ∈ events, d'.kind = some .decision →
    d'.text? "event_id" = d.text? "event_id" → d'.decision = d.decision
  stored_decisions : ∀ d ∈ events, d.kind = some .decision → ∀ r ∈ s.streamEvents stream, r.eventType = .decision →
    some r.eventID = d.text? "event_id" → r.event.decision = d.decision
  outcomes : ∀ o ∈ events, o.kind = some .outcome → ∀ r ∈ s.streamEvents stream, r.eventType = .outcome →
    r.event.decisionEventID ≠ o.decisionEventID

def AcceptsConsistent (c : EvidenceChoice) (o : EvidenceOp) (s : EvidenceDb) : Prop :=
  ∀ p row, o = .persist p → (s.persist c p).1 = .stored row → row.isVerified = true →
    ConsistentBatch s p.stream p.submission.events

structure SettledEvents (events : List EvidenceEventRow) : Prop extends OutcomesSettled events where
  agree : ∀ d ∈ events, d.eventType = .decision → ∀ d' ∈ events, d'.eventType = .decision →
    d'.eventID = d.eventID → d'.event.decision = d.event.decision

theorem settledEvents_nil : SettledEvents [] := ⟨⟨by simp, by simp, by simp⟩, by simp⟩

theorem pairwise_of_cuts {α : Type} {R : α → α → Prop} {l : List α}
    (h : ∀ l₁ a l₂, l = l₁ ++ a :: l₂ → ∀ b ∈ l₁, R b a) : l.Pairwise R := by
  induction l using reverseRecOn with
  | nil => exact List.Pairwise.nil
  | append_singleton l a ih =>
    rw [pairwise_append]
    refine ⟨ih ?_, by simp, ?_⟩
    · rintro l₁ b l₂ rfl
      exact h l₁ b (l₂ ++ [a]) (by simp)
    intro b hb c hc
    obtain rfl := mem_singleton.mp hc
    exact h l c [] rfl b hb

section Append

variable {s : EvidenceDb} {p : PersistArgs} {batchID : Text} (hready : Ready s p)
  (hconsistent : ConsistentBatch s p.stream p.submission.events)

abbrev batchRows (p : PersistArgs) (batchID : Text) : List EvidenceEventRow :=
  p.verified.map fun e => e.row p.stream batchID

include hready

theorem mem_batchRows {r : EvidenceEventRow} (hr : r ∈ batchRows p batchID) :
    r.event ∈ p.submission.events ∧ r.event.kind = some r.eventType ∧
      r.event.text? "event_id" = some r.eventID := by
  obtain ⟨e, he, rfl⟩ := mem_map.mp hr
  have hgenuine := hready.genuine e he
  refine ⟨?_, hgenuine.eventType, hgenuine.eventID⟩
  rw [← hready.events]
  exact mem_map.mpr ⟨e, he, rfl⟩

theorem decision_of_outcome {l r : List EvidenceEventRow} {o : EvidenceEventRow}
    (hcut : batchRows p batchID = l ++ o :: r) (ho : o.eventType = .outcome) :
    (∃ d ∈ s.streamEvents p.stream ++ l, d.eventType = .decision ∧ d.eventID = o.event.decisionEventID ∧
      d.event.decision ≠ denied) ∧
      ∀ o' ∈ l, o'.eventType = .outcome → o'.event.decisionEventID ≠ o.event.decisionEventID := by
  obtain ⟨l', r', hverified, rfl, hrest⟩ := map_eq_append_iff.mp hcut
  obtain ⟨o', r'', rfl, rfl, rfl⟩ := map_eq_cons_iff.mp hrest
  obtain ⟨hdecision, hone⟩ := hready.referenced l' o' r'' hverified ho
  refine ⟨?_, ?_⟩
  · rcases hdecision with ⟨d, hd, htype, hid, hvalue⟩ | ⟨d, hd, hvalue⟩
    · exact ⟨d.row p.stream batchID, mem_append_right _ (mem_map_of_mem hd), htype, hid, hvalue⟩
    · obtain ⟨hstored, hunder⟩ := mem_filter.mp hd
      rw [Bool.and_eq_true, beq_iff_eq, beq_iff_eq] at hunder
      exact ⟨d, mem_append_left _ hstored, hunder.2, hunder.1, hvalue⟩
  · intro o'' ho''
    obtain ⟨e, he, rfl⟩ := mem_map.mp ho''
    exact hone e he

include hconsistent

theorem agree_append (hold : SettledEvents (s.streamEvents p.stream)) :
    ∀ d ∈ s.streamEvents p.stream ++ batchRows p batchID, d.eventType = .decision →
      ∀ d' ∈ s.streamEvents p.stream ++ batchRows p batchID, d'.eventType = .decision →
        d'.eventID = d.eventID → d'.event.decision = d.event.decision := by
  intro d hd htype d' hd' htype' hid
  rcases mem_append.mp hd with hd | hd
  · rcases mem_append.mp hd' with hd' | hd'
    · exact hold.agree d hd htype d' hd' htype' hid
    · obtain ⟨hmem, hkind, heid⟩ := mem_batchRows hready hd'
      exact (hconsistent.stored_decisions _ hmem (hkind.trans (congrArg some htype')) d hd htype
        (by rw [heid, hid])).symm
  obtain ⟨hmem, hkind, heid⟩ := mem_batchRows hready hd
  have hkind := hkind.trans (congrArg some htype)
  rcases mem_append.mp hd' with hd' | hd'
  · exact hconsistent.stored_decisions _ hmem hkind d' hd' htype' (by rw [heid, hid])
  obtain ⟨hmem', hkind', heid'⟩ := mem_batchRows hready hd'
  exact hconsistent.decisions _ hmem hkind _ hmem' (hkind'.trans (congrArg some htype')) (by rw [heid, heid', hid])

theorem settledEvents_append (hold : SettledEvents (s.streamEvents p.stream)) :
    SettledEvents (s.streamEvents p.stream ++ batchRows p batchID) := by
  have hagree := @agree_append s p batchID hready hconsistent hold
  refine ⟨⟨?_, ?_, ?_⟩, hagree⟩
  · intro l o r hcut ho
    rcases append_eq_append_iff.mp hcut with ⟨l', rfl, hnew⟩ | ⟨l', hfront, hrest⟩
    · obtain ⟨⟨d, hd, htype, hid, -⟩, -⟩ := decision_of_outcome hready hnew ho
      exact ⟨d, hd, htype, hid⟩
    · cases l' with
      | nil =>
        obtain ⟨⟨d, hd, htype, hid, -⟩, -⟩ :=
          decision_of_outcome (l := []) hready hrest.symm ho
        rw [append_nil] at hfront hd
        exact ⟨d, hfront ▸ hd, htype, hid⟩
      | cons o' l' =>
        cases hrest
        exact hold.referenced l o l' hfront ho
  · rw [pairwise_append]
    refine ⟨hold.single, pairwise_of_cuts ?_, ?_⟩
    · intro l o r hcut o' ho' htype' htype
      exact (decision_of_outcome hready hcut htype).2 o' ho' htype'
    intro o ho o' ho' htype htype'
    obtain ⟨hmem, hkind, -⟩ := mem_batchRows hready ho'
    exact hconsistent.outcomes _ hmem (hkind.trans (congrArg some htype')) o ho htype
  intro o ho htype d hd hdtype hid
  -- some decision under the id is not a denial, and all of them agree
  obtain ⟨d₀, hd₀, hd₀type, hd₀id, hvalue⟩ : ∃ d₀ ∈ s.streamEvents p.stream ++ batchRows p batchID,
      d₀.eventType = .decision ∧ d₀.eventID = o.event.decisionEventID ∧ d₀.event.decision ≠ denied := by
    rcases mem_append.mp ho with hstored | hnew
    · obtain ⟨l, r, hcut⟩ := append_of_mem hstored
      obtain ⟨d₀, hd₀, hd₀type, hd₀id⟩ := hold.referenced l o r hcut htype
      have hd₀ : d₀ ∈ s.streamEvents p.stream := by simp [hcut, hd₀]
      exact ⟨d₀, mem_append_left _ hd₀, hd₀type, hd₀id, hold.undenied o hstored htype d₀ hd₀ hd₀type hd₀id⟩
    obtain ⟨l, r, hcut⟩ := append_of_mem hnew
    obtain ⟨⟨d₀, hd₀, hrest⟩, -⟩ := decision_of_outcome hready hcut htype
    refine ⟨d₀, ?_, hrest⟩
    rcases mem_append.mp hd₀ with hd₀ | hd₀
    · exact mem_append_left _ hd₀
    · exact mem_append_right _ (by simp [hcut, hd₀])
  rw [hagree d₀ hd₀ hd₀type d hd hdtype (hid.trans hd₀id.symm)]
  exact hvalue

end Append

theorem payloads_persist (c : EvidenceChoice) (p : PersistArgs) (s : EvidenceDb) :
    s.payloads ⊆ (s.persist c p).2.payloads := by
  have hprefix : ∀ a ∈ s.accepted, a ∈ (s.persist c p).2.accepted := by
    intro a ha
    rcases persist_cases c p s with h | ⟨-, batches, -, h⟩ | ⟨-, last, keys, batches, -, -, h⟩
    · rwa [h]
    · rwa [h]
    rw [h]
    exact mem_append_left _ ha
  rintro bytes ⟨a, ha, hrest⟩
  exact ⟨a, hprefix a ha, hrest⟩

theorem streamEvents_persist {c : EvidenceChoice} {p : PersistArgs} {s : EvidenceDb} (h : Chained s)
    (h' : Chained (s.persist c p).2) (hsha : Set.InjOn Sha256.sum256 (s.persist c p).2.payloads) (id : StreamID) :
    (s.persist c p).2.streamEvents id = s.streamEvents id ∨
      (p.issues = [] ∧ p.stream = id ∧ (∃ row, (s.persist c p).1 = .stored row ∧ row.isVerified = true) ∧
        (s.persist c p).2.streamEvents id = s.streamEvents id ++ batchRows p c.id) := by
  have hold := h.streamEvents_eq (hsha.mono (payloads_persist c p s)) id
  have hnew := h'.streamEvents_eq hsha id
  rcases persist_cases c p s with hsame | ⟨-, batches, -, hresult⟩ |
    ⟨hissues, last, keys, batches, -, -, hresult⟩
  · rw [hsame]
    exact .inl rfl
  · rw [hresult]
    exact .inl rfl
  rw [hresult] at hnew ⊢
  rw [hnew, hold, chain, filter_append, flatMap_append]
  by_cases hid : p.stream = id
  · refine .inr ⟨hissues, hid, ⟨_, rfl, rfl⟩, ?_⟩
    rw [filter_cons_of_pos (by exact beq_iff_eq.mpr hid)]
    simp [chain, AcceptedBatch.rows, PersistArgs.verifiedRow]
  left
  rw [filter_cons_of_neg (by exact fun heq => hid (beq_iff_eq.mp heq))]
  simp [chain]

structure SettledDb (s : EvidenceDb) : Prop where
  chained : Chained s
  settled : Set.InjOn Sha256.sum256 s.payloads → ∀ id, SettledEvents (s.streamEvents id)

theorem SettledDb.frame {s s' : EvidenceDb} (h : SettledDb s) (hbatches : s'.batches = s.batches)
    (hevents : s'.events = s.events) (haccepted : s'.accepted = s.accepted) : SettledDb s' := by
  refine ⟨h.chained.frame hbatches hevents haccepted, ?_⟩
  rw [payloads, haccepted]
  intro hsha id
  rw [streamEvents, hevents]
  exact h.settled hsha id

theorem settledDb_persist {c : EvidenceChoice} {p : PersistArgs} {s : EvidenceDb}
    (hok : AcceptsConsistent c (.persist p) s) (hready : p.issues = [] → Ready s p) (h : SettledDb s) :
    SettledDb (s.persist c p).2 := by
  have hchained := chained_persist c p s hready h.chained
  refine ⟨hchained, fun hsha id => ?_⟩
  have hold := h.settled (hsha.mono (payloads_persist c p s))
  rcases streamEvents_persist h.chained hchained hsha id with hsame | ⟨hissues, rfl, ⟨row, hstored, hverified⟩, hnew⟩
  · rw [hsame]
    exact hold id
  · rw [hnew]
    exact settledEvents_append (hready hissues) (hok p row rfl hstored hverified) (hold p.stream)

variable {scheme : SignatureScheme} {pemKey : Text → Option (List UInt8)}

/-- In every run in which the accepted batches are consistent with what was stored before them, the outcomes of
every stream are settled. -/
theorem settled_of_consistent {s : EvidenceDb} (h : EvidenceReachable scheme pemKey AcceptsConsistent s)
    (hsha : Set.InjOn Sha256.sum256 s.payloads) (id : StreamID) : OutcomesSettled (s.streamEvents id) := by
  have hdb : SettledDb s := h.invariant ⟨chained_empty, fun _ _ => settledEvents_nil⟩ (fun _ _ => SettledDb.frame)
    fun _ _ _ => settledDb_persist
  exact (hdb.settled hsha id).toOutcomesSettled

theorem consistent_empty {stream : StreamID} {events : List EvidenceEvent}
    (h : ∀ d ∈ events, d.kind = some .decision → ∀ d' ∈ events, d'.kind = some .decision →
      d'.text? "event_id" = d.text? "event_id" → d'.decision = d.decision) :
    ConsistentBatch .empty stream events := by
  have hnone : empty.streamEvents stream = [] := rfl
  refine ⟨h, ?_, ?_⟩
  · rw [hnone]
    simp
  · rw [hnone]
    simp

theorem settledEvents_settled :
    ∃ s, EvidenceReachable echoScheme samplePemKey AcceptsConsistent s ∧
      (∃ row, s.accepted = [⟨row, settledVerified⟩]) ∧ OutcomesSettled (s.streamEvents sampleStream) := by
  have hconsistent : ∀ hash, AcceptsConsistent sampleChoice
      (.persist (samplePersist settledEvents settledVerified hash)) .empty := by
    rintro hash p row ⟨⟩ - -
    apply consistent_empty
    change ∀ d ∈ settledEvents, d.kind = some .decision → ∀ d' ∈ settledEvents, d'.kind = some .decision →
      d'.text? "event_id" = d.text? "event_id" → d'.decision = d.decision
    decide +kernel
  obtain ⟨hash, hreachable⟩ := settled_sampleBatch.reachable (fun _ hplain p _ hp => absurd hp (hplain p)) hconsistent
  obtain ⟨row, haccepted⟩ := settled_accepted hash
  refine ⟨_, hreachable, ⟨row, haccepted⟩, settled_of_consistent hreachable ?_ sampleStream⟩
  exact (chained_of_reachable hreachable).injOn_payloads (settled_nodup haccepted)

def deniedHead : SampleHead where
  previous := none
  hash := ["686d50e16e59a21c", "9a4f6f181d342f8d", "6b65f80c1b6b952e", "908964dc34e2c31b"]
  signature :=
    ["aG1Q4W5ZohyaT28Y", "HTQvjWtl+Awba5Uu", "kIlk3DTiwxsAAAAA", "AAAAAAAAAAAAAAAA", "AAAAAAAAAAAAAAAA", "AAAAAA=="]

def againHead : SampleHead where
  previous := some deniedHead.hash
  hash := ["c1722912902677a1", "1c86d51e1147add0", "15ee3d4cf4d6e35c", "3b2cd2cb6254cebf"]
  signature :=
    ["wXIpEpAmd6EchtUe", "EUet0BXuPUz01uNc", "OyzSy2JUzr8AAAAA", "AAAAAAAAAAAAAAAA", "AAAAAAAAAAAAAAAA", "AAAAAA=="]

def lateHead : SampleHead where
  previous := some againHead.hash
  hash := ["4ef695b13da32a0d", "969fd9f6e2146e92", "5b47293911beb3a8", "1bcb86b9812dfcd0"]
  signature :=
    ["TvaVsT2jKg2Wn9n2", "4hRukltHKTkRvrOo", "G8uGuYEt/NAAAAAA", "AAAAAAAAAAAAAAAA", "AAAAAAAAAAAAAAAA", "AAAAAA=="]

def deniedEvents : List EvidenceEvent :=
  [sampleDecision "denied" deniedHead, sampleDecision "allowed" againHead, sampleOutcome lateHead]

def deniedVerified : List VerifiedEvidenceEvent :=
  [sampleVerified (sampleDecision "denied" deniedHead) .decision "d" deniedHead,
    sampleVerified (sampleDecision "allowed" againHead) .decision "d" againHead,
    sampleVerified (sampleOutcome lateHead) .outcome "o" lateHead]

theorem denied_sampleBatch : SampleBatch deniedEvents deniedVerified :=
  ⟨by decide +kernel, by decide +kernel, by decide +kernel, by decide +kernel, by decide +kernel⟩

/-- The outcome is accepted although its decision was denied. -/
theorem denied_outcome_accepted :
    ∃ s, EvidenceReachable echoScheme samplePemKey (fun _ _ _ => True) s ∧
      Set.InjOn Sha256.sum256 s.payloads ∧ ¬OutcomesSettled (s.streamEvents sampleStream) := by
  obtain ⟨hash, hreachable⟩ : ∃ hash, EvidenceReachable echoScheme samplePemKey (fun _ _ _ => True)
      (empty.persist sampleChoice (samplePersist deniedEvents deniedVerified hash)).2 :=
    denied_sampleBatch.reachable (fun _ _ => trivial) fun _ => trivial
  have hchained := chained_of_reachable hreachable
  have haccepted := (persist_empty sampleChoice (p := samplePersist deniedEvents deniedVerified hash) rfl rfl).2
  have hsha : Set.InjOn Sha256.sum256
      (empty.persist sampleChoice (samplePersist deniedEvents deniedVerified hash)).2.payloads := by
    apply hchained.injOn_payloads
    rw [haccepted, flatMap_singleton]
    change (deniedVerified.map VerifiedEvidenceEvent.eventHash).Nodup
    decide +kernel
  refine ⟨_, hreachable, hsha, fun hsettled => ?_⟩
  have hrows : (empty.persist sampleChoice
      (samplePersist deniedEvents deniedVerified hash)).2.streamEvents sampleStream =
        deniedVerified.map fun e => e.row sampleStream "b" := by
    rw [hchained.streamEvents_eq hsha, chain, haccepted, filter_cons_of_pos (by exact beq_self_eq_true _)]
    rfl
  rw [hrows] at hsettled
  refine hsettled.undenied _ (mem_map_of_mem (a := deniedVerified[2]) (by decide +kernel)) rfl _
    (mem_map_of_mem (a := deniedVerified[0]) (by decide +kernel)) rfl ?_ ?_
  · decide +kernel
  · decide +kernel

end Overture
