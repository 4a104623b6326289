import Overture.Api.EvidenceReady

/-!
# One chain for each stream

The verified batches of a stream form one linear chain, whatever requests are interleaved: the
index on the chain slots lets a batch extend a head once, and every head but the last has been
extended. That the stored events link one to the next also needs that no two payloads collide.
-/

namespace Overture

open VerifiedEvidenceEvent

open Json Interleave HashChain EvidenceBatchRow EvidenceDb List EvidenceBatches AcceptedBatch Option

namespace AcceptedBatch

def prev (a : AcceptedBatch) : Option Text := a.row.firstPreviousEventHash

def head (a : AcceptedBatch) : Text := a.row.chainHead.getD []

abbrev Covers (a : AcceptedBatch) : Prop :=
  HashChain.Covers previousEventHash eventHash prev head events a

def rows (a : AcceptedBatch) : List EvidenceEventRow := a.events.map fun e => e.row a.row.stream a.row.id

end AcceptedBatch

namespace EvidenceDb

def chain (s : EvidenceDb) (id : StreamID) : List AcceptedBatch := s.accepted.filter fun a => a.row.stream == id

def payloads (s : EvidenceDb) : Set (List UInt8) :=
  { bytes | ∃ a ∈ s.accepted, ∃ e ∈ a.events, unsignedBytes e.event = some bytes }

end EvidenceDb

structure Chained (s : EvidenceDb) : Prop where
  verified : s.batches.rows.filter EvidenceBatchRow.isVerified = s.accepted.map AcceptedBatch.row
  events : s.events = (s.accepted.flatMap AcceptedBatch.rows).foldl (fun t r => t.putNew r) .empty
  covers : ∀ a ∈ s.accepted, a.Covers
  heads : ∀ a ∈ s.accepted, a.row.chainHead = some a.head
  genuine : ∀ a ∈ s.accepted, ∀ e ∈ a.events, e.Genuine
  links : ∀ id, Links AcceptedBatch.prev AcceptedBatch.head none (s.chain id)

theorem Chained.stream_eq {s : EvidenceDb} (h : Chained s) (id : StreamID) :
    s.stream id = (s.chain id).map AcceptedBatch.row := by
  have hfilter : s.stream id = (s.batches.rows.filter EvidenceBatchRow.isVerified).filter fun r => r.stream == id := by
    rw [EvidenceDb.stream, List.filter_filter]
    simp only [Bool.and_comm]
  rw [hfilter, h.verified, List.filter_map]
  rfl

theorem tip_verified {firstPrev : Option Text} {verified : List VerifiedEvidenceEvent} {last : VerifiedEvidenceEvent}
    (h : verified.getLast? = some last) : eventTip firstPrev verified = some last.eventHash := by
  obtain ⟨l, rfl⟩ := getLast?_eq_some_iff.mp h
  exact tip_append firstPrev l [last]

theorem Chained.tip_eq {s : EvidenceDb} (h : Chained s) {p : PersistArgs} (hready : Ready s p) {c : EvidenceChoice}
    {last : VerifiedEvidenceEvent} (hslot : (p.verifiedRow c last).slot ∉ s.batches.slots) :
    p.submission.firstPrev = tip AcceptedBatch.head none (s.chain p.stream) := by
  have hfree : ∀ a ∈ s.chain p.stream, a.prev ≠ p.submission.firstPrev := by
    intro a ha hprev
    obtain ⟨hmem, hstream⟩ := List.mem_filter.mp ha
    apply hslot
    rw [EvidenceBatches.slots, h.verified, List.map_map]
    refine List.mem_map.mpr ⟨a, hmem, ?_⟩
    exact Prod.ext (beq_iff_eq.mp hstream) (congrArg (fun prev => prev.getD "genesis") hprev)
  have hlinks := h.links p.stream
  rcases hready.head with hnone | ⟨b, hb, hhead⟩
  · cases hchain : s.chain p.stream with
    | nil => exact hnone
    | cons a rest =>
      rw [hchain] at hlinks hfree
      exact absurd (hlinks.1.trans hnone.symm) (hfree a (by simp))
  rw [h.stream_eq, List.mem_map] at hb
  obtain ⟨a, ha, rfl⟩ := hb
  have hprev : p.submission.firstPrev = some a.head := hhead.symm.trans (h.heads a (List.mem_filter.mp ha).1)
  obtain ⟨l, r, hcut⟩ := List.append_of_mem ha
  rw [hcut] at hlinks hfree ⊢
  cases r with
  | nil => rw [hprev, tip_append]; rfl
  | cons b r =>
    have hb : b.prev = tip AcceptedBatch.head none (l ++ [a]) := prev_eq_of_links (r := r) (by simpa using hlinks)
    rw [tip_append] at hb
    exact absurd (hb.trans hprev.symm) (hfree b (by simp))

theorem chained_persist (c : EvidenceChoice) (p : PersistArgs) (s : EvidenceDb) (hready : p.issues = [] → Ready s p)
    (h : Chained s) : Chained (s.persist c p).2 := by
  rcases persist_cases c p s with hsame | ⟨-, batches, hinsert, hresult⟩ |
    ⟨hissues, last, keys, batches, hlast, hinsert, hresult⟩
  · rwa [hsame]
  · rw [hresult]
    refine { h with verified := ?_ }
    rw [(insert_cases hinsert).1, filter_append, h.verified]
    exact append_nil _
  obtain ⟨hrows, hslot⟩ := insert_cases hinsert
  have hready := hready hissues
  rw [hresult]
  refine ⟨?_, ?_, ?_, ?_, ?_, ?_⟩
  · rw [hrows, filter_append, h.verified, map_append]
    rfl
  · dsimp only
    rw [flatMap_append, foldl_append, ← h.events, flatMap_singleton]
    rfl
  · intro a ha
    rcases mem_append.mp ha with hold | hnew
    · exact h.covers a hold
    obtain rfl := mem_singleton.mp hnew
    exact ⟨hready.links, hready.nonempty, tip_verified hlast⟩
  · intro a ha
    rcases mem_append.mp ha with hold | hnew
    · exact h.heads a hold
    obtain rfl := mem_singleton.mp hnew
    rfl
  · intro a ha
    rcases mem_append.mp ha with hold | hnew
    · exact h.genuine a hold
    obtain rfl := mem_singleton.mp hnew
    exact hready.genuine
  · intro id
    rw [chain, filter_append, links_append]
    refine ⟨h.links id, ?_⟩
    by_cases hid : p.stream = id
    · subst hid
      rw [filter_cons_of_pos (by exact beq_self_eq_true p.stream)]
      exact ⟨h.tip_eq hready (hslot rfl), trivial⟩
    · rw [filter_cons_of_neg (by exact fun heq => hid (beq_iff_eq.mp heq))]
      trivial

theorem chained_empty : Chained .empty :=
  ⟨rfl, rfl, by simp [EvidenceDb.empty], by simp [EvidenceDb.empty], by simp [EvidenceDb.empty], fun _ => trivial⟩

theorem Chained.frame {s s' : EvidenceDb} (h : Chained s) (hbatches : s'.batches = s.batches)
    (hevents : s'.events = s.events) (haccepted : s'.accepted = s.accepted) : Chained s' := by
  obtain ⟨keys, batches, events, idempotency, accepted⟩ := s'
  dsimp only at hbatches hevents haccepted
  subst hbatches hevents haccepted
  exact ⟨h.verified, h.events, h.covers, h.heads, h.genuine, h.links⟩

variable {scheme : SignatureScheme} {pemKey : Text → Option (List UInt8)}

theorem chained_of_reachable {ok : EvidenceChoice → EvidenceOp → EvidenceDb → Prop} {s : EvidenceDb}
    (h : EvidenceReachable scheme pemKey ok s) : Chained s :=
  h.invariant chained_empty (fun _ _ => Chained.frame) fun c p s _ => chained_persist c p s

theorem nodup_map_of_fibres {α κ η : Type} {f : α → κ} {g : α → η} {p : κ → α → Bool}
    (hp : ∀ k a, p k a = true ↔ f a = k) {l : List α} (h : ∀ k, ((l.filter (p k)).map g).Nodup) :
    (l.map fun a => (f a, g a)).Nodup := by
  induction l with
  | nil => exact nodup_nil
  | cons a l ih =>
    rw [map_cons, nodup_cons]
    refine ⟨?_, ih fun k => (h k).sublist (((sublist_cons_self a l).filter _).map g)⟩
    intro hmem
    obtain ⟨b, hb, heq⟩ := mem_map.mp hmem
    obtain ⟨hf, hg⟩ := Prod.mk.inj heq
    have hfibre := h (f a)
    rw [filter_cons_of_pos ((hp _ _).mpr rfl), map_cons, nodup_cons] at hfibre
    exact hfibre.1 (mem_map.mpr ⟨b, mem_filter.mpr ⟨hb, (hp _ _).mpr hf⟩, hg⟩)

theorem filter_rows (id : StreamID) (accepted : List AcceptedBatch) :
    ((accepted.flatMap AcceptedBatch.rows).filter fun r => r.stream == id) =
      (accepted.filter fun a => a.row.stream == id).flatMap AcceptedBatch.rows := by
  induction accepted with
  | nil => rfl
  | cons a accepted ih =>
    rw [flatMap_cons, filter_append, ih]
    have hrow : ∀ r ∈ a.rows, r.stream = a.row.stream := by
      intro r hr
      obtain ⟨e, -, rfl⟩ := mem_map.mp hr
      rfl
    by_cases hid : a.row.stream = id
    · have hall : a.rows.filter (fun r => r.stream == id) = a.rows :=
        filter_eq_self.mpr fun r hr => by simpa [hrow r hr] using hid
      rw [filter_cons_of_pos (by simpa using hid), flatMap_cons, hall]
    have hnone : a.rows.filter (fun r => r.stream == id) = [] :=
      filter_eq_nil_iff.mpr fun r hr => by simpa [hrow r hr] using hid
    rw [filter_cons_of_neg (by simpa using hid), hnone]
    rfl

theorem map_hash_rows (chain : List AcceptedBatch) :
    (chain.flatMap AcceptedBatch.rows).map (fun r => r.eventHash) =
      (chain.flatMap AcceptedBatch.events).map eventHash := by
  rw [List.map_flatMap, List.map_flatMap]
  refine List.flatMap_congr fun a _ => ?_
  rw [AcceptedBatch.rows, List.map_map]
  rfl

section Distinct

variable {s : EvidenceDb} (h : Chained s) (hsha : Set.InjOn Sha256.sum256 s.payloads)
include h

theorem Chained.events_links (id : StreamID) : EventLinks none ((s.chain id).flatMap AcceptedBatch.events) :=
  links_flatMap (fun a ha => h.covers a (mem_filter.mp ha).1) (h.links id)

include hsha

theorem Chained.events_nodup (id : StreamID) :
    (((s.chain id).flatMap AcceptedBatch.events).map eventHash).Nodup := by
  refine nodup_of_links (h.events_links id) ?_
  intro e he f hf hash
  obtain ⟨a, ha, hea⟩ := mem_flatMap.mp he
  obtain ⟨b, hb, hfb⟩ := mem_flatMap.mp hf
  have ha := (mem_filter.mp ha).1
  have hb := (mem_filter.mp hb).1
  refine (h.genuine a ha e hea).previous_eq (h.genuine b hb f hfb) ?_ hash
  intro x y hx hy hxy
  exact hsha ⟨a, ha, e, hea, hx⟩ ⟨b, hb, f, hfb, hy⟩ hxy

theorem Chained.streamEvents_eq (id : StreamID) :
    s.streamEvents id = (s.chain id).flatMap AcceptedBatch.rows := by
  have hkeys : ((s.accepted.flatMap AcceptedBatch.rows).map EvidenceEventRow.key).Nodup := by
    refine nodup_map_of_fibres (p := fun id r => r.stream == id) (fun id r => beq_iff_eq) fun id => ?_
    rw [filter_rows, map_hash_rows]
    exact h.events_nodup hsha id
  have hrows : s.events.rows = s.accepted.flatMap AcceptedBatch.rows := by
    rw [h.events, Table.rows_foldl_putNew (by simpa [Table.empty] using hkeys)]
    rfl
  rw [EvidenceDb.streamEvents, hrows, filter_rows]
  rfl

end Distinct

/-- The verified batches of the stream are one chain, in the order in which they were stored. -/
structure LinearStream (s : EvidenceDb) (id : StreamID) : Prop where
  genesis : s.stream id ≠ [] → ∃! b, b ∈ s.stream id ∧ b.firstPreviousEventHash = none
  extends_one : ∀ l b r, s.stream id = l ++ b :: r → b.firstPreviousEventHash ≠ none →
    ∃! a, a ∈ l ∧ b.firstPreviousEventHash = a.chainHead
  unforked : ((s.stream id).map firstPreviousEventHash).Nodup
  distinct : ((s.streamEvents id).map fun e => e.eventHash).Nodup
  linked : Links (fun e : EvidenceEventRow => e.previousEventHash) (fun e => e.eventHash) none (s.streamEvents id)
  head_empty : s.stream id = [] → ∀ n, s.currentEvidenceChainHead n id = .ok none
  head : s.stream id ≠ [] →
    ∃! b, (b ∈ s.stream id ∧ ∀ c ∈ s.stream id, c.firstPreviousEventHash ≠ b.chainHead) ∧
      ∃ head, b.chainHead = some head ∧ ∀ n, s.currentEvidenceChainHead n id = .ok (some head)

section Linear

variable {s : EvidenceDb} (h : Chained s) (hsha : Set.InjOn Sha256.sum256 s.payloads) (id : StreamID)
include h

def EvidenceBatchRow.head (b : EvidenceBatchRow) : Text := b.chainHead.getD []

theorem Chained.stream_links :
    Links EvidenceBatchRow.firstPreviousEventHash EvidenceBatchRow.head none (s.stream id) := by
  rw [h.stream_eq, links_map]
  exact h.links id

theorem Chained.chainHead_eq {b : EvidenceBatchRow} (hb : b ∈ s.stream id) : b.chainHead = some b.head := by
  rw [h.stream_eq, List.mem_map] at hb
  obtain ⟨a, ha, rfl⟩ := hb
  exact h.heads a (List.mem_filter.mp ha).1

include hsha

theorem Chained.stream_nodup : ((s.stream id).map EvidenceBatchRow.head).Nodup := by
  rw [h.stream_eq, List.map_map]
  exact nodup_segments (fun a ha => h.covers a (List.mem_filter.mp ha).1) (h.events_nodup hsha id)

theorem Chained.unextended_iff {b : EvidenceBatchRow} (hb : b ∈ s.stream id) :
    (∀ c ∈ s.stream id, c.firstPreviousEventHash ≠ b.chainHead) ↔
      tip EvidenceBatchRow.head none (s.stream id) = some b.head := by
  rw [h.chainHead_eq id hb]
  exact unextended_iff_of_links (h.stream_links id) (h.stream_nodup hsha id) hb

theorem Chained.unextended_eq {l : List EvidenceBatchRow} {b : EvidenceBatchRow} (hcut : s.stream id = l ++ [b]) :
    s.unextended id = [b] := by
  have htip : tip EvidenceBatchRow.head none (s.stream id) = some b.head := by
    rw [hcut, tip_append]
    rfl
  obtain ⟨free, hfilter, hfree⟩ : ∃ free : EvidenceBatchRow → Bool, s.unextended id = (s.stream id).filter free ∧
      ∀ c ∈ s.stream id, free c = true ↔ b.head = c.head := by
    refine ⟨_, rfl, fun c hc => ?_⟩
    have hiff := h.unextended_iff hsha id hc
    rw [htip, Option.some_inj] at hiff
    rw [← hiff, h.chainHead_eq id hc, Bool.not_eq_true', List.any_eq_false]
    refine forall₂_congr fun n _ => ?_
    cases n.firstPreviousEventHash with
    | none => simp
    | some prev => simp
  have hnodup := h.stream_nodup hsha id
  rw [hfilter]
  rw [hcut] at hfree hnodup ⊢
  have hfront : l.filter free = [] := by
    refine List.filter_eq_nil_iff.mpr fun c hc hcfree => ?_
    rw [List.map_append, List.nodup_append] at hnodup
    exact hnodup.2.2 _ (List.mem_map_of_mem hc) _ (by simp) ((hfree c (by simp [hc])).mp hcfree).symm
  rw [List.filter_append, hfront, List.filter_cons_of_pos ((hfree b (by simp)).mpr rfl)]
  rfl

theorem Chained.head_eq {l : List EvidenceBatchRow} {b : EvidenceBatchRow} (hcut : s.stream id = l ++ [b]) (n : Nat) :
    s.currentEvidenceChainHead n id = .ok (some b.head) := by
  have hpick : pick n (latest (s.unextended id)) = some b := by
    rw [h.unextended_eq hsha id hcut]
    simp [latest, pick, Nat.mod_one]
  rw [currentEvidenceChainHead, hpick]
  dsimp only
  rw [h.chainHead_eq id (by simp [hcut])]

theorem Chained.linear : LinearStream s id where
  genesis := by
    intro hne
    have hlinks := h.stream_links id
    have hunforked := nodup_prev_of_links hlinks (h.stream_nodup hsha id)
    cases hstream : s.stream id with
    | nil => exact absurd hstream hne
    | cons b rest =>
      rw [hstream] at hlinks hunforked
      refine ⟨b, ⟨by simp, hlinks.1⟩, ?_⟩
      rintro c ⟨hc, hnone⟩
      exact List.inj_on_of_nodup_map hunforked hc (by simp) (hnone.trans hlinks.1.symm)
  extends_one := by
    intro l b r hcut hsome
    have hlinks := h.stream_links id
    have hnodup := h.stream_nodup hsha id
    have hheads : ∀ a ∈ l, a.chainHead = some a.head := fun a ha => h.chainHead_eq id (by simp [hcut, ha])
    rw [hcut] at hlinks hnodup
    obtain ⟨prev, hprev⟩ := Option.ne_none_iff_exists'.mp hsome
    obtain ⟨a, ha, rfl⟩ := mem_of_tip ((prev_eq_of_links hlinks).symm.trans hprev)
    refine ⟨a, ⟨ha, by rw [hprev, hheads a ha]⟩, ?_⟩
    rintro c ⟨hc, hchead⟩
    rw [hprev, hheads c hc, Option.some_inj] at hchead
    exact List.inj_on_of_nodup_map hnodup (by simp [hc]) (by simp [ha]) hchead.symm
  unforked := nodup_prev_of_links (h.stream_links id) (h.stream_nodup hsha id)
  distinct := by
    rw [h.streamEvents_eq hsha, map_hash_rows]
    exact h.events_nodup hsha id
  linked := by
    rw [h.streamEvents_eq hsha]
    have hcovers : ∀ a ∈ s.chain id, HashChain.Covers (fun e : EvidenceEventRow => e.previousEventHash)
        (fun e => e.eventHash) AcceptedBatch.prev AcceptedBatch.head AcceptedBatch.rows a := by
      intro a ha
      obtain ⟨hlinks, hne, htip⟩ := h.covers a (List.mem_filter.mp ha).1
      exact ⟨(links_map _).mpr hlinks, by simpa [AcceptedBatch.rows] using hne, (tip_map _ _ _).trans htip⟩
    exact links_flatMap hcovers (h.links id)
  head_empty := by
    intro hnil n
    simp [EvidenceDb.currentEvidenceChainHead, EvidenceDb.unextended, hnil, EvidenceDb.latest, EvidenceDb.pick]
  head := by
    intro hne
    obtain ⟨l, b, hcut⟩ := (List.eq_nil_or_concat (s.stream id)).resolve_left hne
    rw [List.concat_eq_append] at hcut
    have hb : b ∈ s.stream id := by simp [hcut]
    have htip : tip EvidenceBatchRow.head none (s.stream id) = some b.head := by
      rw [hcut, tip_append]
      rfl
    refine ⟨b, ⟨⟨hb, (h.unextended_iff hsha id hb).mpr htip⟩, b.head, h.chainHead_eq id hb,
      h.head_eq hsha id hcut⟩, ?_⟩
    rintro c ⟨⟨hc, hfree⟩, -⟩
    have hsame := (h.unextended_iff hsha id hc).mp hfree
    rw [htip, Option.some_inj] at hsame
    exact List.inj_on_of_nodup_map (h.stream_nodup hsha id) hc hb hsame.symm

end Linear

/-- Whatever requests are interleaved, every stream is linear, as long as SHA-256 does not collide on the
payloads of the accepted events. -/
theorem linear_of_reachable {s : EvidenceDb} (h : EvidenceReachable scheme pemKey (fun _ _ _ => True) s)
    (hsha : Set.InjOn Sha256.sum256 s.payloads) (id : StreamID) : LinearStream s id :=
  (chained_of_reachable h).linear hsha id

theorem Chained.injOn_payloads {s : EvidenceDb} (h : Chained s)
    (hnodup : ((s.accepted.flatMap AcceptedBatch.events).map eventHash).Nodup) :
    Set.InjOn Sha256.sum256 s.payloads := by
  rintro x ⟨a, ha, e, he, hx⟩ y ⟨b, hb, f, hf, hy⟩ hxy
  obtain ⟨x', hx', hex⟩ := (h.genuine a ha e he).hash
  obtain ⟨y', hy', hfy⟩ := (h.genuine b hb f hf).hash
  cases hx.symm.trans hx'
  cases hy.symm.trans hy'
  have hef : e.eventHash = f.eventHash := by
    rw [hex, hfy, CanonicalJson.sha256Hex, CanonicalJson.sha256Hex, hxy]
  obtain rfl := inj_on_of_nodup_map hnodup (mem_flatMap.mpr ⟨a, ha, he⟩) (mem_flatMap.mpr ⟨b, hb, hf⟩) hef
  exact some.inj (hx.symm.trans hy)

def allowedHead : SampleHead where
  previous := none
  hash := ["ff2ea538a6e63c75", "010f3e6f84d87f21", "966f59db68ae1311", "676b033aa2aee87f"]
  signature :=
    ["/y6lOKbmPHUBDz5v", "hNh/IZZvWdtorhMR", "Z2sDOqKu6H8AAAAA", "AAAAAAAAAAAAAAAA", "AAAAAAAAAAAAAAAA", "AAAAAA=="]

def outcomeHead : SampleHead where
  previous := some allowedHead.hash
  hash := ["8c088f256800c86d", "60b694df3432797b", "118fcac6fceae654", "5629f96e8b7e62a7"]
  signature :=
    ["jAiPJWgAyG1gtpTf", "NDJ5exGPysb86uZU", "Vin5bot+YqcAAAAA", "AAAAAAAAAAAAAAAA", "AAAAAAAAAAAAAAAA", "AAAAAA=="]

def settledEvents : List EvidenceEvent := [sampleDecision "allowed" allowedHead, sampleOutcome outcomeHead]

def settledVerified : List VerifiedEvidenceEvent :=
  [sampleVerified (sampleDecision "allowed" allowedHead) .decision "d" allowedHead,
    sampleVerified (sampleOutcome outcomeHead) .outcome "o" outcomeHead]

theorem settled_sampleBatch : SampleBatch settledEvents settledVerified :=
  ⟨by decide +kernel, by decide +kernel, by decide +kernel, by decide +kernel, by decide +kernel⟩

theorem settled_accepted (hash : Text) :
    ∃ row, (EvidenceDb.empty.persist sampleChoice (samplePersist settledEvents settledVerified hash)).2.accepted =
      [⟨row, settledVerified⟩] :=
  ⟨_, (persist_empty sampleChoice (p := samplePersist settledEvents settledVerified hash) rfl rfl).2⟩

theorem settled_nodup {accepted : List AcceptedBatch} {row : EvidenceBatchRow} (h : accepted = [⟨row, settledVerified⟩]) :
    ((accepted.flatMap events).map eventHash).Nodup := by
  rw [h, flatMap_singleton]
  change (settledVerified.map eventHash).Nodup
  decide +kernel

theorem settled_stream_linear :
    ∃ s, EvidenceReachable echoScheme samplePemKey (fun _ _ _ => True) s ∧
      (∃ row, s.accepted = [⟨row, settledVerified⟩]) ∧ LinearStream s sampleStream := by
  obtain ⟨hash, hreachable⟩ : ∃ hash, EvidenceReachable echoScheme samplePemKey (fun _ _ _ => True)
      (empty.persist sampleChoice (samplePersist settledEvents settledVerified hash)).2 :=
    settled_sampleBatch.reachable (fun _ _ => trivial) fun _ => trivial
  obtain ⟨row, haccepted⟩ := settled_accepted hash
  refine ⟨_, hreachable, ⟨row, haccepted⟩, linear_of_reachable hreachable ?_ sampleStream⟩
  exact (chained_of_reachable hreachable).injOn_payloads (settled_nodup haccepted)

end Overture
