import Overture.Sdk.Journal

/-!
# Tamper evidence of the journal

The events of a journal form a hash chain: what an event names is part of what its hash is taken of. Whoever holds a
journal can put signed lines together as they like; as long as no signature is forged, nothing but an initial part of
the journal is accepted.
-/

namespace Overture.Journal

open Json HashChain DocMap Option List Canonical

/-- What an event that extends the journal names: the hash of the last line, `null` at first. -/
def lastEventHash (journal : List Event) : Doc PyNumber :=
  match journal.getLast? with
  | none => .null
  | some event => (event.get? eventHashKey).getD .null

/-- The journals that `append_event` writes under a key: the builder puts the last hash into a
payload without hash and signature, and signs it. -/
inductive Written (scheme : SignatureScheme) (secret : scheme.Secret) : List Event → Prop
  | nil : Written scheme secret []
  | append {journal : List Event} {payload : Event} : Written scheme secret journal →
      payload.get? previousKey = some (lastEventHash journal) → payload.get? eventHashKey = none →
      payload.get? signatureKey = none →
      Written scheme secret
        (journal ++ [finalizeEvent payload fun digest => Base64.encode (scheme.sign secret digest)])

def previousOf (event : Event) : Option Text := event.text? previousKey

def hashOf (event : Event) : Text := Hex.encode (eventDigest (unsignedPayload event))

def SameValue (d d' : Doc PyNumber) : Prop := dumps d = dumps d'

structure SameEvent (event event' : Event) : Prop where
  members : ∀ key ≠ signatureKey,
    (event.get? key).map dumps = (event'.get? key).map dumps
  signature : signatureOf event = signatureOf event'

theorem sameValue_of_bytes {d d' : Canonical} (h : canonicalJsonBytes d = canonicalJsonBytes d') : SameValue d d' :=
  print_inj d.dumps_wf d'.dumps_wf (Utf8.encode_inj h)

theorem eq_str_of_dumps {d : Doc PyNumber} {s : Text} (h : SameValue d (.str s)) : d = .str s := by
  cases d with
  | str t =>
    have hraw : t.flatMap escapeControl = s.flatMap escapeControl := Value.str.inj h
    rw [flatMap_spell_inj spells_escapeControl hraw]
  | arr items =>
    change Value.array (items.write PyNumber.text escapeControl) = _ at h
    cases hitems : items.write PyNumber.text escapeControl <;> simp [hitems, Value.array, dumps, Doc.write] at h
  | obj fields =>
    change Value.rawObject ((mapEntries (fields.write PyNumber.text escapeControl)).map (spelled escapeControl)) = _ at h
    cases hfields : (mapEntries (fields.write PyNumber.text escapeControl)).map (spelled escapeControl) <;>
      simp [hfields, Value.rawObject, dumps, Doc.write] at h
  | null | bool _ | num _ => cases h

variable {event event' : Event} {key : Text}

theorem text?_of_dumps
    (h : (event.get? key).map dumps = (event'.get? key).map dumps) {s : Text}
    (htext : event.text? key = some s) : event'.text? key = some s := by
  have hget : event.get? key = some (.str s) := by
    unfold text? at htext
    split at htext
    · next t ht => rw [ht, some.inj htext]
    · cases htext
  rw [hget, map_some, eq_comm, map_eq_some_iff] at h
  obtain ⟨d, hd, hdumps⟩ := h
  rw [text?, hd, eq_str_of_dumps hdumps]

theorem text?_congr
    (h : (event.get? key).map dumps = (event'.get? key).map dumps) :
    event.text? key = event'.text? key := by
  apply ext
  intro s
  exact ⟨text?_of_dumps h, text?_of_dumps h.symm⟩

theorem members_of_bytes
    (h : payloadBytes (unsignedPayload event) = payloadBytes (unsignedPayload event'))
    (hkey : key ∉ [eventHashKey, signatureKey]) :
    (event.get? key).map dumps = (event'.get? key).map dumps := by
  have hget := get?_written spells_escapeControl (sameValue_of_bytes h) key
  rwa [unsignedPayload, unsignedPayload, get?_without hkey, get?_without hkey] at hget

theorem previousOf_of_bytes
    (h : payloadBytes (unsignedPayload event) = payloadBytes (unsignedPayload event')) :
    previousOf event = previousOf event' :=
  text?_congr (members_of_bytes h (by decide))

section

variable {scheme : SignatureScheme} {secret : scheme.Secret} {journal : List Event}

theorem unsignedPayload_finalizeEvent {payload : Event} (hhash : payload.get? eventHashKey = none)
    (hsignature : payload.get? signatureKey = none) (sign : List UInt8 → Text) :
    unsignedPayload (finalizeEvent payload sign) = payload := by
  rw [unsignedPayload, finalizeEvent, without_set (by simp), without_set (by simp)]
  apply without_eq_self
  intro key hkey
  rcases mem_pair.mp hkey with rfl | rfl
  · exact hhash
  · exact hsignature

theorem text?_eventHashKey_finalizeEvent (payload : Event) (sign : List UInt8 → Text) :
    (finalizeEvent payload sign).text? eventHashKey = some (Hex.encode (eventDigest payload)) := by
  have hne : signatureKey ≠ eventHashKey := by decide
  rw [text?, finalizeEvent, get?_set, if_neg hne, get?_set, if_pos rfl]

theorem get?_previousKey_finalizeEvent (payload : Event) (sign : List UInt8 → Text) :
    (finalizeEvent payload sign).get? previousKey = payload.get? previousKey := by
  have hsignature : signatureKey ≠ previousKey := by decide
  have hhash : eventHashKey ≠ previousKey := by decide
  rw [finalizeEvent, get?_set, if_neg hsignature, get?_set, if_neg hhash]

theorem Written.text?_eventHashKey (h : Written scheme secret journal) :
    ∀ event ∈ journal, event.text? eventHashKey = some (hashOf event) := by
  induction h with
  | nil => simp
  | append _ _ hhash hsignature ih =>
    intro event hevent
    rcases mem_append.mp hevent with hevent | hevent
    · exact ih event hevent
    rw [mem_singleton.mp hevent, text?_eventHashKey_finalizeEvent, hashOf,
      unsignedPayload_finalizeEvent hhash hsignature]

theorem get?_of_text? {event : Event} {key s : Text} (h : event.text? key = some s) :
    event.get? key = some (.str s) := by
  unfold text? at h
  split at h
  · next t ht => rw [ht, some.inj h]
  · cases h

theorem Written.links (h : Written scheme secret journal) : Links previousOf hashOf none journal := by
  induction h with
  | nil => trivial
  | @append journal payload hwritten hprevious hhash hsignature ih =>
    refine links_append.mpr ⟨ih, ?_, trivial⟩
    rw [previousOf, text?, get?_previousKey_finalizeEvent, hprevious, tip_eq_getLast?, lastEventHash]
    cases hlast : journal.getLast? with
    | none => rfl
    | some event =>
      have hstored := get?_of_text? (hwritten.text?_eventHashKey event (mem_of_getLast? hlast))
      simp [hstored]

structure Verified (scheme : SignatureScheme) (publicKey : List UInt8) (event : Event) : Prop where
  hash : event.text? eventHashKey = some (hashOf event)
  signed : ∃ signature, signatureOf event = some signature ∧
    scheme.verify publicKey (eventDigest (unsignedPayload event)) signature = true

variable {publicKey : List UInt8}

theorem previousOf_of_names {event : Event} {expected : Option Text} (h : namesPrevious event expected = true) :
    previousOf event = expected := by
  unfold namesPrevious at h
  split at h
  · next hget => rw [previousOf, text?, hget]
  · next s hash hget => rw [previousOf, text?, hget, ← beq_iff_eq.mp h]
  · cases h

theorem verifyEvent_nil {event : Event} {lineNumber : Nat} {expected : Option Text}
    (h : verifyEvent scheme publicKey event lineNumber expected = some []) :
    previousOf event = expected ∧ Verified scheme publicKey event := by
  unfold verifyEvent at h
  split at h
  · cases h
  split at h
  · cases h
  split at h
  · cases h
  split at h
  · cases h
  split at h
  · cases h
  obtain hnil := some.inj h
  simp only [payloadIssues, append_eq_nil_iff, ite_eq_left_iff, cons_ne_nil, imp_false, Bool.not_eq_true,
    Bool.not_eq_false] at hnil
  obtain ⟨⟨hprevious, hhash⟩, hsignature⟩ := hnil
  refine ⟨previousOf_of_names (by simpa using hprevious), by simpa [isText, hashOf] using hhash, ?_⟩
  split at hsignature
  · cases hsignature
  split at hsignature
  · next hany => exact (any_eq_true _ _).mp hany
  · cases hsignature

theorem loadLines_valid {lines : List (List UInt8)} {lineNumber : Nat} {previousHash : Option Text}
    {s : JournalSnapshot} (h : loadLines scheme publicKey lineNumber previousHash lines = some s)
    (hvalid : s.issues = []) :
    Links previousOf hashOf previousHash s.events ∧ ∀ event ∈ s.events, Verified scheme publicKey event := by
  induction lines generalizing lineNumber previousHash s with
  | nil =>
    cases h
    exact ⟨trivial, by simp⟩
  | cons rawLine rest ih =>
    rw [loadLines] at h
    split at h
    · exact ih h hvalid
    split at h
    · cases h
      cases hvalid
    · next event _ =>
      split at h
      · next issues tail hissues htail =>
        cases h
        obtain ⟨rfl, htailValid⟩ := append_eq_nil_iff.mp hvalid
        obtain ⟨hprevious, hverified⟩ := verifyEvent_nil hissues
        obtain ⟨hlinks, hall⟩ := ih htail htailValid
        rw [hverified.hash] at hlinks
        refine ⟨⟨hprevious, hlinks⟩, ?_⟩
        intro other hother
        rcases mem_cons.mp hother with rfl | hother
        · exact hverified
        · exact hall other hother
      · cases h
    · cases h
      cases hvalid

def SignedFor (scheme : SignatureScheme) (publicKey : List UInt8) (journal : List Event) (event : Event) : Prop :=
  ∀ signature, signatureOf event = some signature →
    scheme.verify publicKey (eventDigest (unsignedPayload event)) signature = true →
    ∃ entry ∈ journal, eventDigest (unsignedPayload entry) = eventDigest (unsignedPayload event) ∧
      signatureOf entry = some signature

theorem sameEvent_of_bytes {event entry : Event} (hevent : event.text? eventHashKey = some (hashOf event))
    (hentry : entry.text? eventHashKey = some (hashOf entry)) (hsignature : signatureOf event = signatureOf entry)
    (hbytes : payloadBytes (unsignedPayload event) = payloadBytes (unsignedPayload entry)) : SameEvent event entry := by
  refine ⟨?_, hsignature⟩
  intro key hkey
  by_cases hhash : key = eventHashKey
  · have hsame : hashOf event = hashOf entry := by rw [hashOf, hashOf, eventDigest, eventDigest, hbytes]
    rw [hhash, get?_of_text? hevent, get?_of_text? hentry, hsame]
  · exact members_of_bytes hbytes (by simp [hhash, hkey])

/-- Whatever the verification accepts of events that were signed for a journal is an initial part of
the journal, up to the spelling of the signatures. -/
theorem accepted_isPrefix {raw : List UInt8} {s : JournalSnapshot} (hjournal : Written scheme secret journal)
    (hload : loadJournalSnapshot scheme (scheme.publicKey secret) raw = some s) (hvalid : s.valid = true)
    (hsigned : ∀ event ∈ s.events, SignedFor scheme (scheme.publicKey secret) journal event)
    (hhash : Set.InjOn Sha256.sum256 {bytes | ∃ event ∈ s.events ++ journal,
      payloadBytes (unsignedPayload event) = bytes}) :
    ∃ initial, initial <+: journal ∧ List.Forall₂ SameEvent s.events initial := by
  obtain ⟨hlinks, hverified⟩ := loadLines_valid hload (isEmpty_iff.mp hvalid)
  have hbytes : ∀ a ∈ s.events ++ journal, ∀ b ∈ s.events ++ journal,
      eventDigest (unsignedPayload a) = eventDigest (unsignedPayload b) →
      payloadBytes (unsignedPayload a) = payloadBytes (unsignedPayload b) :=
    fun a ha b hb heq => hhash ⟨a, ha, rfl⟩ ⟨b, hb, rfl⟩ heq
  have hentry : ∀ event ∈ s.events, ∃ entry ∈ journal, SameEvent event entry ∧
      payloadBytes (unsignedPayload event) = payloadBytes (unsignedPayload entry) := by
    intro event hevent
    obtain ⟨signature, hsignature, hverify⟩ := (hverified event hevent).signed
    obtain ⟨entry, hmem, hdigest, hsame⟩ := hsigned event hevent signature hsignature hverify
    have hpayload := hbytes event (mem_append_left _ hevent) entry (mem_append_right _ hmem) hdigest.symm
    exact ⟨entry, hmem, sameEvent_of_bytes (hverified event hevent).hash (hjournal.text?_eventHashKey entry hmem)
      (hsignature.trans hsame.symm) hpayload, hpayload⟩
  -- the entries that the accepted events stand for
  obtain ⟨initial, hinitial, hmem⟩ : ∃ initial, List.Forall₂ (fun event entry => SameEvent event entry ∧
      payloadBytes (unsignedPayload event) = payloadBytes (unsignedPayload entry)) s.events initial ∧
      ∀ entry ∈ initial, entry ∈ journal := by
    clear hlinks hverified hbytes hhash hsigned hload hvalid
    revert hentry
    generalize s.events = events
    intro hentry
    induction events with
    | nil => exact ⟨[], .nil, by simp⟩
    | cons event events ih =>
      obtain ⟨entry, hmem, hsame⟩ := hentry event mem_cons_self
      obtain ⟨initial, hinitial, hall⟩ := ih fun e he => hentry e (mem_cons_of_mem _ he)
      refine ⟨entry :: initial, .cons hsame hinitial, ?_⟩
      intro other hother
      rcases mem_cons.mp hother with rfl | hother
      · exact hmem
      · exact hall other hother
  have hchain : Links previousOf hashOf none initial := by
    refine (links_congr (hinitial.imp ?_)).mp hlinks
    rintro event entry ⟨-, hpayload⟩
    exact ⟨previousOf_of_bytes hpayload, by rw [hashOf, hashOf, eventDigest, eventDigest, hpayload]⟩
  have hnodup : (journal.map hashOf).Nodup := by
    refine nodup_of_links hjournal.links ?_
    intro a ha b hb heq
    have hdigest := congrArg Hex.decode heq
    rw [hashOf, hashOf, Hex.decode_encode, Hex.decode_encode, some_inj] at hdigest
    exact previousOf_of_bytes (hbytes a (mem_append_right _ ha) b (mem_append_right _ hb) hdigest)
  exact ⟨initial, isPrefix_of_links hjournal.links hnodup hchain hmem, hinitial.imp fun _ _ h => h.1⟩

end

def samplePayload (id : String) (previous : Doc PyNumber) : Event :=
  let text (key value : String) (rest : Event) : Event := .cons key.toList (.str value.toList) rest
  text "schema_version" "1" <| text "event_type" "outcome" <| text "event_id" id <| text "action_id" "" <|
    text "action_name" "" <| text "contract_hash" "" <| text "timestamp_utc" "" <|
    .cons "key_id" (.str (keyIdFor (echoScheme.publicKey ()))) <| .cons previousKey previous <|
    text "status" "" <| text "decision_event_id" "" .nil

def sampleSign (digest : List UInt8) : Text := Base64.encode (echoScheme.sign () digest)

def firstEvent : Event := finalizeEvent (samplePayload "1" .null) sampleSign

def secondEvent : Event := finalizeEvent (samplePayload "2" (lastEventHash [firstEvent])) sampleSign

def sampleFile : List UInt8 := canonicalJsonBytes (.obj firstEvent) ++ [10]

theorem sampleJournal_written : Written echoScheme () [firstEvent, secondEvent] :=
  .append (.append .nil rfl rfl rfl) rfl rfl rfl

theorem first_event_accepted : ∃ s, loadJournalSnapshot echoScheme (echoScheme.publicKey ()) sampleFile = some s ∧
    s.events.length = 1 ∧ ∃ initial, initial <+: [firstEvent, secondEvent] ∧ List.Forall₂ SameEvent s.events initial := by
  have hrun : ((loadJournalSnapshot echoScheme (echoScheme.publicKey ()) sampleFile).any fun s =>
      s.valid && s.events.length == 1 && s.events.all fun event =>
        payloadBytes (unsignedPayload event) == payloadBytes (unsignedPayload firstEvent) &&
          signatureOf event == signatureOf firstEvent) = true := by decide +kernel
  have hdiffer : eventDigest (unsignedPayload firstEvent) ≠ eventDigest (unsignedPayload secondEvent) := by
    decide +kernel
  obtain ⟨s, hload, hrest⟩ := (Option.any_eq_true _ _).mp hrun
  simp only [Bool.and_eq_true, beq_iff_eq, List.all_eq_true] at hrest
  obtain ⟨⟨hvalid, hlength⟩, hevents⟩ := hrest
  refine ⟨s, hload, hlength, accepted_isPrefix sampleJournal_written hload hvalid ?_ ?_⟩
  · intro event hevent signature hsignature _
    obtain ⟨hbytes, hsame⟩ := hevents event hevent
    exact ⟨firstEvent, List.mem_cons_self, by rw [eventDigest, eventDigest, hbytes], hsame.symm.trans hsignature⟩
  have hcases : ∀ event ∈ s.events ++ [firstEvent, secondEvent],
      payloadBytes (unsignedPayload event) = payloadBytes (unsignedPayload firstEvent) ∨
        payloadBytes (unsignedPayload event) = payloadBytes (unsignedPayload secondEvent) := by
    intro event hevent
    rcases List.mem_append.mp hevent with hevent | hevent
    · exact .inl (hevents event hevent).1
    rcases List.mem_pair.mp hevent with rfl | rfl
    · exact .inl rfl
    · exact .inr rfl
  rintro _ ⟨a, ha, rfl⟩ _ ⟨b, hb, rfl⟩ heq
  rcases hcases a ha with ha | ha <;> rcases hcases b hb with hb | hb <;> rw [ha, hb] at heq ⊢
  · exact absurd heq hdiffer
  · exact absurd heq.symm hdiffer

end Overture.Journal
