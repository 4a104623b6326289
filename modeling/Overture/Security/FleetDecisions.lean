import Overture.Lib.GoFormat
import Overture.Lib.Service
import Overture.Lib.Signature
import Overture.Lib.Table
import Overture.Lib.Utf8

/-!
# Signed routing decisions

A decision is verified by several statements: the key is looked up, the timestamp is compared with the clock, the nonce
is inserted unless it is there, the row with the nonce and the id is counted, and the signature is checked last. Calls
run beside each other and beside the deletion of expired nonces.
-/

namespace Overture.Fleet

open Json List Option Service

structure SignedDecision where
  decision : Any
  (tenantID decisionID : Text)
  timestamp : Int
  nonce : Text
  keyVersion : Int
deriving DecidableEq

def SignedDecision.marshal (d : SignedDecision) : Option (List UInt8) :=
  d.decision.toValue.map fun v => Utf8.encode (Value.object
    [("decision", v), ("tenant_id", .str (quote d.tenantID)),
      ("decision_id", .str (quote d.decisionID)), ("timestamp", .num (intLiteral d.timestamp)),
      ("nonce", .str (quote d.nonce)), ("key_version", .num (intLiteral d.keyVersion))]).print

structure Envelope where
  decision : SignedDecision
  signature : Text
deriving DecidableEq

structure Checked where
  envelope : Envelope
  publicKey : List UInt8
deriving DecidableEq

structure NonceRow where
  (nonce tenantID decisionID : Text)
  expiresAt : Int
  insertedBy : Checked
deriving DecidableEq

/-- How a call ends. A refused nonce comes with the key and the row that was there under the nonce. -/
inductive Outcome where
  | accepted
  | keyNotFound
  | timestampExpired
  | nonceReplay (publicKey : List UInt8) (found : Option NonceRow)
  | signatureUndecodable
  | unmarshallable
  | invalidSignature
  | statementFailed
deriving DecidableEq

structure Answer where
  envelope : Envelope
  outcome : Outcome
deriving DecidableEq

structure Ledger where
  now : Int
  keys : Text → Int → Option (List UInt8)
  nonces : Table NonceRow.nonce
  answers : List Answer

def Ledger.answer (s : Ledger) (e : Envelope) (o : Outcome) : Ledger := { s with answers := s.answers ++ [⟨e, o⟩] }

inductive Phase where
  | received (e : Envelope)
  | located (c : Checked)
  | fresh (c : Checked)
  | recording (c : Checked) (expiresAt : Int)
  | recorded (c : Checked)

def Phase.envelope : Phase → Envelope
  | .received e => e
  | .located c | .fresh c | .recording c _ | .recorded c => c.envelope

/-- What may happen to a statement. An insertion may be made although its answer is lost. -/
inductive Chance where
  | passes
  | fails
  | answerLost

def Envelope.time (e : Envelope) : Int := e.decision.timestamp * 1000000000

section

variable (scheme : SignatureScheme) (window : Int)

def checkSignature (c : Checked) : Outcome :=
  match Base64.decode false true c.envelope.signature with
  | none => .signatureUndecodable
  | some signature =>
    match c.envelope.decision.marshal with
    | none => .unmarshallable
    | some bytes => if scheme.verify c.publicKey bytes signature then .accepted else .invalidSignature

def nonceRow (c : Checked) (expiresAt : Int) : NonceRow :=
  ⟨c.envelope.decision.nonce, c.envelope.decision.tenantID, c.envelope.decision.decisionID, expiresAt, c⟩

def Ledger.recordedFor (s : Ledger) (d : SignedDecision) : Bool :=
  (s.nonces.get? d.nonce).any fun row => row.decisionID = d.decisionID

def exec : Chance → Phase → Ledger → Option (Ledger × Option Phase)
  | .passes, .received e, s =>
    match s.keys e.decision.tenantID e.decision.keyVersion with
    | none => some (s.answer e .keyNotFound, none)
    | some key => some (s, some (.located ⟨e, key⟩))
  | _, .received e, s => some (s.answer e .statementFailed, none)
  | _, .located c, s =>
    if window < |s.now - c.envelope.time| then some (s.answer c.envelope .timestampExpired, none)
    else some (s, some (.fresh c))
  | _, .fresh c, s => some (s, some (.recording c (s.now + window * 2)))
  | .passes, .recording c expiresAt, s =>
    some ({ s with nonces := s.nonces.putNew (nonceRow c expiresAt) }, some (.recorded c))
  | .answerLost, .recording c expiresAt, s =>
    some (({ s with nonces := s.nonces.putNew (nonceRow c expiresAt) } : Ledger).answer c.envelope .statementFailed,
      none)
  | .fails, .recording c _, s => some (s.answer c.envelope .statementFailed, none)
  | .passes, .recorded c, s =>
    if s.recordedFor c.envelope.decision then some (s.answer c.envelope (checkSignature scheme c), none)
    else some (s.answer c.envelope (.nonceReplay c.publicKey (s.nonces.get? c.envelope.decision.nonce)), none)
  | _, .recorded c, s => some (s.answer c.envelope .statementFailed, none)

/-- Time passes, `CleanupExpiredNonces` runs, and keys are created and rotated in any way. -/
inductive Event where
  | wait (d : Nat)
  | cleanupExpiredNonces
  | setKeys (keys : Text → Int → Option (List UInt8))

def env : Event → Ledger → Option Ledger
  | .wait d, s => some { s with now := s.now + d }
  | .cleanupExpiredNonces, s => some { s with nonces := s.nonces.keep fun row => decide (s.now ≤ row.expiresAt) }
  | .setKeys keys, s => some { s with keys }

def entry : Phase → Bool
  | .received _ => true
  | _ => false

def verifier : Service Ledger Phase Chance Event := ⟨entry, exec scheme window, env⟩

end

def untouched (now : Int) (keys : Text → Int → Option (List UInt8)) : Service.Pool Ledger Phase :=
  ⟨⟨now, keys, Table.empty, []⟩, []⟩

def accepts (d : SignedDecision) (answers : List Answer) : Nat :=
  answers.countP fun a => a.outcome = .accepted ∧ a.envelope.decision = d

def Interferes (scheme : SignatureScheme) (a : Answer) : Prop :=
  ∃ key row, a.outcome = .nonceReplay key (some row) ∧ checkSignature scheme ⟨a.envelope, key⟩ = .accepted ∧
    checkSignature scheme row.insertedBy ≠ .accepted

/-- No decision is accepted twice, and no forged envelope stands in the way of a genuine one. -/
structure SingleUse (scheme : SignatureScheme) (answers : List Answer) : Prop where
  once : ∀ d, accepts d answers ≤ 1
  undisturbed : ∀ a ∈ answers, ¬ Interferes scheme a

def presented (p : Service.Pool Ledger Phase) : List Envelope :=
  p.store.answers.map Answer.envelope ++ p.flights.map Phase.envelope

/-- An envelope is presented whose nonce was presented, if at all, with the same id and in another decision, or
when its timestamp has left the window. -/
def Careful (window : Int) (p : Service.Pool Ledger Phase) : Service.Move Phase Chance Event → Prop
  | .arrive f => ∀ e ∈ presented p, e.decision.nonce = f.envelope.decision.nonce →
      e.decision.decisionID = f.envelope.decision.decisionID ∧
        (e.decision = f.envelope.decision → window < p.store.now - f.envelope.time)
  | _ => True

instance (window : Int) (p : Service.Pool Ledger Phase) (m : Service.Move Phase Chance Event) :
    Decidable (Careful window p m) := by
  cases m <;> unfold Careful <;> infer_instance

def hopeful (window now : Int) (d : SignedDecision) : Phase → Bool
  | .received e => decide (e.decision = d ∧ now - e.time ≤ window)
  | .located c => decide (c.envelope.decision = d ∧ now - c.envelope.time ≤ window)
  | .fresh c | .recording c _ | .recorded c => decide (c.envelope.decision = d)

structure Sound (window : Int) (p : Service.Pool Ledger Phase) : Prop where
  ids : ∀ e ∈ presented p, ∀ e' ∈ presented p, e.decision.nonce = e'.decision.nonce →
    e.decision.decisionID = e'.decision.decisionID
  rows : ∀ row ∈ p.store.nonces.rows, ∃ e ∈ presented p,
    row.nonce = e.decision.nonce ∧ row.decisionID = e.decision.decisionID
  once : ∀ d, accepts d p.store.answers + p.flights.countP (hopeful window p.store.now d) ≤ 1
  undisturbed : ∀ a ∈ p.store.answers, ∀ key row, a.outcome ≠ .nonceReplay key (some row)

structure Steps (window : Int) (f : Phase) (s s' : Ledger) (f' : Option Phase) : Prop where
  now : s'.now = s.now
  rows : ∀ row ∈ s'.nonces.rows, row ∈ s.nonces.rows ∨
    (row.nonce = f.envelope.decision.nonce ∧ row.decisionID = f.envelope.decision.decisionID)
  next : (∃ g, f' = some g ∧ g.envelope = f.envelope ∧ s'.answers = s.answers ∧
      ∀ d, hopeful window s.now d g = true → hopeful window s.now d f = true) ∨
    ∃ o, f' = none ∧ s'.answers = s.answers ++ [⟨f.envelope, o⟩] ∧
      (o = .accepted → hopeful window s.now f.envelope.decision f = true) ∧
      ∀ key row, o = .nonceReplay key (some row) →
        row ∈ s.nonces.rows ∧ row.nonce = f.envelope.decision.nonce ∧
          row.decisionID ≠ f.envelope.decision.decisionID

section

variable {scheme : SignatureScheme} {window : Int}

variable {f : Phase} {s : Ledger} {d : SignedDecision} {p : Service.Pool Ledger Phase}

theorem steps_answer {o : Outcome} (haccepted : o ≠ .accepted)
    (hreplay : ∀ key row, o ≠ .nonceReplay key (some row)) : Steps window f s (s.answer f.envelope o) none where
  now := rfl
  rows _ hrow := .inl hrow
  next := .inr ⟨o, rfl, rfl, fun h => absurd h haccepted, fun key row h => absurd h (hreplay key row)⟩

theorem steps_go {g : Phase} (henvelope : g.envelope = f.envelope)
    (hhope : ∀ d, hopeful window s.now d g = true → hopeful window s.now d f = true) :
    Steps window f s s (some g) where
  now := rfl
  rows _ hrow := .inl hrow
  next := .inl ⟨g, rfl, henvelope, rfl, hhope⟩

theorem mem_putNew_nonceRow {c : Checked} {expiresAt : Int} {nonces : Table NonceRow.nonce} {row : NonceRow}
    (h : row ∈ (nonces.putNew (nonceRow c expiresAt)).rows) :
    row ∈ nonces.rows ∨
      (row.nonce = c.envelope.decision.nonce ∧ row.decisionID = c.envelope.decision.decisionID) := by
  rcases Table.mem_putNew h with rfl | h
  · exact .inr ⟨rfl, rfl⟩
  · exact .inl h

theorem checkSignature_ne_nonceReplay (c : Checked) (key : List UInt8) (row : Option NonceRow) :
    checkSignature scheme c ≠ .nonceReplay key row := by
  unfold checkSignature
  repeat' split
  all_goals simp

theorem exec_steps {chance : Chance} {s' : Ledger} {f' : Option Phase}
    (h : exec scheme window chance f s = some (s', f')) : Steps window f s s' f' := by
  cases f with
  | received e =>
    cases chance with
    | passes =>
      rw [exec] at h
      split at h
      · cases h
        exact steps_answer (f := .received e) (by simp) (by simp)
      · cases h
        exact steps_go rfl fun d hd => hd
    | fails | answerLost =>
      cases h
      exact steps_answer (f := .received e) (by simp) (by simp)
  | located c =>
    have hlocated : exec scheme window chance (.located c) s =
        if window < |s.now - c.envelope.time| then some (s.answer c.envelope .timestampExpired, none)
        else some (s, some (.fresh c)) := by
      cases chance <;> rfl
    rw [hlocated] at h
    split at h
    · cases h
      exact steps_answer (f := .located c) (by simp) (by simp)
    next hwindow =>
    cases h
    refine steps_go rfl fun d hd => ?_
    have hclose := le_abs_self (s.now - c.envelope.time)
    simp only [hopeful, decide_eq_true_eq] at hd ⊢
    exact ⟨hd, by omega⟩
  | fresh c =>
    have hfresh : exec scheme window chance (.fresh c) s = some (s, some (.recording c (s.now + window * 2))) := by
      cases chance <;> rfl
    rw [hfresh] at h
    cases h
    exact steps_go rfl fun d hd => hd
  | recording c expiresAt =>
    cases chance with
    | passes =>
      cases h
      exact ⟨rfl, fun row => mem_putNew_nonceRow, .inl ⟨_, rfl, rfl, rfl, fun d hd => hd⟩⟩
    | fails =>
      cases h
      exact steps_answer (f := .recording c expiresAt) (by simp) (by simp)
    | answerLost =>
      cases h
      exact ⟨rfl, fun row => mem_putNew_nonceRow, .inr ⟨_, rfl, rfl, by simp, by simp⟩⟩
  | recorded c =>
    cases chance with
    | passes =>
      rw [exec] at h
      split at h
      · cases h
        refine ⟨rfl, fun row hrow => .inl hrow, .inr ⟨_, rfl, rfl, fun _ => by simp [hopeful, Phase.envelope], ?_⟩⟩
        intro key row hreplay
        exact absurd hreplay (checkSignature_ne_nonceReplay c key (some row))
      next hcount =>
      cases h
      refine ⟨rfl, fun row hrow => .inl hrow, .inr ⟨_, rfl, rfl, by simp, ?_⟩⟩
      intro key row hreplay
      have hfound : s.nonces.get? c.envelope.decision.nonce = some row := (Outcome.nonceReplay.inj hreplay).2
      refine ⟨Table.mem_of_get? hfound, Table.key_of_get? hfound, fun hsame => hcount ?_⟩
      simp [Ledger.recordedFor, hfound, hsame, Phase.envelope]
    | fails | answerLost =>
      cases h
      exact steps_answer (f := .recorded c) (by simp) (by simp)

theorem decision_of_hopeful {now : Int} (h : hopeful window now d f = true) :
    f.envelope.decision = d := by
  cases f <;> simp_all [hopeful, Phase.envelope]

theorem accepts_append (d : SignedDecision) (answers : List Answer) (a : Answer) :
    accepts d (answers ++ [a]) =
      accepts d answers + if a.outcome = .accepted ∧ a.envelope.decision = d then 1 else 0 := by
  simp [accepts, countP_append, countP_cons]

theorem unused_of_not_presented (h : ∀ e ∈ presented p, e.decision ≠ d) :
    accepts d p.store.answers + p.flights.countP (hopeful window p.store.now d) = 0 := by
  have hanswers : accepts d p.store.answers = 0 := by
    rw [accepts, countP_eq_zero]
    intro a ha
    have hne := h a.envelope (mem_append_left _ (mem_map_of_mem ha))
    simp [hne]
  have hflights : p.flights.countP (hopeful window p.store.now d) = 0 := by
    rw [countP_eq_zero]
    intro f hf hhope
    exact h f.envelope (mem_append_right _ (mem_map_of_mem hf)) (decision_of_hopeful hhope)
  rw [hanswers, hflights]

theorem Sound.arrive {e : Envelope} (hp : Sound window p)
    (hok : Careful window p (.arrive (.received e))) : Sound window ⟨p.store, p.flights ++ [.received e]⟩ := by
  have hpresented : presented ⟨p.store, p.flights ++ [.received e]⟩ = presented p ++ [e] := by
    simp [presented, Phase.envelope]
  refine ⟨?_, ?_, fun d => ?_, hp.undisturbed⟩
  · rw [hpresented]
    intro e₁ hmem₁ e₂ hmem₂ hnonce
    rcases mem_append.mp hmem₁ with h₁ | h₁ <;> rcases mem_append.mp hmem₂ with h₂ | h₂
    · exact hp.ids e₁ h₁ e₂ h₂ hnonce
    · obtain rfl := mem_singleton.mp h₂
      exact (hok e₁ h₁ hnonce).1
    · obtain rfl := mem_singleton.mp h₁
      exact (hok e₂ h₂ hnonce.symm).1.symm
    · rw [mem_singleton.mp h₁, mem_singleton.mp h₂]
  · rw [hpresented]
    intro row hrow
    obtain ⟨e', he', hsame⟩ := hp.rows row hrow
    exact ⟨e', mem_append_left _ he', hsame⟩
  have honce := hp.once d
  rw [countP_append, countP_singleton]
  dsimp only
  split
  · next hhope =>
    -- the decision is new, or its timestamp has left the window
    simp only [hopeful, decide_eq_true_eq] at hhope
    obtain ⟨rfl, hclose⟩ := hhope
    have hunused : accepts e.decision p.store.answers +
        p.flights.countP (hopeful window p.store.now e.decision) = 0 := unused_of_not_presented fun e' he' hsame => by
      have hstale := (hok e' he' (by rw [hsame]; rfl)).2 hsame
      simp only [Phase.envelope] at hstale
      omega
    omega
  · omega

theorem Sound.act {l r : List Phase} {f' : Option Phase}
    (hp : Sound window p) (hflights : p.flights = l ++ f :: r) (h : Steps window f p.store s f') :
    Sound window ⟨s, l ++ f'.toList ++ r⟩ := by
  have hf : f.envelope ∈ presented p := mem_append_right _ (mem_map_of_mem (by simp [hflights]))
  have hsame (e : Envelope) : e ∈ presented ⟨s, l ++ f'.toList ++ r⟩ ↔ e ∈ presented p := by
    rcases h.next with ⟨g, rfl, hg, hanswers, -⟩ | ⟨o, rfl, hanswers, -, -⟩
    · simp [presented, hflights, hanswers, hg]
    simp only [presented, hflights, hanswers, map_append, map_cons, map_nil, mem_append,
      mem_cons, not_mem_nil, toList, or_false]
    tauto
  refine ⟨?_, ?_, fun d => ?_, ?_⟩
  · intro e₁ h₁ e₂ h₂
    exact hp.ids e₁ ((hsame e₁).mp h₁) e₂ ((hsame e₂).mp h₂)
  · intro row hrow
    rcases h.rows row hrow with hold | hnew
    · obtain ⟨e, he, hkey⟩ := hp.rows row hold
      exact ⟨e, (hsame e).mpr he, hkey⟩
    · exact ⟨f.envelope, (hsame _).mpr hf, hnew⟩
  · have honce := hp.once d
    rw [hflights, countP_append, countP_cons] at honce
    simp only [h.now, countP_append]
    rcases h.next with ⟨g, rfl, -, hanswers, hhope⟩ | ⟨o, rfl, hanswers, haccepted, -⟩
    · rw [hanswers]
      have hg : [g].countP (hopeful window p.store.now d) ≤ if hopeful window p.store.now d f = true then 1 else 0 := by
        rw [countP_singleton]
        split
        · next hd => rw [if_pos (hhope d hd)]
        · exact Nat.zero_le _
      simp only [toList]
      omega
    rw [hanswers, accepts_append]
    have hone : (if o = .accepted ∧ f.envelope.decision = d then 1 else 0) ≤
        if hopeful window p.store.now d f = true then 1 else 0 := by
      split
      · next hd =>
        obtain ⟨ho, rfl⟩ := hd
        rw [if_pos (haccepted ho)]
      · exact Nat.zero_le _
    simp only [toList, countP_nil]
    omega
  · intro a ha key row hreplay
    rcases h.next with ⟨g, rfl, -, hanswers, -⟩ | ⟨o, rfl, hanswers, -, hfound⟩
    · rw [hanswers] at ha
      exact hp.undisturbed a ha key row hreplay
    rw [hanswers] at ha
    rcases mem_append.mp ha with ha | ha
    · exact hp.undisturbed a ha key row hreplay
    obtain rfl := mem_singleton.mp ha
    -- the row under the nonce was left by a call that presented the same id
    obtain ⟨hrow, hnonce, hid⟩ := hfound key row hreplay
    obtain ⟨e, he, hkey, hdecision⟩ := hp.rows row hrow
    exact hid (hdecision.trans (hp.ids e he _ hf (hkey.symm.trans hnonce)))

theorem hopeful_of_later {now : Int} {n : Nat}
    (h : hopeful window (now + n) d f = true) : hopeful window now d f = true := by
  cases f <;> simp only [hopeful, decide_eq_true_eq] at h ⊢
  · exact ⟨h.1, by omega⟩
  · exact ⟨h.1, by omega⟩
  all_goals exact h

theorem Sound.event {e : Event} (hp : Sound window p)
    (h : env e p.store = some s) : Sound window ⟨s, p.flights⟩ := by
  cases e with
  | wait n =>
    cases h
    refine ⟨hp.ids, hp.rows, fun d => ?_, hp.undisturbed⟩
    have honce := hp.once d
    have hless : p.flights.countP (hopeful window (p.store.now + n) d) ≤
        p.flights.countP (hopeful window p.store.now d) :=
      countP_mono_left fun f _ => hopeful_of_later
    dsimp only
    omega
  | cleanupExpiredNonces =>
    cases h
    refine ⟨hp.ids, fun row hrow => ?_, hp.once, hp.undisturbed⟩
    exact hp.rows row (mem_of_mem_filter hrow)
  | setKeys keys =>
    cases h
    exact ⟨hp.ids, hp.rows, hp.once, hp.undisturbed⟩

theorem Sound.move {q : Service.Pool Ledger Phase} {m : Service.Move Phase Chance Event} (hp : Sound window p)
    (hok : Careful window p m) (h : (verifier scheme window).move p m = some q) : Sound window q := by
  cases m with
  | arrive f =>
    obtain ⟨hentry, rfl⟩ := move_arrive h
    cases f with
    | received e => exact hp.arrive hok
    | located | fresh | recording | recorded => cases hentry
  | act i c =>
    obtain ⟨l, f, r, s, f', -, hflights, hexec, rfl⟩ := move_act_split h
    exact hp.act hflights (exec_steps hexec)
  | env e =>
    obtain ⟨s, hevent, rfl⟩ := move_env h
    exact hp.event hevent

theorem sound_untouched (now : Int) (keys : Text → Int → Option (List UInt8)) :
    Sound window (untouched now keys) := by
  refine ⟨?_, ?_, ?_, ?_⟩ <;> simp [untouched, presented, Table.empty, accepts]

end

section Sample

def fiveMinutes : Int := 300000000000

def sampleKeys : Text → Int → Option (List UInt8) := fun _ _ => some (List.replicate 32 0)

def sampleDecision (decisionID : String) : SignedDecision :=
  ⟨.null, "t", decisionID.toList, 0, "n", 1⟩

def genuineEnvelope (decisionID : String) : Envelope :=
  ⟨sampleDecision decisionID, Base64.encode (echoScheme.sign () ((sampleDecision decisionID).marshal.getD []))⟩

def forgedEnvelope (decisionID : String) : Envelope := ⟨sampleDecision decisionID, []⟩

def wholeCall (e : Envelope) : List (Service.Move Phase Chance Event) :=
  .arrive (.received e) :: List.replicate 5 (.act 0 .passes)

end Sample

end Overture.Fleet
