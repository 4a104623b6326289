import Overture.Lib.RelyGuarantee
import Overture.Lib.Uuid
import Overture.Api.EvidenceStore

/-!
# Links between runs and evidence

A verified batch of evidence may be linked to one contract-bound run of its tenant. The handler checks whether the
batch is eligible, looks for a link of another run and inserts, each in its own statement. A run that has a link with
the digest of the batch is answered with its latest link.
-/

namespace Overture

open Json Interleave List

structure BoundActionRun where
  taskID : Uuid
  (tenantID contractHash : Text)

structure EvidenceLink where
  (id taskID : Uuid)
  (tenantID chainDigest : Text)
  batchID : Uuid
  createdAt : Int
deriving DecidableEq

namespace EvidenceLink

/-- The unique index of migration 070. -/
def runDigest (l : EvidenceLink) : Text × Uuid × Text := (l.tenantID, l.taskID, l.chainDigest)

/-- The two exclusive indexes of migration 071. -/
def batch (l : EvidenceLink) : Text × Uuid := (l.tenantID, l.batchID)

def digest (l : EvidenceLink) : Text × Text := (l.tenantID, l.chainDigest)

def run (l : EvidenceLink) : Text × Uuid := (l.tenantID, l.taskID)

end EvidenceLink

structure EvidenceLinks where
  rows : List EvidenceLink
  nodup_id : (rows.map EvidenceLink.id).Nodup
  nodup_runDigest : (rows.map EvidenceLink.runDigest).Nodup
  nodup_batch : (rows.map EvidenceLink.batch).Nodup
  nodup_digest : (rows.map EvidenceLink.digest).Nodup

namespace EvidenceLinks

def empty : EvidenceLinks := ⟨[], by simp, by simp, by simp, by simp⟩

def add (l : EvidenceLink) (t : EvidenceLinks) : Option EvidenceLinks :=
  if h : l.id ∉ t.rows.map EvidenceLink.id ∧ l.runDigest ∉ t.rows.map EvidenceLink.runDigest ∧
      l.batch ∉ t.rows.map EvidenceLink.batch ∧ l.digest ∉ t.rows.map EvidenceLink.digest then
    some {
      rows := t.rows ++ [l]
      nodup_id := by simpa using t.nodup_id.concat h.1
      nodup_runDigest := by simpa using t.nodup_runDigest.concat h.2.1
      nodup_batch := by simpa using t.nodup_batch.concat h.2.2.1
      nodup_digest := by simpa using t.nodup_digest.concat h.2.2.2 }
  else none

theorem rows_add {l : EvidenceLink} {t t' : EvidenceLinks} (h : t.add l = some t') : t'.rows = t.rows ++ [l] := by
  rw [add] at h
  split at h
  · rw [← Option.some.inj h]
  · cases h

end EvidenceLinks

/-! ## Statements -/

structure EvidenceLinkEligibility where
  chainDigest : Text
  batchID : Uuid
  (inputHash actionName : Text)

structure LinkDb where
  evidence : EvidenceDb
  runs : List BoundActionRun
  definitions : List (Text × Uuid × Text)
  links : EvidenceLinks

structure EligibilityQuery where
  tenantID : Text
  (taskID batchID : Uuid)
  (contractHash actionName inputHash : Text)

namespace LinkDb

def decides (q : EligibilityQuery) (b : EvidenceBatchRow) (e : EvidenceEventRow) : Bool :=
  e.batchID == b.id && e.stream.1 == b.stream.1 && e.contractHash == q.contractHash && e.actionName == q.actionName &&
    e.eventType == .decision && e.event.text? "input_hash" == some q.inputHash

def linkedElsewhere (q : EligibilityQuery) (b : EvidenceBatchRow) (l : EvidenceLink) : Bool :=
  l.tenantID == b.stream.1 && (l.batchID.toText == b.id || some l.chainDigest == b.chainHead) && l.taskID != q.taskID

def eligibleBatch (q : EligibilityQuery) (s : LinkDb) : Option Text :=
  (s.evidence.batches.rows.find? fun b =>
    b.id == q.batchID.toText && b.stream.1 == q.tenantID && b.isVerified && b.chainHead.isSome &&
      s.evidence.events.rows.any (decides q b) && !s.links.rows.any (linkedElsewhere q b)).bind
    EvidenceBatchRow.chainHead

def conflictingLink (tenantID : Text) (batchID : Uuid) (chainDigest : Text) (taskID : Uuid) (s : LinkDb) : Bool :=
  s.links.rows.any fun l =>
    l.tenantID == tenantID && (l.batchID == batchID || l.chainDigest == chainDigest) && l.taskID != taskID

def latestLinks (tenantID : Text) (taskID : Uuid) (s : LinkDb) : List EvidenceLink :=
  let links := s.links.rows.filter fun l => l.run == (tenantID, taskID)
  links.filter fun l => links.all fun k => decide (k.createdAt ≤ l.createdAt)

end LinkDb

inductive LinkOp where
  | getBoundActionRun (taskID : Uuid) (tenantID : Text)
  | getTask (taskID : Uuid) (tenantID : Text)
  | eligibility (q : EligibilityQuery)
  | selectConflict (tenantID : Text) (batchID : Uuid) (chainDigest : Text) (taskID : Uuid)
  | insertLink (tenantID : Text) (taskID : Uuid) (chainDigest : Text) (batchID : Uuid)
  | loadLink (taskID : Uuid) (tenantID : Text)

inductive LinkInserted where
  | stored (link : EvidenceLink)
  | nothing
  | duplicate

/-- An error of the database is `none`. -/
def LinkOp.Res : LinkOp → Type
  | getBoundActionRun _ _ => Option (Option BoundActionRun)
  | getTask _ _ => Option (Option Text)
  | eligibility _ => Option (Option Text)
  | selectConflict _ _ _ _ => Option Bool
  | insertLink _ _ _ _ => Option LinkInserted
  | loadLink _ _ => Option (Option EvidenceLink)

def linkInterface : Interface := ⟨LinkOp, LinkOp.Res⟩

/-- `raced` says that the row an insert collides with was committed while the insert was under way. -/
structure LinkChoice where
  (answered effective : Bool)
  pick : Nat
  raced : Bool
  id : Uuid
  createdAt : Int

def LinkChoice.link (c : LinkChoice) (tenantID : Text) (taskID : Uuid) (chainDigest : Text) (batchID : Uuid) :
    EvidenceLink := ⟨c.id, taskID, tenantID, chainDigest, batchID, c.createdAt⟩

def LinkChoice.reply {α : Type} (c : LinkChoice) (a : α) : Option α := if c.answered = true then some a else none

namespace LinkDb

/-- `ON CONFLICT (tenant_id, task_id, evidence_chain_digest) DO NOTHING`; any other collision is an error. -/
def inserted (c : LinkChoice) (l : EvidenceLink) (s : LinkDb) : LinkInserted :=
  if l.runDigest ∈ s.links.rows.map EvidenceLink.runDigest then if c.raced = true then .duplicate else .nothing
  else
    match s.links.add l with
    | some _ => .stored l
    | none => .duplicate

def afterInsert (l : EvidenceLink) (s : LinkDb) : LinkDb :=
  match s.links.add l with
  | some links => { s with links }
  | none => s

def answer (c : LinkChoice) (s : LinkDb) : (o : LinkOp) → o.Res
  | .getBoundActionRun taskID tenantID =>
    c.reply (s.runs.find? fun r => r.taskID == taskID && r.tenantID == tenantID)
  | .getTask taskID tenantID =>
    c.reply ((s.definitions.find? fun d => d.1 == tenantID && d.2.1 == taskID).map fun d => d.2.2)
  | .eligibility q => c.reply (s.eligibleBatch q)
  | .selectConflict tenantID batchID digest taskID => c.reply (s.conflictingLink tenantID batchID digest taskID)
  | .insertLink tenantID taskID digest batchID => c.reply (s.inserted c (c.link tenantID taskID digest batchID))
  | .loadLink taskID tenantID => c.reply (EvidenceDb.pick c.pick (s.latestLinks tenantID taskID))

def effect (c : LinkChoice) (s : LinkDb) : LinkOp → LinkDb
  | .insertLink tenantID taskID digest batchID =>
    if c.answered = true ∨ c.effective = true then s.afterInsert (c.link tenantID taskID digest batchID) else s
  | _ => s

end LinkDb

structure LinkRequest where
  tenantID : Text
  (taskID batchID : Uuid)
deriving DecidableEq

inductive LinkResponse where
  | linked (link : EvidenceLink) (eligibility : EvidenceLinkEligibility)
  | notFound
  | notLinkable (message : String)
  | dbError

abbrev LinkProg := Prog linkInterface LinkRequest LinkResponse

def linkStatement (o : LinkOp) : Prog linkInterface LinkRequest o.Res := @Prog.perform linkInterface LinkRequest o

def replayLink (req : LinkRequest) (elig : EvidenceLinkEligibility) : LinkProg :=
  (linkStatement (.loadLink req.taskID req.tenantID)).bind fun
    | some (some link) => .ret (.linked link elig)
    | _ => .ret .dbError

def insertEvidenceLinkExclusive (req : LinkRequest) (elig : EvidenceLinkEligibility) : LinkProg :=
  (linkStatement (.selectConflict req.tenantID elig.batchID elig.chainDigest req.taskID)).bind fun
    | none => .ret .dbError
    | some true => .ret (.notLinkable "evidence batch or chain already linked to another run")
    | some false =>
      (linkStatement (.insertLink req.tenantID req.taskID elig.chainDigest elig.batchID)).bind fun
        | none => .ret .dbError
        | some (.stored link) => .ret (.linked link elig)
        | some .nothing => replayLink req elig
        | some .duplicate => .ret (.notLinkable "evidence batch or chain already linked to another run")

def notLinkableMessage : String :=
  "batch must be verified Embedded evidence for this exact run identity (tenant, action_name, contract_hash, " ++
    "tool input_hash) and must not be linked to another run"

section

-- reads the action name and the digest of the tool input from the definition of a task
variable (extractBoundToolContext : Text → Option (Text × Text))

def evaluateEvidenceLinkEligibility (req : LinkRequest) (bound : BoundActionRun) (definition : Text) : LinkProg :=
  match extractBoundToolContext definition with
  | none => .ret (.notLinkable "bound_run_tool_identity_unproven")
  | some (actionName, inputHash) =>
    if actionName = [] ∨ contractHashPattern inputHash = false then
      .ret (.notLinkable "bound_run_tool_identity_unproven")
    else if contractHashPattern bound.contractHash = false then .ret (.notLinkable "invalid_bound_contract_hash")
    else
      (linkStatement (.eligibility
        ⟨req.tenantID, req.taskID, req.batchID, bound.contractHash, actionName, inputHash⟩)).bind fun
          | none => .ret .dbError
          | some none => .ret (.notLinkable notLinkableMessage)
          | some (some chainDigest) =>
            if contractHashPattern chainDigest = false then .ret (.notLinkable "invalid_chain_digest")
            else insertEvidenceLinkExclusive req ⟨chainDigest, req.batchID, inputHash, actionName⟩

def handleActionEvidenceLinkCreate (req : LinkRequest) : LinkProg :=
  (linkStatement (.getBoundActionRun req.taskID req.tenantID)).bind fun
    | none => .ret .dbError
    | some none => .ret .notFound
    | some (some bound) =>
      (linkStatement (.getTask req.taskID req.tenantID)).bind fun
        | none => .ret .dbError
        | some none => .ret .notFound
        | some (some definition) => evaluateEvidenceLinkEligibility extractBoundToolContext req bound definition

def linkSystem : System linkInterface LinkRequest LinkResponse LinkDb where
  Choice := LinkChoice
  exec c _ o s := some (s.answer c o, s.effect c o)
  body := handleActionEvidenceLinkCreate extractBoundToolContext
  external _ := true
  forked _ _ _ s := s
  returned _ s := s
  Event := EvidenceDb × List BoundActionRun × List (Text × Uuid × Text)
  env e s := some { s with evidence := e.1, runs := e.2.1, definitions := e.2.2 }

end

def Exclusive (s : LinkDb) : Prop :=
  ∀ l ∈ s.links.rows, ∀ l' ∈ s.links.rows, l.tenantID = l'.tenantID →
    l.batchID = l'.batchID ∨ l.chainDigest = l'.chainDigest → l.taskID = l'.taskID

theorem exclusive (s : LinkDb) : Exclusive s := by
  intro l hl l' hl' htenant hsame
  rcases hsame with hbatch | hdigest
  · rw [inj_on_of_nodup_map s.links.nodup_batch hl hl' (Prod.ext htenant hbatch)]
  · rw [inj_on_of_nodup_map s.links.nodup_digest hl hl' (Prod.ext htenant hdigest)]

/-! ## What a request is answered -/

def SingleBatch (s : LinkDb) : Prop :=
  ∀ l ∈ s.links.rows, ∀ l' ∈ s.links.rows, l.run = l'.run → l.batchID = l'.batchID

def KeepsBatch (_ : LinkChoice) (o : LinkOp) (s : LinkDb) : Prop :=
  ∀ tenantID taskID digest batchID, o = .insertLink tenantID taskID digest batchID →
    ∀ l ∈ s.links.rows, l.run = (tenantID, taskID) → l.batchID = batchID

def Requested (req : LinkRequest) (s : LinkDb) (link : EvidenceLink) : Prop :=
  link ∈ s.links.rows ∧ link.run = (req.tenantID, req.taskID) ∧ link.batchID = req.batchID

def LinkDb.Extends (s s' : LinkDb) : Prop := s.links.rows <+: s'.links.rows

theorem Requested.mono {req : LinkRequest} {s s' : LinkDb} (h : s.Extends s') {link : EvidenceLink}
    (hlink : Requested req s link) : Requested req s' link := ⟨h.subset hlink.1, hlink.2⟩

theorem afterInsert_cases (l : EvidenceLink) (s : LinkDb) :
    s.afterInsert l = s ∨ (s.afterInsert l).links.rows = s.links.rows ++ [l] := by
  rw [LinkDb.afterInsert]
  split
  · next links hadd => exact .inr (EvidenceLinks.rows_add hadd)
  · exact .inl rfl

theorem effect_cases (c : LinkChoice) (s : LinkDb) (o : LinkOp) :
    s.effect c o = s ∨ ∃ tenantID taskID digest batchID, o = .insertLink tenantID taskID digest batchID ∧
      (s.effect c o).links.rows = s.links.rows ++ [c.link tenantID taskID digest batchID] := by
  cases o with
  | insertLink tenantID taskID digest batchID =>
    rw [LinkDb.effect]
    split
    · exact (afterInsert_cases (c.link tenantID taskID digest batchID) s).imp id
        fun h => ⟨tenantID, taskID, digest, batchID, rfl, h⟩
    · exact .inl rfl
  | _ => exact .inl rfl

theorem extends_effect (c : LinkChoice) (s : LinkDb) (o : LinkOp) : s.Extends (s.effect c o) := by
  rcases effect_cases c s o with h | ⟨_, _, _, _, -, h⟩
  · rw [h]
    exact prefix_refl _
  · rw [LinkDb.Extends, h]
    exact prefix_append _ _

theorem singleBatch_effect {c : LinkChoice} {s : LinkDb} {o : LinkOp} (hok : KeepsBatch c o s) (h : SingleBatch s) :
    SingleBatch (s.effect c o) := by
  rcases effect_cases c s o with hsame | ⟨tenantID, taskID, digest, batchID, ho, hrows⟩
  · rwa [hsame]
  have hold := hok tenantID taskID digest batchID ho
  rw [SingleBatch, hrows]
  intro l hl l' hl' hrun
  rcases mem_append.mp hl with hl | hl
  · rcases mem_append.mp hl' with hl' | hl'
    · exact h l hl l' hl' hrun
    · obtain rfl := mem_singleton.mp hl'
      exact hold l hl hrun
  obtain rfl := mem_singleton.mp hl
  rcases mem_append.mp hl' with hl' | hl'
  · exact (hold l' hl' hrun.symm).symm
  · rw [mem_singleton.mp hl']

variable (toolContext : Text → Option (Text × Text))

def linkRules : Rules (linkSystem toolContext) where
  ok c _ o s := KeepsBatch c o s
  inv := SingleBatch
  rely _ s s' := s.Extends s'
  guar _ s s' := s.Extends s' ∧ (SingleBatch s → SingleBatch s')
  fresh _ _ := True
  atOp _ _ _ := True
  start _ _ _ := True
  post req _ a s := ∀ link elig, a = .linked link elig → Requested req s link

variable {toolContext}

section Wp

variable {i : Nat} {req : LinkRequest} {s : LinkDb}

def Answers (req : LinkRequest) (a : LinkResponse) (s : LinkDb) : Prop :=
  ∀ link elig, a = .linked link elig → Requested req s link

theorem wp_linkStatement {Q : LinkResponse → LinkDb → Prop} {o : LinkOp} {k : o.Res → LinkProg}
    (h : ∀ s₁, s.Extends s₁ → SingleBatch s₁ → ∀ c, KeepsBatch c o s₁ →
      (linkRules toolContext).Wp i Q (k (s₁.answer c o)) (s₁.effect c o)) :
    (linkRules toolContext).Wp i Q ((linkStatement o).bind k) s := by
  intro s₁ hrely hinv
  refine ⟨trivial, fun c r s₂ hok hexec => ?_⟩
  cases hexec
  exact ⟨⟨extends_effect c s₁ o, singleBatch_effect hok⟩, h s₁ hrely hinv c hok⟩

theorem reply_eq_some {α : Type} {c : LinkChoice} {a b : α} (h : c.reply a = some b) : c.answered = true ∧ a = b := by
  rw [LinkChoice.reply] at h
  split at h
  · next hanswered => exact ⟨hanswered, Option.some.inj h⟩
  · cases h

theorem wp_replayLink {l : EvidenceLink} (hl : Requested req s l) (elig : EvidenceLinkEligibility) :
    (linkRules toolContext).Wp i (Answers req) (replayLink req elig) s := by
  refine wp_linkStatement fun s₁ hs₁ hsingle c _ => ?_
  split
  · next link hanswer =>
    rintro link' elig' heq
    cases heq
    have hmem := mem_of_getElem? (reply_eq_some hanswer).2
    obtain ⟨hrow, hrun⟩ := mem_filter.mp (mem_filter.mp hmem).1
    obtain ⟨hl₁, hlrun, hlbatch⟩ := hl.mono hs₁
    have hrun : link.run = (req.tenantID, req.taskID) := beq_iff_eq.mp hrun
    exact ⟨hrow, hrun, (hsingle link hrow l hl₁ (hrun.trans hlrun.symm)).trans hlbatch⟩
  · rintro link' elig' heq
    cases heq

theorem inserted_stored {c : LinkChoice} {l link : EvidenceLink} (h : s.inserted c l = .stored link) :
    link = l ∧ l ∈ (s.afterInsert l).links.rows := by
  rw [LinkDb.inserted] at h
  split at h
  · split at h <;> cases h
  split at h
  · next links hadd =>
    refine ⟨(LinkInserted.stored.inj h).symm, ?_⟩
    rw [LinkDb.afterInsert, hadd]
    dsimp only
    rw [EvidenceLinks.rows_add hadd]
    simp
  · cases h

theorem inserted_nothing {c : LinkChoice} {l : EvidenceLink} (h : s.inserted c l = .nothing) :
    ∃ l' ∈ s.links.rows, l'.run = l.run := by
  rw [LinkDb.inserted] at h
  split at h
  · next hmem =>
    obtain ⟨l', hl', heq⟩ := mem_map.mp hmem
    obtain ⟨htenant, hrest⟩ := Prod.mk.inj heq
    exact ⟨l', hl', Prod.ext htenant (Prod.mk.inj hrest).1⟩
  · split at h <;> cases h

theorem wp_insertEvidenceLinkExclusive {elig : EvidenceLinkEligibility} (helig : elig.batchID = req.batchID) :
    (linkRules toolContext).Wp i (Answers req) (insertEvidenceLinkExclusive req elig) s := by
  refine wp_linkStatement fun s₁ _ _ c _ => ?_
  split
  · exact nofun
  · exact nofun
  refine wp_linkStatement fun s₂ _ _ c hok => ?_
  split
  · exact nofun
  · next link hanswer =>
    obtain ⟨hanswered, h⟩ := reply_eq_some hanswer
    obtain ⟨rfl, hmem⟩ := inserted_stored h
    rw [LinkDb.effect, if_pos (.inl hanswered)]
    rintro link' elig' heq
    cases heq
    exact ⟨hmem, rfl, helig⟩
  · next hanswer =>
    obtain ⟨l', hl', hrun⟩ := inserted_nothing (reply_eq_some hanswer).2
    have hbatch := hok _ _ _ _ rfl l' hl' hrun
    exact wp_replayLink (Requested.mono (extends_effect c s₂ _) ⟨hl', hrun, hbatch.trans helig⟩) elig
  · exact nofun

theorem wp_evaluateEvidenceLinkEligibility (bound : BoundActionRun) (definition : Text) :
    (linkRules toolContext).Wp i (Answers req)
      (evaluateEvidenceLinkEligibility toolContext req bound definition) s := by
  rw [evaluateEvidenceLinkEligibility]
  split
  · rintro _ _ ⟨⟩
  split
  · rintro _ _ ⟨⟩
  split
  · rintro _ _ ⟨⟩
  refine wp_linkStatement fun s₁ _ _ c _ => ?_
  split
  · rintro _ _ ⟨⟩
  · rintro _ _ ⟨⟩
  split
  · rintro _ _ ⟨⟩
  · exact wp_insertEvidenceLinkExclusive rfl

theorem wp_handleActionEvidenceLinkCreate (req : LinkRequest) :
    (linkRules toolContext).Wp i (Answers req) (handleActionEvidenceLinkCreate toolContext req) s := by
  refine wp_linkStatement fun s₁ _ _ c _ => ?_
  split
  · exact nofun
  · exact nofun
  refine wp_linkStatement fun s₂ _ _ c _ => ?_
  split
  · exact nofun
  · exact nofun
  · exact wp_evaluateEvidenceLinkEligibility _ _

end Wp

theorem linkRules_lawful : (linkRules toolContext).Lawful where
  rely_refl _ s := prefix_refl s.links.rows
  rely_trans _ _ _ _ h h' := List.IsPrefix.trans h h'
  guar_rely _ _ _ _ _ h := h.1
  guar_inv _ _ _ hinv h := h.2 hinv
  env_rely e s s' _ hs _ := by
    cases hs
    exact prefix_refl s.links.rows
  env_inv e s s' hinv hs := by
    cases hs
    exact hinv
  fresh_le _ _ _ _ _ := trivial
  fresh_guar _ _ _ _ _ _ _ := trivial
  fresh_fork _ _ _ _ _ _ := trivial
  fresh_env _ _ _ _ _ _ _ := trivial
  start_rely _ _ _ _ _ _ _ := trivial
  external_start _ _ _ _ _ _ := trivial
  post_rely _ _ _ _ _ _ hpost hrely link elig ha := (hpost link elig ha).mono hrely
  body_wp req _ _ _ _ := (wp_handleActionEvidenceLinkCreate req).mono fun _ s' hpost =>
    ⟨⟨prefix_refl s'.links.rows, id⟩, hpost⟩

def noLinks : LinkDb := ⟨.empty, [], [], .empty⟩

/-- Links are exclusive, and in every run in which a linked run is asked for with its own batch only, each
success reports the link of the batch that was requested. -/
theorem linked_as_requested {p : Pool linkInterface LinkRequest LinkResponse LinkDb}
    (h : (linkSystem toolContext).Reaches (fun c _ o s => KeepsBatch c o s) ⟨noLinks, []⟩ p) :
    Exclusive p.state ∧ ∀ (i : Nat) (req : LinkRequest) (link : EvidenceLink) (elig : EvidenceLinkEligibility),
      p.threads[i]? = some ⟨req, .ret (.linked link elig)⟩ → Requested req p.state link := by
  have hempty : SingleBatch noLinks := by
    exact nofun
  have hstart : (linkRules toolContext).Sound ⟨noLinks, []⟩ := ⟨hempty, trivial, by simp⟩
  have hsound := linkRules_lawful.sound_reaches hstart h
  exact ⟨exclusive p.state, fun i req link elig hi => hsound.good i _ hi link elig rfl⟩

/-! ## Two batches for one run -/

def digits (c : Char) : Text := List.replicate 64 c

def sampleBatchRow (id : Uuid) (c : Char) : EvidenceBatchRow where
  id := id.toText
  stream := ("t", [c])
  evidenceState := .verified
  contentHash := digits c
  firstPreviousEventHash := none
  chainHead := some (digits c)
  eventsAccepted := 1
  eventsVerified := 1
  receivedAt := 0
  verifiedAt := some 0
  verificationErrorCode := none
  issues := []

def sampleEventRow (id : Uuid) (c : Char) : EvidenceEventRow where
  event := .cons "input_hash" (.str (digits '0')) .nil
  eventHash := digits c
  eventID := [c]
  eventType := .decision
  actionName := "act"
  contractHash := digits '0'
  previousEventHash := none
  timestampUTC := 0
  stream := ("t", [c])
  batchID := id.toText

def twoBatches : EvidenceDb where
  keys := .empty
  batches := ⟨[sampleBatchRow 1 'a', sampleBatchRow 2 'b'], by decide +kernel, by decide +kernel, by decide +kernel⟩
  events := ⟨[sampleEventRow 1 'a', sampleEventRow 2 'b'], by decide +kernel⟩
  idempotency := .empty
  accepted := []

def sampleToolContext (_ : Text) : Option (Text × Text) := some ("act", digits '0')

def linkRequest (batchID : Uuid) : LinkRequest := ⟨"t", 7, batchID⟩

def linkChoice (id : Uuid) : LinkChoice := ⟨true, true, 0, false, id, id.val⟩

abbrev LinkMove := Move LinkRequest LinkChoice (EvidenceDb × List BoundActionRun × List (Text × Uuid × Text))

def linkMoves (i : Nat) (batchID id : Uuid) (steps : Nat) : List LinkMove :=
  .start (linkRequest batchID) :: List.replicate steps (.step i (linkChoice id))

def linkSetup : List LinkMove := [.env (twoBatches, [⟨7, "t", digits '0'⟩], [("t", 7, [])])]

def reported (p : Pool linkInterface LinkRequest LinkResponse LinkDb) (i : Nat) : Option (LinkRequest × Uuid) :=
  match p.threads[i]? with
  | some ⟨req, .ret (.linked link _)⟩ => some (req, link.batchID)
  | _ => none

theorem reported_eq_some {p : Pool linkInterface LinkRequest LinkResponse LinkDb} {i : Nat} {req : LinkRequest}
    {b : Uuid} (h : reported p i = some (req, b)) :
    ∃ link elig, p.threads[i]? = some ⟨req, .ret (.linked link elig)⟩ ∧ link.batchID = b := by
  rw [reported] at h
  split at h
  · next req' link elig hthread =>
    cases h
    exact ⟨link, elig, hthread, rfl⟩
  · cases h

/-- The first batch is asked for again after the second one was linked. -/
theorem repeated_link_reports_other :
    ∃ p, (linkSystem sampleToolContext).Reaches (linkSystem sampleToolContext).always ⟨noLinks, []⟩ p ∧
      ∃ link elig, p.threads[2]? = some ⟨linkRequest 1, .ret (.linked link elig)⟩ ∧ link.batchID = 2 := by
  have h : ((linkSystem sampleToolContext).run ⟨noLinks, []⟩
      (linkSetup ++ linkMoves 0 1 1 5 ++ linkMoves 1 2 2 5 ++ linkMoves 2 1 3 6 : List LinkMove)).bind
        (fun p => reported p 2) = some (linkRequest 1, 2) := by decide +kernel
  obtain ⟨p, hrun, hp⟩ := Option.bind_eq_some_iff.mp h
  exact ⟨p, System.reaches_of_run hrun, reported_eq_some hp⟩

def keepsBatch (_ : LinkChoice) (_ : Nat) (o : LinkOp) (s : LinkDb) : Bool :=
  match o with
  | .insertLink tenantID taskID _ batchID => s.links.rows.all fun l => l.run != (tenantID, taskID) || l.batchID == batchID
  | _ => true

theorem keepsBatch_sound (c : LinkChoice) (i : Nat) (o : LinkOp) (s : LinkDb) (h : keepsBatch c i o s = true) :
    KeepsBatch c o s := by
  rintro tenantID taskID digest batchID rfl l hl hrun
  have hl := all_eq_true.mp h l hl
  rw [hrun, bne_self_eq_false, Bool.false_or] at hl
  exact beq_iff_eq.mp hl

/-- A batch that is linked and asked for again. -/
theorem repeated_link_reported :
    ∃ p, (linkSystem sampleToolContext).Reaches (fun c _ o s => KeepsBatch c o s) ⟨noLinks, []⟩ p ∧
      ∃ link elig, p.threads[1]? = some ⟨linkRequest 1, .ret (.linked link elig)⟩ ∧
        Requested (linkRequest 1) p.state link := by
  have h : ((linkSystem sampleToolContext).checkedRun keepsBatch ⟨noLinks, []⟩
      (linkSetup ++ linkMoves 0 1 1 5 ++ linkMoves 1 1 2 6 : List LinkMove)).bind
        (fun p => reported p 1) = some (linkRequest 1, 1) := by decide +kernel
  obtain ⟨p, hrun, hp⟩ := Option.bind_eq_some_iff.mp h
  have hreaches := System.reaches_of_checkedRun keepsBatch_sound hrun
  obtain ⟨link, elig, hthread, -⟩ := reported_eq_some hp
  exact ⟨p, hreaches, link, elig, hthread, (linked_as_requested hreaches).2 1 _ link elig hthread⟩

end Overture
