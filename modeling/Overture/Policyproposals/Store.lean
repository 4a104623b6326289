import Overture.Lib.Except
import Overture.Lib.Service
import Overture.Lib.Table
import Overture.Lib.Utf8
import Overture.Lib.Uuid

/-!
# Policy proposals

A proposal is drafted, marked ready for review and approved; it is archived from any status. Every write is one
transaction whose first statement locks the row, so it is one step. An update and an approval read the row before; only
the approval looks at the status again when it writes.
-/

namespace Overture.Proposals

open Option Table
open Except (ensure need)

inductive Status where
  | draft
  | reviewReady
  | approved
  | archived
deriving DecidableEq

inductive PolicyMode where
  | requireApproval
  | block
deriving DecidableEq

structure MatchCriteria where
  (range matchActionName matchActionPrefix matchAgentID matchAgentType matchResultStatus : Text)
  (requireProofMissing requireRecoveryOccurred requireEvalFailed : Bool)
deriving DecidableEq

structure Simulation where
  policyMode : PolicyMode
  matchCriteria : MatchCriteria
  summary : Text
deriving DecidableEq

structure Proposal where
  proposalID : Uuid
  (tenantID name description : Text)
  status : Status
  policyMode : PolicyMode
  matchCriteria : MatchCriteria
  latestSimulation : Option Simulation
  createdBy : Text
  archived : Bool
deriving DecidableEq

def Proposal.content (p : Proposal) : Text × Text × PolicyMode × MatchCriteria :=
  (p.name, p.description, p.policyMode, p.matchCriteria)

structure CreateInput where
  (name description policyMode : Text)
  matchCriteria : MatchCriteria

structure UpdateInput where
  (name description policyMode : Option Text)
  matchCriteria : Option MatchCriteria
  status : Option Text

inductive StoreError where
  | notFound
  | invalidTransition
  | notSimulated
  | invalid (message : String)
  | database
deriving DecidableEq

/-! ## Checks of the input -/

def unsafeMarkers : List String :=
  ["prompt", "chain of thought", "chain-of-thought", "chain_of_thought", "hidden reasoning", "raw_body",
    "request_body", "response_body", "ciphertext", "nonce", "api key", "api_key", "apikey", "authorization:",
    "bearer ", "cookie", "private key", "private_key", "password", "-----begin"]

def looksUnsafe (value : Text) : Bool :=
  let lower := Text.toLower (Text.trimSpace value)
  unsafeMarkers.any (fun marker => Text.contains lower marker.toList) ||
    "sk-".toList.isPrefixOf lower || "igris_".toList.isPrefixOf lower

def tooLong (limit : Nat) (value : Text) : Bool := decide (limit < (Utf8.encode value).length)

def allowedPolicyMode (mode : Text) : Option PolicyMode :=
  if mode = "require_approval" then some .requireApproval
  else if mode = "block" then some .block
  else none

def allowedRanges : List Text := ["24h", "7d", "30d"]

def allowedResultStatuses : List Text :=
  ["completed", "failed", "canceled", "approval_required", "dispatched",
    "in_flight", "running", "pending"]

def validateMatchCriteria (criteria : MatchCriteria) : Except StoreError MatchCriteria := do
  let out : MatchCriteria :=
    { criteria with
      range := Text.trimSpace criteria.range
      matchActionName := Text.trimSpace criteria.matchActionName
      matchActionPrefix := Text.trimSpace criteria.matchActionPrefix
      matchAgentID := Text.trimSpace criteria.matchAgentID
      matchAgentType := Text.trimSpace criteria.matchAgentType
      matchResultStatus := Text.trimSpace criteria.matchResultStatus }
  let values := [out.matchActionName, out.matchActionPrefix, out.matchAgentID, out.matchAgentType]
  ensure (.invalid "range must be one of 24h, 7d, 30d") (allowedRanges.contains out.range)
  ensure (.invalid "match value must be at most 256 characters") !(values.any (tooLong 256))
  ensure (.invalid "match_result_status is not a known execution status")
    (out.matchResultStatus.isEmpty || allowedResultStatuses.contains out.matchResultStatus)
  ensure (.invalid "match criteria must not contain prompts, raw bodies, or secrets")
    !(values.any looksUnsafe)
  return out

structure NewProposal where
  (name description : Text)
  policyMode : PolicyMode
  matchCriteria : MatchCriteria

def validateCreateInput (input : CreateInput) : Except StoreError NewProposal := do
  let name := Text.trimSpace input.name
  let description := Text.trimSpace input.description
  ensure (.invalid "name is required") !name.isEmpty
  ensure (.invalid "name must be at most 120 characters") !(tooLong 120 name)
  ensure (.invalid "description must be at most 512 characters") !(tooLong 512 description)
  ensure (.invalid "proposal metadata must not contain prompts, raw bodies, or secrets")
    !(looksUnsafe name || looksUnsafe description)
  let policyMode ← need (.invalid "policy_mode must be require_approval or block")
    (allowedPolicyMode (Text.trimSpace input.policyMode))
  let matchCriteria ← validateMatchCriteria input.matchCriteria
  return { name, description, policyMode, matchCriteria }

inductive Readiness where
  | draft
  | reviewReady
deriving DecidableEq

def Readiness.status : Readiness → Status
  | draft => .draft
  | reviewReady => .reviewReady

structure Edit where
  (name description : Option Text)
  policyMode : Option PolicyMode
  matchCriteria : Option MatchCriteria
  readiness : Option Readiness
deriving DecidableEq

def validName (name : Text) : Except StoreError Text := do
  let v := Text.trimSpace name
  ensure (.invalid "name must not be empty") !v.isEmpty
  ensure (.invalid "name is invalid") !(tooLong 120 v || looksUnsafe v)
  return v

def validDescription (description : Text) : Except StoreError Text := do
  let v := Text.trimSpace description
  ensure (.invalid "description is invalid") !(tooLong 512 v || looksUnsafe v)
  return v

def validReadiness (status : Text) : Option Readiness :=
  if Text.trimSpace status = "draft" then some .draft
  else if Text.trimSpace status = "review_ready" then some .reviewReady
  else none

def validateUpdateInput (input : UpdateInput) : Except StoreError Edit := do
  let name ← input.name.mapM validName
  let description ← input.description.mapM validDescription
  let policyMode ← input.policyMode.mapM fun mode =>
    need (.invalid "policy_mode must be require_approval or block") (allowedPolicyMode (Text.trimSpace mode))
  let matchCriteria ← input.matchCriteria.mapM validateMatchCriteria
  let readiness ← input.status.mapM fun status =>
    need (.invalid "status may only be set to draft or review_ready") (validReadiness status)
  return { name, description, policyMode, matchCriteria, readiness }

def Edit.hasContentEdit (edit : Edit) : Bool :=
  edit.name.isSome || edit.description.isSome || edit.policyMode.isSome || edit.matchCriteria.isSome

def canEditContent (status : Status) : Bool := status == .draft

def canToggleReadiness (source target : Status) : Bool :=
  (source == .draft && target == .reviewReady) || (source == .reviewReady && target == .draft) || source == target

def Edit.permitted (edit : Edit) (current : Proposal) : Bool :=
  (!edit.hasContentEdit || canEditContent current.status) &&
    edit.readiness.all fun r => r.status == current.status || canToggleReadiness current.status r.status

/-- The columns an update writes: those it was given, and of the others what it has read. -/
def Edit.write (edit : Edit) (read row : Proposal) : Proposal :=
  { row with
    name := edit.name.getD read.name
    description := edit.description.getD read.description
    policyMode := edit.policyMode.getD read.policyMode
    matchCriteria := edit.matchCriteria.getD read.matchCriteria
    status := (edit.readiness.map Readiness.status).getD read.status }

abbrev Rows := Table Proposal.proposalID

def live (rows : Rows) (tenantID : Text) (proposalID : Uuid) : Option Proposal :=
  (rows.get? proposalID).filter fun p => p.tenantID == tenantID && !p.archived

def get (rows : Rows) (tenantID id : Text) : Option Proposal :=
  (Uuid.parse (Text.trimSpace id)).bind (live rows tenantID)

inductive Flight where
  | create (tenantID : Text) (input : CreateInput)
  | update (tenantID id : Text) (input : UpdateInput)
  | updating (tenantID : Text) (edit : Edit) (read : Proposal)
  | simulate (tenantID id : Text)
  | saveSimulation (tenantID : Text) (proposalID : Uuid) (simulation : Simulation)
  | approve (tenantID id : Text)
  | approving (tenantID : Text) (read : Proposal)
  | archive (tenantID id : Text)
  | answered (result : Except StoreError (Option Proposal))

/-- What a step takes from its surroundings: whether a statement or the commit fails, the identifier the database
draws, and the answer of the simulation engine. -/
structure Chance where
  fails : Bool := false
  newID : Uuid := 0
  summary : Option Text := none

def entry : Flight → Bool
  | .create .. | .update .. | .simulate .. | .approve .. | .archive .. => true
  | _ => false

def commit (c : Chance) (rows : Rows) (tenantID : Text) (proposalID : Uuid) (missing : StoreError)
    (change : Proposal → Option Proposal) : Rows × Option Flight :=
  if c.fails then (rows, some (.answered (.error .database)))
  else
    match (live rows tenantID proposalID).bind change with
    | none => (rows, some (.answered (.error missing)))
    | some p => (rows.put p, some (.answered (.ok (some p))))

def exec (c : Chance) : Flight → Rows → Option (Rows × Option Flight)
  | .create tenantID input, rows =>
    match validateCreateInput input with
    | .error e => some (rows, some (.answered (.error e)))
    | .ok new =>
      -- an identifier that is taken violates the primary key
      if c.fails || (rows.get? c.newID).isSome then some (rows, some (.answered (.error .database)))
      else
        let p : Proposal :=
          { proposalID := c.newID, tenantID, name := new.name, description := new.description, status := .draft
            policyMode := new.policyMode, matchCriteria := new.matchCriteria, latestSimulation := none
            createdBy := tenantID, archived := false }
        some (rows.put p, some (.answered (.ok (some p))))
  | .update tenantID id input, rows =>
    match validateUpdateInput input with
    | .error e => some (rows, some (.answered (.error e)))
    | .ok edit =>
      if c.fails then some (rows, some (.answered (.error .database)))
      else
        match get rows tenantID id with
        | none => some (rows, some (.answered (.error .notFound)))
        | some current =>
          if edit.permitted current then some (rows, some (.updating tenantID edit current))
          else some (rows, some (.answered (.error .invalidTransition)))
  | .updating tenantID edit read, rows =>
    some (commit c rows tenantID read.proposalID .notFound fun row => some (edit.write read row))
  | .simulate tenantID id, rows =>
    match get rows tenantID id with
    | none => some (rows, some (.answered (.error .notFound)))
    | some p =>
      match c.summary with
      | none => some (rows, some (.answered (.error .database)))
      | some summary =>
        some (rows, some (.saveSimulation tenantID p.proposalID ⟨p.policyMode, p.matchCriteria, summary⟩))
  | .saveSimulation tenantID proposalID simulation, rows =>
    some (commit c rows tenantID proposalID .notFound fun row => some { row with latestSimulation := some simulation })
  | .approve tenantID id, rows =>
    if c.fails then some (rows, some (.answered (.error .database)))
    else
      match get rows tenantID id with
      | none => some (rows, some (.answered (.error .notFound)))
      | some current =>
        if current.status != .reviewReady then some (rows, some (.answered (.error .invalidTransition)))
        else if current.latestSimulation.isNone then some (rows, some (.answered (.error .notSimulated)))
        else some (rows, some (.approving tenantID current))
  | .approving tenantID read, rows =>
    some (commit c rows tenantID read.proposalID .invalidTransition fun row =>
      if row.status = .reviewReady then some { row with status := .approved } else none)
  | .archive tenantID id, rows =>
    match Uuid.parse (Text.trimSpace id) with
    | none => some (rows, some (.answered (.error .notFound)))
    | some proposalID =>
      some (commit c rows tenantID proposalID .notFound fun row =>
        some { row with archived := true, status := .archived })
  | .answered _, _ => none

def store : Service Rows Flight Chance Empty := ⟨entry, exec, fun e => nomatch e⟩

def start : Service.Pool Rows Flight := ⟨.empty, []⟩

/-! ## What a step does -/

theorem live_eq_some_iff {rows : Rows} {tenantID : Text} {proposalID : Uuid} {p : Proposal} :
    live rows tenantID proposalID = some p ↔
      rows.get? proposalID = some p ∧ p.tenantID = tenantID ∧ p.archived = false := by
  simp [live, filter_eq_some_iff]

inductive Prepared (rows : Rows) : Flight → Prop
  | updating {tenantID : Text} {edit : Edit} {read : Proposal} :
    live rows tenantID read.proposalID = some read → edit.permitted read = true →
      Prepared rows (.updating tenantID edit read)
  | saveSimulation {tenantID : Text} {read : Proposal} (summary : Text) :
    live rows tenantID read.proposalID = some read →
      Prepared rows (.saveSimulation tenantID read.proposalID ⟨read.policyMode, read.matchCriteria, summary⟩)
  | approving {tenantID : Text} {read : Proposal} :
    live rows tenantID read.proposalID = some read → read.status = .reviewReady →
      read.latestSimulation.isSome = true → Prepared rows (.approving tenantID read)
  | answered (result : Except StoreError (Option Proposal)) : Prepared rows (.answered result)

inductive Wrote : Flight → Proposal → Proposal → Prop
  | update {tenantID : Text} {edit : Edit} {read row : Proposal} :
    row.tenantID = tenantID → row.proposalID = read.proposalID →
      Wrote (.updating tenantID edit read) row (edit.write read row)
  | simulation {tenantID : Text} {simulation : Simulation} {row : Proposal} :
    row.tenantID = tenantID →
      Wrote (.saveSimulation tenantID row.proposalID simulation) row { row with latestSimulation := some simulation }
  | approve {tenantID : Text} {read row : Proposal} :
    row.proposalID = read.proposalID → row.status = .reviewReady →
      Wrote (.approving tenantID read) row { row with status := .approved }
  | archive {tenantID id : Text} {row : Proposal} :
    Wrote (.archive tenantID id) row { row with archived := true, status := .archived }

theorem Wrote.proposalID {f : Flight} {row p : Proposal} (h : Wrote f row p) : p.proposalID = row.proposalID := by
  cases h <;> rfl

inductive Effect (rows : Rows) (f : Flight) : Rows → Prop
  | none : Effect rows f rows
  | draft {p : Proposal} : rows.get? p.proposalID = .none → p.status = .draft → p.archived = false →
      p.latestSimulation = .none → Effect rows f (rows.put p)
  | row {row p : Proposal} : rows.get? row.proposalID = some row → row.archived = false → Wrote f row p →
      Effect rows f (rows.put p)

theorem answered_effect {f : Flight} {rows rows' : Rows} {f' : Option Flight}
    {result : Except StoreError (Option Proposal)}
    (h : some (rows, some (.answered result)) = some (rows', f')) : Effect rows f rows' ∧ ∀ g ∈ f', Prepared rows' g := by
  cases h
  refine ⟨.none, ?_⟩
  rintro g ⟨⟩
  exact .answered _

theorem commit_effect {c : Chance} {f : Flight} {rows rows' : Rows} {tenantID : Text} {proposalID : Uuid}
    {missing : StoreError} {change : Proposal → Option Proposal} {f' : Option Flight}
    (hchange : ∀ row p, live rows tenantID proposalID = some row → change row = some p → Wrote f row p)
    (h : some (commit c rows tenantID proposalID missing change) = some (rows', f')) :
    Effect rows f rows' ∧ ∀ g ∈ f', Prepared rows' g := by
  rw [commit] at h
  split_ifs at h
  · exact answered_effect h
  split at h
  · exact answered_effect h
  next p hp =>
  cases h
  obtain ⟨row, hlive, hchanged⟩ := bind_eq_some_iff.mp hp
  obtain ⟨hget, -, harchived⟩ := live_eq_some_iff.mp hlive
  have hid : row.proposalID = proposalID := key_of_get? hget
  refine ⟨.row (hid ▸ hget) harchived (hchange row p hlive hchanged), ?_⟩
  rintro g ⟨⟩
  exact .answered _

theorem live_of_get {rows : Rows} {tenantID id : Text} {p : Proposal} (h : get rows tenantID id = some p) :
    live rows tenantID p.proposalID = some p := by
  obtain ⟨proposalID, -, hlive⟩ := bind_eq_some_iff.mp h
  have hid := key_of_get? (live_eq_some_iff.mp hlive).1
  rwa [hid]

theorem exec_effect {c : Chance} {f : Flight} {rows rows' : Rows} {f' : Option Flight}
    (h : exec c f rows = some (rows', f')) : Effect rows f rows' ∧ ∀ g ∈ f', Prepared rows' g := by
  cases f with
  | create tenantID input =>
    simp only [exec] at h
    split at h
    · exact answered_effect h
    split_ifs at h with htaken
    · exact answered_effect h
    · cases h
      rw [Bool.or_eq_true, not_or, not_isSome_iff_eq_none] at htaken
      refine ⟨.draft htaken.2 rfl rfl rfl, ?_⟩
      rintro g ⟨⟩
      exact .answered _
  | update tenantID id input =>
    simp only [exec] at h
    split at h
    · exact answered_effect h
    split_ifs at h
    · exact answered_effect h
    split at h
    · exact answered_effect h
    next current hget =>
    split_ifs at h with hpermitted
    · cases h
      refine ⟨.none, ?_⟩
      rintro g ⟨⟩
      exact .updating (live_of_get hget) hpermitted
    · exact answered_effect h
  | updating tenantID edit read =>
    refine commit_effect ?_ h
    rintro row p hlive ⟨⟩
    obtain ⟨hget, htenant, -⟩ := live_eq_some_iff.mp hlive
    exact .update htenant (key_of_get? hget)
  | simulate tenantID id =>
    simp only [exec] at h
    split at h
    · exact answered_effect h
    next p hget =>
    split at h
    · exact answered_effect h
    next summary _ =>
    cases h
    refine ⟨.none, ?_⟩
    rintro g ⟨⟩
    exact .saveSimulation summary (live_of_get hget)
  | saveSimulation tenantID proposalID simulation =>
    refine commit_effect ?_ h
    rintro row p hlive ⟨⟩
    obtain ⟨hget, htenant, -⟩ := live_eq_some_iff.mp hlive
    have hid := key_of_get? hget
    subst hid
    exact .simulation htenant
  | approve tenantID id =>
    simp only [exec] at h
    split_ifs at h
    · exact answered_effect h
    split at h
    · exact answered_effect h
    next current hget =>
    split_ifs at h with hstatus hsimulated
    · exact answered_effect h
    · exact answered_effect h
    · cases h
      refine ⟨.none, ?_⟩
      rintro g ⟨⟩
      rw [bne_iff_ne, not_not] at hstatus
      rw [isNone_iff_eq_none] at hsimulated
      exact .approving (live_of_get hget) hstatus (isSome_iff_ne_none.mpr hsimulated)
  | approving tenantID read =>
    refine commit_effect ?_ h
    intro row p hlive hp
    split_ifs at hp with hstatus
    cases hp
    exact .approve (key_of_get? (live_eq_some_iff.mp hlive).1) hstatus
  | archive tenantID id =>
    simp only [exec] at h
    split at h
    · exact answered_effect h
    refine commit_effect ?_ h
    rintro row p hlive ⟨⟩
    exact .archive
  | answered result => cases h

theorem Effect.get? {rows rows' : Rows} {f : Flight} (h : Effect rows f rows') {proposalID : Uuid} {p : Proposal}
    (hp : rows.get? proposalID = some p) :
    rows'.get? proposalID = some p ∨
      ∃ p', rows'.get? proposalID = some p' ∧ p.archived = false ∧ Wrote f p p' := by
  cases h with
  | none => exact .inl hp
  | @draft q hfree =>
    left
    rw [get?_put, if_neg, hp]
    rintro rfl
    rw [hfree] at hp
    cases hp
  | @row row q hrow harchived hwrote =>
    rw [get?_put]
    split_ifs with hid
    · right
      rw [hwrote.proposalID] at hid
      subst hid
      rw [hrow, some_inj] at hp
      subst hp
      exact ⟨q, rfl, harchived, hwrote⟩
    · exact .inl hp

theorem Effect.cases_of_get? {rows rows' : Rows} {f : Flight} (h : Effect rows f rows') {proposalID : Uuid}
    {p' : Proposal} (hp : rows'.get? proposalID = some p') :
    rows.get? proposalID = some p' ∨
      (p'.status = .draft ∧ p'.archived = false ∧ p'.latestSimulation = .none) ∨
      ∃ p, rows.get? proposalID = some p ∧ p.archived = false ∧ Wrote f p p' := by
  cases h with
  | none => exact .inl hp
  | @draft q hfree hstatus harchived hsimulation =>
    rw [get?_put] at hp
    split_ifs at hp with hid
    · cases hp
      exact .inr (.inl ⟨hstatus, harchived, hsimulation⟩)
    · exact .inl hp
  | @row row q hrow harchived hwrote =>
    rw [get?_put] at hp
    split_ifs at hp with hid
    · cases hp
      rw [hwrote.proposalID] at hid
      subst hid
      exact .inr (.inr ⟨row, hrow, harchived, hwrote⟩)
    · exact .inl hp

end Overture.Proposals
