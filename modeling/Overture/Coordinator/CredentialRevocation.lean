import Overture.Coordinator.AuditRefs
import Overture.Lib.Service

/-!
# Revoked credentials

A permission envelope lists references to credentials, which can be revoked. Artifacts of a tool are refused when they
belong to an envelope with a revoked reference for the tool. The check is a statement before the commit of the
artifacts, and looks the reference up by what the runtime reports.
-/

namespace Overture.Credentials

open Table Option List

open Service (Pool Move)

structure CredentialRef where
  (referenceID envelopeID : Text)
  taskID : Uuid
  tenantID : Text
  (tool capability : Option Text)
  (revocable revoked : Bool)
deriving DecidableEq

abbrev Refs := Table CredentialRef.referenceID

structure ListedRef where
  (referenceID tool capability : Text)
  revocable : Bool

structure PermissionEnvelope where
  (envelopeID tenantID : Text)
  credentialRefs : List ListedRef

def upsertRef (taskID : Uuid) (envelope : PermissionEnvelope) (refs : Refs) (ref : ListedRef) : Refs :=
  if ref.referenceID = [] then refs
  else
    match refs.get? ref.referenceID with
    | none =>
      refs.put
        { referenceID := ref.referenceID, envelopeID := envelope.envelopeID, taskID, tenantID := envelope.tenantID
          tool := nullIfEmpty ref.tool, capability := nullIfEmpty ref.capability, revocable := ref.revocable
          revoked := false }
    | some old =>
      refs.put
        { old with
          envelopeID := envelope.envelopeID, tool := nullIfEmpty ref.tool
          capability := nullIfEmpty ref.capability, revocable := ref.revocable }

def saveTaskPermissionEnvelope (taskID : Uuid) (envelope : PermissionEnvelope) (refs : Refs) : Refs :=
  if envelope.envelopeID = [] then refs else envelope.credentialRefs.foldl (upsertRef taskID envelope) refs

def revocableRef (tenantID referenceID : Text) (refs : Refs) : Option CredentialRef :=
  (refs.get? referenceID).filter fun ref => ref.tenantID == tenantID && ref.revocable && !ref.revoked

def findsRevoked (refs : AIToolRefs) (ref : CredentialRef) : Bool :=
  ref.envelopeID == refs.envelopeID && ref.revoked &&
    (refs.capability.isEmpty || ref.capability == some refs.capability || ref.tool == some refs.toolName)

def ensureAIToolCredentialRefsActive (refs : AIToolRefs) (rows : Refs) : Bool :=
  refs.envelopeID.isEmpty || !rows.rows.any (findsRevoked refs)

inductive Commit where
  | revoked (ref : CredentialRef)
  | accepted (taskID : Uuid) (toolName : Text)
deriving DecidableEq

structure Audit where
  refs : Refs
  log : List Commit

def toolOf (executionEnvelope : Text) : Option Text := do
  let envelope ← decoded AuditEnvelope.aiTool {} executionEnvelope
  guard (aiToolRoutingDecisionAuditable envelope.routingDecision)
  return envelope.toolName

inductive Flight where
  | save (taskID : Uuid) (executionEnvelope executionReceipt : Text)
  | commit (taskID : Uuid) (toolName : Option Text)

def exec (fails : Bool) : Flight → Audit → Option (Audit × Option Flight)
  | .save taskID envelope receipt, s =>
    if fails then some (s, none)
    else
      match aiToolAuditRefs envelope receipt with
      | none => some (s, some (.commit taskID (toolOf envelope)))
      | some refs =>
        if ensureAIToolCredentialRefsActive refs s.refs then some (s, some (.commit taskID (toolOf envelope)))
        else some (s, none)
  | .commit taskID toolName, s =>
    if fails then some (s, none)
    else some ({ s with log := (toolName.map (Commit.accepted taskID)).toList ++ s.log }, none)

inductive Change where
  | permission (taskID : Uuid) (envelope : PermissionEnvelope)
  | revoke (tenantID referenceID : Text)

def change : Change → Audit → Option Audit
  | .permission taskID envelope, s => some { s with refs := saveTaskPermissionEnvelope taskID envelope s.refs }
  | .revoke tenantID referenceID, s =>
    (revocableRef tenantID referenceID s.refs).map fun ref =>
      ⟨s.refs.put { ref with revoked := true }, .revoked { ref with revoked := true } :: s.log⟩

def entry : Flight → Bool
  | .save .. => true
  | .commit .. => false

def audit : Service Audit Flight Bool Change := ⟨entry, exec, change⟩

def start : Pool Audit Flight := ⟨⟨.empty, []⟩, []⟩

def CredentialRef.Names (ref : CredentialRef) (toolName : Text) : Prop :=
  ref.tool.map capabilityFromToolName = some (capabilityFromToolName toolName) ∨
    ref.capability.map capabilityFromToolName = some (capabilityFromToolName toolName)

instance (ref : CredentialRef) (toolName : Text) : Decidable (ref.Names toolName) := by
  unfold CredentialRef.Names
  infer_instance

def Respected : List Commit → Prop
  | [] => True
  | .revoked _ :: earlier => Respected earlier
  | .accepted taskID toolName :: earlier =>
    (∀ ref, .revoked ref ∈ earlier → ref.taskID = taskID → ¬ ref.Names toolName) ∧ Respected earlier

/-- The artifacts are audited under the envelope that a revoked reference belongs to, and spell its
capability or tool as the reference does. -/
def FoundBy (executionEnvelope executionReceipt : Text) (ref : CredentialRef) : Prop :=
  ∃ refs ∈ aiToolAuditRefs executionEnvelope executionReceipt, refs.envelopeID ≠ [] ∧
    ref.envelopeID = refs.envelopeID ∧ (ref.capability = some refs.capability ∨ ref.tool = some refs.toolName)

instance (executionEnvelope executionReceipt : Text) (ref : CredentialRef) :
    Decidable (FoundBy executionEnvelope executionReceipt ref) := by
  unfold FoundBy
  infer_instance

def Flight.checked : Flight → Option (Uuid × Text)
  | .commit taskID (some toolName) => some (taskID, toolName)
  | _ => none

/-- Artifacts report what a revoked reference for their tool says, no reference is revoked between the check and the
commit of artifacts of its tool, and no envelope gives a revoked reference to another tool. -/
def Attached (p : Pool Audit Flight) : Move Flight Bool Change → Prop
  | .arrive _ => True
  | .act i _ =>
    match p.flights[i]? with
    | some (.save taskID envelope receipt) =>
      ∀ toolName ∈ toolOf envelope, ∀ ref ∈ p.store.refs.rows, ref.revoked = true → ref.taskID = taskID →
        ref.Names toolName → FoundBy envelope receipt ref
    | _ => True
  | .env (.permission _ envelope) =>
    ∀ listed ∈ envelope.credentialRefs, ∀ ref ∈ p.store.refs.get? listed.referenceID, ref.revoked = true →
      ref.tool = nullIfEmpty listed.tool ∧ ref.capability = nullIfEmpty listed.capability
  | .env (.revoke _ referenceID) =>
    ∀ ref ∈ p.store.refs.get? referenceID, ∀ f ∈ p.flights, ∀ checked ∈ f.checked,
      ref.taskID = checked.1 → ¬ ref.Names checked.2

instance (p : Pool Audit Flight) (m : Move Flight Bool Change) : Decidable (Attached p m) := by
  unfold Attached
  split
  · infer_instance
  · split <;> infer_instance
  · infer_instance
  · infer_instance

/-! ## The references -/

variable {taskID : Uuid} {envelope : PermissionEnvelope} {refs refs' refs'' : Refs} {listed : ListedRef}

theorem upsertRef_cases (taskID : Uuid) (envelope : PermissionEnvelope) (refs : Refs) (listed : ListedRef) :
    upsertRef taskID envelope refs listed = refs ∨
      ∃ row : CredentialRef, upsertRef taskID envelope refs listed = refs.put row ∧
        row.referenceID = listed.referenceID ∧ row.tool = nullIfEmpty listed.tool ∧
        row.capability = nullIfEmpty listed.capability ∧
        ((refs.get? listed.referenceID = none ∧ row.revoked = false) ∨
          ∃ old, refs.get? listed.referenceID = some old ∧ row.revoked = old.revoked ∧ row.taskID = old.taskID) := by
  unfold upsertRef
  split
  · exact .inl rfl
  split
  · next hnone => exact .inr ⟨_, rfl, rfl, rfl, rfl, .inl ⟨hnone, rfl⟩⟩
  next old hold =>
  have hkey : old.referenceID = listed.referenceID := key_of_get? hold
  exact .inr ⟨_, rfl, hkey, rfl, rfl, .inr ⟨old, hold, rfl, rfl⟩⟩

def Stays (refs refs' : Refs) : Prop :=
  ∀ id ref, refs.get? id = some ref → ref.revoked = true → ∃ ref', refs'.get? id = some ref' ∧ ref'.revoked = true

theorem Stays.refl (refs : Refs) : Stays refs refs := fun _ ref h hrevoked => ⟨ref, h, hrevoked⟩

theorem Stays.trans (h : Stays refs refs') (h' : Stays refs' refs'') : Stays refs refs'' := by
  intro id ref href hrevoked
  obtain ⟨ref', href', hrevoked'⟩ := h id ref href hrevoked
  exact h' id ref' href' hrevoked'

theorem stays_upsertRef (taskID : Uuid) (envelope : PermissionEnvelope) (refs : Refs) (listed : ListedRef) :
    Stays refs (upsertRef taskID envelope refs listed) := by
  obtain hsame | ⟨row, hput, hkey, -, -, hrow⟩ := upsertRef_cases taskID envelope refs listed
  · rw [hsame]
    exact .refl refs
  intro id ref href hrevoked
  rw [hput, get?_put]
  by_cases hid : row.referenceID = id
  · rw [if_pos hid]
    rw [← hid, hkey] at href
    obtain ⟨hnone, -⟩ | ⟨old, hold, hsame, -⟩ := hrow
    · rw [hnone] at href
      cases href
    · cases hold.symm.trans href
      exact ⟨row, rfl, hsame.trans hrevoked⟩
  · rw [if_neg hid]
    exact ⟨ref, href, hrevoked⟩

theorem stays_saveTaskPermissionEnvelope (taskID : Uuid) (envelope : PermissionEnvelope) (refs : Refs) :
    Stays refs (saveTaskPermissionEnvelope taskID envelope refs) := by
  unfold saveTaskPermissionEnvelope
  split
  · exact .refl refs
  generalize envelope.credentialRefs = listing
  induction listing generalizing refs with
  | nil => exact .refl refs
  | cons listed rest ih => exact (stays_upsertRef taskID envelope refs listed).trans (ih _)

structure Same (ref ref' : CredentialRef) : Prop where
  revoked : ref'.revoked = true
  taskID : ref'.taskID = ref.taskID
  tool : ref'.tool = ref.tool
  capability : ref'.capability = ref.capability

theorem Same.names_iff {ref ref' : CredentialRef} (h : Same ref ref') (toolName : Text) :
    ref'.Names toolName ↔ ref.Names toolName := by
  rw [CredentialRef.Names, CredentialRef.Names, h.tool, h.capability]

structure Kept (refs refs' : Refs) : Prop where
  forward : ∀ id ref, refs.get? id = some ref → ref.revoked = true → ∃ ref', refs'.get? id = some ref' ∧ Same ref ref'
  backward : ∀ id ref', refs'.get? id = some ref' → ref'.revoked = true →
    ∃ ref, refs.get? id = some ref ∧ ref.revoked = true ∧ Same ref ref'

theorem Kept.refl (refs : Refs) : Kept refs refs :=
  ⟨fun _ ref h hrevoked => ⟨ref, h, hrevoked, rfl, rfl, rfl⟩,
    fun _ ref h hrevoked => ⟨ref, h, hrevoked, hrevoked, rfl, rfl, rfl⟩⟩

theorem Same.trans {a b c : CredentialRef} (h : Same a b) (h' : Same b c) : Same a c :=
  ⟨h'.revoked, h'.taskID.trans h.taskID, h'.tool.trans h.tool, h'.capability.trans h.capability⟩

theorem Kept.trans (h : Kept refs refs') (h' : Kept refs' refs'') : Kept refs refs'' := by
  constructor
  · intro id ref href hrevoked
    obtain ⟨ref', href', hsame⟩ := h.forward id ref href hrevoked
    obtain ⟨ref'', href'', hsame'⟩ := h'.forward id ref' href' hsame.revoked
    exact ⟨ref'', href'', hsame.trans hsame'⟩
  intro id ref'' href'' hrevoked
  obtain ⟨ref', href', hrevoked', hsame'⟩ := h'.backward id ref'' href'' hrevoked
  obtain ⟨ref, href, hrevoked, hsame⟩ := h.backward id ref' href' hrevoked'
  exact ⟨ref, href, hrevoked, hsame.trans hsame'⟩

def ListedAlike (refs : Refs) (listed : ListedRef) : Prop :=
  ∀ ref ∈ refs.get? listed.referenceID, ref.revoked = true →
    ref.tool = nullIfEmpty listed.tool ∧ ref.capability = nullIfEmpty listed.capability

theorem kept_upsertRef (taskID : Uuid) (envelope : PermissionEnvelope) (h : ListedAlike refs listed) :
    Kept refs (upsertRef taskID envelope refs listed) := by
  obtain hsame | ⟨row, hput, hkey, htool, hcapability, hrow⟩ := upsertRef_cases taskID envelope refs listed
  · rw [hsame]
    exact .refl refs
  -- the row that is written stands for the one before it when that one is revoked
  have hreplaces : ∀ old, refs.get? listed.referenceID = some old → row.revoked = old.revoked →
      row.taskID = old.taskID → old.revoked = true → Same old row := by
    intro old hold hsame htask hrevoked
    obtain ⟨htool', hcapability'⟩ := h old hold hrevoked
    exact ⟨hsame.trans hrevoked, htask, htool.trans htool'.symm, hcapability.trans hcapability'.symm⟩
  constructor
  · intro id ref href hrevoked
    rw [hput, get?_put]
    by_cases hid : row.referenceID = id
    · rw [if_pos hid]
      rw [← hid, hkey] at href
      obtain ⟨hnone, -⟩ | ⟨old, hold, hsame, htask⟩ := hrow
      · rw [hnone] at href
        cases href
      · obtain rfl : old = ref := some.inj (hold.symm.trans href)
        exact ⟨row, rfl, hreplaces old hold hsame htask hrevoked⟩
    · rw [if_neg hid]
      exact ⟨ref, href, hrevoked, rfl, rfl, rfl⟩
  intro id ref' href' hrevoked
  rw [hput, get?_put] at href'
  by_cases hid : row.referenceID = id
  · rw [if_pos hid] at href'
    obtain rfl : row = ref' := some.inj href'
    obtain ⟨-, hfresh⟩ | ⟨old, hold, hsame, htask⟩ := hrow
    · rw [hfresh] at hrevoked
      cases hrevoked
    rw [← hid, hkey]
    have hold' := hsame.symm.trans hrevoked
    exact ⟨old, hold, hold', hreplaces old hold hsame htask hold'⟩
  · rw [if_neg hid] at href'
    exact ⟨ref', href', hrevoked, hrevoked, rfl, rfl, rfl⟩

theorem kept_saveTaskPermissionEnvelope (taskID : Uuid)
    (h : ∀ listed ∈ envelope.credentialRefs, ListedAlike refs listed) :
    Kept refs (saveTaskPermissionEnvelope taskID envelope refs) := by
  unfold saveTaskPermissionEnvelope
  split
  · exact .refl refs
  revert h
  generalize envelope.credentialRefs = listing
  intro h
  induction listing generalizing refs with
  | nil => exact .refl refs
  | cons listed rest ih =>
    have hkept := kept_upsertRef taskID envelope (h listed mem_cons_self)
    refine hkept.trans (ih ?_)
    intro next hnext ref' href' hrevoked
    obtain ⟨ref, href, hold, hsame⟩ := hkept.backward _ ref' href' hrevoked
    rw [hsame.tool, hsame.capability]
    exact h next (mem_cons_of_mem _ hnext) ref href hold

/-! ## Runs -/

theorem exec_cases {fails : Bool} {f : Flight} {s s' : Audit} {f' : Option Flight}
    (h : exec fails f s = some (s', f')) :
    (s' = s ∧ f' = none) ∨
      (∃ taskID envelope receipt, f = .save taskID envelope receipt ∧ s' = s ∧
        f' = some (.commit taskID (toolOf envelope)) ∧
        ∀ refs ∈ aiToolAuditRefs envelope receipt, ensureAIToolCredentialRefsActive refs s.refs = true) ∨
      ∃ taskID toolName, f = .commit taskID toolName ∧ f' = none ∧
        s' = { s with log := (toolName.map (Commit.accepted taskID)).toList ++ s.log } := by
  cases f with
  | save taskID envelope receipt =>
    rw [exec] at h
    split at h
    · cases h
      exact .inl ⟨rfl, rfl⟩
    split at h
    · next hnone =>
      cases h
      refine .inr (.inl ⟨taskID, envelope, receipt, rfl, rfl, rfl, ?_⟩)
      intro refs hrefs
      rw [hnone] at hrefs
      cases hrefs
    next refs hrefs =>
    split at h
    · next hactive =>
      cases h
      refine .inr (.inl ⟨taskID, envelope, receipt, rfl, rfl, rfl, ?_⟩)
      intro other hother
      cases hrefs.symm.trans hother
      exact hactive
    · cases h
      exact .inl ⟨rfl, rfl⟩
  | commit taskID toolName =>
    rw [exec] at h
    split at h
    · cases h
      exact .inl ⟨rfl, rfl⟩
    · cases h
      exact .inr (.inr ⟨taskID, toolName, rfl, rfl, rfl⟩)

theorem revocableRef_cases {tenantID referenceID : Text} {ref : CredentialRef}
    (h : revocableRef tenantID referenceID refs = some ref) :
    refs.get? referenceID = some ref ∧ ref.revoked = false := by
  rw [revocableRef, filter_eq_some_iff] at h
  simp only [Bool.and_eq_true, Bool.not_eq_true'] at h
  exact ⟨h.1, h.2.2⟩

theorem stays_move {p q : Pool Audit Flight} {m : Move Flight Bool Change} (h : audit.move p m = some q) :
    Stays p.store.refs q.store.refs := by
  cases m with
  | arrive f =>
    obtain ⟨-, rfl⟩ := Service.move_arrive h
    exact .refl _
  | act i fails =>
    obtain ⟨f, s, f', -, hexec, rfl⟩ := Service.move_act h
    obtain ⟨rfl, -⟩ | ⟨_, _, _, -, rfl, -⟩ | ⟨_, _, -, -, rfl⟩ := exec_cases hexec
    all_goals exact .refl _
  | env e =>
    obtain ⟨s, hchange, rfl⟩ := Service.move_env h
    cases e with
    | permission taskID envelope =>
      cases hchange
      exact stays_saveTaskPermissionEnvelope taskID envelope p.store.refs
    | revoke tenantID referenceID =>
      obtain ⟨ref, hfound, rfl⟩ := Option.map_eq_some_iff.mp hchange
      obtain ⟨hget, -⟩ := revocableRef_cases hfound
      intro id old hold hrevoked
      rw [get?_put]
      split
      · exact ⟨_, rfl, rfl⟩
      · exact ⟨old, hold, hrevoked⟩

/-- The log is respected, its references are still revoked, and the artifacts that have passed the
check are for a tool without a revoked reference. -/
structure Sound (p : Pool Audit Flight) : Prop where
  log : Respected p.store.log
  revoked : ∀ ref, .revoked ref ∈ p.store.log → ∃ row, p.store.refs.get? ref.referenceID = some row ∧ Same ref row
  flights : ∀ taskID toolName, .commit taskID (some toolName) ∈ p.flights → ∀ id row,
    p.store.refs.get? id = some row → row.revoked = true → row.taskID = taskID → ¬ row.Names toolName

theorem sound_start : Sound start := ⟨trivial, by simp [start], by simp [start]⟩

theorem not_active_of_foundBy {executionEnvelope executionReceipt : Text} {ref : CredentialRef}
    (h : FoundBy executionEnvelope executionReceipt ref) (hmem : ref ∈ refs.rows) (hrevoked : ref.revoked = true)
    (hactive : ∀ found ∈ aiToolAuditRefs executionEnvelope executionReceipt,
      ensureAIToolCredentialRefsActive found refs = true) : False := by
  obtain ⟨found, hfound, hne, henvelope, hnamed⟩ := h
  have hfinds : findsRevoked found ref = true := by
    simp only [findsRevoked, henvelope, hrevoked, beq_self_eq_true, Bool.and_self, Bool.true_and, Bool.or_eq_true,
      beq_iff_eq]
    exact hnamed.elim (fun h => .inl (.inr h)) .inr
  have hany : refs.rows.any (findsRevoked found) = true := any_eq_true.mpr ⟨ref, hmem, hfinds⟩
  have hchecked := hactive found hfound
  rw [ensureAIToolCredentialRefsActive, hany] at hchecked
  exact hne (by simpa using hchecked)

section

variable {p q : Pool Audit Flight}

theorem Sound.act {i : Nat} {fails : Bool} (h : Sound p) (hok : Attached p (.act i fails))
    (hmove : audit.move p (.act i fails) = some q) : Sound q := by
  obtain ⟨f, s, f', hf, hexec, rfl⟩ := Service.move_act hmove
  have hmem : f ∈ p.flights := mem_of_getElem? hf
  obtain ⟨rfl, rfl⟩ | ⟨taskID, envelope, receipt, rfl, rfl, rfl, hactive⟩ | ⟨taskID, toolName, rfl, rfl, rfl⟩ :=
    exec_cases hexec
  · refine ⟨h.log, h.revoked, ?_⟩
    intro taskID toolName hflight
    rcases Service.mem_of_mem_act hflight with hflight | hflight
    · exact h.flights taskID toolName hflight
    · cases hflight
  · refine ⟨h.log, h.revoked, ?_⟩
    intro taskID' toolName hflight
    rcases Service.mem_of_mem_act hflight with hflight | hflight
    · exact h.flights taskID' toolName hflight
    obtain ⟨rfl, htool⟩ := Flight.commit.inj (Option.some.inj hflight)
    intro id row hrow hrevoked htask hnames
    have hrowmem := mem_of_get? hrow
    simp only [Attached, hf] at hok
    exact not_active_of_foundBy (hok toolName htool row hrowmem hrevoked htask hnames) hrowmem hrevoked hactive
  have hflights : ∀ taskID' toolName', .commit taskID' (some toolName') ∈
      p.flights.take i ++ (none : Option Flight).toList ++ p.flights.drop (i + 1) →
      .commit taskID' (some toolName') ∈ p.flights := by
    intro taskID' toolName' hflight
    rcases Service.mem_of_mem_act hflight with hflight | hflight
    · exact hflight
    · cases hflight
  cases toolName with
  | none => exact ⟨h.log, h.revoked, fun taskID' toolName' hflight => h.flights _ _ (hflights _ _ hflight)⟩
  | some toolName =>
    refine ⟨⟨?_, h.log⟩, ?_, fun taskID' toolName' hflight => h.flights _ _ (hflights _ _ hflight)⟩
    · intro ref href htask hnames
      obtain ⟨row, hrow, hsame⟩ := h.revoked ref href
      exact h.flights taskID toolName hmem _ row hrow hsame.revoked (hsame.taskID.trans htask)
        ((hsame.names_iff toolName).mpr hnames)
    intro ref href
    rcases List.mem_cons.mp href with href | href
    · cases href
    · exact h.revoked ref href

theorem Sound.env {e : Change} (h : Sound p) (hok : Attached p (.env e)) (hmove : audit.move p (.env e) = some q) :
    Sound q := by
  obtain ⟨s, hchange, rfl⟩ := Service.move_env hmove
  cases e with
  | permission taskID envelope =>
    cases hchange
    have hkept : Kept p.store.refs (saveTaskPermissionEnvelope taskID envelope p.store.refs) :=
      kept_saveTaskPermissionEnvelope taskID hok
    refine ⟨h.log, ?_, ?_⟩
    · intro ref href
      obtain ⟨row, hrow, hsame⟩ := h.revoked ref href
      obtain ⟨row', hrow', hsame'⟩ := hkept.forward _ row hrow hsame.revoked
      exact ⟨row', hrow', hsame.trans hsame'⟩
    intro taskID' toolName hflight id row hrow hrevoked htask hnames
    obtain ⟨old, hold, hrevoked', hsame⟩ := hkept.backward id row hrow hrevoked
    exact h.flights taskID' toolName hflight id old hold hrevoked' (hsame.taskID.symm.trans htask)
      ((hsame.names_iff toolName).mp hnames)
  | revoke tenantID referenceID =>
    obtain ⟨ref, hfound, rfl⟩ := Option.map_eq_some_iff.mp hchange
    obtain ⟨hget, hactive⟩ := revocableRef_cases hfound
    have hkey : ref.referenceID = referenceID := key_of_get? hget
    refine ⟨h.log, ?_, ?_⟩
    · intro old hold
      rw [get?_put]
      rcases List.mem_cons.mp hold with hold | hold
      · obtain rfl := Commit.revoked.inj hold
        exact ⟨_, if_pos rfl, rfl, rfl, rfl, rfl⟩
      obtain ⟨row, hrow, hsame⟩ := h.revoked old hold
      refine ⟨row, ?_, hsame⟩
      rw [if_neg, hrow]
      rintro (hid : ref.referenceID = old.referenceID)
      rw [← hid, hkey, hget] at hrow
      obtain rfl := Option.some.inj hrow
      exact absurd hsame.revoked (by rw [hactive]; exact Bool.false_ne_true)
    intro taskID toolName hflight id row hrow hrevoked htask
    rw [get?_put] at hrow
    split at hrow
    · obtain rfl := Option.some.inj hrow
      exact hok ref hget _ hflight (taskID, toolName) rfl htask
    · exact h.flights taskID toolName hflight id row hrow hrevoked htask

theorem Sound.move {m : Move Flight Bool Change} (h : Sound p) (hok : Attached p m) (hmove : audit.move p m = some q) :
    Sound q := by
  cases m with
  | arrive f =>
    obtain ⟨hentry, rfl⟩ := Service.move_arrive hmove
    refine ⟨h.log, h.revoked, ?_⟩
    intro taskID toolName hflight
    rcases List.mem_append.mp hflight with hflight | hflight
    · exact h.flights taskID toolName hflight
    rw [← List.mem_singleton.mp hflight] at hentry
    cases hentry
  | act i fails => exact h.act hok hmove
  | env e => exact h.env hok hmove

end

/-- A revoked reference stays revoked in every run, and where artifacts report what the revoked
references for their tool say, none is accepted for the task of a revoked reference after it. -/
theorem revocation_respected (q : Pool Audit Flight) :
    (∀ p, audit.Run Service.anyMove p q → ∀ id ref, p.store.refs.get? id = some ref →
      ref.revoked = true → ∃ ref', q.store.refs.get? id = some ref' ∧ ref'.revoked = true) ∧
    (audit.Run Attached start q → Respected q.store.log) := by
  constructor
  · intro p hrun
    exact hrun.invariant (I := fun r => Stays p.store.refs r.store.refs) (.refl _)
      fun _ _ _ hstays _ hmove => hstays.trans (stays_move hmove)
  · intro hrun
    exact (hrun.invariant sound_start fun _ _ _ hsound hok hmove => hsound.move hok hmove).log

def revokedThen (executionEnvelope : String) : List (Move Flight Bool Change) :=
  [.env (.permission 0 ⟨"pe-1", "acme", [⟨"ref-1", "search", "tools.search", true⟩]⟩),
    .env (.revoke "acme" "ref-1"), .arrive (.save 0 executionEnvelope.toList []), .act 0 false]

def revokedRef : CredentialRef where
  referenceID := "ref-1"
  envelopeID := "pe-1"
  taskID := 0
  tenantID := "acme"
  tool := some "search"
  capability := some "tools.search"
  revocable := true
  revoked := true

/-- An envelope without a decision is accepted after the revocation. -/
theorem unattached_receipt_accepted : ∃ p, audit.Run Service.anyMove start p ∧ ¬ Respected p.store.log := by
  have hrun : ((audit.run start (revokedThen
      "\x7b\"execution_id\":\"e\",\"routing_decision\":\"tool:search\"\x7d" ++ [.act 0 false])).any fun p =>
        decide (p.store.log = [.accepted 0 "search", .revoked revokedRef])) = true := by decide +kernel
  obtain ⟨p, hp, hlog⟩ := (any_eq_true _ _).mp hrun
  refine ⟨p, Service.Run.refl.of_run (Service.meets_anyMove _ _) hp, ?_⟩
  rw [of_decide_eq_true hlog]
  rintro ⟨hnone, -⟩
  exact hnone revokedRef mem_cons_self rfl (by decide)

/-- Artifacts of the same tool that report the envelope are refused, those of another tool are accepted. -/
theorem attached_receipt_refused :
    (∃ p, audit.Run Attached start p ∧ Respected p.store.log ∧ p.flights.length = 0 ∧
      p.store.log = [.revoked revokedRef]) ∧
    ∃ p, audit.Run Attached start p ∧ Respected p.store.log ∧
      p.store.log = [.accepted 0 "fetch".toList, .revoked revokedRef] := by
  constructor
  · have hrun : ((audit.run start (revokedThen ("\x7b\"execution_id\":\"e\",\"policy_decision_id\":\"pe-1\"," ++
        "\"routing_decision\":\"tool:Search\"\x7d"))).any fun p =>
          decide (p.flights.length = 0 ∧ p.store.log = [.revoked revokedRef])) = true := by decide +kernel
    obtain ⟨p, hp, hrest⟩ := (any_eq_true _ _).mp hrun
    have hall : audit.Run Attached start p := Service.Run.refl.of_run (by decide +kernel) hp
    exact ⟨p, hall, (revocation_respected p).2 hall, of_decide_eq_true hrest⟩
  have hrun : ((audit.run start (revokedThen
      "\x7b\"execution_id\":\"e\",\"routing_decision\":\"tool:fetch\"\x7d" ++ [.act 0 false])).any fun p =>
        decide (p.store.log = [.accepted 0 "fetch", .revoked revokedRef])) = true := by decide +kernel
  obtain ⟨p, hp, hrest⟩ := (any_eq_true _ _).mp hrun
  have hall : audit.Run Attached start p := Service.Run.refl.of_run (by decide +kernel) hp
  exact ⟨p, hall, (revocation_respected p).2 hall, of_decide_eq_true hrest⟩

end Overture.Credentials
