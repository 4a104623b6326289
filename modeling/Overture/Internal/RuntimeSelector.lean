import Overture.Lib.Instant

/-!
# The selection of a runtime

An inference or streaming request is offered to the healthy runtimes of the registry, edge runtimes first, until one
answers. A runtime is passed over when its endpoint cannot be routed to or its breaker is open. The listing does not
look at the tenant, so a request stays with its tenant's runtimes exactly when no other could be tried.
-/

namespace Overture.Selector

open List

/-!
## Circuit breakers

A breaker opens after `failureThreshold` consecutive failures and lets a probe through once
`recoveryTimeout` has passed. A provider that was never seen has a closed breaker.
-/

inductive BreakerState where
  | closed
  | isOpen
  | halfOpen
deriving DecidableEq

structure CircuitBreaker where
  state : BreakerState
  (failureCount successCount : Nat)
  lastFailureTime : Int
  failureThreshold : Nat
  recoveryTimeout : Int
deriving DecidableEq

structure BreakerConfig where
  failureThreshold : Nat
  recoveryTimeout : Int

def newCircuitBreaker (config : BreakerConfig) : CircuitBreaker where
  state := .closed
  failureCount := 0
  successCount := 0
  lastFailureTime := 0
  failureThreshold := if config.failureThreshold = 0 then 3 else config.failureThreshold
  recoveryTimeout := if config.recoveryTimeout ≤ 0 then 120 * Instant.second else config.recoveryTimeout

namespace CircuitBreaker

def allow (breaker : CircuitBreaker) (now : Int) : Bool × CircuitBreaker :=
  match breaker.state with
  | .closed => (true, breaker)
  | .isOpen =>
    if breaker.recoveryTimeout ≤ now - breaker.lastFailureTime then
      (true, { breaker with state := .halfOpen, successCount := 0, failureCount := 0 })
    else (false, breaker)
  | .halfOpen => (true, breaker)

def recordSuccess (breaker : CircuitBreaker) : CircuitBreaker :=
  match breaker.state with
  | .closed => { breaker with failureCount := 0 }
  | .isOpen => breaker
  | .halfOpen =>
    if 2 ≤ breaker.successCount + 1 then { breaker with state := .closed, failureCount := 0, successCount := 0 }
    else { breaker with successCount := breaker.successCount + 1 }

def recordFailure (breaker : CircuitBreaker) (now : Int) : CircuitBreaker :=
  match breaker.state with
  | .closed =>
    { breaker with
      lastFailureTime := now
      failureCount := breaker.failureCount + 1
      state := if breaker.failureThreshold ≤ breaker.failureCount + 1 then .isOpen else .closed }
  | .isOpen => { breaker with lastFailureTime := now }
  | .halfOpen =>
    { breaker with lastFailureTime := now, state := .isOpen, failureCount := 0, successCount := 0 }

end CircuitBreaker

abbrev ProviderCircuitBreakers := Text → CircuitBreaker

namespace ProviderCircuitBreakers

def new (config : BreakerConfig) : ProviderCircuitBreakers := fun _ => newCircuitBreaker config

def isProviderAvailable (breakers : ProviderCircuitBreakers) (provider : Text) (now : Int) :
    Bool × ProviderCircuitBreakers :=
  (((breakers provider).allow now).1, Function.update breakers provider ((breakers provider).allow now).2)

def recordSuccess (breakers : ProviderCircuitBreakers) (provider : Text) : ProviderCircuitBreakers :=
  Function.update breakers provider (breakers provider).recordSuccess

def recordFailure (breakers : ProviderCircuitBreakers) (provider : Text) (now : Int) : ProviderCircuitBreakers :=
  Function.update breakers provider ((breakers provider).recordFailure now)

end ProviderCircuitBreakers

structure RuntimeRow where
  runtimeID : Text
  tenantID : Option Text
  endpoint : Text
  (isEdge isHealthy : Bool)
  lastSeenAt : Int
deriving DecidableEq

structure RuntimeTable where
  rows : List RuntimeRow
  runtimeIDs_nodup : (rows.map RuntimeRow.runtimeID).Nodup

def RuntimeTable.RegisteredBy (table : RuntimeTable) (tenant runtimeID : Text) : Prop :=
  ∃ row ∈ table.rows, row.runtimeID = runtimeID ∧ row.tenantID = some tenant

structure RuntimeInstance where
  (runtimeID endpoint : Text)
  (isEdge isHealthy : Bool)
  lastSeenAt : Int
deriving DecidableEq

def RuntimeRow.toInstance (row : RuntimeRow) : RuntimeInstance where
  runtimeID := row.runtimeID
  endpoint := row.endpoint
  isEdge := row.isEdge
  isHealthy := row.isHealthy
  lastSeenAt := row.lastSeenAt

/-- `BTRIM(endpoint) <> ''`: the database trims spaces only. -/
def endpointGiven (endpoint : Text) : Bool := endpoint.any fun c => c != ' '

def listedHealthy (row : RuntimeRow) : Bool := row.isHealthy && endpointGiven row.endpoint

def ListedBefore (a b : RuntimeInstance) : Prop :=
  (a.isEdge = true ∧ b.isEdge = false) ∨ (a.isEdge = b.isEdge ∧ b.lastSeenAt ≤ a.lastSeenAt)

/-- What `ListHealthy` may return: an error, or the healthy rows in an order that the query allows. -/
def RuntimeTable.ListHealthy (table : RuntimeTable) : Except Text (List RuntimeInstance) → Prop
  | .error _ => True
  | .ok instances =>
    instances.Perm ((table.rows.filter listedHealthy).map RuntimeRow.toInstance) ∧ instances.Pairwise ListedBefore

structure EndpointURL where
  (scheme host path rawPath rawQuery fragment : Text)
  (hasUser forceQuery : Bool)

structure URLs where
  parse : Text → Option EndpointURL
  print : EndpointURL → Text

def trimRightSlashes (t : Text) : Text := (t.reverse.dropWhile fun c => c == '/').reverse

def normalizeHTTPRuntimeEndpoint (urls : URLs) (raw : Text) : Option Text :=
  let endpoint := Text.trimSpace raw
  if endpoint.isEmpty then none
  else
    match urls.parse endpoint with
    | none => none
    | some u =>
      let scheme := Text.toLower u.scheme
      if scheme != "http" && scheme != "https" then none
      else if u.host.isEmpty || u.hasUser || !u.rawQuery.isEmpty || !u.fragment.isEmpty then none
      else some (urls.print { u with scheme := scheme, path := trimRightSlashes u.path })

/-! ## The loop over the instances -/

inductive ClientCall (ρ : Type) where
  | notSent (err : Text)
  | failed (err : Text)
  | answered (response : ρ)

/-- The clock readings of one turn of the loop, and what other requests did to the breakers: to each of
them before the turn, and to the breaker of this turn's runtime while the call was out. -/
structure Moment where
  meanwhile : Text → CircuitBreaker → CircuitBreaker
  during : CircuitBreaker → CircuitBreaker
  (checkedAt failedAt recheckedAt : Int)

structure Sent (σ : Type) where
  (runtimeID endpoint tenantID : Text)
  request : σ

structure Selection (σ ρ : Type) where
  sent : List (Sent σ)
  response : Except Text ρ
  breakers : ProviderCircuitBreakers

section Loop

variable {σ ρ : Type} (urls : URLs) (tenantID : Text) (request : σ) (noRuntime : Text)

def ProviderCircuitBreakers.met (breakers : ProviderCircuitBreakers) (moment : Moment) : ProviderCircuitBreakers :=
  fun provider => moment.meanwhile provider (breakers provider)

def ProviderCircuitBreakers.afterFailure (breakers : ProviderCircuitBreakers) (moment : Moment)
    (runtimeID : Text) : ProviderCircuitBreakers :=
  let changed : ProviderCircuitBreakers := Function.update breakers runtimeID (moment.during (breakers runtimeID))
  ((changed.recordFailure runtimeID moment.failedAt).isProviderAvailable runtimeID moment.recheckedAt).2

def ProviderCircuitBreakers.afterSuccess (breakers : ProviderCircuitBreakers) (moment : Moment)
    (runtimeID : Text) : ProviderCircuitBreakers :=
  recordSuccess
    (Function.update breakers runtimeID (moment.during (breakers runtimeID))) runtimeID

def tryInstances (breakers : ProviderCircuitBreakers) (moments : Nat → Moment) (calls : Nat → ClientCall ρ) :
    List RuntimeInstance → Selection σ ρ
  | [] => ⟨[], .error noRuntime, breakers⟩
  | inst :: rest =>
    let found := breakers.met (moments 0)
    let next := fun breakers => tryInstances breakers (fun n => moments (n + 1)) (fun n => calls (n + 1)) rest
    match normalizeHTTPRuntimeEndpoint urls inst.endpoint with
    | none => next found
    | some endpoint =>
      let (available, checked) := found.isProviderAvailable inst.runtimeID (moments 0).checkedAt
      if !available then next checked
      else
        let sending : Sent σ := ⟨inst.runtimeID, endpoint, tenantID, request⟩
        match calls 0 with
        | .notSent _ => next (checked.afterFailure (moments 0) inst.runtimeID)
        | .failed _ =>
          let later := next (checked.afterFailure (moments 0) inst.runtimeID)
          { later with sent := sending :: later.sent }
        | .answered response => ⟨[sending], .ok response, checked.afterSuccess (moments 0) inst.runtimeID⟩

def selectRuntime (listing : Except Text (List RuntimeInstance)) (breakers : ProviderCircuitBreakers)
    (moments : Nat → Moment) (calls : Nat → ClientCall ρ) : Selection σ ρ :=
  match listing with
  | .error err => ⟨[], .error ("runtime_selector: list_healthy: " ++ err), breakers⟩
  | .ok instances => tryInstances urls tenantID request noRuntime breakers moments calls instances

end Loop

def forwardExecution {σ ρ : Type} (urls : URLs) (tenantID : Text) (request : σ) :
    Except Text (List RuntimeInstance) → ProviderCircuitBreakers → (Nat → Moment) → (Nat → ClientCall ρ) →
      Selection σ ρ :=
  selectRuntime urls tenantID request "runtime_selector: no healthy runtime available"

def openStreamingExecution {σ ρ : Type} (urls : URLs) (tenantID : Text) (request : σ) :
    Except Text (List RuntimeInstance) → ProviderCircuitBreakers → (Nat → Moment) → (Nat → ClientCall ρ) →
      Selection σ ρ :=
  selectRuntime urls tenantID request "runtime_selector: no healthy runtime available for streaming"

def breakerAt (breakers : ProviderCircuitBreakers) (moments : Nat → Moment) : Nat → Text → CircuitBreaker
  | 0, runtimeID => breakers.met (moments 0) runtimeID
  | n + 1, runtimeID => breakerAt (breakers.met (moments 0)) (fun k => moments (k + 1)) n runtimeID

def CanBeTried (urls : URLs) (breakers : ProviderCircuitBreakers) (moments : Nat → Moment) (n : Nat)
    (inst : RuntimeInstance) : Prop :=
  (normalizeHTTPRuntimeEndpoint urls inst.endpoint).isSome = true ∧
    ((breakerAt breakers moments n inst.runtimeID).allow (moments n).checkedAt).1 = true

section Tried

variable {σ ρ : Type} {urls : URLs} {tenantID : Text} {request : σ} {noRuntime : Text}

variable {breakers base : ProviderCircuitBreakers} {moments : Nat → Moment}

theorem breakerAt_congr {runtimeID : Text}
    (h : breakers runtimeID = base runtimeID) (n : Nat) :
    breakerAt breakers moments n runtimeID = breakerAt base moments n runtimeID := by
  induction n generalizing breakers base moments with
  | zero => simp only [breakerAt, ProviderCircuitBreakers.met, h]
  | succ n ih =>
    apply ih
    simp only [ProviderCircuitBreakers.met, h]

theorem afterFailure_of_ne {moment : Moment} {runtimeID provider : Text}
    (h : provider ≠ runtimeID) : breakers.afterFailure moment runtimeID provider = breakers provider := by
  simp [ProviderCircuitBreakers.afterFailure, ProviderCircuitBreakers.isProviderAvailable,
    ProviderCircuitBreakers.recordFailure, Function.update_of_ne h]

/-- One turn: the runtime is passed over, or it is tried and its call ends in one of three ways. -/
theorem tryInstances_cons (urls : URLs) (tenantID : Text) (request : σ) (noRuntime : Text)
    (breakers : ProviderCircuitBreakers) (moments : Nat → Moment) (calls : Nat → ClientCall ρ)
    (inst : RuntimeInstance) (rest : List RuntimeInstance) :
    ∃ breakers' : ProviderCircuitBreakers,
      (∀ provider ≠ inst.runtimeID, breakers' provider = breakers.met (moments 0) provider) ∧
      let all := (tryInstances urls tenantID request noRuntime breakers moments calls (inst :: rest)).sent
      let later := (tryInstances urls tenantID request noRuntime breakers' (fun n => moments (n + 1))
        (fun n => calls (n + 1)) rest).sent
      (¬CanBeTried urls breakers moments 0 inst ∧ all = later) ∨
      (CanBeTried urls breakers moments 0 inst ∧ ∃ endpoint,
        ((∃ err, calls 0 = .notSent err) ∧ all = later) ∨
        ((∃ err, calls 0 = .failed err) ∧ all = ⟨inst.runtimeID, endpoint, tenantID, request⟩ :: later) ∨
        ((∃ r, calls 0 = .answered r) ∧ all = [⟨inst.runtimeID, endpoint, tenantID, request⟩])) := by
  have hchecked : ∀ provider ≠ inst.runtimeID,
      ((breakers.met (moments 0)).isProviderAvailable inst.runtimeID (moments 0).checkedAt).2 provider =
        breakers.met (moments 0) provider := by
    intro provider hne
    exact Function.update_of_ne hne _ _
  cases hroute : normalizeHTTPRuntimeEndpoint urls inst.endpoint with
  | none =>
    refine ⟨breakers.met (moments 0), fun _ _ => rfl, .inl ⟨?_, ?_⟩⟩
    · rintro ⟨hsome, -⟩
      simp [hroute] at hsome
    · simp only [tryInstances, hroute]
  | some endpoint =>
    cases hallow : ((breakers.met (moments 0) inst.runtimeID).allow (moments 0).checkedAt).1 with
    | false =>
      refine ⟨_, hchecked, .inl ⟨?_, ?_⟩⟩
      · rintro ⟨-, hopen⟩
        simp [breakerAt, hallow] at hopen
      · simp [tryInstances, hroute, ProviderCircuitBreakers.isProviderAvailable, hallow]
    | true =>
      refine ⟨ProviderCircuitBreakers.afterFailure
        ((breakers.met (moments 0)).isProviderAvailable inst.runtimeID (moments 0).checkedAt).2 (moments 0)
          inst.runtimeID, fun provider hne => (afterFailure_of_ne hne).trans (hchecked provider hne), .inr
        ⟨⟨by simp [hroute], hallow⟩, endpoint, ?_⟩⟩
      cases hcall : calls 0 with
      | notSent err =>
        refine .inl ⟨⟨err, rfl⟩, ?_⟩
        simp [tryInstances, hroute, ProviderCircuitBreakers.isProviderAvailable, hallow, hcall]
      | failed err =>
        refine .inr (.inl ⟨⟨err, rfl⟩, ?_⟩)
        simp [tryInstances, hroute, ProviderCircuitBreakers.isProviderAvailable, hallow, hcall]
      | answered r =>
        refine .inr (.inr ⟨⟨r, rfl⟩, ?_⟩)
        simp [tryInstances, hroute, ProviderCircuitBreakers.isProviderAvailable, hallow, hcall]

theorem agree_ahead {inst : RuntimeInstance} {rest : List RuntimeInstance}
    {breakers' : ProviderCircuitBreakers} {moment : Moment}
    (hfresh : inst.runtimeID ∉ rest.map RuntimeInstance.runtimeID)
    (hagree : ∀ later ∈ rest, breakers later.runtimeID = base later.runtimeID)
    (hothers : ∀ provider ≠ inst.runtimeID, breakers' provider = breakers.met moment provider) :
    ∀ later ∈ rest, breakers' later.runtimeID = base.met moment later.runtimeID := by
  intro later hlater
  have hne : later.runtimeID ≠ inst.runtimeID := by
    intro heq
    exact hfresh (heq ▸ mem_map_of_mem hlater)
  rw [hothers _ hne]
  simp only [ProviderCircuitBreakers.met, hagree later hlater]

/-- A request is sent only to runtimes that could be tried. -/
theorem canBeTried_of_sent {instances : List RuntimeInstance}
    {calls : Nat → ClientCall ρ} {sent : Sent σ}
    (hnodup : (instances.map RuntimeInstance.runtimeID).Nodup)
    (hagree : ∀ inst ∈ instances, breakers inst.runtimeID = base inst.runtimeID)
    (hsent : sent ∈ (tryInstances urls tenantID request noRuntime breakers moments calls instances).sent) :
    ∃ n inst, instances[n]? = some inst ∧ sent.runtimeID = inst.runtimeID ∧
      CanBeTried urls base moments n inst := by
  induction instances generalizing breakers base moments calls with
  | nil => simp [tryInstances] at hsent
  | cons inst rest ih =>
    rw [map_cons, nodup_cons] at hnodup
    obtain ⟨breakers', hothers, hturn⟩ := tryInstances_cons urls tenantID request noRuntime breakers moments
      calls inst rest
    have hahead := agree_ahead hnodup.1 (fun later h => hagree later (mem_cons_of_mem _ h)) hothers
    have hlater : sent ∈ (tryInstances urls tenantID request noRuntime breakers' (fun n => moments (n + 1))
        (fun n => calls (n + 1)) rest).sent → ∃ n inst', (inst :: rest)[n]? = some inst' ∧
          sent.runtimeID = inst'.runtimeID ∧ CanBeTried urls base moments n inst' := by
      intro hmem
      obtain ⟨n, inst', hget, hid, htried⟩ := ih hnodup.2 hahead hmem
      exact ⟨n + 1, inst', hget, hid, htried⟩
    have hfirst : CanBeTried urls breakers moments 0 inst → sent.runtimeID = inst.runtimeID →
        ∃ n inst', (inst :: rest)[n]? = some inst' ∧ sent.runtimeID = inst'.runtimeID ∧
          CanBeTried urls base moments n inst' := by
      rintro ⟨hroute, hallow⟩ hid
      rw [breakerAt_congr (hagree inst mem_cons_self)] at hallow
      exact ⟨0, inst, rfl, hid, hroute, hallow⟩
    rcases hturn with ⟨-, hall⟩ | ⟨htried, endpoint, ⟨-, hall⟩ | ⟨-, hall⟩ | ⟨-, hall⟩⟩
    · exact hlater (hall ▸ hsent)
    · exact hlater (hall ▸ hsent)
    · rw [hall, mem_cons] at hsent
      rcases hsent with rfl | hsent
      · exact hfirst htried rfl
      · exact hlater hsent
    · rw [hall, mem_singleton] at hsent
      exact hfirst htried (by rw [hsent])

theorem sent_of_canBeTried (ρ : Type) (tenantID : Text) (request : σ) (noRuntime : Text)
    {instances : List RuntimeInstance}
    {n : Nat} {inst : RuntimeInstance} (hnodup : (instances.map RuntimeInstance.runtimeID).Nodup)
    (hagree : ∀ inst ∈ instances, breakers inst.runtimeID = base inst.runtimeID)
    (hget : instances[n]? = some inst) (htried : CanBeTried urls base moments n inst) :
    ∃ sent ∈ (tryInstances urls tenantID request noRuntime breakers moments
      (fun _ => (ClientCall.failed [] : ClientCall ρ)) instances).sent, sent.runtimeID = inst.runtimeID := by
  induction instances generalizing breakers base moments n with
  | nil => simp at hget
  | cons first rest ih =>
    rw [map_cons, nodup_cons] at hnodup
    obtain ⟨breakers', hothers, hturn⟩ := tryInstances_cons urls tenantID request noRuntime breakers moments
      (fun _ => (ClientCall.failed [] : ClientCall ρ)) first rest
    have hahead := agree_ahead hnodup.1 (fun later h => hagree later (mem_cons_of_mem _ h)) hothers
    cases n with
    | zero =>
      obtain rfl : first = inst := by simpa using hget
      have hfirst : CanBeTried urls breakers moments 0 first := by
        refine ⟨htried.1, ?_⟩
        rw [breakerAt_congr (hagree first mem_cons_self)]
        exact htried.2
      rcases hturn with ⟨hskip, -⟩ | ⟨-, endpoint, ⟨⟨err, herr⟩, -⟩ | ⟨-, hall⟩ | ⟨⟨r, hr⟩, -⟩⟩
      · exact absurd hfirst hskip
      · simp at herr
      · exact ⟨_, hall ▸ mem_cons_self, rfl⟩
      · simp at hr
    | succ n =>
      obtain ⟨sent, hmem, hid⟩ := ih hnodup.2 hahead hget htried
      rcases hturn with ⟨-, hall⟩ | ⟨-, endpoint, ⟨⟨err, herr⟩, -⟩ | ⟨-, hall⟩ | ⟨⟨r, hr⟩, -⟩⟩
      · exact ⟨sent, hall ▸ hmem, hid⟩
      · simp at herr
      · exact ⟨sent, hall ▸ mem_cons_of_mem _ hmem, hid⟩
      · simp at hr

end Tried

/-! ## Isolation -/

theorem RuntimeTable.listHealthy_nodup {table : RuntimeTable} {instances : List RuntimeInstance}
    (h : table.ListHealthy (.ok instances)) : (instances.map RuntimeInstance.runtimeID).Nodup := by
  have hids : ((table.rows.filter listedHealthy).map RuntimeRow.toInstance).map RuntimeInstance.runtimeID =
      (table.rows.filter listedHealthy).map RuntimeRow.runtimeID := by
    rw [map_map]
    rfl
  rw [(h.1.map RuntimeInstance.runtimeID).nodup_iff, hids]
  exact table.runtimeIDs_nodup.sublist (filter_sublist.map _)

def KeepsToTenant {σ ρ : Type} (table : RuntimeTable) (tenantID : Text)
    (select : (Nat → ClientCall ρ) → Selection σ ρ) : Prop :=
  ∀ calls, ∀ sent ∈ (select calls).sent, table.RegisteredBy tenantID sent.runtimeID

theorem keepsToTenant_selectRuntime_iff {σ : Type} (ρ : Type) (urls : URLs) {table : RuntimeTable}
    {listing : Except Text (List RuntimeInstance)} (hlisting : table.ListHealthy listing) (tenantID : Text)
    (request : σ) (noRuntime : Text) (breakers : ProviderCircuitBreakers) (moments : Nat → Moment) :
    KeepsToTenant table tenantID
        (selectRuntime urls tenantID request noRuntime listing breakers moments :
          (Nat → ClientCall ρ) → Selection σ ρ) ↔
      ∀ instances, listing = .ok instances → ∀ n inst, instances[n]? = some inst →
        CanBeTried urls breakers moments n inst → table.RegisteredBy tenantID inst.runtimeID := by
  cases listing with
  | error err =>
    simp [KeepsToTenant, selectRuntime]
  | ok instances =>
    have hnodup := RuntimeTable.listHealthy_nodup hlisting
    constructor
    · rintro hkeeps _ ⟨⟩ n inst hget htried
      obtain ⟨sent, hmem, hid⟩ := sent_of_canBeTried ρ tenantID request noRuntime hnodup
        (fun _ _ => rfl) hget htried
      exact hid ▸ hkeeps _ sent hmem
    intro hown calls sent hmem
    obtain ⟨n, inst, hget, hid, htried⟩ := canBeTried_of_sent hnodup (fun _ _ => rfl) hmem
    exact hid ▸ hown instances rfl n inst hget htried

theorem requests_keep_to_tenant_iff {σ : Type} (ρ₁ ρ₂ : Type) (urls : URLs) {table : RuntimeTable}
    {listing : Except Text (List RuntimeInstance)} (hlisting : table.ListHealthy listing) (tenantID : Text)
    (request : σ) (breakers : ProviderCircuitBreakers) (moments : Nat → Moment) :
    (KeepsToTenant table tenantID
        (forwardExecution urls tenantID request listing breakers moments :
          (Nat → ClientCall ρ₁) → Selection σ ρ₁) ∧
      KeepsToTenant table tenantID
        (openStreamingExecution urls tenantID request listing breakers moments :
          (Nat → ClientCall ρ₂) → Selection σ ρ₂)) ↔
      ∀ instances, listing = .ok instances → ∀ n inst, instances[n]? = some inst →
        CanBeTried urls breakers moments n inst → table.RegisteredBy tenantID inst.runtimeID := by
  rw [forwardExecution, openStreamingExecution, keepsToTenant_selectRuntime_iff _ _ hlisting,
    keepsToTenant_selectRuntime_iff _ _ hlisting, and_self]

def hostURLs : URLs where
  parse t :=
    if "http://".toList.isPrefixOf t then
      some ⟨"http", t.drop 7, [], [], [], [], false, false⟩
    else none
  print u := u.scheme ++ "://" ++ u.host ++ u.path

def ownRuntime : RuntimeRow := ⟨"rt-own", some "acme", "http://own", true, true, 5⟩

def otherRuntime : RuntimeRow := ⟨"rt-other", some "globex", "http://other", false, true, 9⟩

def quietMoments (now : Int) : Nat → Moment :=
  fun _ => ⟨fun _ breaker => breaker, fun breaker => breaker, now, now, now⟩

def freshBreakers : ProviderCircuitBreakers := .new ⟨3, 30 * Instant.second⟩

def otherOpened : ProviderCircuitBreakers :=
  Function.update freshBreakers "rt-other" { freshBreakers "rt-other" with state := .isOpen }

def bothTenants : RuntimeTable where
  rows := [ownRuntime, otherRuntime]
  runtimeIDs_nodup := by decide +kernel

def bothListed : Except Text (List RuntimeInstance) := .ok [ownRuntime.toInstance, otherRuntime.toInstance]

theorem bothTenants_listHealthy : bothTenants.ListHealthy bothListed :=
  ⟨List.Perm.of_eq (by decide +kernel), pairwise_pair.mpr (.inl ⟨rfl, rfl⟩)⟩

theorem open_breaker_keeps_to_tenant :
    KeepsToTenant bothTenants "acme".toList
        (forwardExecution hostURLs "acme".toList () bothListed otherOpened (quietMoments Instant.second) :
          (Nat → ClientCall Unit) → Selection Unit Unit) ∧
      KeepsToTenant bothTenants "acme".toList
        (openStreamingExecution hostURLs "acme".toList () bothListed otherOpened (quietMoments Instant.second) :
          (Nat → ClientCall Unit) → Selection Unit Unit) := by
  apply (requests_keep_to_tenant_iff Unit Unit hostURLs bothTenants_listHealthy "acme".toList () otherOpened
    (quietMoments Instant.second)).mpr
  rintro _ ⟨⟩ n inst hget htried
  match n with
  | 0 =>
    cases hget
    exact ⟨ownRuntime, mem_cons_self, rfl, rfl⟩
  | 1 =>
    cases hget
    exact absurd htried.2 (by decide +kernel)
  | n + 2 => simp at hget

theorem request_sent_to_other_tenant :
    bothTenants.ListHealthy bothListed ∧
      (forwardExecution hostURLs "acme".toList () bothListed freshBreakers (quietMoments 0)
        (fun n => if n = 0 then .failed "connection refused".toList else .answered ())).sent.map
          (fun sent => (sent.runtimeID, sent.endpoint, sent.tenantID)) =
        [("rt-own".toList, "http://own".toList, "acme".toList),
          ("rt-other".toList, "http://other".toList, "acme".toList)] ∧
      ¬bothTenants.RegisteredBy "acme".toList "rt-other".toList := by
  refine ⟨bothTenants_listHealthy, by decide +kernel, ?_⟩
  rintro ⟨row, hrow, hid, htenant⟩
  simp only [bothTenants, mem_cons, not_mem_nil, or_false] at hrow
  rcases hrow with rfl | rfl
  · exact absurd hid (by decide +kernel)
  · exact absurd htenant (by decide +kernel)

end Overture.Selector
