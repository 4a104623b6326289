import Overture.Lib.Json.Number
import Overture.Lib.LimitedQuery

/-!
# The availability of a runtime

Before a local action is enqueued the gateway asks whether the tenant has a runtime for it; the coordinator later
selects one. Both read at most ten rows of runtimes and keep those whose endpoint can be posted to, the first in any
order and within ninety seconds, the second in the order of the load and within the configured timeout.
-/

namespace Overture.RuntimeAvailability

open Json List LimitedQuery Text

structure EndpointURL where
  (scheme host path rawQuery fragment : Text)
  hasUser : Bool

/-- `url.Parse`, and `URL.String` of a parsed text after its scheme and path were set. -/
structure EndpointURLs where
  parse : Text → Option EndpointURL
  string : Text → EndpointURL → Text

def trimRight (c : Char) (t : Text) : Text := (t.reverse.dropWhile (· == c)).reverse

variable (urls : EndpointURLs)

def normalizeHTTPRuntimeEndpoint (raw : Text) : Option Text :=
  let endpoint := trimSpace raw
  if endpoint = [] then none
  else
    match urls.parse endpoint with
    | none => none
    | some u =>
      let u := { u with scheme := toLower u.scheme }
      if u.scheme ≠ "http".toList ∧ u.scheme ≠ "https".toList then none
      else if u.host = [] ∨ u.hasUser ∨ u.rawQuery ≠ [] ∨ u.fragment ≠ [] then none
      else some (urls.string endpoint { u with path := trimRight '/' u.path })

def isRoutableHTTPRuntimeEndpoint (raw : Text) : Bool :=
  (normalizeHTTPRuntimeEndpoint urls raw).isSome

structure RuntimeInstance where
  runtimeId : Text
  tenantId : Option Text
  isHealthy : Bool
  status : Text
  endpoint : Option Text
  lastHeartbeat : Option Int
deriving DecidableEq

structure TaskRow where
  runtimeId : Option Text
  status : Text

structure State where
  runtimes : List RuntimeInstance
  tasks : List TaskRow
  now : Int

def btrim (t : Text) : Text := trimRight ' ' (t.dropWhile (· == ' '))

/-- The `WHERE` clause of both queries; a preference that is empty adds no condition. -/
def eligible (s : State) (tenantID preferred : Text) (seconds : Int) (r : RuntimeInstance) : Bool :=
  r.tenantId == some tenantID && r.isHealthy && r.status == "active" &&
    r.endpoint.any (fun endpoint => btrim endpoint != []) &&
    r.lastHeartbeat.any (fun heartbeat => decide (s.now - seconds * 1000000 < heartbeat)) &&
    (preferred == [] || r.runtimeId == preferred)

def eligibleRows (s : State) (tenantID preferred : Text) (seconds : Int) : List RuntimeInstance :=
  s.runtimes.filter (eligible s tenantID preferred seconds)

def activeCount (s : State) (r : RuntimeInstance) : Nat :=
  s.tasks.countP fun task =>
    task.runtimeId == some r.runtimeId && (task.status == "dispatched".toList || task.status == "checkpointed".toList)

structure Delivery where
  rows : List RuntimeInstance
  failed : Bool

/-- The scan of `tenantHasHealthyRuntime`; an endpoint that is NULL cannot be scanned. -/
def scanEndpoints (urls : EndpointURLs) : List RuntimeInstance → Bool
  | [] => false
  | r :: rest =>
    match r.endpoint with
    | none => false
    | some endpoint => if isRoutableHTTPRuntimeEndpoint urls endpoint then true else scanEndpoints urls rest

/-- The query, when there is a database, is given the tenant and the trimmed preference; `none` when it fails. -/
def tenantHasHealthyRuntime (db : Option (Text → Text → Option Delivery))
    (tenantID preferredRuntimeID : Text) : Bool :=
  match db with
  | none => false
  | some query =>
    if tenantID = [] then false
    else
      match query tenantID (trimSpace preferredRuntimeID) with
      | none => false
      | some delivery => scanEndpoints urls delivery.rows

structure RuntimeInfo where
  (runtimeId endpoint : Text)

inductive SelectError where
  | query
  | scan
  | rows
  | noRoutable (message : Text)

def scanRuntimes (urls : EndpointURLs) (exhausted : SelectError) :
    List RuntimeInstance → Except SelectError RuntimeInfo
  | [] => .error exhausted
  | r :: rest =>
    match r.endpoint with
    | none => .error .scan
    | some endpoint =>
      match normalizeHTTPRuntimeEndpoint urls endpoint with
      | none => scanRuntimes urls exhausted rest
      | some normalized => .ok ⟨r.runtimeId, normalized⟩

def selectRuntime (query : Text → Text → Int → Option Delivery) (hbSec : Int)
    (tenantID preferredRuntimeID : Text) : Except SelectError RuntimeInfo :=
  let preferred := trimSpace preferredRuntimeID
  match query tenantID preferred hbSec with
  | none => .error .query
  | some delivery =>
    let exhausted :=
      if delivery.failed then .rows
      else if preferred ≠ [] then
        .noRoutable ("no routable runtime ".toList ++ preferred ++ " for tenant ".toList ++ tenantID)
      else .noRoutable ("no routable runtime for tenant ".toList ++ tenantID)
    scanRuntimes urls exhausted delivery.rows

def wholePart (x : Float64) : Nat := x.mant * 2 ^ x.exp.toNat / 2 ^ (-x.exp).toNat

/-- `int(d.Seconds())` for a duration of this many nanoseconds that is positive: the seconds and the quotient of the
rest are added as floating-point numbers. -/
def wholeSeconds (d : Nat) : Nat :=
  match Float64.ofRatio false (d % 1000000000) 1000000000 with
  | none => 0
  | some rest =>
    let scale := 2 ^ (-rest.exp).toNat
    match Float64.ofRatio false (d / 1000000000 * scale + rest.mant * 2 ^ rest.exp.toNat) scale with
    | none => 0
    | some sum => wholePart sum

def defaultHeartbeatTimeout : Int := 90000000000

def heartbeatTimeoutOrDefault (timeout : Int) : Int := if timeout > 0 then timeout else defaultHeartbeatTimeout

def windowSeconds (timeout : Int) : Int :=
  let hbSec : Int := wholeSeconds (heartbeatTimeoutOrDefault timeout).toNat
  if hbSec ≤ 0 then 90 else hbSec

def routable (r : RuntimeInstance) : Bool :=
  r.endpoint.any (isRoutableHTTPRuntimeEndpoint urls)

/-- The tenant has an active, healthy runtime, seen within the window, that matches the preference and is routable. -/
def Available (s : State) (tenantID preferredRuntimeID : Text) (seconds : Int) : Prop :=
  ∃ r ∈ eligibleRows s tenantID (trimSpace preferredRuntimeID) seconds, routable urls r = true

def HasDelivers (s : State) (tenantID preferredRuntimeID : Text) (query : Text → Text → Option Delivery) : Prop :=
  ∃ rows, query tenantID (trimSpace preferredRuntimeID) = some ⟨rows, false⟩ ∧
    LimitedQuery.Answers (fun _ => 0) 10 (eligibleRows s tenantID (trimSpace preferredRuntimeID) 90) rows

def SelectDelivers (s : State) (tenantID preferredRuntimeID : Text) (seconds : Int)
    (query : Text → Text → Int → Option Delivery) : Prop :=
  ∃ rows, query tenantID (trimSpace preferredRuntimeID) seconds = some ⟨rows, false⟩ ∧
    LimitedQuery.Answers (activeCount s) 10 (eligibleRows s tenantID (trimSpace preferredRuntimeID) seconds) rows

/-- Whatever the two queries deliver, the answers are one and say whether a runtime is available. -/
def Agree (s : State) (timeout : Int) (tenantID preferredRuntimeID : Text) : Prop :=
  ∀ has select, HasDelivers s tenantID preferredRuntimeID has →
    SelectDelivers s tenantID preferredRuntimeID (windowSeconds timeout) select →
    (tenantHasHealthyRuntime urls (some has) tenantID preferredRuntimeID = true ↔
      (selectRuntime urls select (windowSeconds timeout) tenantID preferredRuntimeID).isOk = true) ∧
    ((selectRuntime urls select (windowSeconds timeout) tenantID preferredRuntimeID).isOk = true ↔
      Available urls s tenantID preferredRuntimeID (windowSeconds timeout))

/-- No runtime is available in either window; or one is in both, and in each window fewer than ten runtimes that
cannot be posted to may be listed before the first that can. -/
def SameWorld (s : State) (timeout : Int) (tenantID preferredRuntimeID : Text) : Prop :=
  let preferred := trimSpace preferredRuntimeID
  let window := windowSeconds timeout
  (¬Available urls s tenantID preferredRuntimeID window ∧
      (tenantID = [] ∨ ¬Available urls s tenantID preferredRuntimeID 90)) ∨
    (tenantID ≠ [] ∧ Available urls s tenantID preferredRuntimeID window ∧
      Available urls s tenantID preferredRuntimeID 90 ∧
      (early (fun _ => 0) (routable urls) (eligibleRows s tenantID preferred 90)).length < 10 ∧
      (early (activeCount s) (routable urls) (eligibleRows s tenantID preferred window)).length < 10)

variable {urls : EndpointURLs} {s : State}

variable {tenantID preferred : Text} {seconds : Int} {rows : List RuntimeInstance}

theorem endpoint_of_eligible {r : RuntimeInstance}
    (h : r ∈ eligibleRows s tenantID preferred seconds) : ∃ endpoint, r.endpoint = some endpoint := by
  have hwhere := (mem_filter.mp h).2
  simp only [eligible, Bool.and_eq_true] at hwhere
  obtain ⟨endpoint, hendpoint, -⟩ := (Option.any_eq_true _ _).mp hwhere.1.1.2
  exact ⟨endpoint, hendpoint⟩

theorem scanEndpoints_iff (h : ∀ r ∈ rows, ∃ endpoint, r.endpoint = some endpoint) :
    scanEndpoints urls rows = true ↔ ∃ r ∈ rows, routable urls r = true := by
  induction rows with
  | nil => simp [scanEndpoints]
  | cons r rest ih =>
    obtain ⟨endpoint, hendpoint⟩ := h r mem_cons_self
    have hrest := ih fun r' hr' => h r' (mem_cons_of_mem r hr')
    simp only [scanEndpoints, hendpoint, mem_cons, exists_eq_or_imp, routable, Option.any_some]
    by_cases hroutable : isRoutableHTTPRuntimeEndpoint urls endpoint = true
    · simp [hroutable]
    · simpa [hroutable, routable] using hrest

theorem scanRuntimes_isOk {exhausted : SelectError} :
    (scanRuntimes urls exhausted rows).isOk = scanEndpoints urls rows := by
  induction rows with
  | nil => rfl
  | cons r rest ih =>
    rw [scanRuntimes, scanEndpoints]
    cases r.endpoint with
    | none => rfl
    | some endpoint =>
      dsimp only
      split
      · next hnormal => simpa [isRoutableHTTPRuntimeEndpoint, hnormal] using ih
      · next hnormal => simp [isRoutableHTTPRuntimeEndpoint, hnormal, Except.isOk, Except.toBool]

theorem has_iff {query : Text → Text → Option Delivery}
    (hquery : query tenantID (trimSpace preferred) = some ⟨rows, false⟩)
    (hrows : LimitedQuery.Answers (fun _ => 0) 10 (eligibleRows s tenantID (trimSpace preferred) 90) rows) :
    tenantHasHealthyRuntime urls (some query) tenantID preferred = true ↔
      tenantID ≠ [] ∧ ∃ r ∈ rows, routable urls r = true := by
  have hscan : scanEndpoints urls rows = true ↔ ∃ r ∈ rows, routable urls r = true :=
    scanEndpoints_iff fun r hr => endpoint_of_eligible (mem_of_answers hrows hr)
  by_cases htenant : tenantID = []
  · simp [tenantHasHealthyRuntime, htenant]
  · simp [tenantHasHealthyRuntime, htenant, hquery, hscan]

theorem select_iff {query : Text → Text → Int → Option Delivery}
    (hquery : query tenantID (trimSpace preferred) seconds = some ⟨rows, false⟩)
    (hrows : LimitedQuery.Answers (activeCount s) 10 (eligibleRows s tenantID (trimSpace preferred) seconds)
      rows) :
    (selectRuntime urls query seconds tenantID preferred).isOk = true ↔ ∃ r ∈ rows, routable urls r = true := by
  rw [selectRuntime, hquery]
  exact scanRuntimes_isOk ▸ scanEndpoints_iff fun r hr => endpoint_of_eligible (mem_of_answers hrows hr)

theorem agree_iff_rows {timeout : Int} : Agree urls s timeout tenantID preferred ↔
    ∀ rows rows',
      LimitedQuery.Answers (fun _ => 0) 10 (eligibleRows s tenantID (trimSpace preferred) 90) rows →
      LimitedQuery.Answers (activeCount s) 10
        (eligibleRows s tenantID (trimSpace preferred) (windowSeconds timeout)) rows' →
      ((tenantID ≠ [] ∧ ∃ r ∈ rows, routable urls r = true) ↔
        Available urls s tenantID preferred (windowSeconds timeout)) ∧
      ((∃ r ∈ rows', routable urls r = true) ↔ Available urls s tenantID preferred (windowSeconds timeout)) := by
  constructor
  · intro hagree rows rows' hrows hrows'
    have hboth := hagree (fun _ _ => some ⟨rows, false⟩) (fun _ _ _ => some ⟨rows', false⟩) ⟨rows, rfl, hrows⟩
      ⟨rows', rfl, hrows'⟩
    rw [has_iff rfl hrows, select_iff rfl hrows'] at hboth
    exact ⟨hboth.1.trans hboth.2, hboth.2⟩
  · rintro hboth has select ⟨rows, hquery, hrows⟩ ⟨rows', hquery', hrows'⟩
    obtain ⟨hfirst, hsecond⟩ := hboth rows rows' hrows hrows'
    rw [has_iff hquery hrows, select_iff hquery' hrows']
    exact ⟨hfirst.trans hsecond.symm, hsecond⟩

theorem available_of_answers {key : RuntimeInstance → Nat}
    (h : LimitedQuery.Answers key 10 (eligibleRows s tenantID (trimSpace preferred) seconds) rows)
    (hgood : ∃ r ∈ rows, routable urls r = true) : Available urls s tenantID preferred seconds := by
  obtain ⟨r, hr, hroutable⟩ := hgood
  exact ⟨r, mem_of_answers h hr, hroutable⟩

theorem few_early_of_found {key : RuntimeInstance → Nat}
    (h : ∀ answer, LimitedQuery.Answers key 10 rows answer → ∃ r ∈ answer, routable urls r = true) :
    (early key (routable urls) rows).length < 10 := by
  by_contra hmany
  obtain ⟨answer, hanswer, hnone⟩ := exists_answer_without (Nat.le_of_not_lt hmany)
  obtain ⟨r, hr, hroutable⟩ := h answer hanswer
  rw [hnone r hr] at hroutable
  cases hroutable

/-- The check before the dispatch and the selection agree on a state exactly when the condition holds. -/
theorem availability_agrees_iff (urls : EndpointURLs) (s : State) (timeout : Int) (tenantID preferredRuntimeID : Text) :
    Agree urls s timeout tenantID preferredRuntimeID ↔ SameWorld urls s timeout tenantID preferredRuntimeID := by
  rw [agree_iff_rows]
  constructor
  · intro hboth
    obtain ⟨rows, hrows⟩ := exists_answer (fun _ => 0) 10
      (eligibleRows s tenantID (trimSpace preferredRuntimeID) 90)
    obtain ⟨rows', hrows'⟩ := exists_answer (activeCount s) 10
      (eligibleRows s tenantID (trimSpace preferredRuntimeID) (windowSeconds timeout))
    by_cases havailable : Available urls s tenantID preferredRuntimeID (windowSeconds timeout)
    · have hfound : ∀ answer, _ → tenantID ≠ [] ∧ ∃ r ∈ answer, routable urls r = true :=
        fun answer hanswer => (hboth answer rows' hanswer hrows').1.mpr havailable
      obtain ⟨htenant, hgood⟩ := hfound rows hrows
      refine .inr ⟨htenant, havailable, available_of_answers hrows hgood, ?_, ?_⟩
      · exact few_early_of_found fun answer hanswer => (hfound answer hanswer).2
      · exact few_early_of_found fun answer hanswer => (hboth rows answer hrows hanswer).2.mpr havailable
    refine .inl ⟨havailable, or_iff_not_imp_left.mpr ?_⟩
    rintro htenant ⟨r, hr, hroutable⟩
    -- the available runtime may be the first that the first query lists
    obtain ⟨answer, hanswer, hmem⟩ := exists_answer_with (fun _ => 0) (by omega : 0 < 10) hr
      fun _ _ => Nat.le_refl 0
    exact havailable ((hboth answer rows' hanswer hrows').1.mp ⟨htenant, r, hmem, hroutable⟩)
  rintro (⟨hnone, hcheck⟩ | ⟨htenant, havailable, hchecked, hfew, hfew'⟩) rows rows' hrows hrows'
  · refine ⟨iff_of_false ?_ hnone, iff_of_false (fun hgood => hnone (available_of_answers hrows' hgood)) hnone⟩
    rintro ⟨htenant, hgood⟩
    exact hcheck.elim htenant fun hnot => hnot (available_of_answers hrows hgood)
  · refine ⟨iff_of_true ⟨htenant, ?_⟩ havailable, iff_of_true ?_ havailable⟩
    · exact exists_good_of_answers hrows hchecked hfew
    · exact exists_good_of_answers hrows' havailable hfew'

section Sample

def plainURLs : EndpointURLs where
  parse t :=
    match t.span (· != ':') with
    | (scheme, ':' :: '/' :: '/' :: rest) =>
      some ⟨scheme, rest.takeWhile (· != '/'), rest.dropWhile (· != '/'), [], [], false⟩
    | _ => none
  string _ u := u.scheme ++ "://" ++ u.host ++ u.path

def tenant : Text := "t"

def sampleRuntime (n : Nat) (endpoint : String) : RuntimeInstance :=
  ⟨replicate (n + 1) 'r', some tenant, true, "active", some endpoint.toList, some 40000000⟩

def seenOnce : State := ⟨[sampleRuntime 0 "http://r"], [], 100000000⟩

def crowded : State :=
  ⟨(range 10).map (fun n => sampleRuntime n "ftp://r") ++ [sampleRuntime 10 "http://r"], [], 100000000⟩

theorem answers_self {s : State} {key : RuntimeInstance → Nat} (hkey : ∀ a b, key a ≤ key b) (tenantID : Text)
    (seconds : Int) : LimitedQuery.Answers key 10 (eligibleRows s tenantID (trimSpace []) seconds)
      ((eligibleRows s tenantID (trimSpace []) seconds).take 10) :=
  ⟨_, .refl _, pairwise_of_forall fun a b => hkey a b, rfl⟩

/-- With a timeout of thirty seconds the check finds a runtime that the selection does not; with ten runtimes before
it, neither finds the one that is available. -/
theorem window_and_limit_miss :
    (∃ has select, HasDelivers seenOnce tenant [] has ∧
      SelectDelivers seenOnce tenant [] (windowSeconds 30000000000) select ∧
      tenantHasHealthyRuntime plainURLs (some has) tenant [] = true ∧
      (selectRuntime plainURLs select (windowSeconds 30000000000) tenant []).isOk = false) ∧
    ∃ has select, HasDelivers crowded tenant [] has ∧
      SelectDelivers crowded tenant [] (windowSeconds 90000000000) select ∧
      tenantHasHealthyRuntime plainURLs (some has) tenant [] = false ∧
      (selectRuntime plainURLs select (windowSeconds 90000000000) tenant []).isOk = false ∧
      Available plainURLs crowded tenant [] (windowSeconds 90000000000) := by
  refine ⟨⟨fun _ _ => some ⟨(eligibleRows seenOnce tenant (trimSpace []) 90).take 10, false⟩,
    fun _ _ _ => some ⟨(eligibleRows seenOnce tenant (trimSpace []) (windowSeconds 30000000000)).take 10, false⟩,
    ⟨_, rfl, answers_self (fun _ _ => Nat.le_refl 0) _ _⟩, ⟨_, rfl, answers_self (fun _ _ => Nat.le_refl 0) _ _⟩,
    by decide +kernel, by decide +kernel⟩,
    fun _ _ => some ⟨(eligibleRows crowded tenant (trimSpace []) 90).take 10, false⟩,
    fun _ _ _ => some ⟨(eligibleRows crowded tenant (trimSpace []) (windowSeconds 90000000000)).take 10, false⟩,
    ⟨_, rfl, answers_self (fun _ _ => Nat.le_refl 0) _ _⟩, ⟨_, rfl, answers_self (fun _ _ => Nat.le_refl 0) _ _⟩,
    by decide +kernel, by decide +kernel, ⟨sampleRuntime 10 "http://r", ?_, by decide +kernel⟩⟩
  decide +kernel

end Sample

end Overture.RuntimeAvailability
