import Overture.Lib.Service
import Overture.Lib.Text

/-!
# The tenant of a database session

The middleware sets the tenant of a session before the handler of a request and clears it afterwards. Each statement is
handed to the pool, which runs it on any of its connections: the tenant is a variable of the session on which the
statement happened to run.
-/

namespace Overture.TenantSessions

open List

/-- The variable `app.current_tenant` of each session, empty where no tenant is set, and what the statements of the
handlers saw: the tenant of the request and the tenant of the session. -/
structure Connections where
  sessions : List Text
  seen : List (Text × Text)

/-- A request that passed the authentication of `TenantAuth` or `APIKeyAuth`. Inside the handler, `home` is the
connection that ran `set_tenant_context`, which the middleware does not keep. -/
inductive Request where
  | authenticated (tenant : Text)
  | inside (tenant : Text) (home : Nat)

inductive Fate where
  | passes
  | fails
  | answerLost
deriving DecidableEq

structure Turn where
  connection : Nat
  fate : Fate
  returned : Bool

def Connections.setConfig (s : Connections) (connection : Nat) (tenant : Text) : Connections :=
  { s with sessions := s.sessions.set connection tenant }

def Connections.statement (s : Connections) (connection : Nat) (tenant : Text) : Connections :=
  { s with seen := s.seen ++ (s.sessions[connection]?).toList.map fun current => (tenant, current) }

/-- The next statement of a request. Without an answer to `set_tenant_context` the request ends with an error, and
the answer to `clear_tenant_context` is ignored. -/
def exec (t : Turn) (f : Request) (s : Connections) : Option (Connections × Option Request) :=
  if s.sessions.length ≤ t.connection then none
  else
    match f with
    | .authenticated tenant =>
      match t.fate with
      | .passes => some (s.setConfig t.connection tenant, some (.inside tenant t.connection))
      | .fails => some (s, none)
      | .answerLost => some (s.setConfig t.connection tenant, none)
    | .inside tenant home =>
      if t.returned then
        match t.fate with
        | .fails => some (s, none)
        | _ => some (s.setConfig t.connection [], none)
      else some (s.statement t.connection tenant, some (.inside tenant home))

def entry : Request → Bool
  | .authenticated _ => true
  | _ => false

def middleware : Service Connections Request Turn Empty := ⟨entry, exec, fun e _ => e.elim⟩

def opened (connections : Nat) : Service.Pool Connections Request :=
  ⟨⟨replicate connections [], []⟩, []⟩

structure Isolated (p : Service.Pool Connections Request) : Prop where
  seen : ∀ o ∈ p.store.seen, o.2 = o.1
  cleared : p.flights = [] → ∀ tenant ∈ p.store.sessions, tenant = []

def Request.home? : Request → Option Nat
  | .authenticated _ => none
  | .inside _ home => some home

def homes (fs : List Request) : List Nat := fs.filterMap Request.home?

/-- The pool gives a request a connection that no other request has set its tenant on, gives it that one for each
of its statements, and loses no answer to the statements of the middleware. -/
def Pinned (p : Service.Pool Connections Request) : Service.Move Request Turn Empty → Prop
  | .act i t =>
    match p.flights[i]? with
    | some (.authenticated _) => t.connection ∉ homes p.flights ∧ t.fate ≠ .answerLost
    | some (.inside _ home) => t.connection = home ∧ t.fate ≠ .fails
    | none => True
  | _ => True

instance (p : Service.Pool Connections Request) (m : Service.Move Request Turn Empty) : Decidable (Pinned p m) := by
  cases m <;> unfold Pinned <;> dsimp only
  · infer_instance
  · split <;> infer_instance
  · infer_instance

structure Sound (p : Service.Pool Connections Request) : Prop where
  held : ∀ tenant home, .inside tenant home ∈ p.flights → p.store.sessions[home]? = some tenant
  apart : (homes p.flights).Nodup
  free : ∀ (k : Nat) tenant, p.store.sessions[k]? = some tenant → tenant ≠ [] → k ∈ homes p.flights
  seen : ∀ o ∈ p.store.seen, o.2 = o.1

variable {k : Nat} {s : Connections} {l r : List Request} {tenant : Text}

theorem mem_homes {fs : List Request} : k ∈ homes fs ↔ ∃ tenant, .inside tenant k ∈ fs := by
  rw [homes, mem_filterMap]
  constructor
  · rintro ⟨f, hf, hhome⟩
    cases f with
    | authenticated tenant => cases hhome
    | inside tenant home =>
      obtain rfl := Option.some.inj hhome
      exact ⟨tenant, hf⟩
  · rintro ⟨tenant, hmem⟩
    exact ⟨_, hmem, rfl⟩

theorem homes_append (fs gs : List Request) : homes (fs ++ gs) = homes fs ++ homes gs := filterMap_append

theorem homes_authenticated (l r : List Request) (tenant : Text) :
    homes (l ++ .authenticated tenant :: r) = homes (l ++ r) := by
  rw [homes_append, homes_append]
  rfl

theorem homes_inside (l r : List Request) (tenant : Text) (home : Nat) :
    homes (l ++ .inside tenant home :: r) = homes l ++ home :: homes r := by
  rw [homes_append]
  rfl

theorem homes_perm (l r : List Request) (tenant : Text) (home : Nat) :
    (homes (l ++ .inside tenant home :: r)).Perm (home :: homes (l ++ r)) := by
  rw [homes_inside, homes_append]
  exact perm_middle

theorem Sound.enter (h : Sound ⟨s, l ++ .authenticated tenant :: r⟩) (hk : k < s.sessions.length)
    (hown : k ∉ homes (l ++ .authenticated tenant :: r)) :
    Sound ⟨s.setConfig k tenant, l ++ .inside tenant k :: r⟩ := by
  rw [homes_authenticated] at hown
  have hperm := homes_perm l r tenant k
  refine ⟨fun tenant' home hmem => ?_, ?_, fun k' tenant' hget hne => ?_, h.seen⟩
  · rcases mem_append.mp hmem with hmem | hmem
    · have hne : k ≠ home := by
        rintro rfl
        exact hown (mem_homes.mpr ⟨tenant', mem_append_left _ hmem⟩)
      rw [Connections.setConfig, getElem?_set_ne hne]
      exact h.held tenant' home (mem_append_left _ hmem)
    rcases mem_cons.mp hmem with heq | hmem
    · cases heq
      simp [Connections.setConfig, hk]
    have hne : k ≠ home := by
      rintro rfl
      exact hown (mem_homes.mpr ⟨tenant', mem_append_right _ hmem⟩)
    rw [Connections.setConfig, getElem?_set_ne hne]
    exact h.held tenant' home (mem_append_right _ (mem_cons_of_mem _ hmem))
  · have hapart := h.apart
    rw [homes_authenticated] at hapart
    exact hperm.nodup_iff.mpr (nodup_cons.mpr ⟨hown, hapart⟩)
  rw [hperm.mem_iff, mem_cons]
  by_cases hkk : k = k'
  · exact .inl hkk.symm
  rw [Connections.setConfig, getElem?_set_ne hkk] at hget
  have hold := h.free k' tenant' hget hne
  rw [homes_authenticated] at hold
  exact .inr hold

theorem Sound.leave (h : Sound ⟨s, l ++ .inside tenant k :: r⟩) : Sound ⟨s.setConfig k [], l ++ r⟩ := by
  have hperm := homes_perm l r tenant k
  obtain ⟨hown, hapart⟩ := nodup_cons.mp (hperm.nodup_iff.mp h.apart)
  refine ⟨fun tenant' home hmem => ?_, hapart, fun k' tenant' hget hne => ?_, h.seen⟩
  · have hne : k ≠ home := by
      rintro rfl
      exact hown (mem_homes.mpr ⟨tenant', hmem⟩)
    rw [Connections.setConfig, getElem?_set_ne hne]
    refine h.held tenant' home ?_
    rcases mem_append.mp hmem with hmem | hmem
    · exact mem_append_left _ hmem
    · exact mem_append_right _ (mem_cons_of_mem _ hmem)
  by_cases hkk : k = k'
  · subst hkk
    -- the session that was cleared has no tenant
    rw [Connections.setConfig, getElem?_set] at hget
    rw [if_pos rfl] at hget
    split at hget
    · exact absurd (Option.some.inj hget).symm hne
    · cases hget
  · rw [Connections.setConfig, getElem?_set_ne hkk] at hget
    have hold := hperm.mem_iff.mp (h.free k' tenant' hget hne)
    exact (mem_cons.mp hold).resolve_left (Ne.symm hkk)

theorem Sound.statement {fs : List Request} (h : Sound ⟨s, fs⟩)
    (hmem : .inside tenant k ∈ fs) : Sound ⟨s.statement k tenant, fs⟩ := by
  refine ⟨h.held, h.apart, h.free, fun o ho => ?_⟩
  rcases mem_append.mp ho with ho | ho
  · exact h.seen o ho
  rw [h.held tenant k hmem] at ho
  rw [mem_singleton.mp ho]

theorem Sound.refuse (h : Sound ⟨s, l ++ .authenticated tenant :: r⟩) : Sound ⟨s, l ++ r⟩ := by
  have hsame := homes_authenticated l r tenant
  refine ⟨fun tenant' home hmem => h.held tenant' home ?_, hsame ▸ h.apart, ?_, h.seen⟩
  · rcases mem_append.mp hmem with hmem | hmem
    · exact mem_append_left _ hmem
    · exact mem_append_right _ (mem_cons_of_mem _ hmem)
  · intro k tenant' hget hne
    exact hsame ▸ h.free k tenant' hget hne

theorem Sound.exec {p : Service.Pool Connections Request} {i : Nat} {t : Turn} {f : Request}
    {f' : Option Request} (hp : Sound p) (hok : Pinned p (.act i t)) (hf : p.flights[i]? = some f)
    (hflights : p.flights = l ++ f :: r) (h : TenantSessions.exec t f p.store = some (s, f')) :
    Sound ⟨s, l ++ f'.toList ++ r⟩ := by
  obtain ⟨store, flights⟩ := p
  obtain rfl : flights = l ++ f :: r := hflights
  unfold TenantSessions.exec at h
  split at h
  · cases h
  next hlength =>
  simp only [Pinned, hf] at hok
  cases f with
  | authenticated tenant =>
    cases hfate : t.fate with
    | passes =>
      simp only [hfate] at h
      cases h
      simpa using hp.enter (Nat.lt_of_not_le hlength) hok.1
    | fails =>
      simp only [hfate] at h
      cases h
      simpa using hp.refuse
    | answerLost => exact absurd hfate hok.2
  | inside tenant home =>
    obtain ⟨rfl, hfate⟩ := hok
    dsimp only at h
    split at h
    · cases hfate' : t.fate with
      | fails => exact absurd hfate' hfate
      | passes | answerLost =>
        simp only [hfate'] at h
        cases h
        simpa using hp.leave
    · cases h
      simpa using hp.statement (mem_append_right _ mem_cons_self)

theorem Sound.move {p q : Service.Pool Connections Request} {m : Service.Move Request Turn Empty} (hp : Sound p)
    (hok : Pinned p m) (h : middleware.move p m = some q) : Sound q := by
  cases m with
  | arrive f =>
    obtain ⟨hentry, rfl⟩ := Service.move_arrive h
    cases f with
    | authenticated tenant =>
      have hsame : homes (p.flights ++ [.authenticated tenant]) = homes p.flights := by
        rw [homes_authenticated, append_nil]
      refine ⟨fun tenant' home hmem => hp.held tenant' home ?_, hsame ▸ hp.apart, ?_, hp.seen⟩
      · simpa using hmem
      intro k tenant' hget hne
      exact hsame ▸ hp.free k tenant' hget hne
    | inside tenant home => cases hentry
  | act i t =>
    obtain ⟨l, f, r, s, f', hf, hflights, hexec, rfl⟩ := Service.move_act_split h
    exact hp.exec hok hf hflights hexec
  | env e => exact e.elim

theorem sound_opened (connections : Nat) : Sound (opened connections) := by
  refine ⟨fun _ _ hmem => (not_mem_nil hmem).elim, nodup_nil, fun k tenant hget hne => ?_,
    fun _ ho => (not_mem_nil ho).elim⟩
  exact absurd (eq_of_mem_replicate (mem_of_getElem? hget)) hne

/-- Where the pool pins each request to a connection, for any number of connections, every statement of a request
runs under its tenant and no tenant stays behind. -/
theorem sessions_isolated (connections : Nat) {q : Service.Pool Connections Request}
    (hrun : middleware.Run Pinned (opened connections) q) : Isolated q := by
  have hq := hrun.invariant (sound_opened connections) fun _ _ _ hp hok hmove => hp.move hok hmove
  refine ⟨hq.seen, fun hnone tenant hmem => ?_⟩
  obtain ⟨k, hget⟩ := getElem?_of_mem hmem
  by_contra hne
  have hhome := hq.free k tenant hget hne
  rw [hnone] at hhome
  cases hhome

section Sample

def turn (connection : Nat) : Turn := ⟨connection, .passes, false⟩

def lastTurn (connection : Nat) : Turn := ⟨connection, .passes, true⟩

def bothInside : List (Service.Move Request Turn Empty) :=
  [.arrive (.authenticated "a"), .arrive (.authenticated "b"), .act 0 (turn 0), .act 1 (turn 1)]

/-- The second request is given the connection of the first: its statement runs under the other tenant, and the
tenant of its own connection stays behind. -/
theorem statement_under_other_tenant :
    ∃ q, middleware.Run Service.anyMove (opened 2) q ∧ ("b".toList, "a".toList) ∈ q.store.seen ∧ q.flights = [] ∧
      "b".toList ∈ q.store.sessions ∧ ¬ Isolated q := by
  have hrun : (middleware.run (opened 2) (bothInside ++
      [.act 1 (turn 0), .act 1 (lastTurn 0), .act 0 (lastTurn 0)])).any (fun q =>
        decide (("b".toList, "a".toList) ∈ q.store.seen ∧ "b".toList ∈ q.store.sessions) && q.flights.isEmpty) =
          true := by
    decide +kernel
  obtain ⟨q, hq, hrest⟩ := (Option.any_eq_true _ _).mp hrun
  rw [Bool.and_eq_true, decide_eq_true_eq, List.isEmpty_iff] at hrest
  obtain ⟨⟨hseen, hsession⟩, hdone⟩ := hrest
  refine ⟨q, Service.Run.refl.of_run (Service.meets_anyMove _ _) hq, hseen, hdone, hsession, fun h => ?_⟩
  exact absurd (h.seen _ hseen) (by decide)

/-- The two requests on a connection each. -/
theorem pinned_requests_isolated : ∃ q, middleware.Run Pinned (opened 2) q ∧ Isolated q ∧ q.store.seen.length = 2 := by
  have hrun : (middleware.run (opened 2) (bothInside ++
      [.act 1 (turn 1), .act 0 (turn 0), .act 1 (lastTurn 1), .act 0 (lastTurn 0)])).any
        (fun q => decide (q.store.seen.length = 2)) = true := by decide +kernel
  obtain ⟨q, hq, hlength⟩ := (Option.any_eq_true _ _).mp hrun
  have hpinned : middleware.Run Pinned (opened 2) q := Service.Run.refl.of_run (by decide +kernel) hq
  exact ⟨q, hpinned, sessions_isolated 2 hpinned, of_decide_eq_true hlength⟩

end Sample

end Overture.TenantSessions
