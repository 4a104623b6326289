import Overture.Lib.Uuid

/-!
# The expiry of credential references

The seconds a request asks for pass through a 64-bit duration in nanoseconds before they become milliseconds.
-/

namespace Overture.CredentialExpiry

structure CredentialRequest where
  (tool capability scope : Text)
  expiresInSeconds : Int64

structure CredentialReference where
  (referenceID tenantID taskID tool capability scope : Text)
  expiresAtUnixMs : Int
  revocable : Bool

structure Task where
  taskID : Uuid
  tenantID : Text

/-- A reading in nanoseconds whose milliseconds fit into 64 bits. -/
structure Clock where
  ns : Int
  fits : -2 ^ 63 ≤ ns / 10 ^ 6 ∧ ns / 10 ^ 6 < 2 ^ 63

def wrap (x : Int) : Int := x.bmod (2 ^ 64)

def expiresAt (now : Clock) (defaultExpiresAt : Int) (seconds : Int) : Int :=
  if 0 < seconds then wrap ((now.ns + wrap (seconds * 10 ^ 9)) / 10 ^ 6) else defaultExpiresAt

def buildCredentialReferences (now : Clock) (newString : Nat → Uuid) (task : Option Task)
    (requests : List CredentialRequest) (defaultExpiresAt : Int) : List CredentialReference :=
  match task with
  | none => []
  | some task => requests.mapIdx fun i req => {
      referenceID := "credref-" ++ (newString i).toText
      tenantID := task.tenantID
      taskID := task.taskID.toText
      tool := req.tool
      capability := req.capability
      scope := req.scope
      expiresAtUnixMs := expiresAt now defaultExpiresAt req.expiresInSeconds.toInt
      revocable := true }

def Clock.after (now : Clock) (seconds : Int64) : Int := now.ns / 10 ^ 6 + 1000 * seconds.toInt

def CredentialRequest.Timed (now : Clock) (req : CredentialRequest) : Prop :=
  0 < req.expiresInSeconds.toInt ∧ now.after req.expiresInSeconds < 2 ^ 63

def Punctual (now : Clock) (requests : List CredentialRequest) (refs : List CredentialReference) : Prop :=
  ∀ i : Nat, ∀ req ∈ requests[i]?, ∀ ref ∈ refs[i]?, req.Timed now →
    ref.expiresAtUnixMs = now.after req.expiresInSeconds ∧ now.ns / 10 ^ 6 < ref.expiresAtUnixMs

theorem exists_wrap_eq (x : Int) : ∃ k, wrap x = x + 2 ^ 64 * k ∧ -2 ^ 63 ≤ wrap x ∧ wrap x < 2 ^ 63 := by
  refine ⟨-x.bdiv (2 ^ 64), ?_⟩
  have hdiv := Int.bdiv_add_bmod x (2 ^ 64)
  have hlow := Int.le_bmod (x := x) (m := 2 ^ 64) (by decide)
  have hhigh := Int.bmod_lt (x := x) (m := 2 ^ 64) (by decide)
  rw [wrap]
  omega

theorem expiresAt_eq_iff {now : Clock} {req : CredentialRequest} (h : req.Timed now) (defaultExpiresAt : Int) :
    expiresAt now defaultExpiresAt req.expiresInSeconds.toInt = now.after req.expiresInSeconds ↔
      req.expiresInSeconds.toInt ≤ 9223372036 ∨ 18446734850337515 ≤ req.expiresInSeconds.toInt := by
  obtain ⟨hpos, hfits⟩ := h
  have hlow := now.fits.1
  rw [expiresAt, if_pos hpos]
  rw [Clock.after] at *
  generalize req.expiresInSeconds.toInt = seconds at *
  obtain ⟨k, hduration⟩ := exists_wrap_eq (seconds * 10 ^ 9)
  obtain ⟨j, hms⟩ := exists_wrap_eq ((now.ns + wrap (seconds * 10 ^ 9)) / 10 ^ 6)
  constructor
  · intro h
    -- what the duration lost is what the milliseconds gain
    have hcancel : k = -1000000 * j := by omega
    rcases Int.lt_or_le j 1 with hj | hj <;> omega
  · intro h
    have hwrap : k = 0 ∨ k = -1000000 := by omega
    omega

/-- A duration beyond 292 years wraps; only one that wraps back in the milliseconds comes out. -/
theorem references_punctual_iff (now : Clock) (newString : Nat → Uuid) (task : Option Task)
    (requests : List CredentialRequest) (defaultExpiresAt : Int) :
    Punctual now requests (buildCredentialReferences now newString task requests defaultExpiresAt) ↔
      task = none ∨ ∀ req ∈ requests, req.Timed now →
        req.expiresInSeconds.toInt ≤ 9223372036 ∨ 18446734850337515 ≤ req.expiresInSeconds.toInt := by
  cases task with
  | none => simp [Punctual, buildCredentialReferences]
  | some task =>
    rw [or_iff_right (by simp)]
    constructor
    · intro h req hreq htimed
      obtain ⟨i, hi⟩ := List.mem_iff_getElem?.mp hreq
      have href := h i req hi _ (by rw [buildCredentialReferences, List.getElem?_mapIdx, hi]; rfl) htimed
      exact (expiresAt_eq_iff htimed defaultExpiresAt).mp href.1
    · intro h i req hi ref href htimed
      rw [buildCredentialReferences, List.getElem?_mapIdx, hi] at href
      cases href
      have hexpires := (expiresAt_eq_iff htimed defaultExpiresAt).mpr (h req (List.mem_of_getElem? hi) htimed)
      refine ⟨hexpires, lt_of_lt_of_eq ?_ hexpires.symm⟩
      have hpos := htimed.1
      rw [Clock.after]
      omega

/-- A credential for 293 years has expired when it is issued. -/
theorem long_credential_expired :
    ¬ Punctual ⟨0, by decide⟩ [⟨[], [], [], 9223372037⟩]
      (buildCredentialReferences ⟨0, by decide⟩ (fun _ => 0) (some ⟨0, []⟩) [⟨[], [], [], 9223372037⟩] 0) := by
  intro h
  exact absurd (h 0 _ rfl _ rfl ⟨by decide, by decide⟩).2 (by decide)

end Overture.CredentialExpiry
