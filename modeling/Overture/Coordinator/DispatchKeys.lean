import Overture.Coordinator.Checkpoint
import Overture.Lib.Delimited
import Overture.Lib.Utf8

/-!
# The idempotency keys of dispatches

A dispatch that resumes a task appends the step and the start of the digest of its checkpoint to the key of the task.
The client chooses the key of a task, which may look like the key of another task with such an end, and the end tells
only digests apart that differ early.
-/

namespace Overture.DispatchKeys

open Delimited List

/-- A task that is sent to a runtime, from the start or from a checkpoint. -/
structure Dispatch where
  taskID : Uuid
  idempotencyKey : Text
  checkpoint : Option CheckpointPayload

/-- At most 16 bytes are kept. A rune that is cut is replaced when the key is written to the payload. -/
def shortDigest (cp : CheckpointPayload) : Text :=
  let digest := Text.trimSpace cp.resumeToken.checkpointDigest
  if (Utf8.encode digest).length > 16 then Utf8.decodeLossy ((Utf8.encode digest).take 16) else digest

def stepText (cp : CheckpointPayload) : Text := Json.intLiteral cp.resumeToken.lastCommittedStep.toNat

def resumeWord : Text := ":resume:"

def resumeEnd : Option CheckpointPayload → Text
  | none => []
  | some cp => resumeWord ++ stepText cp ++ ':' :: shortDigest cp

def runtimeDispatchIdempotencyKey (d : Dispatch) : Text := d.idempotencyKey ++ resumeEnd d.checkpoint

def SameCheckpoint : Option CheckpointPayload → Option CheckpointPayload → Prop
  | none, none => True
  | some cp, some cp' => cp.resumeToken.lastCommittedStep = cp'.resumeToken.lastCommittedStep ∧
    cp.resumeToken.checkpointDigest = cp'.resumeToken.checkpointDigest
  | _, _ => False

def KeyTells (d d' : Dispatch) : Prop :=
  runtimeDispatchIdempotencyKey d = runtimeDispatchIdempotencyKey d' →
    d.taskID = d'.taskID ∧ SameCheckpoint d.checkpoint d'.checkpoint

/-- The key of the second task is the key of the first one, followed by the word and the step of the first one's
checkpoint, and what is left of the first one's digest is the rest of that key and the end of the second dispatch. -/
def Spells (d d' : Dispatch) : Prop :=
  ∃ cp rest, d.checkpoint = some cp ∧ d'.idempotencyKey = d.idempotencyKey ++ (resumeWord ++ stepText cp ++ rest) ∧
    ':' :: shortDigest cp = rest ++ resumeEnd d'.checkpoint

def SameStart : Option CheckpointPayload → Option CheckpointPayload → Prop
  | none, none => True
  | some cp, some cp' => cp.resumeToken.lastCommittedStep = cp'.resumeToken.lastCommittedStep ∧
    shortDigest cp = shortDigest cp'
  | _, _ => False

theorem resumeEnd_some (cp : CheckpointPayload) :
    resumeEnd (some cp) = resumeWord ++ stepText cp ++ ':' :: shortDigest cp := by
  unfold resumeEnd
  rfl

variable {cp : CheckpointPayload} {d d' : Dispatch}

theorem stepText_inj {cp' : CheckpointPayload} (h : stepText cp = stepText cp') :
    cp.resumeToken.lastCommittedStep = cp'.resumeToken.lastCommittedStep := by
  have hnat := intLiteral_inj h
  exact UInt32.toNat_inj.mp (by exact_mod_cast hnat)

theorem resumeEnd_inj {cp' : CheckpointPayload} : resumeEnd (some cp) = resumeEnd (some cp') ↔
    cp.resumeToken.lastCommittedStep = cp'.resumeToken.lastCommittedStep ∧ shortDigest cp = shortDigest cp' := by
  constructor
  · intro h
    rw [resumeEnd_some, resumeEnd_some, append_assoc, append_assoc, append_cancel_left_eq] at h
    obtain ⟨hstep, hdigest⟩ := cut_first h (colon_notMem_intLiteral _)
      (colon_notMem_intLiteral _)
    exact ⟨stepText_inj hstep, hdigest⟩
  · rintro ⟨hstep, hdigest⟩
    rw [resumeEnd_some, resumeEnd_some, stepText, stepText, hstep, hdigest]

theorem resumeEnd_ne_nil (cp : CheckpointPayload) : resumeEnd (some cp) ≠ [] := by
  rw [resumeEnd_some]
  exact append_ne_nil_of_right_ne_nil _ (cons_ne_nil _ _)

/-- The only colon after the first one of a resume end stands before the step. -/
theorem eq_stepText_of_colon {front rest : Text}
    (h : "resume" ++ ':' :: stepText cp = front ++ ':' :: rest) : rest = stepText cp := by
  rcases append_eq_append_iff.mp h with ⟨more, -, hstep⟩ | ⟨more, hword, hrest⟩
  · cases more with
    | nil => exact (cons.inj hstep).2.symm
    | cons c more =>
      have hmem : ':' ∈ stepText cp := by
        rw [(cons.inj hstep).2]
        exact mem_append_right _ mem_cons_self
      exact absurd hmem (colon_notMem_intLiteral _)
  · cases more with
    | nil => exact (cons.inj hrest).2
    | cons c more =>
      have hmem : ':' ∈ "resume".toList := by
        rw [hword, (cons.inj hrest).1]
        exact mem_append_right _ mem_cons_self
      exact absurd hmem (by decide)

theorem letter_notMem_stepText (cp : CheckpointPayload) : 'r' ∉ stepText cp := by
  intro hmem
  have hdigit := Json.isDigit_toDigits _ 'r' hmem
  revert hdigit
  decide

theorem not_starts_inside {checkpoint : Option CheckpointPayload} {front rest : Text}
    (hfront : front ≠ []) (hrest : rest ≠ []) (h : resumeWord ++ stepText cp = front ++ rest)
    (hstarts : resumeEnd checkpoint = rest ++ ':' :: shortDigest cp) : False := by
  obtain ⟨c, front, rfl⟩ := exists_cons_of_ne_nil hfront
  obtain ⟨b, rest, rfl⟩ := exists_cons_of_ne_nil hrest
  cases checkpoint with
  | none => cases hstarts
  | some cp' =>
    rw [resumeEnd_some] at hstarts
    obtain ⟨rfl, htail⟩ := cons.inj hstarts
    have hstep : rest = stepText cp := eq_stepText_of_colon (cons.inj h).2
    have hletters := letter_notMem_stepText cp
    rw [← hstep] at hletters
    -- What follows the colon is a step here and the word there.
    cases rest with
    | nil => exact absurd (cons.inj htail).1 (by decide)
    | cons a rest =>
      rw [← (cons.inj htail).1] at hletters
      exact hletters mem_cons_self

theorem spells_of_longer {more : Text} (hmore : more ≠ [])
    (hkey : d'.idempotencyKey = d.idempotencyKey ++ more)
    (h : resumeEnd d.checkpoint = more ++ resumeEnd d'.checkpoint) : Spells d d' := by
  cases hcp : d.checkpoint with
  | none =>
    rw [hcp] at h
    exact absurd (append_eq_nil_iff.mp h.symm).1 hmore
  | some cp =>
    rw [hcp, resumeEnd_some] at h
    refine ⟨cp, ?_⟩
    rcases append_eq_append_iff.mp h with ⟨rest, hrest, hdigest⟩ | ⟨rest, hrest, hend⟩
    · exact ⟨rest, hcp, by rw [hkey, hrest], hdigest⟩
    · cases rest with
      | nil => exact ⟨[], hcp, by rw [hkey, hrest, append_nil, append_nil], hend.symm⟩
      | cons c rest => exact (not_starts_inside hmore (cons_ne_nil c rest) hrest hend).elim

theorem keys_eq_of_spells (h : Spells d d') :
    runtimeDispatchIdempotencyKey d = runtimeDispatchIdempotencyKey d' := by
  obtain ⟨cp, rest, hcp, hkey, hdigest⟩ := h
  rw [runtimeDispatchIdempotencyKey, runtimeDispatchIdempotencyKey, hkey, hcp, resumeEnd_some, hdigest]
  simp only [append_assoc]

theorem keys_eq_iff_spells (hkeys : d.idempotencyKey ≠ d'.idempotencyKey) :
    runtimeDispatchIdempotencyKey d = runtimeDispatchIdempotencyKey d' ↔ Spells d d' ∨ Spells d' d := by
  constructor
  · intro h
    rcases append_eq_append_iff.mp h with ⟨more, hkey, hend⟩ | ⟨more, hkey, hend⟩
    · refine .inl (spells_of_longer ?_ hkey hend)
      rintro rfl
      exact hkeys (by rw [hkey, append_nil])
    refine .inr (spells_of_longer ?_ hkey hend)
    rintro rfl
    exact hkeys (by rw [hkey, append_nil])
  · rintro (h | h)
    · exact keys_eq_of_spells h
    · exact (keys_eq_of_spells h).symm

theorem keys_eq_iff_sameStart (hkeys : d.idempotencyKey = d'.idempotencyKey) :
    runtimeDispatchIdempotencyKey d = runtimeDispatchIdempotencyKey d' ↔ SameStart d.checkpoint d'.checkpoint := by
  rw [runtimeDispatchIdempotencyKey, runtimeDispatchIdempotencyKey, hkeys, append_cancel_left_eq]
  cases d.checkpoint with
  | none =>
    cases d'.checkpoint with
    | none => exact ⟨fun _ => trivial, fun _ => rfl⟩
    | some cp' => exact ⟨fun h => (resumeEnd_ne_nil cp' h.symm).elim, False.elim⟩
  | some cp =>
    cases d'.checkpoint with
    | none => exact ⟨fun h => (resumeEnd_ne_nil cp h).elim, False.elim⟩
    | some cp' => exact resumeEnd_inj

theorem not_spells_self (hkeys : d.idempotencyKey = d'.idempotencyKey) : ¬Spells d d' := by
  rintro ⟨cp, rest, -, hkey, -⟩
  rw [hkeys] at hkey
  exact absurd (self_eq_append_right.mp hkey) (cons_ne_nil _ _)

def resumed (id : Uuid) (key digest : Text) : Dispatch :=
  ⟨id, key, some ⟨id, ⟨4, digest, []⟩, [], [], Time.zero⟩⟩

end Overture.DispatchKeys
