import Overture.Lib.Text

/-!
# The durable client's binding of a contract version to a target

`ensure_binding` asks for the binding of an exact action name and contract hash, creates it where
there is none, and asks again where another client was faster.
-/

namespace Overture.DurableBinding

/-- Python's `str.strip`, `str.lower` and `repr`. -/
structure Python where
  (strip lower repr : Text → Text)

structure ContractBinding where
  (actionName contractHash targetActionID : Text)
  deriving DecidableEq

inductive ErrorClass
  | durable | bindingConflict | other
  deriving DecidableEq

/-- The first two classes are those of `DurableError`. -/
structure Failure where
  errorClass : ErrorClass
  message : Text
  statusCode : Option Nat
  errorCode : Option Text
  deriving DecidableEq

def configurationError (message : Text) : Failure :=
  ⟨.durable, message, none, some "durable_configuration"⟩

structure Arguments where
  (actionName contractHash targetActionID : Text)
  inputMapping : List (Text × Text)
  idempotencyRequired : Bool := true

abbrev Answer := Except Failure ContractBinding

/-- What the answers to the requests of one call are read as, in order. -/
structure Answers where
  (found created foundAgain : Answer)

def contractHashRe (t : Text) : Bool :=
  t.length == 64 && t.all fun c => c.isDigit || (decide ('a' ≤ c) && decide (c ≤ 'f'))

variable (py : Python) (args : Arguments)

def requireExactIdentity : Except Failure (Text × Text) :=
  let name := py.strip args.actionName
  let hash := py.lower (py.strip args.contractHash)
  if name = [] then .error (configurationError "action_name is required")
  else if hash = [] then .error (configurationError
    "contract_hash is required; durable binding and runs never resolve by Action name alone")
  else if contractHashRe hash then .ok (name, hash)
  else .error (configurationError "contract_hash must be a 64-character lowercase hex digest")

def getBinding (answer : Answer) : Answer := do
  let _ ← requireExactIdentity py args
  answer

def createBinding (answer : Answer) : Answer := do
  let _ ← requireExactIdentity py args
  if py.strip args.targetActionID = [] then throw (configurationError
    "target_action_id is required; durable binding never resolves targets from Action name alone")
  if args.idempotencyRequired = false then throw (configurationError
    "idempotency_required must be True for consequential durable bindings")
  if args.inputMapping = [] then throw (configurationError
    "input_mapping is required (exact 1:1 contract parameter → target field)")
  answer

def Failure.BindingNotFound (e : Failure) : Prop :=
  e.errorClass ≠ .other ∧ (e.errorCode = some "binding_not_found" ∨
    e.statusCode = some 404 ∧ (e.errorCode = none ∨ e.errorCode = some "binding_not_found"))

instance (e : Failure) : Decidable e.BindingNotFound := inferInstanceAs (Decidable (_ ∧ _))

def boundElsewhere (existing : ContractBinding) : Failure where
  errorClass := .bindingConflict
  message := "exact contract " ++ args.contractHash.take 12 ++
    "… is already bound to target " ++ py.repr existing.targetActionID ++ ", not " ++
    py.repr args.targetActionID
  statusCode := some 409
  errorCode := some "binding_exists"

def ensureBinding (answers : Answers) : Answer :=
  match getBinding py args answers.found with
  | .ok existing =>
    if existing.targetActionID ≠ py.strip args.targetActionID then
      .error (boundElsewhere py args existing)
    else .ok existing
  | .error e =>
    if e.BindingNotFound then
      match createBinding py args answers.created with
      | .ok binding => .ok binding
      | .error e =>
        -- the target of what another client has bound is not compared here
        if e.errorClass = .bindingConflict then getBinding py args answers.foundAgain
        else .error e
    else .error e

abbrev Requested (b : ContractBinding) : Prop :=
  b.actionName = py.strip args.actionName ∧ b.contractHash = py.lower (py.strip args.contractHash) ∧
    b.targetActionID = py.strip args.targetActionID

def Identified : Prop :=
  py.strip args.actionName ≠ [] ∧ contractHashRe (py.lower (py.strip args.contractHash)) = true

def Creatable : Prop :=
  py.strip args.targetActionID ≠ [] ∧ args.idempotencyRequired = true ∧ args.inputMapping ≠ []

/-- Every answer that can end the call is of the binding asked for. -/
def Answers.Agree (answers : Answers) : Prop :=
  (∀ b, answers.found = .ok b → b.targetActionID = py.strip args.targetActionID → Requested py args b) ∧
    ∀ e, answers.found = .error e → e.BindingNotFound → Creatable py args →
      (∀ b, answers.created = .ok b → Requested py args b) ∧
      ∀ e, answers.created = .error e → e.errorClass = .bindingConflict →
        ∀ b, answers.foundAgain = .ok b → Requested py args b

theorem requireExactIdentity_cases :
    (Identified py args ∧ ∃ p, requireExactIdentity py args = .ok p) ∨
      ¬ Identified py args ∧ ∃ m, requireExactIdentity py args = .error (configurationError m) := by
  rw [requireExactIdentity, Identified]
  split
  · next hname => exact .inr ⟨fun h => h.1 hname, _, rfl⟩
  split
  · next hhash => exact .inr ⟨fun h => by simp [hhash, contractHashRe] at h, _, rfl⟩
  split
  · next hname _ hre => exact .inl ⟨⟨hname, hre⟩, _, rfl⟩
  · next hre => exact .inr ⟨fun h => hre h.2, _, rfl⟩

variable {py args}

theorem createBinding_cases {p : Text × Text} (hp : requireExactIdentity py args = .ok p) (a : Answer) :
    (Creatable py args ∧ createBinding py args a = a) ∨
      ¬ Creatable py args ∧ ∃ m, createBinding py args a = .error (configurationError m) := by
  simp only [createBinding, hp, bind, Except.bind, throw, throwThe, MonadExceptOf.throw]
  split
  · next htarget => exact .inr ⟨fun h => h.1 htarget, _, rfl⟩
  split
  · next hidem => exact .inr ⟨fun h => (nomatch hidem.symm.trans h.2.1), _, rfl⟩
  split
  · next hmapping => exact .inr ⟨fun h => h.2.2 hmapping, _, rfl⟩
  next htarget hidem hmapping =>
  exact .inl ⟨⟨htarget, Bool.eq_true_of_not_eq_false hidem, hmapping⟩, rfl⟩

theorem ensureBinding_requested_iff (py : Python) (args : Arguments) (answers : Answers) :
    (∀ b, ensureBinding py args answers = .ok b → Requested py args b) ↔
      (Identified py args → answers.Agree py args) := by
  rcases requireExactIdentity_cases py args with ⟨h, p, hp⟩ | ⟨h, m, hm⟩
  swap
  · have hraised : ensureBinding py args answers = .error (configurationError m) := by
      simp [ensureBinding, getBinding, hm, bind, Except.bind, Failure.BindingNotFound, configurationError]
    simp [hraised, h]
  have hget : ∀ a, getBinding py args a = a := by
    intro a
    rw [getBinding, hp]
    rfl
  simp only [h, true_imp_iff, Answers.Agree, ensureBinding, hget]
  cases answers.found with
  | ok existing =>
    by_cases htarget : existing.targetActionID = py.strip args.targetActionID <;> simp [htarget]
  | error e =>
    by_cases hmissing : e.BindingNotFound
    swap
    · simp [hmissing]
    rcases createBinding_cases hp answers.created with ⟨hc, hsent⟩ | ⟨hc, m, hm⟩
    · rw [hsent]
      cases answers.created with
      | ok b => simp [hmissing, hc]
      | error e' =>
        by_cases hconflict : e'.errorClass = .bindingConflict <;> simp [hmissing, hc, hconflict]
    · simp [hm, hmissing, hc, configurationError]

def refund : Arguments := ⟨"refund", List.replicate 64 'a', "t1", [("sum", "sum")], true⟩

def overtaken : Answers where
  found := .error ⟨.durable, "binding not found", some 404, some "binding_not_found"⟩
  created := .error ⟨.bindingConflict, "binding exists", some 409, some "binding_exists"⟩
  foundAgain := .ok ⟨"refund", refund.contractHash, "t2"⟩

theorem other_target_returned :
    ∃ b, ensureBinding ⟨Text.trimSpace, Text.toLower, id⟩ refund overtaken = .ok b ∧
      ¬ Requested ⟨Text.trimSpace, Text.toLower, id⟩ refund b :=
  ⟨⟨"refund", refund.contractHash, "t2"⟩, by decide +kernel⟩

end Overture.DurableBinding
