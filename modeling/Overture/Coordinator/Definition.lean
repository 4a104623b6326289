import Overture.Lib.Json.Compact
import Overture.Coordinator.Policy

/-!
# Task definitions of the public interface

`normalizePublicTaskDefinition` and the validators behind it. They read exact keys of maps
of raw messages, the last assignment of a key counting. Each error of the source has a
constructor of its own.
-/

namespace Overture

open Json

inductive DefinitionError where
  | notObject
  | required (field : String)
  | mustBeString (field : String)
  | mustBeNonEmpty (field : String)
  | mustBeArray (field : String)
  | mustBeNumber (field : String)
  | mustBePositiveInteger (field : String)
  | mustBeBoolean (field : String)
  | streamUnsupported
  | noElements (what noun : String)
  | elementNotObject (what : String) (idx : Nat)
  | element (what : String) (idx : Nat) (e : DefinitionError)
  | within (what : String) (e : DefinitionError)
  | mustBeObject (field : String)
  | readSlotsNotStrings
  | emptyReadSlot
  | unsupportedAction (action : Text)
  | unsupportedKind (kind : Text)
  | unsupportedTaskType (taskType : Text)
  | effectClassUnknown (effectClass : Text)

abbrev Checked (α : Type) := Except DefinitionError α

abbrev RawMap := Option (List (Text × Option Value))

def RawMap.field (m : RawMap) (name : String) : Option Value := (lookup m name.toList).join

def readStringField (m : RawMap) (name : String) : Checked Text :=
  match m.field name with
  | none => .error (.required name)
  | some v => if (Decoder.text v []).2 then .ok (Decoder.text v []).1 else .error (.mustBeString name)

def requireStringField (m : RawMap) (name : String) : Checked Unit := do
  let value ← readStringField m name
  if value.isEmpty then .error (.mustBeNonEmpty name) else .ok ()

def rawElements (v : Value) : Option (List Value) :=
  let out := Decoder.slice none Decoder.raw v Slice.empty
  if out.2 then some (out.1.toList.filterMap id) else none

def requireArrayField (m : RawMap) (name : String) : Checked (List Value) :=
  match m.field name with
  | none => .error (.required name)
  | some v =>
    match rawElements v with
    | none => .error (.mustBeArray name)
    | some values => .ok values

/-- A `json.Number` is read from a number, or from a string that spells one. -/
def numberLiteral : Value → Option Text
  | .num lit => some lit
  | .str raw => if scanNumber (unquote raw) == some (unquote raw, []) then some (unquote raw) else none
  | .null => some []
  | _ => none

def requireNumericField (m : RawMap) (name : String) : Checked Unit :=
  match m.field name with
  | none => .error (.required name)
  | some v =>
    if (numberLiteral v).any fun lit => !lit.isEmpty && (Float64.parse lit).isSome then .ok ()
    else .error (.mustBeNumber name)

def validateOptionalPositiveUint32Field (m : RawMap) (name : String) : Checked Unit :=
  match m.field name with
  | none => .ok ()
  | some v =>
    let out := Decoder.uint 64 v 0
    if out.2 && 0 < out.1 && out.1 < 2 ^ 32 then .ok () else .error (.mustBePositiveInteger name)

def validateOptionalBoolField (m : RawMap) (name : String) : Checked Unit :=
  match m.field name with
  | none => .ok ()
  | some v => if (Decoder.bool v false).2 then .ok () else .error (.mustBeBoolean name)

def checkElements (what : String) (check : RawMap → Checked Unit) : Nat → List Value → Checked Unit
  | _, [] => .ok ()
  | idx, v :: rest =>
    match rawMembers v with
    | none => .error (.elementNotObject what idx)
    | some m =>
      match check m with
      | .error e => .error (.element what idx e)
      | .ok () => checkElements what check (idx + 1) rest

def validateRoboticsActionPayload (step : RawMap) : Checked Unit := do
  let action ← readStringField step "action"
  if action == "navigate_to_pose" then
    match step.field "goal" with
    | none => .error (.required "goal")
    | some rawGoal =>
      match rawMembers rawGoal with
      | none => .error (.mustBeObject "goal")
      | some goal => do
        requireNumericField goal "x"
        requireNumericField goal "y"
  else if action == "publish_prompt" then requireStringField step "prompt"
  else if action == "publish_velocity" then do
    requireNumericField step "linear_x"
    requireNumericField step "angular_z"
  else if action == "get_navigation_status" || action == "cancel_navigation" ||
      action == "publish_zero_velocity" then .ok ()
  else .error (.unsupportedAction action)

def validateRoboticsStep (step : RawMap) : Checked Unit := do
  requireNumericField step "step_index"
  validateRoboticsActionPayload step

def validateExecutionGraphSlotFields (node : RawMap) : Checked Unit := do
  match node.field "write_slot" with
  | none => pure ()
  | some v =>
    let out := Decoder.text v []
    if out.2 && !out.1.isEmpty then pure () else .error (.mustBeNonEmpty "write_slot")
  match node.field "read_slots" with
  | none => pure ()
  | some v =>
    let out := Decoder.slice [] Decoder.text v Slice.empty
    if !out.2 then .error .readSlotsNotStrings
    else if out.1.toList.any List.isEmpty then .error .emptyReadSlot
    else pure ()

def validateEffectClassField (node : RawMap) : Checked Unit :=
  match node.field "effect_class" with
  | none => .ok ()
  | some v =>
    let out := Decoder.text v []
    let ec := Text.toLower (Text.trimSpace out.1)
    if !out.2 then .error (.mustBeString "effect_class")
    else if ec == "idempotent" || ec == "irreversible" || ec == "retryable" then .ok ()
    else .error (.effectClassUnknown ec)

def validateNodeKind (kind : Text) (node : RawMap) : Checked Unit :=
  if kind == "reason" then do
    requireStringField node "model"
    discard (requireArrayField node "messages")
  else if kind == "robotics" then validateRoboticsActionPayload node
  else if kind == "tool" then requireStringField node "tool_name"
  else if kind == "behavior_tree" then
    if (node.field "tree").isSome then .ok () else .error (.required "tree")
  else if kind == "human_approval" then requireStringField node "task"
  else if kind == "memory_recall" then requireStringField node "query"
  else if kind == "memory_store" then requireStringField node "content"
  else .error (.unsupportedKind kind)

def validateExecutionGraphNode (node : RawMap) : Checked Unit := do
  requireStringField node "node_id"
  validateExecutionGraphSlotFields node
  let kind ← readStringField node "kind"
  validateNodeKind kind node
  validateEffectClassField node

def graphNodesField (definition : RawMap) : Checked (List Value) :=
  match definition.field "graph" with
  | none => .error (.required "execution_graph.graph")
  | some rawGraph =>
    match rawMembers rawGraph with
    | none => .error (.mustBeObject "execution_graph.graph")
    | some graph =>
      match requireArrayField graph "nodes" with
      | .error e => .error (.within "execution_graph" e)
      | .ok nodes => if nodes.isEmpty then .error (.noElements "execution_graph.graph.nodes" "node") else .ok nodes

def validateExecutionGraph (definition : RawMap) : Checked Unit := do
  let nodes ← graphNodesField definition
  checkElements "execution_graph.graph.nodes" validateExecutionGraphNode 0 nodes

def validateSteps (what : String) (check : RawMap → Checked Unit) (steps : List Value) : Checked Unit :=
  if steps.isEmpty then .error (.noElements what "step") else checkElements what check 0 steps

def validateTaskDefinition (taskType : Text) (definition : RawMap) : Checked Unit :=
  if taskType == "single_inference" then do
    requireStringField definition "model"
    discard (requireArrayField definition "messages")
    match definition.field "stream" with
    | none => .ok ()
    | some v =>
      let out := Decoder.bool v false
      if !out.2 then .error (.mustBeBoolean "stream")
      else if out.1 then .error .streamUnsupported
      else .ok ()
  else if taskType == "agent_workflow" then do
    let steps ← requireArrayField definition "steps"
    validateOptionalPositiveUint32Field definition "checkpoint_after_steps"
    validateSteps "agent_workflow.steps" (fun step => do
      requireNumericField step "step_index"
      requireStringField step "model"
      discard (requireArrayField step "messages")) steps
  else if taskType == "robotics_workflow" then do
    let steps ← requireArrayField definition "steps"
    validateSteps "robotics_workflow.steps" (fun step => do
      -- the source checks the index here and again in the step's own validator
      requireNumericField step "step_index"
      validateRoboticsStep step) steps
  else if taskType == "behavior_tree" then
    if (definition.field "tree").isSome then .ok () else .error (.required "behavior_tree.tree")
  else if taskType == "execution_graph" then do
    validateOptionalPositiveUint32Field definition "checkpoint_after_steps"
    validateOptionalBoolField definition "continue_after_checkpoint"
    validateExecutionGraph definition
  else .error (.unsupportedTaskType taskType)

def normalizePublicTaskDefinition (taskType raw : Text) : Checked Text :=
  match (parse raw).bind rawMembers with
  | none => .error .notObject
  | some definition =>
    match validateTaskDefinition taskType definition with
    | .error e => .error e
    | .ok () =>
      let assignments := (definition.getD []).filterMap fun e => e.2.map fun v => (e.1, v)
      .ok (marshalRawMap (assignments ++ [("type".toList, .str (quote taskType))])).print

end Overture
