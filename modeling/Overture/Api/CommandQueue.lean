import Overture.Api.RuntimeRegistry
import Overture.Lib.Json.Decoded
import Overture.Lib.Sha256
import Overture.Lib.Utf8
import Overture.Lib.Uuid

/-!
# The command queue of a runtime

Operators append commands to the queue of a runtime; the runtime fetches the queue with a delivery key for each command
and acknowledges keys, which takes the commands out. An operator may clear the queue, which starts a new generation. An
acknowledgement is one transaction that locks the row; all other writes are single statements.
-/

namespace Overture.CommandQueue

open Json List
open Registry (Outcome)

abbrev Command := AnyMap

inductive Order where
  | lifecycle (action : Text)
  | publish (topic messageType : Text) (payload : Any)
  | broadcast (command : Text) (payload : Any)
  | configPush (config selector : Any) (queuedAt : Text)
  | update (version strategy : Text) (maxUnavailable selector : Any) (queuedAt : Text)

def Order.command (id : Uuid) : Order → Command
  | lifecycle action =>
    AnyMap.ofEntries [("command_id", .str id.toText), ("type", .str "ros_lifecycle"),
      ("action", .str action)]
  | publish topic messageType payload =>
    AnyMap.ofEntries [("command_id", .str id.toText), ("type", .str "ros_publish"),
      ("topic", .str topic), ("message_type", .str messageType), ("payload", payload)]
  | broadcast command payload =>
    AnyMap.ofEntries [("command_id", .str id.toText), ("type", .str command),
      ("payload", payload)]
  | configPush config selector queuedAt =>
    AnyMap.ofEntries [("command_id", .str id.toText), ("type", .str "config_push"),
      ("config", config), ("selector", selector), ("queued_at", .str queuedAt)]
  | update version strategy maxUnavailable selector queuedAt =>
    AnyMap.ofEntries [("command_id", .str id.toText), ("type", .str "ota_update"),
      ("version", .str version), ("strategy", .str strategy),
      ("max_unavailable", maxUnavailable), ("selector", selector),
      ("queued_at", .str queuedAt)]

def contentKey (command : Command) : Option Text :=
  (Any.obj command).toValue.map fun v => Hex.encode (Sha256.sum256 (Utf8.encode v.print))

def runtimeCommandDeliveryKey (command : Command) : Option Text :=
  match command.get? "command_id" with
  | some (.str id) => if (Text.trimSpace id).isEmpty then contentKey command else some id
  | _ => contentKey command

def decoratePendingCommandsForDelivery (commands : List Command) : Option (List Command) :=
  commands.mapM fun command => (runtimeCommandDeliveryKey command).map fun key =>
    AnyMap.ofEntries (command.toList ++ [("delivery_key".toList, .str key)])

theorem get?_command_id (id : Uuid) (order : Order) :
    (order.command id).get? "command_id" = some (.str id.toText) := by
  cases order <;> rfl

theorem trimSpace_toText_ne_nil (id : Uuid) : Text.trimSpace id.toText ≠ [] := by
  intro hnil
  have hdash : '-' ∈ id.toText := by simp [Uuid.toText]
  rw [Text.trimSpace, reverse_eq_nil_iff, dropWhile_eq_nil_iff] at hnil
  have hall : ∀ c ∈ id.toText.dropWhile Text.isSpace, Text.isSpace c = true := fun c hc => hnil c (by simpa using hc)
  cases hdrop : id.toText.dropWhile Text.isSpace with
  | nil =>
    have hspace := dropWhile_eq_nil_iff.mp hdrop '-' hdash
    revert hspace
    decide
  | cons c rest =>
    have hhead := head?_dropWhile_not Text.isSpace id.toText
    rw [hdrop] at hhead hall
    simp [hall c mem_cons_self] at hhead

theorem deliveryKey_command (id : Uuid) (order : Order) :
    runtimeCommandDeliveryKey (order.command id) = some id.toText := by
  rw [runtimeCommandDeliveryKey, get?_command_id]
  simp [trimSpace_toText_ne_nil]

structure Ack where
  deliveryKeys : List Text
  expectedClearGeneration : UInt64

def Ack.ackSet (req : Ack) : List Text := (req.deliveryKeys.map Text.trimSpace).filter fun key => !key.isEmpty

def Ack.keeps (req : Ack) (command : Command) : Bool :=
  match runtimeCommandDeliveryKey command with
  | none => true
  | some key => !req.ackSet.contains key

def Ack.expected (req : Ack) : Int :=
  if req.expectedClearGeneration.toNat < 2 ^ 63 then req.expectedClearGeneration.toNat
  else req.expectedClearGeneration.toNat - 2 ^ 64

inductive Event where
  | enqueued (command : Command)
  | cleared
  | delivered (commands : List Command) (clearGeneration : Nat)
  | answered (req : Ack) (ownershipGranted : Bool)

/-- An acknowledgement that holds the lock of the row: what it read, and what it wrote but did not commit. -/
structure Transaction where
  req : Ack
  read : List Command
  written : Option (List Command)

structure State where
  pending : List Command
  clearGeneration : Nat
  transaction : Option Transaction
  log : List Event

def State.initial : State := ⟨[], 0, none, []⟩

inductive Step where
  | enqueue (order : Order) (id : Uuid) (outcome : Outcome)
  | clear (outcome : Outcome)
  | deliver
  | ackSelect (req : Ack)
  | ackUpdate (outcome : Outcome)
  | ackCommit (outcome : Outcome)

/-- One statement on the row. A statement that writes waits while a transaction holds the lock; an operator's
write that is lost takes effect although an error is reported. -/
def State.step (s : State) : Step → Option State
  | .enqueue order id outcome =>
    if s.transaction.isSome then none
    else if outcome = .failed then some s
    else some { s with pending := s.pending ++ [order.command id], log := s.log ++ [.enqueued (order.command id)] }
  | .clear outcome =>
    if s.transaction.isSome then none
    else if outcome = .failed ∨ 2 ^ 63 ≤ s.clearGeneration + 1 then some s
    else some { s with pending := [], clearGeneration := s.clearGeneration + 1, log := s.log ++ [.cleared] }
  | .deliver =>
    if (decoratePendingCommandsForDelivery s.pending).isNone then some s
    else some { s with log := s.log ++ [.delivered s.pending s.clearGeneration] }
  | .ackSelect req =>
    if s.transaction.isSome then none
    else if (s.clearGeneration : Int) ≠ req.expected then some { s with log := s.log ++ [.answered req false] }
    else some { s with transaction := some ⟨req, s.pending, none⟩ }
  | .ackUpdate outcome =>
    match s.transaction with
    | some ⟨req, read, none⟩ =>
      if outcome = .done then some { s with transaction := some ⟨req, read, some (read.filter req.keeps)⟩ }
      else some { s with transaction := none }
    | _ => none
  | .ackCommit outcome =>
    match s.transaction with
    | some ⟨req, _, some written⟩ =>
      if outcome = .failed then some { s with transaction := none, log := s.log ++ [.answered req false] }
      else some { s with
        pending := written
        transaction := none
        log := s.log ++ [.answered req (outcome == .done)] }
    | _ => none

def Step.Fresh (s : State) : Step → Prop
  | .enqueue _ id _ => ∀ command, Event.enqueued command ∈ s.log → runtimeCommandDeliveryKey command ≠ some id.toText
  | _ => True

inductive Reachable : State → Prop
  | initial : Reachable .initial
  | step {s s' : State} (st : Step) : Reachable s → st.Fresh s → s.step st = some s' → Reachable s'

def enqueuedIn (log : List Event) : List Command :=
  log.filterMap fun
    | .enqueued command => some command
    | _ => none

def clearsIn (log : List Event) : Nat :=
  log.countP fun
    | .cleared => true
    | _ => false

variable {s s' : State} {st : Step} {log : List Event} {command : Command}

inductive Change (s : State) : Step → State → Prop
  | none {st : Step} : Change s st s
  | enqueued {order : Order} {id : Uuid} {outcome : Outcome} (hnone : s.transaction = none) :
    Change s (.enqueue order id outcome)
      { s with pending := s.pending ++ [order.command id], log := s.log ++ [.enqueued (order.command id)] }
  | cleared {outcome : Outcome} (hnone : s.transaction = none) : Change s (.clear outcome)
      { s with pending := [], clearGeneration := s.clearGeneration + 1, log := s.log ++ [.cleared] }
  | delivered : Change s .deliver { s with log := s.log ++ [.delivered s.pending s.clearGeneration] }
  | refused {st : Step} (req : Ack) : Change s st { s with transaction := none, log := s.log ++ [.answered req false] }
  | selected {st : Step} {req : Ack} (hgeneration : (s.clearGeneration : Int) = req.expected) :
    Change s st { s with transaction := some ⟨req, s.pending, .none⟩ }
  | updated {st : Step} {req : Ack} {read : List Command} (hopen : s.transaction = some ⟨req, read, .none⟩) :
    Change s st { s with transaction := some ⟨req, read, some (read.filter req.keeps)⟩ }
  | aborted {st : Step} : Change s st { s with transaction := none }
  | committed {outcome : Outcome} {req : Ack} {read written : List Command} (granted : Bool)
      (hopen : s.transaction = some ⟨req, read, some written⟩) : Change s (.ackCommit outcome)
      { s with pending := written, transaction := none, log := s.log ++ [.answered req granted] }

theorem State.step_change (h : s.step st = some s') : Change s st s' := by
  cases st with
  | enqueue order id outcome =>
    rw [step] at h
    split_ifs at h with hlocked hfailed <;> cases h
    · exact .none
    · exact .enqueued (by simpa using hlocked)
  | clear outcome =>
    rw [step] at h
    split_ifs at h with hlocked hfailed <;> cases h
    · exact .none
    · exact .cleared (by simpa using hlocked)
  | deliver =>
    rw [step] at h
    split_ifs at h with hfailed <;> cases h
    · exact .none
    · exact .delivered
  | ackSelect req =>
    rw [step] at h
    split_ifs at h with hlocked hmismatch <;> cases h
    · have hnone : s.transaction = none := by simpa using hlocked
      have hrefused : Change s (.ackSelect req) { s with transaction := none, log := s.log ++ [.answered req false] } :=
        .refused req
      rwa [← hnone] at hrefused
    · exact .selected (by simpa using hmismatch)
  | ackUpdate outcome =>
    rw [step] at h
    split at h
    · next hopen =>
      split_ifs at h with hdone <;> cases h
      · exact .updated hopen
      · exact .aborted
    · cases h
  | ackCommit outcome =>
    rw [step] at h
    split at h
    · next hopen =>
      split_ifs at h with hfailed <;> cases h
      · exact .refused _
      · exact .committed _ hopen
    · cases h

@[simp] theorem enqueuedIn_append (log log' : List Event) :
    enqueuedIn (log ++ log') = enqueuedIn log ++ enqueuedIn log' := by
  simp [enqueuedIn]

@[simp] theorem clearsIn_append (log log' : List Event) :
    clearsIn (log ++ log') = clearsIn log + clearsIn log' := by
  simp [clearsIn]

theorem mem_enqueuedIn :
    command ∈ enqueuedIn log ↔ Event.enqueued command ∈ log := by
  rw [enqueuedIn, mem_filterMap]
  constructor
  · rintro ⟨event, hmem, hsome⟩
    cases event with
    | enqueued c =>
      cases hsome
      exact hmem
    | _ => cases hsome
  · intro hmem
    exact ⟨_, hmem, rfl⟩

theorem clearsIn_pos (h : Event.cleared ∈ log) : 0 < clearsIn log :=
  countP_pos_iff.mpr ⟨_, h, rfl⟩

theorem append_eq_split {before after : List Event} {event delivery : Event}
    (h : log ++ [event] = before ++ delivery :: after) :
    (after = [] ∧ before = log ∧ delivery = event) ∨
      ∃ after', after = after' ++ [event] ∧ log = before ++ delivery :: after' := by
  rcases eq_nil_or_concat after with rfl | ⟨after', last, rfl⟩
  · obtain ⟨hlog, hevent⟩ := append_inj' h rfl
    exact .inl ⟨rfl, hlog.symm, (cons.inj hevent).1.symm⟩
  rw [concat_eq_append] at h ⊢
  rw [← cons_append, ← append_assoc] at h
  obtain ⟨hlog, hevent⟩ := append_inj' h rfl
  exact .inr ⟨after', by rw [(cons.inj hevent).1], hlog⟩

/-- A delivery held commands enqueued before it, and the clears since lead from its generation to the present one. -/
def Traced (s : State) : Prop :=
  ∀ before commands generation after, s.log = before ++ .delivered commands generation :: after →
    commands.Sublist (enqueuedIn before) ∧ generation + clearsIn after = s.clearGeneration

structure Sound (s : State) : Prop where
  keys : ((enqueuedIn s.log).map runtimeCommandDeliveryKey).Nodup
  ordered : s.pending.Sublist (enqueuedIn s.log)
  traced : Traced s
  transaction : ∀ tx, s.transaction = some tx → tx.read = s.pending ∧ (s.clearGeneration : Int) = tx.req.expected ∧
    ∀ written, tx.written = some written → written = tx.read.filter tx.req.keeps

theorem Traced.log_append {event : Event} (h : Traced s) (s' : State) (hlog : s'.log = s.log ++ [event])
    (hgeneration : s'.clearGeneration = s.clearGeneration + clearsIn [event])
    (hdelivered : ∀ commands generation, event = .delivered commands generation →
      commands.Sublist (enqueuedIn s.log) ∧ generation = s.clearGeneration) : Traced s' := by
  intro before commands generation after hsplit
  rw [hlog] at hsplit
  rcases append_eq_split hsplit with ⟨rfl, rfl, rfl⟩ | ⟨after', rfl, hold⟩
  · obtain ⟨hsub, hsame⟩ := hdelivered commands generation rfl
    refine ⟨hsub, ?_⟩
    rw [hgeneration, hsame]
    rfl
  obtain ⟨hsub, hcount⟩ := h before commands generation after' hold
  refine ⟨hsub, ?_⟩
  rw [clearsIn_append, hgeneration]
  omega

theorem Sound.initial : Sound .initial where
  keys := nodup_nil
  ordered := List.Sublist.refl _
  traced := by
    intro before commands generation after hlog
    simp [State.initial] at hlog
  transaction := by
    exact nofun

theorem Sound.step (hsound : Sound s) (hfresh : st.Fresh s) (h : s.step st = some s') :
    Sound s' := by
  cases State.step_change h with
  | none => exact hsound
  | @enqueued order id outcome hnone =>
    constructor
    · simp only [enqueuedIn_append, map_append]
      rw [nodup_append]
      refine ⟨hsound.keys, by simp [enqueuedIn], ?_⟩
      rintro key hkey key' hkey' rfl
      obtain ⟨command, hmem, hcommand⟩ := mem_map.mp hkey
      have hid : key = some id.toText := by
        simpa [enqueuedIn, deliveryKey_command] using hkey'
      exact hfresh command (mem_enqueuedIn.mp hmem) (hcommand.trans hid)
    · simp only [enqueuedIn_append]
      exact hsound.ordered.append (List.Sublist.refl _)
    · exact hsound.traced.log_append _ rfl rfl nofun
    · intro tx htx
      rw [hnone] at htx
      cases htx
  | cleared hnone =>
    constructor
    · simpa [enqueuedIn] using hsound.keys
    · exact nil_sublist _
    · exact hsound.traced.log_append _ rfl rfl nofun
    · intro tx htx
      rw [hnone] at htx
      cases htx
  | delivered =>
    constructor
    · simpa [enqueuedIn] using hsound.keys
    · simpa [enqueuedIn] using hsound.ordered
    · refine hsound.traced.log_append _ rfl rfl ?_
      rintro _ _ ⟨⟩
      exact ⟨hsound.ordered, rfl⟩
    · exact hsound.transaction
  | refused req =>
    constructor
    · simpa [enqueuedIn] using hsound.keys
    · simpa [enqueuedIn] using hsound.ordered
    · exact hsound.traced.log_append _ rfl rfl nofun
    · exact nofun
  | selected hgeneration =>
    refine ⟨hsound.keys, hsound.ordered, hsound.traced, ?_⟩
    rintro tx ⟨⟩
    exact ⟨rfl, hgeneration, nofun⟩
  | updated hopen =>
    refine ⟨hsound.keys, hsound.ordered, hsound.traced, ?_⟩
    rintro tx ⟨⟩
    obtain ⟨hread, hgeneration, -⟩ := hsound.transaction _ hopen
    refine ⟨hread, hgeneration, ?_⟩
    rintro written ⟨⟩
    rfl
  | aborted => exact ⟨hsound.keys, hsound.ordered, hsound.traced, nofun⟩
  | committed granted hopen =>
    obtain ⟨hread, hgeneration, hwritten⟩ := hsound.transaction _ hopen
    constructor
    · simpa [enqueuedIn] using hsound.keys
    · rw [hwritten _ rfl, hread]
      simpa [enqueuedIn] using filter_sublist.trans hsound.ordered
    · exact hsound.traced.log_append _ rfl rfl nofun
    · exact nofun

theorem Reachable.sound (h : Reachable s) : Sound s := by
  induction h with
  | initial => exact Sound.initial
  | step st _ hfresh hstep ih => exact ih.step hfresh hstep

def Ack.Answers (req : Ack) (commands : List Command) (clearGeneration : Nat) : Prop :=
  req.expectedClearGeneration.toNat = clearGeneration ∧
    ∀ key ∈ req.ackSet, ∃ command ∈ commands, runtimeCommandDeliveryKey command = some key

theorem Ack.generation_eq {req : Ack} {generation : Nat} (h : (generation : Int) = req.expected) :
    req.expectedClearGeneration.toNat = generation := by
  have hlt : req.expectedClearGeneration.toNat < 2 ^ 64 := req.expectedClearGeneration.toNat_lt
  rw [Ack.expected] at h
  split at h <;> omega

theorem Sound.nodup (h : Sound s) : s.pending.Nodup := (h.ordered.nodup (List.Nodup.of_map _ h.keys))

theorem Sound.left (hsound : Sound s) (h : s.step st = some s')
    (hmem : command ∈ s.pending) (hleft : command ∉ s'.pending) :
    (∃ outcome, st = .clear outcome) ∨ ∃ tx outcome key, st = .ackCommit outcome ∧ s.transaction = some tx ∧
      runtimeCommandDeliveryKey command = some key ∧ key ∈ tx.req.ackSet ∧
      tx.req.expectedClearGeneration.toNat = s.clearGeneration := by
  cases State.step_change h with
  | enqueued => exact absurd (mem_append_left _ hmem) hleft
  | cleared => exact .inl ⟨_, rfl⟩
  | @committed outcome req read written granted hopen =>
    obtain ⟨hread, hgeneration, hwritten⟩ := hsound.transaction _ hopen
    have hdropped : req.keeps command = false := by
      by_contra hkeeps
      apply hleft
      change command ∈ written
      rw [hwritten written rfl, mem_filter]
      exact ⟨hread ▸ hmem, by simpa using hkeeps⟩
    rw [Ack.keeps] at hdropped
    split at hdropped
    · cases hdropped
    next key hkey =>
    exact .inr ⟨_, outcome, key, rfl, hopen, hkey, by simpa using hdropped, Ack.generation_eq hgeneration⟩
  | _ => exact absurd hmem hleft

theorem Sound.not_enqueued_after (hsound : Sound s) {before after : List Event} {commands : List Command}
    {generation : Nat} (hlog : s.log = before ++ .delivered commands generation :: after) {delivered : Command}
    (hdelivered : delivered ∈ commands)
    (hkey : runtimeCommandDeliveryKey delivered = runtimeCommandDeliveryKey command) :
    Event.enqueued command ∉ after := by
  intro hafter
  have hbefore : delivered ∈ enqueuedIn before := (hsound.traced _ _ _ _ hlog).1.subset hdelivered
  have hkeys := hsound.keys
  rw [hlog, enqueuedIn_append, map_append, nodup_append] at hkeys
  refine hkeys.2.2 _ (mem_map_of_mem hbefore) _ (mem_map_of_mem ?_) hkey
  exact mem_enqueuedIn.mpr (mem_cons_of_mem _ hafter)

theorem Sound.order_kept (hsound : Sound s) (h : s.step st = some s') :
    ∃ kept added, s'.pending = kept ++ added ∧ kept.Sublist s.pending ∧
      ∀ command ∈ added, ∃ order id outcome, st = .enqueue order id outcome ∧ command = order.command id := by
  cases State.step_change h with
  | @enqueued order id outcome =>
    exact ⟨s.pending, [order.command id], rfl, List.Sublist.refl _, fun command hmem =>
      ⟨order, id, outcome, rfl, mem_singleton.mp hmem⟩⟩
  | cleared => exact ⟨[], [], rfl, nil_sublist _, nofun⟩
  | @committed outcome req read written granted hopen =>
    obtain ⟨hread, -, hwritten⟩ := hsound.transaction _ hopen
    refine ⟨written, [], (append_nil _).symm, ?_, nofun⟩
    rw [hwritten written rfl, ← hread]
    exact filter_sublist
  | _ => exact ⟨s.pending, [], (append_nil _).symm, List.Sublist.refl _, nofun⟩

theorem Sound.granted (hsound : Sound s) (h : s.step st = some s') {req : Ack}
    (hlog : s'.log = s.log ++ [.answered req true]) : req.expectedClearGeneration.toNat = s.clearGeneration := by
  have hlonger : ∀ log : List Event, log ≠ log ++ [.answered req true] := by
    intro log heq
    simpa using congrArg length heq
  cases State.step_change h with
  | none | selected | updated | aborted => exact absurd hlog (hlonger _)
  | enqueued | cleared | delivered | refused => simp at hlog
  | committed granted hopen =>
    obtain ⟨-, hgeneration, -⟩ := hsound.transaction _ hopen
    simp only [append_cancel_left_eq, cons.injEq, Event.answered.injEq, and_true] at hlog
    rw [← hlog.1]
    exact Ack.generation_eq hgeneration

theorem queue_keeps_commands {s s' : State} {st : Step} (hreach : Reachable s) (hstep : s.step st = some s') :
    s.pending.Nodup ∧
    (∀ command ∈ s.pending, command ∉ s'.pending →
      (∃ outcome, st = .clear outcome) ∨ ∃ tx outcome key, st = .ackCommit outcome ∧ s.transaction = some tx ∧
        runtimeCommandDeliveryKey command = some key ∧ key ∈ tx.req.ackSet ∧
        tx.req.expectedClearGeneration.toNat = s.clearGeneration) ∧
    (∃ kept added, s'.pending = kept ++ added ∧ kept.Sublist s.pending ∧
      ∀ command ∈ added, ∃ order id outcome, st = .enqueue order id outcome ∧ command = order.command id) ∧
    (∀ before commands generation after tx outcome, s.log = before ++ .delivered commands generation :: after →
      st = .ackCommit outcome → s.transaction = some tx → tx.req.Answers commands generation →
      ∀ command ∈ s.pending, command ∉ s'.pending → Event.enqueued command ∉ after) ∧
    (∀ before commands generation after req, s.log = before ++ .delivered commands generation :: after →
      req.Answers commands generation → s'.log = s.log ++ [.answered req true] → Event.cleared ∉ after) := by
  have hsound := hreach.sound
  refine ⟨hsound.nodup, fun command => hsound.left hstep, hsound.order_kept hstep, ?_, ?_⟩
  · rintro before commands generation after tx outcome hlog rfl htx ⟨-, hkeys⟩ command hmem hleft
    rcases hsound.left hstep hmem hleft with ⟨_, hclear⟩ | ⟨tx', _, key, -, htx', hkey, hlisted, -⟩
    · cases hclear
    rw [htx] at htx'
    cases htx'
    obtain ⟨delivered, hdelivered, hsame⟩ := hkeys key hlisted
    exact hsound.not_enqueued_after hlog hdelivered (hsame.trans hkey.symm)
  rintro before commands generation after req hlog ⟨hsame, -⟩ hgranted hcleared
  have hnow := hsound.granted hstep hgranted
  have hcount := (hsound.traced _ _ _ _ hlog).2
  have hpos := clearsIn_pos hcleared
  omega

def Step.isFresh (s : State) : Step → Bool
  | .enqueue _ id _ => (enqueuedIn s.log).all fun command => runtimeCommandDeliveryKey command != some id.toText
  | _ => true

theorem Step.fresh_of_isFresh (h : st.isFresh s = true) : st.Fresh s := by
  cases st with
  | enqueue order id outcome =>
    intro command hmem
    simpa using all_eq_true.mp h command (mem_enqueuedIn.mpr hmem)
  | _ => trivial

def State.run (s : State) : List Step → Option State
  | [] => some s
  | st :: rest => if st.isFresh s then (s.step st).bind fun s' => s'.run rest else none

theorem Reachable.of_run {steps : List Step} (hs : Reachable s) (h : s.run steps = some s') :
    Reachable s' := by
  induction steps generalizing s with
  | nil => exact Option.some.inj h ▸ hs
  | cons st rest ih =>
    rw [State.run] at h
    split at h
    · next hfresh =>
      obtain ⟨next, hstep, hrest⟩ := Option.bind_eq_some_iff.mp h
      exact ih (hs.step st (Step.fresh_of_isFresh hfresh) hstep) hrest
    · cases h

def acknowledging : Option State :=
  State.initial.run
    [.enqueue (.lifecycle "reset") 1 .done, .deliver, .enqueue (.lifecycle "reset") 2 .done,
      .ackSelect ⟨[Uuid.toText 1], 0⟩, .ackUpdate .done]

theorem delivered_command_acknowledged :
    ∃ s s', Reachable s ∧ s.step (.ackCommit .done) = some s' ∧ s.pending.Nodup ∧ s.pending.length = 2 ∧
      s'.pending.length = 1 := by
  have hlengths : acknowledging.any (fun s => s.pending.length == 2 &&
      (s.step (.ackCommit .done)).any fun s' => s'.pending.length == 1) = true := by decide +kernel
  cases hs : acknowledging with
  | none => simp [hs] at hlengths
  | some s =>
    cases hs' : s.step (.ackCommit .done) with
    | none => simp [hs, hs'] at hlengths
    | some s' =>
      have hreach : Reachable s := .of_run .initial hs
      simp only [hs, hs', Option.any_some, Bool.and_eq_true, beq_iff_eq] at hlengths
      exact ⟨s, s', hreach, hs', (queue_keeps_commands hreach hs').1, hlengths⟩

end Overture.CommandQueue
