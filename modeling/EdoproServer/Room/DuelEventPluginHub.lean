import EdoproServer.Lib.Actions

namespace EdoproServer.DuelEvents
open Lib

/-! ## Plugins that observe the duels of a room -/

inductive DuelEventKind where
  | damage
  | recover
  | lpCost
  | turnStart
  deriving DecidableEq, Repr

/-- `handler` tells the handlers of a plugin apart. -/
structure Registration where
  pluginName : String
  kind : DuelEventKind
  handler : Nat
  deriving DecidableEq, Repr

structure QueuedEvent (ε : Type) where
  event : ε
  room : Nat
  handler : Nat
  deriving DecidableEq, Repr

inductive DisconnectReason where
  | queueOverflow
  | budgetExceeded
  deriving DecidableEq, Repr

/-- A failure may have no text: `String(error)` raises for an object without a prototype. -/
inductive HandlerResult where
  | returned
  | failed
  | failedWithoutText
  deriving DecidableEq, Repr

structure HubOptions where
  maxQueue : Nat := 1000
  budgetMs : Nat := 10
  maxViolations : Nat := 3
  deriving DecidableEq, Repr

/-- Where the drain loop is. When it is scheduled, it looks at the queue next. -/
inductive DrainLoop (ε : Type) where
  | stopped
  | scheduled
  | handling (item : QueuedEvent ε)
  | raised
  deriving DecidableEq, Repr

structure PluginDeliveryState (ε : Type) where
  queue : List (QueuedEvent ε)
  draining : Bool
  violations : Nat
  disconnected : Bool
  loop : DrainLoop ε
  deriving DecidableEq, Repr

/-- What passes between the dispatcher of a room, a plugin and the logger. -/
inductive Delivery (ε : Type) where
  | dispatched (item : QueuedEvent ε)
  | called (item : QueuedEvent ε)
  | settled
  | logged (item : QueuedEvent ε)
  | warned (elapsedNs violations : Nat)
  | disconnected (reason : DisconnectReason)
  deriving DecidableEq, Repr

/-- The delivery state of a plugin, and what it has seen of a room. -/
structure Line (ε : Type) where
  state : PluginDeliveryState ε
  trace : List (Delivery ε)
  deriving DecidableEq, Repr

variable {ε : Type}

def PluginDeliveryState.new : PluginDeliveryState ε :=
  { queue := [], draining := false, violations := 0, disconnected := false, loop := .stopped }

namespace Line

def note (delivery : Delivery ε) (line : Line ε) : Line ε :=
  { line with trace := line.trace ++ [delivery] }

@[simp] theorem note_state (delivery : Delivery ε) (line : Line ε) :
    (line.note delivery).state = line.state := rfl

def disconnect (reason : DisconnectReason) (line : Line ε) : Line ε :=
  { state := { line.state with disconnected := true, queue := [] },
    trace := line.trace ++ [.disconnected reason] }

/-- The drain loop is left to a microtask. -/
def enqueue (options : HubOptions) (item : QueuedEvent ε) (line : Line ε) : Line ε :=
  if line.state.disconnected then line
  else if line.state.queue.length ≥ options.maxQueue then line.disconnect .queueOverflow
  else
    let state := { line.state with queue := line.state.queue ++ [item] }
    if state.draining then { line with state := state }
    else { line with state := { state with draining := true, loop := .scheduled } }

/-- The subscription that the hub adds to the dispatcher. -/
def receive (options : HubOptions) (item : QueuedEvent ε) (line : Line ε) : Line ε :=
  (line.note (.dispatched item)).enqueue options item

/-- The loop looks at the queue, and calls the handler of the first event. -/
def next (line : Line ε) : Line ε :=
  match line.state.queue with
  | [] => { line with state := { line.state with draining := false, loop := .stopped } }
  | item :: queue =>
    if line.state.disconnected then
      { line with state := { line.state with draining := false, loop := .stopped } }
    else
      { state := { line.state with queue := queue, loop := .handling item },
        trace := line.trace ++ [.called item] }

/-- The microtask that `enqueue` has queued. -/
def drain (line : Line ε) : Line ε :=
  match line.state.loop with
  | .scheduled => line.next
  | _ => line

def checkBudget (options : HubOptions) (elapsedNs : Nat) (line : Line ε) : Line ε :=
  if elapsedNs > options.budgetMs * 1000000 then
    let violations := line.state.violations + 1
    let line := { line with state := { line.state with violations := violations } }
    let line := line.note (.warned elapsedNs violations)
    if violations ≥ options.maxViolations then line.disconnect .budgetExceeded else line
  else line

/-- The handler is done: its error is logged, and the loop goes on. The loop raises when the error
has no text. -/
def settle (options : HubOptions) (result : HandlerResult) (elapsedNs : Nat) (line : Line ε) :
    Line ε :=
  match line.state.loop with
  | .handling item =>
    let line := { line with state := { line.state with loop := .scheduled } }.note .settled
    match result with
    | .returned => (line.checkBudget options elapsedNs).next
    | .failed => ((line.note (.logged item)).checkBudget options elapsedNs).next
    | .failedWithoutText => { line with state := { line.state with loop := .raised } }
  | _ => line

end Line

/-! ## The hub -/

/-- A room state has a dispatcher of its own, to which the registered handlers are attached. -/
structure Attachment (ε : Type) where
  room : Nat
  registrations : List Registration
  states : String → PluginDeliveryState ε

/-- `trace` is what every plugin has seen of every room. -/
structure DuelEventPluginHub (ε : Type) where
  registrations : List Registration
  attachments : List (Attachment ε)
  trace : Nat → String → List (Delivery ε)

inductive HubAction (ε : Type) where
  | register (registration : Registration)
  | attach (room : Nat)
  | dispatch (i : Nat) (kind : DuelEventKind) (event : ε)
  | drain (i : Nat) (pluginName : String)
  | settle (i : Nat) (pluginName : String) (result : HandlerResult) (elapsedNs : Nat)
  deriving DecidableEq, Repr

namespace DuelEventPluginHub

def new : DuelEventPluginHub ε :=
  { registrations := [], attachments := [], trace := fun _ _ => [] }

def register (registration : Registration) (hub : DuelEventPluginHub ε) : DuelEventPluginHub ε :=
  { hub with registrations := hub.registrations ++ [registration] }

/-- The room enters a state: the state's dispatcher is new. -/
def attach (room : Nat) (hub : DuelEventPluginHub ε) : DuelEventPluginHub ε :=
  { hub with
    attachments := hub.attachments ++
      [{ room := room, registrations := hub.registrations, states := fun _ => .new }] }

/-- What is done to the delivery state of a plugin in an attachment. -/
def touch (i : Nat) (pluginName : String) (f : Line ε → Line ε) (hub : DuelEventPluginHub ε) :
    DuelEventPluginHub ε :=
  match hub.attachments[i]? with
  | none => hub
  | some a =>
    let line := f { state := a.states pluginName, trace := hub.trace a.room pluginName }
    { hub with
      attachments := hub.attachments.set i
        { a with states := Function.update a.states pluginName line.state }
      trace := Function.update hub.trace a.room
        (Function.update (hub.trace a.room) pluginName line.trace) }

/-- The subscriptions of a dispatcher for the kind, each with the event it queues. -/
def subscribed (i : Nat) (kind : DuelEventKind) (event : ε) (hub : DuelEventPluginHub ε) :
    List (String × QueuedEvent ε) :=
  match hub.attachments[i]? with
  | none => []
  | some a =>
    (a.registrations.filter (fun r => r.kind = kind)).map
      (fun r => (r.pluginName, { event := event, room := a.room, handler := r.handler }))

def dispatch (options : HubOptions) (i : Nat) (kind : DuelEventKind) (event : ε)
    (hub : DuelEventPluginHub ε) : DuelEventPluginHub ε :=
  (hub.subscribed i kind event).foldl
    (fun hub queued => hub.touch i queued.1 (.receive options queued.2)) hub

def perform (options : HubOptions) :
    HubAction ε → DuelEventPluginHub ε → DuelEventPluginHub ε
  | .register registration => register registration
  | .attach room => attach room
  | .dispatch i kind event => dispatch options i kind event
  | .drain i pluginName => touch i pluginName .drain
  | .settle i pluginName result elapsedNs => touch i pluginName (.settle options result elapsedNs)

/-- The other attachments of the attachment's room. -/
def siblings (i : Nat) (hub : DuelEventPluginHub ε) : List (Attachment ε) :=
  match hub.attachments[i]? with
  | none => []
  | some a => (hub.attachments.eraseIdx i).filter (fun b => b.room = a.room)

end DuelEventPluginHub

/-! ## In order, each once -/

section

variable {event : ε} {delivery : Delivery ε} {trace : List (Delivery ε)}

namespace Delivery

def dispatched? : Delivery ε → Option (QueuedEvent ε)
  | .dispatched item => some item
  | _ => none

def called? : Delivery ε → Option (QueuedEvent ε)
  | .called item => some item
  | _ => none

def isSettled : Delivery ε → Bool
  | .settled => true
  | _ => false

end Delivery

def dispatchedItems (trace : List (Delivery ε)) : List (QueuedEvent ε) :=
  trace.filterMap Delivery.dispatched?

def calledItems (trace : List (Delivery ε)) : List (QueuedEvent ε) :=
  trace.filterMap Delivery.called?

def settledCount (trace : List (Delivery ε)) : Nat := trace.countP Delivery.isSettled

/-- The calls of a plugin's handlers for a room: the first of the events dispatched to it, one call
after the other, and none after the plugin is disconnected. -/
structure InOrder (trace : List (Delivery ε)) : Prop where
  delivered : calledItems trace <+: dispatchedItems trace
  apart : ∀ before item after, trace = before ++ .called item :: after →
    (calledItems before).length = settledCount before
  silent : ∀ before reason after, trace = before ++ .disconnected reason :: after →
    calledItems after = []

/-- A drain loop is scheduled or running. -/
def PluginDeliveryState.Draining (state : PluginDeliveryState ε) : Prop :=
  state.loop = .scheduled ∨ ∃ item, state.loop = .handling item

/-- For the plugin and the room, in the state of the hub. -/
structure DuelEventPluginHub.Delivers (hub : DuelEventPluginHub ε) (room : Nat)
    (pluginName : String) : Prop where
  inOrder : InOrder (hub.trace room pluginName)
  awake : ∀ a ∈ hub.attachments, a.room = room → (a.states pluginName).disconnected = false →
    (a.states pluginName).queue ≠ [] → (a.states pluginName).Draining

theorem calledItems_concat (trace : List (Delivery ε)) (delivery : Delivery ε) :
    calledItems (trace ++ [delivery]) = calledItems trace ++ delivery.called?.toList := by
  rw [calledItems, calledItems, List.filterMap_append]
  cases delivery <;> rfl

theorem dispatchedItems_concat (trace : List (Delivery ε)) (delivery : Delivery ε) :
    dispatchedItems (trace ++ [delivery]) =
      dispatchedItems trace ++ delivery.dispatched?.toList := by
  rw [dispatchedItems, dispatchedItems, List.filterMap_append]
  cases delivery <;> rfl

theorem settledCount_concat (trace : List (Delivery ε)) (delivery : Delivery ε) :
    settledCount (trace ++ [delivery]) = settledCount trace + delivery.isSettled.toNat := by
  rw [settledCount, settledCount, List.countP_append]
  cases delivery <;> rfl

/-- An entry that is no call keeps the order. -/
theorem InOrder.concat (h : InOrder trace) (hcall : delivery.called? = none) :
    InOrder (trace ++ [delivery]) where
  delivered := by
    rw [calledItems_concat, dispatchedItems_concat, hcall, Option.toList_none, List.append_nil]
    exact h.delivered.trans (List.prefix_append _ _)
  apart := by
    intro before item after hsplit
    rcases split_concat hsplit with ⟨_, _, rfl⟩ | ⟨after', _, htrace⟩
    · cases hcall
    · exact h.apart before item after' htrace
  silent := by
    intro before reason after hsplit
    rcases split_concat hsplit with ⟨rfl, _, _⟩ | ⟨after', rfl, htrace⟩
    · rfl
    · rw [calledItems_concat, h.silent before reason after' htrace, hcall]
      rfl

/-- The next of the dispatched events is called while no other call is open. -/
theorem InOrder.call (h : InOrder trace) {item : QueuedEvent ε}
    (hnext : calledItems trace ++ [item] <+: dispatchedItems trace)
    (hsettled : (calledItems trace).length = settledCount trace)
    (hconnected : ∀ reason, .disconnected reason ∉ trace) :
    InOrder (trace ++ [.called item]) where
  delivered := by
    rw [calledItems_concat, dispatchedItems_concat]
    simpa [Delivery.called?, Delivery.dispatched?] using hnext
  apart := by
    intro before item' after hsplit
    rcases split_concat hsplit with ⟨_, rfl, _⟩ | ⟨after', _, htrace⟩
    · exact hsettled
    · exact h.apart before item' after' htrace
  silent := by
    intro before reason after hsplit
    rcases split_concat hsplit with ⟨rfl, _, _⟩ | ⟨after', _, htrace⟩
    · rfl
    · have hmem : .disconnected reason ∈ trace := by
        rw [htrace]
        simp
      exact absurd hmem (hconnected reason)

/-! ## One attachment -/

namespace PluginDeliveryState

/-- Nothing is queued or under way, and the plugin is connected. -/
def Resting (state : PluginDeliveryState ε) : Prop :=
  state.queue = [] ∧ state.draining = false ∧ state.loop = .stopped ∧ state.disconnected = false

instance [DecidableEq ε] (state : PluginDeliveryState ε) : Decidable state.Resting :=
  inferInstanceAs (Decidable (_ ∧ _ ∧ _ ∧ _))

def openCalls (state : PluginDeliveryState ε) : Nat :=
  match state.loop with
  | .handling _ => 1
  | _ => 0

end PluginDeliveryState

/-- The flag tells of the loop, what is queued has a loop, and what is not called yet is queued. -/
structure Line.Kept (line : Line ε) : Prop where
  draining : line.state.draining = true ↔ line.state.Draining
  queued : line.state.queue ≠ [] → line.state.draining = true
  cut : line.state.disconnected = true → line.state.queue = []
  calls : (calledItems line.trace).length = settledCount line.trace + line.state.openCalls
  connected : line.state.disconnected = false →
    (∀ reason, .disconnected reason ∉ line.trace) ∧
      dispatchedItems line.trace = calledItems line.trace ++ line.state.queue
  inOrder : InOrder line.trace

namespace Line

variable {options : HubOptions} {line : Line ε} {item : QueuedEvent ε}

theorem new_kept : Kept { state := .new, trace := ([] : List (Delivery ε)) } where
  draining := by simp [PluginDeliveryState.new, PluginDeliveryState.Draining]
  queued := fun h => absurd rfl h
  cut := fun _ => rfl
  calls := rfl
  connected := fun _ => ⟨fun _ => List.not_mem_nil, rfl⟩
  inOrder := by
    refine ⟨List.prefix_rfl, ?_, ?_⟩
    · intro before item after h
      simp at h
    · intro before reason after h
      simp at h

/-- An entry that neither dispatches, calls, settles nor disconnects. -/
theorem Kept.note (h : line.Kept) {delivery : Delivery ε}
    (hdispatched : delivery.dispatched? = none) (hcalled : delivery.called? = none)
    (hsettled : delivery.isSettled = false)
    (hconnected : ∀ reason, .disconnected reason ≠ delivery) : (line.note delivery).Kept where
  draining := h.draining
  queued := h.queued
  cut := h.cut
  calls := by
    have hcalls := h.calls
    simp only [Line.note, calledItems_concat, settledCount_concat, hcalled, hsettled,
      Option.toList_none, List.append_nil, Bool.toNat_false, Nat.add_zero]
    exact hcalls
  connected := by
    intro hstate
    obtain ⟨hreason, hitems⟩ := h.connected hstate
    refine ⟨?_, ?_⟩
    · intro reason hmem
      rcases List.mem_append.mp hmem with hmem | hmem
      · exact hreason reason hmem
      · exact hconnected reason (List.mem_singleton.mp hmem)
    · simp only [Line.note, calledItems_concat, dispatchedItems_concat, hcalled, hdispatched,
        Option.toList_none, List.append_nil]
      exact hitems
  inOrder := h.inOrder.concat hcalled

theorem disconnect_kept {reason : DisconnectReason}
    (hdraining : line.state.draining = true ↔ line.state.Draining)
    (hcalls : (calledItems line.trace).length = settledCount line.trace + line.state.openCalls)
    (hinOrder : InOrder line.trace) : (line.disconnect reason).Kept where
  draining := hdraining
  queued := fun h => absurd rfl h
  cut := fun _ => rfl
  calls := by
    simp only [disconnect, calledItems_concat, settledCount_concat, Delivery.called?,
      Delivery.isSettled, Option.toList_none, List.append_nil, Bool.toNat_false, Nat.add_zero]
    exact hcalls
  connected := by
    intro h
    cases h
  inOrder := hinOrder.concat rfl

theorem receive_kept (h : line.Kept) (item : QueuedEvent ε) : (line.receive options item).Kept := by
  have hnoted : InOrder (line.trace ++ [.dispatched item]) := h.inOrder.concat rfl
  have hcalls : (calledItems (line.trace ++ [.dispatched item])).length =
      settledCount (line.trace ++ [.dispatched item]) + line.state.openCalls := by
    rw [calledItems_concat, settledCount_concat]
    simpa [Delivery.called?, Delivery.isSettled] using h.calls
  unfold receive enqueue
  split
  · -- The event is dropped.
    rename_i hdisconnected
    refine ⟨h.draining, h.queued, h.cut, hcalls, ?_, hnoted⟩
    intro hstate
    rw [hdisconnected] at hstate
    cases hstate
  · rename_i hdisconnected
    split
    · exact disconnect_kept h.draining hcalls hnoted
    · have hconnected : line.state.disconnected = false → (∀ reason,
          .disconnected reason ∉ line.trace ++ [.dispatched item]) ∧
            dispatchedItems (line.trace ++ [.dispatched item]) =
              calledItems (line.trace ++ [.dispatched item]) ++ (line.state.queue ++ [item]) := by
        intro hstate
        obtain ⟨hreason, hitems⟩ := h.connected hstate
        refine ⟨?_, ?_⟩
        · intro reason
          simpa using hreason reason
        · rw [calledItems_concat, dispatchedItems_concat, hitems]
          simp [Delivery.called?, Delivery.dispatched?]
      have hcut : line.state.disconnected = true → line.state.queue ++ [item] = [] :=
        fun hstate => absurd hstate hdisconnected
      dsimp only
      split
      · rename_i hdraining
        exact ⟨h.draining, fun _ => hdraining, hcut, hcalls, hconnected, hnoted⟩
      · rename_i hdraining
        have hstopped : line.state.openCalls = 0 := by
          have hloop := mt h.draining.mpr hdraining
          unfold PluginDeliveryState.openCalls
          split
          · rename_i item' hhandling
            exact absurd (.inr ⟨item', hhandling⟩) hloop
          · rfl
        rw [hstopped] at hcalls
        exact ⟨⟨fun _ => .inl rfl, fun _ => rfl⟩, fun _ => rfl, hcut, hcalls, hconnected, hnoted⟩

/-- The loop has no call open when it looks at the queue. -/
theorem next_kept (h : line.Kept) (hloop : line.state.loop = .scheduled) : line.next.Kept := by
  have hopen : line.state.openCalls = 0 := by
    unfold PluginDeliveryState.openCalls
    rw [hloop]
  have hcalls := h.calls
  rw [hopen] at hcalls
  have hstop : line.state.queue = [] → Kept
      { line with state := { line.state with draining := false, loop := .stopped } } := by
    intro hqueue
    refine ⟨?_, fun hne => absurd hqueue hne, h.cut, hcalls, h.connected, h.inOrder⟩
    simp [PluginDeliveryState.Draining]
  unfold next
  split
  · rename_i hqueue
    exact hstop hqueue
  · rename_i item queue hqueue
    have hdraining : line.state.draining = true := h.queued (by simp [hqueue])
    by_cases hdisconnected : line.state.disconnected = true
    · have hnil := h.cut hdisconnected
      simp [hqueue] at hnil
    · have hfalse : line.state.disconnected = false := by simpa using hdisconnected
      obtain ⟨hreason, hitems⟩ := h.connected hfalse
      rw [hqueue] at hitems
      rw [if_neg hdisconnected]
      refine ⟨⟨fun _ => .inr ⟨item, rfl⟩, fun _ => hdraining⟩, fun _ => hdraining,
        fun hstate => absurd hstate hdisconnected, ?_, fun _ => ⟨?_, ?_⟩, ?_⟩
      · rw [calledItems_concat, settledCount_concat, List.length_append, hcalls]
        rfl
      · intro reason
        simpa using hreason reason
      · rw [calledItems_concat, dispatchedItems_concat, hitems]
        simp [Delivery.called?, Delivery.dispatched?]
      · refine h.inOrder.call ⟨queue, ?_⟩ hcalls hreason
        rw [hitems]
        simp

theorem drain_kept (h : line.Kept) : line.drain.Kept := by
  unfold drain
  split
  · rename_i hloop
    exact next_kept h hloop
  · exact h

theorem checkBudget_kept (h : line.Kept) (elapsedNs : Nat) :
    (line.checkBudget options elapsedNs).Kept := by
  unfold checkBudget
  split
  · have hviolations : Kept
        { line with state := { line.state with violations := line.state.violations + 1 } } :=
      ⟨h.draining, h.queued, h.cut, h.calls, h.connected, h.inOrder⟩
    have hwarned : Kept (Line.note (.warned elapsedNs (line.state.violations + 1))
        { line with state := { line.state with violations := line.state.violations + 1 } }) :=
      hviolations.note rfl rfl rfl (by simp)
    dsimp only
    split
    · exact disconnect_kept hwarned.draining hwarned.calls hwarned.inOrder
    · exact hwarned
  · exact h

theorem checkBudget_loop (line : Line ε) (elapsedNs : Nat) :
    (line.checkBudget options elapsedNs).state.loop = line.state.loop := by
  unfold checkBudget
  dsimp only
  split
  · split <;> rfl
  · rfl

theorem settle_kept (h : line.Kept) {result : HandlerResult} (hresult : result ≠ .failedWithoutText)
    (elapsedNs : Nat) : (line.settle options result elapsedNs).Kept := by
  unfold settle
  split
  · rename_i item hloop
    have hdraining : line.state.draining = true := h.draining.mpr (.inr ⟨item, hloop⟩)
    have hopen : line.state.openCalls = 1 := by
      unfold PluginDeliveryState.openCalls
      rw [hloop]
    have hsettled : Kept
        ({ line with state := { line.state with loop := .scheduled } }.note .settled) := by
      refine ⟨⟨fun _ => .inl rfl, fun _ => hdraining⟩, h.queued, h.cut, ?_, ?_,
        h.inOrder.concat rfl⟩
      · have hcalls := h.calls
        rw [hopen] at hcalls
        rw [Line.note, calledItems_concat, settledCount_concat]
        simpa [Delivery.called?, Delivery.isSettled, PluginDeliveryState.openCalls] using hcalls
      · intro hstate
        obtain ⟨hreason, hitems⟩ := h.connected hstate
        refine ⟨?_, ?_⟩
        · intro reason
          simpa [Line.note] using hreason reason
        · rw [Line.note, calledItems_concat, dispatchedItems_concat]
          simpa [Delivery.called?, Delivery.dispatched?] using hitems
    cases result with
    | returned => exact next_kept (checkBudget_kept hsettled _) (checkBudget_loop _ _)
    | failed =>
      have hlogged : Kept (Line.note (.logged item) (Line.note .settled
          { line with state := { line.state with loop := .scheduled } })) :=
        hsettled.note rfl rfl rfl (by simp)
      exact next_kept (checkBudget_kept hlogged _) (checkBudget_loop _ _)
    | failedWithoutText => exact absurd rfl hresult
  · exact h

/-- At rest, one attachment can take over from another. -/
theorem Kept.of_resting {state state' : PluginDeliveryState ε} {trace : List (Delivery ε)}
    (h : Kept { state := state, trace := trace }) (hrest : state.Resting)
    (hrest' : state'.Resting) : Kept { state := state', trace := trace } where
  draining := by
    obtain ⟨_, hdraining, hloop, _⟩ := hrest'
    simp [PluginDeliveryState.Draining, hdraining, hloop]
  queued := fun hne => absurd hrest'.1 hne
  cut := fun _ => hrest'.1
  calls := by
    have hopen : ∀ s : PluginDeliveryState ε, s.Resting → s.openCalls = 0 := by
      intro s hs
      unfold PluginDeliveryState.openCalls
      rw [hs.2.2.1]
    have hcalls := h.calls
    rw [hopen state hrest] at hcalls
    rw [hopen state' hrest']
    exact hcalls
  connected := by
    intro _
    obtain ⟨hreason, hitems⟩ := h.connected hrest.2.2.2
    refine ⟨hreason, ?_⟩
    rw [hrest.1] at hitems
    rw [hrest'.1]
    exact hitems
  inOrder := h.inOrder

end Line

/-! ## The attachments of a room -/

/-- The delivery states at the attachments of a room, none at those of the others. -/
abbrev View (ε : Type) := List (Option (PluginDeliveryState ε))

namespace View

def OthersRest (view : View ε) (i : Nat) : Prop :=
  ∀ j ≠ i, ∀ state : PluginDeliveryState ε, view[j]? = some (some state) → state.Resting

def AllRest (view : View ε) : Prop :=
  ∀ state : PluginDeliveryState ε, some state ∈ view → state.Resting

/-- At most one attachment is under way or disconnected, and the trace is its own. -/
def Kept (view : View ε) (trace : List (Delivery ε)) : Prop :=
  ∃ state, Line.Kept { state := state, trace := trace } ∧
    (state.Resting ∧ view.AllRest ∨
      ∃ i, view[i]? = some (some state) ∧ view.OthersRest i)

variable {view : View ε} {i : Nat} {state : PluginDeliveryState ε}

theorem Kept.at (h : view.Kept trace) (hi : view[i]? = some (some state))
    (hrest : view.OthersRest i ∨ ¬state.Resting) :
    Line.Kept { state := state, trace := trace } ∧ view.OthersRest i := by
  obtain ⟨state', hkept, ⟨hrest', hall⟩ | ⟨k, hk, hothers⟩⟩ := h
  · have hstate := hall state (List.mem_of_getElem? hi)
    exact ⟨hkept.of_resting hrest' hstate, fun j _ t ht => hall t (List.mem_of_getElem? ht)⟩
  · by_cases hik : i = k
    · subst hik
      rw [hi, Option.some_inj, Option.some_inj] at hk
      subst hk
      exact ⟨hkept, hothers⟩
    · have hstate := hothers i hik state hi
      rcases hrest with hrest | hrest
      · exact ⟨hkept.of_resting (hrest k (Ne.symm hik) state' hk) hstate, hrest⟩
      · exact absurd hstate hrest

theorem OthersRest.set (h : view.OthersRest i) (entry : Option (PluginDeliveryState ε)) :
    OthersRest (view.set i entry) i := by
  intro j hj state hstate
  rw [List.getElem?_set_ne (Ne.symm hj)] at hstate
  exact h j hj state hstate

theorem Kept.of_line {line : Line ε} (h : line.Kept) (hi : i < view.length)
    (hothers : view.OthersRest i) : Kept (view.set i (some line.state)) line.trace := by
  refine ⟨line.state, h, .inr ⟨i, ?_, hothers.set _⟩⟩
  rw [List.getElem?_set_self hi]

theorem Kept.awake (h : view.Kept trace) (hstate : some state ∈ view) (hqueue : state.queue ≠ []) :
    state.Draining := by
  obtain ⟨i, hi⟩ := List.mem_iff_getElem?.mp hstate
  have hbusy : ¬state.Resting := fun hrest => hqueue hrest.1
  obtain ⟨hkept, _⟩ := h.at hi (.inr hbusy)
  exact hkept.draining.mp (hkept.queued hqueue)

end View

namespace DuelEventPluginHub

variable {hub : DuelEventPluginHub ε} {i room : Nat} {pluginName name : String}
  {f : Line ε → Line ε} {a : Attachment ε}

def view (hub : DuelEventPluginHub ε) (room : Nat) (pluginName : String) : View ε :=
  hub.attachments.map (fun a => if a.room = room then some (a.states pluginName) else none)

/-- The line of a plugin at an attachment. -/
def line (hub : DuelEventPluginHub ε) (a : Attachment ε) (pluginName : String) : Line ε :=
  { state := a.states pluginName, trace := hub.trace a.room pluginName }

theorem view_getElem? (pluginName : String) (ha : hub.attachments[i]? = some a) :
    (hub.view a.room pluginName)[i]? = some (some (a.states pluginName)) := by
  rw [view, List.getElem?_map, ha]
  simp

theorem touch_self (pluginName : String) (ha : hub.attachments[i]? = some a) :
    (hub.touch i pluginName f).view a.room pluginName =
        (hub.view a.room pluginName).set i (some (f (hub.line a pluginName)).state) ∧
      (hub.touch i pluginName f).trace a.room pluginName = (f (hub.line a pluginName)).trace := by
  constructor
  · simp only [touch, ha, view, List.map_set, if_pos, Function.update_self]
    rfl
  · simp only [touch, ha, Function.update_self]
    rfl

/-- Nothing else is touched. -/
theorem touch_other (ha : hub.attachments[i]? = some a) (h : ¬(a.room = room ∧ name = pluginName)) :
    (hub.touch i name f).view room pluginName = hub.view room pluginName ∧
      (hub.touch i name f).trace room pluginName = hub.trace room pluginName := by
  constructor
  · have hsame : (if a.room = room then
        some (Function.update a.states name (f (hub.line a name)).state pluginName) else none) =
        if a.room = room then some (a.states pluginName) else none := by
      by_cases hroom : a.room = room
      · have hname : pluginName ≠ name := fun hname => h ⟨hroom, hname.symm⟩
        rw [Function.update_of_ne hname]
      · rw [if_neg hroom, if_neg hroom]
    have hset : (hub.touch i name f).view room pluginName =
        (hub.view room pluginName).set i (if a.room = room then
          some (Function.update a.states name (f (hub.line a name)).state pluginName)
          else none) := by
      simp only [touch, ha, view, List.map_set]
      rfl
    rw [hset, hsame, view, ← List.map_set]
    congr 1
    obtain ⟨hlt, rfl⟩ := List.getElem?_eq_some_iff.mp ha
    exact List.set_getElem_self hlt
  · simp only [touch, ha]
    by_cases hroom : a.room = room
    · have hname : pluginName ≠ name := fun hname => h ⟨hroom, hname.symm⟩
      subst hroom
      rw [Function.update_self, Function.update_of_ne hname]
    · rw [Function.update_of_ne (Ne.symm hroom)]

theorem view_length : (hub.view room pluginName).length = hub.attachments.length := by
  rw [view, List.length_map]

/-- What is done to a line keeps it, and it disturbs no other attachment of the room. -/
theorem touch_kept (h : (hub.view room pluginName).Kept (hub.trace room pluginName))
    (hf : ∀ line : Line ε, line.Kept → (f line).Kept)
    (hrest : ∀ a, hub.attachments[i]? = some a → a.room = room → name = pluginName →
      (hub.view room pluginName).OthersRest i ∨ ¬(a.states name).Resting ∨
        f (hub.line a name) = hub.line a name) :
    ((hub.touch i name f).view room pluginName).Kept
      ((hub.touch i name f).trace room pluginName) := by
  cases ha : hub.attachments[i]? with
  | none =>
    have hsame : hub.touch i name f = hub := by
      simp only [touch, ha]
    rw [hsame]
    exact h
  | some a =>
    by_cases hself : a.room = room ∧ name = pluginName
    · obtain ⟨rfl, rfl⟩ := hself
      have hview := view_getElem? name ha
      obtain ⟨htouchView, htouchTrace⟩ := touch_self name (f := f) ha
      rw [htouchView, htouchTrace]
      have hmoved : (hub.view a.room name).OthersRest i ∨ ¬(a.states name).Resting →
          View.Kept ((hub.view a.room name).set i (some (f (hub.line a name)).state))
            (f (hub.line a name)).trace := by
        intro hrest
        obtain ⟨hkept, hothers⟩ := h.at hview hrest
        have hlt : i < (hub.view a.room name).length := by
          rw [view_length]
          exact (List.getElem?_eq_some_iff.mp ha).1
        exact View.Kept.of_line (hf _ hkept) hlt hothers
      rcases hrest a ha rfl rfl with hrest | hrest | hsame
      · exact hmoved (.inl hrest)
      · exact hmoved (.inr hrest)
      · have hset : (hub.view a.room name).set i (some (hub.line a name).state) =
            hub.view a.room name := by
          obtain ⟨hlt, hget⟩ := List.getElem?_eq_some_iff.mp hview
          rw [line, ← hget]
          exact List.set_getElem_self hlt
        rw [hsame, hset]
        exact h
    · obtain ⟨htouchView, htouchTrace⟩ := touch_other (f := f) ha hself
      rw [htouchView, htouchTrace]
      exact h

/-- What does nothing when no loop is under way disturbs no one. -/
theorem loop_kept (h : (hub.view room pluginName).Kept (hub.trace room pluginName))
    (hf : ∀ line : Line ε, line.Kept → (f line).Kept)
    (hstopped : ∀ line : Line ε, line.state.loop = .stopped → f line = line) :
    ((hub.touch i name f).view room pluginName).Kept
      ((hub.touch i name f).trace room pluginName) := by
  apply touch_kept h hf
  intro a ha _ _
  by_cases hrest : (a.states name).Resting
  · exact .inr (.inr (hstopped _ hrest.2.2.1))
  · exact .inr (.inl hrest)

theorem touch_room {b : Attachment ε} (hb : (hub.touch i name f).attachments[i]? = some b) :
    ∃ a, hub.attachments[i]? = some a ∧ b.room = a.room := by
  cases ha : hub.attachments[i]? with
  | none => simp [touch, ha] at hb
  | some a =>
    have hlt := (List.getElem?_eq_some_iff.mp ha).1
    simp only [touch, ha, List.getElem?_set_self hlt, Option.some_inj] at hb
    exact ⟨a, rfl, by rw [← hb]⟩

theorem touch_othersRest (h : (hub.view room pluginName).OthersRest i) :
    ((hub.touch i name f).view room pluginName).OthersRest i := by
  cases ha : hub.attachments[i]? with
  | none =>
    have hsame : hub.touch i name f = hub := by
      simp only [touch, ha]
    rw [hsame]
    exact h
  | some a =>
    by_cases hself : a.room = room ∧ name = pluginName
    · obtain ⟨rfl, rfl⟩ := hself
      rw [(touch_self name ha).1]
      exact h.set _
    · rw [(touch_other ha hself).1]
      exact h

theorem receive_all_kept {options : HubOptions} (l : List (String × QueuedEvent ε))
    (h : (hub.view room pluginName).Kept (hub.trace room pluginName))
    (hrest : ∀ queued ∈ l, ∀ a, hub.attachments[i]? = some a → a.room = room →
      queued.1 = pluginName → (hub.view room pluginName).OthersRest i) :
    ((l.foldl (fun hub queued => hub.touch i queued.1 (.receive options queued.2)) hub).view room
      pluginName).Kept
      ((l.foldl (fun hub queued => hub.touch i queued.1 (.receive options queued.2)) hub).trace room
        pluginName) := by
  induction l generalizing hub with
  | nil => exact h
  | cons queued l ih =>
    rw [List.foldl_cons]
    apply ih
    · apply touch_kept h (fun line hline => Line.receive_kept hline queued.2)
      intro a ha hroom hname
      exact .inl (hrest queued List.mem_cons_self a ha hroom hname)
    · intro queued' hqueued' b hb hroom hname
      obtain ⟨a, ha, hsame⟩ := touch_room hb
      apply touch_othersRest
      exact hrest queued' (List.mem_cons_of_mem _ hqueued') a ha (hsame ▸ hroom) hname

theorem siblings_othersRest (ha : hub.attachments[i]? = some a)
    (h : ∀ b ∈ hub.siblings i, (b.states pluginName).Resting) :
    (hub.view a.room pluginName).OthersRest i := by
  intro j hj state hstate
  rw [view, List.getElem?_map, Option.map_eq_some_iff] at hstate
  obtain ⟨b, hb, hstate⟩ := hstate
  by_cases hroom : b.room = a.room
  · rw [if_pos hroom, Option.some_inj] at hstate
    rw [← hstate]
    apply h
    simp only [siblings, ha, List.mem_filter, List.mem_eraseIdx_iff_getElem?, decide_eq_true_eq]
    exact ⟨⟨j, hj, hb⟩, hroom⟩
  · rw [if_neg hroom] at hstate
    cases hstate

/-- An event of a room comes to a plugin through one attachment while the plugin is at rest in the
others, and every failure has a text. -/
def Orderly (hub : DuelEventPluginHub ε) : HubAction ε → Prop
  | .dispatch i kind event => ∀ queued ∈ hub.subscribed i kind event, ∀ b ∈ hub.siblings i,
      (b.states queued.1).Resting
  | .settle _ _ result _ => result ≠ .failedWithoutText
  | _ => True

theorem attach_kept (h : (hub.view room pluginName).Kept (hub.trace room pluginName)) (r : Nat) :
    ((hub.attach r).view room pluginName).Kept ((hub.attach r).trace room pluginName) := by
  have hview : (hub.attach r).view room pluginName =
      hub.view room pluginName ++ [if r = room then some .new else none] := by
    simp [attach, view]
  have hnew : ∀ state : PluginDeliveryState ε,
      (if r = room then some .new else none) = some state → state.Resting := by
    intro state hstate
    by_cases hroom : r = room
    · rw [if_pos hroom, Option.some_inj] at hstate
      rw [← hstate]
      exact ⟨rfl, rfl, rfl, rfl⟩
    · rw [if_neg hroom] at hstate
      cases hstate
  obtain ⟨state, hkept, ⟨hrest, hall⟩ | ⟨i, hi, hothers⟩⟩ := h
  · refine ⟨state, hkept, .inl ⟨hrest, ?_⟩⟩
    intro state' hstate'
    rw [hview] at hstate'
    rcases List.mem_append.mp hstate' with hstate' | hstate'
    · exact hall state' hstate'
    · exact hnew state' (List.mem_singleton.mp hstate').symm
  · refine ⟨state, hkept, .inr ⟨i, ?_, ?_⟩⟩
    · rw [hview, List.getElem?_append_left (List.getElem?_eq_some_iff.mp hi).1]
      exact hi
    · intro j hj state' hstate'
      rw [hview] at hstate'
      by_cases hlt : j < (hub.view room pluginName).length
      · rw [List.getElem?_append_left hlt] at hstate'
        exact hothers j hj state' hstate'
      · rw [List.getElem?_append_right (Nat.le_of_not_lt hlt)] at hstate'
        have hmem := List.mem_of_getElem? hstate'
        exact hnew state' (List.mem_singleton.mp hmem).symm

theorem perform_kept {options : HubOptions} {action : HubAction ε} (hok : hub.Orderly action)
    (h : (hub.view room pluginName).Kept (hub.trace room pluginName)) :
    ((perform options action hub).view room pluginName).Kept
      ((perform options action hub).trace room pluginName) := by
  cases action with
  | register registration => exact h
  | attach r => exact attach_kept h r
  | dispatch i kind event =>
    apply receive_all_kept _ h
    intro queued hqueued a ha hroom hname
    subst hroom hname
    exact siblings_othersRest ha (hok queued hqueued)
  | drain i name =>
    apply loop_kept h (fun line hline => Line.drain_kept hline)
    intro line hloop
    simp only [Line.drain, hloop]
  | settle i name result elapsedNs =>
    apply loop_kept h (fun line hline => Line.settle_kept hline hok elapsedNs)
    intro line hloop
    simp only [Line.settle, hloop]

/-- If every event of a room finds its plugins at rest in the room's other attachments, and every
failure has a text, then the events are delivered in order, one at a time, none after the plugin is
disconnected, and what is queued has a drain loop. -/
theorem delivers_of_orderly (options : HubOptions) (actions : List (HubAction ε))
    (h : Allows (perform options) Orderly .new actions) (room : Nat) (pluginName : String) :
    (performAll (perform options) .new actions).Delivers room pluginName := by
  have hkept : ((performAll (perform options) .new actions).view room pluginName).Kept
      ((performAll (perform options) .new actions).trace room pluginName) := by
    refine h.preserves (P := fun hub => (hub.view room pluginName).Kept (hub.trace room pluginName))
      (fun hub action hhub hok => perform_kept hok hhub) ?_
    refine ⟨.new, Line.new_kept, .inl ⟨⟨rfl, rfl, rfl, rfl⟩, ?_⟩⟩
    intro state hstate
    cases hstate
  constructor
  · obtain ⟨state, hline, _⟩ := hkept
    exact hline.inOrder
  · intro a ha hroom _ hqueue
    apply hkept.awake _ hqueue
    rw [view, List.mem_map]
    exact ⟨a, ha, if_pos hroom⟩

instance [DecidableEq ε] (hub : DuelEventPluginHub ε) : ∀ action, Decidable (hub.Orderly action)
  | .register _ => inferInstanceAs (Decidable True)
  | .attach _ => inferInstanceAs (Decidable True)
  | .dispatch i kind event => inferInstanceAs (Decidable (∀ queued ∈ hub.subscribed i kind event,
      ∀ b ∈ hub.siblings i, (b.states queued.1).Resting))
  | .drain _ _ => inferInstanceAs (Decidable True)
  | .settle _ _ result _ => inferInstanceAs (Decidable (result ≠ .failedWithoutText))

/-- Two duels of a match. A call fails, and the handler is done before the second duel. -/
def twoDuels : List (HubAction Nat) :=
  [.register { pluginName := "stats", kind := .damage, handler := 0 }, .attach 7,
    .dispatch 0 .damage 100, .dispatch 0 .damage 200, .drain 0 "stats",
    .settle 0 "stats" .failed 4000, .settle 0 "stats" .returned 20000000, .attach 7,
    .dispatch 1 .damage 300, .drain 1 "stats"]

theorem twoDuels_delivered :
    (performAll (perform {}) .new twoDuels).Delivers 7 "stats" :=
  delivers_of_orderly {} twoDuels (by decide) 7 "stats"

/-- Three calls over the budget, and then a second duel. -/
def slowPlugin : List (HubAction Nat) :=
  [.register { pluginName := "stats", kind := .damage, handler := 0 }, .attach 7,
    .dispatch 0 .damage 100, .dispatch 0 .damage 200, .dispatch 0 .damage 300, .drain 0 "stats",
    .settle 0 "stats" .returned 20000000, .settle 0 "stats" .returned 20000000,
    .settle 0 "stats" .returned 20000000, .attach 7, .dispatch 1 .damage 400, .drain 1 "stats"]

/-- An event is queued while the handler runs, which then throws an object without a prototype. -/
def textlessFailure : List (HubAction Nat) :=
  [.register { pluginName := "stats", kind := .damage, handler := 0 }, .attach 7,
    .dispatch 0 .damage 100, .drain 0 "stats", .dispatch 0 .damage 200,
    .settle 0 "stats" .failedWithoutText 4000]

/-- The plugin is called after it was disconnected from the room, and an event can be left queued
without a drain loop. -/
theorem slowPlugin_called_again :
    ¬(performAll (perform {}) .new slowPlugin).Delivers 7 "stats" ∧
      ¬(performAll (perform {}) .new textlessFailure).Delivers 7 "stats" := by
  constructor
  · intro h
    have hsilent := h.inOrder.silent
      ((performAll (perform {}) .new slowPlugin).trace 7 "stats" |>.take 12) .budgetExceeded
      ((performAll (perform {}) .new slowPlugin).trace 7 "stats" |>.drop 13) (by decide)
    exact absurd hsilent (by decide)
  · intro h
    have hawake := h.awake _ (List.mem_of_getElem? (i := 0) rfl) rfl rfl (by decide)
    rcases hawake with hloop | ⟨item, hloop⟩
    · cases hloop
    · cases hloop

end DuelEventPluginHub

end

end EdoproServer.DuelEvents
