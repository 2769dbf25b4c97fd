import Mathlib.Data.List.Basic
import Mathlib.Logic.Function.Iterate

namespace EdoproServer.Edopro

/-! ## The channel to the core process -/

/-- A CoreIntegrator process that was spawned. -/
abbrev CoreProcess := Nat

/-- What was asked for and what was written while one process was attached. -/
structure Attachment where
  core : Option CoreProcess
  sent : List String
  written : List (CoreProcess × String)
  deriving DecidableEq, Repr

/-- `drainListeners` are the registered once-listeners, `past` the attachments that ended. -/
structure CoreChannel extends Attachment where
  pending : List String
  isWaitingDrain : Bool
  drainListeners : List CoreProcess
  commandsWritten : Nat
  past : List Attachment
  deriving DecidableEq, Repr

inductive ChannelEvent where
  | attach (core : CoreProcess)
  | send (message : String)
  | drain (core : CoreProcess)
  deriving DecidableEq, Repr

def Attachment.lines (attachment : Attachment) : List String := attachment.written.map Prod.snd

namespace CoreChannel

def new (core : Option CoreProcess) : CoreChannel :=
  { core := core, sent := [], written := [], pending := [], isWaitingDrain := false,
    drainListeners := [], commandsWritten := 0, past := [] }

section

-- What the write that follows `n` others returns.
variable (accepts : Nat → Bool)

/-- Writes the queue up to the first line that asks to wait for "drain". -/
def writePending (core : CoreProcess) : List String → CoreChannel → CoreChannel
  | [], channel => { channel with pending := [] }
  | message :: rest, channel =>
    let writeSuccess := accepts channel.commandsWritten
    let channel :=
      { channel with
        pending := rest, written := channel.written ++ [(core, message)],
        commandsWritten := channel.commandsWritten + 1 }
    if writeSuccess then writePending core rest channel
    else
      { channel with
        isWaitingDrain := true, drainListeners := channel.drainListeners ++ [core] }

def flush (channel : CoreChannel) : CoreChannel :=
  if channel.isWaitingDrain then channel
  else
    match channel.core with
    | none => { channel with pending := [] }
    | some core => writePending accepts core channel.pending channel

def attach (core : CoreProcess) (channel : CoreChannel) : CoreChannel :=
  { channel with
    core := some core, sent := [], written := [], pending := [], isWaitingDrain := false,
    past := channel.past ++ [channel.toAttachment] }

def send (message : String) (channel : CoreChannel) : CoreChannel :=
  flush accepts
    { channel with
      pending := channel.pending ++ [message ++ "\n"], sent := channel.sent ++ [message ++ "\n"] }

/-- A drain of a core that was replaced does not end the wait of the new one. -/
def onDrain (core : CoreProcess) (channel : CoreChannel) : CoreChannel :=
  if channel.core ≠ some core then channel
  else flush accepts { channel with isWaitingDrain := false }

/-- Every listener of the process is called once. Those that are added meanwhile wait. -/
def drain (core : CoreProcess) (channel : CoreChannel) : CoreChannel :=
  (onDrain accepts core)^[channel.drainListeners.count core]
    { channel with drainListeners := channel.drainListeners.filter (· ≠ core) }

def step (channel : CoreChannel) : ChannelEvent → CoreChannel
  | .attach core => channel.attach core
  | .send message => channel.send accepts message
  | .drain core => channel.drain accepts core

def run (channel : CoreChannel) (events : List ChannelEvent) : CoreChannel :=
  events.foldl (step accepts) channel

end

/-! ## In order, each once -/

variable {accepts : Nat → Bool} {channel : CoreChannel}

/-- What was written to its process, and only to it, are the first of the lines it was sent. -/
structure InOrder (attachment : Attachment) : Prop where
  lines : attachment.lines <+: attachment.sent
  addressed : ∀ w ∈ attachment.written, attachment.core = some w.1

/-- What is not written to the attached process yet waits, in order. -/
structure Queued (channel : CoreChannel) : Prop where
  attached : channel.core.isSome = true → channel.lines ++ channel.pending = channel.sent
  detached : channel.core = none → channel.written = []
  addressed : ∀ w ∈ channel.written, channel.core = some w.1
  past : ∀ attachment ∈ channel.past, InOrder attachment

/-- A queue waits for a drain, and its process will call back. -/
structure Awaited (channel : CoreChannel) : Prop where
  queue : channel.pending ≠ [] → channel.isWaitingDrain = true
  listens : channel.isWaitingDrain = true →
    ∃ core ∈ channel.drainListeners, channel.core = some core

theorem Queued.inOrder (h : Queued channel) : InOrder channel.toAttachment where
  lines := by
    cases hcore : channel.core with
    | none =>
      rw [Attachment.lines, h.detached hcore]
      exact List.nil_prefix
    | some core =>
      have hsent := h.attached (by simp [hcore])
      exact ⟨channel.pending, hsent⟩
  addressed := h.addressed

theorem writePending_queued {core : CoreProcess} {lines : List String}
    (h : Queued { channel with pending := lines }) (hcore : channel.core = some core) :
    Queued (writePending accepts core lines channel) := by
  induction lines generalizing channel with
  | nil => exact h
  | cons message rest ih =>
    have hnext : Queued { channel with
        pending := rest, written := channel.written ++ [(core, message)],
        commandsWritten := channel.commandsWritten + 1 } := by
      refine ⟨?_, ?_, ?_, h.past⟩
      · intro hsome
        have hsent := h.attached hsome
        simpa [Attachment.lines] using hsent
      · intro hnone
        simp [hcore] at hnone
      · intro w hw
        rcases List.mem_append.mp hw with hw | hw
        · exact h.addressed w hw
        · rw [List.mem_singleton.mp hw]
          exact hcore
    unfold writePending
    dsimp only
    split
    · exact ih hnext hcore
    · exact ⟨hnext.attached, hnext.detached, hnext.addressed, hnext.past⟩

theorem writePending_awaited {core : CoreProcess} {lines : List String}
    (hcore : channel.core = some core) (hwaits : channel.isWaitingDrain = false) :
    Awaited (writePending accepts core lines channel) := by
  induction lines generalizing channel with
  | nil =>
    refine ⟨fun h => absurd rfl h, ?_⟩
    intro h
    rw [writePending, hwaits] at h
    cases h
  | cons message rest ih =>
    unfold writePending
    dsimp only
    split
    · exact ih hcore hwaits
    · refine ⟨fun _ => rfl, fun _ => ⟨core, ?_, hcore⟩⟩
      simp

theorem Queued.flush (h : Queued channel) : Queued (flush accepts channel) := by
  unfold CoreChannel.flush
  split
  · exact h
  · cases hcore : channel.core with
    | none =>
      refine ⟨?_, h.detached, h.addressed, h.past⟩
      intro hsome
      simp [hcore] at hsome
    | some core => exact writePending_queued h hcore

/-- Once the queue was flushed, what is left waits for the process that is attached. -/
theorem flush_awaited (h : channel.isWaitingDrain = true →
      ∃ core ∈ channel.drainListeners, channel.core = some core) :
    Awaited (flush accepts channel) := by
  unfold CoreChannel.flush
  split
  · rename_i hwaits
    exact ⟨fun _ => hwaits, h⟩
  · rename_i hwaits
    rw [Bool.not_eq_true] at hwaits
    cases hcore : channel.core with
    | none =>
      refine ⟨fun h => absurd rfl h, ?_⟩
      intro hwaits'
      rw [hwaits] at hwaits'
      cases hwaits'
    | some core => exact writePending_awaited hcore hwaits

theorem Queued.onDrain (h : Queued channel) (core : CoreProcess) :
    Queued (onDrain accepts core channel) := by
  unfold CoreChannel.onDrain
  split
  · exact h
  · exact Queued.flush ⟨h.attached, h.detached, h.addressed, h.past⟩

@[simp] theorem writePending_core (core : CoreProcess) (lines : List String) :
    (writePending accepts core lines channel).core = channel.core := by
  induction lines generalizing channel with
  | nil => rfl
  | cons message rest ih =>
    unfold writePending
    dsimp only
    split
    · rw [ih]
    · rfl

@[simp] theorem onDrain_core (core : CoreProcess) :
    (onDrain accepts core channel).core = channel.core := by
  unfold onDrain CoreChannel.flush
  split
  · rfl
  · dsimp only
    split
    · rfl
    · split
      · rfl
      · simp

theorem Queued.drain (h : Queued channel) (core : CoreProcess) :
    Queued (drain accepts core channel) := by
  unfold CoreChannel.drain
  generalize channel.drainListeners.count core = n
  induction n with
  | zero => exact ⟨h.attached, h.detached, h.addressed, h.past⟩
  | succ n ih =>
    rw [Function.iterate_succ_apply']
    exact ih.onDrain core

/-- The last listener to be called leaves nothing unawaited. A late drain calls listeners of a
process that is gone. -/
theorem Awaited.drain (h : Awaited channel) (core : CoreProcess) :
    Awaited (drain accepts core channel) := by
  have hquiet : channel.core ≠ some core ∨ channel.drainListeners.count core = 0 →
      Awaited { channel with drainListeners := channel.drainListeners.filter (· ≠ core) } := by
    intro hquiet
    refine ⟨h.queue, ?_⟩
    intro hwaits
    obtain ⟨attached, hlistens, hattached⟩ := h.listens hwaits
    refine ⟨attached, List.mem_filter.mpr ⟨hlistens, ?_⟩, hattached⟩
    rcases hquiet with hother | hzero
    · simpa using fun hsame : attached = core => hother (hsame ▸ hattached)
    · have hnot := List.count_eq_zero.mp hzero
      simpa using fun hsame : attached = core => hnot (hsame ▸ hlistens)
  unfold CoreChannel.drain
  by_cases hattached : channel.core = some core
  · cases hn : channel.drainListeners.count core with
    | zero => exact hquiet (Or.inr hn)
    | succ n =>
      rw [Function.iterate_succ_apply']
      have hcore : ((onDrain accepts core)^[n] { channel with
          drainListeners := channel.drainListeners.filter (· ≠ core) }).core = some core := by
        clear hn
        induction n with
        | zero => exact hattached
        | succ n ih => rw [Function.iterate_succ_apply', onDrain_core, ih]
      generalize (onDrain accepts core)^[n] _ = before at hcore ⊢
      rw [onDrain, if_neg (by simpa using hcore)]
      apply flush_awaited
      intro hwaits
      cases hwaits
  · have hfixed : onDrain accepts core { channel with
          drainListeners := channel.drainListeners.filter (· ≠ core) } =
        { channel with drainListeners := channel.drainListeners.filter (· ≠ core) } :=
      if_pos hattached
    rw [Function.iterate_fixed hfixed]
    exact hquiet (Or.inl hattached)

/-! ## Every run -/

theorem step_queued (h : Queued channel) (hwaits : Awaited channel) (event : ChannelEvent) :
    Queued (step accepts channel event) ∧ Awaited (step accepts channel event) := by
  cases event with
  | attach core =>
    refine ⟨⟨fun _ => rfl, ?_, ?_, ?_⟩, fun hne => absurd rfl hne, ?_⟩
    · intro hnone
      cases hnone
    · intro w hw
      cases hw
    · intro attachment ha
      rcases List.mem_append.mp ha with ha | ha
      · exact h.past attachment ha
      · rw [List.mem_singleton.mp ha]
        exact h.inOrder
    · intro hwaits
      cases hwaits
  | send message =>
    refine ⟨Queued.flush ⟨?_, h.detached, h.addressed, h.past⟩, flush_awaited hwaits.listens⟩
    intro hsome
    have hsent := h.attached hsome
    dsimp only
    rw [← hsent, ← List.append_assoc]
    rfl
  | drain core => exact ⟨h.drain core, hwaits.drain core⟩

theorem run_queued (h : Queued channel) (hwaits : Awaited channel) (events : List ChannelEvent) :
    Queued (run accepts channel events) ∧ Awaited (run accepts channel events) := by
  induction events generalizing channel with
  | nil => exact ⟨h, hwaits⟩
  | cons event events ih =>
    obtain ⟨h', hwaits'⟩ := step_queued h hwaits event
    exact ih h' hwaits'

theorem new_queued (core : Option CoreProcess) : Queued (new core) ∧ Awaited (new core) := by
  refine ⟨⟨fun _ => rfl, fun _ => rfl, ?_, ?_⟩, fun hne => absurd rfl hne, ?_⟩
  · intro w hw
    cases hw
  · intro attachment ha
    cases ha
  · intro hwaits
    cases hwaits

end CoreChannel

end EdoproServer.Edopro
