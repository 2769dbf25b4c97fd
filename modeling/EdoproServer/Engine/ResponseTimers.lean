import EdoproServer.Engine.Responses
import EdoproServer.Engine.TimeBanks

namespace EdoproServer.Engine

/-! ## The engine wrapper with its clocks -/

/-- The room of a duel, with the time limit of its host. -/
structure TimedTable extends DuelTable where
  timeLimit : Nat
  limited : hasTimeLimit = decide (0 < timeLimit)

/-- The wrapper and its timers. `requestMsg` is the identifier of the last response request.
`engineWaits` holds from the moment a prompt of the engine has reached the players until a response
is handed over or the engine goes on by itself. -/
structure TimedCore where
  core : OCGCore
  timers : TimerState
  requestMsg : Nat
  engineWaits : Bool

/-- What happens to the wrapper. The time a team has left is not part of it: the clocks know. -/
inductive TimedInput where
  | response (client : ClientRef) (response : Response)
  | timeConfirm (client : ClientRef)
  | answered (taken : Bool)
  | message (loop : Nat) (message : EngineMessage)
  | refreshed (loop : Nat)
  | routed (loop : Nat) (identifier : Nat)
  | advanceEnds (loop : Nat)
  | advanceFails (loop : Nat)
  | refreshZones
  | resend (client : ClientRef)
  | responseTimeout
  | dispose
  deriving DecidableEq, Repr

namespace TimedCore

def started (timeLimit : Nat) : TimedCore :=
  { core := OCGCore.started, timers := TimerState.started timeLimit, requestMsg := 0,
    engineWaits := false }

section

variable (table : TimedTable) (timed : TimedCore)

/-- The message type a response is charged for. -/
def responseMsg : Nat :=
  if timed.core.isRetrying then 2
  else if timed.core.lastResponseRequestMsg.isSome then timed.requestMsg
  else 0

/-- Whether the team of a side has time left once the running clock was charged. -/
def timeLeft (side : Side) (now : Nat) : Bool :=
  0 < ((timed.timers.clear true now).bank (table.getSideTeam side)).leftMs

/-- The wrapper restarts the clock of the team that plays a side. -/
def setResponseTimer (side : Side) (now : Nat) : TimerState :=
  timed.timers.setResponseTimer table.timeLimit (table.getSideTeam side) true true now

def handleResponse (client : ClientRef) (response : Response) (now : Nat) : TimedCore :=
  if timed.core.takes table.toDuelTable client then
    { timed with
      core := timed.core.handleResponse table.toDuelTable client response
      timers :=
        match timed.core.responseSide with
        | none => timed.timers
        | some side =>
          timed.timers.settleResponse table.timeLimit (table.getSideTeam side) timed.responseMsg
            response now
      engineWaits := false }
  else timed

/-- The clock a TIME_CONFIRM is for: that of the team whose answer is awaited, when the player who
has to answer confirms a time that was not confirmed yet. -/
def confirmedPos (client : ClientRef) : Option Team :=
  match timed.core.responseSide with
  | none => none
  | some side =>
    if table.hasTimeLimit ∧ timed.timers.awaitingConfirm = true ∧
        timed.timers.runningPos = some (table.getSideTeam side) ∧
        timed.core.responsePlayer table.toDuelTable = some client then
      some (table.getSideTeam side)
    else none

def handleTimeConfirm (client : ClientRef) (now : Nat) : TimedCore :=
  match timed.confirmedPos table client with
  | none => timed
  | some pos =>
    { timed with
      core := timed.core.setResponseTimer table.toDuelTable
        (0 < ((timed.timers.chargeConfirm pos now).bank pos).leftMs)
      timers := timed.timers.rescheduleTimerAfterConfirm table.timeLimit pos now }

/-- The clocks are cleared with the engine, if there is one. -/
def disposedTimers (now : Nat) : TimerState :=
  if timed.core.hasOcgcore then timed.timers.clear false now else timed.timers

/-- The rejected response of a RETRY restarts the clock of the side that was asked. -/
def routedTimers (message : EngineMessage) (now : Nat) : TimerState :=
  match message with
  | .request side => timed.setResponseTimer table side now
  | .retry =>
    match timed.core.responseSide with
    | none => timed.timers
    | some side => timed.setResponseTimer table side now
  | _ => timed.timers

/-- Whether a team has time left for a message that is being routed. -/
def routedTimeLeft (message : EngineMessage) (now : Nat) : Bool :=
  match message with
  | .request side => timed.timeLeft table side now
  | .retry => timed.core.responseSide.any (fun side => timed.timeLeft table side now)
  | _ => false

def routedRequestMsg (message : EngineMessage) (identifier : Nat) : Nat :=
  match message with
  | .request _ => identifier
  | _ => timed.requestMsg

def routed (loop : Nat) (identifier : Nat) (now : Nat) : TimedCore :=
  match timed.core.advancing[loop]? with
  | some (some message) =>
    { core := timed.core.routed table.toDuelTable loop (timed.routedTimeLeft table message now)
      timers := timed.routedTimers table message now
      requestMsg := timed.routedRequestMsg message identifier
      engineWaits := timed.engineWaits || OCGCore.stops message }
  | _ => timed

/-- A message the engine hands out shows that it goes on. A new turn fills the banks. -/
def advance (loop : Nat) (message : EngineMessage) : TimedCore :=
  if timed.core.advancing[loop]? = some none ∧ timed.core.hasOcgcore = true then
    { timed with
      core := timed.core.advance table.toDuelTable loop message
      timers := if message = .newTurn then timed.timers.newTurn table.timeLimit else timed.timers
      engineWaits := false }
  else { timed with core := timed.core.advance table.toDuelTable loop message }

def answered (taken : Bool) (now : Nat) : TimedCore :=
  { timed with
    core := timed.core.answered taken
    timers :=
      if timed.core.answering ≠ 0 ∧ taken = false then timed.disposedTimers now else timed.timers }

def handleAdvanceError (loop : Nat) (now : Nat) : TimedCore :=
  { timed with
    core := timed.core.handleAdvanceError table.toDuelTable loop
    timers :=
      match timed.core.advancing[loop]? with
      | none => timed.timers
      | some message => if message = some .retry then timed.timers else timed.disposedTimers now }

/-- The callback of the running timer. -/
def handleResponseTimeout (now : Nat) : TimedCore :=
  match timed.timers.runningPos with
  | none => timed
  | some pos =>
    { timed with
      core := timed.core.handleResponseTimeout
      timers := timed.timers.handleResponseTimeout pos now }

/-- The responding player's team is the team of the side that was asked. -/
def resendResponseRequestToClient (client : ClientRef) (now : Nat) : TimedCore :=
  match timed.core.responseSide with
  | none => timed
  | some side =>
    if timed.core.responsePlayer table.toDuelTable = some client ∧
        timed.core.lastResponseRequestMsg.isSome = true then
      { timed with
        core := timed.core.resendResponseRequestToClient table.toDuelTable client
          (timed.timeLeft table side now)
        timers := timed.setResponseTimer table side now }
    else timed

end

def step (table : TimedTable) (timed : TimedCore) (event : Nat × TimedInput) : TimedCore :=
  match event.2 with
  | .response client response => timed.handleResponse table client response event.1
  | .timeConfirm client => timed.handleTimeConfirm table client event.1
  | .answered taken => timed.answered taken event.1
  | .message loop message => timed.advance table loop message
  | .refreshed loop => { timed with core := timed.core.refreshed table.toDuelTable loop }
  | .routed loop identifier => timed.routed table loop identifier event.1
  | .advanceEnds loop => { timed with core := timed.core.advanceEnds loop }
  | .advanceFails loop => timed.handleAdvanceError table loop event.1
  | .refreshZones =>
    { timed with core := timed.core.handleResponseOrRetry table.toDuelTable .other false }
  | .resend client => timed.resendResponseRequestToClient table client event.1
  | .responseTimeout => timed.handleResponseTimeout event.1
  | .dispose => { timed with core := timed.core.dispose, timers := timed.disposedTimers event.1 }

def run (table : TimedTable) (timed : TimedCore) (events : List (Nat × TimedInput)) : TimedCore :=
  events.foldl (step table) timed

/-! ## What a step does to the clocks -/

variable {table : TimedTable} {timed : TimedCore}

/-- What a step of the wrapper is to the timers. -/
def timerOp (table : TimedTable) (timed : TimedCore) : TimedInput → TimerOp
  | .response client response =>
    match timed.core.responseSide with
    | none => .tick
    | some side =>
      if timed.core.takes table.toDuelTable client then
        .response (table.getSideTeam side) timed.responseMsg response
      else .tick
  | .timeConfirm client =>
    match timed.confirmedPos table client with
    | none => .tick
    | some pos => .timeConfirm pos
  | .answered taken =>
    if timed.core.answering ≠ 0 ∧ taken = false ∧ timed.core.hasOcgcore = true then .dispose
    else .tick
  | .message loop message =>
    if timed.core.advancing[loop]? = some none ∧ timed.core.hasOcgcore = true ∧
        message = .newTurn then .newTurn
    else .tick
  | .routed loop _ =>
    match timed.core.advancing[loop]?, timed.core.responseSide with
    | some (some (.request side)), _ => .start (table.getSideTeam side)
    | some (some .retry), some side => .start (table.getSideTeam side)
    | _, _ => .tick
  | .advanceFails loop =>
    match timed.core.advancing[loop]? with
    | none => .tick
    | some message =>
      if message ≠ some .retry ∧ timed.core.hasOcgcore = true then .dispose else .tick
  | .resend client =>
    match timed.core.responseSide with
    | none => .tick
    | some side =>
      if timed.core.responsePlayer table.toDuelTable = some client ∧
          timed.core.lastResponseRequestMsg.isSome = true then .start (table.getSideTeam side)
      else .tick
  | .responseTimeout => .timeout
  | .dispose => if timed.core.hasOcgcore then .dispose else .tick
  | _ => .tick

theorem takes_side {client : ClientRef} (h : timed.core.takes table.toDuelTable client = true) :
    timed.core.hasOcgcore = true ∧ ∃ side, timed.core.responseSide = some side := by
  simp only [OCGCore.takes, Bool.and_eq_true] at h
  exact ⟨h.2, Option.isSome_iff_exists.mp h.1.1⟩

/-- Every step of the wrapper does to the timers what one operation on them does. -/
theorem step_timers (table : TimedTable) (timed : TimedCore) (event : Nat × TimedInput) :
    (timed.step table event).timers =
      (timed.timerOp table event.2).apply table.timeLimit timed.timers event.1 := by
  obtain ⟨now, input⟩ := event
  cases input with
  | response client response =>
    simp only [step, handleResponse, timerOp]
    cases hs : timed.core.responseSide with
    | none =>
      have htake : timed.core.takes table.toDuelTable client = false := by
        simp [OCGCore.takes, hs]
      simp [htake, TimerOp.apply]
    | some side =>
      cases htake : timed.core.takes table.toDuelTable client with
      | false => simp [TimerOp.apply]
      | true => simp [TimerOp.apply]
  | timeConfirm client =>
    simp only [step, handleTimeConfirm, timerOp]
    cases timed.confirmedPos table client with
    | none => rfl
    | some pos => rfl
  | answered taken =>
    simp only [step, answered, timerOp, disposedTimers]
    by_cases hn : timed.core.answering = 0
    · simp [hn, TimerOp.apply]
    · cases taken with
      | true => simp [TimerOp.apply]
      | false =>
        cases hc : timed.core.hasOcgcore with
        | false => simp [hn, TimerOp.apply]
        | true => simp [hn, TimerOp.apply]
  | message loop message =>
    simp only [step, advance, timerOp]
    by_cases hidle : timed.core.advancing[loop]? = some none ∧ timed.core.hasOcgcore = true
    · by_cases hturn : message = .newTurn
      · simp [hidle, hturn, TimerOp.apply]
      · simp [hidle, hturn, TimerOp.apply]
    · rw [if_neg hidle, if_neg (fun h => hidle ⟨h.1, h.2.1⟩)]
      rfl
  | refreshed loop => rfl
  | routed loop identifier =>
    simp only [step, routed, timerOp]
    cases timed.core.advancing[loop]? with
    | none => rfl
    | some waiting =>
      cases waiting with
      | none => rfl
      | some message =>
        cases message with
        | request side => rfl
        | retry =>
          cases hs : timed.core.responseSide with
          | none => simp [routedTimers, hs, TimerOp.apply]
          | some side => simp [routedTimers, hs, setResponseTimer, TimerOp.apply]
        | newTurn => rfl
        | win => rfl
        | other => rfl
  | advanceEnds loop => rfl
  | advanceFails loop =>
    simp only [step, handleAdvanceError, timerOp, disposedTimers]
    cases timed.core.advancing[loop]? with
    | none => rfl
    | some message =>
      by_cases hretry : message = some .retry
      · simp [hretry, TimerOp.apply]
      · cases hc : timed.core.hasOcgcore with
        | false => simp [TimerOp.apply]
        | true => simp [hretry, TimerOp.apply]
  | refreshZones => rfl
  | resend client =>
    simp only [step, resendResponseRequestToClient, timerOp]
    cases timed.core.responseSide with
    | none => rfl
    | some side =>
      dsimp only
      split
      · rfl
      · rfl
  | responseTimeout =>
    simp only [step, handleResponseTimeout, timerOp, TimerOp.apply]
    cases timed.timers.runningPos with
    | none => rfl
    | some pos => rfl
  | dispose =>
    simp only [step, disposedTimers, timerOp]
    split
    · rfl
    · rfl

/-- The banks of a duel stay in their bounds whatever happens to its wrapper. -/
theorem sound_run (h : timed.timers.Sound table.timeLimit) (events : List (Nat × TimedInput)) :
    (timed.run table events).timers.Sound table.timeLimit := by
  induction events generalizing timed with
  | nil => exact h
  | cons event events ih =>
    apply ih
    rw [step_timers]
    exact TimerOp.sound_apply _ h event.1

/-! ## The clock of the team the engine waits for -/

/-- The team whose answer the engine waits for. -/
def waitsFor (table : TimedTable) (timed : TimedCore) : Option Team :=
  if timed.core.hasOcgcore && timed.engineWaits then timed.core.asked.map table.getSideTeam
  else none

/-- The clock of a team runs, or the team was timed out. -/
def Counts (timers : TimerState) (pos : Team) : Prop :=
  timers.runningPos = some pos ∨ pos ∈ timers.timeouts

/-- No clock of a team the engine waits for is left stopped. -/
def NoFreeClock (table : TimedTable) (timed : TimedCore) : Prop :=
  ∀ pos, timed.waitsFor table = some pos → Counts timed.timers pos

/-- A prompt that is routed is the last one the engine made, and the team whose clock is set going
has time left or was timed out before. -/
def Timely (table : TimedTable) (timed : TimedCore) (now : Nat) : TimedInput → Prop
  | .routed loop _ =>
    match timed.core.advancing[loop]? with
    | some (some (.request side)) =>
      timed.core.asked = some side ∧
        (timed.timeLeft table side now = true ∨ table.getSideTeam side ∈ timed.timers.timeouts)
    | some (some .retry) =>
      ∀ side, timed.core.asked = some side →
        timed.core.responseSide = some side ∧
          (timed.timeLeft table side now = true ∨ table.getSideTeam side ∈ timed.timers.timeouts)
    | _ => True
  | .resend client =>
    timed.core.responsePlayer table.toDuelTable = some client →
      timed.core.lastResponseRequestMsg.isSome = true → ∀ side, timed.core.asked = some side →
        timed.timeLeft table side now = true ∨ table.getSideTeam side ∈ timed.timers.timeouts
  | .timeConfirm client =>
    ∀ pos, timed.confirmedPos table client = some pos →
      0 < ((timed.timers.chargeConfirm pos now).bank pos).leftMs ∨ pos ∈ timed.timers.timeouts
  | _ => True

/-- Every step of a run is timely, as long as there is an engine to wait. -/
def AlwaysTimely (table : TimedTable) (timed : TimedCore) : List (Nat × TimedInput) → Prop
  | [] => True
  | event :: events =>
    (timed.core.hasOcgcore = true → timed.Timely table event.1 event.2) ∧
      AlwaysTimely table (timed.step table event) events

theorem getSideTeam_ne_spectator (table : DuelTable) (side : Side) :
    table.getSideTeam side ≠ .spectator := by
  unfold DuelTable.getSideTeam
  split
  · split
    · simp
    · simp
  · split
    · simp
    · simp

/-- A step of the wrapper that asks nobody: at most the engine is dropped and the side taken
back. -/
structure Quiet (core core' : OCGCore) : Prop where
  alive : core'.hasOcgcore = true → core.hasOcgcore = true
  asked : core'.asked = core.asked
  sided : ∀ side, core'.responseSide = some side → core.responseSide = some side

namespace Quiet

variable {core core' : OCGCore} {table : DuelTable}

theorem refl (core : OCGCore) : Quiet core core := ⟨id, rfl, fun _ h => h⟩

theorem handleResponseOrRetry {message : EngineMessage} (hm : ∀ side, message ≠ .request side)
    (timeLeft : Bool) : Quiet core (core.handleResponseOrRetry table message timeLeft) := by
  unfold OCGCore.handleResponseOrRetry
  cases message with
  | request side => exact absurd rfl (hm side)
  | retry =>
    dsimp only
    split
    · exact ⟨id, rfl, fun _ h => h⟩
    · exact ⟨id, rfl, fun _ h => h⟩
  | newTurn | win | other =>
    dsimp only
    split
    · exact ⟨id, rfl, by simp⟩
    · exact refl core

theorem refreshed (loop : Nat) : Quiet core (core.refreshed table loop) := by
  unfold OCGCore.refreshed
  split
  · split
    · exact refl core
    · exact handleResponseOrRetry (by simp) false
  · exact refl core

theorem routed {loop : Nat} {message : EngineMessage}
    (hl : core.advancing[loop]? = some (some message)) (hm : ∀ side, message ≠ .request side)
    (timeLeft : Bool) : Quiet core (core.routed table loop timeLeft) := by
  have hquiet : Quiet core (core.handleResponseOrRetry table message timeLeft) :=
    handleResponseOrRetry hm timeLeft
  unfold OCGCore.routed
  rw [hl]
  exact ⟨hquiet.alive, hquiet.asked, hquiet.sided⟩

theorem advanceEnds (loop : Nat) : Quiet core (core.advanceEnds loop) := by
  unfold OCGCore.advanceEnds
  split
  · exact ⟨id, rfl, fun _ h => h⟩
  · exact refl core

theorem dispose : Quiet core core.dispose := ⟨by simp [OCGCore.dispose], rfl, fun _ h => h⟩

theorem handleAdvanceError (loop : Nat) : Quiet core (core.handleAdvanceError table loop) := by
  unfold OCGCore.handleAdvanceError
  split
  · exact refl core
  · split
    · exact refl core
    · rename_i message _ _
      have hquiet : Quiet { core.dispose with advancing := core.advancing.eraseIdx loop }
          ({ core.dispose with advancing := core.advancing.eraseIdx loop }.handleResponseOrRetry
            table .other false) := handleResponseOrRetry (by simp) false
      exact ⟨fun h => dispose.alive (hquiet.alive h), hquiet.asked, hquiet.sided⟩

theorem answered (taken : Bool) : Quiet core (core.answered taken) := by
  unfold OCGCore.answered
  split
  · exact refl core
  · exact ⟨by simp +contextual, rfl, fun _ h => h⟩

theorem handleResponseTimeout : Quiet core core.handleResponseTimeout := by
  unfold OCGCore.handleResponseTimeout
  split
  · exact ⟨id, rfl, by simp⟩
  · exact refl core

theorem resend (client : ClientRef) (timeLeft : Bool) :
    Quiet core (core.resendResponseRequestToClient table client timeLeft) := by
  unfold OCGCore.resendResponseRequestToClient
  split
  · exact ⟨id, rfl, fun _ h => h⟩
  · exact refl core

/-- A message for a loop that is not waiting, or from an engine that is gone, asks nobody. -/
theorem advance {loop : Nat} {message : EngineMessage}
    (hidle : ¬(core.advancing[loop]? = some none ∧ core.hasOcgcore = true)) :
    Quiet core (core.advance table loop message) := by
  unfold OCGCore.advance
  split
  · rename_i hl
    rw [if_neg (fun halive => hidle ⟨hl, halive⟩)]
    exact ⟨id, rfl, fun _ h => h⟩
  · exact refl core

/-- A loop that fails takes the engine with it. -/
theorem handleAdvanceError_dead {loop : Nat}
    {message : Option EngineMessage} (hl : core.advancing[loop]? = some message)
    (hm : message ≠ some .retry) : (core.handleAdvanceError table loop).hasOcgcore = false := by
  unfold OCGCore.handleAdvanceError
  rw [hl]
  dsimp only
  rw [if_neg hm]
  have hquiet : Quiet { core.dispose with advancing := core.advancing.eraseIdx loop }
      ({ core.dispose with advancing := core.advancing.eraseIdx loop }.handleResponseOrRetry
        table .other false) := Quiet.handleResponseOrRetry (by simp) false
  exact Bool.eq_false_iff.mpr (fun halive => by simpa [OCGCore.dispose] using hquiet.alive halive)

end Quiet

/-- A confirmed clock is running. -/
theorem confirmedPos_running {client : ClientRef} {pos : Team}
    (h : timed.confirmedPos table client = some pos) :
    0 < table.timeLimit ∧ timed.timers.runningPos = some pos ∧ pos ≠ .spectator := by
  unfold confirmedPos at h
  split at h
  · cases h
  · rename_i side _
    split at h
    · rename_i hguard
      cases h
      obtain ⟨hlimit, -, hrun, -⟩ := hguard
      rw [table.limited, decide_eq_true_eq] at hlimit
      exact ⟨hlimit, hrun, getSideTeam_ne_spectator table.toDuelTable side⟩
    · cases h

/-! ### The timers -/

section

variable {timeLimit : Nat} {timers : TimerState} {pos : Team} {now : Nat}

theorem clear_timeouts (settleElapsed : Bool) :
    (timers.clear settleElapsed now).timeouts = timers.timeouts := by
  cases settleElapsed with
  | false => rfl
  | true =>
    simp only [TimerState.clear, if_true, TimerState.settle]
    split
    · rfl
    · split
      · rfl
      · rfl

theorem timeouts_handleResponseTimeout {other : Team} (h : other ∈ timers.timeouts) :
    other ∈ (timers.handleResponseTimeout pos now).timeouts := by
  unfold TimerState.handleResponseTimeout
  split
  · exact h
  · exact List.mem_append_left _ h

theorem timeouts_setResponseTimer {other : Team} (settlePrevious awaitingConfirm : Bool)
    (h : other ∈ timers.timeouts) :
    other ∈
      (timers.setResponseTimer timeLimit pos settlePrevious awaitingConfirm now).timeouts := by
  have hcleared : other ∈ (timers.clear settlePrevious now).timeouts := by
    rwa [clear_timeouts]
  unfold TimerState.setResponseTimer
  dsimp only
  split
  · exact hcleared
  · split
    · exact timeouts_handleResponseTimeout hcleared
    · exact hcleared

theorem chargeConfirm_timeouts :
    (timers.chargeConfirm pos now).timeouts = timers.timeouts := by
  unfold TimerState.chargeConfirm
  dsimp only
  split
  · rfl
  · rfl

/-- A clock that is set going for a team counts, unless no time is left. -/
theorem counts_setResponseTimer {settlePrevious awaitingConfirm : Bool} (hlimit : 0 < timeLimit)
    (hpos : pos ≠ .spectator)
    (h : 0 < ((timers.clear settlePrevious now).bank pos).leftMs ∨ pos ∈ timers.timeouts) :
    Counts (timers.setResponseTimer timeLimit pos settlePrevious awaitingConfirm now) pos := by
  cases h with
  | inl hleft =>
    left
    rw [TimerState.setResponseTimer_of_left hlimit hpos hleft]
    rfl
  | inr hout => exact Or.inr (timeouts_setResponseTimer settlePrevious awaitingConfirm hout)

theorem counts_handleResponseTimeout {other : Team} (h : Counts timers other) :
    Counts (timers.handleResponseTimeout pos now) other := by
  cases h with
  | inr hout => exact Or.inr (timeouts_handleResponseTimeout hout)
  | inl hrun =>
    unfold TimerState.handleResponseTimeout
    split
    · exact Or.inl hrun
    · rename_i hpos
      rw [hrun, ne_eq, not_not, Option.some.injEq] at hpos
      subst hpos
      exact Or.inr (by simp)

/-- A confirmed clock goes on counting, unless no time is left. -/
theorem counts_rescheduleTimerAfterConfirm {other : Team} (hlimit : 0 < timeLimit)
    (hpos : pos ≠ .spectator) (hrun : timers.runningPos = some pos)
    (hleft : 0 < ((timers.chargeConfirm pos now).bank pos).leftMs ∨ pos ∈ timers.timeouts)
    (h : Counts timers other) :
    Counts (timers.rescheduleTimerAfterConfirm timeLimit pos now) other := by
  unfold TimerState.rescheduleTimerAfterConfirm
  rw [if_neg (by simp only [hrun, ne_eq, not_true_eq_false, or_false]; omega)]
  cases h with
  | inr hout =>
    apply Or.inr
    apply timeouts_setResponseTimer
    rwa [chargeConfirm_timeouts]
  | inl hother =>
    rw [hrun, Option.some.injEq] at hother
    subst hother
    apply counts_setResponseTimer hlimit hpos
    cases hleft with
    | inl hleft => exact Or.inl hleft
    | inr hout => exact Or.inr (by rwa [chargeConfirm_timeouts])

end

/-! ### The timer of the exchange -/

theorem isSome_setResponseTimer {timeLimit : Nat} {timers : TimerState} {pos : Team}
    (hpos : pos ≠ .spectator) (settlePrevious awaitingConfirm : Bool) (now : Nat) :
    (timers.setResponseTimer timeLimit pos settlePrevious awaitingConfirm now).runningPos.isSome =
      (decide (0 < timeLimit) &&
        decide (0 < ((timers.clear settlePrevious now).bank pos).leftMs)) := by
  by_cases hlimit : 0 < timeLimit
  · by_cases hleft : 0 < ((timers.clear settlePrevious now).bank pos).leftMs
    · rw [TimerState.setResponseTimer_of_left hlimit hpos hleft]
      simp [TimerState.schedule, hlimit, hleft]
    · have hout : max 0 ((timers.clear settlePrevious now).bank pos).leftMs ≤ 0 := by omega
      unfold TimerState.setResponseTimer
      dsimp only
      rw [if_neg (by simp only [hpos, or_false]; omega), if_pos hout]
      simp [TimerState.handleResponseTimeout, hleft]
  · have hzero : timeLimit = 0 := by omega
    simp [TimerState.setResponseTimer, hzero, TimerState.clear]

/-- While there is an engine, the exchange of prompts and responses takes a timer to run exactly
when a clock does. -/
def Agrees (timed : TimedCore) : Prop :=
  timed.core.hasOcgcore = true →
    timed.core.timerRunning = timed.timers.runningPos.isSome

theorem timerRunning_handleResponseOrRetry {table : DuelTable} {core : OCGCore}
    {message : EngineMessage} (hm : OCGCore.stops message = false) (timeLeft : Bool) :
    (core.handleResponseOrRetry table message timeLeft).timerRunning = core.timerRunning := by
  unfold OCGCore.handleResponseOrRetry
  cases message with
  | request side => cases hm
  | retry => cases hm
  | newTurn | win | other =>
    dsimp only
    split
    · rfl
    · rfl

theorem timerRunning_advance {table : DuelTable} {core : OCGCore} (loop : Nat)
    (message : EngineMessage) :
    (core.advance table loop message).timerRunning = core.timerRunning := by
  unfold OCGCore.advance
  split
  · split
    · cases message with
      | request | retry | newTurn | win | other => rfl
    · rfl
  · rfl

theorem runningPos_newTurn {timeLimit : Nat} {timers : TimerState} :
    (timers.newTurn timeLimit).runningPos = timers.runningPos := by
  unfold TimerState.newTurn
  split
  · rfl
  · rfl

namespace Agrees

theorem response (h : Agrees timed) (client : ClientRef) (answer : Response) (now : Nat) :
    Agrees (timed.handleResponse table client answer now) := by
  unfold handleResponse
  split
  · rename_i htake
    obtain ⟨halive, side, hside⟩ := takes_side htake
    intro _
    simp only [OCGCore.handleResponse, htake, if_true, hside, TimerState.settleResponse]
    by_cases hlimit : table.timeLimit = 0
    · simp [table.limited, hlimit, h halive]
    · have hpos : 0 < table.timeLimit := by omega
      simp [table.limited, hpos, hlimit, TimerState.increaseResponseTime_runningPos]
  · exact h

theorem timeConfirm (h : Agrees timed) (client : ClientRef) (now : Nat) :
    Agrees (timed.handleTimeConfirm table client now) := by
  unfold handleTimeConfirm
  cases hconfirmed : timed.confirmedPos table client with
  | none => exact h
  | some pos =>
    obtain ⟨hlimit, hrun, hpos⟩ := confirmedPos_running hconfirmed
    intro _
    dsimp only
    unfold TimerState.rescheduleTimerAfterConfirm
    rw [if_neg (by simp only [hrun, ne_eq, not_true_eq_false, or_false]; omega),
      isSome_setResponseTimer hpos]
    simp [OCGCore.setResponseTimer, table.limited, TimerState.clear]

theorem routed (h : Agrees timed) (loop identifier now : Nat) :
    Agrees (timed.routed table loop identifier now) := by
  cases hl : timed.core.advancing[loop]? with
  | none =>
    simp only [TimedCore.routed, hl]
    exact h
  | some waiting =>
    cases waiting with
    | none =>
      simp only [TimedCore.routed, hl]
      exact h
    | some message =>
      intro halive
      simp only [TimedCore.routed, hl, OCGCore.routed] at halive ⊢
      cases message with
      | request side =>
        simp only [OCGCore.handleResponseOrRetry, OCGCore.setLastResponseRequestMsg,
          OCGCore.setResponseTimer, routedTimers, setResponseTimer, routedTimeLeft, timeLeft]
        rw [isSome_setResponseTimer (getSideTeam_ne_spectator _ side), table.limited]
      | retry =>
        cases hside : timed.core.responseSide with
        | none =>
          simp only [OCGCore.handleResponseOrRetry, hside, routedTimers] at halive ⊢
          exact h halive
        | some side =>
          simp only [OCGCore.handleResponseOrRetry, hside, OCGCore.setResponseTimer, routedTimers,
            setResponseTimer, routedTimeLeft, timeLeft, Option.isSome_some, if_true,
            Option.any_some]
          rw [isSome_setResponseTimer (getSideTeam_ne_spectator _ side), table.limited]
      | newTurn | win | other =>
        have hquiet : Quiet timed.core (timed.core.handleResponseOrRetry table.toDuelTable
          .other false) := Quiet.handleResponseOrRetry (by simp) false
        rw [timerRunning_handleResponseOrRetry rfl]
        exact h (hquiet.alive halive)

theorem resend (h : Agrees timed) (client : ClientRef) (now : Nat) :
    Agrees (timed.resendResponseRequestToClient table client now) := by
  unfold resendResponseRequestToClient
  split
  · exact h
  · rename_i side hside
    split
    · rename_i hguard
      intro _
      simp only [OCGCore.resendResponseRequestToClient, hguard.1, hguard.2, decide_true,
        Bool.and_true, if_true, OCGCore.setResponseTimer, setResponseTimer, timeLeft]
      rw [isSome_setResponseTimer (getSideTeam_ne_spectator _ side), table.limited]
    · exact h

theorem advance (h : Agrees timed) (loop : Nat) (message : EngineMessage) :
    Agrees (timed.advance table loop message) := by
  unfold TimedCore.advance
  split
  · rename_i hidle
    intro _
    dsimp only
    rw [timerRunning_advance, h hidle.2]
    split
    · rw [runningPos_newTurn]
    · rfl
  · rename_i hidle
    intro halive
    dsimp only at halive ⊢
    rw [timerRunning_advance]
    have hquiet : Quiet timed.core (timed.core.advance table.toDuelTable loop message) :=
      Quiet.advance hidle
    exact h (hquiet.alive halive)

/-- Every step keeps the exchange and the clocks in agreement. -/
theorem step (h : Agrees timed) (event : Nat × TimedInput) : Agrees (timed.step table event) := by
  obtain ⟨now, input⟩ := event
  cases input with
  | response client response => exact h.response client response now
  | timeConfirm client => exact h.timeConfirm client now
  | answered taken =>
    intro halive
    simp only [TimedCore.step, TimedCore.answered, OCGCore.answered] at halive ⊢
    by_cases hn : timed.core.answering = 0
    · simp only [hn, if_true, ne_eq, not_true_eq_false, false_and, if_false] at halive ⊢
      exact h halive
    · cases taken with
      | false => simp [hn] at halive
      | true =>
        simp only [hn, if_false, Bool.and_true] at halive
        simpa [hn] using h halive
  | message loop message => exact h.advance loop message
  | refreshed loop =>
    intro halive
    have hsame : (timed.core.refreshed table.toDuelTable loop).timerRunning =
        timed.core.timerRunning := by
      unfold OCGCore.refreshed
      split
      · split
        · rfl
        · exact timerRunning_handleResponseOrRetry rfl false
      · rfl
    exact hsame.trans (h ((Quiet.refreshed loop).alive halive))
  | routed loop identifier => exact h.routed loop identifier now
  | advanceEnds loop =>
    intro halive
    have hsame : (timed.core.advanceEnds loop).timerRunning = timed.core.timerRunning := by
      unfold OCGCore.advanceEnds
      split
      · rfl
      · rfl
    exact hsame.trans (h ((Quiet.advanceEnds loop).alive halive))
  | advanceFails loop =>
    intro halive
    by_cases hdrops : ∃ message, timed.core.advancing[loop]? = some message ∧ message ≠ some .retry
    · obtain ⟨message, hl, hm⟩ := hdrops
      have hdead := @Quiet.handleAdvanceError_dead timed.core table.toDuelTable loop message hl hm
      exact absurd halive (by simp [TimedCore.step, TimedCore.handleAdvanceError, hdead])
    · have hsame : timed.step table (now, .advanceFails loop) = timed := by
        simp only [TimedCore.step, TimedCore.handleAdvanceError, OCGCore.handleAdvanceError]
        cases hl : timed.core.advancing[loop]? with
        | none => rfl
        | some message =>
          have hm : message = some .retry := by_contra fun hm => hdrops ⟨message, hl, hm⟩
          simp [hm]
      rw [hsame] at halive ⊢
      exact h halive
  | refreshZones =>
    intro halive
    have hquiet : Quiet timed.core
        (timed.core.handleResponseOrRetry table.toDuelTable .other false) :=
      Quiet.handleResponseOrRetry (by simp) false
    exact (timerRunning_handleResponseOrRetry rfl false).trans (h (hquiet.alive halive))
  | resend client => exact h.resend client now
  | responseTimeout =>
    unfold TimedCore.step handleResponseTimeout
    dsimp only
    cases hrun : timed.timers.runningPos with
    | none => exact h
    | some pos =>
      intro halive
      have halive : timed.core.hasOcgcore = true := Quiet.handleResponseTimeout.alive halive
      have htimer : timed.core.timerRunning = true := by rw [h halive, hrun]; rfl
      simp [OCGCore.handleResponseTimeout, htimer, TimerState.handleResponseTimeout, hrun,
        TimerState.setLeftMs, TimerState.setBank]
  | dispose => exact fun halive => by simp [TimedCore.step, OCGCore.dispose] at halive

end Agrees

/-- In every run the timer of the exchange runs exactly when a clock does. -/
theorem agrees_run (table : TimedTable) (events : List (Nat × TimedInput)) :
    Agrees ((started table.timeLimit).run table events) := by
  have hrun : ∀ timed : TimedCore, Agrees timed → Agrees (timed.run table events) := by
    induction events with
    | nil => exact fun _ h => h
    | cons event events ih => exact fun timed h => ih _ (h.step event)
  exact hrun _ (fun _ => rfl)

/-! ### Runs -/

/-- While the engine waits, the side the wrapper would take a response of is the side that was
asked, and the clock of its team counts. -/
structure Watched (table : TimedTable) (timed : TimedCore) : Prop where
  sided : timed.core.hasOcgcore = true → timed.engineWaits = true →
    ∀ side other, timed.core.responseSide = some side → timed.core.asked = some other → side = other
  counts : timed.core.hasOcgcore = true → timed.engineWaits = true →
    ∀ side, timed.core.asked = some side → Counts timed.timers (table.getSideTeam side)

namespace Watched

variable {timed' : TimedCore}

theorem idle (hwaits : timed'.engineWaits = false) : Watched table timed' :=
  ⟨by simp [hwaits], by simp [hwaits]⟩

/-- Steps that ask nobody and leave the clocks counting. -/
theorem keep (h : Watched table timed) (hquiet : Quiet timed.core timed'.core)
    (hwaits : timed'.engineWaits = timed.engineWaits)
    (hcounts : ∀ pos, Counts timed.timers pos → Counts timed'.timers pos) :
    Watched table timed' := by
  constructor
  · intro halive hwait side other hside hask
    rw [hquiet.asked] at hask
    exact h.sided (hquiet.alive halive) (hwaits ▸ hwait) side other (hquiet.sided side hside) hask
  · intro halive hwait side hask
    rw [hquiet.asked] at hask
    exact hcounts _ (h.counts (hquiet.alive halive) (hwaits ▸ hwait) side hask)

/-- A dropped engine waits for nobody. -/
theorem dropped (hdead : timed'.core.hasOcgcore = false) : Watched table timed' :=
  ⟨by simp [hdead], by simp [hdead]⟩

theorem timeConfirm (h : Watched table timed) {client : ClientRef} {now : Nat}
    (hd : timed.Timely table now (.timeConfirm client)) :
    Watched table (timed.handleTimeConfirm table client now) := by
  unfold handleTimeConfirm
  cases hpos : timed.confirmedPos table client with
  | none => exact h
  | some pos =>
    have htime := hd pos hpos
    obtain ⟨hlimit, hrun, hteam⟩ := confirmedPos_running hpos
    refine h.keep ⟨id, rfl, fun _ h => h⟩ rfl ?_
    intro other hcounts
    exact counts_rescheduleTimerAfterConfirm hlimit hteam hrun htime hcounts

theorem advance (h : Watched table timed) (loop : Nat) (message : EngineMessage) :
    Watched table (timed.advance table loop message) := by
  unfold TimedCore.advance
  split
  · exact idle rfl
  · rename_i hidle
    exact h.keep (Quiet.advance hidle) rfl (fun _ h => h)

theorem routed (hlimit : 0 < table.timeLimit) (h : Watched table timed) {loop identifier now : Nat}
    (hd : timed.core.hasOcgcore = true → timed.Timely table now (.routed loop identifier)) :
    Watched table (timed.routed table loop identifier now) := by
  cases hl : timed.core.advancing[loop]? with
  | none =>
    simp only [TimedCore.routed, hl]
    exact h
  | some waiting =>
    cases waiting with
    | none =>
      simp only [TimedCore.routed, hl]
      exact h
    | some message =>
      simp only [Timely, hl] at hd
      cases message with
      | request side =>
        simp only [TimedCore.routed, hl, OCGCore.routed, OCGCore.handleResponseOrRetry,
          OCGCore.setLastResponseRequestMsg, OCGCore.setResponseTimer]
        constructor
        · intro halive _ other asked hother hask
          have hsame : some side = some asked := (hd halive).1.symm.trans hask
          cases hsame
          exact (Option.some.inj hother).symm
        · intro halive _ other hask
          have hsame : some side = some other := (hd halive).1.symm.trans hask
          cases hsame
          apply counts_setResponseTimer hlimit (getSideTeam_ne_spectator _ side)
          simpa [timeLeft] using (hd halive).2
      | retry =>
        have hquiet : Quiet timed.core (timed.core.routed table.toDuelTable loop
            (timed.routedTimeLeft table .retry now)) := Quiet.routed hl (by simp) _
        simp only [TimedCore.routed, hl]
        constructor
        · intro halive _ side other hside hask
          rw [hquiet.asked] at hask
          have hsame := (hd (hquiet.alive halive) other hask).1
          rw [hquiet.sided side hside] at hsame
          exact Option.some.inj hsame
        · intro halive _ side hask
          rw [hquiet.asked] at hask
          obtain ⟨hside, htime⟩ := hd (hquiet.alive halive) side hask
          simp only [routedTimers, hside]
          apply counts_setResponseTimer hlimit (getSideTeam_ne_spectator _ side)
          simpa [timeLeft] using htime
      | newTurn | win | other =>
        simp only [TimedCore.routed, hl]
        refine h.keep (Quiet.routed hl (by simp) _) ?_ ?_
        · simp [OCGCore.stops]
        · exact fun _ h => h

theorem resend (hlimit : 0 < table.timeLimit) (h : Watched table timed) {client : ClientRef}
    {now : Nat}
    (hd : timed.core.hasOcgcore = true → timed.Timely table now (.resend client)) :
    Watched table (timed.resendResponseRequestToClient table client now) := by
  unfold resendResponseRequestToClient
  split
  · exact h
  · rename_i side hside
    split
    · rename_i hguard
      have hquiet : Quiet timed.core (timed.core.resendResponseRequestToClient table.toDuelTable
          client (timed.timeLeft table side now)) := Quiet.resend client _
      constructor
      · intro halive hwait other asked hother hask
        rw [hquiet.asked] at hask
        exact h.sided (hquiet.alive halive) hwait other asked (hquiet.sided other hother) hask
      · intro halive hwait asked hask
        rw [hquiet.asked] at hask
        have hsame := h.sided (hquiet.alive halive) hwait side asked hside hask
        subst hsame
        apply counts_setResponseTimer hlimit (getSideTeam_ne_spectator _ side)
        simpa [timeLeft] using hd (hquiet.alive halive) hguard.1 hguard.2 side hask
    · exact h

theorem step (hlimit : 0 < table.timeLimit) (h : Watched table timed) (event : Nat × TimedInput)
    (hd : timed.core.hasOcgcore = true → timed.Timely table event.1 event.2) :
    Watched table (timed.step table event) := by
  obtain ⟨now, input⟩ := event
  cases input with
  | response client response =>
    simp only [TimedCore.step, handleResponse]
    split
    · exact idle rfl
    · exact h
  | timeConfirm client =>
    by_cases halive : timed.core.hasOcgcore = true
    · exact h.timeConfirm (hd halive)
    · apply dropped
      simp only [TimedCore.step, handleTimeConfirm]
      split
      · simpa using halive
      · simpa [OCGCore.setResponseTimer] using halive
  | answered taken =>
    simp only [TimedCore.step, TimedCore.answered]
    by_cases hdone : timed.core.answering ≠ 0 ∧ taken = false
    · apply dropped
      simp [OCGCore.answered, hdone.1, hdone.2]
    · refine h.keep (Quiet.answered taken) rfl ?_
      intro pos hcounts
      rwa [if_neg hdone]
  | message loop message => exact h.advance loop message
  | refreshed loop => exact h.keep (Quiet.refreshed loop) rfl (fun _ h => h)
  | routed loop identifier => exact h.routed hlimit hd
  | advanceEnds loop => exact h.keep (Quiet.advanceEnds loop) rfl (fun _ h => h)
  | advanceFails loop =>
    by_cases hdrops : ∃ message, timed.core.advancing[loop]? = some message ∧ message ≠ some .retry
    · obtain ⟨message, hl, hm⟩ := hdrops
      exact dropped (Quiet.handleAdvanceError_dead hl hm)
    · refine h.keep (Quiet.handleAdvanceError loop) rfl ?_
      intro pos hcounts
      simp only [TimedCore.step, TimedCore.handleAdvanceError]
      split
      · exact hcounts
      · rename_i message hl
        rwa [if_pos (by_contra fun hm => hdrops ⟨message, hl, hm⟩)]
  | refreshZones =>
    have hquiet : Quiet timed.core
        (timed.core.handleResponseOrRetry table.toDuelTable .other false) :=
      Quiet.handleResponseOrRetry (by simp) false
    exact h.keep hquiet rfl (fun _ h => h)
  | resend client => exact h.resend hlimit hd
  | responseTimeout =>
    simp only [TimedCore.step, TimedCore.handleResponseTimeout]
    split
    · exact h
    · exact h.keep Quiet.handleResponseTimeout rfl (fun _ => counts_handleResponseTimeout)
  | dispose => exact dropped rfl

theorem run (hlimit : 0 < table.timeLimit) {events : List (Nat × TimedInput)}
    (h : Watched table timed) (hd : AlwaysTimely table timed events) :
    Watched table (timed.run table events) := by
  induction events generalizing timed with
  | nil => exact h
  | cons event events ih => exact ih (h.step hlimit event hd.1) hd.2

theorem noFreeClock (h : Watched table timed) : NoFreeClock table timed := by
  intro pos hwaits
  unfold waitsFor at hwaits
  split at hwaits
  · rename_i hwait
    simp only [Bool.and_eq_true] at hwait
    obtain ⟨side, hask, hteam⟩ := Option.map_eq_some_iff.mp hwaits
    rw [← hteam]
    exact h.counts hwait.1 hwait.2 side hask
  · cases hwaits

end Watched

/-- As long as every prompt that reaches the players is the engine's last and its team has time
left, no team the engine waits for has its clock stopped. -/
theorem no_free_clock (table : TimedTable) (hlimit : 0 < table.timeLimit)
    (events : List (Nat × TimedInput)) (h : AlwaysTimely table (started table.timeLimit) events) :
    NoFreeClock table ((started table.timeLimit).run table events) :=
  (Watched.run hlimit (Watched.idle rfl) h).noFreeClock

/-- Two players with a second each. -/
def seconds : TimedTable :=
  { OCGCore.pair with timeLimit := 1, limited := rfl }

/-- The first player answers when the second is over and is asked again in the same turn. -/
def askedWithoutTime : List (Nat × TimedInput) :=
  [(1, .message 0 (.request 0)), (1, .routed 0 26), (1001, .response 0 [0]),
    (1001, .answered true), (1001, .message 0 (.request 0)), (1001, .routed 0 26)]

/-- The engine waits for the team, its clock stands still and nobody has won. -/
theorem askedWithoutTime_free :
    ((started 1).run seconds askedWithoutTime).waitsFor seconds = some .player ∧
      ¬NoFreeClock seconds ((started 1).run seconds askedWithoutTime) := by
  have hwaits : ((started 1).run seconds askedWithoutTime).waitsFor seconds = some .player := by
    decide
  refine ⟨hwaits, ?_⟩
  intro h
  cases h .player hwaits with
  | inl hrun => exact absurd hrun (by decide)
  | inr hout => exact absurd hout (by decide)

/-- The first player answers after 400 milliseconds and is asked again. -/
def askedWithTime : List (Nat × TimedInput) :=
  [(1, .message 0 (.request 0)), (1, .routed 0 26), (401, .response 0 [0]),
    (401, .answered true), (401, .message 0 (.request 0)), (401, .routed 0 26)]

theorem no_free_clock_seconds :
    NoFreeClock seconds ((started 1).run seconds askedWithTime) := by
  apply no_free_clock seconds (by decide) askedWithTime
  refine ⟨fun _ => trivial, fun _ => ?_, fun _ => trivial, fun _ => trivial, fun _ => trivial,
    fun _ => ?_, trivial⟩
  · exact ⟨by decide, Or.inl (by decide)⟩
  · exact ⟨by decide, Or.inl (by decide)⟩

end TimedCore

end EdoproServer.Engine
