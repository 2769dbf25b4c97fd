import EdoproServer.Engine.OCGCore
import Mathlib.Logic.Function.Basic

namespace EdoproServer.Engine

/-! ## The banks and the running timer -/

/-- The time a team has left, in milliseconds. -/
structure Bank where
  leftMs : Int
  compensatorMs : Int
  backedMs : Int
  deriving DecidableEq, Repr

def Bank.full (initialMs : Int) : Bank :=
  { leftMs := initialMs, compensatorMs := initialMs, backedMs := initialMs }

/-- `timer` is the moment the scheduled callback is due. `timeouts` keeps the teams against which a
timeout win was emitted. -/
structure TimerState where
  bank : Team → Bank
  runningPos : Option Team
  startedAtMs : Nat
  awaitingConfirm : Bool
  timer : Option Nat
  timeouts : List Team

namespace TimerState

section

variable (timers : TimerState)

/-- No time has passed while no start was noted. -/
def elapsedMs (now : Nat) : Nat :=
  if timers.startedAtMs = 0 then 0 else now - timers.startedAtMs

def setBank (pos : Team) (bank : Bank) : TimerState :=
  { timers with bank := Function.update timers.bank pos bank }

def setLeftMs (pos : Team) (leftMs : Int) : TimerState :=
  timers.setBank pos { timers.bank pos with leftMs := leftMs }

/-- Charges the running team for the time it took. -/
def settle (now : Nat) : TimerState :=
  match timers.runningPos with
  | none => timers
  | some pos =>
    if 0 < timers.elapsedMs now then
      timers.setLeftMs pos (max 0 ((timers.bank pos).leftMs - timers.elapsedMs now))
    else timers

def clear (settleElapsed : Bool) (now : Nat) : TimerState :=
  { if settleElapsed then timers.settle now else timers with
    runningPos := none
    startedAtMs := 0
    awaitingConfirm := false
    timer := none }

def reset (initialMs : Int) (now : Nat) : TimerState :=
  { timers with bank := fun _ => Bank.full initialMs }.clear false now

def schedule (pos : Team) (delayMs : Nat) (awaitingConfirm : Bool) (now : Nat) : TimerState :=
  { timers with
    runningPos := some pos
    startedAtMs := now
    awaitingConfirm := awaitingConfirm
    timer := some (now + delayMs) }

end

/-! ## What the engine wrapper does with them -/

/-- The messages whose answers are told apart when time is given back. -/
def MSG_RETRY : Nat := 1
def MSG_SELECT_BATTLECMD : Nat := 10
def MSG_SELECT_IDLECMD : Nat := 11
def MSG_SELECT_CHAIN : Nat := 16
def MSG_SELECT_UNSELECT_CARD : Nat := 26

/-- The choice of a battle or idle command: the low half of the answer. -/
def choiceOf : Response → Option Nat
  | a :: b :: _ :: _ :: _ => some (a.toNat + 256 * b.toNat)
  | _ => none

/-- An answer other than minus one. -/
def chainsSomething : Response → Bool
  | a :: b :: c :: d :: _ => [a, b, c, d] ≠ [255, 255, 255, 255]
  | _ => false

def canIncreaseTime (gameMsg : Nat) (response : Response) : Bool :=
  if gameMsg = MSG_RETRY ∨ gameMsg = MSG_SELECT_UNSELECT_CARD then false
  else if gameMsg = MSG_SELECT_CHAIN then chainsSomething response
  else if gameMsg = MSG_SELECT_IDLECMD then (choiceOf response).any (· ≤ 5)
  else if gameMsg = MSG_SELECT_BATTLECMD then (choiceOf response).any (· ≤ 1)
  else true

section

variable (timeLimit : Nat) (timers : TimerState)

/-- The time a bank starts a turn with. -/
def maxTimeMs : Int := timeLimit * 1000

def started : TimerState :=
  { bank := fun _ => Bank.full (maxTimeMs timeLimit), runningPos := none, startedAtMs := 0,
    awaitingConfirm := false, timer := none, timeouts := [] }

/-- A timeout counts only for the team whose clock is running. -/
def handleResponseTimeout (originalDuelPos : Team) (now : Nat) : TimerState :=
  if timers.runningPos ≠ some originalDuelPos then timers
  else
    { (timers.clear false now).setLeftMs originalDuelPos 0 with
      timeouts := timers.timeouts ++ [originalDuelPos] }

/-- A team without time left is timed out instead, after its clock was cleared. -/
def setResponseTimer (originalDuelPos : Team) (settlePrevious awaitingConfirm : Bool) (now : Nat) :
    TimerState :=
  let cleared := timers.clear settlePrevious now
  if timeLimit = 0 ∨ originalDuelPos = .spectator then cleared
  else
    let leftTime := max 0 (cleared.bank originalDuelPos).leftMs
    if leftTime ≤ 0 then cleared.handleResponseTimeout originalDuelPos now
    else cleared.schedule originalDuelPos leftTime.toNat awaitingConfirm now

/-- A quick confirmation is charged to the compensator, any other to the time left. -/
def chargeConfirm (pos : Team) (now : Nat) : TimerState :=
  let elapsed := timers.elapsedMs now
  let bank := timers.bank pos
  if elapsed < 10000 ∧ elapsed ≤ bank.compensatorMs then
    timers.setBank pos { bank with compensatorMs := bank.compensatorMs - elapsed }
  else timers.setLeftMs pos (max 0 (bank.leftMs - elapsed))

def rescheduleTimerAfterConfirm (originalPos : Team) (now : Nat) : TimerState :=
  if timeLimit = 0 ∨ timers.runningPos ≠ some originalPos then timers
  else
    { timers.chargeConfirm originalPos now with awaitingConfirm := false }.setResponseTimer
      timeLimit originalPos false false now

def increaseResponseTime (originalDuelPos : Team) (gameMsg : Nat) (response : Response) :
    TimerState :=
  let bank := timers.bank originalDuelPos
  if timeLimit = 0 ∨ originalDuelPos = .spectator ∨ bank.backedMs ≤ 0 ∨
      maxTimeMs timeLimit ≤ bank.leftMs ∨ canIncreaseTime gameMsg response = false then timers
  else
    timers.setBank originalDuelPos
      { leftMs := min (maxTimeMs timeLimit) (bank.leftMs + 1000)
        compensatorMs := bank.compensatorMs + 1000
        backedMs := bank.backedMs - 1000 }

/-- What a response does to the clocks. -/
def settleResponse (responseTeam : Team) (gameMsg : Nat) (response : Response) (now : Nat) :
    TimerState :=
  if timeLimit = 0 then timers
  else (timers.clear true now).increaseResponseTime timeLimit responseTeam gameMsg response

/-- A new turn gives both teams their full time. -/
def newTurn : TimerState :=
  if timeLimit = 0 then timers
  else { timers with bank := fun _ => Bank.full (maxTimeMs timeLimit) }

end

end TimerState

end EdoproServer.Engine
