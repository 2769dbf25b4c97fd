import EdoproServer.Basic
import Mathlib.Data.List.Sort

namespace EdoproServer.Engine

/-! ## Sides and teams -/

/-- The two sides of a duel as the engine numbers them. -/
abbrev Side := Fin 2

instance twoSides : @NeZero Nat Zero.ofOfNat0 2 := ⟨by decide⟩

structure SeatedPlayer where
  client : ClientRef
  team : Team
  position : Nat
  deriving DecidableEq, Repr

/-- What the engine wrapper reads of its room: the seated players and how the duel is played. -/
structure DuelTable where
  players : List SeatedPlayer
  isTag : Bool
  isPositionSwapped : Bool
  hasTimeLimit : Bool

namespace DuelTable

variable (table : DuelTable)

/-- The team that plays a side. -/
def getSideTeam (side : Side) : Team :=
  if table.isPositionSwapped then (if side = 0 then .opponent else .player)
  else (if side = 0 then .player else .opponent)

/-- The player who has to act for a side. Teammates take turns in a tag duel, and the two sides
start with different seats. -/
def getActivePlayer (side : Side) (turn : Nat) : Option ClientRef :=
  let teamPlayers := table.players.filter (fun p => p.team = table.getSideTeam side)
  if !table.isTag || teamPlayers.length ≤ 1 then teamPlayers.head?.map SeatedPlayer.client
  else
    let idx := if side = 0 then (turn - 1) / 2 % 2 else 1 - turn / 2 % 2
    let sortedPlayers := teamPlayers.mergeSort (fun a b => a.position ≤ b.position)
    (sortedPlayers[idx]? <|> sortedPlayers.head?).map SeatedPlayer.client

end DuelTable

/-! ## The wrapper around one engine -/

/-- The engine's messages, as far as the exchange of prompts and responses tells them apart. -/
inductive EngineMessage where
  | request (side : Side)
  | retry
  | newTurn
  | win
  | other
  deriving DecidableEq, Repr

abbrev Response := List UInt8

/-- A response that was handed to the engine and the prompt it answered, by the number of prompts
the engine had made before that one. -/
structure Forwarded where
  prompt : Nat
  client : ClientRef
  response : Response
  deriving DecidableEq, Repr

/-- The exchange with the engine of one duel. `responses` are those of the duel record, `advancing`
holds the advance loops with the message each is routing, `answering` counts the handlers that wait
for the engine to take a response. The last fields keep what the engine did: whom it asked, what it
was handed, and which responses it accepted, rejected or has not judged. A rejection leaves
`rejected` when the RETRY that reports it has been handled. -/
structure OCGCore where
  hasOcgcore : Bool
  responseSide : Option Side
  lastResponseRequestMsg : Option Side
  isRetrying : Bool
  timerRunning : Bool
  turn : Nat
  responses : List Response
  advancing : List (Option EngineMessage)
  answering : Nat
  asked : Option Side
  prompts : List (Option ClientRef)
  forwarded : List Forwarded
  accepted : List Response
  rejected : List Response
  outstanding : List Response

namespace OCGCore

/-- The engine of a duel that just began, on its way to the first message. -/
def started : OCGCore :=
  { hasOcgcore := true, responseSide := none, lastResponseRequestMsg := none, isRetrying := false,
    timerRunning := false, turn := 0, responses := [], advancing := [none], answering := 0,
    asked := none, prompts := [], forwarded := [], accepted := [], rejected := [],
    outstanding := [] }

section

variable (table : DuelTable) (core : OCGCore)

/-- Whether the wrapper waits for the answer to a prompt. -/
def asking : Bool := core.lastResponseRequestMsg.isSome || core.isRetrying

def responsePlayer : Option ClientRef :=
  core.responseSide.bind (fun side => table.getActivePlayer side core.turn)

/-- Whether the RESPONSE of a client passes the guard of its handler. -/
def takes (client : ClientRef) : Bool :=
  core.responseSide.isSome && core.responsePlayer table = some client && core.hasOcgcore

/-- The handler of a RESPONSE, up to the promise of the engine taking it. The side that was asked
stays set. -/
def handleResponse (client : ClientRef) (response : Response) : OCGCore :=
  if core.takes table client then
    { core with
      responses := core.responses ++ [response]
      timerRunning := core.timerRunning && !table.hasTimeLimit
      lastResponseRequestMsg := none
      isRetrying := false
      answering := core.answering + 1
      forwarded := core.forwarded ++ [⟨core.prompts.length - 1, client, response⟩]
      outstanding := core.outstanding ++ [response] }
  else core

/-- Whether the handler of a RESPONSE goes on depends on the engine: it advances, or the duel is
called off. -/
def answered (taken : Bool) : OCGCore :=
  if core.answering = 0 then core
  else
    { core with
      answering := core.answering - 1
      hasOcgcore := core.hasOcgcore && taken
      timerRunning := core.timerRunning && taken
      advancing := if core.hasOcgcore && taken then core.advancing ++ [none] else core.advancing }

/-- Restarts the response timer, unless the team has no time left. -/
def setResponseTimer (timeLeft : Bool) : OCGCore :=
  { core with timerRunning := table.hasTimeLimit && timeLeft }

def setLastResponseRequestMsg (side : Side) : OCGCore :=
  { core with lastResponseRequestMsg := some side, isRetrying := false, responseSide := some side }

/-- What the last step of routing a message does. A RETRY takes the last response back out of the
record. -/
def handleResponseOrRetry (message : EngineMessage) (timeLeft : Bool) : OCGCore :=
  match message with
  | .request side => (core.setLastResponseRequestMsg side).setResponseTimer table timeLeft
  | .retry =>
    if core.responseSide.isSome then
      { core with
        responses := core.responses.dropLast
        isRetrying := true
        rejected := [] }.setResponseTimer table timeLeft
    else { core with rejected := [] }
  | _ =>
    if core.responseSide.isSome && core.lastResponseRequestMsg.isNone then
      { core with responseSide := none }
    else core

/-- How the engine goes on with what it was handed: a RETRY rejects it and prompts the same side
again, anything else accepts it. -/
def judge (message : EngineMessage) : OCGCore :=
  match message with
  | .retry =>
    { core with
      rejected := core.rejected ++ core.outstanding
      outstanding := []
      prompts := core.prompts ++
        [core.asked.bind (fun side => table.getActivePlayer side core.turn)] }
  | .request side =>
    { core with
      accepted := core.accepted ++ core.outstanding
      outstanding := []
      asked := some side
      prompts := core.prompts ++ [table.getActivePlayer side core.turn] }
  | .newTurn =>
    { core with
      accepted := core.accepted ++ core.outstanding
      outstanding := []
      turn := core.turn + 1 }
  | _ =>
    { core with
      accepted := core.accepted ++ core.outstanding
      outstanding := [] }

/-- An advance loop that waits for the engine gets its next message. A WIN is not routed: it
disposes of the engine, which says nothing more. -/
def advance (loop : Nat) (message : EngineMessage) : OCGCore :=
  match core.advancing[loop]? with
  | some none =>
    if core.hasOcgcore then
      let judged := core.judge table message
      { judged with
        advancing := if message = .win then core.advancing.eraseIdx loop
          else core.advancing.set loop (some message) }
    else { core with advancing := core.advancing.eraseIdx loop }
  | _ => core

/-- Whether a loop stops after a message: the engine waits for a response. -/
def stops : EngineMessage → Bool
  | .request _ => true
  | .retry => true
  | _ => false

/-- A loop is done with routing its message. -/
def routed (loop : Nat) (timeLeft : Bool) : OCGCore :=
  match core.advancing[loop]? with
  | some (some message) =>
    let handled := core.handleResponseOrRetry table message timeLeft
    { handled with
      advancing := if stops message then core.advancing.eraseIdx loop
        else core.advancing.set loop none }
  | _ => core

/-- The card and zone updates a message asks for are routed with it. A RETRY asks for none. -/
def refreshed (loop : Nat) : OCGCore :=
  match core.advancing[loop]? with
  | some (some message) =>
    if message = .retry then core else core.handleResponseOrRetry table .other false
  | _ => core

/-- The engine has no more to say to a loop that waits for it. -/
def advanceEnds (loop : Nat) : OCGCore :=
  match core.advancing[loop]? with
  | some none => { core with advancing := core.advancing.eraseIdx loop }
  | _ => core

def dispose : OCGCore := { core with hasOcgcore := false, timerRunning := false }

/-- The engine fails a loop that waits for it or refreshes what a message changed: the engine is
dropped and a drawn WIN is routed. -/
def handleAdvanceError (loop : Nat) : OCGCore :=
  match core.advancing[loop]? with
  | none => core
  | some message =>
    if message = some .retry then core
    else
      { core.dispose with advancing := core.advancing.eraseIdx loop }.handleResponseOrRetry table
        .other false

/-- A timer that runs out takes the prompt back. -/
def handleResponseTimeout : OCGCore :=
  if core.timerRunning then { core with timerRunning := false, responseSide := none } else core

/-- A reconnecting player whose answer is awaited gets the request again. -/
def resendResponseRequestToClient (client : ClientRef) (timeLeft : Bool) : OCGCore :=
  if core.responsePlayer table = some client && core.lastResponseRequestMsg.isSome then
    core.setResponseTimer table timeLeft
  else core

end

/-! ## Steps -/

inductive CoreInput where
  | response (client : ClientRef) (response : Response)
  | answered (taken : Bool)
  | message (loop : Nat) (message : EngineMessage)
  | refreshed (loop : Nat)
  | routed (loop : Nat) (timeLeft : Bool)
  | advanceEnds (loop : Nat)
  | advanceFails (loop : Nat)
  | refreshZones
  | resend (client : ClientRef) (timeLeft : Bool)
  | responseTimeout
  | dispose
  deriving DecidableEq, Repr

/-- One uninterrupted stretch of the wrapper's work. `refreshZones` is an update routed for a
reconnecting player, outside of every advance loop. -/
def step (table : DuelTable) (core : OCGCore) : CoreInput → OCGCore
  | .response client response => core.handleResponse table client response
  | .answered taken => core.answered taken
  | .message loop message => core.advance table loop message
  | .refreshed loop => core.refreshed table loop
  | .routed loop timeLeft => core.routed table loop timeLeft
  | .advanceEnds loop => core.advanceEnds loop
  | .advanceFails loop => core.handleAdvanceError table loop
  | .refreshZones => core.handleResponseOrRetry table .other false
  | .resend client timeLeft => core.resendResponseRequestToClient table client timeLeft
  | .responseTimeout => core.handleResponseTimeout
  | .dispose => core.dispose

end OCGCore

end EdoproServer.Engine
