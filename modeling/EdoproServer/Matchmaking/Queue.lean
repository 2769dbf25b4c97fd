import EdoproServer.Matchmaking.Pool

namespace EdoproServer.Matchmaking
open Lib MatchmakingPool

inductive QueueEntryState where
  | searching
  | matched
  deriving DecidableEq, Repr

/-- The record a polling client reads its outcome from. -/
structure QueueEntry where
  ticketId : String
  userId : UserId
  format : MatchmakingFormat
  enteredAt : Int
  botFallbackAfterMs : Option Int
  displayName : Option String
  lastPollAt : Int
  state : QueueEntryState
  roomPassword : Option String
  roomId : Option Nat
  opponentType : Option OpponentType
  opponentName : Option String
  rated : Option Bool
  deriving DecidableEq, Repr

inductive MatchmakingQueueState where
  | idle
  | queued
  | matched
  deriving DecidableEq, Repr

/-- Per-connection identity, queue state and whether PLAYER_INFO was captured. The connection is
authenticated once `resolvedUserId` is there. -/
structure Session where
  resolvedUserId : Option UserId
  resolvedDisplayName : Option String
  playerInfo : Bool
  queueState : MatchmakingQueueState
  deriving DecidableEq, Repr

def Session.fresh : Session :=
  { resolvedUserId := none, resolvedDisplayName := none, playerInfo := false, queueState := .idle }

/-- Everything around the pool: the poll records (`entries` holds the objects, `records` lists the
tickets the queue knows), the queue's user index, the connections, and the bot module. -/
structure Lobby where
  entries : InsertionMap String QueueEntry
  records : List String
  usersInQueue : InsertionMap UserId String
  sessions : InsertionMap String Session
  closedSockets : List String
  botUp : Bool

namespace Lobby

def empty : Lobby :=
  { entries := .empty, records := [], usersInQueue := .empty, sessions := .empty,
    closedSockets := [], botUp := false }

def session (lobby : Lobby) (socketId : String) : Session :=
  (lobby.sessions.get socketId).getD Session.fresh

def setSession (lobby : Lobby) (socketId : String) (session : Session) : Lobby :=
  { lobby with sessions := lobby.sessions.set socketId session }

def closeSocket (lobby : Lobby) (socketId : String) : Lobby :=
  { lobby with closedSockets := lobby.closedSockets.insert socketId }

def setEntry (lobby : Lobby) (entry : QueueEntry) : Lobby :=
  { lobby with entries := lobby.entries.set entry.ticketId entry }

/-- The record of a ticket the queue knows. -/
def record (lobby : Lobby) (ticketId : String) : Option QueueEntry :=
  if ticketId ∈ lobby.records then lobby.entries.get ticketId else none

def removeRecord (lobby : Lobby) (entry : QueueEntry) : Lobby :=
  { lobby with
    records := lobby.records.filter (fun ticketId => ticketId ≠ entry.ticketId)
    usersInQueue := lobby.usersInQueue.delete entry.userId }

/-- A socket is alive until it closes, a poll participant while its polls keep coming. -/
def isAlive (lobby : Lobby) (p : Participant) (time : Int) : Bool :=
  match p.presence with
  | .socket => p.id ∉ lobby.closedSockets
  | .poll =>
    match lobby.entries.get p.id with
    | none => false
    | some entry => time - entry.lastPollAt ≤ QUEUE_TTL_MS

/-- Poll participants are pulled, never pushed; a socket is only ever closed for good. -/
def call (p : Participant) (message : ChannelCall) (lobby : Lobby) : Lobby :=
  match p.presence, message with
  | .socket, .close _ => lobby.closeSocket p.id
  | _, _ => lobby

end Lobby

structure MatchFoundNotice where
  roomId : Nat
  roomPassword : String
  opponentType : OpponentType
  rated : Bool
  opponentName : Option String
  deriving DecidableEq, Repr

/-- FOUND is a frame for a socket and an update of the record for a poll participant. -/
def found (notice : MatchFoundNotice) (lobby : Lobby) (p : Participant) : Lobby :=
  match p.presence with
  | .socket => lobby
  | .poll =>
    match lobby.entries.get p.id with
    | none => lobby
    | some entry => { lobby with
        entries := lobby.entries.set p.id { entry with
          state := .matched
          roomId := some notice.roomId
          roomPassword := some notice.roomPassword
          opponentType := some notice.opponentType
          rated := some notice.rated
          opponentName := notice.opponentName } }

/-- `room` is the id and the join string of the room created for a match. `raisesAfter` says
whether its provisioning raised, and after how many participants had been sent FOUND. -/
structure MatchmakingQueueDeps where
  now : Nat → Int
  newMatchId : Nat → String
  version : Nat
  room : Match → Nat × String
  raisesAfter : Match → Option Nat

namespace ProvisionMatchRoom

def missing (m : Match) : List Participant :=
  m.participants.filter (fun p => p.presence = .socket ∧ p.admission = false)

def notice (deps : MatchmakingQueueDeps) (m : Match) (p : Participant) : MatchFoundNotice :=
  { roomId := (deps.room m).1
    roomPassword := (deps.room m).2
    opponentType := m.opponentKind
    rated := m.rated
    opponentName := (m.participants.find? (fun q => q.id ≠ p.id)).bind Participant.displayName }

def tell (deps : MatchmakingQueueDeps) (m : Match) (told : List Participant) (lobby : Lobby) :
    Lobby :=
  told.foldl (fun lobby p => found (notice deps m p) lobby p) lobby

/-- Turns a match into a room. A socket participant without PLAYER_INFO is rejected before any
room is created and the others go back to the pool; when anything else raises, everyone does. -/
def handle (deps : MatchmakingQueueDeps) (m : Match) (lobby : Lobby) : Lobby × List Participant :=
  if missing m ≠ [] then
    ((missing m).foldl (fun lobby p => lobby.call p (.close .missingPlayerInfo)) lobby,
      m.participants.filter (fun p => p ∉ missing m))
  else
    match deps.raisesAfter m with
    | none => (tell deps m m.participants lobby, [])
    | some told => (tell deps m (m.participants.take told) lobby, m.participants)

end ProvisionMatchRoom

/-- The pool the queue builds. -/
def MatchmakingQueueDeps.pool (deps : MatchmakingQueueDeps) : MatchmakingPoolDeps Lobby :=
  { now := deps.now
    newMatchId := deps.newMatchId
    botAvailable := Lobby.botUp
    isAlive := Lobby.isAlive
    call := fun p message lobby => lobby.call p message
    handle := ProvisionMatchRoom.handle deps }

structure EnqueueInput where
  ticketId : String
  userId : UserId
  format : MatchmakingFormat
  displayName : Option String
  botFallbackAfterMs : Option Int
  deriving DecidableEq, Repr

structure EnterMatchmakingInput where
  format : MatchmakingFormat
  mode : MatchmakingMode
  clientVersion : Nat
  botFallbackAfterMs : Option Int
  supportsAcceptStep : Option Bool
  deriving DecidableEq, Repr

inductive PollResult where
  | searching (waitedMs : Int)
  | matched (roomPassword : Option String) (opponentType : Option OpponentType)
      (opponentName : Option String) (rated : Option Bool)
  deriving DecidableEq, Repr

namespace MatchmakingQueue

variable (deps : MatchmakingQueueDeps)

def updateLobby (f : Lobby → Lobby) : PoolM Lobby Unit :=
  modify fun s => { s with world := f s.world }

/-- Whether the tick that just ran leaves the record nothing to wait for: it searches for nobody
in the pool, or its grace window has passed. -/
def closed (time : Int) (s : PoolState Lobby) (entry : QueueEntry) : Bool :=
  match entry.state with
  | .searching => !isQueued s entry.ticketId
  | .matched => MATCHED_GRACE_MS < time - entry.lastPollAt

/-- Keeps the queue's bookkeeping in sync with the pool after a tick. -/
def reconcile : PoolM Lobby Unit := do
  let time ← now deps.pool
  let s ← get
  forM s.world.records fun ticketId =>
    modify fun s' =>
      match s'.world.entries.get ticketId with
      | none => s'
      | some entry =>
        if closed time s' entry then { s' with world := s'.world.removeRecord entry } else s'

def tick : PoolM Lobby Unit := do
  perform deps.pool .tick
  reconcile deps

def newRecord (input : EnqueueInput) (time : Int) : QueueEntry :=
  { ticketId := input.ticketId
    userId := input.userId
    format := input.format
    enteredAt := time
    botFallbackAfterMs := input.botFallbackAfterMs
    displayName := input.displayName
    lastPollAt := time
    state := .searching
    roomPassword := none
    roomId := none
    opponentType := none
    opponentName := none
    rated := none }

def pollParticipant (ref : Nat) (input : EnqueueInput) (time : Int) : Participant :=
  { ref := ref
    id := input.ticketId
    userId := input.userId
    format := input.format
    mode := .ranked
    displayName := input.displayName
    enqueuedAt := time
    botFallbackAfterMs := input.botFallbackAfterMs
    supportsAcceptStep := none
    presence := .poll
    admission := false }

def register (input : EnqueueInput) (lobby : Lobby) : Lobby :=
  { lobby with
    records :=
      if input.ticketId ∈ lobby.records then lobby.records else lobby.records ++ [input.ticketId]
    usersInQueue := lobby.usersInQueue.set input.userId input.ticketId }

/-- A user the queue knows is refused, and so is one the pool holds over a socket. -/
def enqueue (ref : Nat) (input : EnqueueInput) : PoolM Lobby Unit := do
  if (← get).world.usersInQueue.has input.userId then
    throw { userId := input.userId }
  let time ← now deps.pool
  updateLobby (fun lobby => lobby.setEntry (newRecord input time))
  perform deps.pool (.add (pollParticipant ref input time))
  updateLobby (register input)
  tick deps

/-- Refreshes the record's heartbeat and reports its state. -/
def poll (ticketId : String) : PoolM Lobby (Option PollResult) := do
  match (← get).world.record ticketId with
  | none => return none
  | some entry =>
    let time ← now deps.pool
    updateLobby (fun lobby => lobby.setEntry { entry with lastPollAt := time })
    match entry.state with
    | .matched =>
      return some (.matched entry.roomPassword entry.opponentType entry.opponentName entry.rated)
    | .searching =>
      let time ← now deps.pool
      return some (.searching (time - entry.enteredAt))

def cancel (ticketId : String) : PoolM Lobby Bool := do
  match (← get).world.record ticketId with
  | none => return false
  | some entry =>
    perform deps.pool (.remove ticketId)
    updateLobby (fun lobby => lobby.removeRecord entry)
    return true

/-- Releases every matched reservation owned by an incomplete room. -/
def abortRoom (roomId : Nat) : PoolM Lobby Unit := do
  let lobby := (← get).world
  forM (lobby.records.filterMap lobby.record) fun entry => do
    if entry.roomId = some roomId then
      perform deps.pool (.remove entry.ticketId)
      updateLobby (fun lobby => lobby.removeRecord entry)

def socketParticipant (ref : Nat) (socketId : String) (userId : UserId) (session : Session)
    (input : EnterMatchmakingInput) (time : Int) : Participant :=
  { ref := ref
    id := socketId
    userId := userId
    format := input.format
    mode := input.mode
    displayName := session.resolvedDisplayName
    enqueuedAt := time
    botFallbackAfterMs := input.botFallbackAfterMs
    supportsAcceptStep := input.supportsAcceptStep
    presence := .socket
    admission := true }

/-- The checks of MATCHMAKING_ENTER, in their order: the user let through, or why not. -/
def enterGate (session : Session) (input : EnterMatchmakingInput) : Except RejectionReason UserId :=
  match session.resolvedUserId with
  | none => .error .notAuthenticated
  | some userId =>
    if session.playerInfo = false then .error .missingPlayerInfo
    else if input.clientVersion ≠ deps.version then .error .versionMismatch
    else if session.queueState = .queued then .error .alreadyQueued
    else .ok userId

/-- Handles MATCHMAKING_ENTER and returns the reason it was rejected with, if it was. -/
def enter (ref : Nat) (socketId : String) (input : EnterMatchmakingInput) :
    PoolM Lobby (Option RejectionReason) := do
  let session := (← get).world.session socketId
  match enterGate deps session input with
  | .error reason =>
    if reason = .versionMismatch then
      updateLobby (fun lobby => lobby.closeSocket socketId)
    return some reason
  | .ok userId =>
    let time ← now deps.pool
    perform deps.pool (.add (socketParticipant ref socketId userId session input time))
    updateLobby (fun lobby =>
      lobby.setSession socketId { lobby.session socketId with queueState := .queued })
    perform deps.pool .tick
    return none

/-- Handles MATCHMAKING_CANCEL across the three possible queue states. -/
def cancelMatchmaking (socketId : String) : PoolM Lobby (Option RejectionReason) := do
  match ((← get).world.session socketId).queueState with
  | .matched => return some .cancelTooLate
  | .queued =>
    perform deps.pool (.dequeueBySocketId socketId)
    updateLobby (fun lobby =>
      lobby.setSession socketId { lobby.session socketId with queueState := .idle })
    return none
  | .idle => return none

/-- `Session.authenticate`, which refuses a second identity. -/
def authenticate (socketId : String) (userId : UserId) (displayName : Option String) :
    PoolM Lobby Unit :=
  updateLobby fun lobby =>
    if (lobby.session socketId).resolvedUserId.isSome then lobby
    else lobby.setSession socketId { lobby.session socketId with
      resolvedUserId := some userId
      resolvedDisplayName := displayName }

def capturePlayerInfo (socketId : String) : PoolM Lobby Unit :=
  updateLobby fun lobby =>
    lobby.setSession socketId { lobby.session socketId with playerInfo := true }

end MatchmakingQueue

/-- What clients, rooms, timers and the bot module make the queue do. -/
inductive QueueRequest where
  | enqueue (ref : Nat) (input : EnqueueInput)
  | poll (ticketId : String)
  | cancel (ticketId : String)
  | abortRoom (roomId : Nat)
  | tick
  | authenticate (socketId : String) (userId : UserId) (displayName : Option String)
  | capturePlayerInfo (socketId : String)
  | enter (ref : Nat) (socketId : String) (input : EnterMatchmakingInput)
  | cancelMatchmaking (socketId : String)
  | accept (socketId matchId : String)
  | decline (socketId matchId : String)
  | socketClosed (socketId : String)
  | botModule (up : Bool)
  deriving DecidableEq, Repr

namespace MatchmakingQueue

def serve (deps : MatchmakingQueueDeps) : QueueRequest → PoolM Lobby Unit
  | .enqueue ref input => enqueue deps ref input
  | .poll ticketId => discard (poll deps ticketId)
  | .cancel ticketId => discard (cancel deps ticketId)
  | .abortRoom roomId => abortRoom deps roomId
  | .tick => tick deps
  | .authenticate socketId userId displayName => authenticate socketId userId displayName
  | .capturePlayerInfo socketId => capturePlayerInfo socketId
  | .enter ref socketId input => discard (enter deps ref socketId input)
  | .cancelMatchmaking socketId => discard (cancelMatchmaking deps socketId)
  | .accept socketId matchId => perform deps.pool (.accept matchId socketId)
  | .decline socketId matchId => perform deps.pool (.decline matchId socketId)
  | .socketClosed socketId => do
    updateLobby (fun lobby => lobby.closeSocket socketId)
    perform deps.pool (.dequeueBySocketId socketId)
  | .botModule up => updateLobby (fun lobby => { lobby with botUp := up })

end MatchmakingQueue

end EdoproServer.Matchmaking
