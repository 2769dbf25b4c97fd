import EdoproServer.Decks.Validators
import EdoproServer.Lib.InsertionMap
import EdoproServer.Room.Match
import Mathlib.Data.List.Sort
import Mathlib.Logic.Function.Basic

namespace EdoproServer.Room
open Decks Lib

/-! ## Who is in a room -/

/-- How a client authenticated when it joined. -/
inductive PlayerCredential where
  | guest
  | external (userId : UserId)
  | verified (userId : UserId)
  deriving DecidableEq, Repr

def PlayerCredential.userId : PlayerCredential → Option UserId
  | .guest => none
  | .external userId => some userId
  | .verified userId => some userId

inductive RoomLeague where
  | verified
  | external
  | casual
  deriving DecidableEq, Repr

namespace RoomLeague

def isRanked (league : RoomLeague) : Bool := league ≠ .casual

/-- A verified player may step down into an external room, nobody steps up. -/
def admitsAsPlayer : RoomLeague → PlayerCredential → Bool
  | .casual, _ => true
  | .verified, .verified _ => true
  | .external, .external _ => true
  | .external, .verified _ => true
  | _, _ => false

end RoomLeague

/-- What the room reads of a connection: its address and the stamps the server put on it. -/
structure Socket where
  id : Nat
  remoteAddress : Option String
  clientName : Option String
  resolvedUserId : Option UserId
  internalForRoomId : Option Nat
  watchForRoomId : Option Nat
  inviteForRoomId : Option Nat
  deriving DecidableEq, Repr

/-- `NetPlayerType.OBSERVER`, the position of everyone in the stands. -/
def OBSERVER : Nat := 7

/-- A reconnection token, by the number of tokens minted before it. -/
abbrev ReconnectionToken := Nat

structure YGOProClient where
  id : Option UserId
  name : String
  team : Team
  position : Nat
  host : Bool
  credential : Option PlayerCredential
  socket : Socket
  reconnectionToken : Option ReconnectionToken
  isInternal : Bool
  isCaptain : Bool
  isReady : Bool
  isReconnecting : Bool
  deck : Option Deck

namespace YGOProClient

def isSpectator (client : YGOProClient) : Bool := client.team = .spectator

def isStrongAuth (client : YGOProClient) : Bool :=
  match client.credential with
  | some (.verified _) => true
  | _ => false

def playerPosition (client : YGOProClient) (position : Nat) (team : Team) : YGOProClient :=
  { client with position := position, team := team }

def spectatorPosition (client : YGOProClient) (position : Nat) : YGOProClient :=
  { client with position := position, team := .spectator }

def ready (client : YGOProClient) : YGOProClient := { client with isReady := true }

def notReady (client : YGOProClient) : YGOProClient := { client with isReady := false }

def setDeck (client : YGOProClient) (deck : Deck) : YGOProClient :=
  { client with deck := some deck }

def captain (client : YGOProClient) : YGOProClient := { client with isCaptain := true }

def markInternal (client : YGOProClient) : YGOProClient := { client with isInternal := true }

def setSocket (client : YGOProClient) (socket : Socket) : YGOProClient :=
  { client with socket := socket }

def reconnecting (client : YGOProClient) : YGOProClient := { client with isReconnecting := true }

def clearReconnecting (client : YGOProClient) : YGOProClient :=
  { client with isReconnecting := false }

def setReconnectionToken (client : YGOProClient) (token : ReconnectionToken) : YGOProClient :=
  { client with reconnectionToken := some token }

def clearReconnectionToken (client : YGOProClient) : YGOProClient :=
  { client with reconnectionToken := none }

end YGOProClient

/-- The side deck may only rearrange the cards of the deck it replaces. -/
def isSideDeckValid (deck : Deck) (main side : List Nat) : Bool :=
  let old := deck.allCards.map Card.code
  let new := main ++ side
  old.dedup.length = new.dedup.length && old.all (fun code => new.count code = old.count code)

/-! ## The configuration of a room -/

inductive DuelState where
  | waiting
  | dueling
  | rps
  | choosingOrder
  | sideDecking
  deriving DecidableEq, Repr

/-- The reservation a room was built from: which seat is whose and which decks it takes. -/
structure ReservedDuel where
  isSingle : Bool
  allowsSpectators : Bool
  locksReadyDeck : Bool
  users : List (UserId × Team)
  botSeat : Option Team
  acceptsDeck : Team → Deck → Bool
  usersSeated : ∀ user ∈ users, user.2 ≠ .spectator
  botSeated : botSeat ≠ some .spectator

namespace ReservedDuel

def seatOfUser (reserved : ReservedDuel) (userId : UserId) : Option Team :=
  (reserved.users.find? (fun user => user.1 = userId)).map Prod.snd

/-- The first human seat that never sat, else the first that never readied. -/
def noShowSeat (reserved : ReservedDuel) (seated ready : List Team) : Option Team :=
  ((reserved.users.find? (fun user => user.2 ∉ seated)).or
    (reserved.users.find? (fun user => user.2 ∉ ready))).map Prod.snd

end ReservedDuel

structure RoomConfig where
  id : Nat
  createdBySocketId : Nat
  team0 : Nat
  team1 : Nat
  bestOf : Int
  startLp : Nat
  isTag : Bool
  league : RoomLeague
  hasPassword : Bool
  noCheckDeck : Bool
  deckRules : DeckRules
  banList : BanList
  rule : YGOProRule
  sideTimeoutMinutes : Nat
  noHost : Bool
  noReconnect : Bool
  isMatchmaking : Bool
  reservedUserIds : List UserId
  reservedDuel : Option ReservedDuel

namespace RoomConfig

def ranked (cfg : RoomConfig) : Bool := cfg.league.isRanked

def shouldValidateDeck (cfg : RoomConfig) : Bool :=
  cfg.reservedDuel.isSome || !cfg.noCheckDeck

def hasDeckError (cfg : RoomConfig) (deck : Deck) : Bool :=
  cfg.shouldValidateDeck &&
    (YGOProDeckValidator.validate cfg.deckRules cfg.banList cfg.rule deck).isSome

def t0Positions (cfg : RoomConfig) : List Nat := List.range cfg.team0

def t1Positions (cfg : RoomConfig) : List Nat := (List.range cfg.team1).map (cfg.team0 + ·)

end RoomConfig

/-- Who asks to join: the name it announced, whether it came with a PIN, and its connection. -/
structure JoinRequest where
  name : String
  hasPin : Bool
  socket : Socket
  deriving DecidableEq, Repr

/-! ## The state of a room -/

/-- The entry of a token in the index that all rooms share. -/
structure TokenEntry where
  client : ClientRef
  roomId : Nat
  deriving DecidableEq, Repr

abbrev TokenIndex := InsertionMap ReconnectionToken TokenEntry

/-- What rooms share: which connections have closed, the index of tokens and how many were
minted. -/
structure Outside where
  closedSockets : List Nat
  tokens : TokenIndex
  minted : Nat

/-- The clients of a room. `players` and `spectators` are in the order they sat down. -/
structure Seating extends Outside where
  client : ClientRef → YGOProClient
  nextClient : ClientRef
  players : List ClientRef
  spectators : List ClientRef

/-- `epoch` numbers the room state objects: the current one is the `epoch`-th, its listeners are
the only ones on the emitter, and `handResult`, `pendingSurrenders` and `sideTimers` are its. -/
structure Phase where
  duelState : DuelState
  epoch : Nat
  listening : Bool
  handResult : Nat × Nat
  pendingSurrenders : List Nat
  sideTimers : List Nat
  clientWhoChoosesTurn : Option ClientRef
  turnChoiceRequiresRps : Bool
  isPositionSwapped : Bool

structure DuelRecord where
  decks : List (ClientRef × Deck)
  winPosition : Option Winner

/-- The engine of a duel: the room state it belongs to and which duel of which match it plays. -/
structure Core where
  state : Nat
  matchId : Nat
  duel : Nat
  deriving DecidableEq, Repr

/-- The match and its duels. `duels` counts the duels the match has started. -/
structure Contest where
  currentMatch : Option Match
  matchId : Nat
  duels : Nat
  currentDuel : Option Duel
  duelIds : List DuelId
  nextDuelId : DuelId
  duelRecords : List DuelRecord
  cores : List Core

/-- A callback queued behind the room's mutex. -/
inductive Work where
  | createDuel
  | setDecksToPlayer (client : ClientRef) (deck : Deck)
  | notReady (client : ClientRef)
  | toObserver (client : ClientRef)
  | toDuel (client : ClientRef)
  | removePlayer (client : ClientRef)
  | admission (request : JoinRequest)
  | markInternal (socket : Socket)
  | reconnect (phase : DuelState) (request : JoinRequest)

/-- A section that keeps the mutex while the identity behind a join is looked up. -/
inductive Lookup where
  | admission (request : JoinRequest)
  | reconnect (phase : DuelState) (request : JoinRequest)

/-- Something a handler left for later, with the room state in which the handler was called. -/
structure Deferred (α : Type) where
  born : Nat
  work : α

/-- How far the ending of a match has come. -/
inductive EndingStage where
  | runEnding
  | sendAllReplays
  | sendAllEvrp
  | finalizeWithReplays
  deriving DecidableEq, Repr

/-- What a handler does once the promise it awaits outside the mutex has settled. `engine` says
whether the engine called the handler. -/
inductive Continuation where
  | deckBuiltWaiting (client : ClientRef)
  | deckBuiltSiding (client : ClientRef)
  | initialized (core : Core) (decks : List (ClientRef × Deck))
  | fieldCounted (core : Core)
  | responded
  | resynced (client : ClientRef) (express : Bool)
  | duelProcessed (winner : Winner) (engine : Bool)
  | ending (stage : EndingStage) (engine : Bool)
  | abandonEnding

/-- What is pending: the holder of the mutex, who waits for it, the handlers that await something
else, and the grace timers of players who left between duels. -/
structure Agenda where
  held : Option (Deferred Lookup)
  queue : List (Deferred Work)
  suspended : List (Deferred Continuation)
  graceTimers : List (Nat × ClientRef)

inductive AbandonReason where
  | disconnect
  | roomClosed
  | noShow
  | botUnavailable
  deriving DecidableEq, Repr

structure ReservedDuelAbandon where
  seat : Option Team
  reason : AbandonReason
  deriving DecidableEq, Repr

/-- The progress of a reservation. -/
structure SessionProgress where
  started : Bool
  gameOver : Bool
  closed : Bool
  deriving DecidableEq, Repr

/-- What changes of a duel while it is played. -/
inductive DuelUpdate where
  | turn
  | damage (team : Team) (value : Nat)
  | recover (team : Team) (value : Nat)
  | finished
  deriving DecidableEq, Repr

/-- What is observed of a room, the newest last. `born` is the room state in which the handler
was called, `now` the one it ran in. -/
inductive RoomEvent where
  | moved (born now : Nat) (source target : DuelState)
  | matchStarted (born matchId : Nat)
  | sided (born : Nat)
  | deckAccepted (now : Nat) (client : ClientRef) (deck : Deck)
  | dueled (now : Nat) (decks : List (ClientRef × Deck))
  | duelStarted (matchId duel : Nat)
  | updated (matchId duel : Nat) (object : Option DuelId) (ids : List DuelId)
      (update : DuelUpdate)
  | scored (matchId duel : Nat)
  | gameOver (matchId : Nat)
  | abandoned (abandon : ReservedDuelAbandon) (started : Bool)
  | closed

/-- A room of the YGOPro server. -/
structure YGOProRoom extends Seating, Phase, Contest, Agenda where
  noHost : Bool
  noReconnect : Bool
  finalizing : Bool
  session : SessionProgress
  log : List RoomEvent

namespace YGOProRoom

def nobody : YGOProClient :=
  { id := none, name := "", team := .spectator, position := OBSERVER, host := false,
    credential := none,
    socket := { id := 0, remoteAddress := none, clientName := none, resolvedUserId := none,
                internalForRoomId := none, watchForRoomId := none, inviteForRoomId := none },
    reconnectionToken := none, isInternal := false, isCaptain := false, isReady := false,
    isReconnecting := false, deck := none }

/-- A room that was just created, in its first waiting state. -/
def create (cfg : RoomConfig) (outside : Outside) : YGOProRoom :=
  { toOutside := outside, client := fun _ => nobody, nextClient := 0, players := [],
    spectators := [], duelState := .waiting, epoch := 0, listening := true, handResult := (0, 0),
    pendingSurrenders := [], sideTimers := [], clientWhoChoosesTurn := none,
    turnChoiceRequiresRps := false, isPositionSwapped := false, currentMatch := none,
    matchId := 0, duels := 0, currentDuel := none, duelIds := [], nextDuelId := 0,
    duelRecords := [], cores := [], held := none, queue := [], suspended := [],
    graceTimers := [], noHost := cfg.noHost, noReconnect := cfg.noReconnect, finalizing := false,
    session := { started := false, gameOver := false, closed := false }, log := [] }

/-! ### What the room reads of itself -/

section

variable (cfg : RoomConfig) (room : YGOProRoom)

def clients : List ClientRef := room.players ++ room.spectators

def isClosed (socket : Socket) : Bool := socket.id ∈ room.closedSockets

/-- Whether the connection of a client is still open. -/
def isLive (c : ClientRef) : Bool := !room.isClosed (room.client c).socket

def getTeamPlayers (team : Team) : List ClientRef :=
  (room.players.filter (fun c => (room.client c).team = team)).insertionSort
    (fun a b => (room.client a).position ≤ (room.client b).position)

def allPlayersReady : Bool := room.players.all (fun c => (room.client c).isReady)

def isPlayersFull : Bool := !cfg.isTag && room.players.length = 2

def hasNoConnectedPlayers : Bool := room.players.all (fun c => !room.isLive c)

/-- No match counts as a finished one. A single reserved duel ends with its first duel. -/
def isMatchFinished : Bool :=
  match room.currentMatch with
  | none => true
  | some m => m.isOver (cfg.reservedDuel.any ReservedDuel.isSingle)

def hasPlayedAnyDuel : Bool := room.currentMatch.any Match.hasPlayedAnyDuel

/-- Reads the Duel object of the moment, if there is one. -/
def isFinished : Bool := room.currentDuel.any Duel.finished

def turn : Nat := (room.currentDuel.map Duel.turn).getD 0

def isBetweenDuels : Bool :=
  room.duelState = .rps || room.duelState = .choosingOrder || room.duelState = .sideDecking

def freePositions (team : Team) (positions : List Nat) : List Nat :=
  positions.filter (fun position =>
    position ∉ (room.players.filter (fun c => (room.client c).team = team)).map
      (fun c => (room.client c).position))

/-- The first free seat of the first team, then of the second. -/
def calculatePlace : Option (Nat × Team) :=
  match room.freePositions .player cfg.t0Positions with
  | position :: _ => some (position, .player)
  | [] =>
    match room.freePositions .opponent cfg.t1Positions with
    | position :: _ => some (position, .opponent)
    | [] => none

/-- The positions of both teams in ascending order, the occupied ones left out. -/
def freeCells : List Nat :=
  ((cfg.t1Positions ++ cfg.t0Positions).insertionSort (· ≤ ·)).filter (fun p =>
    p ∉ room.players.map (fun c => (room.client c).position))

/-- The next free cell after a position, wrapping around. Past the end, the team is that of the
very first position. -/
def nextAvailablePosition (position : Nat) : Option (Nat × Team) :=
  match room.freeCells cfg with
  | [] => none
  | first :: rest =>
    match (first :: rest).filter (fun p => position < p) with
    | next :: _ => some (next, if next ∈ cfg.t0Positions then .player else .opponent)
    | [] =>
      let lowest := ((cfg.t1Positions ++ cfg.t0Positions).insertionSort (· ≤ ·)).head?
      some (first, if lowest ∈ cfg.t0Positions.map some then .player else .opponent)

def canAcceptInvitation : Bool :=
  !cfg.hasPassword && !cfg.isMatchmaking && cfg.reservedUserIds = [] && !room.finalizing &&
    room.duelState = .waiting && (room.calculatePlace cfg).isSome

/-- Whether a live client of the user is seated. -/
def holdsLiveSeat (userId : UserId) : Bool :=
  room.players.any (fun c => (room.client c).id = some userId && room.isLive c)

/-- The reservation gate of the JOIN door, evaluated in every room state. -/
def reservationAdmits (socket : Socket) : Bool :=
  if cfg.reservedUserIds = [] then true
  else if socket.internalForRoomId = some cfg.id then true
  else if socket.watchForRoomId = some cfg.id then
    cfg.reservedDuel.all ReservedDuel.allowsSpectators
  else
    match socket.resolvedUserId with
    | none => false
    | some userId => userId ∈ cfg.reservedUserIds && !room.holdsLiveSeat userId

/-- The seat-taking form of the reservation gate. -/
def reservationPermitsSeat (socket : Socket) : Bool :=
  if cfg.reservedUserIds = [] then true
  else
    match socket.resolvedUserId with
    | none => false
    | some userId => userId ∈ cfg.reservedUserIds && !room.holdsLiveSeat userId

/-- The one seat a reserved duel holds for this socket. -/
def reservedSeatFor (reserved : ReservedDuel) (socket : Socket) : Option (Nat × Team) :=
  let team := if socket.internalForRoomId = some cfg.id then reserved.botSeat
    else socket.resolvedUserId.bind reserved.seatOfUser
  match team with
  | none => none
  | some team =>
    if room.players.any (fun c => (room.client c).team = team) then none
    else
      match team with
      | .player => cfg.t0Positions.head?.map (fun position => (position, team))
      | _ => cfg.t1Positions.head?.map (fun position => (position, team))

/-- The seat a joining socket is offered. A watcher is offered none. -/
def freeSeat (socket : Socket) : Option (Nat × Team) :=
  if socket.inviteForRoomId = some cfg.id && !room.canAcceptInvitation cfg then none
  else if socket.watchForRoomId = some cfg.id then none
  else
    match cfg.reservedDuel with
    | some reserved => room.reservedSeatFor cfg reserved socket
    | none => room.calculatePlace cfg

def isNameTaken (name : String) : Bool := room.players.any (fun c => (room.client c).name = name)

/-- Whether a seat may be handed back by name, the identity behind a ranked seat apart. -/
def isReconnectEligibleSeat (request : JoinRequest) (c : ClientRef) : Bool :=
  let client := room.client c
  !client.isStrongAuth && client.name = request.name &&
    (cfg.ranked ||
      (client.socket.remoteAddress = request.socket.remoteAddress && !room.isLive c))

/-- The seat a by-name JOIN is reconnecting to. -/
def findReconnectingPlayer (request : JoinRequest) (joinerUserId : Option UserId) :
    Option ClientRef :=
  room.players.find? (fun c =>
    room.isReconnectEligibleSeat cfg request c &&
      (!cfg.ranked ||
        match (room.client c).credential with
        | none => true
        | some (.external userId) => joinerUserId = some userId
        | some _ => false))

/-- A watcher never reclaims a seat. -/
def findMidDuelReconnectingPlayer (request : JoinRequest) (joinerUserId : Option UserId) :
    Option ClientRef :=
  if request.socket.watchForRoomId = some cfg.id then none
  else room.findReconnectingPlayer cfg request joinerUserId

/-- `sendDeckCountMessage` reads the first player of either team. -/
def deckCountRaises : Bool :=
  room.getTeamPlayers .player = [] || room.getTeamPlayers .opponent = []

/-- The captured connections of the players, for the match history. -/
def connections : List PlayerConnection :=
  room.players.map (fun c =>
    { name := (room.client c).name
      ipAddress := (room.client c).socket.remoteAddress
      client := (room.client c).socket.clientName })

end

end YGOProRoom

end EdoproServer.Room
