import EdoproServer.Room.Calls

namespace EdoproServer.Room
open Decks Lib

/-! ## What comes to a room -/

/-- What a client of the room sends. -/
inductive Message where
  | tryStart
  | toObserver
  | toDuel
  | notReady
  | updateDeck (main side : List Nat)
  | rpsChoice (result : Nat)
  | turnChoice (first : Bool)
  | surrender
  | response
  deriving DecidableEq, Repr

/-- What the engine of a duel reports. The side of a new turn matters to a tag duel only. -/
inductive EngineMessage where
  | newTurn (side : Nat)
  | damage (team : Team) (value : Nat)
  | recover (team : Team) (value : Nat)
  | payLpCost (team : Team) (value : Nat)
  | win (winner : Winner)
  deriving DecidableEq, Repr

/-- How a promise settled. A deck that cannot be built is a result, not a failure. -/
inductive Settled where
  | done
  | built (deck : Option Deck)
  | raised

/-- What happens to a room next. `grant` gives the mutex to the first of the queue, `answered`
and `lookupFailed` end the lookup that keeps it, `settled` resumes a suspended handler. -/
inductive RoomInput where
  | join (request : JoinRequest)
  | matchAdmit (request : JoinRequest)
  | botJoin (request : JoinRequest)
  | expressReconnect (token : ReconnectionToken) (socket : Socket)
  | message (sender : ClientRef) (message : Message)
  | grant
  | answered (account : Option UserId)
  | lookupFailed
  | settled (index : Nat) (result : Settled)
  | engine (core : Core) (message : EngineMessage)
  | finishDuelByTimeout (winner : Winner)
  | sideTimeout (c : ClientRef)
  | graceOver (position : Nat)
  | disconnect (socketId : Nat)
  | lobbyTimeout
  | closeRoom

namespace YGOProRoom

section

variable (cfg : RoomConfig) (room : YGOProRoom)

/-! ## Joining -/

/-- The identity behind a join, from what was found about its ticket or its PIN. -/
def resolveCredential (request : JoinRequest) (account : Option UserId) : PlayerCredential :=
  match request.socket.resolvedUserId with
  | some userId => if account.isSome then .verified userId else .guest
  | none =>
    if request.hasPin then
      match account with
      | some userId => .external userId
      | none => .guest
    else .guest

/-- Whether a socket came with an invitation to this room. -/
def isInvited (socket : Socket) : Bool := socket.inviteForRoomId = some cfg.id

/-- The gates in front of the mutex: the reservation, then, in the lobby, the name. -/
def handleJoin (request : JoinRequest) : List Call :=
  if !room.reservationAdmits cfg request.socket then [.closeSocket request.socket.id]
  else if room.duelState = .waiting then
    if room.isNameTaken request.name then [.closeSocket request.socket.id]
    else [.enqueue { born := room.epoch, work := .admission request }]
  else [.enqueue { born := room.epoch, work := .reconnect room.duelState request }]

/-- Seats the newcomer, unless its invitation is no longer good. -/
def seatPlayer (request : JoinRequest) (credential : PlayerCredential) (place : Nat × Team) :
    List Call :=
  if isInvited cfg request.socket &&
      (!room.canAcceptInvitation cfg || room.isClosed request.socket) then
    [.closeSocket request.socket.id]
  else [.addPlayer request credential place]

def admitSpectator (request : JoinRequest) (credential : PlayerCredential) : List Call :=
  if isInvited cfg request.socket then [.closeSocket request.socket.id]
  else [.addSpectator request.name request.socket (some credential)]

/-- A guest is rejected from a ranked room. A client sits if the league admits it and a seat is
free, and watches otherwise. -/
def admitToRoom (request : JoinRequest) (credential : PlayerCredential) : List Call :=
  if cfg.ranked && decide (credential = .guest) then [.closeSocket request.socket.id]
  else if !cfg.league.admitsAsPlayer credential then admitSpectator cfg request credential
  else
    match room.freeSeat cfg request.socket with
    | some place => room.seatPlayer cfg request credential place
    | none => admitSpectator cfg request credential

/-- The old connection of a seat is told that the session moved on. -/
def reconnectClient (c : ClientRef) (socket : Socket) : List Call :=
  .reconnect c socket ::
    if (room.client c).socket.id ≠ socket.id ∧ room.isLive c = true then
      [.closeSocket (room.client c).socket.id]
    else []

/-- A joiner after the start either gets its seat back or watches. -/
def reconnectJoiner (phase : DuelState) (request : JoinRequest) (joinerUserId : Option UserId) :
    List Call :=
  match room.findMidDuelReconnectingPlayer cfg request joinerUserId with
  | none => [.addSpectator request.name request.socket none]
  | some c =>
    room.reconnectClient c request.socket ++
      if phase = .sideDecking then [.flag c .reconnected] else []

/-! ## Starting a match -/

/-- The first player of either team becomes its captain, if both teams have one. -/
def toRPS : List Call :=
  match room.getTeamPlayers .player, room.getTeamPlayers .opponent with
  | first :: _, second :: _ => [.flag first .captain, .flag second .captain]
  | _, _ => []

def issueTokens : List Call := if room.noReconnect then [] else room.players.map Call.issue

/-- Nothing happens when a deck count cannot be sent. -/
def startMatch (born : Nat) : List Call :=
  if room.clients ≠ [] ∧ room.deckCountRaises = true then []
  else room.issueTokens ++ room.toRPS ++ [.startMatch born]

def handleTryStart (sender : ClientRef) : List Call :=
  if cfg.reservedDuel.isSome then []
  else if !(room.client sender).host then []
  else if !room.allPlayersReady then []
  else room.startMatch room.epoch

def startReservedDuelWhenReady (born : Nat) : List Call :=
  if cfg.reservedDuel.isSome && room.isPlayersFull cfg && room.allPlayersReady then
    room.startMatch born
  else []

/-! ## Decks -/

/-- The deck goes to the player at the position of the client. -/
def setDecksToPlayer (c : ClientRef) (deck : Deck) : List Call :=
  match room.players.find? (fun p => (room.client p).position = (room.client c).position) with
  | none => []
  | some p => [.setDecks p deck]

/-- Accepts a deck in the lobby, which may start a reserved duel. -/
def acceptDeck (born : Nat) (c : ClientRef) (deck : Deck) : List Call :=
  let accepted := room.setDecksToPlayer c deck
  accepted ++ (performAll (perform cfg) room accepted).startReservedDuelWhenReady cfg born

def notReady (c : ClientRef) : List Call :=
  if (room.client c).position = OBSERVER then [] else [.flag c .notReady]

/-- The deck lock of a reservation. A ready seat keeps the deck it readied with. -/
def honoursReservedDeck (reserved : ReservedDuel) (born : Nat) (c : ClientRef) (deck : Deck) :
    List Call :=
  if reserved.locksReadyDeck && (room.client c).isReady then []
  else if reserved.acceptsDeck (room.client c).team deck then
    [.enqueue { born := born, work := .setDecksToPlayer c deck }]
  else room.notReady c

/-- A deck sent in the lobby, once it was built. -/
def deckBuiltWaiting (born : Nat) (c : ClientRef) : Option Deck → List Call
  | none => room.notReady c
  | some deck =>
    if (room.client c).isInternal then
      [.enqueue { born := born, work := .setDecksToPlayer c deck }]
    else if cfg.hasDeckError deck then room.notReady c
    else
      match cfg.reservedDuel with
      | some reserved => room.honoursReservedDeck reserved born c deck
      | none => [.enqueue { born := born, work := .setDecksToPlayer c deck }]

/-- Who chooses the turn order of the next duel, or how that is decided. -/
def nextChoice (born : Nat) : List Call :=
  if room.turnChoiceRequiresRps || room.clientWhoChoosesTurn.isNone then
    .setTurnChoiceRequiresRps false :: room.toRPS ++ [.leaveSideDecking born .rps]
  else [.leaveSideDecking born .choosingOrder]

/-- Everyone who has sided waits for the others. -/
def finishSiding (born : Nat) : List Call :=
  if room.allPlayersReady then .clearTimers born :: room.nextChoice born else []

def sideDeck (born : Nat) (c : ClientRef) (deck : Deck) : List Call :=
  let sided := room.setDecksToPlayer c deck ++
    [.flag c .ready, .clearTimer born (room.client c).position]
  sided ++ (performAll (perform cfg) room sided).finishSiding born

/-- A deck sent between duels, once it was built. -/
def deckBuiltSiding (born : Nat) (c : ClientRef) : Option Deck → List Call
  | none => room.notReady c
  | some deck =>
    if cfg.hasDeckError deck then room.notReady c
    else if cfg.reservedDuel.any (fun reserved => !reserved.acceptsDeck (room.client c).team deck)
    then room.notReady c
    else room.sideDeck cfg born c deck

/-! ## Duels -/

/-- The duel that the current room state plays. -/
def currentCore : Core := { state := room.epoch, matchId := room.matchId, duel := room.duels }

/-- The decks of the players in the order of their positions, if every player has one. -/
def snapshotDecks : Option (List (ClientRef × Deck)) :=
  (room.players.insertionSort (fun a b =>
    (room.client a).position ≤ (room.client b).position)).mapM
    (fun c => (room.client c).deck.map (fun deck => (c, deck)))

/-- The engine is set up in the background, from the decks of that moment. -/
def startDuel (born : Nat) : List Call :=
  let core : Core :=
    { state := room.epoch + 1, matchId := room.matchId, duel := room.duels + 1 }
  .dueling born ::
    match room.snapshotDecks with
    | none => []
    | some decks =>
      [.duelDecks decks, .suspend { born := core.state, work := .initialized core decks }]

/-- Whether the engine of a duel is up and has been told to advance. -/
def engineRuns (core : Core) : Bool :=
  core ∈ room.cores && room.suspended.all (fun k =>
    match k.work with
    | .fieldCounted pending => pending ≠ core
    | _ => true)

def handleWinCondition (duel : Core) (winner : Winner) (engine : Bool) : List Call :=
  if room.isFinished then [] else [.processDuelEnd duel winner engine]

def getTeammate (c : ClientRef) : Option ClientRef :=
  room.players.find? (fun p => (room.client p).team = (room.client c).team ∧ p ≠ c)

def executeSurrender (c : ClientRef) : List Call :=
  room.handleWinCondition room.currentCore (some (room.client c).team.other) false

/-- In a tag duel both players of a team have to surrender, unless one is away. -/
def handleSurrender (c : ClientRef) : List Call :=
  if (room.client c).isSpectator then []
  else if !cfg.isTag then room.executeSurrender c
  else
    match room.getTeammate c with
    | none => .clearSurrenders :: room.executeSurrender c
    | some teammate =>
      if (room.client teammate).isReconnecting then .clearSurrenders :: room.executeSurrender c
      else if (room.client c).position ∈ room.pendingSurrenders then []
      else if (room.client teammate).position ∈ room.pendingSurrenders then
        .clearSurrenders :: room.executeSurrender c
      else [.addSurrender (room.client c).position]

def engineReports (core : Core) : EngineMessage → List Call
  | .newTurn side =>
    .update core .turn ::
      if cfg.isTag && side / 2 % 2 = 0 && core.state = room.epoch then [.clearSurrenders] else []
  | .damage team value => [.update core (.damage team value)]
  | .recover team value => [.update core (.recover team value)]
  | .payLpCost team value => [.update core (.damage team value)]
  | .win winner => room.handleWinCondition core winner true

/-- The first player of the losing team, in the order of the seats, chooses next time. -/
def looserOf (winner : Team) : Option ClientRef :=
  room.players.find? (fun c =>
    (room.client c).position % (if winner = .player then cfg.team1 else cfg.team0) = 0 &&
      (room.client c).team = winner.other)

/-- After a draw the next chooser is drawn again. -/
def assignSideDeckChoice : Winner → List Call
  | none => [.setTurnChoiceRequiresRps true]
  | some winner =>
    .setTurnChoiceRequiresRps false ::
      ((room.looserOf cfg winner).map Call.setClientWhoChoosesTurn).toList

/-- What follows a scored duel: the end of the match or side decking. -/
def determineNextPhase (index born : Nat) (winner : Winner) (engine : Bool) : List Call :=
  if room.isMatchFinished cfg then [.beginEnding index engine]
  else [.resume index, .disposeCore born, .enter born .sideDecking] ++
    room.assignSideDeckChoice cfg winner

/-! ## The end of a match -/

/-- A failing ending closes the room if the engine called the handler, and is dropped if not. -/
def endingFailed (index : Nat) (engine : Bool) : List Call :=
  .resume index :: if engine then [.finalize none] else []

def endingSettled (index born : Nat) (engine : Bool) : EndingStage → List Call
  | .runEnding =>
    [.removeAllListener born, .disposeCore born, .advance index .sendAllReplays engine]
  | .sendAllReplays => [.advance index .sendAllEvrp engine]
  | .sendAllEvrp => [.advance index .finalizeWithReplays engine]
  | .finalizeWithReplays => [.publishGameOver index, .finalize none]

/-- The abandoning team leaves the match for good. -/
def resolveAbandon (born : Nat) (team : Team) : List Call :=
  .clearAllGrace ::
    if room.finalizing || room.isMatchFinished cfg || !room.isBetweenDuels then []
    else if !room.hasPlayedAnyDuel then
      [.finalize (some { seat := some team, reason := .disconnect })]
    else [.endByAbandon born team]

def surrenderBetweenDuels (c : ClientRef) : List Call :=
  if (room.client c).isSpectator || cfg.isTag || !room.isBetweenDuels then []
  else room.resolveAbandon cfg room.epoch (room.client c).team

/-! ## What a settled promise continues with -/

/-- The state a broken duel returns to. -/
def setDuelFinished (born : Nat) : List Call :=
  (if room.duelState = .dueling then [.disposeCore room.epoch] else []) ++ [.enter born .waiting]

/-- The token of a client is sent again, a new one if it has none. -/
def resendToken (c : ClientRef) : List Call :=
  if (room.client c).reconnectionToken = none then [.issue c] else []

def continueWith (index born : Nat) : Continuation → Settled → List Call
  | .deckBuiltWaiting c, .built deck => .resume index :: room.deckBuiltWaiting cfg born c deck
  | .deckBuiltSiding c, .built deck => .resume index :: room.deckBuiltSiding cfg born c deck
  | .initialized core decks, .done =>
    [.resume index, .addDuelRecord core decks,
      .suspend { born := born, work := .fieldCounted core }]
  | .fieldCounted _, .done => [.resume index, .markStarted]
  | .responded, .raised => .resume index :: room.setDuelFinished born
  | .resynced c express, .done =>
    .resume index :: (if express then room.resendToken c else []) ++ [.flag c .reconnected]
  | .duelProcessed winner engine, .done => room.determineNextPhase cfg index born winner engine
  | .ending stage engine, .done => endingSettled index born engine stage
  | .ending _ engine, .raised => endingFailed index engine
  | .abandonEnding, .done => [.publishGameOver index, .finalize none]
  | .abandonEnding, .raised => [.resume index, .finalize none]
  | _, _ => [.resume index]

/-! ## The mutex -/

def promoteSpectator (c : ClientRef) : List Call :=
  if !cfg.league.admitsAsPlayer ((room.client c).credential.getD .guest) then []
  else if !room.reservationPermitsSeat cfg (room.client c).socket then []
  else
    match room.calculatePlace cfg with
    | none => []
    | some place => [.spectatorToPlayer c place]

/-- Taking a seat passes admission, moving to another one does not. -/
def toDuel (c : ClientRef) : List Call :=
  if cfg.reservedDuel.isSome then []
  else if (room.client c).isSpectator then room.promoteSpectator cfg c
  else
    match room.nextAvailablePosition cfg (room.client c).position with
    | none => []
    | some place => [.movePlayerToAnotherCell c place]

def toObserver (c : ClientRef) : List Call :=
  if (room.client c).isSpectator || cfg.reservedDuel.isSome || (room.client c).host then []
  else [.playerToSpectator c]

/-- The bot is found by its connection. -/
def markBot (socket : Socket) : List Call :=
  match room.clients.find? (fun c => (room.client c).socket.id = socket.id) with
  | none => []
  | some c => [.flag c .internal]

/-- A section that has the mutex. A join keeps it while its identity is looked up. -/
def runExclusive (born : Nat) : Work → List Call
  | .createDuel => []
  | .setDecksToPlayer c deck => room.acceptDeck cfg born c deck
  | .notReady c => room.notReady c
  | .toObserver c => room.toObserver cfg c
  | .toDuel c => room.toDuel cfg c
  | .removePlayer c => [.removePlayer (room.client c).socket.id]
  | .admission request =>
    if isInvited cfg request.socket && !room.canAcceptInvitation cfg then
      [.closeSocket request.socket.id]
    else [.hold { born := born, work := .admission request }]
  | .markInternal socket => room.markBot socket
  | .reconnect phase request =>
    if cfg.ranked then [.hold { born := born, work := .reconnect phase request }]
    else room.reconnectJoiner cfg phase request none

def lookupAnswered (account : Option UserId) : Lookup → List Call
  | .admission request => room.admitToRoom cfg request (resolveCredential request account)
  | .reconnect phase request =>
    room.reconnectJoiner cfg phase request (resolveCredential request account).userId

/-- The first section of the queue gets the mutex. -/
def grant (first : Deferred Work) : List Call :=
  match first.work with
  | .createDuel => [.createDuel]
  | work => .dequeue :: room.runExclusive cfg first.born work

/-- Nobody takes a seat when the lookup fails. -/
def lookupRaised : Lookup → List Call
  | .admission _ => []
  | .reconnect _ request => [.addSpectator request.name request.socket none]

/-! ## Messages of clients -/

/-- What a message does in the lobby. -/
def waitingMessage (sender : ClientRef) : Message → List Call
  | .tryStart => room.handleTryStart cfg sender
  | .toObserver => [.enqueue { born := room.epoch, work := .toObserver sender }]
  | .toDuel => [.enqueue { born := room.epoch, work := .toDuel sender }]
  | .notReady => [.enqueue { born := room.epoch, work := .notReady sender }]
  | .updateDeck _ _ =>
    if (room.client sender).isSpectator then []
    else [.suspend { born := room.epoch, work := .deckBuiltWaiting sender }]
  | _ => []

/-- Rock is 1, scissors 2, paper 3. -/
def getRPSWinner (hands : Nat × Nat) : Team :=
  if hands = (1, 2) ∨ hands = (2, 3) ∨ hands = (3, 1) then .opponent else .player

/-- The hands once the team of the sender has shown its own. -/
def handsWith (sender : ClientRef) (result : Nat) : Nat × Nat :=
  if (room.client sender).team = .player then (result, room.handResult.2)
  else (room.handResult.1, result)

def handleRPSChoice (sender : ClientRef) (result : Nat) : List Call :=
  if !(room.client sender).isCaptain || (room.client sender).isSpectator then []
  else
    let hands := room.handsWith sender result
    if hands.1 = 0 ∨ hands.2 = 0 then [.setHandResult hands]
    else if hands.1 = hands.2 then .setHandResult (0, 0) :: room.toRPS
    else
      match room.getTeamPlayers (getRPSWinner hands) with
      | [] => [.setHandResult hands]
      | winner :: _ =>
        [.setHandResult (0, 0), .setClientWhoChoosesTurn winner, .enter room.epoch .choosingOrder]

def rpsMessage (sender : ClientRef) : Message → List Call
  | .rpsChoice result => room.handleRPSChoice sender result
  | .surrender => room.surrenderBetweenDuels cfg sender
  | _ => []

/-- Anyone may choose. -/
def handleTurnChoice (sender : ClientRef) (first : Bool) : List Call :=
  .setPositionSwapped (first != decide ((room.client sender).team = .player)) ::
    room.startDuel room.epoch

def choosingOrderMessage (sender : ClientRef) : Message → List Call
  | .turnChoice first => room.handleTurnChoice sender first
  | .surrender => room.surrenderBetweenDuels cfg sender
  | _ => []

/-- The side deck may only rearrange the deck of the last duel. -/
def sidingUpdate (sender : ClientRef) (main side : List Nat) : List Call :=
  if (room.client sender).isSpectator then []
  else if !(room.client sender).deck.any (fun deck => isSideDeckValid deck main side) then []
  else [.suspend { born := room.epoch, work := .deckBuiltSiding sender }]

def sideDeckingMessage (sender : ClientRef) : Message → List Call
  | .updateDeck main side => room.sidingUpdate sender main side
  | .surrender => room.surrenderBetweenDuels cfg sender
  | _ => []

/-- A player who reconnects shows its deck again to get the board. -/
def duelingUpdate (sender : ClientRef) (main side : List Nat) : List Call :=
  if (room.client sender).isReconnecting &&
      (room.client sender).deck.any (fun deck => isSideDeckValid deck main side) then
    [.suspend { born := room.epoch, work := .resynced sender false }]
  else []

def duelingMessage (sender : ClientRef) : Message → List Call
  | .updateDeck main side => room.duelingUpdate sender main side
  | .surrender => room.handleSurrender cfg sender
  | .response =>
    if room.cores.any (fun core => core.state = room.epoch && room.engineRuns core) then
      [.suspend { born := room.epoch, work := .responded }]
    else []
  | _ => []

/-- A closed connection sends nothing and a room state without listeners hears nothing. -/
def receives (sender : ClientRef) : Bool :=
  sender < room.nextClient && room.isLive sender && room.listening

def handleMessage (sender : ClientRef) (message : Message) : List Call :=
  if !room.receives sender then []
  else
    match room.duelState with
    | .waiting => room.waitingMessage cfg sender message
    | .rps => room.rpsMessage cfg sender message
    | .choosingOrder => room.choosingOrderMessage cfg sender message
    | .sideDecking => room.sideDeckingMessage cfg sender message
    | .dueling => room.duelingMessage cfg sender message

/-! ## Reconnecting by token -/

/-- A verified seat belongs to one account, which the connection must have proven. -/
def identityAgrees (client : YGOProClient) (socket : Socket) : Bool :=
  match client.credential with
  | some (.verified userId) => socket.resolvedUserId = some userId
  | _ => true

/-- The client that the index has for a token of this room, if its identity agrees. -/
def forwarded (token : ReconnectionToken) (socket : Socket) : Option ClientRef :=
  match room.tokens.get token with
  | none => none
  | some entry =>
    if entry.roomId = cfg.id ∧ identityAgrees (room.client entry.client) socket = true ∧
        room.finalizing = false then
      some entry.client
    else none

/-- What the phases do with a client that came back by its token. -/
def expressReconnected (c : ClientRef) (socket : Socket) : List Call :=
  room.reconnectClient c socket ++
    match room.duelState with
    | .dueling => [.suspend { born := room.epoch, work := .resynced c true }]
    | .sideDecking => room.resendToken c ++ [.flag c .reconnected]
    | _ => if room.deckCountRaises then [] else room.resendToken c ++ [.flag c .reconnected]

/-- The lobby has no listener for a reconnect. -/
def handleExpressReconnect (token : ReconnectionToken) (socket : Socket) : List Call :=
  match room.forwarded cfg token socket with
  | none => [.closeSocket socket.id]
  | some c =>
    if room.duelState = .waiting ∨ room.listening = false then []
    else room.expressReconnected c socket

/-! ## Leaving -/

/-- How a reserved duel takes a leaver: whose fault it is, or that it goes the normal way. -/
def closeReservedDuel (leaver : YGOProClient) : Option ReservedDuelAbandon :=
  if leaver.isInternal then some { seat := none, reason := .botUnavailable }
  else if room.hasNoConnectedPlayers ||
      room.players.all (fun c => (room.client c).isInternal || !room.isLive c) then
    some { seat := some leaver.team, reason := .disconnect }
  else if room.noReconnect then some { seat := some leaver.team, reason := .disconnect }
  else none

/-- The grace window of a player who left between duels. -/
def playerLeft (c : ClientRef) : List Call :=
  [.clearGrace (room.client c).position, .startGrace (room.client c).position c]

/-- A leaver outside a reserved duel. -/
def ordinaryDisconnect (socketId : Nat) : List Call :=
  if room.hasNoConnectedPlayers then [.finalize none]
  else
    match room.players.find? (fun c => (room.client c).socket.id = socketId) with
    | none => [.removeSpectator socketId]
    | some c =>
      if room.noHost then [.finalize none]
      else if !(room.client c).isSpectator && room.isBetweenDuels then room.playerLeft c
      else if room.duelState = .waiting then
        [.enqueue { born := room.epoch, work := .removePlayer c }]
      else []

/-- What becomes of the room when a socket of it has closed. -/
def onDisconnect (socketId : Nat) : List Call :=
  if cfg.isMatchmaking && room.duelState = .waiting then [.finalize none]
  else if cfg.reservedDuel.isSome then
    match (room.players.find? (fun c => (room.client c).socket.id = socketId)).bind
        (fun c => room.closeReservedDuel (room.client c)) with
    | some abandon => [.finalize (some abandon)]
    | none => room.ordinaryDisconnect socketId
  else room.ordinaryDisconnect socketId

/-- A room is found by the sockets of its clients or by the socket that created it. -/
def isFoundBy (socketId : Nat) : Bool :=
  room.clients.any (fun c => (room.client c).socket.id = socketId) ||
    cfg.createdBySocketId = socketId

def handleDisconnect (socketId : Nat) : List Call :=
  .closeSocket socketId ::
    if room.finalizing || !room.isFoundBy cfg socketId then []
    else (room.perform cfg (.closeSocket socketId)).onDisconnect cfg socketId

/-- A side deck that was not submitted in time abandons the match. -/
def handleSideTimeout (c : ClientRef) : List Call :=
  if room.duelState = .sideDecking ∧ (room.client c).position ∈ room.sideTimers then
    .clearTimers room.epoch :: room.resolveAbandon cfg room.epoch (room.client c).team
  else []

def handleGraceOver (position : Nat) : List Call :=
  match room.graceTimers.find? (fun timer => timer.1 = position) with
  | none => []
  | some timer =>
    .clearGrace position ::
      if room.finalizing || room.isLive timer.2 || !room.isBetweenDuels then []
      else room.resolveAbandon cfg room.epoch (room.client timer.2).team

/-- A reserved duel that did not start in time blames a missing seat or the bot. -/
def handleLobbyTimeout : List Call :=
  match cfg.reservedDuel with
  | none => []
  | some reserved =>
    if room.finalizing || room.session.started then []
    else
      let seated := (room.players.filter room.isLive).map (fun c => (room.client c).team)
      let ready := (room.players.filter (fun c => (room.client c).isReady)).map
        (fun c => (room.client c).team)
      match reserved.noShowSeat seated ready with
      | none => [.finalize (some { seat := none, reason := .botUnavailable })]
      | some seat => [.finalize (some { seat := some seat, reason := .noShow })]

/-! ## One step of a room -/

/-- The bot of a room joins with the stamp of the room, which becomes an AI room. -/
def handleBotJoin (request : JoinRequest) : List Call :=
  let stamped : Socket := { request.socket with internalForRoomId := some cfg.id }
  (if cfg.reservedDuel.isSome then [] else [.becomeAIRoom]) ++
    (if room.listening then room.handleJoin cfg { request with socket := stamped } else []) ++
    [.enqueue { born := room.epoch, work := .markInternal stamped }]

/-- A room that was torn down is no longer in the room list, so nobody joins it. -/
def joinable : Bool := !room.finalizing && room.listening

def handleEngine (core : Core) (message : EngineMessage) : List Call :=
  if room.engineRuns core then room.engineReports cfg core message else []

def handleTimeout (winner : Winner) : List Call :=
  if room.duelState = .dueling ∧ room.listening = true then
    room.handleWinCondition room.currentCore winner false
  else []

/-- The calls an input makes on the room. -/
def calls : RoomInput → List Call
  | .join request => if room.joinable then room.handleJoin cfg request else []
  | .matchAdmit request =>
    if room.joinable && room.duelState = .waiting then room.handleJoin cfg request else []
  | .botJoin request => if room.finalizing then [] else room.handleBotJoin cfg request
  | .expressReconnect token socket => room.handleExpressReconnect cfg token socket
  | .message sender message => room.handleMessage cfg sender message
  | .grant =>
    if room.held.isSome then []
    else
      match room.queue with
      | [] => []
      | first :: _ => room.grant cfg first
  | .answered account =>
    match room.held with
    | none => []
    | some lookup => .release :: room.lookupAnswered cfg account lookup.work
  | .lookupFailed =>
    match room.held with
    | none => []
    | some lookup => .release :: lookupRaised lookup.work
  | .settled index result =>
    match room.suspended[index]? with
    | none => []
    | some k => room.continueWith cfg index k.born k.work result
  | .engine core message => room.handleEngine cfg core message
  | .finishDuelByTimeout winner => room.handleTimeout winner
  | .sideTimeout c => room.handleSideTimeout cfg c
  | .graceOver position => room.handleGraceOver cfg position
  | .disconnect socketId => room.handleDisconnect cfg socketId
  | .lobbyTimeout => room.handleLobbyTimeout cfg
  | .closeRoom => [.finalize none]

end

/-- One input, with all it does before it waits again. -/
def step (cfg : RoomConfig) (room : YGOProRoom) (input : RoomInput) : YGOProRoom :=
  performAll (perform cfg) room (room.calls cfg input)

end YGOProRoom

end EdoproServer.Room
