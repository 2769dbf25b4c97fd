import EdoproServer.Lib.Actions
import EdoproServer.Room.YGOProRoom

namespace EdoproServer.Room
open Decks Lib

/-! ## Seats, sockets and tokens -/

/-- What a handler sets on a client and nothing else reads but handlers. -/
inductive ClientFlag where
  | ready
  | notReady
  | captain
  | internal
  | reconnected
  deriving DecidableEq, Repr

def ClientFlag.set : ClientFlag → YGOProClient → YGOProClient
  | .ready => YGOProClient.ready
  | .notReady => YGOProClient.notReady
  | .captain => YGOProClient.captain
  | .internal => YGOProClient.markInternal
  | .reconnected => YGOProClient.clearReconnecting

namespace Seating

variable (s : Seating)

def clients : List ClientRef := s.players ++ s.spectators

def modify (c : ClientRef) (f : YGOProClient → YGOProClient) : Seating :=
  { s with client := Function.update s.client c (f (s.client c)) }

def closeSocket (id : Nat) : Seating := { s with closedSockets := s.closedSockets ++ [id] }

/-- The host is the first to sit down while nobody seated is one. -/
def buildPlayer (request : JoinRequest) (credential : PlayerCredential) (place : Nat × Team) :
    YGOProClient :=
  { id := credential.userId, name := request.name, team := place.2, position := place.1,
    host := !s.players.any (fun c => (s.client c).host), credential := some credential,
    socket := request.socket, reconnectionToken := none, isInternal := false, isCaptain := false,
    isReady := false, isReconnecting := false, deck := none }

def createSpectator (name : String) (socket : Socket) (credential : Option PlayerCredential) :
    YGOProClient :=
  { id := none, name := name, team := .spectator, position := OBSERVER, host := false,
    credential := credential, socket := socket, reconnectionToken := none, isInternal := false,
    isCaptain := false, isReady := false, isReconnecting := false, deck := none }

def addPlayer (request : JoinRequest) (credential : PlayerCredential) (place : Nat × Team) :
    Seating :=
  { s with
    client := Function.update s.client s.nextClient (s.buildPlayer request credential place)
    nextClient := s.nextClient + 1
    players := s.players ++ [s.nextClient] }

def addSpectator (name : String) (socket : Socket) (credential : Option PlayerCredential) :
    Seating :=
  { s with
    client := Function.update s.client s.nextClient (createSpectator name socket credential)
    nextClient := s.nextClient + 1
    spectators := s.spectators ++ [s.nextClient] }

/-- Removes by socket, as `playerLeave` does. -/
def removePlayer (socketId : Nat) : Seating :=
  { s with players := s.players.filter (fun c => (s.client c).socket.id ≠ socketId) }

def removeSpectator (socketId : Nat) : Seating :=
  { s with spectators := s.spectators.filter (fun c => (s.client c).socket.id ≠ socketId) }

def playerToSpectator (c : ClientRef) : Seating :=
  let removed := s.removePlayer (s.client c).socket.id
  { removed with spectators := removed.spectators ++ [c] }.modify c
    (fun client => (client.spectatorPosition OBSERVER).notReady)

def spectatorToPlayer (c : ClientRef) (place : Nat × Team) : Seating :=
  let removed := s.removeSpectator (s.client c).socket.id
  { removed with players := removed.players ++ [c] }.modify c
    (fun client => (client.playerPosition place.1 place.2).notReady)

def movePlayerToAnotherCell (c : ClientRef) (place : Nat × Team) : Seating :=
  s.modify c (fun client => client.notReady.playerPosition place.1 place.2)

/-- The socket of a client is replaced by the one that reconnected. -/
def reconnect (c : ClientRef) (socket : Socket) : Seating :=
  s.modify c (fun client => (client.setSocket socket).reconnecting)

/-- Mints a token, stores it on the client and registers it under the room. -/
def issue (roomId : Nat) (c : ClientRef) : Seating :=
  { s with
    client := Function.update s.client c ((s.client c).setReconnectionToken s.minted)
    tokens := s.tokens.set s.minted { client := c, roomId := roomId }
    minted := s.minted + 1 }

def revoke (c : ClientRef) : Seating :=
  match (s.client c).reconnectionToken with
  | none => s
  | some token =>
    { s with
      client := Function.update s.client c (s.client c).clearReconnectionToken
      tokens := s.tokens.delete token }

def destroy (c : ClientRef) : Seating :=
  if (s.client c).socket.id ∈ s.closedSockets then s else s.closeSocket (s.client c).socket.id

/-- Revokes the token of every client and destroys its socket. -/
def teardown : Seating := s.clients.foldl (fun s c => (s.revoke c).destroy c) s

def unreadyPlayers : Seating := s.players.foldl (fun s c => s.modify c YGOProClient.notReady) s

end Seating

/-! ## Duels -/

def DuelUpdate.apply : DuelUpdate → Duel → Duel
  | .turn, duel => duel.increaseTurn
  | .damage team value, duel => duel.decreaseLps team value
  | .recover team value, duel => duel.increaseLps team value
  | .finished, duel => duel.finish

/-! ## What handlers do -/

/-- A call a handler makes on the room. `born` is the room state in which the handler was
called. -/
inductive Call where
  -- the mutex and what is awaited
  | enqueue (work : Deferred Work)
  | dequeue
  | hold (lookup : Deferred Lookup)
  | release
  | suspend (continuation : Deferred Continuation)
  | resume (index : Nat)
  | advance (index : Nat) (stage : EndingStage) (engine : Bool)
  | startGrace (position : Nat) (c : ClientRef)
  | clearGrace (position : Nat)
  | clearAllGrace
  -- who is in the room
  | closeSocket (id : Nat)
  | addPlayer (request : JoinRequest) (credential : PlayerCredential) (place : Nat × Team)
  | addSpectator (name : String) (socket : Socket) (credential : Option PlayerCredential)
  | removePlayer (socketId : Nat)
  | removeSpectator (socketId : Nat)
  | playerToSpectator (c : ClientRef)
  | spectatorToPlayer (c : ClientRef) (place : Nat × Team)
  | movePlayerToAnotherCell (c : ClientRef) (place : Nat × Team)
  | flag (c : ClientRef) (flag : ClientFlag)
  | setDecks (c : ClientRef) (deck : Deck)
  | reconnect (c : ClientRef) (socket : Socket)
  | issue (c : ClientRef)
  | becomeAIRoom
  -- the phases
  | enter (born : Nat) (target : DuelState)
  | setHandResult (hands : Nat × Nat)
  | setClientWhoChoosesTurn (c : ClientRef)
  | setTurnChoiceRequiresRps (value : Bool)
  | setPositionSwapped (value : Bool)
  | addSurrender (position : Nat)
  | clearSurrenders
  | clearTimer (born position : Nat)
  | clearTimers (born : Nat)
  | removeAllListener (born : Nat)
  | startMatch (born : Nat)
  | leaveSideDecking (born : Nat) (target : DuelState)
  -- the duels
  | dueling (born : Nat)
  | duelDecks (decks : List (ClientRef × Deck))
  | createDuel
  | addDuelRecord (core : Core) (decks : List (ClientRef × Deck))
  | markStarted
  | update (duel : Core) (update : DuelUpdate)
  | processDuelEnd (duel : Core) (winner : Winner) (engine : Bool)
  | disposeCore (state : Nat)
  -- the end
  | beginEnding (index : Nat) (engine : Bool)
  | publishGameOver (index : Nat)
  | endByAbandon (born : Nat) (team : Team)
  | finalize (abandon : Option ReservedDuelAbandon)

namespace YGOProRoom

variable (room : YGOProRoom)

def note (event : RoomEvent) : YGOProRoom := { room with log := room.log ++ [event] }

def enqueue (work : Deferred Work) : YGOProRoom := { room with queue := room.queue ++ [work] }

def suspend (continuation : Deferred Continuation) : YGOProRoom :=
  { room with suspended := room.suspended ++ [continuation] }

/-- Another continuation takes the place of a suspended one, born where that one was. -/
def advance (index : Nat) (continuation : Continuation) : YGOProRoom :=
  { room with suspended := room.suspended.modify index (fun k => { k with work := continuation }) }

/-- Swaps the state object: the old one's listeners and timers go, the new one's come. -/
def enter (cfg : RoomConfig) (born : Nat) (target : DuelState) : YGOProRoom :=
  { room with
    duelState := target
    epoch := room.epoch + 1
    listening := true
    handResult := (0, 0)
    pendingSurrenders := []
    sideTimers := if target = .sideDecking ∧ 0 < cfg.sideTimeoutMinutes then
        room.players.map (fun c => (room.client c).position)
      else []
    log := room.log ++ [.moved born room.epoch room.duelState target] }

/-- Everyone has to ready again in a room that waits again. -/
def enterPhase (cfg : RoomConfig) (born : Nat) (target : DuelState) : YGOProRoom :=
  match target with
  | .waiting => { room with toSeating := room.unreadyPlayers }.enter cfg born .waiting
  | _ => room.enter cfg born target

def setDecks (c : ClientRef) (deck : Deck) : YGOProRoom :=
  { room with
    toSeating := room.toSeating.modify c (fun client => client.ready.setDeck deck)
    log := room.log ++ [.deckAccepted room.epoch c deck] }

def matchPlayers : List MatchPlayer :=
  room.players.map (fun c =>
    { id := (room.client c).id, name := (room.client c).name, team := (room.client c).team,
      games := [] })

def createMatch (cfg : RoomConfig) (born : Nat) : YGOProRoom :=
  { room with
    currentMatch := some ((Match.create cfg.bestOf).initializeHistoricalData room.matchPlayers)
    matchId := room.matchId + 1
    duels := 0
    duelIds := []
    log := room.log ++ [.matchStarted born (room.matchId + 1)] }

/-- The Duel object of the duel is only queued, the phase changes at once. -/
def dueling (cfg : RoomConfig) (born : Nat) : YGOProRoom :=
  let entered := (room.enqueue { born := born, work := .createDuel }).enter cfg born .dueling
  { entered with
    duels := room.duels + 1
    log := entered.log ++ [.duelStarted room.matchId (room.duels + 1)] }

/-- The section at the head of the queue creates the Duel object. -/
def createDuel (cfg : RoomConfig) : YGOProRoom :=
  { room with
    queue := room.queue.tail
    currentDuel := some (Duel.create room.nextDuelId cfg.startLp)
    duelIds := room.duelIds ++ [room.nextDuelId]
    nextDuelId := room.nextDuelId + 1 }

def addDuelRecord (core : Core) (decks : List (ClientRef × Deck)) : YGOProRoom :=
  { room with
    duelRecords := room.duelRecords ++ [{ decks := decks, winPosition := none }]
    cores := room.cores ++ [core] }

/-- An update goes to the Duel object of the moment. -/
def update (duel : Core) (change : DuelUpdate) : YGOProRoom :=
  { room with
    currentDuel := room.currentDuel.map change.apply
    log := room.log ++ [.updated duel.matchId duel.duel (room.currentDuel.map Duel.duelId)
      room.duelIds change] }

def recordWin (winner : Winner) : List DuelRecord :=
  room.duelRecords.modify (room.duelRecords.length - 1)
    (fun record => { record with winPosition := some winner })

def processDuelEnd (duel : Core) (winner : Winner) (engine : Bool) : YGOProRoom :=
  let finished := room.update duel .finished
  { finished with
    currentMatch := room.currentMatch.map (fun m =>
      m.duelWinner winner room.turn room.connections)
    toSeating := room.unreadyPlayers
    duelRecords := room.recordWin winner
    suspended := room.suspended ++ [{ born := duel.state, work := .duelProcessed winner engine }]
    log := finished.log ++ [.scored duel.matchId duel.duel] }

/-- Every game awarded by a forfeit gets a duel id of its own. -/
def matchForfeit (winner : Team) : YGOProRoom :=
  match room.currentMatch with
  | none => room
  | some m =>
    let forfeited := m.forfeit (some winner) room.connections
    { room with
      currentMatch := some forfeited.1
      duelIds := room.duelIds ++ (List.range forfeited.2).map (room.nextDuelId + ·)
      nextDuelId := room.nextDuelId + forfeited.2 }

def markGameOver : YGOProRoom := { room with session := { room.session with gameOver := true } }

def publishGameOver : YGOProRoom := room.note (.gameOver room.matchId)

/-- The reservation records an abandon unless the game over was marked. -/
def closeSession (cfg : RoomConfig) (abandon : ReservedDuelAbandon) : YGOProRoom :=
  if room.session.closed then room
  else
    { room with
      session := { room.session with closed := true }
      log := room.log ++
        if cfg.reservedDuel.isSome && !room.session.gameOver then
          [.abandoned abandon room.session.started]
        else [] }

/-- The canonical teardown, at most once. -/
def finalize (cfg : RoomConfig) (abandon : Option ReservedDuelAbandon) : YGOProRoom :=
  if room.finalizing then room
  else
    let closed := { room with finalizing := true }.closeSession cfg
      (abandon.getD { seat := none, reason := .roomClosed })
    { closed with toSeating := closed.teardown, log := closed.log ++ [.closed] }

/-- What a call does. -/
def perform (cfg : RoomConfig) : Call → YGOProRoom → YGOProRoom
  | .enqueue work, room => room.enqueue work
  | .dequeue, room => { room with queue := room.queue.tail }
  | .hold lookup, room => { room with held := some lookup }
  | .release, room => { room with held := none }
  | .suspend continuation, room => room.suspend continuation
  | .resume index, room => { room with suspended := room.suspended.eraseIdx index }
  | .advance index stage engine, room => room.advance index (.ending stage engine)
  | .startGrace position c, room =>
    { room with graceTimers := room.graceTimers ++ [(position, c)] }
  | .clearGrace position, room =>
    { room with graceTimers := room.graceTimers.filter (fun timer => timer.1 ≠ position) }
  | .clearAllGrace, room => { room with graceTimers := [] }
  | .closeSocket id, room => { room with toSeating := room.toSeating.closeSocket id }
  | .addPlayer request credential place, room =>
    { room with toSeating := room.toSeating.addPlayer request credential place }
  | .addSpectator name socket credential, room =>
    { room with toSeating := room.toSeating.addSpectator name socket credential }
  | .removePlayer id, room => { room with toSeating := room.toSeating.removePlayer id }
  | .removeSpectator id, room => { room with toSeating := room.toSeating.removeSpectator id }
  | .playerToSpectator c, room => { room with toSeating := room.toSeating.playerToSpectator c }
  | .spectatorToPlayer c place, room =>
    { room with toSeating := room.toSeating.spectatorToPlayer c place }
  | .movePlayerToAnotherCell c place, room =>
    { room with toSeating := room.toSeating.movePlayerToAnotherCell c place }
  | .flag c flag, room => { room with toSeating := room.toSeating.modify c flag.set }
  | .setDecks c deck, room => room.setDecks c deck
  | .reconnect c socket, room => { room with toSeating := room.toSeating.reconnect c socket }
  | .issue c, room => { room with toSeating := room.toSeating.issue cfg.id c }
  | .becomeAIRoom, room => { room with noHost := true, noReconnect := true }
  | .enter born target, room => room.enterPhase cfg born target
  | .setHandResult hands, room => { room with handResult := hands }
  | .setClientWhoChoosesTurn c, room => { room with clientWhoChoosesTurn := some c }
  | .setTurnChoiceRequiresRps value, room => { room with turnChoiceRequiresRps := value }
  | .setPositionSwapped value, room => { room with isPositionSwapped := value }
  | .addSurrender position, room =>
    { room with pendingSurrenders := room.pendingSurrenders ++ [position] }
  | .clearSurrenders, room => { room with pendingSurrenders := [] }
  | .clearTimer born position, room =>
    if born = room.epoch then { room with sideTimers := room.sideTimers.erase position } else room
  | .clearTimers born, room => if born = room.epoch then { room with sideTimers := [] } else room
  | .removeAllListener born, room =>
    if born = room.epoch then { room with listening := false } else room
  | .startMatch born, room => (room.createMatch cfg born).enterPhase cfg born .rps
  | .leaveSideDecking born target, room =>
    (room.note (.sided born)).enterPhase cfg born target
  | .dueling born, room => room.dueling cfg born
  | .duelDecks decks, room => room.note (.dueled room.epoch decks)
  | .createDuel, room => room.createDuel cfg
  | .addDuelRecord core decks, room => room.addDuelRecord core decks
  | .markStarted, room => { room with session := { room.session with started := true } }
  | .update duel change, room => room.update duel change
  | .processDuelEnd duel winner engine, room => room.processDuelEnd duel winner engine
  | .disposeCore state, room =>
    { room with cores := room.cores.filter (fun core => core.state ≠ state) }
  | .beginEnding index engine, room =>
    room.markGameOver.advance index (.ending .runEnding engine)
  | .publishGameOver index, room =>
    { room.publishGameOver with suspended := room.suspended.eraseIdx index }
  | .endByAbandon born team, room =>
    ((room.matchForfeit team.other).markGameOver).suspend { born := born, work := .abandonEnding }
  | .finalize abandon, room => room.finalize cfg abandon

/-! ### What changing the phase, a forfeit and the teardown leave alone -/

section

variable (cfg : RoomConfig) (born : Nat) (target : DuelState) (winner : Team)
  (abandon : Option ReservedDuelAbandon)

@[simp] theorem enterPhase_toContest :
    (room.enterPhase cfg born target).toContest = room.toContest := by
  cases target with
  | _ => rfl

@[simp] theorem enterPhase_toAgenda :
    (room.enterPhase cfg born target).toAgenda = room.toAgenda := by
  cases target with
  | _ => rfl

@[simp] theorem enterPhase_session : (room.enterPhase cfg born target).session = room.session := by
  cases target with
  | _ => rfl

@[simp] theorem enterPhase_finalizing :
    (room.enterPhase cfg born target).finalizing = room.finalizing := by
  cases target with
  | _ => rfl

@[simp] theorem enterPhase_epoch :
    (room.enterPhase cfg born target).epoch = room.epoch + 1 := by
  cases target with
  | _ => rfl

@[simp] theorem enterPhase_duelState :
    (room.enterPhase cfg born target).duelState = target := by
  cases target with
  | _ => rfl

@[simp] theorem enterPhase_log : (room.enterPhase cfg born target).log =
    room.log ++ [.moved born room.epoch room.duelState target] := by
  cases target with
  | _ => rfl

@[simp] theorem matchForfeit_toAgenda : (room.matchForfeit winner).toAgenda = room.toAgenda := by
  unfold matchForfeit
  split
  · rfl
  · rfl

@[simp] theorem matchForfeit_toPhase : (room.matchForfeit winner).toPhase = room.toPhase := by
  unfold matchForfeit
  split
  · rfl
  · rfl

@[simp] theorem matchForfeit_toSeating :
    (room.matchForfeit winner).toSeating = room.toSeating := by
  unfold matchForfeit
  split
  · rfl
  · rfl

@[simp] theorem matchForfeit_log : (room.matchForfeit winner).log = room.log := by
  unfold matchForfeit
  split
  · rfl
  · rfl

@[simp] theorem matchForfeit_session : (room.matchForfeit winner).session = room.session := by
  unfold matchForfeit
  split
  · rfl
  · rfl

@[simp] theorem matchForfeit_finalizing :
    (room.matchForfeit winner).finalizing = room.finalizing := by
  unfold matchForfeit
  split
  · rfl
  · rfl

/-- A second teardown does nothing. -/
theorem finalize_of_finalizing {room : YGOProRoom} (h : room.finalizing = true) :
    room.finalize cfg abandon = room := by
  simp [finalize, h]

@[simp] theorem finalize_toContest : (room.finalize cfg abandon).toContest = room.toContest := by
  unfold finalize closeSession
  dsimp only
  split
  · rfl
  · split
    · rfl
    · rfl

@[simp] theorem finalize_toAgenda : (room.finalize cfg abandon).toAgenda = room.toAgenda := by
  unfold finalize closeSession
  dsimp only
  split
  · rfl
  · split
    · rfl
    · rfl

@[simp] theorem finalize_toPhase : (room.finalize cfg abandon).toPhase = room.toPhase := by
  unfold finalize closeSession
  dsimp only
  split
  · rfl
  · split
    · rfl
    · rfl

theorem finalize_toSeating {room : YGOProRoom} (h : room.finalizing = false) :
    (room.finalize cfg abandon).toSeating = room.toSeating.teardown := by
  unfold finalize
  split
  · rename_i hfinal
    rw [h] at hfinal
    cases hfinal
  · unfold closeSession
    dsimp only
    split
    · rfl
    · rfl

@[simp] theorem finalize_finalizing : (room.finalize cfg abandon).finalizing = true := by
  unfold finalize closeSession
  dsimp only
  split
  · assumption
  · split
    · rfl
    · rfl

end

end YGOProRoom

end EdoproServer.Room
