import EdoproServer.Room.Handlers

namespace EdoproServer.Room
open Decks Lib

/-! ## What a call leaves alone -/

def Work.createsDuel : Work → Bool
  | .createDuel => true
  | _ => false

/-- The client that a queued section may move between the seats and the stands. -/
def Work.mover : Work → Option ClientRef
  | .toObserver c => some c
  | .toDuel c => some c
  | _ => none

/-- The result of a scored duel is still to be acted on. -/
def Continuation.isProcessing : Continuation → Bool
  | .duelProcessed _ _ => true
  | _ => false

/-- A match is being ended, its game over is not published yet. -/
def Continuation.isEnding : Continuation → Bool
  | .ending _ _ => true
  | .abandonEnding => true
  | _ => false

/-- The last step before the game over of a match. -/
def Continuation.isPublishing : Continuation → Bool
  | .ending .finalizeWithReplays _ => true
  | .abandonEnding => true
  | _ => false

/-- Calls that change clients, connections and tokens only. -/
def Call.isSeating : Call → Bool
  | .closeSocket _ | .addPlayer _ _ _ | .addSpectator _ _ _ | .removePlayer _
  | .removeSpectator _ | .playerToSpectator _ | .spectatorToPlayer _ _
  | .movePlayerToAnotherCell _ _ | .flag _ _ | .setDecks _ _ | .reconnect _ _ | .issue _ => true
  | _ => false

/-- Calls that move the room to another phase. -/
def Call.enters : Call → Bool
  | .enter _ _ | .startMatch _ | .leaveSideDecking _ _ | .dueling _ => true
  | _ => false

namespace YGOProRoom

variable {cfg : RoomConfig} {room pre : YGOProRoom}

theorem perform_isSeating {call : Call} (h : call.isSeating = true) :
    ∃ s log, room.perform cfg call = { room with toSeating := s, log := room.log ++ log } := by
  cases call with
  | setDecks c deck => exact ⟨_, [.deckAccepted room.epoch c deck], rfl⟩
  | closeSocket id => exact ⟨_, [], by simp [perform]; rfl⟩
  | addPlayer request credential place => exact ⟨_, [], by simp [perform]; rfl⟩
  | addSpectator name socket credential => exact ⟨_, [], by simp [perform]; rfl⟩
  | removePlayer id => exact ⟨_, [], by simp [perform]; rfl⟩
  | removeSpectator id => exact ⟨_, [], by simp [perform]; rfl⟩
  | playerToSpectator c => exact ⟨_, [], by simp [perform]; rfl⟩
  | spectatorToPlayer c place => exact ⟨_, [], by simp [perform]; rfl⟩
  | movePlayerToAnotherCell c place => exact ⟨_, [], by simp [perform]; rfl⟩
  | flag c flag => exact ⟨_, [], by simp [perform]; rfl⟩
  | reconnect c socket => exact ⟨_, [], by simp [perform]; rfl⟩
  | issue c => exact ⟨_, [], by simp [perform]; rfl⟩
  | _ => simp [Call.isSeating] at h

/-- Seating calls leave the phase, the match, the duels and what is pending alone. -/
theorem performAll_isSeating {calls : List Call} (h : ∀ call ∈ calls, call.isSeating = true) :
    ∃ s log, performAll (perform cfg) room calls =
      { room with toSeating := s, log := room.log ++ log } := by
  induction calls generalizing room with
  | nil => exact ⟨room.toSeating, [], by simp⟩
  | cons call calls ih =>
    obtain ⟨s, log, hcall⟩ := @perform_isSeating cfg room call (h call (by simp))
    obtain ⟨s', log', hcalls⟩ := @ih (room.perform cfg call)
      (fun c hc => h c (List.mem_cons_of_mem call hc))
    exact ⟨s', log ++ log', by rw [performAll_cons, hcalls, hcall]; simp⟩

/-- The queue of the mutex after a call. -/
def queueAfter (room : YGOProRoom) : Call → List (Deferred Work)
  | .enqueue work => room.queue ++ [work]
  | .dequeue => room.queue.tail
  | .createDuel => room.queue.tail
  | .dueling born => room.queue ++ [{ born := born, work := .createDuel }]
  | _ => room.queue

theorem perform_queue (call : Call) : (room.perform cfg call).queue = room.queueAfter call := by
  cases call with
  | enter born target => exact congrArg Agenda.queue (enterPhase_toAgenda room cfg born target)
  | leaveSideDecking born target =>
    exact congrArg Agenda.queue (enterPhase_toAgenda (room.note (.sided born)) cfg born target)
  | endByAbandon born team =>
    have hagenda := matchForfeit_toAgenda room team.other
    exact show (room.matchForfeit team.other).queue = room.queue from congrArg Agenda.queue hagenda
  | finalize abandon => exact congrArg Agenda.queue (finalize_toAgenda room cfg abandon)
  | clearTimer born position =>
    rw [perform]
    split
    · rfl
    · rfl
  | clearTimers born =>
    rw [perform]
    split
    · rfl
    · rfl
  | removeAllListener born =>
    rw [perform]
    split
    · rfl
    · rfl
  | _ => rfl

/-- What is queued after a call was queued before, or the call queues it. -/
theorem queue_perform (call : Call) {work : Deferred Work}
    (h : work ∈ (room.perform cfg call).queue) :
    work ∈ room.queue ∨ call = .enqueue work ∨ work.work = .createDuel := by
  rw [perform_queue] at h
  cases call with
  | enqueue new =>
    cases List.mem_append.mp h with
    | inl hold => exact .inl hold
    | inr hnew => exact .inr (.inl (congrArg Call.enqueue (List.mem_singleton.mp hnew).symm))
  | dueling born =>
    cases List.mem_append.mp h with
    | inl hold => exact .inl hold
    | inr hnew => exact .inr (.inr (by rw [List.mem_singleton.mp hnew]))
  | dequeue => exact .inl (List.mem_of_mem_tail h)
  | createDuel => exact .inl (List.mem_of_mem_tail h)
  | _ => exact .inl h

/-- Only the teardown closes a room. -/
theorem perform_finalizing {call : Call} (h : ∀ abandon, call ≠ .finalize abandon) :
    (room.perform cfg call).finalizing = room.finalizing := by
  cases call with
  | enter born target => exact enterPhase_finalizing room cfg born target
  | startMatch born => exact enterPhase_finalizing _ cfg born .rps
  | leaveSideDecking born target => exact enterPhase_finalizing _ cfg born target
  | endByAbandon born team => exact matchForfeit_finalizing room team.other
  | clearTimer born position =>
    rw [perform]
    split
    · rfl
    · rfl
  | clearTimers born =>
    rw [perform]
    split
    · rfl
    · rfl
  | removeAllListener born =>
    rw [perform]
    split
    · rfl
    · rfl
  | finalize abandon => exact absurd rfl (h abandon)
  | _ => rfl

/-- A room that was torn down stays so. -/
theorem finalizing_perform (call : Call) (h : room.finalizing = true) :
    (room.perform cfg call).finalizing = true := by
  cases call with
  | finalize abandon => exact finalize_finalizing room cfg abandon
  | _ =>
    rw [perform_finalizing]
    · exact h
    · intro abandon he
      cases he

/-- All other calls stay in the phase. -/
theorem perform_stays {call : Call} (h : call.enters = false) :
    (room.perform cfg call).epoch = room.epoch ∧
      (room.perform cfg call).duelState = room.duelState := by
  cases call with
  | clearTimer born position =>
    rw [perform]
    split
    · exact ⟨rfl, rfl⟩
    · exact ⟨rfl, rfl⟩
  | clearTimers born =>
    rw [perform]
    split
    · exact ⟨rfl, rfl⟩
    · exact ⟨rfl, rfl⟩
  | removeAllListener born =>
    rw [perform]
    split
    · exact ⟨rfl, rfl⟩
    · exact ⟨rfl, rfl⟩
  | endByAbandon born team =>
    have hphase := matchForfeit_toPhase room team.other
    exact ⟨congrArg Phase.epoch hphase, congrArg Phase.duelState hphase⟩
  | finalize abandon =>
    have hphase := finalize_toPhase room cfg abandon
    exact ⟨congrArg Phase.epoch hphase, congrArg Phase.duelState hphase⟩
  | enter born target => cases h
  | startMatch born => cases h
  | leaveSideDecking born target => cases h
  | dueling born => cases h
  | _ => exact ⟨rfl, rfl⟩

/-! ## When handlers make their calls -/

/-- A client that was waiting to be moved when the handler was resumed. -/
structure IsMover (pre room : YGOProRoom) (c : ClientRef) : Prop where
  waited : ∃ work ∈ pre.queue, work.work.mover = some c
  nextClient : room.nextClient = pre.nextClient

/-- An attempt to get a seat back: under the name of the seat, with what was found about the
account behind the joiner, or with a token. -/
inductive ReconnectAttempt where
  | byName (request : JoinRequest) (joinerUserId : Option UserId)
  | byToken (token : ReconnectionToken) (socket : Socket)

def ReconnectAttempt.socket : ReconnectAttempt → Socket
  | .byName request _ => request.socket
  | .byToken _ socket => socket

/-- The attempt that an input brings to its decision. -/
def attemptOf (room : YGOProRoom) : RoomInput → Option ReconnectAttempt
  | .grant =>
    match room.queue.head? with
    | some { born := _, work := .reconnect _ request } => some (.byName request none)
    | _ => none
  | .answered account =>
    match room.held with
    | some { born := _, work := .reconnect _ request } =>
      some (.byName request (resolveCredential request account).userId)
    | _ => none
  | .expressReconnect token socket => some (.byToken token socket)
  | _ => none

/-- The client that an attempt is given back. -/
def reclaimed (cfg : RoomConfig) (room : YGOProRoom) : ReconnectAttempt → Option ClientRef
  | .byName request joinerUserId => room.findMidDuelReconnectingPlayer cfg request joinerUserId
  | .byToken token socket =>
    if room.duelState = .waiting ∨ room.listening = false then none
    else room.forwarded cfg token socket

/-- The room state in which the handler was called that an input resumes. Other handlers are
called in the present one. -/
def invokedIn (room : YGOProRoom) : RoomInput → Nat
  | .grant => (room.queue.head?.map Deferred.born).getD room.epoch
  | .answered _ => (room.held.map Deferred.born).getD room.epoch
  | .lookupFailed => (room.held.map Deferred.born).getD room.epoch
  | .settled index _ => (room.suspended[index]?.map Deferred.born).getD room.epoch
  | .engine core _ => core.state
  | _ => room.epoch

/-- What holds in the room when a handler makes a call. `pre` is the room in which the handler
was resumed by `input`. -/
@[simp] def Guarded (cfg : RoomConfig) (pre : YGOProRoom) (input : RoomInput) (room : YGOProRoom) :
    Call → Prop
  | .addPlayer request credential place =>
    room.freeSeat cfg request.socket = some place ∧ cfg.league.admitsAsPlayer credential = true
  | .playerToSpectator c => IsMover pre room c
  | .spectatorToPlayer c place =>
    IsMover pre room c ∧ (room.client c).isSpectator = true ∧
      room.calculatePlace cfg = some place ∧
      cfg.league.admitsAsPlayer ((room.client c).credential.getD .guest) = true
  | .movePlayerToAnotherCell c place =>
    (room.client c).isSpectator = false ∧
      room.nextAvailablePosition cfg (room.client c).position = some place
  | .reconnect c socket => ∃ attempt, attemptOf pre input = some attempt ∧
    attempt.socket = socket ∧ reclaimed cfg pre attempt = some c
  | .startMatch born | .dueling born => room.epoch = pre.epoch ∧ born = pre.invokedIn input
  | .enter born target | .leaveSideDecking born target =>
    room.epoch = pre.epoch ∧ born = pre.invokedIn input ∧ target ≠ .dueling
  | .duelDecks decks => room.epoch = pre.epoch + 1 ∧
    ∀ entry ∈ decks, (pre.client entry.1).deck = some entry.2
  | .enqueue work => work.work.createsDuel = false ∧
    ∀ c ∈ work.work.mover, c < room.nextClient
  | .dequeue => ∀ work ∈ room.queue.head?, work.work.createsDuel = false
  | .createDuel => ∃ work ∈ room.queue.head?, work.work.createsDuel = true
  | .suspend k => k.work.isProcessing = false ∧ k.work.isEnding = false ∧
    ∀ core decks, k.work = .initialized core decks → 0 < core.duel
  | .addDuelRecord core _ => ∃ k ∈ pre.suspended, ∃ decks, k.work = .initialized core decks
  | .update core _ => core ∈ room.cores
  | .processDuelEnd core _ _ => room.isFinished = false ∧
    (core ∈ room.cores ∨ room.duelState = .dueling ∧ core = room.currentCore)
  | .advance index _ _ => ∃ k ∈ room.suspended[index]?, k.work.isEnding = true
  | .beginEnding index _ => room.isMatchFinished cfg = true ∧
    ∃ k ∈ room.suspended[index]?, k.work.isProcessing = true
  | .publishGameOver index => ∃ k ∈ room.suspended[index]?, k.work.isPublishing = true
  | .endByAbandon _ _ => room.finalizing = false ∧ room.isMatchFinished cfg = false ∧
    room.isBetweenDuels = true
  | _ => True

section

variable {src : YGOProRoom} {input : RoomInput}

theorem performAll_isSeating_epoch {calls : List Call}
    (h : ∀ call ∈ calls, call.isSeating = true) :
    (performAll (perform cfg) room calls).epoch = room.epoch := by
  obtain ⟨s, log, he⟩ := @performAll_isSeating cfg room calls h
  rw [he]

theorem handleJoin_guarded (request : JoinRequest) :
    Allows (perform cfg) (Guarded cfg pre input) room (src.handleJoin cfg request) := by
  unfold handleJoin
  split
  · simp [allows_cons, Guarded]
  · split
    · split
      · simp [allows_cons, Guarded]
      · simp [allows_cons, Guarded, Work.createsDuel, Work.mover]
    · simp [allows_cons, Guarded, Work.createsDuel, Work.mover]

theorem admitSpectator_guarded (request : JoinRequest) (credential : PlayerCredential) :
    Allows (perform cfg) (Guarded cfg pre input) room (admitSpectator cfg request credential) := by
  unfold admitSpectator
  split
  · simp [allows_cons, Guarded]
  · simp [allows_cons, Guarded]

/-- A newcomer sits on the seat that is free for it, in a league that admits it. -/
theorem admitToRoom_guarded (request : JoinRequest) (credential : PlayerCredential)
    (h : src.freeSeat cfg request.socket = room.freeSeat cfg request.socket) :
    Allows (perform cfg) (Guarded cfg pre input) room (src.admitToRoom cfg request credential) := by
  unfold admitToRoom
  split
  · simp [allows_cons, Guarded]
  · split
    · exact admitSpectator_guarded request credential
    · rename_i hleague
      split
      · rename_i place hplace
        unfold seatPlayer
        split
        · simp [allows_cons, Guarded]
        · rw [h] at hplace
          simpa [allows_cons, Guarded, hplace] using hleague
      · exact admitSpectator_guarded request credential

theorem reconnectClient_guarded (attempt : ReconnectAttempt) {c : ClientRef} {socket : Socket}
    (h : attemptOf pre input = some attempt) (hsocket : attempt.socket = socket)
    (hc : reclaimed cfg pre attempt = some c) :
    Allows (perform cfg) (Guarded cfg pre input) room (src.reconnectClient c socket) := by
  refine ⟨⟨attempt, h, hsocket, hc⟩, ?_⟩
  split
  · simp [allows_cons, Guarded]
  · trivial

theorem reconnectJoiner_guarded (phase : DuelState) {request : JoinRequest}
    {joinerUserId : Option UserId}
    (h : attemptOf pre input = some (.byName request joinerUserId)) :
    Allows (perform cfg) (Guarded cfg pre input) room
      (pre.reconnectJoiner cfg phase request joinerUserId) := by
  unfold reconnectJoiner
  split
  · simp [allows_cons, Guarded]
  · rename_i c hc
    rw [allows_append]
    constructor
    · exact reconnectClient_guarded _ h rfl hc
    · split
      · simp [allows_cons, Guarded]
      · trivial

theorem toRPS_isSeating : ∀ call ∈ src.toRPS, call.isSeating = true := by
  unfold toRPS
  split
  · simp [Call.isSeating]
  · simp

theorem toRPS_guarded : Allows (perform cfg) (Guarded cfg pre input) room src.toRPS := by
  unfold toRPS
  split
  · simp [allows_cons, Guarded]
  · trivial

theorem issueTokens_isSeating : ∀ call ∈ src.issueTokens, call.isSeating = true := by
  unfold issueTokens
  split
  · simp
  · simp [Call.isSeating]

theorem issueTokens_guarded :
    Allows (perform cfg) (Guarded cfg pre input) room src.issueTokens := by
  unfold issueTokens
  split
  · trivial
  · apply Allows.of_forall
    simp [Guarded]

theorem startMatch_guarded {born : Nat} (h : room.epoch = pre.epoch)
    (hborn : born = pre.invokedIn input) :
    Allows (perform cfg) (Guarded cfg pre input) room (src.startMatch born) := by
  unfold startMatch
  split
  · trivial
  · rw [allows_append, allows_append]
    refine ⟨⟨issueTokens_guarded, toRPS_guarded⟩, ⟨?_, hborn⟩, trivial⟩
    rw [performAll_append]
    rw [performAll_isSeating_epoch toRPS_isSeating,
      performAll_isSeating_epoch issueTokens_isSeating, h]

theorem handleTryStart_guarded (sender : ClientRef) (h : room.epoch = pre.epoch)
    (hborn : src.epoch = pre.invokedIn input) :
    Allows (perform cfg) (Guarded cfg pre input) room (src.handleTryStart cfg sender) := by
  unfold handleTryStart
  split
  · trivial
  · split
    · trivial
    · split
      · trivial
      · exact startMatch_guarded h hborn

theorem setDecksToPlayer_isSeating (c : ClientRef) (deck : Deck) :
    ∀ call ∈ src.setDecksToPlayer c deck, call.isSeating = true := by
  unfold setDecksToPlayer
  split
  · simp
  · simp [Call.isSeating]

theorem setDecksToPlayer_guarded (c : ClientRef) (deck : Deck) :
    Allows (perform cfg) (Guarded cfg pre input) room (src.setDecksToPlayer c deck) := by
  unfold setDecksToPlayer
  split
  · trivial
  · simp [allows_cons, Guarded]

theorem acceptDeck_guarded {born : Nat} (c : ClientRef) (deck : Deck)
    (h : room.epoch = pre.epoch) (hborn : born = pre.invokedIn input) :
    Allows (perform cfg) (Guarded cfg pre input) room (src.acceptDeck cfg born c deck) := by
  unfold acceptDeck
  dsimp only
  rw [allows_append]
  refine ⟨setDecksToPlayer_guarded c deck, ?_⟩
  unfold startReservedDuelWhenReady
  split
  · apply startMatch_guarded _ hborn
    rw [performAll_isSeating_epoch (setDecksToPlayer_isSeating c deck), h]
  · trivial

theorem notReady_guarded (c : ClientRef) :
    Allows (perform cfg) (Guarded cfg pre input) room (src.notReady c) := by
  unfold notReady
  split
  · trivial
  · simp [allows_cons, Guarded]

theorem deckBuiltWaiting_guarded (born : Nat) (c : ClientRef) (deck : Option Deck) :
    Allows (perform cfg) (Guarded cfg pre input) room (src.deckBuiltWaiting cfg born c deck) := by
  cases deck with
  | none => exact notReady_guarded c
  | some deck =>
    rw [deckBuiltWaiting]
    split
    · simp [allows_cons, Guarded, Work.createsDuel, Work.mover]
    · split
      · exact notReady_guarded c
      · split
        · unfold honoursReservedDeck
          split
          · trivial
          · split
            · simp [allows_cons, Guarded, Work.createsDuel, Work.mover]
            · exact notReady_guarded c
        · simp [allows_cons, Guarded, Work.createsDuel, Work.mover]

theorem nextChoice_guarded {born : Nat} (h : room.epoch = pre.epoch)
    (hborn : born = pre.invokedIn input) :
    Allows (perform cfg) (Guarded cfg pre input) room (src.nextChoice born) := by
  unfold nextChoice
  split
  · rw [allows_append]
    refine ⟨⟨trivial, toRPS_guarded⟩, ⟨?_, hborn, by simp⟩, trivial⟩
    rw [performAll_cons]
    rw [performAll_isSeating_epoch toRPS_isSeating]
    exact h
  · exact ⟨⟨h, hborn, by simp⟩, trivial⟩

theorem perform_clearTimers_epoch (born : Nat) :
    (room.perform cfg (.clearTimers born)).epoch = room.epoch := by
  unfold perform
  dsimp only
  split
  · rfl
  · rfl

theorem perform_clearTimer_epoch (born position : Nat) :
    (room.perform cfg (.clearTimer born position)).epoch = room.epoch := by
  unfold perform
  dsimp only
  split
  · rfl
  · rfl

theorem finishSiding_guarded {born : Nat} (h : room.epoch = pre.epoch)
    (hborn : born = pre.invokedIn input) :
    Allows (perform cfg) (Guarded cfg pre input) room (src.finishSiding born) := by
  unfold finishSiding
  split
  · exact ⟨trivial, nextChoice_guarded ((perform_clearTimers_epoch born).trans h) hborn⟩
  · trivial

theorem sideDeck_guarded {born : Nat} (c : ClientRef) (deck : Deck) (h : room.epoch = pre.epoch)
    (hborn : born = pre.invokedIn input) :
    Allows (perform cfg) (Guarded cfg pre input) room (src.sideDeck cfg born c deck) := by
  unfold sideDeck
  dsimp only
  rw [allows_append, allows_append]
  refine ⟨⟨setDecksToPlayer_guarded c deck, by simp [allows_cons, Guarded]⟩, ?_⟩
  apply finishSiding_guarded _ hborn
  rw [performAll_append, performAll_cons, performAll_cons, performAll_nil,
    perform_clearTimer_epoch]
  change (performAll (perform cfg) _ _).epoch = pre.epoch
  rw [performAll_isSeating_epoch (setDecksToPlayer_isSeating c deck), h]

theorem deckBuiltSiding_guarded {born : Nat} (c : ClientRef) (deck : Option Deck)
    (h : room.epoch = pre.epoch) (hborn : born = pre.invokedIn input) :
    Allows (perform cfg) (Guarded cfg pre input) room (src.deckBuiltSiding cfg born c deck) := by
  cases deck with
  | none => exact notReady_guarded c
  | some deck =>
    rw [deckBuiltSiding]
    split
    · exact notReady_guarded c
    · split
      · exact notReady_guarded c
      · exact sideDeck_guarded c deck h hborn

theorem mapM_deck {l : List ClientRef} {decks : List (ClientRef × Deck)}
    (h : l.mapM (fun c => (src.client c).deck.map (fun deck => (c, deck))) = some decks) :
    ∀ entry ∈ decks, (src.client entry.1).deck = some entry.2 := by
  induction l generalizing decks with
  | nil =>
    simp only [List.mapM_nil, Option.pure_def, Option.some.injEq] at h
    simp [← h]
  | cons c l ih =>
    simp only [List.mapM_cons, Option.pure_def, Option.bind_eq_bind, Option.bind_eq_some_iff,
      Option.map_eq_some_iff, Option.some.injEq] at h
    obtain ⟨entry, ⟨deck, hdeck, rfl⟩, rest, hrest, rfl⟩ := h
    intro e he
    cases List.mem_cons.mp he with
    | inl he => rw [he]; exact hdeck
    | inr he => exact ih hrest e he

theorem startDuel_guarded {born : Nat} (h : room.epoch = pre.epoch)
    (hborn : born = pre.invokedIn input) (hclient : src.client = pre.client) :
    Allows (perform cfg) (Guarded cfg pre input) room (src.startDuel born) := by
  unfold startDuel
  dsimp only
  refine ⟨⟨h, hborn⟩, ?_⟩
  split
  · trivial
  · rename_i decks hdecks
    refine ⟨⟨congrArg (· + 1) h, ?_⟩, ?_, trivial⟩
    · intro entry hentry
      have hdeck := mapM_deck hdecks entry hentry
      rwa [hclient] at hdeck
    · simp [Guarded, Continuation.isProcessing, Continuation.isEnding]

theorem handleWinCondition_guarded (duel : Core) (winner : Winner) (engine : Bool)
    (hfin : src.isFinished = room.isFinished)
    (h : duel ∈ room.cores ∨ room.duelState = .dueling ∧ duel = room.currentCore) :
    Allows (perform cfg) (Guarded cfg pre input) room
      (src.handleWinCondition duel winner engine) := by
  unfold handleWinCondition
  split
  · trivial
  · rename_i hopen
    rw [hfin] at hopen
    exact ⟨⟨by simpa using hopen, h⟩, trivial⟩

theorem handleSurrender_guarded (c : ClientRef) (h : pre.duelState = .dueling) :
    Allows (perform cfg) (Guarded cfg pre input) pre (pre.handleSurrender cfg c) := by
  have hwin : ∀ room : YGOProRoom, pre.isFinished = room.isFinished →
      room.duelState = pre.duelState → room.currentCore = pre.currentCore →
      Allows (perform cfg) (Guarded cfg pre input) room (pre.executeSurrender c) := by
    intro room hfin hstate hcore
    exact handleWinCondition_guarded _ _ _ hfin (.inr ⟨hstate.trans h, hcore.symm⟩)
  have hclear : Allows (perform cfg) (Guarded cfg pre input) pre
      (.clearSurrenders :: pre.executeSurrender c) := ⟨trivial, hwin _ rfl rfl rfl⟩
  unfold handleSurrender
  split
  · trivial
  · split
    · exact hwin pre rfl rfl rfl
    · split
      · exact hclear
      · split
        · exact hclear
        · split
          · trivial
          · split
            · exact hclear
            · simp [allows_cons, Guarded]

theorem handleEngine_guarded (core : Core) (message : EngineMessage) :
    Allows (perform cfg) (Guarded cfg pre input) pre (pre.handleEngine cfg core message) := by
  unfold handleEngine
  split
  · rename_i hruns
    have hcore : core ∈ pre.cores := by
      unfold engineRuns at hruns
      simp only [Bool.and_eq_true, decide_eq_true_eq] at hruns
      exact hruns.1
    cases message with
    | newTurn side =>
      refine ⟨hcore, ?_⟩
      split
      · simp [allows_cons, Guarded]
      · trivial
    | damage team value => exact ⟨hcore, trivial⟩
    | recover team value => exact ⟨hcore, trivial⟩
    | payLpCost team value => exact ⟨hcore, trivial⟩
    | win winner => exact handleWinCondition_guarded core winner true rfl (.inl hcore)
  · trivial

theorem determineNextPhase_guarded {index born : Nat} {winner : Winner} {engine : Bool}
    (h : pre.suspended[index]? = some { born := born, work := .duelProcessed winner engine })
    (hborn : born = pre.invokedIn input) :
    Allows (perform cfg) (Guarded cfg pre input) pre
      (pre.determineNextPhase cfg index born winner engine) := by
  unfold determineNextPhase
  split
  · rename_i hfin
    exact ⟨⟨hfin, _, h, rfl⟩, trivial⟩
  · rw [allows_append]
    refine ⟨⟨trivial, trivial, ⟨rfl, hborn, by simp⟩, trivial⟩, ?_⟩
    cases winner with
    | none => simp [assignSideDeckChoice, allows_cons, Guarded]
    | some winner =>
      refine ⟨trivial, ?_⟩
      cases pre.looserOf cfg winner with
      | none => trivial
      | some c => simp [allows_cons, Guarded]

theorem endingSettled_guarded {index born : Nat} {stage : EndingStage} {engine : Bool}
    (h : pre.suspended[index]? = some { born := born, work := .ending stage engine }) :
    Allows (perform cfg) (Guarded cfg pre input) pre (endingSettled index born engine stage) := by
  cases stage with
  | runEnding =>
    refine ⟨trivial, trivial, ⟨{ born := born, work := .ending .runEnding engine }, ?_, rfl⟩,
      trivial⟩
    · have hlisten : (pre.perform cfg (.removeAllListener born)).suspended = pre.suspended := by
        unfold perform
        dsimp only
        split
        · rfl
        · rfl
      change (pre.perform cfg (.removeAllListener born)).suspended[index]? = _
      rw [hlisten, h]
  | sendAllReplays => exact ⟨⟨_, h, rfl⟩, trivial⟩
  | sendAllEvrp => exact ⟨⟨_, h, rfl⟩, trivial⟩
  | finalizeWithReplays => exact ⟨⟨_, h, rfl⟩, trivial, trivial⟩

theorem resolveAbandon_guarded (born : Nat) (team : Team)
    (hfinal : src.finalizing = room.finalizing)
    (hmatch : src.isMatchFinished cfg = room.isMatchFinished cfg)
    (hphase : src.isBetweenDuels = room.isBetweenDuels) :
    Allows (perform cfg) (Guarded cfg pre input) room (src.resolveAbandon cfg born team) := by
  unfold resolveAbandon
  refine ⟨trivial, ?_⟩
  split
  · trivial
  · rename_i hopen
    simp only [Bool.or_eq_true, Bool.not_eq_eq_eq_not, Bool.not_true, not_or,
      Bool.not_eq_true, Bool.not_eq_false] at hopen
    split
    · simp [allows_cons, Guarded]
    · exact ⟨⟨hfinal ▸ hopen.1.1, hmatch ▸ hopen.1.2, hphase ▸ hopen.2⟩, trivial⟩

theorem surrenderBetweenDuels_guarded (c : ClientRef) :
    Allows (perform cfg) (Guarded cfg pre input) room (room.surrenderBetweenDuels cfg c) := by
  unfold surrenderBetweenDuels
  split
  · trivial
  · exact resolveAbandon_guarded _ _ rfl rfl rfl

theorem resendToken_guarded (c : ClientRef) :
    Allows (perform cfg) (Guarded cfg pre input) room (src.resendToken c) := by
  unfold resendToken
  split
  · simp [allows_cons, Guarded]
  · trivial

theorem setDuelFinished_guarded {born : Nat} (h : room.epoch = pre.epoch)
    (hborn : born = pre.invokedIn input) :
    Allows (perform cfg) (Guarded cfg pre input) room (src.setDuelFinished born) := by
  unfold setDuelFinished
  split
  · exact ⟨trivial, ⟨h, hborn, by simp⟩, trivial⟩
  · exact ⟨⟨h, hborn, by simp⟩, trivial⟩

theorem continueWith_guarded {index born : Nat} {k : Continuation} (result : Settled)
    (h : pre.suspended[index]? = some { born := born, work := k }) :
    Allows (perform cfg) (Guarded cfg pre (.settled index result)) pre
      (pre.continueWith cfg index born k result) := by
  have hresume (input : RoomInput) : Allows (perform cfg) (Guarded cfg pre input) pre
      [.resume index] := ⟨trivial, trivial⟩
  have hborn (result : Settled) : born = pre.invokedIn (.settled index result) := by
    simp [invokedIn, h]
  cases k with
  | deckBuiltWaiting c =>
    cases result with
    | built deck => exact ⟨trivial, deckBuiltWaiting_guarded born c deck⟩
    | done => exact hresume _
    | raised => exact hresume _
  | deckBuiltSiding c =>
    cases result with
    | built deck => exact ⟨trivial, deckBuiltSiding_guarded c deck rfl (hborn _)⟩
    | done => exact hresume _
    | raised => exact hresume _
  | initialized core decks =>
    cases result with
    | done =>
      refine ⟨trivial, ⟨_, List.mem_of_getElem? h, decks, rfl⟩, ?_, trivial⟩
      simp [Guarded, Continuation.isProcessing, Continuation.isEnding]
    | built deck => exact hresume _
    | raised => exact hresume _
  | fieldCounted core =>
    cases result with
    | done => exact ⟨trivial, trivial, trivial⟩
    | built deck => exact hresume _
    | raised => exact hresume _
  | responded =>
    cases result with
    | raised => exact ⟨trivial, setDuelFinished_guarded rfl (hborn _)⟩
    | done => exact hresume _
    | built deck => exact hresume _
  | resynced c express =>
    cases result with
    | done =>
      refine ⟨trivial, ?_⟩
      change Allows _ _ _ (_ ++ _)
      rw [allows_append]
      constructor
      · split
        · exact resendToken_guarded c
        · trivial
      · simp [allows_cons, Guarded]
    | built deck => exact hresume _
    | raised => exact hresume _
  | duelProcessed winner engine =>
    cases result with
    | done => exact determineNextPhase_guarded h (hborn _)
    | built deck => exact hresume _
    | raised => exact hresume _
  | ending stage engine =>
    cases result with
    | done => exact endingSettled_guarded h
    | raised =>
      refine ⟨trivial, ?_⟩
      split
      · simp [allows_cons, Guarded]
      · trivial
    | built deck => exact hresume _
  | abandonEnding =>
    cases result with
    | done => exact ⟨⟨_, h, rfl⟩, trivial, trivial⟩
    | raised => exact ⟨trivial, trivial, trivial⟩
    | built deck => exact hresume _

theorem toDuel_guarded {c : ClientRef} (hwork : IsMover pre room c)
    (hclient : room.client = pre.client)
    (hplace : room.calculatePlace cfg = pre.calculatePlace cfg)
    (hnext : ∀ position, room.nextAvailablePosition cfg position =
      pre.nextAvailablePosition cfg position) :
    Allows (perform cfg) (Guarded cfg pre input) room (pre.toDuel cfg c) := by
  unfold toDuel
  split
  · trivial
  · split
    · rename_i hspectator
      unfold promoteSpectator
      split
      · trivial
      · rename_i hleague
        split
        · trivial
        · split
          · trivial
          · rename_i place hp
            refine ⟨⟨hwork, ?_, hplace.trans hp, ?_⟩, trivial⟩
            · rw [hclient]
              exact hspectator
            · rw [hclient]
              simpa using hleague
    · rename_i hplayer
      split
      · trivial
      · rename_i place hp
        refine ⟨⟨?_, ?_⟩, trivial⟩
        · rw [hclient]
          simpa using hplayer
        · rw [hclient, hnext]
          exact hp

theorem runExclusive_guarded {born : Nat} {work : Work}
    (hhead : pre.queue.head? = some { born := born, work := work }) :
    Allows (perform cfg) (Guarded cfg pre .grant) { pre with queue := pre.queue.tail }
      (pre.runExclusive cfg born work) := by
  have h := List.mem_of_head? hhead
  cases work with
  | createDuel => trivial
  | setDecksToPlayer c deck => exact acceptDeck_guarded c deck rfl (by simp [invokedIn, hhead])
  | notReady c => exact notReady_guarded c
  | toObserver c =>
    rw [runExclusive, toObserver]
    split
    · trivial
    · exact ⟨⟨⟨_, h, rfl⟩, rfl⟩, trivial⟩
  | toDuel c => exact toDuel_guarded ⟨⟨_, h, rfl⟩, rfl⟩ rfl rfl (fun _ => rfl)
  | removePlayer c => simp [runExclusive, allows_cons, Guarded]
  | admission request =>
    rw [runExclusive]
    split
    · simp [allows_cons, Guarded]
    · simp [allows_cons, Guarded]
  | markInternal socket =>
    rw [runExclusive, markBot]
    split
    · trivial
    · simp [allows_cons, Guarded]
  | reconnect phase request =>
    rw [runExclusive]
    split
    · simp [allows_cons, Guarded]
    · exact reconnectJoiner_guarded phase (by simp [attemptOf, hhead])

theorem grant_guarded {first : Deferred Work} (h : pre.queue.head? = some first) :
    Allows (perform cfg) (Guarded cfg pre .grant) pre (pre.grant cfg first) := by
  have hother (hw : first.work.createsDuel = false) :
      Allows (perform cfg) (Guarded cfg pre .grant) pre
        (.dequeue :: pre.runExclusive cfg first.born first.work) := by
    refine ⟨?_, runExclusive_guarded h⟩
    intro work hwork
    rw [h] at hwork
    cases hwork
    exact hw
  unfold grant
  cases hw : first.work with
  | createDuel => exact ⟨⟨first, h, by rw [hw]; rfl⟩, trivial⟩
  | _ =>
    rw [hw] at hother
    exact hother rfl

theorem answered_guarded (account : Option UserId) {born : Nat} {lookup : Lookup}
    (h : pre.held = some { born := born, work := lookup }) :
    Allows (perform cfg) (Guarded cfg pre (.answered account)) { pre with held := none }
      (pre.lookupAnswered cfg account lookup) := by
  cases lookup with
  | admission request => exact admitToRoom_guarded request _ rfl
  | reconnect phase request => exact reconnectJoiner_guarded phase (by simp [attemptOf, h])

theorem handleRPSChoice_guarded (sender : ClientRef) (result : Nat)
    (hborn : pre.epoch = pre.invokedIn input) :
    Allows (perform cfg) (Guarded cfg pre input) pre (pre.handleRPSChoice sender result) := by
  unfold handleRPSChoice
  split
  · trivial
  · dsimp only
    split
    · simp [allows_cons, Guarded]
    · split
      · exact ⟨trivial, toRPS_guarded⟩
      · split
        · simp [allows_cons, Guarded]
        · exact ⟨trivial, trivial, ⟨rfl, hborn, by simp⟩, trivial⟩

theorem suspend_guarded {born : Nat} {k : Continuation} (hp : k.isProcessing = false)
    (he : k.isEnding = false) (hi : ∀ core decks, k ≠ .initialized core decks) :
    Allows (perform cfg) (Guarded cfg pre input) room [.suspend { born := born, work := k }] :=
  ⟨⟨hp, he, fun core decks h => absurd h (hi core decks)⟩, trivial⟩

theorem waitingMessage_guarded {sender : ClientRef} (message : Message)
    (h : sender < pre.nextClient) (hborn : pre.epoch = pre.invokedIn input) :
    Allows (perform cfg) (Guarded cfg pre input) pre (pre.waitingMessage cfg sender message) := by
  cases message with
  | tryStart => exact handleTryStart_guarded sender rfl hborn
  | toObserver => simpa [waitingMessage, allows_cons, Guarded, Work.createsDuel, Work.mover] using h
  | toDuel => simpa [waitingMessage, allows_cons, Guarded, Work.createsDuel, Work.mover] using h
  | notReady => simp [waitingMessage, allows_cons, Guarded, Work.createsDuel, Work.mover]
  | updateDeck main side =>
    rw [waitingMessage]
    split
    · trivial
    · exact suspend_guarded rfl rfl (by simp)
  | _ => trivial

theorem duelingMessage_guarded (sender : ClientRef) (message : Message)
    (h : pre.duelState = .dueling) :
    Allows (perform cfg) (Guarded cfg pre input) pre (pre.duelingMessage cfg sender message) := by
  cases message with
  | updateDeck main side =>
    rw [duelingMessage, duelingUpdate]
    split
    · exact suspend_guarded rfl rfl (by simp)
    · trivial
  | surrender => exact handleSurrender_guarded sender h
  | response =>
    rw [duelingMessage]
    split
    · exact suspend_guarded rfl rfl (by simp)
    · trivial
  | _ => trivial

theorem handleMessage_guarded (sender : ClientRef) (message : Message)
    (hborn : pre.epoch = pre.invokedIn input) :
    Allows (perform cfg) (Guarded cfg pre input) pre (pre.handleMessage cfg sender message) := by
  unfold handleMessage
  split
  · trivial
  · rename_i hreceives
    have hsender : sender < pre.nextClient := by
      simp only [receives, Bool.not_eq_eq_eq_not, Bool.not_true, Bool.not_eq_false,
        Bool.and_eq_true, decide_eq_true_eq] at hreceives
      exact hreceives.1.1
    split
    · exact waitingMessage_guarded message hsender hborn
    · cases message with
      | rpsChoice result => exact handleRPSChoice_guarded sender result hborn
      | surrender => exact surrenderBetweenDuels_guarded sender
      | _ => trivial
    · cases message with
      | turnChoice first => exact ⟨trivial, startDuel_guarded rfl hborn rfl⟩
      | surrender => exact surrenderBetweenDuels_guarded sender
      | _ => trivial
    · cases message with
      | updateDeck main side =>
        rw [sideDeckingMessage, sidingUpdate]
        split
        · trivial
        · split
          · trivial
          · exact suspend_guarded rfl rfl (by simp)
      | surrender => exact surrenderBetweenDuels_guarded sender
      | _ => trivial
    · rename_i hstate
      exact duelingMessage_guarded sender message hstate

theorem resend_guarded (c : ClientRef) :
    Allows (perform cfg) (Guarded cfg pre input) room
      (src.resendToken c ++ [.flag c .reconnected]) := by
  rw [allows_append]
  exact ⟨resendToken_guarded c, trivial, trivial⟩

theorem handleExpressReconnect_guarded (token : ReconnectionToken) (socket : Socket) :
    Allows (perform cfg) (Guarded cfg pre (.expressReconnect token socket)) pre
      (pre.handleExpressReconnect cfg token socket) := by
  unfold handleExpressReconnect
  split
  · simp [allows_cons, Guarded]
  · rename_i c hc
    split
    · trivial
    · rename_i hheard
      unfold expressReconnected
      rw [allows_append]
      constructor
      · apply reconnectClient_guarded (.byToken token socket) rfl rfl
        rw [reclaimed, if_neg hheard, hc]
      · split
        · exact suspend_guarded rfl rfl (by simp)
        · exact resend_guarded c
        · split
          · trivial
          · exact resend_guarded c

theorem ordinaryDisconnect_guarded (socketId : Nat) :
    Allows (perform cfg) (Guarded cfg pre input) room (src.ordinaryDisconnect socketId) := by
  unfold ordinaryDisconnect
  split
  · exact ⟨trivial, trivial⟩
  · split
    · exact ⟨trivial, trivial⟩
    · split
      · exact ⟨trivial, trivial⟩
      · split
        · exact ⟨trivial, trivial, trivial⟩
        · split
          · simp [allows_cons, Guarded, Work.createsDuel, Work.mover]
          · trivial

theorem handleDisconnect_guarded (socketId : Nat) :
    Allows (perform cfg) (Guarded cfg pre input) pre (pre.handleDisconnect cfg socketId) := by
  unfold handleDisconnect
  refine ⟨trivial, ?_⟩
  split
  · trivial
  · unfold onDisconnect
    split
    · exact ⟨trivial, trivial⟩
    · split
      · split
        · exact ⟨trivial, trivial⟩
        · exact ordinaryDisconnect_guarded socketId
      · exact ordinaryDisconnect_guarded socketId

theorem handleSideTimeout_guarded (c : ClientRef) :
    Allows (perform cfg) (Guarded cfg pre input) pre (pre.handleSideTimeout cfg c) := by
  unfold handleSideTimeout
  split
  · refine ⟨trivial, ?_⟩
    have htimers : pre.perform cfg (.clearTimers pre.epoch) = { pre with sideTimers := [] } := by
      simp [perform]
    rw [htimers]
    exact resolveAbandon_guarded _ _ rfl rfl rfl
  · trivial

theorem handleGraceOver_guarded (position : Nat) :
    Allows (perform cfg) (Guarded cfg pre input) pre (pre.handleGraceOver cfg position) := by
  unfold handleGraceOver
  split
  · trivial
  · refine ⟨trivial, ?_⟩
    split
    · trivial
    · exact resolveAbandon_guarded _ _ rfl rfl rfl

theorem handleLobbyTimeout_guarded :
    Allows (perform cfg) (Guarded cfg pre input) pre (pre.handleLobbyTimeout cfg) := by
  unfold handleLobbyTimeout
  split
  · trivial
  · split
    · trivial
    · dsimp only
      split
      · exact ⟨trivial, trivial⟩
      · exact ⟨trivial, trivial⟩

theorem handleBotJoin_guarded (request : JoinRequest) :
    Allows (perform cfg) (Guarded cfg pre input) pre (pre.handleBotJoin cfg request) := by
  unfold handleBotJoin
  dsimp only
  rw [allows_append, allows_append]
  refine ⟨⟨?_, ?_⟩, ⟨rfl, by simp [Work.mover]⟩, trivial⟩
  · split
    · trivial
    · exact ⟨trivial, trivial⟩
  · cases pre.listening with
    | true => exact handleJoin_guarded _
    | false => trivial

/-- Every call a handler makes is guarded. -/
theorem calls_guarded (cfg : RoomConfig) (room : YGOProRoom) (input : RoomInput) :
    Allows (perform cfg) (Guarded cfg room input) room (room.calls cfg input) := by
  cases input with
  | join request =>
    rw [calls]
    split
    · exact handleJoin_guarded request
    · trivial
  | matchAdmit request =>
    rw [calls]
    split
    · exact handleJoin_guarded request
    · trivial
  | botJoin request =>
    rw [calls]
    split
    · trivial
    · exact handleBotJoin_guarded request
  | expressReconnect token socket => exact handleExpressReconnect_guarded token socket
  | message sender message => exact handleMessage_guarded sender message rfl
  | grant =>
    rw [calls]
    split
    · trivial
    · split
      · trivial
      · rename_i first rest hqueue
        exact grant_guarded (by rw [hqueue]; rfl)
  | answered account =>
    rw [calls]
    split
    · trivial
    · rename_i lookup hheld
      exact ⟨trivial, answered_guarded account hheld⟩
  | lookupFailed =>
    rw [calls]
    split
    · trivial
    · rename_i lookup hheld
      refine ⟨trivial, ?_⟩
      cases lookup.work with
      | admission request => trivial
      | reconnect phase request => exact ⟨trivial, trivial⟩
  | settled index result =>
    rw [calls]
    split
    · trivial
    · rename_i k hk
      exact continueWith_guarded result hk
  | engine core message => exact handleEngine_guarded core message
  | finishDuelByTimeout winner =>
    rw [calls, handleTimeout]
    split
    · rename_i hstate
      exact handleWinCondition_guarded _ _ _ rfl (.inr ⟨hstate.1, rfl⟩)
    · trivial
  | sideTimeout c => exact handleSideTimeout_guarded c
  | graceOver position => exact handleGraceOver_guarded position
  | disconnect socketId => exact handleDisconnect_guarded socketId
  | lobbyTimeout => exact handleLobbyTimeout_guarded
  | closeRoom => exact ⟨trivial, trivial⟩

end

/-! ## Runs -/

/-- The rooms that a created room becomes by inputs whose calls all meet `ok`. -/
def Runs (cfg : RoomConfig) (ok : YGOProRoom → Call → Prop) : YGOProRoom → Prop :=
  Reached (fun room => ∃ outside, room = create cfg outside) (step cfg)
    (fun room input => Allows (perform cfg) ok room (room.calls cfg input))

theorem Runs.mono {ok ok' : YGOProRoom → Call → Prop} (hok : ∀ room call, ok room call →
    ok' room call) (h : Runs cfg ok room) : Runs cfg ok' room :=
  Reached.mono (fun _ _ hi => hi.mono hok) h

/-- The room after a list of inputs. -/
def after (cfg : RoomConfig) (inputs : List RoomInput) : YGOProRoom :=
  inputs.foldl (step cfg) (create cfg { closedSockets := [], tokens := .empty, minted := 0 })

theorem Runs.after {ok : YGOProRoom → Call → Prop} {inputs : List RoomInput}
    (h : Allows (fun input room => step cfg room input)
      (fun room input => Allows (perform cfg) ok room (room.calls cfg input))
      (create cfg { closedSockets := [], tokens := .empty, minted := 0 }) inputs) :
    Runs cfg ok (after cfg inputs) :=
  Reached.inputs (.start ⟨_, rfl⟩) h

/-- Any inputs run a room, if no condition is put on its calls. -/
theorem runs_after (cfg : RoomConfig) (inputs : List RoomInput) :
    Runs cfg (fun _ _ => True) (after cfg inputs) :=
  Runs.after (.of_forall (fun _ _ _ => .of_forall (fun _ _ _ => trivial)))

/-- What guarded calls keep, an input keeps. -/
theorem step_preserves {P : YGOProRoom → Prop} {ok : YGOProRoom → Call → Prop}
    (hcall : ∀ pre input room call, P pre → P room → Guarded cfg pre input room call →
      ok room call → P (room.perform cfg call))
    {input : RoomInput} (hok : Allows (perform cfg) ok room (room.calls cfg input))
    (h : P room) : P (room.step cfg input) :=
  ((calls_guarded cfg room input).and hok).preserves
    (fun r call hr hg => hcall room input r call h hr hg.1 hg.2) h

/-- What holds of a created room and is kept by every guarded call holds in every run. -/
theorem Runs.invariant {P : YGOProRoom → Prop} {ok : YGOProRoom → Call → Prop}
    (hstart : ∀ outside, P (create cfg outside))
    (hcall : ∀ pre input room call, P pre → P room → Guarded cfg pre input room call →
      ok room call → P (room.perform cfg call))
    (h : Runs cfg ok room) : P room := by
  apply Reached.invariant _ _ h
  · intro s hs
    obtain ⟨outside, rfl⟩ := hs
    exact hstart outside
  · intro s input hs hok
    exact step_preserves hcall hok hs

/-! ## A room to try things in -/

/-- A casual best of three that checks no decks. -/
def casualRoom : RoomConfig :=
  { id := 1, createdBySocketId := 0, team0 := 1, team1 := 1, bestOf := 3, startLp := 8000,
    isTag := false, league := .casual, hasPassword := false, noCheckDeck := true,
    deckRules :=
      { mainMin := 40, mainMax := 60, extraMin := 0, extraMax := 15, sideMin := 0, sideMax := 15,
        rule := .all, maxDeckPoints := 100 },
    banList :=
      { forbidden := [], limited := [], semiLimited := [], all := [], points := .empty,
        creditLimits := .empty, name := none, isWhiteListed := false },
    rule := .all, sideTimeoutMinutes := 0, noHost := false, noReconnect := false,
    isMatchmaking := false, reservedUserIds := [], reservedDuel := none }

def guestSocket (id : Nat) : Socket :=
  { id := id, remoteAddress := none, clientName := none, resolvedUserId := none,
    internalForRoomId := none, watchForRoomId := none, inviteForRoomId := none }

def guest (id : Nat) (name : String) : JoinRequest :=
  { name := name, hasPin := false, socket := guestSocket id }

/-- A guest joins and sits down, if it may. -/
def joining (id : Nat) (name : String) : List RoomInput :=
  [.join (guest id name), .grant, .answered none]

def emptyDeck : Deck :=
  { main := [], side := [], extra := [], banList := casualRoom.banList,
    deckRules := casualRoom.deckRules }

/-- Two players show their decks, while nothing else is pending. -/
def decksShown : List RoomInput :=
  [.message 0 (.updateDeck [] []), .message 1 (.updateDeck [] []),
    .settled 0 (.built (some emptyDeck)), .settled 0 (.built (some emptyDeck)), .grant, .grant]

/-- Two guests sit and are ready. -/
def guestsReady : List RoomInput := joining 0 "A" ++ joining 1 "B" ++ decksShown

/-- From the lobby to a running duel. -/
def duelBegins : List RoomInput :=
  [.message 0 .tryStart, .message 0 (.rpsChoice 1), .message 1 (.rpsChoice 2),
    .message 1 (.turnChoice true), .grant, .settled 0 .done, .settled 0 .done]

/-- The same room for players who authenticate. -/
def rankedRoom : RoomConfig := { casualRoom with league := .external }

def member (id : Nat) (name : String) : JoinRequest :=
  { name := name, hasPin := true, socket := guestSocket id }

/-- Two members sit and are ready. -/
def membersReady : List RoomInput :=
  [.join (member 0 "A"), .grant, .answered (some "a"), .join (member 1 "B"), .grant,
    .answered (some "b")] ++ decksShown

/-- A third member joins while the turn order is chosen, and the mutex is kept for its lookup when
the duel starts. -/
def joinHoldsMutex : List RoomInput :=
  [.message 0 .tryStart, .message 0 (.rpsChoice 1), .message 1 (.rpsChoice 2),
    .join (member 2 "C"), .grant, .message 1 (.turnChoice true)]

/-- The first duel breaks down, and the match is started again. -/
def restarted : List RoomInput :=
  guestsReady ++ duelBegins ++ [.message 0 .response, .settled 0 .raised] ++ decksShown ++
    [.message 0 .tryStart]

theorem restarted_token :
    ((after casualRoom restarted).client 0).reconnectionToken ≠ some 0 := by
  decide +kernel

end YGOProRoom

end EdoproServer.Room
