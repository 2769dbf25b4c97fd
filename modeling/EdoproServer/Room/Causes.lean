import EdoproServer.Room.Log

namespace EdoproServer.Room
open Decks Lib

/-! ## Where work that is left for later belongs -/

/-- The phase whose handlers queue such a section. -/
def Work.home : Work → Option DuelState
  | .setDecksToPlayer _ _ | .notReady _ | .toObserver _ | .toDuel _ | .removePlayer _
  | .admission _ => some .waiting
  | .createDuel | .markInternal _ | .reconnect _ _ => none

def Lookup.home : Lookup → Option DuelState
  | .admission _ => some .waiting
  | .reconnect _ _ => none

/-- The phase whose handlers suspend so. -/
def Continuation.home : Continuation → Option DuelState
  | .deckBuiltWaiting _ => some .waiting
  | .deckBuiltSiding _ => some .sideDecking
  | .initialized _ _ | .fieldCounted _ | .responded | .duelProcessed _ _ => some .dueling
  | .resynced _ _ | .ending _ _ | .abandonEnding => none

namespace YGOProRoom

/-- The phase to which the handler belongs that an input resumes. -/
def homeOf (room : YGOProRoom) : RoomInput → Option DuelState
  | .grant => room.queue.head?.bind (fun work => work.work.home)
  | .answered _ => room.held.bind (fun lookup => lookup.work.home)
  | .lookupFailed => room.held.bind (fun lookup => lookup.work.home)
  | .settled index _ => room.suspended[index]?.bind (fun k => k.work.home)
  | _ => none

/-- Something is left for later by a handler of the present phase, or instead of something that
was left for later in its phase. -/
def LeftAtHome (pre room : YGOProRoom) (born : Nat) (home : Option DuelState) : Prop :=
  ∀ phase ∈ home, born = room.epoch ∧ room.duelState = phase ∨
    (∃ work ∈ pre.queue, work.born = born ∧ work.work.home = some phase) ∨
    ∃ k ∈ pre.suspended, k.born = born ∧ k.work.home = some phase

/-! ## What makes a room go on -/

/-- A connected client of the room chooses who goes first, in the phase for it. -/
def ChoosesTurn (room : YGOProRoom) (input : RoomInput) : Prop :=
  ∃ sender first, input = .message sender (.turnChoice first) ∧ room.receives sender = true ∧
    room.duelState = .choosingOrder

/-- A connected captain shows a hand, in the phase for it. -/
def ShowsHand (room : YGOProRoom) (sender : ClientRef) (result : Nat) (input : RoomInput) : Prop :=
  input = .message sender (.rpsChoice result) ∧ room.receives sender = true ∧
    room.duelState = .rps ∧ (room.client sender).isCaptain = true ∧
    (room.client sender).isSpectator = false

/-- The hands of both captains are shown and differ. -/
def HandsDecide (room : YGOProRoom) (input : RoomInput) : Prop :=
  ∃ sender result, ShowsHand room sender result input ∧
    (room.handsWith sender result).1 ≠ 0 ∧ (room.handsWith sender result).2 ≠ 0 ∧
    (room.handsWith sender result).1 ≠ (room.handsWith sender result).2

/-- The host of a room without a reservation starts while every player is ready. -/
def HostStarts (cfg : RoomConfig) (room : YGOProRoom) (input : RoomInput) : Prop :=
  ∃ sender, input = .message sender .tryStart ∧ room.receives sender = true ∧
    room.duelState = .waiting ∧ cfg.reservedDuel = none ∧ (room.client sender).host = true ∧
    room.allPlayersReady = true

/-- The room once a deck was accepted in the lobby. -/
def decked (cfg : RoomConfig) (room : YGOProRoom) (c : ClientRef) (deck : Deck) : YGOProRoom :=
  performAll (perform cfg) room (room.setDecksToPlayer c deck)

/-- The deck that was still missing is accepted in a reserved duel, whose seats are all taken. -/
def ReservationStarts (cfg : RoomConfig) (room : YGOProRoom) (input : RoomInput) : Prop :=
  input = .grant ∧ cfg.reservedDuel.isSome = true ∧
    ∃ work ∈ room.queue.head?, ∃ c deck, work.work = .setDecksToPlayer c deck ∧
      (room.decked cfg c deck).isPlayersFull cfg = true ∧
      (room.decked cfg c deck).allPlayersReady = true

/-- The room once a side deck was accepted. -/
def sided (cfg : RoomConfig) (room : YGOProRoom) (born : Nat) (c : ClientRef) (deck : Deck) :
    YGOProRoom :=
  performAll (perform cfg) room
    (room.setDecksToPlayer c deck ++ [.flag c .ready, .clearTimer born (room.client c).position])

/-- The side deck that was still missing is accepted. -/
def SidingCompletes (cfg : RoomConfig) (room : YGOProRoom) (input : RoomInput) : Prop :=
  ∃ index c deck, input = .settled index (.built (some deck)) ∧
    ∃ k ∈ room.suspended[index]?, k.work = .deckBuiltSiding c ∧
      (room.sided cfg k.born c deck).allPlayersReady = true

/-- A deck was accepted in the present room state for the seat of a client. -/
def AcceptedFor (room : YGOProRoom) (c : ClientRef) : Prop :=
  ∃ p ∈ room.players, ∃ deck, (room.client p).position = (room.client c).position ∧
    .deckAccepted room.epoch p deck ∈ room.log

/-- The handler that the input resumes belongs to a phase, and no other has begun since. -/
def StillIn (pre : YGOProRoom) (input : RoomInput) (room : YGOProRoom) (phase : DuelState) : Prop :=
  pre.homeOf input = some phase ∧ room.duelState = pre.duelState

/-- A side deck was built for the client that sent it. -/
def SidesWith (room : YGOProRoom) (deck : Deck) (input : RoomInput) : Prop :=
  ∃ index c, input = .settled index (.built (some deck)) ∧
    ∃ k ∈ room.suspended[index]?, k.work = .deckBuiltSiding c

/-- A suspended handler of a kind is resumed, with a result. -/
def Resumes (room : YGOProRoom) (kind : Continuation → Prop) (result : Settled)
    (input : RoomInput) : Prop :=
  ∃ index, input = .settled index result ∧ ∃ k ∈ room.suspended[index]?, kind k.work

/-- What it takes for a handler to make a call in `room`. `pre` is the room in which the handler
was resumed by `input`. -/
@[simp] def Caused (cfg : RoomConfig) (pre : YGOProRoom) (input : RoomInput) (room : YGOProRoom) :
    Call → Prop
  | .enqueue work => LeftAtHome pre room work.born work.work.home
  | .hold lookup => LeftAtHome pre room lookup.born lookup.work.home
  | .suspend k => LeftAtHome pre room k.born k.work.home ∧
    ∀ core decks, k.work = .initialized core decks → core.state = k.born
  | .resume index | .publishGameOver index =>
    (∃ result, input = .settled index result) ∧ room.suspended = pre.suspended
  | .processDuelEnd duel _ _ => room.matchId = pre.matchId ∧
    ((∃ winner, input = .engine duel (.win winner)) ∨ duel = pre.currentCore)
  | .addPlayer _ _ _ | .removePlayer _ | .playerToSpectator _ | .spectatorToPlayer _ _
  | .movePlayerToAnotherCell _ _ => StillIn pre input room .waiting
  | .setDecks p deck => p ∈ room.players ∧ (StillIn pre input room .waiting ∨
    StillIn pre input room .sideDecking ∧ SidesWith pre deck input)
  | .flag c .ready => StillIn pre input room .sideDecking ∧
    (c ∈ room.players → room.AcceptedFor c)
  | .setHandResult hands => ∃ sender result, ShowsHand pre sender result input ∧
    (hands = (0, 0) ∨ hands = pre.handsWith sender result)
  | .enter _ target =>
    target = .choosingOrder ∧ HandsDecide pre input ∨
    target = .waiting ∧ Resumes pre (· = .responded) .raised input ∨
    target = .sideDecking ∧
      Resumes pre (fun k => ∃ winner engine, k = .duelProcessed winner engine) .done input
  | .startMatch _ => HostStarts cfg pre input ∨ ReservationStarts cfg pre input
  | .leaveSideDecking _ target =>
    (target = .rps ∨ target = .choosingOrder) ∧ SidingCompletes cfg pre input ∧
      room.allPlayersReady = true
  | .dueling _ => ChoosesTurn pre input
  | _ => True

variable {cfg : RoomConfig} {room pre src : YGOProRoom} {input : RoomInput}

theorem leftAtHome_none (born : Nat) : LeftAtHome pre room born none := by
  intro phase hphase
  cases hphase

theorem leftAtHome_now {home : Option DuelState} {phase : DuelState} (h : home = some phase)
    (hphase : room.duelState = phase) : LeftAtHome pre room room.epoch home := by
  intro other hother
  rw [h] at hother
  cases hother
  exact .inl ⟨rfl, hphase⟩

theorem leftAtHome_suspended {index born : Nat} {k : Continuation}
    (h : pre.suspended[index]? = some { born := born, work := k }) {home : Option DuelState}
    (hhome : k.home = home) : LeftAtHome pre room born home := by
  intro phase hphase
  exact .inr (.inr ⟨_, List.mem_of_getElem? h, rfl, hhome.trans hphase⟩)

/-! ### The lobby -/

theorem handleJoin_caused (request : JoinRequest) (hepoch : src.epoch = room.epoch)
    (hphase : src.duelState = room.duelState) :
    Allows (perform cfg) (Caused cfg pre input) room (src.handleJoin cfg request) := by
  unfold handleJoin
  split
  · simp [allows_cons]
  · split
    · rename_i hwaiting
      split
      · simp [allows_cons]
      · refine ⟨?_, trivial⟩
        rw [Caused, hepoch]
        exact leftAtHome_now rfl (hphase ▸ hwaiting)
    · exact ⟨leftAtHome_none _, trivial⟩

theorem admitSpectator_caused (request : JoinRequest) (credential : PlayerCredential) :
    Allows (perform cfg) (Caused cfg pre input) room (admitSpectator cfg request credential) := by
  unfold admitSpectator
  split
  · simp [allows_cons]
  · simp [allows_cons]

theorem admitToRoom_caused (request : JoinRequest) (credential : PlayerCredential)
    (h : StillIn pre input room .waiting) :
    Allows (perform cfg) (Caused cfg pre input) room (src.admitToRoom cfg request credential) := by
  unfold admitToRoom
  split
  · simp [allows_cons]
  · split
    · exact admitSpectator_caused request credential
    · split
      · unfold seatPlayer
        split
        · simp [allows_cons]
        · exact ⟨h, trivial⟩
      · exact admitSpectator_caused request credential

theorem reconnectClient_caused (c : ClientRef) (socket : Socket) :
    Allows (perform cfg) (Caused cfg pre input) room (src.reconnectClient c socket) := by
  refine ⟨trivial, ?_⟩
  split
  · simp [allows_cons]
  · trivial

theorem reconnectJoiner_caused (phase : DuelState) (request : JoinRequest)
    (joinerUserId : Option UserId) :
    Allows (perform cfg) (Caused cfg pre input) room
      (src.reconnectJoiner cfg phase request joinerUserId) := by
  unfold reconnectJoiner
  split
  · simp [allows_cons]
  · rw [allows_append]
    refine ⟨reconnectClient_caused _ _, ?_⟩
    split
    · simp [allows_cons]
    · trivial

theorem toRPS_caused : Allows (perform cfg) (Caused cfg pre input) room src.toRPS := by
  unfold toRPS
  split
  · simp [allows_cons]
  · trivial

theorem startMatch_caused {born : Nat}
    (h : HostStarts cfg pre input ∨ ReservationStarts cfg pre input) :
    Allows (perform cfg) (Caused cfg pre input) room (src.startMatch born) := by
  unfold startMatch
  split
  · trivial
  · rw [allows_append, allows_append]
    refine ⟨⟨?_, toRPS_caused⟩, h, trivial⟩
    unfold issueTokens
    split
    · trivial
    · exact Allows.of_forall (by simp)

theorem setDecksToPlayer_caused (c : ClientRef) (deck : Deck)
    (h : StillIn pre input room .waiting ∨
      StillIn pre input room .sideDecking ∧ SidesWith pre deck input)
    (hplayers : room.players = src.players) :
    Allows (perform cfg) (Caused cfg pre input) room (src.setDecksToPlayer c deck) := by
  unfold setDecksToPlayer
  split
  · trivial
  · rename_i p hfind
    exact ⟨⟨hplayers ▸ List.mem_of_find?_eq_some hfind, h⟩, trivial⟩

/-- A deck that is accepted in the lobby may start a reserved duel. -/
theorem acceptDeck_caused {born : Nat} {c : ClientRef} {deck : Deck}
    (hhead : pre.queue.head? = some { born := born, work := .setDecksToPlayer c deck })
    (hphase : room.duelState = pre.duelState) (hplayers : room.players = pre.players) :
    Allows (perform cfg) (Caused cfg pre .grant) room (pre.acceptDeck cfg born c deck) := by
  have hhome : pre.homeOf .grant = some .waiting := by simp [homeOf, hhead, Work.home]
  unfold acceptDeck
  dsimp only
  rw [allows_append]
  refine ⟨setDecksToPlayer_caused c deck (.inl ⟨hhome, hphase⟩) hplayers, ?_⟩
  unfold startReservedDuelWhenReady
  split
  · rename_i hready
    simp only [Bool.and_eq_true] at hready
    apply startMatch_caused
    exact .inr ⟨rfl, hready.1.1, _, hhead, c, deck, rfl, hready.1.2, hready.2⟩
  · trivial

theorem notReady_caused (c : ClientRef) :
    Allows (perform cfg) (Caused cfg pre input) room (src.notReady c) := by
  unfold notReady
  split
  · trivial
  · simp [allows_cons]

/-- A deck that was built in the lobby waits for the mutex there. -/
theorem deckBuiltWaiting_caused {index born : Nat} {c : ClientRef} (deck : Option Deck)
    (h : pre.suspended[index]? = some { born := born, work := .deckBuiltWaiting c }) :
    Allows (perform cfg) (Caused cfg pre input) room (src.deckBuiltWaiting cfg born c deck) := by
  have hqueued (deck : Deck) : Allows (perform cfg) (Caused cfg pre input) room
      [.enqueue { born := born, work := .setDecksToPlayer c deck }] :=
    ⟨leftAtHome_suspended h rfl, trivial⟩
  cases deck with
  | none => exact notReady_caused c
  | some deck =>
    rw [deckBuiltWaiting]
    split
    · exact hqueued deck
    · split
      · exact notReady_caused c
      · split
        · unfold honoursReservedDeck
          split
          · trivial
          · split
            · exact hqueued deck
            · exact notReady_caused c
        · exact hqueued deck

/-! ### Side decking -/

theorem allPlayersReady_congr {room' : YGOProRoom} (h : room'.toSeating = room.toSeating) :
    room'.allPlayersReady = room.allPlayersReady := by
  simp [allPlayersReady, h]

theorem allPlayersReady_captain (c : ClientRef) :
    (room.perform cfg (.flag c .captain)).allPlayersReady = room.allPlayersReady := by
  have hready : ∀ p, ((room.perform cfg (.flag c .captain)).client p).isReady =
      (room.client p).isReady := by
    intro p
    by_cases hp : p = c
    · subst hp
      simp [perform, Seating.modify, ClientFlag.set, YGOProClient.captain]
    · simp [perform, Seating.modify, Function.update_of_ne hp]
  have hplayers : (room.perform cfg (.flag c .captain)).players = room.players := rfl
  simp only [allPlayersReady, hready, hplayers]

theorem allPlayersReady_toRPS :
    (performAll (perform cfg) room src.toRPS).allPlayersReady = room.allPlayersReady := by
  unfold toRPS
  split
  · rw [performAll_cons, performAll_cons, performAll_nil, allPlayersReady_captain,
      allPlayersReady_captain]
  · rfl

theorem perform_clearTimer_toSeating (born position : Nat) :
    (room.perform cfg (.clearTimer born position)).toSeating = room.toSeating := by
  unfold perform
  dsimp only
  split
  · rfl
  · rfl

theorem perform_clearTimers_toSeating (born : Nat) :
    (room.perform cfg (.clearTimers born)).toSeating = room.toSeating := by
  unfold perform
  dsimp only
  split
  · rfl
  · rfl

theorem nextChoice_caused {born : Nat} (h : SidingCompletes cfg pre input)
    (hready : room.allPlayersReady = true) :
    Allows (perform cfg) (Caused cfg pre input) room (src.nextChoice born) := by
  unfold nextChoice
  split
  · rw [allows_append]
    refine ⟨⟨trivial, toRPS_caused⟩, ⟨.inl rfl, h, ?_⟩, trivial⟩
    rw [performAll_cons, allPlayersReady_toRPS]
    exact hready
  · exact ⟨⟨.inr rfl, h, hready⟩, trivial⟩

theorem setDecks_position (p q : ClientRef) (deck : Deck) :
    ((room.perform cfg (.setDecks p deck)).client q).position = (room.client q).position := by
  by_cases hq : q = p
  · subst hq
    simp [perform, setDecks, Seating.modify, YGOProClient.setDeck, YGOProClient.ready]
  · simp [perform, setDecks, Seating.modify, Function.update_of_ne hq]

/-- A deck is accepted for the seat of its sender, if that is a seat. -/
theorem acceptedFor_setDecksToPlayer {c : ClientRef} {deck : Deck}
    (hseating : room.toSeating = pre.toSeating) (hc : c ∈ pre.players) :
    (performAll (perform cfg) room (pre.setDecksToPlayer c deck)).AcceptedFor c := by
  have hplayers : room.players = pre.players := congrArg Seating.players hseating
  have hclient : room.client = pre.client := congrArg Seating.client hseating
  unfold setDecksToPlayer
  cases hfind : pre.players.find?
      (fun p => (pre.client p).position = (pre.client c).position) with
  | none =>
    have hnone := List.find?_eq_none.mp hfind c hc
    simp at hnone
  | some p =>
    have hposition := List.find?_some hfind
    simp only [decide_eq_true_eq] at hposition
    refine ⟨p, hplayers ▸ List.mem_of_find?_eq_some hfind, deck, ?_, ?_⟩
    · simp only [performAll_cons, performAll_nil, setDecks_position, hclient, hposition]
    · simp [perform, setDecks]

theorem setDecksToPlayer_toSeating {c : ClientRef} {deck : Deck}
    (hseating : room.toSeating = pre.toSeating) :
    (performAll (perform cfg) room (pre.setDecksToPlayer c deck)).toSeating =
      (performAll (perform cfg) pre (pre.setDecksToPlayer c deck)).toSeating := by
  unfold setDecksToPlayer
  split
  · exact hseating
  · simp [perform, setDecks, hseating]

/-- A side deck is accepted for the player at the position of its sender. -/
theorem sideDeck_caused {index born : Nat} {c : ClientRef} {deck : Deck}
    (h : pre.suspended[index]? = some { born := born, work := .deckBuiltSiding c })
    (hseating : room.toSeating = pre.toSeating) (hphase : room.duelState = pre.duelState) :
    Allows (perform cfg) (Caused cfg pre (.settled index (.built (some deck)))) room
      (pre.sideDeck cfg born c deck) := by
  have hhome : pre.homeOf (.settled index (.built (some deck))) = some .sideDecking := by
    simp [homeOf, h, Continuation.home]
  have hplayers : room.players = pre.players := congrArg Seating.players hseating
  have hset : (performAll (perform cfg) room (pre.setDecksToPlayer c deck)).duelState =
        room.duelState ∧
      (performAll (perform cfg) room (pre.setDecksToPlayer c deck)).players = room.players := by
    unfold setDecksToPlayer
    split
    · exact ⟨rfl, rfl⟩
    · exact ⟨rfl, rfl⟩
  unfold sideDeck
  dsimp only
  rw [allows_append, allows_append]
  refine ⟨⟨setDecksToPlayer_caused c deck (.inr ⟨⟨hhome, hphase⟩, index, c, rfl, _, h, rfl⟩)
    hplayers, ⟨⟨hhome, ?_⟩, ?_⟩, trivial, trivial⟩, ?_⟩
  · exact hset.1.trans hphase
  · intro hc
    rw [hset.2, hplayers] at hc
    exact acceptedFor_setDecksToPlayer hseating hc
  · unfold finishSiding
    split
    · rename_i hready
      refine ⟨trivial, nextChoice_caused ⟨index, c, deck, rfl, _, h, rfl, hready⟩ ?_⟩
      rw [allPlayersReady_congr (perform_clearTimers_toSeating born), ← hready]
      apply allPlayersReady_congr
      rw [performAll_append, performAll_append, performAll_cons, performAll_cons, performAll_nil,
        performAll_cons, performAll_cons, performAll_nil, perform_clearTimer_toSeating,
        perform_clearTimer_toSeating]
      simp only [perform, setDecksToPlayer_toSeating hseating]
    · trivial

theorem deckBuiltSiding_caused {index born : Nat} {c : ClientRef} (deck : Option Deck)
    (h : pre.suspended[index]? = some { born := born, work := .deckBuiltSiding c })
    (hseating : room.toSeating = pre.toSeating) (hphase : room.duelState = pre.duelState) :
    Allows (perform cfg) (Caused cfg pre (.settled index (.built deck))) room
      (pre.deckBuiltSiding cfg born c deck) := by
  cases deck with
  | none => exact notReady_caused c
  | some deck =>
    rw [deckBuiltSiding]
    split
    · exact notReady_caused c
    · split
      · exact notReady_caused c
      · exact sideDeck_caused h hseating hphase

/-! ### Duels -/

theorem startDuel_caused {born : Nat} (h : ChoosesTurn pre input)
    (hepoch : src.epoch = room.epoch) :
    Allows (perform cfg) (Caused cfg pre input) room (src.startDuel born) := by
  unfold startDuel
  dsimp only
  refine ⟨h, ?_⟩
  split
  · trivial
  · refine ⟨trivial, ⟨?_, ?_⟩, trivial⟩
    · intro phase hphase
      cases hphase
      exact .inl ⟨congrArg (· + 1) hepoch, rfl⟩
    · intro core decks hcore
      cases hcore
      rfl

theorem handleWinCondition_caused {duel : Core} (winner : Winner) (engine : Bool)
    (hmatch : room.matchId = pre.matchId)
    (hduel : (∃ winner, input = .engine duel (.win winner)) ∨ duel = pre.currentCore) :
    Allows (perform cfg) (Caused cfg pre input) room
      (src.handleWinCondition duel winner engine) := by
  unfold handleWinCondition
  split
  · trivial
  · exact ⟨⟨hmatch, hduel⟩, trivial⟩

theorem handleSurrender_caused (c : ClientRef) :
    Allows (perform cfg) (Caused cfg pre input) pre (pre.handleSurrender cfg c) := by
  have hclear : Allows (perform cfg) (Caused cfg pre input) pre
      (.clearSurrenders :: pre.executeSurrender c) :=
    ⟨trivial, handleWinCondition_caused _ _ rfl (.inr rfl)⟩
  unfold handleSurrender
  split
  · trivial
  · split
    · exact handleWinCondition_caused _ _ rfl (.inr rfl)
    · split
      · exact hclear
      · split
        · exact hclear
        · split
          · trivial
          · split
            · exact hclear
            · simp [allows_cons]

theorem handleEngine_caused (core : Core) (message : EngineMessage) :
    Allows (perform cfg) (Caused cfg pre (.engine core message)) pre
      (pre.handleEngine cfg core message) := by
  unfold handleEngine
  split
  · cases message with
    | newTurn side =>
      refine ⟨trivial, ?_⟩
      split
      · simp [allows_cons]
      · trivial
    | win winner => exact handleWinCondition_caused winner true rfl (.inl ⟨winner, rfl⟩)
    | _ => exact ⟨trivial, trivial⟩
  · trivial

theorem determineNextPhase_caused {index born : Nat} {winner : Winner} {engine : Bool}
    (h : pre.suspended[index]? = some { born := born, work := .duelProcessed winner engine }) :
    Allows (perform cfg) (Caused cfg pre (.settled index .done)) pre
      (pre.determineNextPhase cfg index born winner engine) := by
  unfold determineNextPhase
  split
  · exact ⟨trivial, trivial⟩
  · rw [allows_append]
    refine ⟨⟨⟨⟨_, rfl⟩, rfl⟩, trivial, ?_, trivial⟩, ?_⟩
    · exact .inr (.inr ⟨rfl, index, rfl, _, h, winner, engine, rfl⟩)
    · cases winner with
      | none => simp [assignSideDeckChoice, allows_cons]
      | some winner =>
        refine ⟨trivial, ?_⟩
        cases pre.looserOf cfg winner with
        | none => trivial
        | some c => simp [allows_cons]

theorem endingSettled_caused {index born : Nat} {stage : EndingStage} {engine : Bool}
    {result : Settled} :
    Allows (perform cfg) (Caused cfg pre (.settled index result)) pre
      (endingSettled index born engine stage) := by
  cases stage with
  | runEnding => exact ⟨trivial, trivial, trivial, trivial⟩
  | sendAllReplays => exact ⟨trivial, trivial⟩
  | sendAllEvrp => exact ⟨trivial, trivial⟩
  | finalizeWithReplays => exact ⟨⟨⟨_, rfl⟩, rfl⟩, trivial, trivial⟩

theorem resolveAbandon_caused (born : Nat) (team : Team) :
    Allows (perform cfg) (Caused cfg pre input) room (src.resolveAbandon cfg born team) := by
  unfold resolveAbandon
  refine ⟨trivial, ?_⟩
  split
  · trivial
  · split
    · simp [allows_cons]
    · simp [allows_cons]

theorem surrenderBetweenDuels_caused (c : ClientRef) :
    Allows (perform cfg) (Caused cfg pre input) room (src.surrenderBetweenDuels cfg c) := by
  unfold surrenderBetweenDuels
  split
  · trivial
  · exact resolveAbandon_caused _ _

theorem resendToken_caused (c : ClientRef) :
    Allows (perform cfg) (Caused cfg pre input) room (src.resendToken c) := by
  unfold resendToken
  split
  · simp [allows_cons]
  · trivial

theorem setDuelFinished_caused {born : Nat} (h : Resumes pre (· = .responded) .raised input) :
    Allows (perform cfg) (Caused cfg pre input) room (src.setDuelFinished born) := by
  have henter (room : YGOProRoom) : Allows (perform cfg) (Caused cfg pre input) room
      [.enter born .waiting] := ⟨.inr (.inl ⟨rfl, h⟩), trivial⟩
  unfold setDuelFinished
  split
  · exact ⟨trivial, henter _⟩
  · exact henter _

theorem continueWith_caused {index born : Nat} {k : Continuation} (result : Settled)
    (h : pre.suspended[index]? = some { born := born, work := k }) :
    Allows (perform cfg) (Caused cfg pre (.settled index result)) pre
      (pre.continueWith cfg index born k result) := by
  have hresume (result : Settled) :
      Allows (perform cfg) (Caused cfg pre (.settled index result)) pre [.resume index] :=
    ⟨⟨⟨result, rfl⟩, rfl⟩, trivial⟩
  cases k with
  | deckBuiltWaiting c =>
    cases result with
    | built deck => exact ⟨⟨⟨_, rfl⟩, rfl⟩, deckBuiltWaiting_caused deck h⟩
    | done => exact hresume _
    | raised => exact hresume _
  | deckBuiltSiding c =>
    cases result with
    | built deck => exact ⟨⟨⟨_, rfl⟩, rfl⟩, deckBuiltSiding_caused deck h rfl rfl⟩
    | done => exact hresume _
    | raised => exact hresume _
  | initialized core decks =>
    cases result with
    | done =>
      refine ⟨⟨⟨_, rfl⟩, rfl⟩, trivial, ⟨leftAtHome_suspended h rfl, ?_⟩, trivial⟩
      intro other decks hother
      cases hother
    | built deck => exact hresume _
    | raised => exact hresume _
  | fieldCounted core =>
    cases result with
    | done => exact ⟨⟨⟨_, rfl⟩, rfl⟩, trivial, trivial⟩
    | built deck => exact hresume _
    | raised => exact hresume _
  | responded =>
    cases result with
    | raised => exact ⟨⟨⟨_, rfl⟩, rfl⟩, setDuelFinished_caused ⟨index, rfl, _, h, rfl⟩⟩
    | done => exact hresume _
    | built deck => exact hresume _
  | resynced c express =>
    cases result with
    | done =>
      refine ⟨⟨⟨_, rfl⟩, rfl⟩, ?_⟩
      change Allows _ _ _ (_ ++ _)
      rw [allows_append]
      constructor
      · split
        · exact resendToken_caused c
        · trivial
      · simp [allows_cons]
    | built deck => exact hresume _
    | raised => exact hresume _
  | duelProcessed winner engine =>
    cases result with
    | done => exact determineNextPhase_caused h
    | built deck => exact hresume _
    | raised => exact hresume _
  | ending stage engine =>
    cases result with
    | done => exact endingSettled_caused
    | raised =>
      refine ⟨⟨⟨_, rfl⟩, rfl⟩, ?_⟩
      split
      · simp [allows_cons]
      · trivial
    | built deck => exact hresume _
  | abandonEnding =>
    cases result with
    | done => exact ⟨⟨⟨_, rfl⟩, rfl⟩, trivial, trivial⟩
    | raised => exact ⟨⟨⟨_, rfl⟩, rfl⟩, trivial, trivial⟩
    | built deck => exact hresume _

/-! ### The mutex -/

theorem toDuel_caused (c : ClientRef) (h : StillIn pre input room .waiting) :
    Allows (perform cfg) (Caused cfg pre input) room (src.toDuel cfg c) := by
  unfold toDuel
  split
  · trivial
  · split
    · unfold promoteSpectator
      split
      · trivial
      · split
        · trivial
        · split
          · trivial
          · exact ⟨h, trivial⟩
    · split
      · trivial
      · exact ⟨h, trivial⟩

theorem runExclusive_caused {born : Nat} {work : Work}
    (hhead : pre.queue.head? = some { born := born, work := work }) :
    Allows (perform cfg) (Caused cfg pre .grant) { pre with queue := pre.queue.tail }
      (pre.runExclusive cfg born work) := by
  have hhome : pre.homeOf .grant = work.home := by simp [homeOf, hhead]
  cases work with
  | createDuel => trivial
  | setDecksToPlayer c deck => exact acceptDeck_caused hhead rfl rfl
  | notReady c => exact notReady_caused c
  | toObserver c =>
    rw [runExclusive, toObserver]
    split
    · trivial
    · exact ⟨⟨hhome, rfl⟩, trivial⟩
  | toDuel c => exact toDuel_caused c ⟨hhome, rfl⟩
  | removePlayer c => exact ⟨⟨hhome, rfl⟩, trivial⟩
  | admission request =>
    rw [runExclusive]
    split
    · simp [allows_cons]
    · refine ⟨?_, trivial⟩
      intro phase hphase
      exact .inr (.inl ⟨_, List.mem_of_head? hhead, rfl, hphase⟩)
  | markInternal socket =>
    rw [runExclusive, markBot]
    split
    · trivial
    · simp [allows_cons]
  | reconnect phase request =>
    rw [runExclusive]
    split
    · exact ⟨leftAtHome_none _, trivial⟩
    · exact reconnectJoiner_caused phase request none

theorem grant_caused {first : Deferred Work} (h : pre.queue.head? = some first) :
    Allows (perform cfg) (Caused cfg pre .grant) pre (pre.grant cfg first) := by
  have hother : Allows (perform cfg) (Caused cfg pre .grant) pre
      (.dequeue :: pre.runExclusive cfg first.born first.work) := ⟨trivial, runExclusive_caused h⟩
  unfold grant
  cases hw : first.work with
  | createDuel => simp [allows_cons]
  | _ =>
    rw [hw] at hother
    exact hother

theorem answered_caused (account : Option UserId) {born : Nat} {lookup : Lookup}
    (h : pre.held = some { born := born, work := lookup }) :
    Allows (perform cfg) (Caused cfg pre (.answered account)) { pre with held := none }
      (pre.lookupAnswered cfg account lookup) := by
  cases lookup with
  | admission request =>
    exact admitToRoom_caused request _ ⟨by simp [homeOf, h, Lookup.home], rfl⟩
  | reconnect phase request => exact reconnectJoiner_caused phase request _

/-! ### Messages and what else comes -/

theorem handleRPSChoice_caused {sender : ClientRef} {result : Nat}
    (hinput : input = .message sender (.rpsChoice result)) (hreceives : pre.receives sender = true)
    (hphase : pre.duelState = .rps) :
    Allows (perform cfg) (Caused cfg pre input) pre (pre.handleRPSChoice sender result) := by
  unfold handleRPSChoice
  split
  · trivial
  · rename_i hcaptain
    simp only [Bool.or_eq_true, Bool.not_eq_true', not_or, Bool.not_eq_false,
      Bool.not_eq_true] at hcaptain
    have hshows : ShowsHand pre sender result input :=
      ⟨hinput, hreceives, hphase, hcaptain.1, hcaptain.2⟩
    dsimp only
    split
    · exact ⟨⟨_, _, hshows, .inr rfl⟩, trivial⟩
    · rename_i hshown
      split
      · exact ⟨⟨_, _, hshows, .inl rfl⟩, toRPS_caused⟩
      · rename_i hdiffer
        split
        · exact ⟨⟨_, _, hshows, .inr rfl⟩, trivial⟩
        · refine ⟨⟨_, _, hshows, .inl rfl⟩, trivial,
            .inl ⟨rfl, _, _, hshows, ?_, ?_, hdiffer⟩, trivial⟩
          · exact fun he => hshown (.inl he)
          · exact fun he => hshown (.inr he)

theorem suspend_caused {k : Continuation} {phase : DuelState}
    (hhome : k.home = none ∨ k.home = some phase) (hphase : room.duelState = phase)
    (hi : ∀ core decks, k ≠ .initialized core decks) :
    Allows (perform cfg) (Caused cfg pre input) room
      [.suspend { born := room.epoch, work := k }] := by
  refine ⟨⟨?_, fun core decks h => absurd h (hi core decks)⟩, trivial⟩
  cases hhome with
  | inl hnone => rw [hnone]; exact leftAtHome_none _
  | inr hsome => exact leftAtHome_now hsome hphase

theorem handleTryStart_caused {sender : ClientRef} (hinput : input = .message sender .tryStart)
    (hreceives : pre.receives sender = true) (hphase : pre.duelState = .waiting) :
    Allows (perform cfg) (Caused cfg pre input) room (pre.handleTryStart cfg sender) := by
  unfold handleTryStart
  split
  · trivial
  · rename_i hreserved
    split
    · trivial
    · rename_i hhost
      split
      · trivial
      · rename_i hready
        apply startMatch_caused
        refine .inl ⟨sender, hinput, hreceives, hphase, ?_, ?_, ?_⟩
        · simpa using hreserved
        · simpa using hhost
        · simpa using hready

theorem waitingMessage_caused {sender : ClientRef} {message : Message}
    (hinput : input = .message sender message) (hreceives : pre.receives sender = true)
    (hphase : pre.duelState = .waiting) :
    Allows (perform cfg) (Caused cfg pre input) pre (pre.waitingMessage cfg sender message) := by
  cases message with
  | tryStart => exact handleTryStart_caused hinput hreceives hphase
  | toObserver => exact ⟨leftAtHome_now rfl hphase, trivial⟩
  | toDuel => exact ⟨leftAtHome_now rfl hphase, trivial⟩
  | notReady => exact ⟨leftAtHome_now rfl hphase, trivial⟩
  | updateDeck main side =>
    rw [waitingMessage]
    split
    · trivial
    · exact suspend_caused (.inr rfl) hphase (by simp)
  | _ => trivial

theorem duelingMessage_caused (sender : ClientRef) (message : Message)
    (hphase : pre.duelState = .dueling) :
    Allows (perform cfg) (Caused cfg pre input) pre (pre.duelingMessage cfg sender message) := by
  cases message with
  | updateDeck main side =>
    rw [duelingMessage, duelingUpdate]
    split
    · exact suspend_caused (.inl rfl) hphase (by simp)
    · trivial
  | surrender => exact handleSurrender_caused sender
  | response =>
    rw [duelingMessage]
    split
    · exact suspend_caused (.inr rfl) hphase (by simp)
    · trivial
  | _ => trivial

theorem handleMessage_caused (sender : ClientRef) (message : Message) :
    Allows (perform cfg) (Caused cfg pre (.message sender message)) pre
      (pre.handleMessage cfg sender message) := by
  unfold handleMessage
  split
  · trivial
  · rename_i hreceives
    simp only [Bool.not_eq_true', Bool.not_eq_false] at hreceives
    cases hphase : pre.duelState with
    | waiting => exact waitingMessage_caused rfl hreceives hphase
    | rps =>
      cases message with
      | rpsChoice result => exact handleRPSChoice_caused rfl hreceives hphase
      | surrender => exact surrenderBetweenDuels_caused sender
      | _ => trivial
    | choosingOrder =>
      cases message with
      | turnChoice first =>
        exact ⟨trivial, startDuel_caused ⟨sender, first, rfl, hreceives, hphase⟩ rfl⟩
      | surrender => exact surrenderBetweenDuels_caused sender
      | _ => trivial
    | sideDecking =>
      cases message with
      | updateDeck main side =>
        dsimp only
        rw [sideDeckingMessage, sidingUpdate]
        split
        · trivial
        · split
          · trivial
          · exact suspend_caused (.inr rfl) hphase (by simp)
      | surrender => exact surrenderBetweenDuels_caused sender
      | _ => trivial
    | dueling => exact duelingMessage_caused sender message hphase

theorem handleExpressReconnect_caused (token : ReconnectionToken) (socket : Socket) :
    Allows (perform cfg) (Caused cfg pre input) pre
      (pre.handleExpressReconnect cfg token socket) := by
  have hresend (room : YGOProRoom) (c : ClientRef) :
      Allows (perform cfg) (Caused cfg pre input) room
      (pre.resendToken c ++ [.flag c .reconnected]) := by
    rw [allows_append]
    exact ⟨resendToken_caused c, trivial, trivial⟩
  unfold handleExpressReconnect
  split
  · simp [allows_cons]
  · split
    · trivial
    · unfold expressReconnected
      rw [allows_append]
      refine ⟨reconnectClient_caused _ _, ?_⟩
      split
      · exact ⟨⟨leftAtHome_none _, fun core decks h => by cases h⟩, trivial⟩
      · exact hresend _ _
      · split
        · trivial
        · exact hresend _ _

theorem ordinaryDisconnect_caused (socketId : Nat) :
    Allows (perform cfg) (Caused cfg pre input) room (room.ordinaryDisconnect socketId) := by
  unfold ordinaryDisconnect
  split
  · exact ⟨trivial, trivial⟩
  · split
    · exact ⟨trivial, trivial⟩
    · split
      · exact ⟨trivial, trivial⟩
      · split
        · exact ⟨trivial, trivial, trivial⟩
        · split
          · rename_i hwaiting
            exact ⟨leftAtHome_now rfl hwaiting, trivial⟩
          · trivial

theorem handleDisconnect_caused (socketId : Nat) :
    Allows (perform cfg) (Caused cfg pre input) pre (pre.handleDisconnect cfg socketId) := by
  unfold handleDisconnect
  refine ⟨trivial, ?_⟩
  split
  · trivial
  · unfold onDisconnect
    split
    · exact ⟨trivial, trivial⟩
    · split
      · split
        · exact ⟨trivial, trivial⟩
        · exact ordinaryDisconnect_caused socketId
      · exact ordinaryDisconnect_caused socketId

theorem handleLobbyTimeout_caused :
    Allows (perform cfg) (Caused cfg pre input) pre (pre.handleLobbyTimeout cfg) := by
  unfold handleLobbyTimeout
  split
  · trivial
  · split
    · trivial
    · dsimp only
      split
      · exact ⟨trivial, trivial⟩
      · exact ⟨trivial, trivial⟩

theorem handleBotJoin_caused (request : JoinRequest) :
    Allows (perform cfg) (Caused cfg pre input) pre (pre.handleBotJoin cfg request) := by
  unfold handleBotJoin
  dsimp only
  rw [allows_append, allows_append]
  refine ⟨⟨?_, ?_⟩, leftAtHome_none _, trivial⟩
  · split
    · trivial
    · exact ⟨trivial, trivial⟩
  · cases pre.listening with
    | true =>
      cases cfg.reservedDuel.isSome with
      | true => exact handleJoin_caused _ rfl rfl
      | false => exact handleJoin_caused _ rfl rfl
    | false => trivial

/-- Every call a handler makes has its cause. -/
theorem calls_caused (cfg : RoomConfig) (room : YGOProRoom) (input : RoomInput) :
    Allows (perform cfg) (Caused cfg room input) room (room.calls cfg input) := by
  cases input with
  | join request =>
    rw [calls]
    split
    · exact handleJoin_caused request rfl rfl
    · trivial
  | matchAdmit request =>
    rw [calls]
    split
    · exact handleJoin_caused request rfl rfl
    · trivial
  | botJoin request =>
    rw [calls]
    split
    · trivial
    · exact handleBotJoin_caused request
  | expressReconnect token socket => exact handleExpressReconnect_caused token socket
  | message sender message => exact handleMessage_caused sender message
  | grant =>
    rw [calls]
    split
    · trivial
    · split
      · trivial
      · rename_i first rest hqueue
        exact grant_caused (by rw [hqueue]; rfl)
  | answered account =>
    rw [calls]
    split
    · trivial
    · rename_i lookup hheld
      exact ⟨trivial, answered_caused account hheld⟩
  | lookupFailed =>
    rw [calls]
    split
    · trivial
    · rename_i lookup hheld
      refine ⟨trivial, ?_⟩
      cases lookup.work with
      | admission request => trivial
      | reconnect phase request => exact ⟨trivial, trivial⟩
  | settled index result =>
    rw [calls]
    split
    · trivial
    · rename_i k hk
      exact continueWith_caused result hk
  | engine core message => exact handleEngine_caused core message
  | finishDuelByTimeout winner =>
    rw [calls, handleTimeout]
    split
    · exact handleWinCondition_caused _ _ rfl (.inr rfl)
    · trivial
  | sideTimeout c =>
    rw [calls, handleSideTimeout]
    split
    · exact ⟨trivial, resolveAbandon_caused _ _⟩
    · trivial
  | graceOver position =>
    rw [calls, handleGraceOver]
    split
    · trivial
    · refine ⟨trivial, ?_⟩
      split
      · trivial
      · exact resolveAbandon_caused _ _
  | disconnect socketId => exact handleDisconnect_caused socketId
  | lobbyTimeout => exact handleLobbyTimeout_caused
  | closeRoom => exact ⟨trivial, trivial⟩

end YGOProRoom

end EdoproServer.Room
