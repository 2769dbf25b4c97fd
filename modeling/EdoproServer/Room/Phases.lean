import EdoproServer.Room.Log
import EdoproServer.Room.Seats

namespace EdoproServer.Room
open Decks Lib

/-! ## What belongs to a phase -/

/-- The same players in the same places, with the decks and the ready flags they had. -/
structure SamePlayers (s s' : Seating) : Prop where
  players : s'.players = s.players
  nextClient : s.nextClient ≤ s'.nextClient
  place : ∀ c < s.nextClient, (s'.client c).team = (s.client c).team ∧
    (s'.client c).position = (s.client c).position
  deck : ∀ c < s.nextClient, (s'.client c).deck = (s.client c).deck
  isReady : ∀ c < s.nextClient, (s'.client c).isReady = (s.client c).isReady

namespace SamePlayers

variable {s s' s'' : Seating}

theorem refl (s : Seating) : SamePlayers s s :=
  ⟨rfl, le_refl _, fun _ _ => ⟨rfl, rfl⟩, fun _ _ => rfl, fun _ _ => rfl⟩

theorem closeSocket (s : Seating) (id : Nat) : SamePlayers s (s.closeSocket id) :=
  ⟨rfl, le_refl _, fun _ _ => ⟨rfl, rfl⟩, fun _ _ => rfl, fun _ _ => rfl⟩

theorem removeSpectator (s : Seating) (id : Nat) : SamePlayers s (s.removeSpectator id) :=
  ⟨rfl, le_refl _, fun _ _ => ⟨rfl, rfl⟩, fun _ _ => rfl, fun _ _ => rfl⟩

theorem trans (h : SamePlayers s s') (h' : SamePlayers s' s'') : SamePlayers s s'' where
  players := h'.players.trans h.players
  nextClient := h.nextClient.trans h'.nextClient
  place := by
    intro c hc
    obtain ⟨hteam, hposition⟩ := h.place c hc
    obtain ⟨hteam', hposition'⟩ := h'.place c (hc.trans_le h.nextClient)
    exact ⟨hteam'.trans hteam, hposition'.trans hposition⟩
  deck := fun c hc => (h'.deck c (hc.trans_le h.nextClient)).trans (h.deck c hc)
  isReady := fun c hc => (h'.isReady c (hc.trans_le h.nextClient)).trans (h.isReady c hc)

theorem update (s : Seating) (c : ClientRef) (client : YGOProClient)
    (hplace : client.team = (s.client c).team ∧ client.position = (s.client c).position)
    (hdeck : client.deck = (s.client c).deck) (hready : client.isReady = (s.client c).isReady) :
    SamePlayers s { s with client := Function.update s.client c client } := by
  refine ⟨rfl, le_refl _, ?_, ?_, ?_⟩
  · intro p _
    by_cases hp : p = c
    · subst hp
      simpa using hplace
    · simp [hp]
  · intro p _
    by_cases hp : p = c
    · subst hp
      simpa using hdeck
    · simp [hp]
  · intro p _
    by_cases hp : p = c
    · subst hp
      simpa using hready
    · simp [hp]

theorem issue (s : Seating) (roomId : Nat) (c : ClientRef) : SamePlayers s (s.issue roomId c) := by
  obtain ⟨hp, hn, hplace, hdeck, hready⟩ := update s c
    ((s.client c).setReconnectionToken s.minted) ⟨rfl, rfl⟩ rfl rfl
  exact ⟨hp, hn, hplace, hdeck, hready⟩

theorem revoke (s : Seating) (c : ClientRef) : SamePlayers s (s.revoke c) := by
  unfold Seating.revoke
  split
  · exact refl s
  · obtain ⟨hp, hn, hplace, hdeck, hready⟩ := update s c
      (s.client c).clearReconnectionToken ⟨rfl, rfl⟩ rfl rfl
    exact ⟨hp, hn, hplace, hdeck, hready⟩

theorem destroy (s : Seating) (c : ClientRef) : SamePlayers s (s.destroy c) := by
  unfold Seating.destroy
  split
  · exact refl s
  · exact closeSocket s _

theorem teardown (s : Seating) : SamePlayers s s.teardown := by
  unfold Seating.teardown
  generalize s.clients = l
  induction l generalizing s with
  | nil => exact refl s
  | cons c l ih => exact ((revoke s c).trans (destroy _ c)).trans (ih _)

theorem addSpectator (s : Seating) (name : String) (socket : Socket)
    (credential : Option PlayerCredential) :
    SamePlayers s (s.addSpectator name socket credential) := by
  have hother : ∀ c < s.nextClient,
      (s.addSpectator name socket credential).client c = s.client c := by
    intro c hc
    simp [Seating.addSpectator, Nat.ne_of_lt hc]
  refine ⟨rfl, Nat.le_succ _, ?_, ?_, ?_⟩
  · intro c hc
    rw [hother c hc]
    exact ⟨rfl, rfl⟩
  · intro c hc
    rw [hother c hc]
  · intro c hc
    rw [hother c hc]

end SamePlayers

/-- The same phase with the same players and the same match. -/
structure SamePhase (room room' : YGOProRoom) : Prop where
  duelState : room'.duelState = room.duelState
  epoch : room'.epoch = room.epoch
  currentMatch : room'.currentMatch = room.currentMatch
  matchId : room'.matchId = room.matchId
  players : SamePlayers room.toSeating room'.toSeating

namespace SamePhase

variable {room mid room' : YGOProRoom}

theorem refl (room : YGOProRoom) : SamePhase room room :=
  ⟨rfl, rfl, rfl, rfl, SamePlayers.refl _⟩

theorem trans (h : SamePhase room mid) (h' : SamePhase mid room') : SamePhase room room' where
  duelState := h'.duelState.trans h.duelState
  epoch := h'.epoch.trans h.epoch
  currentMatch := h'.currentMatch.trans h.currentMatch
  matchId := h'.matchId.trans h.matchId
  players := h.players.trans h'.players

theorem of_seating {s : Seating} (h : SamePlayers room.toSeating s) :
    SamePhase room { room with toSeating := s } := ⟨rfl, rfl, rfl, rfl, h⟩

end SamePhase

/-- Calls that change the phase, the match, who plays where, a deck or a ready flag. -/
def Call.changesPhase : Call → Bool
  | .addPlayer _ _ _ | .removePlayer _ | .playerToSpectator _ | .spectatorToPlayer _ _
  | .movePlayerToAnotherCell _ _ | .flag _ .ready | .flag _ .notReady | .setDecks _ _
  | .enter _ _ | .startMatch _ | .leaveSideDecking _ _ | .dueling _ | .processDuelEnd _ _ _
  | .endByAbandon _ _ => true
  | _ => false

namespace YGOProRoom

variable {cfg : RoomConfig} {room pre : YGOProRoom} {input : RoomInput}

theorem finalize_samePlayers (abandon : Option ReservedDuelAbandon) :
    SamePlayers room.toSeating (room.finalize cfg abandon).toSeating := by
  cases hfinal : room.finalizing with
  | true =>
    rw [finalize_of_finalizing cfg abandon hfinal]
    exact SamePlayers.refl _
  | false =>
    rw [finalize_toSeating cfg abandon hfinal]
    exact SamePlayers.teardown _

theorem finalize_samePhase (abandon : Option ReservedDuelAbandon) :
    SamePhase room (room.finalize cfg abandon) where
  duelState := congrArg Phase.duelState (finalize_toPhase room cfg abandon)
  epoch := congrArg Phase.epoch (finalize_toPhase room cfg abandon)
  currentMatch := congrArg Contest.currentMatch (finalize_toContest room cfg abandon)
  matchId := congrArg Contest.matchId (finalize_toContest room cfg abandon)
  players := finalize_samePlayers abandon

theorem perform_samePhase {call : Call} (h : call.changesPhase = false) :
    SamePhase room (room.perform cfg call) := by
  cases call with
  | flag c flag =>
    apply SamePhase.of_seating
    cases flag with
    | ready => cases h
    | notReady => cases h
    | _ => exact SamePlayers.update _ c _ ⟨rfl, rfl⟩ rfl rfl
  | addSpectator name socket credential =>
    exact SamePhase.of_seating (SamePlayers.addSpectator _ name socket credential)
  | closeSocket id => exact SamePhase.of_seating (SamePlayers.closeSocket _ id)
  | removeSpectator id => exact SamePhase.of_seating (SamePlayers.removeSpectator _ id)
  | reconnect c socket =>
    exact SamePhase.of_seating (SamePlayers.update _ c _ ⟨rfl, rfl⟩ rfl rfl)
  | issue c => exact SamePhase.of_seating (SamePlayers.issue _ _ c)
  | clearTimer born position =>
    rw [perform]
    split
    · exact ⟨rfl, rfl, rfl, rfl, SamePlayers.refl _⟩
    · exact SamePhase.refl room
  | clearTimers born =>
    rw [perform]
    split
    · exact ⟨rfl, rfl, rfl, rfl, SamePlayers.refl _⟩
    · exact SamePhase.refl room
  | removeAllListener born =>
    rw [perform]
    split
    · exact ⟨rfl, rfl, rfl, rfl, SamePlayers.refl _⟩
    · exact SamePhase.refl room
  | finalize abandon => exact finalize_samePhase abandon
  | addPlayer request credential place => cases h
  | removePlayer id => cases h
  | playerToSpectator c => cases h
  | spectatorToPlayer c place => cases h
  | movePlayerToAnotherCell c place => cases h
  | setDecks c deck => cases h
  | enter born target => cases h
  | startMatch born => cases h
  | leaveSideDecking born target => cases h
  | dueling born => cases h
  | processDuelEnd duel winner engine => cases h
  | endByAbandon born team => cases h
  | _ => exact ⟨rfl, rfl, rfl, rfl, SamePlayers.refl _⟩

/-! ## In which phase a handler was called -/

end YGOProRoom

/-- The section changes what belongs to a phase. -/
def Work.writes : Work → Bool
  | .createDuel => false
  | .admission _ => false
  | .markInternal _ => false
  | .reconnect _ _ => false
  | _ => true

def Lookup.writes : Lookup → Bool
  | .admission _ => true
  | .reconnect _ _ => false

def Continuation.writes : Continuation → Bool
  | .deckBuiltWaiting _ => true
  | .deckBuiltSiding _ => true
  | .responded => true
  | .duelProcessed _ _ => true
  | _ => false

def EngineMessage.wins : EngineMessage → Bool
  | .win _ => true
  | _ => false

namespace YGOProRoom

variable {cfg : RoomConfig} {room pre : YGOProRoom} {input : RoomInput}

/-- Whether the handler of an input may change what belongs to a phase. -/
def Writes (room : YGOProRoom) : RoomInput → Prop
  | .grant => ∃ work ∈ room.queue.head?, work.work.writes = true
  | .answered _ => ∃ lookup ∈ room.held, lookup.work.writes = true
  | .lookupFailed => False
  | .settled index _ => ∃ k ∈ room.suspended[index]?, k.work.writes = true
  | .engine _ message => message.wins = true
  | _ => True

/-- Handlers that change what belongs to a phase are resumed in the phase they were called in. -/
def OnTime (room : YGOProRoom) (input : RoomInput) : Prop :=
  Writes room input → room.invokedIn input = room.epoch

/-- The calls leave what belongs to the phase alone. -/
def Stays (calls : List Call) : Prop := ∀ call ∈ calls, call.changesPhase = false

/-! ### Handlers that leave the phase alone -/

theorem reconnectClient_stays (c : ClientRef) (socket : Socket) :
    Stays (room.reconnectClient c socket) := by
  unfold reconnectClient
  split
  · simp [Stays, Call.changesPhase]
  · simp [Stays, Call.changesPhase]

theorem reconnectJoiner_stays (phase : DuelState) (request : JoinRequest)
    (joinerUserId : Option UserId) :
    Stays (room.reconnectJoiner cfg phase request joinerUserId) := by
  unfold reconnectJoiner
  split
  · simp [Stays, Call.changesPhase]
  · rename_i c hc
    have h := @reconnectClient_stays room c request.socket
    split
    · intro call hcall
      cases List.mem_append.mp hcall with
      | inl hmem => exact h call hmem
      | inr hmem =>
        rw [List.mem_singleton.mp hmem]
        rfl
    · simpa using h

theorem markBot_stays (socket : Socket) : Stays (room.markBot socket) := by
  unfold markBot
  split
  · simp [Stays]
  · simp [Stays, Call.changesPhase]

theorem runExclusive_stays (born : Nat) {work : Work} (h : work.writes = false) :
    Stays (room.runExclusive cfg born work) := by
  cases work with
  | createDuel => simp [runExclusive, Stays]
  | admission request =>
    rw [runExclusive]
    split
    · simp [Stays, Call.changesPhase]
    · simp [Stays, Call.changesPhase]
  | markInternal socket => exact markBot_stays socket
  | reconnect phase request =>
    rw [runExclusive]
    split
    · simp [Stays, Call.changesPhase]
    · exact reconnectJoiner_stays phase request none
  | _ => cases h

theorem grant_stays {first : Deferred Work} (h : first.work.writes = false) :
    Stays (room.grant cfg first) := by
  have hother : Stays (.dequeue :: room.runExclusive cfg first.born first.work) := by
    intro call hcall
    cases List.mem_cons.mp hcall with
    | inl he =>
      rw [he]
      rfl
    | inr hmem => exact runExclusive_stays first.born h call hmem
  unfold grant
  cases hw : first.work with
  | createDuel => simp [Stays, Call.changesPhase]
  | _ =>
    rw [hw] at hother
    exact hother

theorem continueWith_stays (index born : Nat) {k : Continuation} (h : k.writes = false)
    (result : Settled) : Stays (room.continueWith cfg index born k result) := by
  cases k with
  | initialized core decks =>
    cases result with
    | _ => simp [continueWith, Stays, Call.changesPhase]
  | fieldCounted core =>
    cases result with
    | _ => simp [continueWith, Stays, Call.changesPhase]
  | resynced c express =>
    cases result with
    | done =>
      rw [continueWith, resendToken]
      split_ifs
      all_goals simp [Stays, Call.changesPhase]
    | _ => simp [continueWith, Stays, Call.changesPhase]
  | ending stage engine =>
    cases result with
    | done =>
      cases stage with
      | _ => simp [continueWith, endingSettled, Stays, Call.changesPhase]
    | raised =>
      rw [continueWith, endingFailed]
      split
      · simp [Stays, Call.changesPhase]
      · simp [Stays, Call.changesPhase]
    | built deck => simp [continueWith, Stays, Call.changesPhase]
  | abandonEnding =>
    cases result with
    | _ => simp [continueWith, Stays, Call.changesPhase]
  | _ => cases h

/-- A handler that may not write makes no call that changes the phase. -/
theorem stays_of_not_writes (h : ¬ Writes room input) : Stays (room.calls cfg input) := by
  cases input with
  | grant =>
    rw [calls]
    split
    · simp [Stays]
    · split
      · simp [Stays]
      · rename_i first rest hqueue
        apply grant_stays
        simpa [Writes, hqueue] using h
  | answered account =>
    rw [calls]
    split
    · simp [Stays]
    · rename_i lookup hheld
      cases hwork : lookup.work with
      | admission request => simp [Writes, hheld, hwork, Lookup.writes] at h
      | reconnect phase request =>
        intro call hcall
        cases List.mem_cons.mp hcall with
        | inl he =>
          rw [he]
          rfl
        | inr hmem => exact reconnectJoiner_stays phase request _ call hmem
  | lookupFailed =>
    rw [calls]
    split
    · simp [Stays]
    · rename_i lookup hheld
      cases lookup.work with
      | admission request => simp [lookupRaised, Stays, Call.changesPhase]
      | reconnect phase request => simp [lookupRaised, Stays, Call.changesPhase]
  | settled index result =>
    rw [calls]
    split
    · simp [Stays]
    · rename_i k hk
      apply continueWith_stays
      simpa [Writes, hk] using h
  | engine core message =>
    rw [calls, handleEngine]
    split
    · cases message with
      | newTurn side =>
        rw [engineReports]
        split
        · simp [Stays, Call.changesPhase]
        · simp [Stays, Call.changesPhase]
      | win winner => simp [Writes, EngineMessage.wins] at h
      | _ => simp [engineReports, Stays, Call.changesPhase]
    · simp [Stays]
  | _ => simp [Writes] at h

theorem performAll_samePhase {calls : List Call} (h : Stays calls) :
    SamePhase room (performAll (perform cfg) room calls) := by
  induction calls generalizing room with
  | nil => exact SamePhase.refl room
  | cons call calls ih =>
    exact (perform_samePhase (h call List.mem_cons_self)).trans
      (ih (fun other hother => h other (List.mem_cons_of_mem call hother)))

/-- A handler that is resumed late, in a run of handlers that write on time, changes nothing that
belongs to the phase. -/
theorem step_samePhase (hok : OnTime room input) (hlate : room.invokedIn input ≠ room.epoch) :
    SamePhase room (room.step cfg input) :=
  performAll_samePhase (stays_of_not_writes (fun hwrites => hlate (hok hwrites)))

/-! ## Every phase is left once -/

/-- The log of the moves of a room: each was made by a handler of the phase it left, and a match
starts and a side-decking phase completes only in a phase that was left. -/
structure MovesLogged (room : YGOProRoom) : Prop where
  live : ∀ born now source target,
    .moved born now source target ∈ room.log → born = now
  moved : movedBorns room.log = List.range room.epoch
  started : (startedBorns room.log).Nodup ∧ ∀ e ∈ startedBorns room.log, e < room.epoch
  sided : (sidedBorns room.log).Nodup ∧ ∀ e ∈ sidedBorns room.log, e < room.epoch

end YGOProRoom

/-- Events that tell of a phase that was left. -/
def RoomEvent.isMove : RoomEvent → Bool
  | .moved _ _ _ _ | .matchStarted _ _ | .sided _ => true
  | _ => false

theorem no_moves {events : List RoomEvent} (h : ∀ event ∈ events, event.isMove = false) :
    movedBorns events = [] ∧ startedBorns events = [] ∧ sidedBorns events = [] := by
  simp only [movedBorns, startedBorns, sidedBorns, List.filterMap_eq_nil_iff]
  refine ⟨?_, ?_, ?_⟩
  all_goals
    intro event hevent
    have hmove := h event hevent
    cases event with
    | moved born now source target => cases hmove
    | matchStarted born matchId => cases hmove
    | sided born => cases hmove
    | _ => rfl

namespace YGOProRoom

variable {cfg : RoomConfig} {room pre : YGOProRoom} {input : RoomInput}

theorem logged_stays {call : Call} (h : call.enters = false) :
    ∀ event ∈ room.logged cfg call, event.isMove = false := by
  cases call with
  | enter born target => cases h
  | startMatch born => cases h
  | leaveSideDecking born target => cases h
  | dueling born => cases h
  | finalize abandon =>
    unfold logged abandons
    dsimp only
    split_ifs
    all_goals simp [RoomEvent.isMove]
  | _ => simp [logged, RoomEvent.isMove]

/-- Calls that stay in the phase log no move. -/
theorem movesLogged_stays {call : Call} (hstays : call.enters = false) (h : MovesLogged room) :
    MovesLogged (room.perform cfg call) := by
  have hquiet := @logged_stays cfg room call hstays
  obtain ⟨hmoved, hstarted, hsided⟩ := no_moves hquiet
  have hepoch := (@perform_stays cfg room call hstays).1
  refine ⟨?_, ?_, ?_, ?_⟩
  · intro born now source target hevent
    rw [perform_log] at hevent
    cases List.mem_append.mp hevent with
    | inl hold => exact h.live born now source target hold
    | inr hnew => exact absurd (hquiet _ hnew) (by simp [RoomEvent.isMove])
  · rw [perform_log, movedBorns_append, hmoved, List.append_nil, hepoch]
    exact h.moved
  · rw [perform_log, startedBorns_append, hstarted, List.append_nil, hepoch]
    exact h.started
  · rw [perform_log, sidedBorns_append, hsided, List.append_nil, hepoch]
    exact h.sided

theorem nodup_snoc {l : List Nat} {n : Nat} (h : l.Nodup ∧ ∀ e ∈ l, e < n) :
    (l ++ [n]).Nodup ∧ ∀ e ∈ l ++ [n], e < n + 1 := by
  constructor
  · rw [List.nodup_append]
    refine ⟨h.1, by simp, ?_⟩
    intro e he n' hn' heq
    rw [List.mem_singleton.mp hn'] at heq
    exact absurd (h.2 e he) (by omega)
  · intro e he
    cases List.mem_append.mp he with
    | inl hold => exact Nat.lt_succ_of_lt (h.2 e hold)
    | inr hnew =>
      rw [List.mem_singleton.mp hnew]
      exact Nat.lt_succ_self n

theorem nodup_keep {l : List Nat} {n : Nat} (h : l.Nodup ∧ ∀ e ∈ l, e < n) :
    l.Nodup ∧ ∀ e ∈ l, e < n + 1 :=
  ⟨h.1, fun e he => Nat.lt_succ_of_lt (h.2 e he)⟩

/-- Events that leave the phase, logged by a handler of that phase. -/
theorem movesLogged_of_events {room' : YGOProRoom} {events : List RoomEvent}
    (h : MovesLogged room) (hepoch : room'.epoch = room.epoch + 1)
    (hlog : room'.log = room.log ++ events) (hmoved : movedBorns events = [room.epoch])
    (hlive : ∀ born now source target, .moved born now source target ∈ events → born = now)
    (hstarted : startedBorns events = [] ∨ startedBorns events = [room.epoch])
    (hsided : sidedBorns events = [] ∨ sidedBorns events = [room.epoch]) :
    MovesLogged room' := by
  refine ⟨?_, ?_, ?_, ?_⟩
  · intro born now source target hevent
    rw [hlog] at hevent
    cases List.mem_append.mp hevent with
    | inl hold => exact h.live born now source target hold
    | inr hnew => exact hlive born now source target hnew
  · rw [hlog, movedBorns_append, hmoved, h.moved, hepoch, List.range_succ]
  · rw [hlog, startedBorns_append, hepoch]
    cases hstarted with
    | inl hnone =>
      rw [hnone, List.append_nil]
      exact nodup_keep h.started
    | inr hone =>
      rw [hone]
      exact nodup_snoc h.started
  · rw [hlog, sidedBorns_append, hepoch]
    cases hsided with
    | inl hnone =>
      rw [hnone, List.append_nil]
      exact nodup_keep h.sided
    | inr hone =>
      rw [hone]
      exact nodup_snoc h.sided

theorem movesLogged_perform {call : Call} (h : MovesLogged room)
    (hguard : Guarded cfg pre input room call)
    (hborn : call.enters = true → pre.invokedIn input = pre.epoch) :
    MovesLogged (room.perform cfg call) := by
  cases henters : call.enters with
  | false => exact movesLogged_stays henters h
  | true =>
    have hpre := hborn henters
    cases call with
    | enter born target =>
      obtain ⟨hepoch, rfl, _⟩ := hguard
      have hnow : pre.invokedIn input = room.epoch := hpre.trans hepoch.symm
      exact movesLogged_of_events h (enterPhase_epoch room cfg _ target)
        (perform_log (.enter (pre.invokedIn input) target))
        (by simp [logged, movedBorns, hnow]) (by simp +contextual [logged, hnow])
        (.inl (by simp [logged, startedBorns])) (.inl (by simp [logged, sidedBorns]))
    | startMatch born =>
      obtain ⟨hepoch, rfl⟩ := hguard
      have hnow : pre.invokedIn input = room.epoch := hpre.trans hepoch.symm
      exact movesLogged_of_events h (enterPhase_epoch _ cfg _ .rps)
        (perform_log (.startMatch (pre.invokedIn input)))
        (by simp [logged, movedBorns, hnow]) (by simp +contextual [logged, hnow])
        (.inr (by simp [logged, startedBorns, hnow])) (.inl (by simp [logged, sidedBorns]))
    | leaveSideDecking born target =>
      obtain ⟨hepoch, rfl, _⟩ := hguard
      have hnow : pre.invokedIn input = room.epoch := hpre.trans hepoch.symm
      exact movesLogged_of_events h (enterPhase_epoch _ cfg _ target)
        (perform_log (.leaveSideDecking (pre.invokedIn input) target))
        (by simp [logged, movedBorns, hnow]) (by simp +contextual [logged, hnow])
        (.inl (by simp [logged, startedBorns])) (.inr (by simp [logged, sidedBorns, hnow]))
    | dueling born =>
      obtain ⟨hepoch, rfl⟩ := hguard
      have hnow : pre.invokedIn input = room.epoch := hpre.trans hepoch.symm
      exact movesLogged_of_events h rfl (perform_log (.dueling (pre.invokedIn input)))
        (by simp [logged, movedBorns, hnow]) (by simp +contextual [logged, hnow])
        (.inl (by simp [logged, startedBorns])) (.inl (by simp [logged, sidedBorns]))
    | _ => cases henters

/-! ## Decks -/

end YGOProRoom

/-- No client has a deck that it did not have before. -/
def NoNewDecks (s s' : Seating) : Prop :=
  ∀ c deck, (s'.client c).deck = some deck → (s.client c).deck = some deck

namespace NoNewDecks

variable {s s' s'' : Seating}

theorem refl (s : Seating) : NoNewDecks s s := fun _ _ h => h

theorem trans (h : NoNewDecks s s') (h' : NoNewDecks s' s'') : NoNewDecks s s'' :=
  fun c deck hdeck => h c deck (h' c deck hdeck)

theorem update (s : Seating) (c : ClientRef) (client : YGOProClient)
    (h : ∀ deck, client.deck = some deck → (s.client c).deck = some deck) :
    NoNewDecks s { s with client := Function.update s.client c client } := by
  intro p deck hdeck
  by_cases hp : p = c
  · subst hp
    exact h deck (by simpa using hdeck)
  · simpa [hp] using hdeck

theorem modify (s : Seating) (c : ClientRef) {f : YGOProClient → YGOProClient}
    (h : ∀ client, (f client).deck = client.deck) : NoNewDecks s (s.modify c f) :=
  update s c _ (fun _ hdeck => (h _).symm.trans hdeck)

theorem foldl {f : Seating → ClientRef → Seating} (h : ∀ s c, NoNewDecks s (f s c))
    (l : List ClientRef) (s : Seating) : NoNewDecks s (l.foldl f s) := by
  induction l generalizing s with
  | nil => exact refl s
  | cons c l ih => exact (h s c).trans (ih (f s c))

theorem revoke (s : Seating) (c : ClientRef) : NoNewDecks s (s.revoke c) := by
  unfold Seating.revoke
  split
  · exact refl s
  · exact update s c _ (fun _ hdeck => hdeck)

theorem destroy (s : Seating) (c : ClientRef) : NoNewDecks s (s.destroy c) := by
  unfold Seating.destroy
  split
  · exact refl s
  · exact fun _ _ h => h

theorem teardown (s : Seating) : NoNewDecks s s.teardown :=
  foldl (fun s c => (revoke s c).trans (destroy _ c)) _ _

theorem unreadyPlayers (s : Seating) : NoNewDecks s s.unreadyPlayers :=
  foldl (fun s c => modify s c (f := YGOProClient.notReady) (fun _ => rfl)) _ _

end NoNewDecks

namespace YGOProRoom

variable {cfg : RoomConfig} {room pre : YGOProRoom} {input : RoomInput}

theorem enterPhase_noNewDecks (born : Nat) (target : DuelState) :
    NoNewDecks room.toSeating (room.enterPhase cfg born target).toSeating := by
  cases target with
  | waiting => exact NoNewDecks.unreadyPlayers room.toSeating
  | _ => exact NoNewDecks.refl _

theorem finalize_noNewDecks (abandon : Option ReservedDuelAbandon) :
    NoNewDecks room.toSeating (room.finalize cfg abandon).toSeating := by
  cases hfinal : room.finalizing with
  | true =>
    rw [finalize_of_finalizing cfg abandon hfinal]
    exact NoNewDecks.refl _
  | false =>
    rw [finalize_toSeating cfg abandon hfinal]
    exact NoNewDecks.teardown _

/-- A deck comes to a client when it is accepted. -/
theorem perform_deck {call : Call} {c : ClientRef} {deck : Deck}
    (h : ((room.perform cfg call).client c).deck = some deck) :
    (room.client c).deck = some deck ∨ call = .setDecks c deck := by
  cases call with
  | setDecks p new =>
    by_cases hp : c = p
    · subst hp
      right
      simpa [perform, setDecks, Seating.modify, YGOProClient.ready, YGOProClient.setDeck,
        eq_comm] using h
    · left
      simpa [perform, setDecks, Seating.modify, hp] using h
  | closeSocket id => exact .inl h
  | addPlayer request credential place =>
    exact .inl (NoNewDecks.update room.toSeating room.nextClient
      (room.buildPlayer request credential place) (by simp [Seating.buildPlayer]) c deck h)
  | addSpectator name socket credential =>
    exact .inl (NoNewDecks.update room.toSeating room.nextClient
      (Seating.createSpectator name socket credential)
      (by simp [Seating.createSpectator]) c deck h)
  | removePlayer id => exact .inl h
  | removeSpectator id => exact .inl h
  | playerToSpectator p =>
    exact .inl (NoNewDecks.modify room.toSeating p
      (f := fun client => (client.spectatorPosition OBSERVER).notReady) (fun _ => rfl) c deck h)
  | spectatorToPlayer p place =>
    exact .inl (NoNewDecks.modify room.toSeating p
      (f := fun client => (client.playerPosition place.1 place.2).notReady) (fun _ => rfl) c deck h)
  | movePlayerToAnotherCell p place =>
    exact .inl (NoNewDecks.modify room.toSeating p
      (f := fun client => client.notReady.playerPosition place.1 place.2) (fun _ => rfl) c deck h)
  | flag p flag =>
    refine .inl (NoNewDecks.modify room.toSeating p ?_ c deck h)
    cases flag with
    | _ => exact fun _ => rfl
  | reconnect p socket =>
    exact .inl (NoNewDecks.modify room.toSeating p
      (f := fun client => (client.setSocket socket).reconnecting) (fun _ => rfl) c deck h)
  | issue p =>
    exact .inl (NoNewDecks.update room.toSeating p
      ((room.client p).setReconnectionToken room.minted) (fun _ hdeck => hdeck) c deck h)
  | enter born target => exact .inl (enterPhase_noNewDecks born target c deck h)
  | leaveSideDecking born target =>
    exact .inl (@enterPhase_noNewDecks cfg (room.note (.sided born)) born target c deck h)
  | clearTimer born position =>
    rw [perform] at h
    split at h
    · exact .inl h
    · exact .inl h
  | clearTimers born =>
    rw [perform] at h
    split at h
    · exact .inl h
    · exact .inl h
  | removeAllListener born =>
    rw [perform] at h
    split at h
    · exact .inl h
    · exact .inl h
  | processDuelEnd duel winner engine => exact .inl (NoNewDecks.unreadyPlayers _ c deck h)
  | endByAbandon born team =>
    change ((room.matchForfeit team.other).toSeating.client c).deck = some deck at h
    rw [matchForfeit_toSeating] at h
    exact .inl h
  | finalize abandon => exact .inl (finalize_noNewDecks abandon c deck h)
  | _ => exact .inl h

/-- The decks of clients were accepted, and those of a duel before its phase began. -/
structure DecksLogged (room : YGOProRoom) : Prop where
  accepted : ∀ c deck, (room.client c).deck = some deck →
    ∃ e ≤ room.epoch, .deckAccepted e c deck ∈ room.log
  dueled : ∀ now decks, .dueled now decks ∈ room.log →
    ∀ entry ∈ decks, ∃ e < now, .deckAccepted e entry.1 entry.2 ∈ room.log

theorem epoch_le (call : Call) : room.epoch ≤ (room.perform cfg call).epoch := by
  cases henters : call.enters with
  | false => exact le_of_eq (perform_stays henters).1.symm
  | true =>
    cases call with
    | enter born target => exact (enterPhase_epoch room cfg born target).symm ▸ Nat.le_succ _
    | startMatch born => exact Nat.le_succ _
    | leaveSideDecking born target =>
      exact (enterPhase_epoch (room.note (.sided born)) cfg born target).symm ▸ Nat.le_succ _
    | dueling born => exact Nat.le_succ _
    | _ => cases henters

/-- Only `duelDecks` logs the decks of a duel. -/
theorem dueled_logged {call : Call} {now : Nat} {decks : List (ClientRef × Deck)}
    (h : .dueled now decks ∈ room.logged cfg call) :
    call = .duelDecks decks ∧ now = room.epoch := by
  cases call with
  | duelDecks other =>
    simp only [logged, List.mem_singleton, RoomEvent.dueled.injEq] at h
    exact ⟨by rw [h.2], h.1⟩
  | finalize abandon =>
    unfold logged abandons at h
    dsimp only at h
    split_ifs at h
    all_goals simp at h
  | _ => simp [logged] at h

theorem decksLogged_perform {call : Call} (hpre : DecksLogged pre)
    (hlog : ∀ event ∈ pre.log, event ∈ room.log) (h : DecksLogged room)
    (hguard : Guarded cfg pre input room call) : DecksLogged (room.perform cfg call) where
  accepted := by
    intro c deck hdeck
    cases perform_deck hdeck with
    | inl hold =>
      obtain ⟨e, hle, hevent⟩ := h.accepted c deck hold
      exact ⟨e, hle.trans (epoch_le call), log_perform_sub call hevent⟩
    | inr hset =>
      subst hset
      exact ⟨room.epoch, le_refl _, List.mem_append_right _ (List.mem_singleton_self _)⟩
  dueled := by
    intro now decks hevent entry hentry
    rw [perform_log] at hevent
    cases List.mem_append.mp hevent with
    | inl hold =>
      obtain ⟨e, hlt, haccepted⟩ := h.dueled now decks hold entry hentry
      exact ⟨e, hlt, log_perform_sub call haccepted⟩
    | inr hnew =>
      obtain ⟨rfl, rfl⟩ := dueled_logged hnew
      obtain ⟨hepoch, hdecks⟩ := hguard
      obtain ⟨e, hle, haccepted⟩ := hpre.accepted entry.1 entry.2 (hdecks entry hentry)
      exact ⟨e, by omega, log_perform_sub _ (hlog _ haccepted)⟩

/-! ## Runs -/

/-- The rooms that a created room becomes while handlers that write are resumed on time. -/
def OnTimeRuns (cfg : RoomConfig) : YGOProRoom → Prop :=
  Reached (fun room => ∃ outside, room = create cfg outside) (step cfg) OnTime

theorem logged_step (h : MovesLogged room ∧ DecksLogged room) (hok : OnTime room input) :
    MovesLogged (room.step cfg input) ∧ DecksLogged (room.step cfg input) := by
  have hcalls : Allows (perform cfg) (fun _ call => call.enters = true →
      room.invokedIn input = room.epoch) room (room.calls cfg input) := by
    by_cases hwrites : Writes room input
    · exact .of_forall (fun _ _ _ _ => hok hwrites)
    · apply Allows.of_forall
      intro call hcall _ henters
      have hstays := @stays_of_not_writes cfg room input hwrites call hcall
      cases call with
      | enter born target => cases hstays
      | startMatch born => cases hstays
      | leaveSideDecking born target => cases hstays
      | dueling born => cases hstays
      | _ => cases henters
  have hall := ((calls_guarded cfg room input).and hcalls).preserves
    (P := fun r => MovesLogged r ∧ DecksLogged r ∧ ∀ event ∈ room.log, event ∈ r.log) ?_
    ⟨h.1, h.2, fun _ hevent => hevent⟩
  · exact ⟨hall.1, hall.2.1⟩
  · intro r call hr hboth
    obtain ⟨hmoves, hdecks, hlog⟩ := hr
    obtain ⟨hguard, hborn⟩ := hboth
    exact ⟨movesLogged_perform hmoves hguard hborn, decksLogged_perform h.2 hlog hdecks hguard,
      fun event hevent => log_perform_sub call (hlog event hevent)⟩

theorem create_logged (cfg : RoomConfig) (outside : Outside) :
    MovesLogged (create cfg outside) ∧ DecksLogged (create cfg outside) := by
  constructor
  · exact ⟨by simp [create], by simp [create, movedBorns], by simp [create, startedBorns],
      by simp [create, sidedBorns]⟩
  · exact ⟨by simp [create, nobody], by simp [create]⟩

/-- Phases are left by their own handlers and once, each start of a match and each completed
side-decking phase among them, and the decks of a duel were accepted before its phase. -/
structure PhasesOnce (room : YGOProRoom) : Prop where
  live : ∀ born now source target, .moved born now source target ∈ room.log → born = now
  moved : (movedBorns room.log).Nodup
  started : (startedBorns room.log).Nodup
  sided : ∀ e ∈ sidedBorns room.log, (movedBorns room.log).count e = 1
  dueled : ∀ now decks, .dueled now decks ∈ room.log →
    ∀ entry ∈ decks, ∃ e < now, .deckAccepted e entry.1 entry.2 ∈ room.log

theorem MovesLogged.phasesOnce (h : MovesLogged room) (hdecks : DecksLogged room) :
    PhasesOnce room where
  live := h.live
  moved := h.moved ▸ List.nodup_range
  started := h.started.1
  sided := by
    intro e he
    rw [h.moved]
    exact List.count_eq_one_of_mem List.nodup_range (List.mem_range.mpr (h.sided.2 e he))
  dueled := hdecks.dueled

/-- While handlers that write are resumed on time, phases are left once, and a handler that is
resumed late changes nothing that belongs to the phase. -/
theorem phases_once (cfg : RoomConfig) (room : YGOProRoom) (h : OnTimeRuns cfg room)
    (input : RoomInput) (hinput : OnTime room input) :
    PhasesOnce room ∧
      (room.invokedIn input ≠ room.epoch → SamePhase room (room.step cfg input)) := by
  have hlogged : MovesLogged room ∧ DecksLogged room := by
    apply Reached.invariant (P := fun room => MovesLogged room ∧ DecksLogged room) _ _ h
    · intro s hs
      obtain ⟨outside, rfl⟩ := hs
      exact create_logged cfg outside
    · exact fun _ _ hs hok => logged_step hs hok
  exact ⟨hlogged.1.phasesOnce hlogged.2, step_samePhase hinput⟩

instance (room : YGOProRoom) (input : RoomInput) : Decidable (Writes room input) := by
  cases input with
  | grant => exact inferInstanceAs (Decidable (∃ work ∈ room.queue.head?, _))
  | answered account => exact inferInstanceAs (Decidable (∃ lookup ∈ room.held, _))
  | lookupFailed => exact inferInstanceAs (Decidable False)
  | settled index result => exact inferInstanceAs (Decidable (∃ k ∈ room.suspended[index]?, _))
  | engine core message => exact inferInstanceAs (Decidable (_ = true))
  | _ => exact inferInstanceAs (Decidable True)

instance (room : YGOProRoom) (input : RoomInput) : Decidable (OnTime room input) :=
  inferInstanceAs (Decidable (_ → _))

theorem onTimeRuns_after {inputs : List RoomInput}
    (h : Allows (fun input room => step cfg room input) OnTime
      (create cfg { closedSockets := [], tokens := .empty, minted := 0 }) inputs) :
    OnTimeRuns cfg (after cfg inputs) :=
  Reached.inputs (.start ⟨_, rfl⟩) h

/-- The section that creates the Duel object is resumed in the phase of the duel. -/
theorem phases_once_dueling :
    PhasesOnce (after casualRoom (guestsReady ++ duelBegins.take 4)) ∧
      SamePhase (after casualRoom (guestsReady ++ duelBegins.take 4))
        ((after casualRoom (guestsReady ++ duelBegins.take 4)).step casualRoom .grant) := by
  have h := phases_once casualRoom (after casualRoom (guestsReady ++ duelBegins.take 4))
    (onTimeRuns_after (by decide +kernel)) .grant (by decide +kernel)
  exact ⟨h.1, h.2 (by decide +kernel)⟩

/-- One player sends its deck twice before the other does. -/
def sidedTwice : List RoomInput :=
  guestsReady ++ duelBegins ++ [.message 0 .surrender, .settled 0 .done] ++
    [.message 0 (.updateDeck [] []), .message 0 (.updateDeck [] []), .message 1 (.updateDeck [] []),
      .settled 0 (.built (some emptyDeck)), .settled 1 (.built (some emptyDeck)),
      .settled 0 (.built (some emptyDeck))]

theorem phases_not_once : ∃ room, Runs casualRoom (fun _ _ => True) room ∧ ¬ PhasesOnce room := by
  refine ⟨_, runs_after _ sidedTwice, ?_⟩
  intro h
  have hmoved := h.moved
  revert hmoved
  decide +kernel

end YGOProRoom

end EdoproServer.Room
