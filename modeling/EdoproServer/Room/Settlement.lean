import EdoproServer.Room.Endings

namespace EdoproServer.Room
open Decks Lib

/-! ## The outcomes of a reservation -/

/-- What settles a reservation for good: the result of its match or its abandon. -/
def RoomEvent.isOutcome : RoomEvent → Bool
  | .gameOver _ | .abandoned _ _ => true
  | _ => false

/-- How many outcomes were reported. -/
def outcomes (log : List RoomEvent) : Nat := log.countP RoomEvent.isOutcome

@[simp] theorem outcomes_append (log events : List RoomEvent) :
    outcomes (log ++ events) = outcomes log + outcomes events :=
  List.countP_append

/-- Calls that report an outcome or decide which one it will be. -/
def Call.settles : Call → Bool
  | .beginEnding _ _ | .publishGameOver _ | .endByAbandon _ _ | .finalize _ => true
  | _ => false

namespace YGOProRoom

variable {cfg : RoomConfig} {room pre : YGOProRoom} {input : RoomInput}

/-- The outcome of an open reservation is reported or on its way once the game over was marked,
that of a closed one is reported. -/
structure SettleInvariant (room : YGOProRoom) : Prop where
  closed : room.session.closed = room.finalizing
  settled : outcomes room.log + room.pendingEndings =
    (room.finalizing || room.session.gameOver).toNat
  ended : room.finalizing = true → room.pendingEndings = 0

/-- No ending of the match raises, the room is not torn down while one is pending, and none begins
after another one or after the teardown. -/
def SettlesInStep (room : YGOProRoom) : Call → Prop
  | .resume index => ∀ k ∈ room.suspended[index]?, k.work.isEnding = false
  | .finalize _ =>
    room.finalizing = true ∨ room.session.gameOver = false ∨ room.pendingEndings = 0
  | .beginEnding _ _ | .endByAbandon _ _ =>
    room.session.gameOver = false ∧ room.finalizing = false
  | _ => True

/-- The progress of the reservation changes with an outcome only. -/
theorem perform_session {call : Call} (h : call.settles = false) :
    (room.perform cfg call).session.gameOver = room.session.gameOver ∧
      (room.perform cfg call).session.closed = room.session.closed := by
  cases call with
  | enter born target =>
    have hsession := enterPhase_session room cfg born target
    exact ⟨congrArg SessionProgress.gameOver hsession, congrArg SessionProgress.closed hsession⟩
  | leaveSideDecking born target =>
    have hsession := enterPhase_session (room.note (.sided born)) cfg born target
    exact ⟨congrArg SessionProgress.gameOver hsession, congrArg SessionProgress.closed hsession⟩
  | clearTimer born position =>
    rw [perform]
    split
    · exact ⟨rfl, rfl⟩
    · exact ⟨rfl, rfl⟩
  | clearTimers born =>
    rw [perform]
    split
    · exact ⟨rfl, rfl⟩
    · exact ⟨rfl, rfl⟩
  | removeAllListener born =>
    rw [perform]
    split
    · exact ⟨rfl, rfl⟩
    · exact ⟨rfl, rfl⟩
  | beginEnding index engine => cases h
  | endByAbandon born team => cases h
  | finalize abandon => cases h
  | _ => exact ⟨rfl, rfl⟩

/-- As long as no ending raises, only the calls that settle change how many are pending. -/
theorem perform_pendingEndings {call : Call} (hguard : Guarded cfg pre input room call)
    (hok : SettlesInStep room call) (h : call.settles = false) :
    (room.perform cfg call).pendingEndings = room.pendingEndings := by
  have hsuspended := @perform_suspended cfg room call
  cases call with
  | suspend k =>
    rw [pendingEndings, hsuspended, suspendedAfter, List.countP_append]
    simp [pendingEndings, hguard.2.1]
  | resume index =>
    rw [pendingEndings, hsuspended, suspendedAfter]
    cases hk : room.suspended[index]? with
    | none => rw [List.eraseIdx_of_length_le (List.getElem?_eq_none_iff.mp hk), pendingEndings]
    | some k =>
      have herased := (pending_erase hk).2
      rw [hok k hk] at herased
      exact herased
  | advance index stage engine =>
    obtain ⟨k, hk, hending⟩ := hguard
    have hreplaced := (pending_replace hk (.ending stage engine)).2
    rw [hending] at hreplaced
    exact Nat.add_right_cancel hreplaced
  | processDuelEnd duel winner engine =>
    rw [pendingEndings, hsuspended, suspendedAfter, List.countP_append]
    rfl
  | beginEnding index engine => cases h
  | publishGameOver index => cases h
  | endByAbandon born team => cases h
  | finalize abandon => cases h
  | _ =>
    rw [pendingEndings, hsuspended]
    rfl

theorem logged_noOutcome {call : Call} (h : call.settles = false) :
    outcomes (room.logged cfg call) = 0 := by
  cases call with
  | publishGameOver index => cases h
  | finalize abandon => cases h
  | _ => rfl

theorem SettleInvariant.same {call : Call} (h : SettleInvariant room)
    (hguard : Guarded cfg pre input room call) (hok : SettlesInStep room call)
    (hsettles : call.settles = false) : SettleInvariant (room.perform cfg call) := by
  obtain ⟨hgameOver, hclosed⟩ := @perform_session cfg room call hsettles
  have hpending := perform_pendingEndings hguard hok hsettles
  have hfinalizing : (room.perform cfg call).finalizing = room.finalizing := by
    apply perform_finalizing
    intro abandon he
    subst he
    cases hsettles
  refine ⟨?_, ?_, ?_⟩
  · rw [hclosed, hfinalizing]
    exact h.closed
  · rw [perform_log, outcomes_append, logged_noOutcome hsettles, hpending, hfinalizing, hgameOver]
    exact h.settled
  · rw [hfinalizing, hpending]
    exact h.ended

/-- The result of the match is on its way from now on. -/
theorem settleInvariant_beginEnding (h : SettleInvariant room) {index : Nat} (engine : Bool)
    {k : Deferred Continuation} (hk : room.suspended[index]? = some k)
    (hprocessing : k.work.isProcessing = true) (hmarked : room.session.gameOver = false)
    (hopen : room.finalizing = false) :
    SettleInvariant (room.perform cfg (.beginEnding index engine)) := by
  have hnotEnding : k.work.isEnding = false := by
    cases hwork : k.work with
    | ending stage engine =>
      rw [hwork] at hprocessing
      cases hprocessing
    | abandonEnding =>
      rw [hwork] at hprocessing
      cases hprocessing
    | _ => rfl
  have hreplaced := (pending_replace hk (.ending .runEnding engine)).2
  rw [hnotEnding] at hreplaced
  have hpending : (room.perform cfg (.beginEnding index engine)).pendingEndings =
      room.pendingEndings + 1 := hreplaced
  have hsettled := h.settled
  rw [hopen, hmarked] at hsettled
  change _ = 0 at hsettled
  refine ⟨h.closed, ?_, ?_⟩
  · rw [hpending]
    change outcomes room.log + (room.pendingEndings + 1) = (room.finalizing || true).toNat
    rw [Bool.or_true]
    change _ = 1
    omega
  · intro hfinalizing
    change room.finalizing = true at hfinalizing
    rw [hopen] at hfinalizing
    cases hfinalizing

theorem settleInvariant_endByAbandon (h : SettleInvariant room) (born : Nat) (team : Team)
    (hmarked : room.session.gameOver = false) (hopen : room.finalizing = false) :
    SettleInvariant (room.perform cfg (.endByAbandon born team)) := by
  have ha := @endByAbandon_awarded cfg room born team
  have hpending : (room.perform cfg (.endByAbandon born team)).pendingEndings =
      room.pendingEndings + 1 := by
    rw [pendingEndings, perform_suspended, suspendedAfter, List.countP_append]
    rfl
  have hfinalizing : (room.perform cfg (.endByAbandon born team)).finalizing = false := by
    rw [perform_finalizing (by simp), hopen]
  have hsettled := h.settled
  rw [hopen, hmarked] at hsettled
  change _ = 0 at hsettled
  refine ⟨?_, ?_, ?_⟩
  · rw [hfinalizing, ← hopen, ← h.closed]
    exact show (room.matchForfeit team.other).session.closed = room.session.closed from
      congrArg SessionProgress.closed (matchForfeit_session room team.other)
  · rw [ha.log, hpending, hfinalizing]
    change outcomes room.log + (room.pendingEndings + 1) = 1
    omega
  · rw [hfinalizing]
    intro hfalse
    cases hfalse

/-- The result that was on its way is reported. -/
theorem settleInvariant_publishGameOver (h : SettleInvariant room) {index : Nat}
    {k : Deferred Continuation} (hk : room.suspended[index]? = some k)
    (hpublishing : k.work.isPublishing = true) :
    SettleInvariant (room.perform cfg (.publishGameOver index)) := by
  have hending : k.work.isEnding = true := by
    cases hwork : k.work with
    | ending stage engine => rfl
    | abandonEnding => rfl
    | _ =>
      rw [hwork] at hpublishing
      cases hpublishing
  have herased := (pending_erase hk).2
  rw [hending] at herased
  have hpending : (room.perform cfg (.publishGameOver index)).pendingEndings + 1 =
      room.pendingEndings := herased
  have hsettled := h.settled
  refine ⟨h.closed, ?_, ?_⟩
  · rw [perform_log, outcomes_append]
    change outcomes room.log + 1 + _ = (room.finalizing || room.session.gameOver).toNat
    omega
  · intro hfinalizing
    have hzero := h.ended hfinalizing
    omega

/-- The teardown reports an abandon unless the result was reported. -/
theorem settleInvariant_finalize (hreserved : cfg.reservedDuel.isSome = true)
    (h : SettleInvariant room) (abandon : Option ReservedDuelAbandon)
    (hok : room.finalizing = true ∨ room.session.gameOver = false ∨ room.pendingEndings = 0) :
    SettleInvariant (room.finalize cfg abandon) := by
  cases hfinal : room.finalizing with
  | true =>
    rw [finalize_of_finalizing cfg abandon hfinal]
    exact h
  | false =>
    have hclosed : room.session.closed = false := h.closed.trans hfinal
    have hsettled := h.settled
    rw [hfinal, Bool.false_or] at hsettled
    have hzero : room.pendingEndings = 0 := by
      obtain hopen | hmarked | hnone := hok
      · rw [hfinal] at hopen
        cases hopen
      · rw [hmarked] at hsettled
        change _ = 0 at hsettled
        omega
      · exact hnone
    have hpending : (room.finalize cfg abandon).pendingEndings = 0 := by
      rw [← hzero, pendingEndings, finalize_toAgenda, pendingEndings]
    have hlogged : outcomes (room.logged cfg (.finalize abandon)) =
        (!room.session.gameOver).toNat := by
      rw [logged, if_neg (by simp [hfinal]), outcomes_append, abandons, hclosed, hreserved]
      cases room.session.gameOver with
      | true => rfl
      | false => rfl
    refine ⟨?_, ?_, ?_⟩
    · rw [finalize_finalizing]
      simp [finalize, closeSession, hfinal, hclosed]
    · rw [finalize_log, outcomes_append, hlogged, hpending, finalize_finalizing]
      rw [hzero] at hsettled
      cases hmarked : room.session.gameOver with
      | true =>
        rw [hmarked] at hsettled
        exact hsettled
      | false =>
        rw [hmarked] at hsettled
        change outcomes room.log + 0 = 0 at hsettled
        change outcomes room.log + 1 + 0 = 1
        omega
    · exact fun _ => hpending

theorem settleInvariant_perform (hreserved : cfg.reservedDuel.isSome = true) {call : Call}
    (h : SettleInvariant room) (hguard : Guarded cfg pre input room call)
    (hok : SettlesInStep room call) : SettleInvariant (room.perform cfg call) := by
  cases hsettles : call.settles with
  | false => exact h.same hguard hok hsettles
  | true =>
    cases call with
    | beginEnding index engine =>
      obtain ⟨_, k, hk, hprocessing⟩ := hguard
      exact settleInvariant_beginEnding h engine hk hprocessing hok.1 hok.2
    | publishGameOver index =>
      obtain ⟨k, hk, hpublishing⟩ := hguard
      exact settleInvariant_publishGameOver h hk hpublishing
    | endByAbandon born team => exact settleInvariant_endByAbandon h born team hok.1 hok.2
    | finalize abandon => exact settleInvariant_finalize hreserved h abandon hok
    | _ => cases hsettles

theorem create_settleInvariant (outside : Outside) : SettleInvariant (create cfg outside) :=
  ⟨rfl, rfl, fun _ => rfl⟩

/-! ## Runs -/

/-- In a run of a reserved room whose endings neither raise nor race each other or the teardown, a
closed room has reported exactly one outcome. -/
theorem settled_once (cfg : RoomConfig) (room : YGOProRoom)
    (hreserved : cfg.reservedDuel.isSome = true) (h : Runs cfg SettlesInStep room)
    (hclosed : room.finalizing = true) : outcomes room.log = 1 := by
  have hinvariant : SettleInvariant room :=
    Runs.invariant create_settleInvariant
      (fun _ _ _ _ _ hroom hguard hok => settleInvariant_perform hreserved hroom hguard hok) h
  have hsettled := hinvariant.settled
  rw [hinvariant.ended hclosed, hclosed] at hsettled
  exact hsettled

instance (room : YGOProRoom) (call : Call) : Decidable (SettlesInStep room call) := by
  apply Call.casesOn (motive := fun call => Decidable (SettlesInStep room call)) call
  case resume =>
    intro index
    show Decidable (∀ k ∈ room.suspended[index]?, _)
    infer_instance
  case finalize =>
    intro abandon
    show Decidable (_ ∨ _ ∨ _)
    infer_instance
  case beginEnding =>
    intro index engine
    show Decidable (_ ∧ _)
    infer_instance
  case endByAbandon =>
    intro born team
    show Decidable (_ ∧ _)
    infer_instance
  all_goals
    intros
    exact instDecidableTrue

/-- The reservation of a single duel between two users. -/
def reservedRoom : RoomConfig :=
  { casualRoom with
    bestOf := 1
    noReconnect := true
    reservedUserIds := ["a", "b"]
    reservedDuel := some
      { isSingle := true, allowsSpectators := false, locksReadyDeck := false,
        users := [("a", .player), ("b", .opponent)], botSeat := none,
        acceptsDeck := fun _ _ => true, usersSeated := by decide, botSeated := by decide } }

def ticketed (id : Nat) (name : String) (userId : UserId) : JoinRequest :=
  { name := name, hasPin := false,
    socket := { guestSocket id with resolvedUserId := some userId } }

def fortyCards : Deck :=
  { emptyDeck with
    main := (List.range 40).map (fun code =>
      { aliasCode := 0, code := code + 1, type := 1, variant := 3 }) }

/-- The ticketed users sit and are ready, and their duel begins. -/
def reservedBegins : List RoomInput :=
  [.join (ticketed 0 "A" "a"), .grant, .answered (some "a"), .join (ticketed 1 "B" "b"), .grant,
    .answered (some "b"), .message 0 (.updateDeck [] []), .message 1 (.updateDeck [] []),
    .settled 0 (.built (some fortyCards)), .settled 0 (.built (some fortyCards)), .grant,
    .grant] ++ duelBegins.tail

/-- The engine reports a win, which ends the match. -/
def reservedWon : List RoomInput :=
  reservedBegins ++ [.engine { state := 3, matchId := 1, duel := 1 } (.win (some .player)),
    .settled 0 .done]

/-- The ending of the match is carried through. -/
theorem settled_once_won :
    outcomes (after reservedRoom
      (reservedWon ++
        [.settled 0 .done, .settled 0 .done, .settled 0 .done, .settled 0 .done])).log =
      1 :=
  settled_once reservedRoom _ rfl (Runs.after (by decide +kernel)) (by decide +kernel)

/-- Sending the replays raises. -/
theorem not_settled_once : ∃ room, Runs reservedRoom (fun _ _ => True) room ∧
    room.finalizing = true ∧ outcomes room.log = 0 :=
  ⟨_, runs_after _ (reservedWon ++ [.settled 0 .done, .settled 0 .raised]),
    by decide +kernel, by decide +kernel⟩

end YGOProRoom

end EdoproServer.Room
