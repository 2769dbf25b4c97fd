import EdoproServer.Room.Runs

namespace EdoproServer.Room
open Decks Lib

/-! ## What a call logs -/

namespace YGOProRoom

variable {cfg : RoomConfig} {room : YGOProRoom}

/-- The abandon that a teardown records. -/
def abandons (cfg : RoomConfig) (room : YGOProRoom) (abandon : Option ReservedDuelAbandon) :
    List RoomEvent :=
  if !room.session.closed && cfg.reservedDuel.isSome && !room.session.gameOver then
    [.abandoned (abandon.getD { seat := none, reason := .roomClosed }) room.session.started]
  else []

/-- The events of a call, which `perform` appends to the log. -/
def logged (cfg : RoomConfig) (room : YGOProRoom) : Call → List RoomEvent
  | .setDecks c deck => [.deckAccepted room.epoch c deck]
  | .enter born target => [.moved born room.epoch room.duelState target]
  | .startMatch born =>
    [.matchStarted born (room.matchId + 1), .moved born room.epoch room.duelState .rps]
  | .leaveSideDecking born target =>
    [.sided born, .moved born room.epoch room.duelState target]
  | .dueling born =>
    [.moved born room.epoch room.duelState .dueling, .duelStarted room.matchId (room.duels + 1)]
  | .duelDecks decks => [.dueled room.epoch decks]
  | .update duel change =>
    [.updated duel.matchId duel.duel (room.currentDuel.map Duel.duelId) room.duelIds change]
  | .processDuelEnd duel _ _ =>
    [.updated duel.matchId duel.duel (room.currentDuel.map Duel.duelId) room.duelIds .finished,
      .scored duel.matchId duel.duel]
  | .publishGameOver _ => [.gameOver room.matchId]
  | .finalize abandon => if room.finalizing then [] else room.abandons cfg abandon ++ [.closed]
  | _ => []

theorem finalize_log (abandon : Option ReservedDuelAbandon) :
    (room.finalize cfg abandon).log = room.log ++ room.logged cfg (.finalize abandon) := by
  unfold finalize closeSession logged abandons
  dsimp only
  split
  · simp
  · split
    · rename_i hclosed
      simp [hclosed]
    · rename_i hopen
      simp [hopen]

/-- A call logs its events and nothing else. -/
theorem perform_log (call : Call) :
    (room.perform cfg call).log = room.log ++ room.logged cfg call := by
  cases call with
  | enter born target => exact enterPhase_log room cfg born target
  | startMatch born => simp [perform, createMatch, logged]
  | leaveSideDecking born target => simp [perform, note, logged]
  | dueling born => simp [perform, YGOProRoom.dueling, enqueue, enter, logged]
  | processDuelEnd duel winner engine =>
    simp [perform, YGOProRoom.processDuelEnd, YGOProRoom.update, logged]
  | clearTimer born position =>
    rw [perform]
    split
    · simp [logged]
    · simp [logged]
  | clearTimers born =>
    rw [perform]
    split
    · simp [logged]
    · simp [logged]
  | removeAllListener born =>
    rw [perform]
    split
    · simp [logged]
    · simp [logged]
  | endByAbandon born team => simp [perform, suspend, markGameOver, logged]
  | finalize abandon => exact finalize_log abandon
  | setDecks c deck => rfl
  | duelDecks decks => rfl
  | update duel change => rfl
  | publishGameOver index => rfl
  | _ => exact (List.append_nil room.log).symm

theorem log_perform_sub (call : Call) {event : RoomEvent} (h : event ∈ room.log) :
    event ∈ (room.perform cfg call).log := by
  rw [perform_log]
  exact List.mem_append_left _ h

/-! ## What a call leaves pending -/

/-- The suspended handlers after a call. -/
def suspendedAfter (room : YGOProRoom) : Call → List (Deferred Continuation)
  | .suspend k => room.suspended ++ [k]
  | .resume index => room.suspended.eraseIdx index
  | .advance index stage engine =>
    room.suspended.modify index (fun k => { k with work := .ending stage engine })
  | .processDuelEnd duel winner engine =>
    room.suspended ++ [{ born := duel.state, work := .duelProcessed winner engine }]
  | .beginEnding index engine =>
    room.suspended.modify index (fun k => { k with work := .ending .runEnding engine })
  | .publishGameOver index => room.suspended.eraseIdx index
  | .endByAbandon born _ => room.suspended ++ [{ born := born, work := .abandonEnding }]
  | _ => room.suspended

theorem perform_suspended (call : Call) :
    (room.perform cfg call).suspended = room.suspendedAfter call := by
  cases call with
  | enter born target => exact congrArg Agenda.suspended (enterPhase_toAgenda room cfg born target)
  | leaveSideDecking born target =>
    exact congrArg Agenda.suspended (enterPhase_toAgenda (room.note (.sided born)) cfg born target)
  | endByAbandon born team =>
    have hagenda := matchForfeit_toAgenda room team.other
    exact show (room.matchForfeit team.other).suspended ++ _ = room.suspended ++ _ by rw [hagenda]
  | finalize abandon => exact congrArg Agenda.suspended (finalize_toAgenda room cfg abandon)
  | clearTimer born position =>
    rw [perform]
    split
    · rfl
    · rfl
  | clearTimers born =>
    rw [perform]
    split
    · rfl
    · rfl
  | removeAllListener born =>
    rw [perform]
    split
    · rfl
    · rfl
  | _ => rfl

/-- An engine of the room after a call was one before, or the call brings it. -/
theorem mem_cores_perform {call : Call} {core : Core} (h : core ∈ (room.perform cfg call).cores) :
    core ∈ room.cores ∨ ∃ decks, call = .addDuelRecord core decks := by
  cases call with
  | addDuelRecord new decks =>
    cases List.mem_append.mp h with
    | inl hold => exact .inl hold
    | inr hnew => exact .inr ⟨decks, by rw [List.mem_singleton.mp hnew]⟩
  | disposeCore state => exact .inl (List.mem_of_mem_filter h)
  | enter born target => exact .inl (by simpa [perform] using h)
  | startMatch born => exact .inl (by simpa [perform, createMatch] using h)
  | leaveSideDecking born target => exact .inl (by simpa [perform, note] using h)
  | finalize abandon => exact .inl (by simpa [perform] using h)
  | endByAbandon born team =>
    rw [perform, matchForfeit] at h
    split at h
    · exact .inl h
    · exact .inl h
  | clearTimer born position =>
    rw [perform] at h
    split at h
    · exact .inl h
    · exact .inl h
  | clearTimers born =>
    rw [perform] at h
    split at h
    · exact .inl h
    · exact .inl h
  | removeAllListener born =>
    rw [perform] at h
    split at h
    · exact .inl h
    · exact .inl h
  | _ => exact .inl h

/-- Another continuation takes the place of a suspended one. -/
theorem mem_modify {l : List (Deferred Continuation)} {index : Nat} {work : Continuation}
    {k : Deferred Continuation} (h : k ∈ l.modify index (fun k => { k with work := work })) :
    k ∈ l ∨ k.work = work := by
  obtain ⟨j, hj⟩ := List.mem_iff_getElem?.mp h
  rw [List.getElem?_modify] at hj
  obtain ⟨old, hold, hk⟩ := Option.map_eq_some_iff.mp hj
  split at hk
  · right
    rw [← hk]
  · left
    rw [← hk]
    exact List.mem_of_getElem? hold

/-- What is suspended after a call was suspended before or by the call, or ends a duel or a
match. -/
theorem suspended_perform {call : Call} {k : Deferred Continuation}
    (h : k ∈ (room.perform cfg call).suspended) : k ∈ room.suspended ∨ call = .suspend k ∨
      k.work.isProcessing = true ∨ k.work.isEnding = true := by
  rw [perform_suspended] at h
  cases call with
  | suspend other =>
    cases List.mem_append.mp h with
    | inl hold => exact .inl hold
    | inr hnew => exact .inr (.inl (by rw [List.mem_singleton.mp hnew]))
  | resume index => exact .inl (List.mem_of_mem_eraseIdx h)
  | publishGameOver index => exact .inl (List.mem_of_mem_eraseIdx h)
  | advance index stage engine =>
    cases mem_modify h with
    | inl hold => exact .inl hold
    | inr hnew => exact .inr (.inr (.inr (by rw [hnew]; rfl)))
  | beginEnding index engine =>
    cases mem_modify h with
    | inl hold => exact .inl hold
    | inr hnew => exact .inr (.inr (.inr (by rw [hnew]; rfl)))
  | processDuelEnd duel winner engine =>
    cases List.mem_append.mp h with
    | inl hold => exact .inl hold
    | inr hnew => exact .inr (.inr (.inl (by rw [List.mem_singleton.mp hnew]; rfl)))
  | endByAbandon born team =>
    cases List.mem_append.mp h with
    | inl hold => exact .inl hold
    | inr hnew => exact .inr (.inr (.inr (by rw [List.mem_singleton.mp hnew]; rfl)))
  | _ => exact .inl h

end YGOProRoom

/-! ## Reading the log -/

/-- The room states whose handlers moved the room on. -/
def movedBorns (log : List RoomEvent) : List Nat :=
  log.filterMap (fun
    | .moved born _ _ _ => some born
    | _ => none)

/-- The room states whose handlers started a match. -/
def startedBorns (log : List RoomEvent) : List Nat :=
  log.filterMap (fun
    | .matchStarted born _ => some born
    | _ => none)

/-- The room states in which everyone finished siding. -/
def sidedBorns (log : List RoomEvent) : List Nat :=
  log.filterMap (fun
    | .sided born => some born
    | _ => none)

@[simp] theorem movedBorns_append (log events : List RoomEvent) :
    movedBorns (log ++ events) = movedBorns log ++ movedBorns events := by
  simp [movedBorns]

@[simp] theorem startedBorns_append (log events : List RoomEvent) :
    startedBorns (log ++ events) = startedBorns log ++ startedBorns events := by
  simp [startedBorns]

@[simp] theorem sidedBorns_append (log events : List RoomEvent) :
    sidedBorns (log ++ events) = sidedBorns log ++ sidedBorns events := by
  simp [sidedBorns]

end EdoproServer.Room
