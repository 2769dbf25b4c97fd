import EdoproServer.Room.Duels

namespace EdoproServer.Room
open Decks Lib

/-! ## Counting in a list one of whose members changes -/

section

variable {α : Type*} {l : List α} {index : Nat} {a : α} (p : α → Bool)

theorem countP_cons_toNat (a : α) (l : List α) :
    (a :: l).countP p = l.countP p + (p a).toNat := by
  cases h : p a with
  | true => simp [h]
  | false => simp [h]

theorem countP_eraseIdx (h : l[index]? = some a) :
    (l.eraseIdx index).countP p + (p a).toNat = l.countP p := by
  obtain ⟨hlt, ha⟩ := List.getElem?_eq_some_iff.mp h
  have hsplit : l = l.take index ++ a :: l.drop (index + 1) := by
    rw [← ha, List.getElem_cons_drop, List.take_append_drop]
  rw [List.eraseIdx_eq_take_drop_succ]
  conv_rhs => rw [hsplit]
  simp only [List.countP_append, countP_cons_toNat]
  omega

theorem countP_modify (h : l[index]? = some a) (f : α → α) :
    (l.modify index f).countP p + (p a).toNat = l.countP p + (p (f a)).toNat := by
  obtain ⟨hlt, ha⟩ := List.getElem?_eq_some_iff.mp h
  have hsplit : l = l.take index ++ a :: l.drop (index + 1) := by
    rw [← ha, List.getElem_cons_drop, List.take_append_drop]
  rw [List.modify_eq_take_cons_drop hlt, ha]
  conv_rhs => rw [hsplit]
  simp only [List.countP_append, countP_cons_toNat]
  omega

end

/-! ## Results and game overs in the log -/

/-- The duels that were scored, by match and number. -/
def scoredDuels (log : List RoomEvent) : List (Nat × Nat) :=
  log.filterMap (fun
    | .scored matchId duel => some (matchId, duel)
    | _ => none)

/-- The matches whose game over was published. -/
def gameOvers (log : List RoomEvent) : List Nat :=
  log.filterMap (fun
    | .gameOver matchId => some matchId
    | _ => none)

def RoomEvent.isClosed : RoomEvent → Bool
  | .closed => true
  | _ => false

/-- How often the teardown ran. -/
def teardowns (log : List RoomEvent) : Nat := log.countP RoomEvent.isClosed

@[simp] theorem scoredDuels_append (log events : List RoomEvent) :
    scoredDuels (log ++ events) = scoredDuels log ++ scoredDuels events := by
  simp [scoredDuels]

@[simp] theorem gameOvers_append (log events : List RoomEvent) :
    gameOvers (log ++ events) = gameOvers log ++ gameOvers events := by
  simp [gameOvers]

@[simp] theorem teardowns_append (log events : List RoomEvent) :
    teardowns (log ++ events) = teardowns log + teardowns events :=
  List.countP_append

/-- Events that end a duel, a match or the room. -/
def RoomEvent.isEnd : RoomEvent → Bool
  | .scored _ _ | .gameOver _ | .closed => true
  | _ => false

theorem no_ends {events : List RoomEvent} (h : ∀ event ∈ events, event.isEnd = false) :
    scoredDuels events = [] ∧ gameOvers events = [] ∧ teardowns events = 0 := by
  simp only [scoredDuels, gameOvers, teardowns, List.filterMap_eq_nil_iff, List.countP_eq_zero]
  refine ⟨?_, ?_, ?_⟩
  all_goals
    intro event hevent
    have hend := h event hevent
    cases event with
    | scored matchId duel => cases hend
    | gameOver matchId => cases hend
    | closed => cases hend
    | _ => simp [RoomEvent.isClosed]

namespace YGOProRoom

variable {cfg : RoomConfig} {room pre : YGOProRoom} {input : RoomInput}

/-- How many scored duels wait for what follows them. -/
def pendingScores (room : YGOProRoom) : Nat :=
  room.suspended.countP (fun k => k.work.isProcessing)

/-- How many endings of matches wait to publish a game over. -/
def pendingEndings (room : YGOProRoom) : Nat :=
  room.suspended.countP (fun k => k.work.isEnding)

/-- At most one result of the match is on its way to a game over or has become one. -/
structure EndInvariant (cfg : RoomConfig) (room : YGOProRoom) : Prop where
  scored : (scoredDuels room.log).Nodup
  scoredLe : ∀ m n, (m, n) ∈ scoredDuels room.log →
    m < room.matchId ∨ m = room.matchId ∧ n ≤ room.duels
  latest : (room.matchId, room.duels) ∈ scoredDuels room.log →
    room.isFinished = true ∧ room.pendingDuels = 0
  once : room.pendingScores + room.pendingEndings + (gameOvers room.log).count room.matchId ≤ 1
  processing : 0 < room.pendingScores → room.isFinished = true ∧ room.pendingDuels = 0
  ending : 0 < room.pendingEndings + (gameOvers room.log).count room.matchId →
    room.isMatchFinished cfg = true ∧ room.session.gameOver = true
  gameOver : (gameOvers room.log).Nodup
  gameOverLe : ∀ m ∈ gameOvers room.log, m ≤ room.matchId
  torn : teardowns room.log = if room.finalizing then 1 else 0

/-- Nothing ends: the same duels, no more results pending, and what was finished stays so. -/
structure SameEnds (cfg : RoomConfig) (room room' : YGOProRoom) : Prop where
  matchId : room'.matchId = room.matchId
  duels : room'.duels = room.duels
  pendingDuels : room'.pendingDuels = room.pendingDuels
  finished : room.isFinished = true → room'.isFinished = true
  scores : room'.pendingScores ≤ room.pendingScores
  endings : room'.pendingEndings ≤ room.pendingEndings
  matchFinished : room.isMatchFinished cfg = true → room'.isMatchFinished cfg = true
  gameOver : room.session.gameOver = true → room'.session.gameOver = true
  finalizing : room'.finalizing = room.finalizing

theorem EndInvariant.same {room' : YGOProRoom} (h : EndInvariant cfg room)
    (hs : SameEnds cfg room room') {events : List RoomEvent} (hlog : room'.log = room.log ++ events)
    (hquiet : ∀ event ∈ events, event.isEnd = false) : EndInvariant cfg room' := by
  obtain ⟨hscored, hgameOver, htorn⟩ := no_ends hquiet
  have hscored' : scoredDuels room'.log = scoredDuels room.log := by
    rw [hlog, scoredDuels_append, hscored, List.append_nil]
  have hgameOver' : gameOvers room'.log = gameOvers room.log := by
    rw [hlog, gameOvers_append, hgameOver, List.append_nil]
  have hscores := hs.scores
  have hendings := hs.endings
  have honce := h.once
  refine ⟨?_, ?_, ?_, ?_, ?_, ?_, ?_, ?_, ?_⟩
  · rw [hscored']
    exact h.scored
  · rw [hscored', hs.matchId, hs.duels]
    exact h.scoredLe
  · rw [hscored', hs.matchId, hs.duels, hs.pendingDuels]
    intro hmem
    obtain ⟨hfinished, hpending⟩ := h.latest hmem
    exact ⟨hs.finished hfinished, hpending⟩
  · rw [hgameOver', hs.matchId]
    omega
  · rw [hs.pendingDuels]
    intro hpos
    obtain ⟨hfinished, hpending⟩ := h.processing (by omega)
    exact ⟨hs.finished hfinished, hpending⟩
  · rw [hgameOver', hs.matchId]
    intro hpos
    obtain ⟨hmatch, hsession⟩ := h.ending (by omega)
    exact ⟨hs.matchFinished hmatch, hs.gameOver hsession⟩
  · rw [hgameOver']
    exact h.gameOver
  · rw [hgameOver', hs.matchId]
    exact h.gameOverLe
  · rw [hlog, teardowns_append, htorn, hs.finalizing]
    exact h.torn

end YGOProRoom

/-- Calls that score or end a duel, a match or the room, or start one. -/
def Call.touchesEnds : Call → Bool
  | .startMatch _ | .dueling _ | .createDuel | .processDuelEnd _ _ _ | .beginEnding _ _
  | .publishGameOver _ | .endByAbandon _ _ | .finalize _ => true
  | _ => false

namespace YGOProRoom

variable {cfg : RoomConfig} {room pre : YGOProRoom} {input : RoomInput}

/-- Another continuation takes the place of a suspended one. -/
theorem pending_replace {index : Nat} {k : Deferred Continuation}
    (hk : room.suspended[index]? = some k) (work : Continuation) :
    (room.advance index work).pendingScores + k.work.isProcessing.toNat =
        room.pendingScores + work.isProcessing.toNat ∧
      (room.advance index work).pendingEndings + k.work.isEnding.toNat =
        room.pendingEndings + work.isEnding.toNat :=
  ⟨countP_modify (fun k : Deferred Continuation => k.work.isProcessing) hk
      (fun k => { k with work := work }),
    countP_modify (fun k : Deferred Continuation => k.work.isEnding) hk
      (fun k => { k with work := work })⟩

theorem pending_erase {index : Nat} {k : Deferred Continuation}
    (hk : room.suspended[index]? = some k) :
    (room.suspended.eraseIdx index).countP (fun k => k.work.isProcessing) +
        k.work.isProcessing.toNat = room.pendingScores ∧
      (room.suspended.eraseIdx index).countP (fun k => k.work.isEnding) +
        k.work.isEnding.toNat = room.pendingEndings :=
  ⟨countP_eraseIdx (fun k : Deferred Continuation => k.work.isProcessing) hk,
    countP_eraseIdx (fun k : Deferred Continuation => k.work.isEnding) hk⟩

/-- What is pending grows by the calls that end something only. -/
theorem pending_perform {call : Call} (hguard : Guarded cfg pre input room call)
    (h : call.touchesEnds = false) :
    (room.perform cfg call).pendingScores ≤ room.pendingScores ∧
      (room.perform cfg call).pendingEndings ≤ room.pendingEndings := by
  unfold pendingScores pendingEndings
  rw [perform_suspended]
  cases call with
  | suspend k => simp [suspendedAfter, hguard.1, hguard.2.1]
  | resume index =>
    exact ⟨(List.eraseIdx_sublist room.suspended index).countP_le,
      (List.eraseIdx_sublist room.suspended index).countP_le⟩
  | advance index stage engine =>
    obtain ⟨k, hk, hending⟩ := hguard
    have hold : k.work.isProcessing = false := by
      cases hwork : k.work with
      | duelProcessed winner engine =>
        rw [hwork] at hending
        cases hending
      | _ => rfl
    obtain ⟨hscores, hendings⟩ := pending_replace hk (.ending stage engine)
    rw [hold] at hscores
    rw [hending] at hendings
    exact ⟨le_of_eq hscores, le_of_eq (Nat.add_right_cancel hendings)⟩
  | processDuelEnd duel winner engine => cases h
  | beginEnding index engine => cases h
  | publishGameOver index => cases h
  | endByAbandon born team => cases h
  | _ => exact ⟨le_refl _, le_refl _⟩

theorem perform_currentMatch {call : Call} (h : call.touchesEnds = false) :
    (room.perform cfg call).currentMatch = room.currentMatch := by
  cases call with
  | enter born target =>
    exact congrArg Contest.currentMatch (enterPhase_toContest room cfg born target)
  | leaveSideDecking born target =>
    exact congrArg Contest.currentMatch
      (enterPhase_toContest (room.note (.sided born)) cfg born target)
  | clearTimer born position =>
    rw [perform]
    split
    · rfl
    · rfl
  | clearTimers born =>
    rw [perform]
    split
    · rfl
    · rfl
  | removeAllListener born =>
    rw [perform]
    split
    · rfl
    · rfl
  | startMatch born => cases h
  | processDuelEnd duel winner engine => cases h
  | endByAbandon born team => cases h
  | finalize abandon => cases h
  | _ => rfl

/-- A game over that was marked stays marked. -/
theorem gameOver_perform (call : Call) (h : room.session.gameOver = true) :
    (room.perform cfg call).session.gameOver = true := by
  cases call with
  | enter born target =>
    exact (congrArg SessionProgress.gameOver (enterPhase_session room cfg born target)).trans h
  | leaveSideDecking born target =>
    exact (congrArg SessionProgress.gameOver
      (enterPhase_session (room.note (.sided born)) cfg born target)).trans h
  | clearTimer born position =>
    rw [perform]
    split
    · exact h
    · exact h
  | clearTimers born =>
    rw [perform]
    split
    · exact h
    · exact h
  | removeAllListener born =>
    rw [perform]
    split
    · exact h
    · exact h
  | finalize abandon =>
    change (room.finalize cfg abandon).session.gameOver = true
    unfold finalize closeSession
    dsimp only
    split_ifs
    all_goals exact h
  | _ => first | exact h | rfl

theorem apply_finished (change : DuelUpdate) {duel : Duel} (h : duel.finished = true) :
    (change.apply duel).finished = true := by
  cases change with
  | turn => exact h
  | damage team value =>
    cases team with
    | _ => exact h
  | recover team value =>
    cases team with
    | _ => exact h
  | finished => rfl

theorem update_isFinished (duel : Core) (change : DuelUpdate) (h : room.isFinished = true) :
    (room.update duel change).isFinished = true := by
  unfold isFinished at h ⊢
  obtain ⟨current, hcurrent, hfinished⟩ := (Option.any_eq_true _ _).mp h
  simp [update, hcurrent, apply_finished change hfinished]

theorem perform_sameEnds {call : Call} (hguard : Guarded cfg pre input room call)
    (h : call.touchesEnds = false) : SameEnds cfg room (room.perform cfg call) := by
  obtain ⟨hscores, hendings⟩ := pending_perform hguard h
  have hmatch : room.isMatchFinished cfg = true →
      (room.perform cfg call).isMatchFinished cfg = true := by
    unfold isMatchFinished
    rw [perform_currentMatch h]
    exact fun h => h
  have hfinalizing : (room.perform cfg call).finalizing = room.finalizing := by
    apply perform_finalizing
    intro abandon he
    subst he
    cases h
  cases htouches : call.touchesDuels with
  | false =>
    have hsame := perform_sameDuels hguard htouches
    have hfinished : room.isFinished = true → (room.perform cfg call).isFinished = true := by
      unfold isFinished
      rw [hsame.currentDuel]
      exact fun h => h
    exact ⟨hsame.matchId, hsame.duels, hsame.pendingDuels, hfinished, hscores, hendings, hmatch,
      gameOver_perform call, hfinalizing⟩
  | true =>
    cases call with
    | update duel change =>
      exact ⟨rfl, rfl, rfl, update_isFinished duel change, hscores, hendings, hmatch,
        gameOver_perform _, hfinalizing⟩
    | startMatch born => cases h
    | dueling born => cases h
    | createDuel => cases h
    | processDuelEnd duel winner engine => cases h
    | endByAbandon born team => cases h
    | _ => cases htouches

theorem logged_noEnds {call : Call} (h : call.touchesEnds = false) :
    ∀ event ∈ room.logged cfg call, event.isEnd = false := by
  cases call with
  | processDuelEnd duel winner engine => cases h
  | publishGameOver index => cases h
  | finalize abandon => cases h
  | _ => simp [logged, RoomEvent.isEnd]

/-! ## When something ends -/

/-- A duel is scored when it is the newest and its object is there, unless its match is being
ended already. No duel and no match starts before a scored duel is settled, and no match is
abandoned then. -/
def EndsInStep (cfg : RoomConfig) (room : YGOProRoom) : Call → Prop
  | .processDuelEnd duel _ _ => duel.matchId = room.matchId ∧ duel.duel = room.duels ∧
      room.pendingDuels = 0 ∧ room.currentDuel.isSome = true ∧
      (room.isMatchFinished cfg && room.session.gameOver) = false
  | .dueling _ => room.pendingScores = 0
  | .startMatch _ => room.pendingScores = 0 ∧ room.pendingEndings = 0
  | .endByAbandon _ _ => room.pendingScores = 0
  | _ => True

theorem endInvariant_startMatch (h : EndInvariant cfg room) (born : Nat)
    (hscores : room.pendingScores = 0) (hendings : room.pendingEndings = 0) :
    EndInvariant cfg (room.perform cfg (.startMatch born)) := by
  have hlog := @perform_log cfg room (.startMatch born)
  have hquiet : ∀ event ∈ room.logged cfg (.startMatch born), event.isEnd = false := by
    simp [logged, RoomEvent.isEnd]
  obtain ⟨hscored, hgameOver, htorn⟩ := no_ends hquiet
  have hscored' : scoredDuels (room.perform cfg (.startMatch born)).log = scoredDuels room.log := by
    rw [hlog, scoredDuels_append, hscored, List.append_nil]
  have hgameOver' : gameOvers (room.perform cfg (.startMatch born)).log = gameOvers room.log := by
    rw [hlog, gameOvers_append, hgameOver, List.append_nil]
  have hfresh : (gameOvers room.log).count (room.matchId + 1) = 0 := by
    apply List.count_eq_zero.mpr
    intro hmem
    exact absurd (h.gameOverLe _ hmem) (by omega)
  refine ⟨?_, ?_, ?_, ?_, ?_, ?_, ?_, ?_, ?_⟩
  · rw [hscored']
    exact h.scored
  · rw [hscored']
    intro m n hmem
    change m < room.matchId + 1 ∨ m = room.matchId + 1 ∧ n ≤ 0
    have hle := h.scoredLe m n hmem
    omega
  · rw [hscored']
    intro hmem
    have hle := h.scoredLe _ _ hmem
    change room.matchId + 1 < room.matchId ∨ room.matchId + 1 = room.matchId ∧ 0 ≤ room.duels at hle
    omega
  · rw [hgameOver']
    change room.pendingScores + room.pendingEndings +
      (gameOvers room.log).count (room.matchId + 1) ≤ 1
    omega
  · intro hpos
    change 0 < room.pendingScores at hpos
    omega
  · rw [hgameOver']
    intro hpos
    change 0 < room.pendingEndings + (gameOvers room.log).count (room.matchId + 1) at hpos
    omega
  · rw [hgameOver']
    exact h.gameOver
  · rw [hgameOver']
    exact fun m hm => Nat.le_succ_of_le (h.gameOverLe m hm)
  · rw [hlog, teardowns_append, htorn]
    exact h.torn

theorem endInvariant_dueling (h : EndInvariant cfg room) (born : Nat)
    (hscores : room.pendingScores = 0) : EndInvariant cfg (room.dueling cfg born) := by
  have hlog := @perform_log cfg room (.dueling born)
  have hquiet : ∀ event ∈ room.logged cfg (.dueling born), event.isEnd = false := by
    simp [logged, RoomEvent.isEnd]
  obtain ⟨hscored, hgameOver, htorn⟩ := no_ends hquiet
  have hscored' : scoredDuels (room.dueling cfg born).log = scoredDuels room.log := by
    change scoredDuels (room.perform cfg (.dueling born)).log = _
    rw [hlog, scoredDuels_append, hscored, List.append_nil]
  have hgameOver' : gameOvers (room.dueling cfg born).log = gameOvers room.log := by
    change gameOvers (room.perform cfg (.dueling born)).log = _
    rw [hlog, gameOvers_append, hgameOver, List.append_nil]
  refine ⟨?_, ?_, ?_, ?_, ?_, ?_, ?_, ?_, ?_⟩
  · rw [hscored']
    exact h.scored
  · rw [hscored']
    intro m n hmem
    change m < room.matchId ∨ m = room.matchId ∧ n ≤ room.duels + 1
    have hle := h.scoredLe m n hmem
    omega
  · rw [hscored']
    intro hmem
    have hle := h.scoredLe _ _ hmem
    change room.matchId < room.matchId ∨ room.matchId = room.matchId ∧
      room.duels + 1 ≤ room.duels at hle
    omega
  · rw [hgameOver']
    exact h.once
  · intro hpos
    change 0 < room.pendingScores at hpos
    omega
  · rw [hgameOver']
    exact h.ending
  · rw [hgameOver']
    exact h.gameOver
  · rw [hgameOver']
    exact h.gameOverLe
  · change teardowns (room.perform cfg (.dueling born)).log = _
    rw [hlog, teardowns_append, htorn]
    exact h.torn

theorem endInvariant_createDuel (h : EndInvariant cfg room)
    (hhead : ∃ work ∈ room.queue.head?, work.work.createsDuel = true) :
    EndInvariant cfg (room.createDuel cfg) := by
  have hpending : 0 < room.pendingDuels := by
    obtain ⟨work, hwork, hcreates⟩ := hhead
    exact List.countP_pos_iff.mpr ⟨work, List.mem_of_head? hwork, hcreates⟩
  refine ⟨h.scored, h.scoredLe, ?_, h.once, ?_, h.ending, h.gameOver, h.gameOverLe, h.torn⟩
  · intro hmem
    have hzero := (h.latest hmem).2
    omega
  · intro hpos
    have hzero := (h.processing hpos).2
    omega

/-- The newest duel is scored, for the first time. -/
theorem endInvariant_processDuelEnd (h : EndInvariant cfg room) {duel : Core} (winner : Winner)
    (engine : Bool) (hopen : room.isFinished = false)
    (hok : EndsInStep cfg room (.processDuelEnd duel winner engine)) :
    EndInvariant cfg (room.processDuelEnd duel winner engine) := by
  obtain ⟨hmatch, hduel, hpending, hobject, hnotEnding⟩ := hok
  obtain ⟨current, hcurrent⟩ := Option.isSome_iff_exists.mp hobject
  have hscores : room.pendingScores = 0 := by
    by_contra hne
    have hfinished := (h.processing (Nat.pos_of_ne_zero hne)).1
    rw [hopen] at hfinished
    cases hfinished
  have hendings : room.pendingEndings + (gameOvers room.log).count room.matchId = 0 := by
    by_contra hne
    obtain ⟨hfinished, hmarked⟩ := h.ending (Nat.pos_of_ne_zero hne)
    rw [hfinished, hmarked] at hnotEnding
    cases hnotEnding
  have hnew : (room.matchId, room.duels) ∉ scoredDuels room.log := by
    intro hmem
    have hfinished := (h.latest hmem).1
    rw [hopen] at hfinished
    cases hfinished
  have hlog := @perform_log cfg room (.processDuelEnd duel winner engine)
  have hscored : scoredDuels (room.processDuelEnd duel winner engine).log =
      scoredDuels room.log ++ [(room.matchId, room.duels)] := by
    change scoredDuels (room.perform cfg (.processDuelEnd duel winner engine)).log = _
    rw [hlog, scoredDuels_append]
    simp [logged, scoredDuels, hmatch, hduel]
  have hgameOver : gameOvers (room.processDuelEnd duel winner engine).log = gameOvers room.log := by
    change gameOvers (room.perform cfg (.processDuelEnd duel winner engine)).log = _
    rw [hlog, gameOvers_append]
    simp [logged, gameOvers]
  have hfinished : (room.processDuelEnd duel winner engine).isFinished = true := by
    simp [isFinished, YGOProRoom.processDuelEnd, YGOProRoom.update, hcurrent, DuelUpdate.apply,
      Duel.finish]
  have hscores' : (room.processDuelEnd duel winner engine).pendingScores = 1 := by
    change (room.suspended ++ [_]).countP _ = 1
    rw [List.countP_append]
    change room.pendingScores + 1 = 1
    rw [hscores]
  have hendings' : (room.processDuelEnd duel winner engine).pendingEndings =
      room.pendingEndings := by
    change (room.suspended ++ [_]).countP _ = room.pendingEndings
    rw [List.countP_append]
    rfl
  refine ⟨?_, ?_, ?_, ?_, ?_, ?_, ?_, ?_, ?_⟩
  · rw [hscored]
    exact List.nodup_append.mpr ⟨h.scored, List.nodup_singleton _, by
      intro a ha b hb he
      rw [he, List.mem_singleton.mp hb] at ha
      exact hnew ha⟩
  · rw [hscored]
    intro m n hmem
    cases List.mem_append.mp hmem with
    | inl hold => exact h.scoredLe m n hold
    | inr hlast =>
      obtain ⟨rfl, rfl⟩ := Prod.mk.inj (List.mem_singleton.mp hlast)
      exact .inr ⟨rfl, le_refl _⟩
  · exact fun _ => ⟨hfinished, hpending⟩
  · rw [hscores', hendings', hgameOver]
    change 1 + room.pendingEndings + (gameOvers room.log).count room.matchId ≤ 1
    omega
  · exact fun _ => ⟨hfinished, hpending⟩
  · rw [hendings', hgameOver]
    intro hpos
    change 0 < room.pendingEndings + (gameOvers room.log).count room.matchId at hpos
    omega
  · rw [hgameOver]
    exact h.gameOver
  · rw [hgameOver]
    exact h.gameOverLe
  · change teardowns (room.perform cfg (.processDuelEnd duel winner engine)).log = _
    rw [hlog, teardowns_append]
    exact h.torn

theorem endInvariant_beginEnding (h : EndInvariant cfg room) {index : Nat} (engine : Bool)
    (hmatch : room.isMatchFinished cfg = true) {k : Deferred Continuation}
    (hk : room.suspended[index]? = some k) (hprocessing : k.work.isProcessing = true) :
    EndInvariant cfg (room.perform cfg (.beginEnding index engine)) := by
  have hnotEnding : k.work.isEnding = false := by
    cases hwork : k.work with
    | ending stage engine =>
      rw [hwork] at hprocessing
      cases hprocessing
    | abandonEnding =>
      rw [hwork] at hprocessing
      cases hprocessing
    | _ => rfl
  obtain ⟨hscores, hendings⟩ := pending_replace hk (.ending .runEnding engine)
  rw [hprocessing] at hscores
  rw [hnotEnding] at hendings
  change _ + 1 = _ + 0 at hscores
  change _ + 0 = _ + 1 at hendings
  have hscores' : (room.perform cfg (.beginEnding index engine)).pendingScores + 1 =
      room.pendingScores := hscores
  have hendings' : (room.perform cfg (.beginEnding index engine)).pendingEndings =
      room.pendingEndings + 1 := hendings
  have honce := h.once
  refine ⟨h.scored, h.scoredLe, h.latest, ?_, ?_, ?_, h.gameOver, h.gameOverLe, h.torn⟩
  · rw [hendings']
    change _ + _ + (gameOvers room.log).count room.matchId ≤ 1
    omega
  · exact fun _ => h.processing (by omega)
  · exact fun _ => ⟨hmatch, rfl⟩

theorem endInvariant_publishGameOver (h : EndInvariant cfg room) {index : Nat}
    {k : Deferred Continuation} (hk : room.suspended[index]? = some k)
    (hpublishing : k.work.isPublishing = true) :
    EndInvariant cfg (room.perform cfg (.publishGameOver index)) := by
  have hkind : k.work.isProcessing = false ∧ k.work.isEnding = true := by
    cases hwork : k.work with
    | ending stage engine => exact ⟨rfl, rfl⟩
    | abandonEnding => exact ⟨rfl, rfl⟩
    | _ =>
      rw [hwork] at hpublishing
      cases hpublishing
  obtain ⟨hscores, hendings⟩ := pending_erase hk
  rw [hkind.1] at hscores
  rw [hkind.2] at hendings
  have hscores' : (room.perform cfg (.publishGameOver index)).pendingScores =
      room.pendingScores := hscores
  have hendings' : (room.perform cfg (.publishGameOver index)).pendingEndings + 1 =
      room.pendingEndings := hendings
  have honce := h.once
  have hlog := @perform_log cfg room (.publishGameOver index)
  have hgameOver : gameOvers (room.perform cfg (.publishGameOver index)).log =
      gameOvers room.log ++ [room.matchId] := by
    rw [hlog, gameOvers_append]
    rfl
  have hnew : room.matchId ∉ gameOvers room.log := List.count_eq_zero.mp (by omega)
  have hscored : scoredDuels (room.perform cfg (.publishGameOver index)).log =
      scoredDuels room.log := by
    rw [hlog, scoredDuels_append]
    exact List.append_nil _
  refine ⟨?_, ?_, ?_, ?_, ?_, ?_, ?_, ?_, ?_⟩
  · rw [hscored]
    exact h.scored
  · rw [hscored]
    exact h.scoredLe
  · rw [hscored]
    exact h.latest
  · rw [hscores', hgameOver, List.count_append]
    change room.pendingScores + _ + ((gameOvers room.log).count room.matchId +
      [room.matchId].count room.matchId) ≤ 1
    rw [List.count_singleton_self]
    omega
  · rw [hscores']
    exact h.processing
  · exact fun _ => h.ending (by omega)
  · rw [hgameOver]
    exact List.nodup_append.mpr ⟨h.gameOver, List.nodup_singleton _, by
      intro a ha b hb he
      rw [he, List.mem_singleton.mp hb] at ha
      exact hnew ha⟩
  · rw [hgameOver]
    intro m hm
    cases List.mem_append.mp hm with
    | inl hold => exact h.gameOverLe m hold
    | inr hlast => exact le_of_eq (List.mem_singleton.mp hlast)
  · rw [hlog, teardowns_append]
    exact h.torn

/-- A forfeited match is finished. -/
theorem matchForfeit_isMatchFinished (team : Team) :
    (room.matchForfeit team).isMatchFinished cfg = true := by
  unfold matchForfeit isMatchFinished
  cases hmatch : room.currentMatch with
  | none => simp [hmatch]
  | some m => simp [Match.isOver, Match.forfeit_isFinished]

theorem endInvariant_endByAbandon (h : EndInvariant cfg room) (born : Nat) (team : Team)
    (hopen : room.isMatchFinished cfg = false) (hscores : room.pendingScores = 0) :
    EndInvariant cfg (room.perform cfg (.endByAbandon born team)) := by
  have ha := @endByAbandon_awarded cfg room born team
  have hfinished : (room.perform cfg (.endByAbandon born team)).isFinished = room.isFinished := by
    rw [isFinished, ha.currentDuel, isFinished]
  have hsuspended := @perform_suspended cfg room (.endByAbandon born team)
  have hscores' : (room.perform cfg (.endByAbandon born team)).pendingScores = 0 := by
    rw [pendingScores, hsuspended, suspendedAfter, List.countP_append]
    change room.pendingScores + 0 = 0
    rw [hscores]
  have hendings' : (room.perform cfg (.endByAbandon born team)).pendingEndings =
      room.pendingEndings + 1 := by
    rw [pendingEndings, hsuspended, suspendedAfter, List.countP_append]
    rfl
  have hendings : room.pendingEndings + (gameOvers room.log).count room.matchId = 0 := by
    by_contra hne
    have hfinished := (h.ending (Nat.pos_of_ne_zero hne)).1
    rw [hopen] at hfinished
    cases hfinished
  refine ⟨?_, ?_, ?_, ?_, ?_, ?_, ?_, ?_, ?_⟩
  · rw [ha.log]
    exact h.scored
  · rw [ha.log, ha.matchId, ha.duels]
    exact h.scoredLe
  · rw [ha.log, ha.matchId, ha.duels, hfinished, ha.pendingDuels]
    exact h.latest
  · rw [hscores', hendings', ha.log, ha.matchId]
    omega
  · rw [hscores']
    exact fun hpos => absurd hpos (Nat.lt_irrefl 0)
  · exact fun _ => ⟨matchForfeit_isMatchFinished team.other, rfl⟩
  · rw [ha.log]
    exact h.gameOver
  · rw [ha.log, ha.matchId]
    exact h.gameOverLe
  · rw [ha.log, perform_finalizing (by simp)]
    exact h.torn

/-- The first teardown runs, the next ones do nothing. -/
theorem endInvariant_finalize (h : EndInvariant cfg room) (abandon : Option ReservedDuelAbandon) :
    EndInvariant cfg (room.finalize cfg abandon) := by
  cases hfinal : room.finalizing with
  | true =>
    rw [finalize_of_finalizing cfg abandon hfinal]
    exact h
  | false =>
    have hlog : (room.finalize cfg abandon).log =
        room.log ++ (room.abandons cfg abandon ++ [.closed]) := by
      rw [finalize_log, logged, if_neg (by simp [hfinal])]
    have hscored : scoredDuels (room.finalize cfg abandon).log = scoredDuels room.log := by
      rw [hlog, scoredDuels_append, scoredDuels_append, abandons]
      split_ifs
      all_goals simp [scoredDuels]
    have hgameOver : gameOvers (room.finalize cfg abandon).log = gameOvers room.log := by
      rw [hlog, gameOvers_append, gameOvers_append, abandons]
      split_ifs
      all_goals simp [gameOvers]
    have htorn : teardowns (room.finalize cfg abandon).log = teardowns room.log + 1 := by
      rw [hlog, teardowns_append, teardowns_append, abandons]
      split_ifs
      all_goals simp [teardowns, RoomEvent.isClosed]
    have hcontest := finalize_toContest room cfg abandon
    have hagenda := finalize_toAgenda room cfg abandon
    have hsession := @gameOver_perform cfg room (.finalize abandon)
    have hscores : (room.finalize cfg abandon).pendingScores = room.pendingScores := by
      unfold pendingScores
      rw [hagenda]
    have hendings : (room.finalize cfg abandon).pendingEndings = room.pendingEndings := by
      unfold pendingEndings
      rw [hagenda]
    have hpending : (room.finalize cfg abandon).pendingDuels = room.pendingDuels := by
      unfold pendingDuels
      rw [hagenda]
    have hfinished : (room.finalize cfg abandon).isFinished = room.isFinished := by
      unfold isFinished
      rw [hcontest]
    have hmatch : (room.finalize cfg abandon).isMatchFinished cfg = room.isMatchFinished cfg := by
      unfold isMatchFinished
      rw [hcontest]
    have hid : (room.finalize cfg abandon).matchId = room.matchId :=
      congrArg Contest.matchId hcontest
    have hduels : (room.finalize cfg abandon).duels = room.duels := congrArg Contest.duels hcontest
    refine ⟨?_, ?_, ?_, ?_, ?_, ?_, ?_, ?_, ?_⟩
    · rw [hscored]
      exact h.scored
    · rw [hscored, hid, hduels]
      exact h.scoredLe
    · rw [hscored, hid, hduels, hfinished, hpending]
      exact h.latest
    · rw [hscores, hendings, hgameOver, hid]
      exact h.once
    · rw [hscores, hfinished, hpending]
      exact h.processing
    · rw [hendings, hgameOver, hid, hmatch]
      intro hpos
      obtain ⟨hover, hmarked⟩ := h.ending hpos
      exact ⟨hover, hsession hmarked⟩
    · rw [hgameOver]
      exact h.gameOver
    · rw [hgameOver, hid]
      exact h.gameOverLe
    · rw [htorn, finalize_finalizing, h.torn, hfinal]
      rfl

theorem endInvariant_perform {call : Call} (h : EndInvariant cfg room)
    (hguard : Guarded cfg pre input room call) (hok : EndsInStep cfg room call) :
    EndInvariant cfg (room.perform cfg call) := by
  cases htouches : call.touchesEnds with
  | false =>
    exact h.same (perform_sameEnds hguard htouches) (perform_log call) (logged_noEnds htouches)
  | true =>
    cases call with
    | startMatch born => exact endInvariant_startMatch h born hok.1 hok.2
    | dueling born => exact endInvariant_dueling h born hok
    | createDuel => exact endInvariant_createDuel h hguard
    | processDuelEnd duel winner engine =>
      exact endInvariant_processDuelEnd h winner engine hguard.1 hok
    | beginEnding index engine =>
      obtain ⟨hmatch, k, hk, hprocessing⟩ := hguard
      exact endInvariant_beginEnding h engine hmatch hk hprocessing
    | publishGameOver index =>
      obtain ⟨k, hk, hpublishing⟩ := hguard
      exact endInvariant_publishGameOver h hk hpublishing
    | endByAbandon born team => exact endInvariant_endByAbandon h born team hguard.2.1 hok
    | finalize abandon => exact endInvariant_finalize h abandon
    | _ => cases htouches

theorem create_endInvariant (outside : Outside) : EndInvariant cfg (create cfg outside) where
  scored := by simp [create, scoredDuels]
  scoredLe := by simp [create, scoredDuels]
  latest := by simp [create, scoredDuels]
  once := by simp [create, gameOvers, pendingScores, pendingEndings]
  processing := by simp [create, pendingScores]
  ending := by simp [create, gameOvers, pendingEndings]
  gameOver := by simp [create, gameOvers]
  gameOverLe := by simp [create, gameOvers]
  torn := rfl

/-! ## Runs -/

/-- Every duel is scored at most once, every match has at most one game over, and the room is torn
down at most once. -/
structure EndsOnce (room : YGOProRoom) : Prop where
  scored : (scoredDuels room.log).Nodup
  gameOver : (gameOvers room.log).Nodup
  torn : teardowns room.log ≤ 1

/-- In a run that scores duels in step with their objects, nothing ends twice. -/
theorem ends_once (cfg : RoomConfig) (room : YGOProRoom) (h : Runs cfg (EndsInStep cfg) room) :
    EndsOnce room := by
  have hinvariant : EndInvariant cfg room :=
    Runs.invariant create_endInvariant
      (fun _ _ _ _ _ hroom hguard hok => endInvariant_perform hroom hguard hok) h
  refine ⟨hinvariant.scored, hinvariant.gameOver, ?_⟩
  rw [hinvariant.torn]
  split
  · exact le_refl 1
  · exact Nat.zero_le 1

instance (room : YGOProRoom) (call : Call) : Decidable (EndsInStep cfg room call) := by
  apply Call.casesOn (motive := fun call => Decidable (EndsInStep cfg room call)) call
  case processDuelEnd =>
    intro duel winner engine
    show Decidable (_ ∧ _ ∧ _ ∧ _ ∧ _)
    infer_instance
  case dueling =>
    intro born
    show Decidable (_ = 0)
    infer_instance
  case startMatch =>
    intro born
    show Decidable (_ ∧ _)
    infer_instance
  case endByAbandon =>
    intro born team
    show Decidable (_ = 0)
    infer_instance
  all_goals
    intros
    exact instDecidableTrue

/-- One player loses the first duel and abandons the match while the decks are sided. -/
def matchAbandoned : List RoomInput :=
  guestsReady ++ duelBegins ++ [.message 0 .surrender, .settled 0 .done, .message 0 .surrender,
    .settled 0 .done, .closeRoom]

theorem ends_once_abandoned : EndsOnce (after casualRoom matchAbandoned) :=
  ends_once casualRoom _ (Runs.after (by decide +kernel))

/-- A ranked room whose match is over after one duel. -/
def rankedSingle : RoomConfig := { rankedRoom with bestOf := 1 }

/-- A player surrenders while the Duel object still waits for the mutex, and again while the match
is being ended. -/
def surrendersTwice : List RoomInput :=
  membersReady ++ joinHoldsMutex ++ [.message 0 .surrender, .settled 1 .done, .message 0 .surrender]

theorem ends_not_once : ∃ room, Runs rankedSingle (fun _ _ => True) room ∧ ¬ EndsOnce room := by
  refine ⟨_, runs_after _ surrendersTwice, ?_⟩
  intro h
  have hscored := h.scored
  revert hscored
  decide +kernel

end YGOProRoom

end EdoproServer.Room
