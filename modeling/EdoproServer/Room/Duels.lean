import EdoproServer.Room.Log

namespace EdoproServer.Room
open Decks Lib

/-! ## Whose updates a Duel object gets -/

def RoomEvent.isUpdate : RoomEvent → Bool
  | .updated _ _ _ _ _ => true
  | _ => false

/-- The start of a duel of a match. -/
def RoomEvent.startsDuelOf (matchId : Nat) : RoomEvent → Bool
  | .duelStarted m _ => m = matchId
  | _ => false

/-- How many duels a match has started. -/
def startedDuels (matchId : Nat) (log : List RoomEvent) : Nat :=
  log.countP (RoomEvent.startsDuelOf matchId)

/-- What an event does to a Duel object. -/
def RoomEvent.changes (id : DuelId) (duel : Duel) : RoomEvent → Duel
  | .updated _ _ object _ change => if object = some id then change.apply duel else duel
  | _ => duel

/-- A Duel object as it was created, with all updates it has got. -/
def replay (startLp : Nat) (id : DuelId) (log : List RoomEvent) : Duel :=
  log.foldl (RoomEvent.changes id) (Duel.create id startLp)

/-- Updates of the n-th duel of a match go to its n-th Duel object, and no other duel's do. When
the first of them comes, the match has as many duel ids as started duels. -/
structure DuelsApart (log : List RoomEvent) : Prop where
  placed : ∀ m n object ids change, .updated m n object ids change ∈ log →
    0 < n ∧ ∃ id, object = some id ∧ ids[n - 1]? = some id
  counted : ∀ before m n object ids change,
    before ++ [.updated m n object ids change] <+: log →
    (∀ object' ids' change', .updated m n object' ids' change' ∉ before) →
    ids.length = n ∧ startedDuels m before = n
  separate : ∀ m n m' n' object ids ids' change change',
    .updated m n object ids change ∈ log → .updated m' n' object ids' change' ∈ log →
    m = m' ∧ n = n'

@[simp] theorem startedDuels_append (matchId : Nat) (log events : List RoomEvent) :
    startedDuels matchId (log ++ events) =
      startedDuels matchId log + startedDuels matchId events :=
  List.countP_append

@[simp] theorem replay_append (startLp : Nat) (id : DuelId) (log events : List RoomEvent) :
    replay startLp id (log ++ events) =
      events.foldl (RoomEvent.changes id) (replay startLp id log) :=
  List.foldl_append

@[simp] theorem DuelUpdate.apply_duelId (change : DuelUpdate) (duel : Duel) :
    (change.apply duel).duelId = duel.duelId := by
  cases change with
  | turn => rfl
  | damage team value =>
    cases team with
    | _ => rfl
  | recover team value =>
    cases team with
    | _ => rfl
  | finished => rfl

theorem foldl_changes_quiet {events : List RoomEvent} (h : ∀ event ∈ events, event.isUpdate = false)
    (id : DuelId) (duel : Duel) : events.foldl (RoomEvent.changes id) duel = duel := by
  induction events with
  | nil => rfl
  | cons event events ih =>
    have hevent : RoomEvent.changes id duel event = duel := by
      have hquiet := h event List.mem_cons_self
      cases event with
      | updated m n object ids change => cases hquiet
      | _ => rfl
    rw [List.foldl_cons, hevent]
    exact ih (fun other hother => h other (List.mem_cons_of_mem event hother))

namespace DuelsApart

variable {log events : List RoomEvent}

theorem nil : DuelsApart [] := ⟨by simp, by simp, by simp⟩

/-- An event that is no update changes nothing. -/
theorem snoc_quiet (h : DuelsApart log) {event : RoomEvent} (hquiet : event.isUpdate = false) :
    DuelsApart (log ++ [event]) := by
  have hold : ∀ m n object ids change, .updated m n object ids change ∈ log ++ [event] →
      .updated m n object ids change ∈ log := by
    intro m n object ids change hmem
    cases List.mem_append.mp hmem with
    | inl hmem => exact hmem
    | inr hmem =>
      rw [← List.mem_singleton.mp hmem] at hquiet
      cases hquiet
  refine ⟨?_, ?_, ?_⟩
  · intro m n object ids change hmem
    exact h.placed m n object ids change (hold m n object ids change hmem)
  · intro before m n object ids change hprefix hfirst
    cases List.prefix_concat_iff.mp hprefix with
    | inl heq =>
      obtain ⟨_, hlast⟩ := List.append_inj' heq rfl
      rw [← List.singleton_inj.mp hlast] at hquiet
      cases hquiet
    | inr hprefix => exact h.counted before m n object ids change hprefix hfirst
  · intro m n m' n' object ids ids' change change' hmem hmem'
    exact h.separate m n m' n' object ids ids' change change' (hold _ _ _ _ _ hmem)
      (hold _ _ _ _ _ hmem')

theorem append_quiet (h : DuelsApart log) (hquiet : ∀ event ∈ events, event.isUpdate = false) :
    DuelsApart (log ++ events) := by
  induction events generalizing log with
  | nil => simpa using h
  | cons event events ih =>
    rw [List.append_cons]
    exact ih (h.snoc_quiet (hquiet event List.mem_cons_self))
      (fun other hother => hquiet other (List.mem_cons_of_mem event hother))

/-- An update that goes to the right object, which no other duel has updated. -/
theorem snoc_update (h : DuelsApart log) {m n : Nat} {id : DuelId} {ids : List DuelId}
    (change : DuelUpdate) (hn : 0 < n) (hplaced : ids[n - 1]? = some id)
    (hcounted : (∀ object' ids' change', .updated m n object' ids' change' ∉ log) →
      ids.length = n ∧ startedDuels m log = n)
    (hown : ∀ m' n' ids' change', .updated m' n' (some id) ids' change' ∈ log →
      m' = m ∧ n' = n) : DuelsApart (log ++ [.updated m n (some id) ids change]) := by
  have hcases : ∀ m' n' object ids' change',
      .updated m' n' object ids' change' ∈ log ++ [.updated m n (some id) ids change] →
      .updated m' n' object ids' change' ∈ log ∨
        (m' = m ∧ n' = n ∧ object = some id ∧ ids' = ids) := by
    intro m' n' object ids' change' hmem
    cases List.mem_append.mp hmem with
    | inl hold => exact .inl hold
    | inr hnew =>
      have heq := List.mem_singleton.mp hnew
      injection heq with hm hn' hobject hids
      exact .inr ⟨hm, hn', hobject, hids⟩
  refine ⟨?_, ?_, ?_⟩
  · intro m' n' object ids' change' hmem
    cases hcases m' n' object ids' change' hmem with
    | inl hold => exact h.placed m' n' object ids' change' hold
    | inr hnew =>
      obtain ⟨_, rfl, rfl, rfl⟩ := hnew
      exact ⟨hn, id, rfl, hplaced⟩
  · intro before m' n' object ids' change' hprefix hfirst
    cases List.prefix_concat_iff.mp hprefix with
    | inl heq =>
      obtain ⟨rfl, hlast⟩ := List.append_inj' heq rfl
      injection List.singleton_inj.mp hlast with hm hn' hobject hids
      subst hm hn' hids
      exact hcounted hfirst
    | inr hprefix => exact h.counted before m' n' object ids' change' hprefix hfirst
  · intro m₁ n₁ m₂ n₂ object ids₁ ids₂ change₁ change₂ hmem₁ hmem₂
    cases hcases m₁ n₁ object ids₁ change₁ hmem₁ with
    | inl hold₁ =>
      cases hcases m₂ n₂ object ids₂ change₂ hmem₂ with
      | inl hold₂ => exact h.separate m₁ n₁ m₂ n₂ object ids₁ ids₂ change₁ change₂ hold₁ hold₂
      | inr hnew₂ =>
        obtain ⟨rfl, rfl, rfl, _⟩ := hnew₂
        exact hown m₁ n₁ ids₁ change₁ hold₁
    | inr hnew₁ =>
      obtain ⟨rfl, rfl, rfl, _⟩ := hnew₁
      cases hcases m₂ n₂ (some id) ids₂ change₂ hmem₂ with
      | inl hold₂ =>
        obtain ⟨hm, hn'⟩ := hown m₂ n₂ ids₂ change₂ hold₂
        exact ⟨hm.symm, hn'.symm⟩
      | inr hnew₂ => exact ⟨hnew₂.1.symm, hnew₂.2.1.symm⟩

end DuelsApart

namespace YGOProRoom

variable {cfg : RoomConfig} {room pre : YGOProRoom} {input : RoomInput}

/-- How many Duel objects wait for the mutex to be created. -/
def pendingDuels (room : YGOProRoom) : Nat := room.queue.countP (fun work => work.work.createsDuel)

/-- Some update was made for the duel. -/
def HasUpdate (log : List RoomEvent) (m n : Nat) : Prop :=
  ∃ object ids change, .updated m n object ids change ∈ log

/-- `current` says that the newest duel has its object, once the mutex has let it in, and
`awarded` that games are awarded only after the newest duel was updated. -/
structure DuelInvariant (cfg : RoomConfig) (room : YGOProRoom) : Prop where
  apart : DuelsApart room.log
  replayed : ∀ duel, room.currentDuel = some duel → duel = replay cfg.startLp duel.duelId room.log
  fresh : ∀ duel, room.currentDuel = some duel → duel.duelId < room.nextDuelId
  count : room.duels ≤ room.duelIds.length + room.pendingDuels
  awarded : room.duels < room.duelIds.length + room.pendingDuels →
    room.pendingDuels = 0 ∧ (0 < room.duels → HasUpdate room.log room.matchId room.duels)
  current : room.pendingDuels = 0 → 0 < room.duels →
    ∃ duel, room.currentDuel = some duel ∧ room.duelIds[room.duels - 1]? = some duel.duelId
  own : room.pendingDuels = 0 → 0 < room.duels → ∀ duel, room.currentDuel = some duel →
    ∀ m n ids change, .updated m n (some duel.duelId) ids change ∈ room.log →
      m = room.matchId ∧ n = room.duels
  old : ∀ m n id ids change, .updated m n (some id) ids change ∈ room.log → id < room.nextDuelId
  started : startedDuels room.matchId room.log = room.duels
  future : ∀ m, room.matchId < m → startedDuels m room.log = 0
  playing : room.duelState = .dueling → 0 < room.duels
  cores : ∀ core ∈ room.cores, 0 < core.duel
  initialized : ∀ k ∈ room.suspended, ∀ core decks, k.work = .initialized core decks → 0 < core.duel

/-- The same duels, and as many Duel objects to create. -/
structure SameDuels (room room' : YGOProRoom) : Prop where
  matchId : room'.matchId = room.matchId
  duels : room'.duels = room.duels
  currentDuel : room'.currentDuel = room.currentDuel
  duelIds : room'.duelIds = room.duelIds
  nextDuelId : room'.nextDuelId = room.nextDuelId
  pendingDuels : room'.pendingDuels = room.pendingDuels
  playing : room'.duelState = .dueling → room.duelState = .dueling

theorem startedDuels_quiet {events : List RoomEvent} {m : Nat}
    (h : ∀ event ∈ events, event.startsDuelOf m = false) : startedDuels m events = 0 :=
  List.countP_eq_zero.mpr (fun event hevent => by simp [h event hevent])

theorem HasUpdate.append {log : List RoomEvent} {m n : Nat} (h : HasUpdate log m n)
    (events : List RoomEvent) : HasUpdate (log ++ events) m n := by
  obtain ⟨object, ids, change, hmem⟩ := h
  exact ⟨object, ids, change, List.mem_append_left _ hmem⟩

theorem updated_old {log events : List RoomEvent}
    (hquiet : ∀ event ∈ events, event.isUpdate = false)
    {m n : Nat} {object : Option DuelId} {ids : List DuelId} {change : DuelUpdate}
    (h : .updated m n object ids change ∈ log ++ events) :
    .updated m n object ids change ∈ log := by
  cases List.mem_append.mp h with
  | inl hold => exact hold
  | inr hnew => cases hquiet _ hnew

theorem DuelInvariant.same {room' : YGOProRoom} (h : DuelInvariant cfg room)
    (hs : SameDuels room room') (hcores : ∀ core ∈ room'.cores, 0 < core.duel)
    (hinitialized : ∀ k ∈ room'.suspended, ∀ core decks,
      k.work = .initialized core decks → 0 < core.duel)
    {events : List RoomEvent} (hlog : room'.log = room.log ++ events)
    (hquiet : ∀ event ∈ events, event.isUpdate = false)
    (hstarts : ∀ m, ∀ event ∈ events, event.startsDuelOf m = false) : DuelInvariant cfg room' where
  apart := hlog ▸ h.apart.append_quiet hquiet
  replayed := by
    intro duel hduel
    rw [hlog, replay_append, foldl_changes_quiet hquiet]
    exact h.replayed duel (hs.currentDuel ▸ hduel)
  fresh := by
    intro duel hduel
    rw [hs.nextDuelId]
    exact h.fresh duel (hs.currentDuel ▸ hduel)
  count := by
    rw [hs.duels, hs.duelIds, hs.pendingDuels]
    exact h.count
  awarded := by
    rw [hs.duels, hs.duelIds, hs.pendingDuels, hs.matchId, hlog]
    intro hlt
    obtain ⟨hpending, hupdate⟩ := h.awarded hlt
    exact ⟨hpending, fun hpos => (hupdate hpos).append events⟩
  current := by
    rw [hs.duels, hs.duelIds, hs.pendingDuels, hs.currentDuel]
    exact h.current
  own := by
    rw [hs.duels, hs.pendingDuels, hs.currentDuel, hs.matchId, hlog]
    intro hpending hpos duel hduel m n ids change hmem
    exact h.own hpending hpos duel hduel m n ids change (updated_old hquiet hmem)
  old := by
    rw [hs.nextDuelId, hlog]
    intro m n id ids change hmem
    exact h.old m n id ids change (updated_old hquiet hmem)
  started := by
    rw [hs.matchId, hs.duels, hlog, startedDuels_append, startedDuels_quiet (hstarts _)]
    exact h.started
  future := by
    rw [hs.matchId, hlog]
    intro m hm
    rw [startedDuels_append, startedDuels_quiet (hstarts m), h.future m hm]
  playing := by
    rw [hs.duels]
    exact fun hstate => h.playing (hs.playing hstate)
  cores := hcores
  initialized := hinitialized

theorem SameDuels.of_eq {room' : YGOProRoom} (hcontest : room'.toContest = room.toContest)
    (hqueue : room'.queue = room.queue)
    (hplaying : room'.duelState = .dueling → room.duelState = .dueling) : SameDuels room room' where
  matchId := congrArg Contest.matchId hcontest
  duels := congrArg Contest.duels hcontest
  currentDuel := congrArg Contest.currentDuel hcontest
  duelIds := congrArg Contest.duelIds hcontest
  nextDuelId := congrArg Contest.nextDuelId hcontest
  pendingDuels := by rw [YGOProRoom.pendingDuels, hqueue, YGOProRoom.pendingDuels]
  playing := hplaying

end YGOProRoom

/-- Calls that start a match or a duel, or change the Duel object of the moment. -/
def Call.touchesDuels : Call → Bool
  | .startMatch _ | .dueling _ | .createDuel | .update _ _ | .processDuelEnd _ _ _
  | .endByAbandon _ _ => true
  | _ => false

namespace YGOProRoom

variable {cfg : RoomConfig} {room pre : YGOProRoom} {input : RoomInput}

theorem perform_sameDuels {call : Call} (hguard : Guarded cfg pre input room call)
    (h : call.touchesDuels = false) : SameDuels room (room.perform cfg call) := by
  cases call with
  | enqueue work =>
    refine ⟨rfl, rfl, rfl, rfl, rfl, ?_, fun h => h⟩
    simp [pendingDuels, perform, enqueue, hguard.1]
  | dequeue =>
    refine ⟨rfl, rfl, rfl, rfl, rfl, ?_, fun h => h⟩
    unfold pendingDuels
    cases hqueue : room.queue with
    | nil => simp [perform, hqueue]
    | cons first rest =>
      have hfirst : first.work.createsDuel = false := hguard first (by simp [hqueue])
      simp [perform, hqueue, hfirst]
  | addDuelRecord core decks => exact ⟨rfl, rfl, rfl, rfl, rfl, rfl, fun h => h⟩
  | disposeCore state => exact ⟨rfl, rfl, rfl, rfl, rfl, rfl, fun h => h⟩
  | enter born target =>
    apply SameDuels.of_eq (enterPhase_toContest room cfg born target)
      (perform_queue (.enter born target))
    intro hstate
    exact absurd ((enterPhase_duelState room cfg born target).symm.trans hstate) hguard.2.2
  | leaveSideDecking born target =>
    have hcontest : (room.perform cfg (.leaveSideDecking born target)).toContest =
        room.toContest := enterPhase_toContest (room.note (.sided born)) cfg born target
    have hstate := enterPhase_duelState (room.note (.sided born)) cfg born target
    exact SameDuels.of_eq hcontest (perform_queue (.leaveSideDecking born target))
      (fun h => absurd (hstate.symm.trans h) hguard.2.2)
  | clearTimer born position =>
    rw [perform]
    split
    · exact SameDuels.of_eq rfl rfl (fun h => h)
    · exact SameDuels.of_eq rfl rfl (fun h => h)
  | clearTimers born =>
    rw [perform]
    split
    · exact SameDuels.of_eq rfl rfl (fun h => h)
    · exact SameDuels.of_eq rfl rfl (fun h => h)
  | removeAllListener born =>
    rw [perform]
    split
    · exact SameDuels.of_eq rfl rfl (fun h => h)
    · exact SameDuels.of_eq rfl rfl (fun h => h)
  | finalize abandon =>
    apply SameDuels.of_eq (finalize_toContest room cfg abandon) (perform_queue (.finalize abandon))
    have hstate := congrArg Phase.duelState (finalize_toPhase room cfg abandon)
    exact fun h => hstate.symm.trans h
  | startMatch born => cases h
  | dueling born => cases h
  | createDuel => cases h
  | update duel change => cases h
  | processDuelEnd duel winner engine => cases h
  | endByAbandon born team => cases h
  | _ => exact SameDuels.of_eq rfl rfl (fun h => h)

/-- The engines of a room play duels that have started. -/
theorem cores_perform {call : Call}
    (hpre : ∀ k ∈ pre.suspended, ∀ core decks, k.work = .initialized core decks → 0 < core.duel)
    (h : ∀ core ∈ room.cores, 0 < core.duel) (hguard : Guarded cfg pre input room call) :
    ∀ core ∈ (room.perform cfg call).cores, 0 < core.duel := by
  intro core hcore
  rcases mem_cores_perform hcore with hold | ⟨decks, rfl⟩
  · exact h core hold
  · obtain ⟨k, hk, decks', hwork⟩ := hguard
    exact hpre k hk core decks' hwork

theorem initialized_perform {call : Call}
    (h : ∀ k ∈ room.suspended, ∀ core decks, k.work = .initialized core decks → 0 < core.duel)
    (hguard : Guarded cfg pre input room call) :
    ∀ k ∈ (room.perform cfg call).suspended, ∀ core decks,
      k.work = .initialized core decks → 0 < core.duel := by
  intro k hk core decks hwork
  cases suspended_perform hk with
  | inl hold => exact h k hold core decks hwork
  | inr hnew =>
    cases hnew with
    | inl hsuspend =>
      subst hsuspend
      exact hguard.2.2 core decks hwork
    | inr hends =>
      rw [hwork] at hends
      simp [Continuation.isProcessing, Continuation.isEnding] at hends

theorem logged_noDuels {call : Call} (h : call.touchesDuels = false) :
    (∀ event ∈ room.logged cfg call, event.isUpdate = false) ∧
      ∀ m, ∀ event ∈ room.logged cfg call, event.startsDuelOf m = false := by
  cases call with
  | startMatch born => cases h
  | dueling born => cases h
  | createDuel => cases h
  | update duel change => cases h
  | processDuelEnd duel winner engine => cases h
  | endByAbandon born team => cases h
  | finalize abandon =>
    unfold logged abandons
    dsimp only
    split_ifs
    all_goals simp [RoomEvent.isUpdate, RoomEvent.startsDuelOf]
  | _ => simp [logged, RoomEvent.isUpdate, RoomEvent.startsDuelOf]

/-! ## When an update finds its object -/

/-- Updates come from the newest duel once its object was created, a duel starts while the match
has no awarded game, a match when no object waits to be created, and a match is abandoned after
its newest duel was finished. -/
def ObjectsInStep (room : YGOProRoom) : Call → Prop
  | .update duel _ | .processDuelEnd duel _ _ =>
    duel.matchId = room.matchId ∧ duel.duel = room.duels ∧ room.pendingDuels = 0
  | .dueling _ => room.duelIds.length + room.pendingDuels ≤ room.duels
  | .startMatch _ => room.pendingDuels = 0
  | .endByAbandon _ _ => room.isFinished = true ∧ room.pendingDuels = 0
  | _ => True

/-- An update of the newest duel goes to its object. -/
theorem duelInvariant_update (h : DuelInvariant cfg room) {duel : Core} (change : DuelUpdate)
    (hcore : 0 < duel.duel) (hmatch : duel.matchId = room.matchId)
    (hduel : duel.duel = room.duels) (hpending : room.pendingDuels = 0) :
    DuelInvariant cfg (room.update duel change) := by
  have hpos : 0 < room.duels := hduel ▸ hcore
  obtain ⟨current, hcurrent, hplaced⟩ := h.current hpending hpos
  have hlog : (room.update duel change).log = room.log ++
      [.updated room.matchId room.duels (some current.duelId) room.duelIds change] := by
    simp [update, hmatch, hduel, hcurrent]
  have hnew : (room.update duel change).currentDuel = some (change.apply current) := by
    simp [update, hcurrent]
  have hmember : ∀ m n object ids change',
      .updated m n object ids change' ∈ (room.update duel change).log →
      .updated m n object ids change' ∈ room.log ∨
        (m = room.matchId ∧ n = room.duels ∧ object = some current.duelId) := by
    intro m n object ids change' hmem
    rw [hlog] at hmem
    cases List.mem_append.mp hmem with
    | inl hold => exact .inl hold
    | inr hlast =>
      injection List.mem_singleton.mp hlast with hm hn hobject
      exact .inr ⟨hm, hn, hobject⟩
  have hstarts : ∀ m, startedDuels m (room.update duel change).log = startedDuels m room.log := by
    intro m
    rw [hlog, startedDuels_append]
    simp [startedDuels, RoomEvent.startsDuelOf]
  exact
    { apart := by
        rw [hlog]
        apply h.apart.snoc_update change hpos hplaced
        · intro hfirst
          have hcount := h.count
          rw [hpending] at hcount
          refine ⟨?_, h.started⟩
          by_contra hne
          obtain ⟨_, hupdate⟩ := h.awarded (by rw [hpending]; omega)
          obtain ⟨object, ids, change', hmem⟩ := hupdate hpos
          exact hfirst object ids change' hmem
        · exact h.own hpending hpos current hcurrent
      replayed := by
        intro other hother
        rw [hnew, Option.some.injEq] at hother
        rw [← hother, hlog, replay_append, DuelUpdate.apply_duelId, ← h.replayed current hcurrent]
        simp [RoomEvent.changes]
      fresh := by
        intro other hother
        rw [hnew, Option.some.injEq] at hother
        rw [← hother, DuelUpdate.apply_duelId]
        exact h.fresh current hcurrent
      count := h.count
      awarded := by
        intro hlt
        obtain ⟨hzero, hupdate⟩ := h.awarded hlt
        exact ⟨hzero, fun hpos => hlog ▸ (hupdate hpos).append _⟩
      current := by
        intro _ _
        exact ⟨_, hnew, by rw [DuelUpdate.apply_duelId]; exact hplaced⟩
      own := by
        intro _ _ other hother m n ids change' hmem
        rw [hnew, Option.some.injEq] at hother
        rw [← hother, DuelUpdate.apply_duelId] at hmem
        cases hmember m n _ ids change' hmem with
        | inl hold => exact h.own hpending hpos current hcurrent m n ids change' hold
        | inr hlast => exact ⟨hlast.1, hlast.2.1⟩
      old := by
        intro m n id ids change' hmem
        cases hmember m n (some id) ids change' hmem with
        | inl hold => exact h.old m n id ids change' hold
        | inr hlast =>
          rw [Option.some.inj hlast.2.2]
          exact h.fresh current hcurrent
      started := (hstarts _).trans h.started
      future := fun m hm => (hstarts m).trans (h.future m hm)
      playing := h.playing
      cores := h.cores
      initialized := h.initialized }

theorem duelInvariant_processDuelEnd (h : DuelInvariant cfg room) {duel : Core} (winner : Winner)
    (engine : Bool) (hcore : 0 < duel.duel) (hmatch : duel.matchId = room.matchId)
    (hduel : duel.duel = room.duels) (hpending : room.pendingDuels = 0) :
    DuelInvariant cfg (room.processDuelEnd duel winner engine) := by
  have hupdate := duelInvariant_update h .finished hcore hmatch hduel hpending
  have hsame : SameDuels (room.update duel .finished) (room.processDuelEnd duel winner engine) :=
    ⟨rfl, rfl, rfl, rfl, rfl, rfl, fun h => h⟩
  refine hupdate.same hsame hupdate.cores ?_ rfl (by simp [RoomEvent.isUpdate])
    (by simp [RoomEvent.startsDuelOf])
  intro k hk core decks hwork
  cases List.mem_append.mp hk with
  | inl hold => exact h.initialized k hold core decks hwork
  | inr hnew =>
    rw [List.mem_singleton.mp hnew] at hwork
    cases hwork

theorem foldl_changes_other {events : List RoomEvent} {id : DuelId}
    (h : ∀ m n ids change, .updated m n (some id) ids change ∉ events) (duel : Duel) :
    events.foldl (RoomEvent.changes id) duel = duel := by
  induction events with
  | nil => rfl
  | cons event events ih =>
    have hevent : RoomEvent.changes id duel event = duel := by
      cases event with
      | updated m n object ids change =>
        have hne : object ≠ some id := by
          intro he
          subst he
          exact h m n ids change List.mem_cons_self
        simp [RoomEvent.changes, hne]
      | _ => rfl
    rw [List.foldl_cons, hevent]
    exact ih (fun m n ids change hmem => h m n ids change (List.mem_cons_of_mem event hmem))

theorem pendingDuels_createDuel (cfg : RoomConfig)
    (hhead : ∃ work ∈ room.queue.head?, work.work.createsDuel = true) :
    room.pendingDuels = (room.createDuel cfg).pendingDuels + 1 := by
  obtain ⟨work, hwork, hcreates⟩ := hhead
  obtain ⟨rest, hqueue⟩ := List.head?_eq_some_iff.mp hwork
  simp [pendingDuels, createDuel, hqueue, hcreates]

/-- The Duel object that is created has no update yet. -/
theorem duelInvariant_createDuel (h : DuelInvariant cfg room)
    (hhead : ∃ work ∈ room.queue.head?, work.work.createsDuel = true) :
    DuelInvariant cfg (room.createDuel cfg) := by
  have hpending := pendingDuels_createDuel cfg hhead
  have hunused : ∀ m n ids change,
      .updated m n (some room.nextDuelId) ids change ∉ room.log := by
    intro m n ids change hmem
    exact absurd (h.old m n _ ids change hmem) (Nat.lt_irrefl _)
  have hcount := h.count
  have hawarded : room.duels = room.duelIds.length + room.pendingDuels := by
    by_contra hne
    have hzero := (h.awarded (by omega)).1
    omega
  have hlength : (room.createDuel cfg).duelIds.length = room.duelIds.length + 1 := by
    simp [createDuel]
  exact
    { apart := h.apart
      replayed := by
        intro duel hduel
        simp only [createDuel, Option.some.injEq] at hduel
        subst hduel
        exact (foldl_changes_other hunused _).symm
      fresh := by
        intro duel hduel
        simp only [createDuel, Option.some.injEq] at hduel
        subst hduel
        exact Nat.lt_succ_self _
      count := by
        change room.duels ≤ _
        omega
      awarded := by
        intro hlt
        change room.duels < _ at hlt
        omega
      current := by
        intro hzero _
        refine ⟨Duel.create room.nextDuelId cfg.startLp, rfl, ?_⟩
        change (room.duelIds ++ [room.nextDuelId])[room.duels - 1]? = some room.nextDuelId
        rw [show room.duels - 1 = room.duelIds.length by omega]
        simp
      own := by
        intro _ _ duel hduel m n ids change hmem
        simp only [createDuel, Option.some.injEq] at hduel
        subst hduel
        exact absurd hmem (hunused m n ids change)
      old := fun m n id ids change hmem => Nat.lt_succ_of_lt (h.old m n id ids change hmem)
      started := h.started
      future := h.future
      playing := h.playing
      cores := h.cores
      initialized := h.initialized }

theorem duelInvariant_dueling (h : DuelInvariant cfg room) (born : Nat)
    (hids : room.duelIds.length + room.pendingDuels ≤ room.duels) :
    DuelInvariant cfg (room.dueling cfg born) := by
  have hlog : (room.dueling cfg born).log = room.log ++
      [.moved born room.epoch room.duelState .dueling,
        .duelStarted room.matchId (room.duels + 1)] := @perform_log cfg room (.dueling born)
  have hquiet : ∀ event ∈ [RoomEvent.moved born room.epoch room.duelState .dueling,
      .duelStarted room.matchId (room.duels + 1)], event.isUpdate = false := by
    simp [RoomEvent.isUpdate]
  have hpending : (room.dueling cfg born).pendingDuels = room.pendingDuels + 1 := by
    simp [pendingDuels, dueling, enqueue, enter, Work.createsDuel]
  exact
    { apart := hlog ▸ h.apart.append_quiet hquiet
      replayed := by
        intro duel hduel
        rw [hlog, replay_append, foldl_changes_quiet hquiet]
        exact h.replayed duel hduel
      fresh := h.fresh
      count := by
        have hcount := h.count
        change room.duels + 1 ≤ room.duelIds.length + _
        omega
      awarded := by
        intro hlt
        change room.duels + 1 < room.duelIds.length + _ at hlt
        omega
      current := by
        intro hzero
        omega
      own := by
        intro hzero
        omega
      old := by
        intro m n id ids change hmem
        rw [hlog] at hmem
        exact h.old m n id ids change (updated_old hquiet hmem)
      started := by
        change startedDuels room.matchId _ = room.duels + 1
        rw [hlog, startedDuels_append, h.started]
        simp [startedDuels, RoomEvent.startsDuelOf]
      future := by
        intro m hm
        have hm' : room.matchId < m := hm
        rw [hlog, startedDuels_append, h.future m hm']
        simp [startedDuels, RoomEvent.startsDuelOf, Nat.ne_of_lt hm']
      playing := fun _ => Nat.succ_pos _
      cores := h.cores
      initialized := h.initialized }

theorem duelInvariant_startMatch (h : DuelInvariant cfg room) (born : Nat)
    (hpending : room.pendingDuels = 0) :
    DuelInvariant cfg (room.perform cfg (.startMatch born)) := by
  have hlog := @perform_log cfg room (.startMatch born)
  have hquiet : ∀ event ∈ room.logged cfg (.startMatch born), event.isUpdate = false := by
    simp [logged, RoomEvent.isUpdate]
  have hstarts : ∀ m, startedDuels m (room.perform cfg (.startMatch born)).log =
      startedDuels m room.log := by
    intro m
    rw [hlog, startedDuels_append]
    simp [logged, startedDuels, RoomEvent.startsDuelOf]
  exact
    { apart := hlog ▸ h.apart.append_quiet hquiet
      replayed := by
        intro duel hduel
        rw [hlog, replay_append, foldl_changes_quiet hquiet]
        exact h.replayed duel hduel
      fresh := h.fresh
      count := Nat.zero_le _
      awarded := by
        intro hlt
        change 0 < 0 + room.pendingDuels at hlt
        omega
      current := fun _ hpos => absurd hpos (Nat.lt_irrefl 0)
      own := fun _ hpos => absurd hpos (Nat.lt_irrefl 0)
      old := by
        intro m n id ids change hmem
        rw [hlog] at hmem
        exact h.old m n id ids change (updated_old hquiet hmem)
      started := (hstarts _).trans (h.future _ (Nat.lt_succ_self _))
      future := fun m hm => (hstarts m).trans (h.future m ((Nat.lt_succ_self _).trans hm))
      playing := by
        intro hstate
        cases hstate
      cores := h.cores
      initialized := h.initialized }

/-- A finished Duel object has got an update. -/
theorem hasUpdate_of_isFinished (h : DuelInvariant cfg room) (hfinished : room.isFinished = true)
    (hpending : room.pendingDuels = 0) (hpos : 0 < room.duels) :
    HasUpdate room.log room.matchId room.duels := by
  obtain ⟨duel, hduel, _⟩ := h.current hpending hpos
  by_contra hnone
  have hunused : ∀ m n ids change, .updated m n (some duel.duelId) ids change ∉ room.log := by
    intro m n ids change hmem
    obtain ⟨rfl, rfl⟩ := h.own hpending hpos duel hduel m n ids change hmem
    exact hnone ⟨_, _, _, hmem⟩
  have hnew := h.replayed duel hduel
  rw [replay, foldl_changes_other hunused] at hnew
  simp only [isFinished, hduel, Option.any_some] at hfinished
  rw [hnew] at hfinished
  cases hfinished

/-- The same duels, but games were awarded, whose ids come after those of the duels. -/
structure Awarded (room room' : YGOProRoom) : Prop where
  matchId : room'.matchId = room.matchId
  duels : room'.duels = room.duels
  currentDuel : room'.currentDuel = room.currentDuel
  log : room'.log = room.log
  pendingDuels : room'.pendingDuels = room.pendingDuels
  duelIds : ∃ ids, room'.duelIds = room.duelIds ++ ids
  nextDuelId : room.nextDuelId ≤ room'.nextDuelId
  playing : room'.duelState = room.duelState
  cores : room'.cores = room.cores
  initialized : ∀ k ∈ room'.suspended, k ∈ room.suspended ∨ k.work = .abandonEnding

theorem endByAbandon_awarded (born : Nat) (team : Team) :
    Awarded room (room.perform cfg (.endByAbandon born team)) := by
  have hsuspended : ∀ k ∈ room.suspended ++ [{ born := born, work := Continuation.abandonEnding }],
      k ∈ room.suspended ∨ k.work = .abandonEnding := by
    intro k hk
    cases List.mem_append.mp hk with
    | inl hold => exact .inl hold
    | inr hnew => exact .inr (by rw [List.mem_singleton.mp hnew])
  rw [perform, matchForfeit]
  split
  · exact ⟨rfl, rfl, rfl, rfl, rfl, ⟨[], (List.append_nil _).symm⟩, le_refl _, rfl, rfl, hsuspended⟩
  · exact ⟨rfl, rfl, rfl, rfl, rfl, ⟨_, rfl⟩, Nat.le_add_right _ _, rfl, rfl, hsuspended⟩

/-- Games are awarded after the newest duel was updated. -/
theorem DuelInvariant.award {room' : YGOProRoom} (h : DuelInvariant cfg room)
    (ha : Awarded room room') (hfinished : room.isFinished = true)
    (hpending : room.pendingDuels = 0) : DuelInvariant cfg room' where
  apart := ha.log ▸ h.apart
  replayed := by
    rw [ha.currentDuel, ha.log]
    exact h.replayed
  fresh := by
    rw [ha.currentDuel]
    exact fun duel hduel => (h.fresh duel hduel).trans_le ha.nextDuelId
  count := by
    obtain ⟨ids, hids⟩ := ha.duelIds
    rw [ha.duels, ha.pendingDuels, hids, List.length_append]
    have hcount := h.count
    omega
  awarded := by
    rw [ha.duels, ha.pendingDuels, ha.log, ha.matchId]
    exact fun _ => ⟨hpending, hasUpdate_of_isFinished h hfinished hpending⟩
  current := by
    obtain ⟨ids, hids⟩ := ha.duelIds
    rw [ha.duels, ha.pendingDuels, ha.currentDuel, hids]
    intro hzero hpos
    obtain ⟨duel, hduel, hplaced⟩ := h.current hzero hpos
    refine ⟨duel, hduel, ?_⟩
    rw [List.getElem?_append_left (List.getElem?_eq_some_iff.mp hplaced).1]
    exact hplaced
  own := by
    rw [ha.duels, ha.pendingDuels, ha.currentDuel, ha.log, ha.matchId]
    exact h.own
  old := by
    rw [ha.log]
    exact fun m n id ids change hmem => (h.old m n id ids change hmem).trans_le ha.nextDuelId
  started := by
    rw [ha.matchId, ha.log, ha.duels]
    exact h.started
  future := by
    rw [ha.matchId, ha.log]
    exact h.future
  playing := by
    rw [ha.playing, ha.duels]
    exact h.playing
  cores := by
    rw [ha.cores]
    exact h.cores
  initialized := by
    intro k hk core decks hwork
    cases ha.initialized k hk with
    | inl hold => exact h.initialized k hold core decks hwork
    | inr hnew =>
      rw [hnew] at hwork
      cases hwork

theorem duelInvariant_perform {call : Call} (hpre : DuelInvariant cfg pre)
    (h : DuelInvariant cfg room) (hguard : Guarded cfg pre input room call)
    (hok : ObjectsInStep room call) : DuelInvariant cfg (room.perform cfg call) := by
  cases htouches : call.touchesDuels with
  | false =>
    obtain ⟨hquiet, hstarts⟩ := @logged_noDuels cfg room call htouches
    exact h.same (perform_sameDuels hguard htouches)
      (cores_perform hpre.initialized h.cores hguard) (initialized_perform h.initialized hguard)
      (perform_log call) hquiet hstarts
  | true =>
    cases call with
    | startMatch born => exact duelInvariant_startMatch h born hok
    | dueling born => exact duelInvariant_dueling h born hok
    | createDuel => exact duelInvariant_createDuel h hguard
    | update duel change =>
      exact duelInvariant_update h change (h.cores duel hguard) hok.1 hok.2.1 hok.2.2
    | processDuelEnd duel winner engine =>
      have hcore : 0 < duel.duel := by
        cases hguard.2 with
        | inl hmem => exact h.cores duel hmem
        | inr hplaying =>
          rw [hok.2.1]
          exact h.playing hplaying.1
      exact duelInvariant_processDuelEnd h winner engine hcore hok.1 hok.2.1 hok.2.2
    | endByAbandon born team => exact h.award (endByAbandon_awarded born team) hok.1 hok.2
    | _ => cases htouches

theorem create_duelInvariant (outside : Outside) : DuelInvariant cfg (create cfg outside) where
  apart := DuelsApart.nil
  replayed := by simp [create]
  fresh := by simp [create]
  count := Nat.zero_le _
  awarded := by simp [create, pendingDuels]
  current := by simp [create]
  own := by simp [create]
  old := by simp [create]
  started := rfl
  future := fun _ _ => rfl
  playing := by simp [create]
  cores := by simp [create]
  initialized := by simp [create]

/-! ## Runs -/

/-- Every duel updates its own Duel object, which is what these updates make of a new one. -/
structure OwnDuelObjects (cfg : RoomConfig) (room : YGOProRoom) : Prop where
  apart : DuelsApart room.log
  replayed : ∀ duel, room.currentDuel = some duel → duel = replay cfg.startLp duel.duelId room.log

/-- In a run in which updates find their object, every duel has its own Duel object. -/
theorem own_duelObjects (cfg : RoomConfig) (room : YGOProRoom)
    (h : Runs cfg ObjectsInStep room) : OwnDuelObjects cfg room := by
  have hinvariant : DuelInvariant cfg room :=
    Runs.invariant create_duelInvariant
      (fun _ _ _ _ hpre hroom hguard hok => duelInvariant_perform hpre hroom hguard hok) h
  exact ⟨hinvariant.apart, hinvariant.replayed⟩

instance (room : YGOProRoom) (call : Call) : Decidable (ObjectsInStep room call) := by
  apply Call.casesOn (motive := fun call => Decidable (ObjectsInStep room call)) call
  case update =>
    intro duel change
    show Decidable (_ ∧ _ ∧ _)
    infer_instance
  case processDuelEnd =>
    intro duel winner engine
    show Decidable (_ ∧ _ ∧ _)
    infer_instance
  case dueling =>
    intro born
    show Decidable (_ ≤ _)
    infer_instance
  case startMatch =>
    intro born
    show Decidable (_ = 0)
    infer_instance
  case endByAbandon =>
    intro born team
    show Decidable (_ ∧ _)
    infer_instance
  all_goals
    intros
    exact instDecidableTrue

/-- The engine of the first duel reports a turn, then damage, then the end. -/
def duelPlayed : List RoomInput :=
  [.engine { state := 3, matchId := 1, duel := 1 } (.newTurn 0),
    .engine { state := 3, matchId := 1, duel := 1 } (.damage .player 500),
    .engine { state := 3, matchId := 1, duel := 1 } (.win (some .player)), .settled 0 .done]

theorem own_duelObjects_played :
    OwnDuelObjects casualRoom (after casualRoom (guestsReady ++ duelBegins ++ duelPlayed)) :=
  own_duelObjects casualRoom _ (Runs.after (by decide +kernel))

/-- The first turn of a duel comes while its Duel object still waits for the mutex. -/
def turnBeforeObject : List RoomInput :=
  membersReady ++ joinHoldsMutex ++ [.settled 0 .done, .settled 0 .done,
    .engine { state := 3, matchId := 1, duel := 1 } (.newTurn 0)]

/-- An update that found no Duel object. -/
def updatesNothing : RoomEvent → Bool
  | .updated _ _ object _ _ => object.isNone
  | _ => false

theorem turnBeforeObject_lost :
    (after rankedRoom turnBeforeObject).log.any updatesNothing = true := by
  decide +kernel

theorem duelObjects_not_own :
    ∃ room, Runs rankedRoom (fun _ _ => True) room ∧ ¬ OwnDuelObjects rankedRoom room := by
  refine ⟨_, runs_after _ turnBeforeObject, ?_⟩
  intro h
  obtain ⟨event, hmem, hlost⟩ := List.any_eq_true.mp turnBeforeObject_lost
  cases event with
  | updated m n object ids change =>
    obtain ⟨_, id, hid, _⟩ := h.apart.placed m n object ids change hmem
    subst hid
    cases hlost
  | _ => cases hlost

end YGOProRoom

end EdoproServer.Room
