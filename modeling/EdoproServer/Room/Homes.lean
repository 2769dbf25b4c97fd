import EdoproServer.Room.Causes
import EdoproServer.Room.Phases

namespace EdoproServer.Room
open Decks Lib

/-! ## The phases a room has been through -/

def RoomEvent.target : RoomEvent → Option DuelState
  | .moved _ _ _ target => some target
  | _ => none

/-- The phases of a room, by the numbers of its room states. -/
def phases (log : List RoomEvent) : List DuelState := .waiting :: log.filterMap RoomEvent.target

@[simp] theorem phases_append (log events : List RoomEvent) :
    phases (log ++ events) = phases log ++ events.filterMap RoomEvent.target := by
  simp [phases]

/-- A phase that was is not forgotten. -/
theorem phases_getElem? {log log' : List RoomEvent} (h : log <+: log') {epoch : Nat}
    {phase : DuelState} (hphase : (phases log)[epoch]? = some phase) :
    (phases log')[epoch]? = some phase := by
  obtain ⟨events, rfl⟩ := h
  obtain ⟨hlt, _⟩ := List.getElem?_eq_some_iff.mp hphase
  rw [phases_append, List.getElem?_append_left hlt]
  exact hphase

namespace YGOProRoom

variable {cfg : RoomConfig} {room pre : YGOProRoom} {input : RoomInput}

/-- A move that is logged leads to the phase the room is in. -/
theorem logged_target (call : Call) : (room.logged cfg call).filterMap RoomEvent.target =
    if call.enters then [(room.perform cfg call).duelState] else [] := by
  cases henters : call.enters with
  | true =>
    cases call with
    | enter born target =>
      rw [perform, enterPhase_duelState]
      rfl
    | startMatch born => rfl
    | leaveSideDecking born target =>
      rw [perform, enterPhase_duelState]
      rfl
    | dueling born => rfl
    | _ => cases henters
  | false =>
    rw [if_neg (by simp), List.filterMap_eq_nil_iff]
    intro event hevent
    have hmove := logged_stays henters event hevent
    cases event with
    | moved born now source target => cases hmove
    | _ => rfl

theorem log_prefix_perform (call : Call) : room.log <+: (room.perform cfg call).log :=
  ⟨_, (perform_log call).symm⟩

/-- Everything left for later belongs to the phase of the room state in which it was left, and so
does every engine. -/
structure AtHome (room : YGOProRoom) : Prop where
  length : (phases room.log).length = room.epoch + 1
  phase : (phases room.log)[room.epoch]? = some room.duelState
  queue : ∀ work ∈ room.queue, ∀ phase ∈ work.work.home,
    (phases room.log)[work.born]? = some phase
  held : ∀ lookup ∈ room.held, ∀ phase ∈ lookup.work.home,
    (phases room.log)[lookup.born]? = some phase
  suspended : ∀ k ∈ room.suspended, ∀ phase ∈ k.work.home, (phases room.log)[k.born]? = some phase
  initialized : ∀ k ∈ room.suspended, ∀ core decks,
    k.work = .initialized core decks → core.state = k.born
  cores : ∀ core ∈ room.cores, (phases room.log)[core.state]? = some .dueling

theorem LeftAtHome.phase {born : Nat} {home : Option DuelState} (h : LeftAtHome pre room born home)
    (hpre : AtHome pre) (hlog : pre.log <+: room.log) (hroom : AtHome room) :
    ∀ phase ∈ home, (phases room.log)[born]? = some phase := by
  intro phase hphase
  obtain ⟨rfl, rfl⟩ | ⟨work, hwork, rfl, hhome⟩ | ⟨k, hk, rfl, hhome⟩ := h phase hphase
  · exact hroom.phase
  · exact phases_getElem? hlog (hpre.queue work hwork phase hhome)
  · exact phases_getElem? hlog (hpre.suspended k hk phase hhome)

/-- What is held after a call was held before, or the call holds it. -/
theorem held_perform (call : Call) {lookup : Deferred Lookup}
    (h : lookup ∈ (room.perform cfg call).held) : lookup ∈ room.held ∨ call = .hold lookup := by
  cases call with
  | hold other => exact .inr (congrArg Call.hold (Option.some.inj h))
  | release => cases h
  | enter born target => exact .inl (by simpa [perform] using h)
  | startMatch born => exact .inl (by simpa [perform, createMatch] using h)
  | leaveSideDecking born target => exact .inl (by simpa [perform, note] using h)
  | endByAbandon born team => exact .inl (by simpa [perform, markGameOver, suspend] using h)
  | finalize abandon => exact .inl (by simpa [perform] using h)
  | clearTimer born position =>
    rw [perform] at h
    split at h
    · exact .inl h
    · exact .inl h
  | clearTimers born =>
    rw [perform] at h
    split at h
    · exact .inl h
    · exact .inl h
  | removeAllListener born =>
    rw [perform] at h
    split at h
    · exact .inl h
    · exact .inl h
  | _ => exact .inl h

/-- What is suspended after a call was suspended before, or by the call, or takes the place of
something that was. -/
theorem suspended_home {call : Call} {k : Deferred Continuation}
    (h : k ∈ (room.perform cfg call).suspended) :
    k ∈ room.suspended ∨ call = .suspend k ∨ k.work.home = none ∨
      ∃ duel winner engine, call = .processDuelEnd duel winner engine ∧
        k = { born := duel.state, work := .duelProcessed winner engine } := by
  rw [perform_suspended] at h
  cases call with
  | suspend other =>
    cases List.mem_append.mp h with
    | inl hold => exact .inl hold
    | inr hnew => exact .inr (.inl (by rw [List.mem_singleton.mp hnew]))
  | resume index => exact .inl (List.mem_of_mem_eraseIdx h)
  | publishGameOver index => exact .inl (List.mem_of_mem_eraseIdx h)
  | advance index stage engine =>
    cases mem_modify h with
    | inl hold => exact .inl hold
    | inr hnew => exact .inr (.inr (.inl (by rw [hnew]; rfl)))
  | beginEnding index engine =>
    cases mem_modify h with
    | inl hold => exact .inl hold
    | inr hnew => exact .inr (.inr (.inl (by rw [hnew]; rfl)))
  | processDuelEnd duel winner engine =>
    cases List.mem_append.mp h with
    | inl hold => exact .inl hold
    | inr hnew =>
      exact .inr (.inr (.inr ⟨duel, winner, engine, rfl, List.mem_singleton.mp hnew⟩))
  | endByAbandon born team =>
    cases List.mem_append.mp h with
    | inl hold => exact .inl hold
    | inr hnew => exact .inr (.inr (.inl (by rw [List.mem_singleton.mp hnew]; rfl)))
  | _ => exact .inl h

theorem enters_epoch {call : Call} (h : call.enters = true) :
    (room.perform cfg call).epoch = room.epoch + 1 := by
  cases call with
  | enter born target => exact enterPhase_epoch room cfg born target
  | startMatch born => rfl
  | leaveSideDecking born target => exact enterPhase_epoch _ cfg born target
  | dueling born => rfl
  | _ => cases h

theorem atHome_perform {call : Call} (hpre : AtHome pre) (hlog : pre.log <+: room.log)
    (h : AtHome room) (hguard : Guarded cfg pre input room call)
    (hcause : Caused cfg pre input room call) : AtHome (room.perform cfg call) := by
  have hnew := @log_prefix_perform cfg room call
  have hphases : phases (room.perform cfg call).log = phases room.log ++
      if call.enters then [(room.perform cfg call).duelState] else [] := by
    rw [perform_log, phases_append, logged_target]
  have hcores : ∀ core ∈ (room.perform cfg call).cores,
      (phases (room.perform cfg call).log)[core.state]? = some .dueling := by
    intro core hcore
    cases mem_cores_perform hcore with
    | inl hold => exact phases_getElem? hnew (h.cores core hold)
    | inr hadds =>
      obtain ⟨decks, rfl⟩ := hadds
      obtain ⟨k, hk, decks', hwork⟩ := hguard
      rw [hpre.initialized k hk core decks' hwork]
      exact phases_getElem? (hlog.trans hnew) (hpre.suspended k hk .dueling (by rw [hwork]; rfl))
  constructor
  · rw [hphases, List.length_append, h.length]
    cases henters : call.enters with
    | true => rw [enters_epoch henters]; rfl
    | false => rw [(perform_stays henters).1]; rfl
  · rw [hphases]
    cases henters : call.enters with
    | true =>
      rw [enters_epoch henters, ← h.length, List.getElem?_append_right (le_refl _)]
      simp
    | false =>
      rw [(perform_stays henters).1, (perform_stays henters).2]
      simpa using h.phase
  · intro work hwork phase hphase
    obtain hold | henqueue | hcreates := queue_perform call hwork
    · exact phases_getElem? hnew (h.queue work hold phase hphase)
    · subst henqueue
      exact phases_getElem? hnew (LeftAtHome.phase hcause hpre hlog h phase hphase)
    · rw [hcreates] at hphase
      cases hphase
  · intro lookup hlookup phase hphase
    cases held_perform call hlookup with
    | inl hold => exact phases_getElem? hnew (h.held lookup hold phase hphase)
    | inr hhold =>
      subst hhold
      exact phases_getElem? hnew (LeftAtHome.phase hcause hpre hlog h phase hphase)
  · intro k hk phase hphase
    obtain hold | hsuspend | hnone | ⟨duel, winner, engine, rfl, rfl⟩ := suspended_home hk
    · exact phases_getElem? hnew (h.suspended k hold phase hphase)
    · subst hsuspend
      exact phases_getElem? hnew (LeftAtHome.phase hcause.1 hpre hlog h phase hphase)
    · rw [hnone] at hphase
      cases hphase
    · cases hphase
      apply phases_getElem? hnew
      obtain hcore | ⟨hdueling, rfl⟩ := hguard.2
      · exact h.cores duel hcore
      · rw [← hdueling]
        exact h.phase
  · intro k hk core decks hwork
    obtain hold | hsuspend | hnone | ⟨duel, winner, engine, rfl, rfl⟩ := suspended_home hk
    · exact h.initialized k hold core decks hwork
    · subst hsuspend
      exact hcause.2 core decks hwork
    · rw [hwork] at hnone
      cases hnone
    · cases hwork
  · exact hcores

theorem create_atHome (outside : Outside) : AtHome (create cfg outside) where
  length := rfl
  phase := rfl
  queue := by simp [create]
  held := by simp [create]
  suspended := by simp [create]
  initialized := by simp [create]
  cores := by simp [create]

/-- The handlers of an input leave everything at home. -/
theorem atHome_step (h : AtHome room) : AtHome (room.step cfg input) := by
  have hall := ((calls_guarded cfg room input).and (calls_caused cfg room input)).preserves
    (P := fun r : YGOProRoom => AtHome r ∧ room.log <+: r.log) ?_ ⟨h, List.prefix_rfl⟩
  · exact hall.1
  · intro r call hr hboth
    exact ⟨atHome_perform h hr.2 hr.1 hboth.1 hboth.2, hr.2.trans (log_prefix_perform call)⟩

/-- A handler that is resumed on time runs in the phase it belongs to. -/
theorem homeOf_onTime (h : AtHome room) {phase : DuelState} (hhome : room.homeOf input = some phase)
    (hontime : room.invokedIn input = room.epoch) : room.duelState = phase := by
  have hborn : (phases room.log)[room.invokedIn input]? = some phase := by
    cases input with
    | grant =>
      cases hhead : room.queue.head? with
      | none => simp [homeOf, hhead] at hhome
      | some work =>
        simp only [homeOf, hhead, Option.bind_some] at hhome
        simpa [invokedIn, hhead] using
          h.queue work (List.mem_of_head? hhead) phase hhome
    | answered account =>
      cases hheld : room.held with
      | none => simp [homeOf, hheld] at hhome
      | some lookup =>
        simp only [homeOf, hheld, Option.bind_some] at hhome
        simpa [invokedIn, hheld] using h.held lookup hheld phase hhome
    | lookupFailed =>
      cases hheld : room.held with
      | none => simp [homeOf, hheld] at hhome
      | some lookup =>
        simp only [homeOf, hheld, Option.bind_some] at hhome
        simpa [invokedIn, hheld] using h.held lookup hheld phase hhome
    | settled index result =>
      cases hk : room.suspended[index]? with
      | none => simp [homeOf, hk] at hhome
      | some k =>
        simp only [homeOf, hk, Option.bind_some] at hhome
        simpa [invokedIn, hk] using h.suspended k (List.mem_of_getElem? hk) phase hhome
    | _ => cases hhome
  rw [hontime, h.phase] at hborn
  exact Option.some.inj hborn

end YGOProRoom

end EdoproServer.Room
