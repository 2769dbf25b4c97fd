import EdoproServer.Room.Runs

namespace EdoproServer.Room
open Lib

/-! ## Watching the grace timers -/

/-- A running grace timer, and whether its player was seen connected since it was armed. -/
structure GraceWatch where
  position : Nat
  client : ClientRef
  seen : Bool
  deriving DecidableEq, Repr

/-- A room whose grace timers are watched. -/
structure Watched where
  room : YGOProRoom
  timers : List GraceWatch

/-- Calls that settle a match against somebody who left. -/
def Call.settlesAbandon : Call → Bool
  | .endByAbandon _ _ => true
  | .finalize (some _) => true
  | _ => false

namespace YGOProRoom

variable {cfg : RoomConfig} {room : YGOProRoom}

/-- The grace timers after a call. -/
def graceAfter (room : YGOProRoom) : Call → List (Nat × ClientRef)
  | .startGrace position c => room.graceTimers ++ [(position, c)]
  | .clearGrace position => room.graceTimers.filter (fun timer => timer.1 ≠ position)
  | .clearAllGrace => []
  | _ => room.graceTimers

theorem perform_graceTimers (call : Call) :
    (room.perform cfg call).graceTimers = room.graceAfter call := by
  cases call with
  | enter born target =>
    exact congrArg Agenda.graceTimers (enterPhase_toAgenda room cfg born target)
  | startMatch born => exact congrArg Agenda.graceTimers (enterPhase_toAgenda _ cfg born .rps)
  | leaveSideDecking born target =>
    exact congrArg Agenda.graceTimers (enterPhase_toAgenda _ cfg born target)
  | endByAbandon born team =>
    simp [perform, markGameOver, suspend, graceAfter]
  | finalize abandon => exact congrArg Agenda.graceTimers (finalize_toAgenda room cfg abandon)
  | clearTimer born position =>
    rw [perform]
    split
    · rfl
    · rfl
  | clearTimers born =>
    rw [perform]
    split
    · rfl
    · rfl
  | removeAllListener born =>
    rw [perform]
    split
    · rfl
    · rfl
  | _ => rfl

/-- The disconnect of the player of a timer between duels, which arms the timer anew. -/
def Rearms (room : YGOProRoom) (timer : GraceWatch) : RoomInput → Prop
  | .disconnect socketId =>
    room.players.find? (fun c => (room.client c).socket.id = socketId) = some timer.client ∧
      (room.client timer.client).position = timer.position ∧
      (room.client timer.client).isSpectator = false ∧ room.isBetweenDuels = true
  | _ => False

instance (room : YGOProRoom) (timer : GraceWatch) :
    (input : RoomInput) → Decidable (Rearms room timer input)
  | .disconnect _ => inferInstanceAs (Decidable (_ ∧ _))
  | .join _ | .matchAdmit _ | .botJoin _ | .expressReconnect _ _ | .message _ _ | .grant
  | .answered _ | .lookupFailed | .settled _ _ | .engine _ _ | .finishDuelByTimeout _
  | .sideTimeout _ | .graceOver _ | .lobbyTimeout | .closeRoom => inferInstanceAs (Decidable False)

/-- What such a disconnect does after the connection has closed: the room closes, or the timer is
armed anew. -/
theorem rearms_calls (cfg : RoomConfig) {timer : GraceWatch} {socketId : Nat}
    (h : Rearms room timer (.disconnect socketId)) (hopen : room.finalizing = false) :
    (∃ abandon, room.calls cfg (.disconnect socketId) =
        [.closeSocket socketId, .finalize abandon]) ∨
      room.calls cfg (.disconnect socketId) =
        [.closeSocket socketId, .clearGrace timer.position,
          .startGrace timer.position timer.client] := by
  obtain ⟨hfind, hposition, hplayer, hbetween⟩ := h
  have hordinary : ∀ closed : YGOProRoom, closed = room.perform cfg (.closeSocket socketId) →
      (∃ abandon, closed.ordinaryDisconnect socketId = [.finalize abandon]) ∨
        closed.ordinaryDisconnect socketId =
          [.clearGrace timer.position, .startGrace timer.position timer.client] := by
    intro closed hclosed
    have hfind' : closed.players.find? (fun c => (closed.client c).socket.id = socketId) =
        some timer.client := hclosed ▸ hfind
    have hposition' : (closed.client timer.client).position = timer.position :=
      hclosed ▸ hposition
    have hplayer' : (closed.client timer.client).isSpectator = false := hclosed ▸ hplayer
    have hbetween' : closed.isBetweenDuels = true := hclosed ▸ hbetween
    unfold ordinaryDisconnect
    split
    · exact .inl ⟨none, rfl⟩
    · rw [hfind']
      dsimp only
      split
      · exact .inl ⟨none, rfl⟩
      · rw [if_pos (by simp [hplayer', hbetween'])]
        exact .inr (by simp [playerLeft, hposition'])
  have hfound : room.isFoundBy cfg socketId = true := by
    have hmem := List.mem_of_find?_eq_some hfind
    have hsocket := List.find?_some hfind
    rw [isFoundBy, Bool.or_eq_true]
    exact .inl (List.any_eq_true.mpr ⟨timer.client, List.mem_append_left _ hmem, hsocket⟩)
  have hwaiting : (room.perform cfg (.closeSocket socketId)).duelState ≠ .waiting := by
    intro hw
    have hw' : room.duelState = .waiting := hw
    simp [isBetweenDuels, hw'] at hbetween
  have hcalls : room.calls cfg (.disconnect socketId) = .closeSocket socketId ::
      (room.perform cfg (.closeSocket socketId)).onDisconnect cfg socketId := by
    simp [calls, handleDisconnect, hopen, hfound]
  have hleft := hordinary _ rfl
  rw [hcalls]
  unfold onDisconnect
  rw [if_neg (by simp [hwaiting])]
  split
  · split
    · rename_i abandon _
      exact .inl ⟨some abandon, rfl⟩
    · cases hleft with
      | inl hfinal =>
        obtain ⟨abandon, habandon⟩ := hfinal
        exact .inl ⟨abandon, by rw [habandon]⟩
      | inr hgrace => exact .inr (by rw [hgrace])
  · cases hleft with
    | inl hfinal =>
      obtain ⟨abandon, habandon⟩ := hfinal
      exact .inl ⟨abandon, by rw [habandon]⟩
    | inr hgrace => exact .inr (by rw [hgrace])

end YGOProRoom

namespace Watched

variable {cfg : RoomConfig} {w : Watched} {pre : YGOProRoom} {input : RoomInput}

def create (cfg : RoomConfig) (outside : Outside) : Watched :=
  { room := YGOProRoom.create cfg outside, timers := [] }

/-- A timer is armed unseen. -/
def running (w : Watched) : Call → List GraceWatch
  | .startGrace position c => w.timers ++ [{ position := position, client := c, seen := false }]
  | .clearGrace position => w.timers.filter (fun timer => timer.position ≠ position)
  | .clearAllGrace => []
  | _ => w.timers

/-- Looks whether the player of a timer is connected. -/
def look (room : YGOProRoom) (timer : GraceWatch) : GraceWatch :=
  { timer with seen := timer.seen || room.isLive timer.client }

def perform (cfg : RoomConfig) (call : Call) (w : Watched) : Watched :=
  { room := w.room.perform cfg call
    timers := (w.running call).map (look (w.room.perform cfg call)) }

def step (cfg : RoomConfig) (w : Watched) (input : RoomInput) : Watched :=
  performAll (perform cfg) w (w.room.calls cfg input)

/-- A call cuts no player off whose timer runs on, unless the room closes. `pre` is the room in
which the handler was resumed by `input`. -/
def NobodyCutOff (cfg : RoomConfig) (pre : YGOProRoom) (input : RoomInput) (w : Watched)
    (call : Call) : Prop :=
  ∀ timer ∈ w.timers, w.room.isLive timer.client = true →
    (w.room.perform cfg call).isLive timer.client = true ∨
      (w.room.perform cfg call).finalizing = true ∨ pre.Rearms timer input

/-- The watched rooms that a created room becomes by inputs whose calls all meet `ok`. -/
def Runs (cfg : RoomConfig) (ok : YGOProRoom → RoomInput → Watched → Call → Prop) :
    Watched → Prop :=
  Reached (fun w => ∃ outside, w = create cfg outside) (step cfg)
    (fun w input => Allows (perform cfg) (ok w.room input) w (w.room.calls cfg input))

/-- The watched room after a list of inputs. -/
def after (cfg : RoomConfig) (inputs : List RoomInput) : Watched :=
  inputs.foldl (step cfg) (create cfg { closedSockets := [], tokens := .empty, minted := 0 })

theorem Runs.after {ok : YGOProRoom → RoomInput → Watched → Call → Prop} {inputs : List RoomInput}
    (h : Allows (fun input w => step cfg w input)
      (fun w input => Allows (perform cfg) (ok w.room input) w (w.room.calls cfg input))
      (create cfg { closedSockets := [], tokens := .empty, minted := 0 }) inputs) :
    Runs cfg ok (after cfg inputs) :=
  Reached.inputs (.start ⟨_, rfl⟩) h

/-- Any inputs run a watched room, if no condition is put on its calls. -/
theorem runs_after (cfg : RoomConfig) (inputs : List RoomInput) :
    Runs cfg (fun _ _ _ _ => True) (after cfg inputs) :=
  Runs.after (.of_forall (fun _ _ _ => .of_forall (fun _ _ _ => trivial)))

/-! ### The watch is on the timers of the room -/

theorem step_room (w : Watched) (input : RoomInput) :
    (w.step cfg input).room = w.room.step cfg input :=
  performAll_map Watched.room (fun _ _ => rfl) w _

/-- Every timer of the room is watched, in the same order. -/
def OnTimers (w : Watched) : Prop :=
  w.timers.map (fun timer => (timer.position, timer.client)) = w.room.graceTimers

theorem onTimers_perform (call : Call) (h : OnTimers w) : OnTimers (w.perform cfg call) := by
  have hlook : ∀ (room : YGOProRoom) (timers : List GraceWatch),
      (timers.map (look room)).map (fun timer => (timer.position, timer.client)) =
        timers.map (fun timer => (timer.position, timer.client)) := by
    intro room timers
    rw [List.map_map]
    rfl
  have hwatch : w.timers.map (fun timer => (timer.position, timer.client)) =
      w.room.graceTimers := h
  unfold OnTimers
  rw [perform, hlook, YGOProRoom.perform_graceTimers]
  cases call with
  | startGrace position c => simp [running, YGOProRoom.graceAfter, hwatch]
  | clearGrace position =>
    simp only [running, YGOProRoom.graceAfter, ← hwatch, List.filter_map]
    rfl
  | clearAllGrace => rfl
  | _ => exact hwatch

theorem onTimers_step (input : RoomInput) (h : OnTimers w) : OnTimers (w.step cfg input) :=
  (@Allows.of_forall _ _ _ (fun _ _ => True) _ _ (fun _ _ _ => trivial)).preserves
    (fun _ call hs _ => onTimers_perform call hs) h

/-! ### Who was seen is connected -/

/-- A player who was seen connected since its timer was armed still is, those apart whose timer is
about to be armed anew. -/
def SeenStay (exempt : GraceWatch → Prop) (w : Watched) : Prop :=
  w.room.finalizing = true ∨ ∀ timer ∈ w.timers, timer.seen = true →
    w.room.isLive timer.client = true ∨ exempt timer

/-- What a timer was before it was looked at. -/
theorem mem_running {call : Call} {timer : GraceWatch} (h : timer ∈ w.running call) :
    timer ∈ w.timers ∨ timer.seen = false := by
  cases call with
  | startGrace position c =>
    cases List.mem_append.mp h with
    | inl hold => exact .inl hold
    | inr hnew => exact .inr (by rw [List.mem_singleton.mp hnew])
  | clearGrace position => exact .inl (List.mem_of_mem_filter h)
  | clearAllGrace => cases h
  | _ => exact .inl h

theorem seenStay_perform {call : Call}
    (h : SeenStay (fun timer => pre.Rearms timer input) w)
    (hok : NobodyCutOff cfg pre input w call) :
    SeenStay (fun timer => pre.Rearms timer input) (w.perform cfg call) := by
  cases h with
  | inl hfinal => exact .inl (YGOProRoom.finalizing_perform call hfinal)
  | inr hseen =>
    by_cases hfinal : (w.room.perform cfg call).finalizing = true
    · exact .inl hfinal
    · refine .inr ?_
      intro timer htimer hts
      obtain ⟨old, hold, rfl⟩ := List.mem_map.mp htimer
      simp only [look, Bool.or_eq_true] at hts
      cases hts with
      | inr hlive => exact .inl hlive
      | inl hsaw =>
        cases mem_running hold with
        | inr hunseen => rw [hunseen] at hsaw; cases hsaw
        | inl hmem =>
          cases hseen old hmem hsaw with
          | inr hexempt =>
            refine .inr ?_
            cases input with
            | disconnect socketId => exact hexempt
            | _ => cases hexempt
          | inl hlive =>
            obtain hlive' | hclosed | hexempt := hok old hmem hlive
            · exact .inl hlive'
            · exact absurd hclosed hfinal
            · refine .inr ?_
              cases input with
              | disconnect socketId => exact hexempt
              | _ => cases hexempt

/-- A timer that is armed anew was not seen before. -/
theorem rearmed_step {timer : GraceWatch} (hrearms : w.room.Rearms timer input)
    (htimer : timer ∈ (w.step cfg input).timers) (hseen : timer.seen = true) :
    w.room.finalizing = true ∨ (w.step cfg input).room.finalizing = true ∨
      (w.step cfg input).room.isLive timer.client = true := by
  cases input with
  | disconnect socketId =>
    by_cases hopen : w.room.finalizing = true
    · exact .inl hopen
    · refine .inr ?_
      cases YGOProRoom.rearms_calls cfg hrearms (by simpa using hopen) with
      | inl hfinal =>
        obtain ⟨abandon, hcalls⟩ := hfinal
        left
        rw [step_room, YGOProRoom.step, hcalls]
        exact YGOProRoom.finalize_finalizing _ cfg abandon
      | inr hgrace =>
        right
        unfold step at htimer ⊢
        rw [hgrace] at htimer ⊢
        simp only [performAll_cons, performAll_nil] at htimer ⊢
        obtain ⟨old, hold, hlook⟩ := List.mem_map.mp htimer
        have hposition : old.position = timer.position := by rw [← hlook]; rfl
        have hclient : old.client = timer.client := by rw [← hlook]; rfl
        rw [← congrArg GraceWatch.seen hlook] at hseen
        simp only [look, Bool.or_eq_true, hclient] at hseen
        cases hseen with
        | inr hlive => exact hlive
        | inl hsaw =>
          cases List.mem_append.mp hold with
          | inr hnew =>
            rw [List.mem_singleton.mp hnew] at hsaw
            cases hsaw
          | inl hkept =>
            -- the old timer of that position was cleared
            obtain ⟨kept, hmem, rfl⟩ := List.mem_map.mp hkept
            have hother := (List.mem_filter.mp hmem).2
            simp only [decide_eq_true_eq] at hother
            exact absurd hposition hother
  | _ => cases hrearms

theorem seenStay_step (h : SeenStay (fun _ => False) w)
    (hok : Allows (perform cfg) (NobodyCutOff cfg w.room input) w (w.room.calls cfg input)) :
    SeenStay (fun _ => False) (w.step cfg input) := by
  have hstart : SeenStay (fun timer => w.room.Rearms timer input) w := by
    cases h with
    | inl hfinal => exact .inl hfinal
    | inr hseen =>
      refine .inr ?_
      intro timer htimer hts
      exact .inl ((hseen timer htimer hts).resolve_right id)
  have hstep : SeenStay (fun timer => w.room.Rearms timer input) (w.step cfg input) :=
    hok.preserves (fun _ _ hs hcall => seenStay_perform hs hcall) hstart
  have hclosed : w.room.finalizing = true → (w.step cfg input).room.finalizing = true := by
    intro hfinal
    exact (@Allows.of_forall _ _ _ (fun _ _ => True) _ _ (fun _ _ _ => trivial)).preserves
      (P := fun v : Watched => v.room.finalizing = true)
      (fun _ call hs _ => YGOProRoom.finalizing_perform call hs) hfinal
  cases hstep with
  | inl hfinal => exact .inl hfinal
  | inr hseen =>
    by_cases hfinal : (w.step cfg input).room.finalizing = true
    · exact .inl hfinal
    · refine .inr ?_
      intro timer htimer hts
      cases hseen timer htimer hts with
      | inl hlive => exact .inl hlive
      | inr hrearms =>
        obtain hbefore | hafter | hlive := rearmed_step hrearms htimer hts
        · exact absurd (hclosed hbefore) hfinal
        · exact absurd hafter hfinal
        · exact .inl hlive

/-! ## A grace window is honest -/

/-- When a grace timer fires and a match is settled, it is settled against the player of the timer,
who was not seen connected since the timer was armed. -/
def GraceHonest (cfg : RoomConfig) (w : Watched) : Prop :=
  ∀ position, ∀ call ∈ w.room.calls cfg (.graceOver position), call.settlesAbandon = true →
    ∃ timer, w.timers.find? (fun timer => timer.position = position) = some timer ∧
      timer.seen = false ∧
      (call = .endByAbandon w.room.epoch (w.room.client timer.client).team ∨
        call = .finalize
          (some { seat := some (w.room.client timer.client).team, reason := .disconnect }))

/-- What fires is a timer whose player is not connected now. -/
theorem graceOver_settles (h : OnTimers w) {position : Nat} {call : Call}
    (hcall : call ∈ w.room.calls cfg (.graceOver position))
    (hsettles : call.settlesAbandon = true) :
    ∃ timer, w.timers.find? (fun timer => timer.position = position) = some timer ∧
      w.room.finalizing = false ∧ w.room.isLive timer.client = false ∧
      (call = .endByAbandon w.room.epoch (w.room.client timer.client).team ∨
        call = .finalize
          (some { seat := some (w.room.client timer.client).team, reason := .disconnect })) := by
  have hfound : w.room.graceTimers.find? (fun timer => timer.1 = position) =
      (w.timers.find? (fun timer => timer.position = position)).map
        (fun timer => (timer.position, timer.client)) := by
    rw [← (h : _ = w.room.graceTimers), List.find?_map]
    rfl
  simp only [YGOProRoom.calls, YGOProRoom.handleGraceOver, hfound] at hcall
  cases hfind : w.timers.find? (fun timer => timer.position = position) with
  | none => rw [hfind] at hcall; cases hcall
  | some timer =>
    rw [hfind] at hcall
    simp only [Option.map_some, List.mem_cons] at hcall
    refine ⟨timer, rfl, ?_⟩
    obtain rfl | hrest := hcall
    · cases hsettles
    · split at hrest
      · cases hrest
      · rename_i hopen
        simp only [Bool.or_eq_true, not_or, Bool.not_eq_true] at hopen
        refine ⟨hopen.1.1, hopen.1.2, ?_⟩
        unfold YGOProRoom.resolveAbandon at hrest
        simp only [List.mem_cons] at hrest
        obtain rfl | hrest := hrest
        · cases hsettles
        · split at hrest
          · cases hrest
          · split at hrest
            · exact .inr (List.mem_singleton.mp hrest)
            · exact .inl (List.mem_singleton.mp hrest)

instance (pre : YGOProRoom) (input : RoomInput) (w : Watched) (call : Call) :
    Decidable (NobodyCutOff cfg pre input w call) :=
  inferInstanceAs (Decidable (∀ timer ∈ w.timers, _))

/-- A player leaves before the first duel and does not come back. -/
def leavesInRps : List RoomInput :=
  YGOProRoom.guestsReady ++ [.message 0 .tryStart, .disconnect 0]

/-- The player comes back, plays, and drops during the duel, which the other one gives up. -/
def dropsInDuel : List RoomInput :=
  leavesInRps ++ [.expressReconnect 0 (YGOProRoom.guestSocket 10)] ++
    YGOProRoom.duelBegins.drop 1 ++ [.disconnect 10, .message 1 .surrender, .settled 0 .done]

theorem dropsInDuel_seen :
    (after YGOProRoom.casualRoom dropsInDuel).timers =
      [{ position := 0, client := 0, seen := true }] := by
  decide +kernel

end Watched

end EdoproServer.Room
