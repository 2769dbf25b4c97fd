import EdoproServer.Room.Score
import Mathlib.Data.List.Nodup
import Mathlib.Logic.Function.Basic

namespace EdoproServer.Edopro
open Room

/-! ## Ending EDOPro duels -/

/-- A finish handler waits for the replay to be serialized, and in a decided match for the hooks
that end it. -/
inductive FinishStage where
  | serializing
  | ending
  deriving DecidableEq, Repr

/-- What a finish handler is told and reads when a duel ends. -/
structure DuelEnd where
  winner : Winner
  turns : Nat
  ips : List PlayerConnection
  deriving DecidableEq, Repr

/-- A room with a match. `duels` counts the duels, `finished` is the flag of the current one,
`dueling` tells whether the listeners of a duel are in place. `pending` holds the finish handlers
that wait. `results` keeps the results with the number of the duel they were scored in. -/
structure MatchRoom where
  currentMatch : Match
  duels : Nat
  finished : Bool
  dueling : Bool
  timerRunning : Team → Bool
  pending : List FinishStage
  results : List (Nat × DuelEnd)
  gameOvers : Nat

/-- What happens in a room: the players start the next duel, the core ends a duel or starts a timer,
a response stops one, a player surrenders, a timer runs out, and a finish handler goes on or
fails. -/
inductive RoomEvent where
  | startDuel
  | finish (outcome : DuelEnd)
  | time (team : Team)
  | response (team : Team)
  | surrender (team : Team) (turns : Nat) (ips : List PlayerConnection)
  | timeout (team : Team) (turns : Nat) (ips : List PlayerConnection)
  | resume (handler : Nat)
  | fails (handler : Nat)
  deriving DecidableEq, Repr

namespace MatchRoom

/-- The room when its match was created. -/
def start (bestOf : Int) (roster : List MatchPlayer) : MatchRoom :=
  { currentMatch := (Match.create bestOf).initializeHistoricalData roster, duels := 0,
    finished := false, dueling := false, timerRunning := fun _ => false, pending := [],
    results := [], gameOvers := 0 }

section

variable (room : MatchRoom)

/-- The finish handler up to the serialization of the replay. -/
def finishDuel (outcome : DuelEnd) : MatchRoom :=
  { room with
    currentMatch := room.currentMatch.duelWinner outcome.winner outcome.turns outcome.ips
    timerRunning := fun _ => false
    pending := room.pending ++ [.serializing]
    results := room.results ++ [(room.duels, outcome)] }

/-- FINISH and a surrender end a duel that is not finished, and mark it. -/
def finishOnce (outcome : DuelEnd) : MatchRoom :=
  if room.finished then room else { room with finished := true }.finishDuel outcome

/-- A finish handler goes on. With the end of the match it publishes GAME_OVER, otherwise the
players change their decks. -/
def resume (handler : Nat) : MatchRoom :=
  match room.pending[handler]? with
  | none => room
  | some .serializing =>
    if room.currentMatch.isFinished then
      { room with pending := room.pending.set handler .ending }
    else { room with pending := room.pending.eraseIdx handler, dueling := false }
  | some .ending =>
    { room with pending := room.pending.eraseIdx handler, gameOvers := room.gameOvers + 1 }

/-- Messages of a core are taken whether or not the listeners of a duel are in place, and a timer
that runs out ends the duel whatever its flag says. -/
def step (room : MatchRoom) : RoomEvent → MatchRoom
  | .startDuel =>
    if room.dueling then room
    else { room with duels := room.duels + 1, finished := false, dueling := true }
  | .finish outcome => if room.duels = 0 then room else room.finishOnce outcome
  | .time team =>
    if room.duels = 0 then room
    else { room with timerRunning := Function.update room.timerRunning team true }
  | .response team =>
    if room.dueling then { room with timerRunning := Function.update room.timerRunning team false }
    else room
  | .surrender team turns ips =>
    if room.dueling then room.finishOnce ⟨some team.other, turns, ips⟩ else room
  | .timeout team turns ips =>
    if room.timerRunning team then room.finishDuel ⟨some team.other, turns, ips⟩ else room
  | .resume handler => room.resume handler
  | .fails handler => { room with pending := room.pending.eraseIdx handler }

def run (events : List RoomEvent) : MatchRoom := events.foldl step room

end

/-! ## One result a duel -/

/-- The numbers of the duels that have a result. -/
def scored (room : MatchRoom) : List Nat := room.results.map Prod.fst

/-- Every duel that is over has one result, which is in the score and in every player's games, and
the end of the match is published once at most. -/
structure ScoredOnce (bestOf : Int) (roster : List MatchPlayer) (room : MatchRoom) : Prop where
  once : room.scored.Nodup
  earlier : ∀ duel, 0 < duel → duel < room.duels → duel ∈ room.scored
  current : room.finished = true → room.duels ∈ room.scored
  score : room.currentMatch = room.results.foldl
    (fun m result => m.duelWinner result.2.winner result.2.turns result.2.ips)
    ((Match.create bestOf).initializeHistoricalData roster)
  games : ∀ player ∈ room.currentMatch.players, player.games.length = room.results.length
  gameOver : room.gameOvers ≤ 1

/-- Whoever reaches the finish handler finds a duel without a result. -/
def Fresh (room : MatchRoom) : RoomEvent → Prop
  | .finish _ => 0 < room.duels → room.finished = false → room.duels ∉ room.scored
  | .surrender _ _ _ => room.dueling = true → room.finished = false → room.duels ∉ room.scored
  | .timeout team _ _ => room.timerRunning team = true → room.duels ∉ room.scored
  | _ => True

def AlwaysFresh (room : MatchRoom) : List RoomEvent → Prop
  | [] => True
  | event :: events => Fresh room event ∧ AlwaysFresh (room.step event) events

variable {bestOf : Int} {roster : List MatchPlayer} {room : MatchRoom}

/-- What a room whose finish handlers are all fresh keeps: one handler at a time, and only for a
duel with a result. Between duels, and once the match is over, the last duel has one. -/
structure Orderly (bestOf : Int) (roster : List MatchPlayer) (room : MatchRoom) : Prop
    extends ScoredOnce bestOf roster room where
  known : ∀ duel ∈ room.scored, duel ≤ room.duels
  single : room.pending.length ≤ 1
  handled : room.pending ≠ [] → room.duels ∈ room.scored ∧ room.dueling = true ∧ room.gameOvers = 0
  between : room.dueling = false →
    (room.duels = 0 ∨ room.duels ∈ room.scored) ∧ room.gameOvers = 0
  published : room.gameOvers ≠ 0 → room.duels ∈ room.scored
  timed : ∀ team, room.timerRunning team = true → 0 < room.duels
  begun : room.dueling = true → 0 < room.duels

namespace Orderly

theorem start (bestOf : Int) (roster : List MatchPlayer) :
    Orderly bestOf roster (start bestOf roster) where
  once := List.nodup_nil
  earlier := by simp [MatchRoom.start]
  current := by simp [MatchRoom.start]
  score := rfl
  games := by
    intro player hp
    obtain ⟨before, hb, he⟩ := List.mem_map.mp hp
    subst he
    rfl
  gameOver := Nat.zero_le 1
  known := by simp [MatchRoom.start, scored]
  single := Nat.zero_le 1
  handled := by simp [MatchRoom.start]
  between := by simp [MatchRoom.start]
  published := by simp [MatchRoom.start]
  timed := by simp [MatchRoom.start]
  begun := by simp [MatchRoom.start]

/-- The finish handler scores a duel without a result, and no other handler waits then. -/
theorem finishDuel (h : Orderly bestOf roster room) (hduels : 0 < room.duels)
    (hfresh : room.duels ∉ room.scored) (outcome : DuelEnd) :
    Orderly bestOf roster (room.finishDuel outcome) := by
  have hidle : room.pending = [] := by
    by_contra hne
    exact hfresh (h.handled hne).1
  have hdueling : room.dueling = true := by
    by_contra hnot
    cases (h.between (by simpa using hnot)).1 with
    | inl hzero => omega
    | inr hmem => exact hfresh hmem
  have hopen : room.gameOvers = 0 := by
    by_contra hne
    exact hfresh (h.published hne)
  have hscored : (room.finishDuel outcome).scored = room.scored ++ [room.duels] := by
    simp [scored, MatchRoom.finishDuel]
  constructor
  · constructor
    · rw [hscored]
      exact List.nodup_append.mpr ⟨h.once, List.nodup_singleton _, by
        intro duel hd other ho heq
        rw [List.mem_singleton] at ho
        exact hfresh (ho ▸ heq ▸ hd)⟩
    · intro duel hpos hlt
      rw [hscored]
      exact List.mem_append_left _ (h.earlier duel hpos hlt)
    · intro _
      rw [hscored]
      exact List.mem_append_right _ (List.mem_singleton.mpr rfl)
    · simp only [MatchRoom.finishDuel, List.foldl_append, List.foldl_cons, List.foldl_nil]
      rw [← h.score]
    · intro player hp
      have hgames :=
        Match.duelWinner_games h.games outcome.winner outcome.turns outcome.ips player hp
      simpa [MatchRoom.finishDuel] using hgames
    · exact h.gameOver
  · intro duel hd
    rw [hscored] at hd
    cases List.mem_append.mp hd with
    | inl hold => exact h.known duel hold
    | inr hnew => exact Nat.le_of_eq (List.mem_singleton.mp hnew)
  · simp [MatchRoom.finishDuel, hidle]
  · intro _
    rw [hscored]
    exact ⟨List.mem_append_right _ (List.mem_singleton.mpr rfl), hdueling, hopen⟩
  · intro hnot
    exact absurd hdueling (by simpa [MatchRoom.finishDuel] using hnot)
  · intro hne
    exact absurd hopen hne
  · simp [MatchRoom.finishDuel]
  · exact fun _ => hduels

/-- The flag of a duel that has a result says nothing more. -/
theorem mark (h : Orderly bestOf roster room) (hscored : room.duels ∈ room.scored)
    (finished : Bool) : Orderly bestOf roster { room with finished := finished } :=
  { h with current := fun _ => hscored }

theorem finishDuel_scored (outcome : DuelEnd) :
    (room.finishDuel outcome).duels ∈ (room.finishDuel outcome).scored := by
  simp [scored, MatchRoom.finishDuel]

theorem finishOnce (h : Orderly bestOf roster room) (hduels : 0 < room.duels)
    (hfresh : room.finished = false → room.duels ∉ room.scored) (outcome : DuelEnd) :
    Orderly bestOf roster (room.finishOnce outcome) := by
  unfold MatchRoom.finishOnce
  split
  · exact h
  · rename_i hopen
    have hfresh := hfresh (by simpa using hopen)
    exact (h.finishDuel hduels hfresh outcome).mark (finishDuel_scored outcome) true

/-- A handler that waits no longer leaves none. -/
theorem erase (h : Orderly bestOf roster room) (handler : Nat) :
    Orderly bestOf roster { room with pending := room.pending.eraseIdx handler } :=
  { h with
    single := Nat.le_trans (List.length_eraseIdx_le _ _) h.single
    handled := by
      intro hne
      apply h.handled
      intro hnone
      simp [hnone] at hne }

theorem eraseIdx_nil (h : Orderly bestOf roster room) {handler : Nat} {stage : FinishStage}
    (hp : room.pending[handler]? = some stage) : room.pending.eraseIdx handler = [] := by
  have hlt := (List.getElem?_eq_some_iff.mp hp).1
  have hlength := List.length_eraseIdx_of_lt hlt
  have hone := h.single
  apply List.eq_nil_of_length_eq_zero
  omega

theorem resume (h : Orderly bestOf roster room) (handler : Nat) :
    Orderly bestOf roster (room.resume handler) := by
  unfold MatchRoom.resume
  cases hp : room.pending[handler]? with
  | none => exact h
  | some stage =>
    have hne : room.pending ≠ [] := by
      intro hnone
      simp [hnone] at hp
    obtain ⟨hscored, hdueling, hopen⟩ := h.handled hne
    have hnil := h.eraseIdx_nil hp
    cases stage with
    | serializing =>
      dsimp only
      split
      · exact { h with
          single := by simpa using h.single
          handled := fun _ => ⟨hscored, hdueling, hopen⟩ }
      · exact { h with
          single := Nat.le_trans (List.length_eraseIdx_le _ _) h.single
          handled := fun hleft => absurd hnil hleft
          between := fun _ => ⟨Or.inr hscored, hopen⟩
          begun := by simp }
    | ending =>
      exact { h with
        gameOver := by simp [hopen]
        single := Nat.le_trans (List.length_eraseIdx_le _ _) h.single
        handled := fun hleft => absurd hnil hleft
        between := fun hnot => absurd hdueling (by simpa using hnot)
        published := fun _ => hscored }

theorem startDuel (h : Orderly bestOf roster room) (hbetween : room.dueling = false) :
    Orderly bestOf roster
      { room with duels := room.duels + 1, finished := false, dueling := true } := by
  obtain ⟨hlast, hopen⟩ := h.between hbetween
  have hidle : room.pending = [] := by
    by_contra hne
    have hdueling := (h.handled hne).2.1
    simp [hbetween] at hdueling
  exact { h with
    earlier := by
      intro duel hpos hlt
      have hle : duel ≤ room.duels := Nat.le_of_lt_succ hlt
      cases Nat.lt_or_eq_of_le hle with
      | inl hless => exact h.earlier duel hpos hless
      | inr hsame =>
        subst hsame
        cases hlast with
        | inl hzero => omega
        | inr hmem => exact hmem
    current := by simp
    known := fun duel hd => Nat.le_succ_of_le (h.known duel hd)
    handled := fun hne => absurd hidle hne
    between := by simp
    published := fun hne => absurd hopen hne
    timed := fun team _ => Nat.succ_pos room.duels
    begun := fun _ => Nat.succ_pos room.duels }

/-- A step whose finish handler is fresh keeps the room in order. -/
theorem step (h : Orderly bestOf roster room) {event : RoomEvent} (hfresh : room.Fresh event) :
    Orderly bestOf roster (room.step event) := by
  cases event with
  | startDuel =>
    simp only [MatchRoom.step]
    split
    · exact h
    · rename_i hbetween
      exact h.startDuel (by simpa using hbetween)
  | finish outcome =>
    simp only [MatchRoom.step]
    split
    · exact h
    · rename_i hzero
      have hpos : 0 < room.duels := Nat.pos_of_ne_zero hzero
      exact h.finishOnce hpos (hfresh hpos) outcome
  | time team =>
    simp only [MatchRoom.step]
    split
    · exact h
    · rename_i hzero
      exact { h with timed := fun _ _ => Nat.pos_of_ne_zero hzero }
  | response team =>
    simp only [MatchRoom.step]
    split
    · exact { h with
        timed := by
          intro other hother
          by_cases ho : other = team
          · subst ho
            simp at hother
          · dsimp only at hother
            rw [Function.update_of_ne ho] at hother
            exact h.timed other hother }
    · exact h
  | surrender team turns ips =>
    simp only [MatchRoom.step]
    split
    · rename_i hdueling
      exact h.finishOnce (h.begun hdueling) (hfresh hdueling) _
    · exact h
  | timeout team turns ips =>
    simp only [MatchRoom.step]
    split
    · rename_i hrunning
      exact h.finishDuel (h.timed team hrunning) (hfresh hrunning) _
    · exact h
  | resume handler => exact h.resume handler
  | fails handler => exact h.erase handler

theorem run (h : Orderly bestOf roster room) {events : List RoomEvent}
    (hfresh : AlwaysFresh room events) : Orderly bestOf roster (room.run events) := by
  induction events generalizing room with
  | nil => exact h
  | cons event events ih => exact ih (h.step hfresh.1) hfresh.2

end Orderly

/-! ## A result is never taken back -/

theorem scored_finishOnce (outcome : DuelEnd) :
    room.scored <+: (room.finishOnce outcome).scored := by
  unfold finishOnce
  split
  · exact List.prefix_refl _
  · exact ⟨[room.duels], by simp [scored, finishDuel]⟩

theorem scored_step (event : RoomEvent) : room.scored <+: (room.step event).scored := by
  cases event with
  | startDuel =>
    simp only [step]
    split
    · exact List.prefix_refl _
    · exact List.prefix_refl _
  | finish outcome =>
    simp only [step]
    split
    · exact List.prefix_refl _
    · exact scored_finishOnce outcome
  | time team =>
    simp only [step]
    split
    · exact List.prefix_refl _
    · exact List.prefix_refl _
  | response team =>
    simp only [step]
    split
    · exact List.prefix_refl _
    · exact List.prefix_refl _
  | surrender team turns ips =>
    simp only [step]
    split
    · exact scored_finishOnce _
    · exact List.prefix_refl _
  | timeout team turns ips =>
    simp only [step]
    split
    · exact ⟨[room.duels], by simp [scored, finishDuel]⟩
    · exact List.prefix_refl _
  | resume handler =>
    simp only [step, resume]
    split
    · exact List.prefix_refl _
    · split
      · exact List.prefix_refl _
      · exact List.prefix_refl _
    · exact List.prefix_refl _
  | fails handler => exact List.prefix_refl _

theorem scored_run (events : List RoomEvent) : room.scored <+: (room.run events).scored := by
  induction events generalizing room with
  | nil => exact List.prefix_refl _
  | cons event events ih => exact (scored_step event).trans ih

/-- A finish handler that is not fresh scores a duel a second time. -/
theorem fresh_of_nodup {event : RoomEvent} (h : (room.step event).scored.Nodup) :
    room.Fresh event := by
  have htwice : ∀ outcome, (room.finishDuel outcome).scored.Nodup → room.duels ∉ room.scored := by
    intro outcome hnodup hmem
    have hscored : (room.finishDuel outcome).scored = room.scored ++ [room.duels] := by
      simp [scored, finishDuel]
    rw [hscored] at hnodup
    exact (List.nodup_append.mp hnodup).2.2 _ hmem _ (List.mem_singleton.mpr rfl) rfl
  have hflagged : ∀ outcome, room.finished = false → (room.finishOnce outcome).scored.Nodup →
      room.duels ∉ room.scored := by
    intro outcome hopen hnodup
    apply htwice outcome
    simpa [finishOnce, hopen, scored, finishDuel] using hnodup
  cases event with
  | finish outcome =>
    intro hpos hopen
    simp only [step, Nat.ne_of_gt hpos, if_false] at h
    exact hflagged outcome hopen h
  | surrender team turns ips =>
    intro hdueling hopen
    simp only [step, hdueling, if_true] at h
    exact hflagged _ hopen h
  | timeout team turns ips =>
    intro hrunning
    simp only [step, hrunning, if_true] at h
    exact htwice _ h
  | startDuel | time | response | resume | fails => trivial

theorem alwaysFresh_of_nodup {events : List RoomEvent} (h : (room.run events).scored.Nodup) :
    AlwaysFresh room events := by
  induction events generalizing room with
  | nil => trivial
  | cons event events ih =>
    have hprefix : (room.step event).scored <+: ((room.step event).run events).scored :=
      scored_run events
    have hnodup := List.Nodup.sublist hprefix.sublist h
    exact ⟨fresh_of_nodup hnodup, ih h⟩

/-- The first team runs out of time and surrenders while the replay is serialized. -/
def surrenderAfterTimeout : List RoomEvent :=
  [.startDuel, .time .player, .timeout .player 3 [], .surrender .player 3 [], .resume 0]

end MatchRoom

end EdoproServer.Edopro
