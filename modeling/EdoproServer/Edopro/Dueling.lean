import EdoproServer.Edopro.TurnOrder
import Mathlib.Logic.Function.Basic

namespace EdoproServer.Edopro

/-! ## Responses of an EDOPro duel -/

abbrev Response := List UInt8

/-- A RESPONSE command as the core reads it. -/
structure ResponseCommand where
  replier : Team
  message : Response
  deriving DecidableEq, Repr

/-- A duel as far as responses go. `commands` are those sent to the core. The last fields keep what
the core does: the team it waits for, the team it asked last, and the teams of all its prompts. -/
structure Dueling where
  players : List Duelist
  spectators : List Duelist
  timerRunning : Team → Bool
  responses : List Response
  commands : List ResponseCommand
  awaiting : Option Team
  replier : Option Team
  prompts : List Team

/-- What reaches the duel: the RESPONSE of a client, the requests of the core, its RETRY, which asks
the last team again, its TIME and SWAP messages, and anything else. -/
inductive DuelEvent where
  | response (sender : ClientRef) (data : Response)
  | request (team : Team)
  | retry
  | time (team : Team)
  | swap (team : Team)
  | other
  deriving DecidableEq, Repr

namespace Dueling

section

variable (duel : Dueling)

/-- The client object a message comes from. -/
def clientOf (sender : ClientRef) : Option Duelist :=
  (duel.players ++ duel.spectators).find? (fun p => p.client = sender)

/-- The handler of a RESPONSE. There is no timer of the stands, so that of a spectator raises after
it was recorded. The core goes on once it has a response. -/
def handleResponse (player : Duelist) (data : Response) : Dueling :=
  if data = [] then duel
  else if player.team = .spectator then { duel with responses := duel.responses ++ [data] }
  else
    { duel with
      responses := duel.responses ++ [data]
      timerRunning := Function.update duel.timerRunning player.team false
      commands := duel.commands ++ [⟨player.team, data⟩]
      awaiting := none }

/-- The core asks a team and waits for its answer. -/
def prompt (team : Team) : Dueling :=
  { duel with awaiting := some team, prompts := duel.prompts ++ [team] }

def step (duel : Dueling) : DuelEvent → Dueling
  | .response sender data =>
    match duel.clientOf sender with
    | none => duel
    | some player => duel.handleResponse player data
  | .request team => { duel.prompt team with replier := some team }
  | .retry =>
    match duel.replier with
    | none => duel
    | some team => duel.prompt team
  | .time team => { duel with timerRunning := Function.update duel.timerRunning team true }
  | .swap team => { duel with players := nextTurn duel.players team }
  | .other => duel

def run (events : List DuelEvent) : Dueling := events.foldl step duel

end

/-- A duel that just began. -/
def started (room : DuelRoom) (rules : TurnOrderRules) : Dueling :=
  { players := prepareTurnOrder room.players rules, spectators := room.spectators,
    timerRunning := fun _ => false, responses := [], commands := [], awaiting := none,
    replier := none, prompts := [] }

/-! ## Authority -/

/-- The core waits for a team and the client is that team's player in turn. -/
def Authorized (duel : Dueling) (player : Duelist) : Prop :=
  player ∈ duel.players ∧ player.inTurn = true ∧ duel.awaiting = some player.team

/-- A RESPONSE of whoever is not the player the core waits for changes nothing. -/
def Respects (duel : Dueling) : DuelEvent → Prop
  | .response sender data =>
    ∀ player, duel.clientOf sender = some player →
      duel.Authorized player ∨ duel.step (.response sender data) = duel
  | _ => True

/-- A RESPONSE with a body comes from the player the core waits for. -/
def Permitted (duel : Dueling) : DuelEvent → Prop
  | .response sender data =>
    ∀ player, duel.clientOf sender = some player → data ≠ [] → duel.Authorized player
  | _ => True

/-- A rule for every event of a run, in the state the event finds. -/
def Always (rule : Dueling → DuelEvent → Prop) (duel : Dueling) : List DuelEvent → Prop
  | [] => True
  | event :: events => rule duel event ∧ Always rule (duel.step event) events

variable {duel : Dueling}

theorem always_congr {rule rule' : Dueling → DuelEvent → Prop}
    (h : ∀ duel event, rule duel event ↔ rule' duel event) (events : List DuelEvent) :
    Always rule duel events ↔ Always rule' duel events := by
  induction events generalizing duel with
  | nil => exact Iff.rfl
  | cons event events ih => exact and_congr (h duel event) ih

/-- A response with a body is always recorded. -/
theorem handleResponse_responses {player : Duelist} {data : Response} (h : data ≠ []) :
    (duel.handleResponse player data).responses = duel.responses ++ [data] := by
  unfold handleResponse
  rw [if_neg h]
  split
  · rfl
  · rfl

theorem respects_iff (duel : Dueling) (event : DuelEvent) :
    duel.Respects event ↔ duel.Permitted event := by
  cases event with
  | response sender data =>
    simp only [Respects, Permitted]
    constructor
    · intro h player hp hdata
      cases h player hp with
      | inl hauthorized => exact hauthorized
      | inr hsame =>
        simp only [step, hp] at hsame
        have hgrown := @handleResponse_responses duel player data hdata
        rw [hsame] at hgrown
        simp at hgrown
    · intro h player hp
      by_cases hdata : data = []
      · right
        simp [step, hp, handleResponse, hdata]
      · exact Or.inl (h player hp hdata)
  | request team => exact Iff.rfl
  | retry => exact Iff.rfl
  | time team => exact Iff.rfl
  | swap team => exact Iff.rfl
  | other => exact Iff.rfl

/-! ## What a permitted run records -/

/-- The replay holds what was sent to the core, and every answer has a prompt of its own to the team
it was sent for. -/
structure Accounted (duel : Dueling) : Prop where
  playing : ∀ p ∈ duel.players, p.team ≠ .spectator
  recorded : duel.responses = duel.commands.map ResponseCommand.message
  prompted : (duel.commands.map ResponseCommand.replier).Sublist duel.prompts
  open_ : ∀ team, duel.awaiting = some team → ∃ answered, duel.prompts = answered ++ [team] ∧
    (duel.commands.map ResponseCommand.replier).Sublist answered

namespace Accounted

theorem prompt (h : Accounted duel) (team : Team) : Accounted (duel.prompt team) := by
  refine ⟨h.playing, h.recorded, h.prompted.trans (List.sublist_append_left _ _), ?_⟩
  intro other hother
  cases hother
  exact ⟨duel.prompts, rfl, h.prompted⟩

theorem response (h : Accounted duel) {sender : ClientRef} {data : Response}
    (hd : duel.Permitted (.response sender data)) :
    Accounted (duel.step (.response sender data)) := by
  simp only [step]
  cases hp : duel.clientOf sender with
  | none => exact h
  | some player =>
    simp only [handleResponse]
    split
    · exact h
    · rename_i hdata
      obtain ⟨hmem, hturn, hawait⟩ := hd player hp hdata
      obtain ⟨answered, hprompts, hanswered⟩ := h.open_ player.team hawait
      rw [if_neg (h.playing player hmem)]
      · constructor
        · exact h.playing
        · simp [h.recorded]
        · simp only [List.map_append, List.map_cons, List.map_nil, hprompts]
          exact hanswered.append (List.Sublist.refl _)
        · intro team hteam
          cases hteam

theorem step (h : Accounted duel) {event : DuelEvent} (hd : duel.Permitted event) :
    Accounted (duel.step event) := by
  cases event with
  | response sender data => exact h.response hd
  | request team =>
    have hprompt := h.prompt team
    exact ⟨hprompt.playing, hprompt.recorded, hprompt.prompted, hprompt.open_⟩
  | retry =>
    simp only [Dueling.step]
    split
    · exact h
    · exact h.prompt _
  | time team => exact ⟨h.playing, h.recorded, h.prompted, h.open_⟩
  | swap team =>
    exact ⟨playing_of_seats (nextTurn_seats team) h.playing, h.recorded, h.prompted, h.open_⟩
  | other => exact h

theorem run (h : Accounted duel) {events : List DuelEvent} (hd : Always Permitted duel events) :
    Accounted (duel.run events) := by
  induction events generalizing duel with
  | nil => exact h
  | cons event events ih => exact ih (h.step hd.1) hd.2

end Accounted

theorem Accounted.started (room : DuelRoom) (rules : TurnOrderRules) :
    Accounted (started room rules) :=
  ⟨playing_of_seats (prepareTurnOrder_seats rules) room.playing, rfl, List.Sublist.refl _,
    by simp [Dueling.started]⟩

theorem step_players (duel : Dueling) (event : DuelEvent) :
    (duel.step event).players = duel.players ∨
      ∃ team, (duel.step event).players = nextTurn duel.players team := by
  cases event with
  | response sender data =>
    left
    simp only [step, handleResponse]
    split
    · rfl
    · split
      · rfl
      · split
        · rfl
        · rfl
  | request team => exact Or.inl rfl
  | retry =>
    left
    simp only [step]
    split
    · rfl
    · rfl
  | time team => exact Or.inl rfl
  | swap team => exact Or.inr ⟨team, rfl⟩
  | other => exact Or.inl rfl

theorem oneInTurn_run (hd : (duel.players.map Duelist.client).Nodup) {team : Team}
    (h : OneInTurn duel.players team) (events : List DuelEvent) :
    OneInTurn (duel.run events).players team := by
  induction events generalizing duel with
  | nil => exact h
  | cons event events ih =>
    cases step_players duel event with
    | inl hsame => exact ih (by rwa [hsame]) (by rwa [hsame])
    | inr hnext =>
      obtain ⟨other, hnext⟩ := hnext
      apply ih
      · rw [hnext, map_client_of_seats (nextTurn_seats other)]
        exact hd
      · rw [hnext]
        exact h.nextTurn hd

/-- At every moment of a duel at most one player of a team is in turn. -/
theorem oneInTurn_started (room : DuelRoom) (hd : (room.players.map Duelist.client).Nodup)
    (rules : TurnOrderRules) {team : Team} (ht : team ≠ .spectator) (events : List DuelEvent) :
    OneInTurn ((started room rules).run events).players team := by
  apply oneInTurn_run
  · simp only [started]
    rw [map_client_of_seats (prepareTurnOrder_seats rules)]
    exact hd
  · exact prepareTurnOrder_oneInTurn hd rules ht

/-- Only the player the core waits for is heard if and only if nobody else sends a RESPONSE with a
body. Then the replay holds what was sent to the core, each answer to a prompt of its own. -/
theorem response_authority_iff (room : DuelRoom) (rules : TurnOrderRules)
    (events : List DuelEvent) :
    (Always Respects (started room rules) events ↔ Always Permitted (started room rules) events) ∧
      (Always Permitted (started room rules) events →
        Accounted ((started room rules).run events)) :=
  ⟨always_congr respects_iff events, fun h => (Accounted.started room rules).run h⟩

/-- One player against one. -/
def pairRoom : DuelRoom :=
  { players := [⟨0, .player, 0, 0, false⟩, ⟨1, .opponent, 1, 0, false⟩]
    spectators := []
    playing := by decide
    watching := nobody_watching
    seats := by decide
    places := no_places }

def pairRules : TurnOrderRules := { team0 := 1, team1 := 1, isRelay := false, firstToPlay := 0 }

/-- The core waits for the first player and the opponent answers. -/
def opponentAnswers : List DuelEvent := [.request .player, .time .player, .response 1 [1]]

theorem opponentAnswers_heard :
    ((started pairRoom pairRules).run opponentAnswers).responses = [[1]] ∧
      ((started pairRoom pairRules).run opponentAnswers).commands = [⟨.opponent, [1]⟩] ∧
      ¬Always Respects (started pairRoom pairRules) opponentAnswers := by
  have hrun : ((started pairRoom pairRules).run opponentAnswers).responses = [[1]] ∧
      ((started pairRoom pairRules).run opponentAnswers).commands = [⟨.opponent, [1]⟩] := by
    decide
  refine ⟨hrun.1, hrun.2, ?_⟩
  intro h
  rw [always_congr respects_iff] at h
  have hauthorized := h.2.2.1 ⟨1, .opponent, 1, 0, true⟩ (by decide) (by decide)
  exact absurd hauthorized.2.2 (by decide)

end Dueling

end EdoproServer.Edopro
