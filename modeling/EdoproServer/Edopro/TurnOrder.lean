import EdoproServer.Basic
import Mathlib.Data.List.Sort

namespace EdoproServer.Edopro

/-! ## Turn order of an EDOPro duel -/

/-- A client of an EDOPro room, as far as a duel tells clients apart. -/
structure Duelist where
  client : ClientRef
  team : Team
  position : Nat
  duelPosition : Nat
  inTurn : Bool
  deriving DecidableEq, Repr

namespace Duelist

/-- What the turn order never changes. -/
def seat (player : Duelist) : ClientRef × Team × Nat :=
  (player.client, player.team, player.position)

end Duelist

/-- The clients of a room during a duel. Seats and places in the stands are handed out under the
room's lock, each to one client. -/
structure DuelRoom where
  players : List Duelist
  spectators : List Duelist
  playing : ∀ p ∈ players, p.team ≠ .spectator
  watching : ∀ p ∈ spectators, p.team = .spectator
  seats : (players.map Duelist.position).Nodup
  places : (spectators.map Duelist.position).Nodup

theorem nobody_watching : ∀ p ∈ ([] : List Duelist), p.team = .spectator := by simp

theorem no_places : (([] : List Duelist).map Duelist.position).Nodup := by simp

structure TurnOrderRules where
  team0 : Nat
  team1 : Nat
  isRelay : Bool
  firstToPlay : Nat
  deriving DecidableEq, Repr

def teamBySeat (players : List Duelist) (team : Team) : List Duelist :=
  (players.filter (fun p => p.team = team)).insertionSort (fun a b => a.position ≤ b.position)

/-- Takes the turn from a player of the seated team and assigns the duel position. -/
def setDuelPosition (seated : List Duelist) (offset size : Nat) (player : Duelist) : Duelist :=
  match seated.findIdx? (fun p => p.client = player.client) with
  | none => player
  | some idx => { player with inTurn := false, duelPosition := (idx + offset) % size }

/-- Gives a client the turn or takes it. -/
def setTurn (players : List Duelist) (client : ClientRef) (inTurn : Bool) : List Duelist :=
  players.map (fun p => if p.client = client then { p with inTurn := inTurn } else p)

/-- The team's player on duel position 0 gets the turn. -/
def giveFirstTurn (players : List Duelist) (team : Team) : List Duelist :=
  match (teamBySeat players team).find? (fun p => p.duelPosition = 0) with
  | none => players
  | some player => setTurn players player.client true

/-- Outside relay duels, the team that plays second is rotated by one seat. -/
def prepareTurnOrder (players : List Duelist) (rules : TurnOrderRules) : List Duelist :=
  let offset0 := if rules.isRelay then 0 else if rules.firstToPlay = 1 then 1 else 0
  let offset1 := if rules.isRelay then 0 else if rules.firstToPlay = 0 then 1 else 0
  let seated := players.map (fun p =>
    setDuelPosition (teamBySeat players .opponent) offset1 rules.team1
      (setDuelPosition (teamBySeat players .player) offset0 rules.team0 p))
  giveFirstTurn (giveFirstTurn seated .player) .opponent

/-- How far the team's seats are rotated. -/
def TurnOrderRules.offset (rules : TurnOrderRules) : Team → Nat
  | .player => if rules.isRelay then 0 else if rules.firstToPlay = 1 then 1 else 0
  | _ => if rules.isRelay then 0 else if rules.firstToPlay = 0 then 1 else 0

/-- The seats of a team. -/
def TurnOrderRules.size (rules : TurnOrderRules) : Team → Nat
  | .player => rules.team0
  | _ => rules.team1

/-- The players once their duel positions are assigned, before anybody has the turn. -/
def positioned (players : List Duelist) (rules : TurnOrderRules) : List Duelist :=
  players.map (fun p =>
    setDuelPosition (teamBySeat players .opponent) (rules.offset .opponent) (rules.size .opponent)
      (setDuelPosition (teamBySeat players .player) (rules.offset .player) (rules.size .player) p))

/-- Passes the team's turn to its next duel position. -/
def nextTurn (players : List Duelist) (team : Team) : List Duelist :=
  let teamPlayers := (players.filter (fun p => p.team = team)).insertionSort
    (fun a b => a.duelPosition ≤ b.duelPosition)
  match teamPlayers.findIdx? Duelist.inTurn with
  | none => players
  | some currentIdx =>
    match teamPlayers[currentIdx]?, teamPlayers[(currentIdx + 1) % teamPlayers.length]? with
    | some current, some next => setTurn (setTurn players current.client false) next.client true
    | _, _ => players

/-! ## Seats stay as they are -/

variable {players : List Duelist}

@[simp] theorem seat_setDuelPosition (seated : List Duelist) (offset size : Nat)
    (player : Duelist) : (setDuelPosition seated offset size player).seat = player.seat := by
  unfold setDuelPosition
  split
  · rfl
  · rfl

theorem setDuelPosition_client (seated : List Duelist) (offset size : Nat) (player : Duelist) :
    (setDuelPosition seated offset size player).client = player.client :=
  congrArg Prod.fst (seat_setDuelPosition seated offset size player)

@[simp] theorem setTurn_seats (client : ClientRef) (inTurn : Bool) :
    (setTurn players client inTurn).map Duelist.seat = players.map Duelist.seat := by
  simp only [setTurn, List.map_map, List.map_inj_left, Function.comp_apply]
  intro p _
  split
  · rfl
  · rfl

theorem giveFirstTurn_seats (team : Team) :
    (giveFirstTurn players team).map Duelist.seat = players.map Duelist.seat := by
  unfold giveFirstTurn
  split
  · rfl
  · exact setTurn_seats _ _

theorem prepareTurnOrder_eq (rules : TurnOrderRules) : prepareTurnOrder players rules =
    giveFirstTurn (giveFirstTurn (positioned players rules) .player) .opponent :=
  rfl

theorem positioned_seats (rules : TurnOrderRules) :
    (positioned players rules).map Duelist.seat = players.map Duelist.seat := by
  rw [positioned, List.map_map, List.map_inj_left]
  intro p _
  simp

theorem prepareTurnOrder_seats (rules : TurnOrderRules) :
    (prepareTurnOrder players rules).map Duelist.seat = players.map Duelist.seat := by
  rw [prepareTurnOrder_eq, giveFirstTurn_seats, giveFirstTurn_seats, positioned_seats]

theorem nextTurn_seats (team : Team) :
    (nextTurn players team).map Duelist.seat = players.map Duelist.seat := by
  unfold nextTurn
  dsimp only
  split
  · rfl
  · split
    · simp
    · rfl

/-- The clients of a room are distinct whatever the turn order. -/
theorem map_client_of_seats {players' : List Duelist}
    (h : players'.map Duelist.seat = players.map Duelist.seat) :
    players'.map Duelist.client = players.map Duelist.client := by
  have hclient : Duelist.client = Prod.fst ∘ Duelist.seat := rfl
  rw [hclient, ← List.map_map, ← List.map_map, h]

/-- Whoever plays keeps playing whatever the turn order. -/
theorem playing_of_seats {players' : List Duelist}
    (h : players'.map Duelist.seat = players.map Duelist.seat)
    (hp : ∀ p ∈ players, p.team ≠ .spectator) : ∀ p ∈ players', p.team ≠ .spectator := by
  intro p hp'
  have hseat : p.seat ∈ players.map Duelist.seat := by
    rw [← h]
    exact List.mem_map_of_mem hp'
  obtain ⟨q, hq, hqp⟩ := List.mem_map.mp hseat
  have hteam : q.team = p.team := congrArg (fun s => s.2.1) hqp
  rw [← hteam]
  exact hp q hq

/-! ## One turn a team -/

/-- At most one player of a team is in turn. -/
def OneInTurn (players : List Duelist) (team : Team) : Prop :=
  ∀ p ∈ players, ∀ q ∈ players, p.team = team → q.team = team → p.inTurn = true →
    q.inTurn = true → p.client = q.client

/-- After the turn was given to a client, whoever else is in turn was so before. -/
theorem mem_setTurn_true {client : ClientRef} {p : Duelist} (h : p ∈ setTurn players client true)
    (hturn : p.inTurn = true) : p.client = client ∨ p ∈ players := by
  obtain ⟨q, hq, hp⟩ := List.mem_map.mp h
  split at hp
  · rename_i hc
    subst hp
    exact Or.inl hc
  · subst hp
    exact Or.inr hq

theorem mem_setTurn_false {client : ClientRef} {p : Duelist} (h : p ∈ setTurn players client false)
    (hturn : p.inTurn = true) : p ∈ players ∧ p.client ≠ client := by
  obtain ⟨q, hq, hp⟩ := List.mem_map.mp h
  split at hp
  · subst hp
    simp at hturn
  · rename_i hc
    subst hp
    exact ⟨hq, hc⟩

theorem mem_giveFirstTurn {team : Team} {p : Duelist} (h : p ∈ giveFirstTurn players team)
    (hturn : p.inTurn = true) :
    p ∈ players ∨ ∃ first, (teamBySeat players team).find? (fun p => p.duelPosition = 0) =
      some first ∧ p.client = first.client := by
  unfold giveFirstTurn at h
  cases hf : (teamBySeat players team).find? (fun p => p.duelPosition = 0) with
  | none =>
    rw [hf] at h
    exact Or.inl h
  | some first =>
    rw [hf] at h
    cases mem_setTurn_true h hturn with
    | inl hc => exact Or.inr ⟨first, rfl, hc⟩
    | inr hold => exact Or.inl hold

theorem mem_teamBySeat {team : Team} {p : Duelist} :
    p ∈ teamBySeat players team ↔ p ∈ players ∧ p.team = team := by
  simp [teamBySeat]

/-- Two players of one client sit on one seat. -/
theorem seat_of_client (hd : (players.map Duelist.client).Nodup) {p q : Duelist}
    (hp : p.seat ∈ players.map Duelist.seat) (hq : q.seat ∈ players.map Duelist.seat)
    (hc : p.client = q.client) : p.seat = q.seat := by
  obtain ⟨p', hp', hps⟩ := List.mem_map.mp hp
  obtain ⟨q', hq', hqs⟩ := List.mem_map.mp hq
  have hpc : p'.client = p.client := congrArg Prod.fst hps
  have hqc : q'.client = q.client := congrArg Prod.fst hqs
  have hsame : p' = q' :=
    List.inj_on_of_nodup_map hd hp' hq' (hpc.trans (hc.trans hqc.symm))
  rw [← hps, ← hqs, hsame]

/-- Giving one team its turn leaves the other team as it was. -/
theorem mem_giveFirstTurn_other (hd : (players.map Duelist.client).Nodup) {team other : Team}
    (ht : team ≠ other) {p : Duelist} (h : p ∈ giveFirstTurn players other) (hteam : p.team = team)
    (hturn : p.inTurn = true) : p ∈ players := by
  cases mem_giveFirstTurn h hturn with
  | inl hold => exact hold
  | inr hfirst =>
    obtain ⟨first, hf, hc⟩ := hfirst
    have hmem := mem_teamBySeat.mp (List.mem_of_find?_eq_some hf)
    have hp : p.seat ∈ players.map Duelist.seat := by
      rw [← giveFirstTurn_seats other]
      exact List.mem_map_of_mem h
    have hsame := seat_of_client hd hp (List.mem_map_of_mem hmem.1) hc
    have hteams : p.team = first.team := congrArg (fun s => s.2.1) hsame
    exact absurd (hteam.symm.trans (hteams.trans hmem.2)) ht

/-- A team of which nobody is in turn. -/
def NoneInTurn (players : List Duelist) (team : Team) : Prop :=
  ∀ p ∈ players, p.team = team → p.inTurn = false

theorem NoneInTurn.giveFirstTurn_other (hd : (players.map Duelist.client).Nodup)
    {team other : Team} (ht : team ≠ other) (h : NoneInTurn players team) :
    NoneInTurn (giveFirstTurn players other) team := by
  intro p hp hteam
  apply Bool.eq_false_iff.mpr
  intro hturn
  have hfalse := h p (mem_giveFirstTurn_other hd ht hp hteam hturn) hteam
  simp [hfalse] at hturn

theorem NoneInTurn.giveFirstTurn {team : Team} (h : NoneInTurn players team) :
    OneInTurn (giveFirstTurn players team) team := by
  have hfirst : ∀ p ∈ Edopro.giveFirstTurn players team, p.team = team → p.inTurn = true →
      ∃ first, (teamBySeat players team).find? (fun p => p.duelPosition = 0) = some first ∧
        p.client = first.client := by
    intro p hp hteam hturn
    cases mem_giveFirstTurn hp hturn with
    | inl hold => simp [h p hold hteam] at hturn
    | inr hfirst => exact hfirst
  intro p hp q hq hpt hqt hpi hqi
  obtain ⟨first, hf, hpc⟩ := hfirst p hp hpt hpi
  obtain ⟨first', hf', hqc⟩ := hfirst q hq hqt hqi
  rw [hf, Option.some.injEq] at hf'
  rw [hpc, hqc, hf']

theorem OneInTurn.giveFirstTurn_other (hd : (players.map Duelist.client).Nodup)
    {team other : Team} (ht : team ≠ other) (h : OneInTurn players team) :
    OneInTurn (giveFirstTurn players other) team := by
  intro p hp q hq hpt hqt hpi hqi
  exact h p (mem_giveFirstTurn_other hd ht hp hpt hpi) q
    (mem_giveFirstTurn_other hd ht hq hqt hqi) hpt hqt hpi hqi

theorem setDuelPosition_turn {seated : List Duelist} {offset size : Nat} {player : Duelist}
    (h : (setDuelPosition seated offset size player).inTurn = true) :
    player.inTurn = true ∧ ∀ p ∈ seated, p.client ≠ player.client := by
  unfold setDuelPosition at h
  split at h
  · rename_i hnone
    rw [List.findIdx?_eq_none_iff] at hnone
    exact ⟨h, fun p hp => by simpa using hnone p hp⟩
  · cases h

theorem positioned_noneInTurn (rules : TurnOrderRules) {team : Team} (ht : team ≠ .spectator) :
    NoneInTurn (positioned players rules) team := by
  intro p hp hteam
  apply Bool.eq_false_iff.mpr
  intro hturn
  obtain ⟨q, hq, hpq⟩ := List.mem_map.mp hp
  have hseat : p.seat = q.seat := by rw [← hpq]; simp
  have hqteam : q.team = team := (congrArg (fun s => s.2.1) hseat).symm.trans hteam
  rw [← hpq] at hturn
  obtain ⟨hinner, hopponent⟩ := setDuelPosition_turn hturn
  obtain ⟨-, hplayer⟩ := setDuelPosition_turn hinner
  simp only [setDuelPosition_client] at hopponent
  cases team with
  | spectator => exact ht rfl
  | player => exact hplayer q (mem_teamBySeat.mpr ⟨hq, hqteam⟩) rfl
  | opponent => exact hopponent q (mem_teamBySeat.mpr ⟨hq, hqteam⟩) rfl

/-- At the start of a duel at most one player of a team is in turn. -/
theorem prepareTurnOrder_oneInTurn (hd : (players.map Duelist.client).Nodup)
    (rules : TurnOrderRules) {team : Team} (ht : team ≠ .spectator) :
    OneInTurn (prepareTurnOrder players rules) team := by
  rw [prepareTurnOrder_eq]
  have hds : ((positioned players rules).map Duelist.client).Nodup := by
    rw [map_client_of_seats (positioned_seats rules)]
    exact hd
  have hdp : ((giveFirstTurn (positioned players rules) .player).map Duelist.client).Nodup := by
    rw [map_client_of_seats (giveFirstTurn_seats .player)]
    exact hds
  have hnone : NoneInTurn (positioned players rules) team := positioned_noneInTurn rules ht
  cases team with
  | spectator => exact absurd rfl ht
  | player => exact hnone.giveFirstTurn.giveFirstTurn_other hdp (by simp)
  | opponent => exact (hnone.giveFirstTurn_other hds (by simp)).giveFirstTurn

/-- Passing a turn on leaves at most one player of a team in turn. -/
theorem OneInTurn.nextTurn (hd : (players.map Duelist.client).Nodup) {team other : Team}
    (h : OneInTurn players team) : OneInTurn (nextTurn players other) team := by
  unfold Edopro.nextTurn
  dsimp only
  split
  · exact h
  · rename_i idx hidx
    split
    · rename_i current next hcurrent hnext
      have hmem : ∀ p ∈ (players.filter (fun p => p.team = other)).insertionSort
          (fun a b => a.duelPosition ≤ b.duelPosition), p ∈ players ∧ p.team = other := by
        intro p hp
        simpa using hp
      obtain ⟨hcur, hcurteam⟩ := hmem current (List.mem_of_getElem? hcurrent)
      obtain ⟨hnxt, hnxtteam⟩ := hmem next (List.mem_of_getElem? hnext)
      have hcurturn : current.inTurn = true := by
        obtain ⟨hlt, hturn, -⟩ := List.findIdx?_eq_some_iff_getElem.mp hidx
        rw [List.getElem?_eq_getElem hlt, Option.some.injEq] at hcurrent
        rw [← hcurrent]
        exact hturn
      have hturned : ∀ p ∈ setTurn (setTurn players current.client false) next.client true,
          p.team = team → p.inTurn = true →
            (team = other ∧ p.client = next.client) ∨ (team ≠ other ∧ p ∈ players) := by
        intro p hp hteam hturn
        cases mem_setTurn_true hp hturn with
        | inl hc =>
          have hps : p.seat ∈ players.map Duelist.seat := by
            rw [← setTurn_seats current.client false, ← setTurn_seats next.client true]
            exact List.mem_map_of_mem hp
          have hseat := seat_of_client hd hps (List.mem_map_of_mem hnxt) hc
          have hteams : p.team = next.team := congrArg (fun s => s.2.1) hseat
          exact Or.inl ⟨hteam.symm.trans (hteams.trans hnxtteam), hc⟩
        | inr hold =>
          obtain ⟨hpm, hne⟩ := mem_setTurn_false hold hturn
          by_cases ht : team = other
          · subst ht
            exact absurd (h p hpm current hcur hteam hcurteam hturn hcurturn) hne
          · exact Or.inr ⟨ht, hpm⟩
      intro p hp q hq hpt hqt hpi hqi
      cases hturned p hp hpt hpi with
      | inl hp' =>
        cases hturned q hq hqt hqi with
        | inl hq' => rw [hp'.2, hq'.2]
        | inr hq' => exact absurd hp'.1 hq'.1
      | inr hp' =>
        cases hturned q hq hqt hqi with
        | inl hq' => exact absurd hq'.1 hp'.1
        | inr hq' => exact h p hp'.2 q hq'.2 hpt hqt hpi hqi
    · exact h

end EdoproServer.Edopro
