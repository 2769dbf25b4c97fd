import EdoproServer.Room.Match

namespace EdoproServer.Room
open Stats

/-! ## The score of a match and the duels it recorded -/

/-- A match and the results recorded on it, in order, after any calls. A duel is won by one of the
two teams or by nobody; a forfeit names any winner. -/
inductive Played (bestOf : Int) (roster : List MatchPlayer) : Match → List Winner → Prop where
  | start : Played bestOf roster ((Match.create bestOf).initializeHistoricalData roster) []
  | duelWinner {m : Match} {duels : List Winner} {winner : Winner} (turns : Nat)
      (ips : List PlayerConnection) (hw : winner ≠ some .spectator)
      (h : Played bestOf roster m duels) :
      Played bestOf roster (m.duelWinner winner turns ips) (duels ++ [winner])
  | forfeit {m : Match} {duels : List Winner} (winner : Winner) (ips : List PlayerConnection)
      (h : Played bestOf roster m duels) :
      Played bestOf roster (m.forfeit winner ips).1
        (duels ++ List.replicate (m.forfeit winner ips).2 winner)

/-- What the score of a match says about the duels recorded on it. -/
structure ScoreInvariant (m : Match) (duels : List Winner) : Prop where
  counted : m.isFinished = false →
    ∀ team : Team, team ≠ .spectator → m.scoreOf team = duels.count (some team)
  bounded : ∀ team : Team, (m.scoreOf team : Int) ≤ m.needWins
  notBoth : ¬ (m.needWins ≤ m.playerScore ∧ m.needWins ≤ m.opponentScore)
  games : ∀ player ∈ m.players, player.games.length = duels.length
  ahead : m.isFinished = true →
    m.playerScore < m.opponentScore ∨ m.opponentScore < m.playerScore

namespace Match

theorem isFinished_iff {m : Match} :
    m.isFinished = true ↔ m.needWins ≤ m.opponentScore ∨ m.needWins ≤ m.playerScore := by
  simp [isFinished]

theorem open_iff {m : Match} :
    m.isFinished = false ↔
      (m.opponentScore : Int) < m.needWins ∧ (m.playerScore : Int) < m.needWins := by
  simp [isFinished]

/-- Neither score passes the wins needed, and at most one reaches them. -/
structure Bounded (m : Match) : Prop where
  player : (m.playerScore : Int) ≤ m.needWins
  opponent : (m.opponentScore : Int) ≤ m.needWins
  notBoth : ¬ (m.needWins ≤ m.playerScore ∧ m.needWins ≤ m.opponentScore)

theorem Bounded.duelWinner {m : Match} (h : m.Bounded) (winner : Winner) (turns : Nat)
    (ips : List PlayerConnection) : (m.duelWinner winner turns ips).Bounded := by
  cases hf : m.isFinished with
  | true =>
    rw [duelWinner_of_finished _ _ _ _ hf]
    exact ⟨h.player, h.opponent, h.notBoth⟩
  | false =>
    obtain ⟨ho, hp⟩ := open_iff.mp hf
    have hn := duelWinner_needWins m winner turns ips
    constructor
    all_goals
      rw [hn]
      unfold Match.duelWinner
      simp only [record_isFinished, hf, Bool.false_eq_true, if_false]
      cases winner with
      | none =>
        simp only [record_playerScore, record_opponentScore]
        omega
      | some team =>
        cases team with
        | player =>
          simp only [record_playerScore, record_opponentScore]
          push_cast
          omega
        | opponent =>
          simp only [record_playerScore, record_opponentScore]
          push_cast
          omega
        | spectator =>
          simp only [record_playerScore, record_opponentScore]
          push_cast
          omega

/-- While a match is open, a result moves the score of the team that won and no other. -/
theorem duelWinner_counted {m : Match} {winner : Winner} (hw : winner ≠ some .spectator)
    (hf : m.isFinished = false) (turns : Nat) (ips : List PlayerConnection) {team : Team}
    (ht : team ≠ .spectator) :
    (m.duelWinner winner turns ips).scoreOf team
      = m.scoreOf team + if winner = some team then 1 else 0 := by
  unfold duelWinner
  simp only [record_isFinished, hf, Bool.false_eq_true, if_false]
  cases winner with
  | none =>
    cases team with
    | player => simp [scoreOf]
    | opponent => simp [scoreOf]
    | spectator => exact absurd rfl ht
  | some w =>
    cases w with
    | player =>
      cases team with
      | player => simp [scoreOf]
      | opponent => simp [scoreOf]
      | spectator => exact absurd rfl ht
    | opponent =>
      cases team with
      | player => simp [scoreOf]
      | opponent => simp [scoreOf]
      | spectator => exact absurd rfl ht
    | spectator => exact absurd rfl hw

/-- As long as a match is open, every score is the number of recorded duels the team won. -/
def Counted (m : Match) (duels : List Winner) : Prop :=
  m.isFinished = false →
    ∀ team : Team, team ≠ .spectator → m.scoreOf team = duels.count (some team)

theorem open_of_duelWinner {m : Match} {winner : Winner} {turns : Nat}
    {ips : List PlayerConnection} (h : (m.duelWinner winner turns ips).isFinished = false) :
    m.isFinished = false := by
  cases hf : m.isFinished with
  | false => rfl
  | true =>
    rw [duelWinner_of_finished _ _ _ _ hf] at h
    simp [hf] at h

theorem Counted.duelWinner {m : Match} {duels : List Winner} (h : m.Counted duels)
    {winner : Winner} (hw : winner ≠ some .spectator) (turns : Nat)
    (ips : List PlayerConnection) :
    (m.duelWinner winner turns ips).Counted (duels ++ [winner]) := by
  intro hopen team ht
  have hf := open_of_duelWinner hopen
  rw [duelWinner_counted hw hf turns ips ht, h hf team ht, List.count_append]
  simp [List.count_singleton]

theorem duelWinner_games {m : Match} {n : Nat}
    (h : ∀ player ∈ m.players, player.games.length = n) (winner : Winner) (turns : Nat)
    (ips : List PlayerConnection) :
    ∀ player ∈ (m.duelWinner winner turns ips).players, player.games.length = n + 1 := by
  intro player hp
  rw [duelWinner_players] at hp
  obtain ⟨before, hb, he⟩ := List.mem_map.mp hp
  subst he
  simp [h before hb]

/-- Every player gets the result of its team. -/
theorem duelWinner_results {m : Match} {results : Team → List GameResult}
    (h : ∀ player ∈ m.players, player.games.map Game.result = results player.team)
    (winner : Winner) (turns : Nat) (ips : List PlayerConnection) :
    ∀ player ∈ (m.duelWinner winner turns ips).players,
      player.games.map Game.result = results player.team ++ [resultFor winner player.team] := by
  intro player hp
  rw [duelWinner_players] at hp
  obtain ⟨before, hb, he⟩ := List.mem_map.mp hp
  subst he
  simp [h before hb]

/-! ### A forfeit, one awarded game after the other -/

theorem Bounded.award (winner : Winner) (ips : List PlayerConnection) (left : Nat) {m : Match}
    (h : m.Bounded) : (award winner ips left m).1.Bounded := by
  induction left generalizing m with
  | zero => exact h
  | succ left ih =>
    rw [Match.award]
    split
    · exact h
    · exact ih (h.duelWinner winner 0 ips)

theorem Counted.award {winner : Winner} (hw : winner ≠ some .spectator)
    (ips : List PlayerConnection) (left : Nat) {m : Match} {duels : List Winner}
    (h : m.Counted duels) :
    (award winner ips left m).1.Counted
      (duels ++ List.replicate (award winner ips left m).2 winner) := by
  induction left generalizing m duels with
  | zero => simpa [Match.award] using h
  | succ left ih =>
    rw [Match.award]
    split
    · simpa using h
    · have hrest := ih (h.duelWinner hw 0 ips)
      simpa [List.replicate_succ] using hrest

theorem award_games (winner : Winner) (ips : List PlayerConnection) (left : Nat) {m : Match}
    {n : Nat} (h : ∀ player ∈ m.players, player.games.length = n) :
    ∀ player ∈ (award winner ips left m).1.players,
      player.games.length = n + (award winner ips left m).2 := by
  induction left generalizing m n with
  | zero => simpa [award] using h
  | succ left ih =>
    rw [award]
    split
    · simpa using h
    · intro player hp
      have hrest := ih (duelWinner_games h winner 0 ips) player hp
      rw [hrest]
      exact Nat.add_right_comm n 1 _

theorem award_results (winner : Winner) (ips : List PlayerConnection) (left : Nat) {m : Match}
    {results : Team → List GameResult}
    (h : ∀ player ∈ m.players, player.games.map Game.result = results player.team) :
    ∀ player ∈ (award winner ips left m).1.players, player.games.map Game.result =
      results player.team ++
        List.replicate (award winner ips left m).2 (resultFor winner player.team) := by
  induction left generalizing m results with
  | zero => simpa [award] using h
  | succ left ih =>
    rw [award]
    split
    · simpa using h
    · intro player hp
      have hrest := @ih _ (fun team => results team ++ [resultFor winner team])
        (duelWinner_results h winner 0 ips) player hp
      rw [hrest, List.append_assoc, List.replicate_succ]
      rfl

end Match

/-! ## Any calls keep the invariant -/

variable {bestOf : Int} {roster : List MatchPlayer} {m : Match} {duels : List Winner}

theorem Played.bounded (hb : 0 < bestOf) (h : Played bestOf roster m duels) : m.Bounded := by
  induction h with
  | start =>
    constructor
    all_goals
      simp only [Match.initializeHistoricalData, Match.create, Match.needWins]
      omega
  | duelWinner turns ips hw h ih => exact ih.duelWinner _ turns ips
  | forfeit winner ips h ih => exact ih.award winner ips _

theorem Played.counted (h : Played bestOf roster m duels) : m.Counted duels := by
  induction h with
  | start =>
    intro _ team ht
    cases team with
    | player => rfl
    | opponent => rfl
    | spectator => exact absurd rfl ht
  | duelWinner turns ips hw h ih => exact ih.duelWinner hw turns ips
  | @forfeit m duels winner ips h ih =>
    by_cases hw : winner = some .spectator
    · subst hw
      intro hopen
      rw [Match.forfeit_isFinished m .spectator ips] at hopen
      cases hopen
    · exact ih.award hw ips _

theorem Played.games (h : Played bestOf roster m duels) :
    ∀ player ∈ m.players, player.games.length = duels.length := by
  induction h with
  | start =>
    intro player hp
    obtain ⟨before, hb, he⟩ := List.mem_map.mp hp
    subst he
    rfl
  | duelWinner turns ips hw h ih => simpa using Match.duelWinner_games ih _ turns ips
  | forfeit winner ips h ih => simpa [Match.forfeit] using Match.award_games winner ips _ ih

/-- A decided match has exactly one team ahead. -/
theorem Match.Bounded.ahead (h : m.Bounded) (hf : m.isFinished = true) :
    m.playerScore < m.opponentScore ∨ m.opponentScore < m.playerScore := by
  obtain ⟨hp, ho, hn⟩ := h
  have hor := Match.isFinished_iff.mp hf
  omega

theorem score_invariant (hb : 0 < bestOf) (h : Played bestOf roster m duels) :
    ScoreInvariant m duels where
  counted := h.counted
  bounded team := by
    have hm := h.bounded hb
    cases team with
    | player => exact hm.player
    | opponent => exact hm.opponent
    | spectator => exact hm.opponent
  notBoth := (h.bounded hb).notBoth
  games := h.games
  ahead := (h.bounded hb).ahead

def ana : MatchPlayer := { id := some "ana", name := "Ana", team := .player, games := [] }

def ben : MatchPlayer := { id := some "ben", name := "Ben", team := .opponent, games := [] }

/-- Ana wins once, nobody wins the second duel, then Ben forfeits a match of best of three. -/
theorem score_invariant_forfeited :
    ∃ m, Played 3 [ana, ben] m [some .player, none, some .player] ∧
      ScoreInvariant m [some .player, none, some .player] := by
  have h := Played.forfeit (some .player) []
    (@Played.duelWinner 3 [ana, ben] _ _ none 4 [] (by decide)
      (@Played.duelWinner 3 [ana, ben] _ _ (some .player) 9 [] (by decide) .start))
  exact ⟨_, h, score_invariant (by decide) h⟩

/-- In a match of no games at all both teams have the wins needed from the start. -/
theorem noGames_both_reach :
    ¬ ∀ (bestOf : Int) (roster : List MatchPlayer) (m : Match) (duels : List Winner),
      Played bestOf roster m duels → ScoreInvariant m duels := by
  intro hall
  exact (hall 0 [] _ [] .start).notBoth (by decide)

/-! ## The winner flag of the history -/

/-- Whoever is flagged as a winner has a higher score than the other team. -/
def WinnerFlagsSound (m : Match) : Prop :=
  ∀ player ∈ m.playersHistory, player.winner = true →
    m.scoreOf player.team.other < m.scoreOf player.team

theorem mem_playersHistory {player : PlayerData} :
    player ∈ m.playersHistory ↔ ∃ before ∈ m.players, player.toMatchPlayer = before ∧
      player.winner = decide (m.winner = before.team) ∧
      player.score = if before.team = .player then m.playerScore else m.opponentScore := by
  unfold Match.playersHistory
  constructor
  · intro h
    obtain ⟨before, hb, he⟩ := List.mem_map.mp h
    subst he
    exact ⟨before, hb, rfl, rfl, rfl⟩
  · intro h
    obtain ⟨before, hb, hp, hw, hs⟩ := h
    apply List.mem_map.mpr
    refine ⟨before, hb, ?_⟩
    cases player
    subst hp
    simp only at hw hs
    rw [hw, hs]

/-- A tie flags the whole second team. -/
theorem winnerFlags_sound_iff (m : Match) :
    WinnerFlagsSound m ↔
      m.playerScore ≠ m.opponentScore ∨ ∀ player ∈ m.players, player.team ≠ .opponent := by
  constructor
  · intro hsound
    by_cases htie : m.playerScore = m.opponentScore
    · right
      intro before hb ht
      have hw : m.winner = before.team := by simp [Match.winner, htie, ht]
      have hlt := hsound { before with winner := true, score := m.opponentScore }
        (mem_playersHistory.mpr ⟨before, hb, rfl, by simp [hw], by simp [ht]⟩) rfl
      simp [ht, Team.other, Match.scoreOf, htie] at hlt
    · exact Or.inl htie
  · intro hcond player hp hflag
    obtain ⟨before, hb, hbefore, hw, hs⟩ := mem_playersHistory.mp hp
    subst hbefore
    have hteam : m.winner = player.team := by simpa [hflag] using hw.symm
    rw [← hteam]
    unfold Match.winner
    split
    · rename_i hlt
      exact hlt
    · rename_i hle
      simp only [Match.winner, if_neg hle] at hteam
      cases hcond with
      | inl hne =>
        simp only [Team.other, Match.scoreOf]
        omega
      | inr hnobody => exact absurd hteam.symm (hnobody _ hb)

/-- A match decided by its score never flags a team that is not ahead. -/
theorem winnerFlags_sound_of_finished (hb : 0 < bestOf) (h : Played bestOf roster m duels)
    (hf : m.isFinished = true) : WinnerFlagsSound m := by
  apply (winnerFlags_sound_iff m).mpr
  left
  have hahead := (h.bounded hb).ahead hf
  omega

/-- A single reserved duel that nobody won is over, and Ben is flagged as its winner. -/
theorem drawnDuel_flags_ben :
    ¬ ∀ (single : Bool) (bestOf : Int) (roster : List MatchPlayer) (m : Match)
        (duels : List Winner),
      Played bestOf roster m duels → m.isOver single = true → WinnerFlagsSound m := by
  intro hall
  have hflags := hall true 1 [ana, ben] _ _
    (@Played.duelWinner 1 [ana, ben] _ _ none 12 [] (by decide) .start) (by decide)
  exact absurd ((winnerFlags_sound_iff _).mp hflags) (by decide)

end EdoproServer.Room
