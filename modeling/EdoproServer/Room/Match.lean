import EdoproServer.Stats.GameOver

namespace EdoproServer.Room
open Stats

/-- The result of a duel: the team that won it, or nobody in a draw. -/
abbrev Winner := Option Team

structure Game where
  result : GameResult
  turns : Nat
  ipAddress : Option String
  client : Option String
  deriving DecidableEq, Repr

/-- What is captured of a player's connection when a duel ends. -/
structure PlayerConnection where
  name : String
  ipAddress : Option String
  client : Option String
  deriving DecidableEq, Repr

/-- A player of a match with the games recorded for it. -/
structure MatchPlayer where
  id : Option UserId
  name : String
  team : Team
  games : List Game
  deriving DecidableEq, Repr

/-- A player of a match as the history shows it, with the winner flag and its team's score. -/
structure PlayerData extends MatchPlayer where
  winner : Bool
  score : Nat
  deriving DecidableEq, Repr

structure Match where
  bestOf : Int
  playerScore : Nat
  opponentScore : Nat
  players : List MatchPlayer
  deriving DecidableEq, Repr

namespace Match

def create (bestOf : Int) : Match :=
  { bestOf := bestOf, playerScore := 0, opponentScore := 0, players := [] }

def initializeHistoricalData (m : Match) (players : List MatchPlayer) : Match :=
  { m with players := players.map (fun player => { player with games := [] }) }

/-- Half the games, rounded up. -/
def needWins (m : Match) : Int := (m.bestOf + 1) / 2

def isFinished (m : Match) : Bool :=
  m.needWins ≤ m.opponentScore || m.needWins ≤ m.playerScore

def resultFor (winner : Winner) (team : Team) : GameResult :=
  match winner with
  | none => .deuce
  | some t => if team = t then .winner else .loser

/-- A result enters every player's games, with the connection found under the player's name. -/
def record (m : Match) (winner : Winner) (turns : Nat) (ips : List PlayerConnection) : Match :=
  { m with players := m.players.map (fun player =>
      let connection := ips.find? (fun data => data.name = player.name)
      { player with games := player.games ++
          [{ result := resultFor winner player.team, turns := turns,
             ipAddress := connection.bind PlayerConnection.ipAddress,
             client := connection.bind PlayerConnection.client }] }) }

/-- The result is recorded in any case; the score moves unless the match is decided already. -/
def duelWinner (m : Match) (winner : Winner) (turns : Nat) (ips : List PlayerConnection) : Match :=
  let recorded := m.record winner turns ips
  if recorded.isFinished then recorded
  else
    match winner with
    | none => recorded
    | some .player => { recorded with playerScore := recorded.playerScore + 1 }
    | some _ => { recorded with opponentScore := recorded.opponentScore + 1 }

/-- Awards the remaining games, at most `left` of them, and reports how many it awarded. -/
def award (winner : Winner) (ips : List PlayerConnection) : Nat → Match → Match × Nat
  | 0, m => (m, 0)
  | left + 1, m =>
    if m.isFinished then (m, 0)
    else
      let rest := award winner ips left (m.duelWinner winner 0 ips)
      (rest.1, rest.2 + 1)

def forfeit (m : Match) (winner : Winner) (ips : List PlayerConnection) : Match × Nat :=
  award winner ips m.bestOf.toNat m

/-- The team that leads. A tie goes to the second team. -/
def winner (m : Match) : Team :=
  if m.opponentScore < m.playerScore then .player else .opponent

def playersHistory (m : Match) : List PlayerData :=
  m.players.map (fun player =>
    { player with
      winner := m.winner = player.team
      score := if player.team = .player then m.playerScore else m.opponentScore })

def isFirstDuel (m : Match) : Bool := m.playerScore = 0 ∧ m.opponentScore = 0

def hasPlayedAnyDuel (m : Match) : Bool := m.players.any (fun player => player.games ≠ [])

/-- A match that is played as a single duel is over after that duel, whatever its result. -/
def isOver (single : Bool) (m : Match) : Bool :=
  (single && m.hasPlayedAnyDuel) || m.isFinished

/-! ## What recording a result changes -/

/-- The score of a team. -/
def scoreOf (m : Match) : Team → Nat
  | .player => m.playerScore
  | _ => m.opponentScore

section

variable (m : Match) (winner : Winner) (turns : Nat) (ips : List PlayerConnection)

@[simp] theorem record_bestOf : (m.record winner turns ips).bestOf = m.bestOf := rfl
@[simp] theorem record_playerScore : (m.record winner turns ips).playerScore = m.playerScore := rfl
@[simp] theorem record_opponentScore :
    (m.record winner turns ips).opponentScore = m.opponentScore := rfl
@[simp] theorem record_needWins : (m.record winner turns ips).needWins = m.needWins := rfl
@[simp] theorem record_isFinished : (m.record winner turns ips).isFinished = m.isFinished := rfl

theorem duelWinner_of_finished (h : m.isFinished = true) :
    m.duelWinner winner turns ips = m.record winner turns ips := by
  simp [duelWinner, h]

theorem duelWinner_bestOf : (m.duelWinner winner turns ips).bestOf = m.bestOf := by
  unfold duelWinner
  dsimp only
  split
  · rfl
  · split
    · rfl
    · rfl
    · rfl

theorem duelWinner_players :
    (m.duelWinner winner turns ips).players = (m.record winner turns ips).players := by
  unfold duelWinner
  dsimp only
  split
  · rfl
  · split
    · rfl
    · rfl
    · rfl

@[simp] theorem duelWinner_needWins : (m.duelWinner winner turns ips).needWins = m.needWins := by
  simp [needWins, duelWinner_bestOf]

end

/-! ## A forfeit decides the match -/

theorem isFinished_of_score {m : Match} (team : Team) (h : m.needWins ≤ m.scoreOf team) :
    m.isFinished = true := by
  unfold isFinished
  cases team with
  | player => simp [show m.needWins ≤ m.playerScore from h]
  | opponent => simp [show m.needWins ≤ m.opponentScore from h]
  | spectator => simp [show m.needWins ≤ m.opponentScore from h]

theorem duelWinner_score {m : Match} (h : m.isFinished = false) (team : Team) (turns : Nat)
    (ips : List PlayerConnection) :
    (m.duelWinner (some team) turns ips).scoreOf team = m.scoreOf team + 1 := by
  cases team with
  | player => simp [duelWinner, h, scoreOf]
  | opponent => simp [duelWinner, h, scoreOf]
  | spectator => simp [duelWinner, h, scoreOf]

theorem award_isFinished (team : Team) (ips : List PlayerConnection) (left : Nat) (m : Match)
    (h : m.needWins ≤ m.scoreOf team + left) :
    (award (some team) ips left m).1.isFinished = true := by
  induction left generalizing m with
  | zero =>
    rw [award]
    exact isFinished_of_score team (by simpa using h)
  | succ left ih =>
    rw [award]
    split
    · assumption
    · rename_i hopen
      apply ih
      rw [duelWinner_score (by simpa using hopen), duelWinner_needWins]
      push_cast at h ⊢
      omega

/-- A match forfeited to a team is decided. -/
theorem forfeit_isFinished (m : Match) (team : Team) (ips : List PlayerConnection) :
    (m.forfeit (some team) ips).1.isFinished = true := by
  apply award_isFinished
  rw [needWins]
  omega

end Match

/-! ## Duels -/

abbrev DuelId := Nat

structure Duel where
  duelId : DuelId
  turn : Nat
  playerLps : Nat
  opponentLps : Nat
  finished : Bool
  deriving DecidableEq, Repr

namespace Duel

def create (duelId : DuelId) (startLp : Nat) : Duel :=
  { duelId := duelId, turn := 0, playerLps := startLp, opponentLps := startLp, finished := false }

def increaseTurn (duel : Duel) : Duel := { duel with turn := duel.turn + 1 }

/-- Life points never fall below zero. -/
def decreaseLps (duel : Duel) (team : Team) (value : Nat) : Duel :=
  match team with
  | .player => { duel with playerLps := duel.playerLps - value }
  | .opponent => { duel with opponentLps := duel.opponentLps - value }
  | .spectator => duel

def increaseLps (duel : Duel) (team : Team) (value : Nat) : Duel :=
  match team with
  | .player => { duel with playerLps := duel.playerLps + value }
  | .opponent => { duel with opponentLps := duel.opponentLps + value }
  | .spectator => duel

def finish (duel : Duel) : Duel := { duel with finished := true }

end Duel

end EdoproServer.Room
