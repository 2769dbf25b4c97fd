import EdoproServer.Basic

namespace EdoproServer.Stats

/-- Ranks are looked up and created by their unique name, which stands for their id here. -/
abbrev RankName := String

inductive GameResult where
  | winner
  | loser
  | deuce
  deriving DecidableEq, Repr

structure GameOverPlayer where
  id : Option UserId
  name : String
  team : Team
  winner : Bool
  games : List GameResult
  deriving DecidableEq, Repr

/-- What the statistics read of a `GAME_OVER` event. -/
structure GameOver where
  matchId : String
  ranked : Bool
  banListName : String
  players : List GameOverPlayer
  deriving DecidableEq, Repr

/-- What one delivery finds outside the event: the configured season, the aliases and groups of
the moment and the accounts. It may differ from one delivery to the next. -/
structure StatsEnvironment where
  season : Int
  resolveAlias : String → String
  groupsFor : String → List String
  accountExists : UserId → Bool
  findByUsername : String → Option UserId

/-- A ranked match between two accounts, on a list with one ladder. -/
def anaBeatsBen : GameOver where
  matchId := "m1"
  ranked := true
  banListName := "2026.04 TCG"
  players := [
    { id := some "ana", name := "Ana", team := .player, winner := true, games := [.winner] },
    { id := some "ben", name := "Ben", team := .opponent, winner := false, games := [.loser] }]

def oneLadder : StatsEnvironment where
  season := 6
  resolveAlias := id
  groupsFor := fun _ => []
  accountExists := fun _ => true
  findByUsername := fun name => some name

/-- The kind of a history or ledger row. -/
inductive RowKind where
  | applied
  | reversal
  | reinstatement
  deriving DecidableEq, Repr

/-- A game, a user, a rank, a kind and a cycle: what the unique index of the rating history and
that of the points ledger identify a row by. -/
structure RowKey where
  gameId : String
  userId : UserId
  rank : RankName
  kind : RowKind
  cycle : Nat
  deriving DecidableEq, Repr

end EdoproServer.Stats
