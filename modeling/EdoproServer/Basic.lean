namespace EdoproServer

abbrev UserId := String

/-- The two sides of a match and the stands. -/
inductive Team where
  | player
  | opponent
  | spectator
  deriving DecidableEq, Repr

/-- The id of a client object of a room. -/
abbrev ClientRef := Nat

/-- The team a team plays against. -/
def Team.other : Team → Team
  | .player => .opponent
  | _ => .player

end EdoproServer
