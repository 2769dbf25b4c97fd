import EdoproServer.Basic

namespace EdoproServer.Matchmaking

inductive MatchmakingFormat where
  | tcg
  | jtp
  | edison
  deriving DecidableEq, Repr

inductive MatchmakingMode where
  | ranked
  deriving DecidableEq, Repr

def MATCHMAKING_FORMATS : List MatchmakingFormat := [.tcg, .jtp, .edison]
def MATCHMAKING_MODES : List MatchmakingMode := [.ranked]

def QUEUE_TTL_MS : Int := 8000
def BOT_FALLBACK_MIN_MS : Int := 30000
def BOT_FALLBACK_MAX_MS : Int := 1200000
def MATCHED_GRACE_MS : Int := 30000
def MATCH_ACCEPT_TIMEOUT_MS : Int := 20000

/-- Clamps a client-requested bot-fallback delay into the supported range. -/
def clampBotFallbackDelay (requestedMs : Int) : Int :=
  min BOT_FALLBACK_MAX_MS (max BOT_FALLBACK_MIN_MS requestedMs)

inductive OpponentType where
  | human
  | bot
  deriving DecidableEq, Repr

/-- How a participant reached the pool: pushed to over a live connection, or polling. -/
inductive ParticipantPresence where
  | socket
  | poll
  deriving DecidableEq, Repr

/-- `ref` is the identity of the object, which tells apart two arrivals with equal fields.
Its channel is reached through the pool's dependencies. -/
structure Participant where
  ref : Nat
  id : String
  userId : UserId
  format : MatchmakingFormat
  mode : MatchmakingMode
  displayName : Option String
  enqueuedAt : Int
  botFallbackAfterMs : Option Int
  supportsAcceptStep : Option Bool
  presence : ParticipantPresence
  /-- whether the socket and its PLAYER_INFO were captured -/
  admission : Bool
  deriving DecidableEq, Repr

/-- Whether the participant answers a proposed match with ACCEPT or DECLINE. -/
def Participant.optedIn (participant : Participant) : Bool :=
  participant.supportsAcceptStep == some true

structure Match where
  id : String
  format : MatchmakingFormat
  mode : MatchmakingMode
  rated : Bool
  opponentKind : OpponentType
  participants : List Participant
  deriving DecidableEq, Repr

def Match.ids (m : Match) : List String := m.participants.map Participant.id

def Match.userIds (m : Match) : List UserId := m.participants.map Participant.userId

/-- Bot matches never wait; a human match waits when anyone in it opted in. -/
def requiresAcceptStep (m : Match) : Bool :=
  m.opponentKind == .human && m.participants.any Participant.optedIn

/-- Why a participant left the pool. -/
inductive QueueExitOutcome where
  | matchedHuman
  | matchedBot
  | cancelled
  | dequeued
  | expired
  | replaced
  | declined
  | acceptTimeout
  deriving DecidableEq, Repr

/-- The two outcomes that go with a match handed over. -/
def QueueExitOutcome.isMatched : QueueExitOutcome → Bool
  | .matchedHuman => true
  | .matchedBot => true
  | _ => false

inductive MatchResponseOutcome where
  | accepted
  | declined
  | requeued
  | unknownMatch
  deriving DecidableEq, Repr

inductive RejectionReason where
  | notAuthenticated
  | missingPlayerInfo
  | replacedByNewConnection
  | alreadyQueued
  | versionMismatch
  | unknownMatch
  | cancelTooLate
  | declined
  | acceptTimeout
  deriving DecidableEq, Repr

inductive MatchmakingStatusState where
  | searching
  | cancelled
  | rejected
  deriving DecidableEq, Repr

/-- A call the pool makes on a participant's channel. FOUND comes from the match handler. -/
inductive ChannelCall where
  | status (state : MatchmakingStatusState) (waitedMs : Int) (reason : Option RejectionReason)
  | proposed (matchId : String) (acceptWithinMs : Int)
  | close (reason : RejectionReason)
  deriving DecidableEq, Repr

/-- Thrown when a user already has an active matchmaking entry. -/
structure DuplicateQueueEntryError where
  userId : UserId
  deriving DecidableEq, Repr

def DuplicateQueueEntryError.message (error : DuplicateQueueEntryError) : String :=
  "User " ++ error.userId ++ " already has an active matchmaking entry"

end EdoproServer.Matchmaking
