import EdoproServer.Matchmaking.Participant
import EdoproServer.Messages.Buffers

namespace EdoproServer.Matchmaking
open Lib Messages

/-! ## What the frames say -/

def MATCHMAKING_ENTER : UInt8 := 0xfa
def MATCHMAKING_STATUS : UInt8 := 0xf8
def MATCHMAKING_FOUND : UInt8 := 0xf7
def MATCHMAKING_PROPOSED : UInt8 := 0xef

def MAX_TICKET_BYTES : Nat := 64
def MAX_OPPONENT_NAME_BYTES : Nat := 32
def MAX_MATCH_ID_BYTES : Nat := 64

def ENTER_BODY_LENGTH : Nat := 4
def ENTER_BODY_LENGTH_WITH_FALLBACK : Nat := 8
def ACCEPT_STEP_BYTE_LENGTH : Nat := 1

/-- The state of a STATUS frame. -/
inductive WireState where
  | searching
  | cancelled
  | rejected
  | replaced
  | authenticated
  deriving DecidableEq, Repr

/-- The reason of a STATUS frame, or that there is none. -/
inductive WireReason where
  | none
  | invalidTicket
  | notAuthenticated
  | alreadyAuthenticated
  | unknownFormat
  | unsupportedMode
  | malformedFrame
  | rateLimited
  | replacedByNewConnection
  | missingPlayerInfo
  | banned
  | internalError
  | cancelTooLate
  | alreadyQueued
  | versionMismatch
  | unknownMatch
  | declined
  | acceptTimeout
  deriving DecidableEq, Repr

namespace WireState

def all : List WireState := [.searching, .cancelled, .rejected, .replaced, .authenticated]

def text : WireState → String
  | .searching => "searching"
  | .cancelled => "cancelled"
  | .rejected => "rejected"
  | .replaced => "replaced"
  | .authenticated => "authenticated"

/-- `STATE_TO_CODE` -/
def code : WireState → UInt8
  | .searching => 0
  | .cancelled => 1
  | .rejected => 2
  | .replaced => 3
  | .authenticated => 4

end WireState

namespace WireReason

def all : List WireReason :=
  [.none, .invalidTicket, .notAuthenticated, .alreadyAuthenticated, .unknownFormat,
    .unsupportedMode, .malformedFrame, .rateLimited, .replacedByNewConnection,
    .missingPlayerInfo, .banned, .internalError, .cancelTooLate, .alreadyQueued,
    .versionMismatch, .unknownMatch, .declined, .acceptTimeout]

def text : WireReason → String
  | .none => "none"
  | .invalidTicket => "invalid_ticket"
  | .notAuthenticated => "not_authenticated"
  | .alreadyAuthenticated => "already_authenticated"
  | .unknownFormat => "unknown_format"
  | .unsupportedMode => "unsupported_mode"
  | .malformedFrame => "malformed_frame"
  | .rateLimited => "rate_limited"
  | .replacedByNewConnection => "replaced_by_new_connection"
  | .missingPlayerInfo => "missing_player_info"
  | .banned => "banned"
  | .internalError => "internal_error"
  | .cancelTooLate => "cancel_too_late"
  | .alreadyQueued => "already_queued"
  | .versionMismatch => "version_mismatch"
  | .unknownMatch => "unknown_match"
  | .declined => "declined"
  | .acceptTimeout => "accept_timeout"

/-- `REASON_TO_CODE` -/
def code : WireReason → UInt8
  | .none => 0
  | .invalidTicket => 1
  | .notAuthenticated => 2
  | .alreadyAuthenticated => 3
  | .unknownFormat => 4
  | .unsupportedMode => 5
  | .malformedFrame => 6
  | .rateLimited => 7
  | .replacedByNewConnection => 8
  | .missingPlayerInfo => 9
  | .banned => 10
  | .internalError => 11
  | .cancelTooLate => 12
  | .alreadyQueued => 13
  | .versionMismatch => 14
  | .unknownMatch => 15
  | .declined => 16
  | .acceptTimeout => 17

end WireReason

namespace OpponentType

def all : List OpponentType := [.human, .bot]

def text : OpponentType → String
  | .human => "human"
  | .bot => "bot"

/-- `OPPONENT_TYPE_TO_CODE` -/
def code : OpponentType → UInt8
  | .human => 0
  | .bot => 1

end OpponentType

def FORMAT_TO_CODE : MatchmakingFormat → UInt8
  | .tcg => 0
  | .jtp => 1
  | .edison => 2

def FORMAT_BY_CODE (code : UInt8) : Option MatchmakingFormat :=
  if code = 0 then some .tcg else if code = 1 then some .jtp else if code = 2 then some .edison
  else none

def RANKED_MODE : UInt8 := 0

def MODE_BY_CODE (code : UInt8) : Option MatchmakingMode := if code = 0 then some .ranked else none

inductive ParseResult (α : Type) where
  | ok (value : α)
  | rejected (reason : WireReason)

structure CtosAuth where
  ticket : String

structure CtosEnter where
  format : MatchmakingFormat
  mode : MatchmakingMode
  clientVersion : Nat
  botFallbackAfterMs : Option Nat
  supportsAcceptStep : Option Bool

structure CtosMatchResponse where
  matchId : String

structure MatchmakingFoundNotice where
  opponentType : OpponentType
  rated : Bool
  roomId : Nat
  matchId : String
  opponentName : Option String

structure MatchProposalNotice where
  matchId : String
  acceptWithinMs : Nat

/-! ## The server reads -/

def parseCtosAuth (body : Buffer) : Raises (ParseResult CtosAuth) :=
  if body.length < 1 then .ok (.rejected .malformedFrame)
  else do
    let ticketLen ← body.readUInt8 0
    if ticketLen.toNat > MAX_TICKET_BYTES ∨ body.length ≠ 1 + ticketLen.toNat then
      .ok (.rejected .malformedFrame)
    else
      .ok (.ok { ticket := (body.subarray 1 (1 + ticketLen.toNat)).utf8ToString })

/-- The optional last byte is the accept-step opt-in, which leaves the optional delay before it. -/
def enterHasAcceptStep (body : Buffer) : Bool :=
  body.length = ENTER_BODY_LENGTH + ACCEPT_STEP_BYTE_LENGTH ||
    body.length = ENTER_BODY_LENGTH_WITH_FALLBACK + ACCEPT_STEP_BYTE_LENGTH

def enterOptionsLength (body : Buffer) : Nat :=
  body.length - if enterHasAcceptStep body then ACCEPT_STEP_BYTE_LENGTH else 0

/-- What follows the format and the mode. -/
def parseEnterOptions (body : Buffer) (format : MatchmakingFormat) (mode : MatchmakingMode) :
    Raises (ParseResult CtosEnter) := do
  let clientVersion ← body.readUInt16LE 2
  let botFallbackAfterMs ←
    if enterOptionsLength body = ENTER_BODY_LENGTH_WITH_FALLBACK then
      (body.readUInt32LE 4).map some
    else .ok none
  let acceptStepByte ←
    if enterHasAcceptStep body then (body.readUInt8 (enterOptionsLength body)).map some
    else .ok none
  if acceptStepByte.any (fun byte => byte > 1) then .ok (.rejected .malformedFrame)
  else
    .ok (.ok { format := format, mode := mode, clientVersion := clientVersion,
               botFallbackAfterMs := botFallbackAfterMs,
               supportsAcceptStep := acceptStepByte.map (fun byte => byte = 1) })

def parseCtosEnter (body : Buffer) : Raises (ParseResult CtosEnter) :=
  if enterOptionsLength body ≠ ENTER_BODY_LENGTH ∧
      enterOptionsLength body ≠ ENTER_BODY_LENGTH_WITH_FALLBACK then
    .ok (.rejected .malformedFrame)
  else do
    let formatCode ← body.readUInt8 0
    match FORMAT_BY_CODE formatCode with
    | none => .ok (.rejected .unknownFormat)
    | some format =>
      let modeCode ← body.readUInt8 1
      match MODE_BY_CODE modeCode with
      | none => .ok (.rejected .unsupportedMode)
      | some mode => parseEnterOptions body format mode

/-- The body of ACCEPT and of DECLINE. -/
def parseCtosMatchResponse (body : Buffer) : Raises (ParseResult CtosMatchResponse) :=
  if body.length < 1 then .ok (.rejected .malformedFrame)
  else do
    let matchIdLen ← body.readUInt8 0
    if matchIdLen = 0 ∨ matchIdLen.toNat > MAX_MATCH_ID_BYTES ∨
        body.length ≠ 1 + matchIdLen.toNat then
      .ok (.rejected .malformedFrame)
    else .ok (.ok { matchId := (body.subarray 1 body.length).utf8ToString })

/-! ## The server writes -/

def buildFrame (opcode : UInt8) (body : Buffer) : Raises Buffer := do
  let size ← Buffer.writeUInt16LE (1 + body.length)
  return size ++ opcode :: body

def buildStocMatchmakingStatusFrame (state : WireState) (waitedMs : Nat) (reason : WireReason) :
    Raises Buffer := do
  let waited ← Buffer.writeUInt32LE waitedMs
  buildFrame MATCHMAKING_STATUS (state.code :: waited ++ [reason.code])

/-- Steps back while the cut would fall inside a code point. -/
def codePointBoundary (bytes : Buffer) : Nat → Nat
  | 0 => 0
  | stop + 1 =>
    if (bytes[stop + 1]?).any Utf8.isContinuation then codePointBoundary bytes stop else stop + 1

def truncateUtf8 (value : String) (maxBytes : Nat) : Buffer :=
  let bytes := Buffer.ofUtf8 value
  if bytes.length ≤ maxBytes then bytes else bytes.subarray 0 (codePointBoundary bytes maxBytes)

/-- A nameless opponent has no name bytes. -/
def opponentNameBytes : Option String → Buffer
  | some opponentName => truncateUtf8 opponentName MAX_OPPONENT_NAME_BYTES
  | none => []

def buildStocMatchmakingFoundFrame (notice : MatchmakingFoundNotice) : Raises Buffer := do
  let matchIdBytes := Buffer.ofUtf8 notice.matchId
  let nameBytes := opponentNameBytes notice.opponentName
  let roomId ← Buffer.writeUInt16LE notice.roomId
  buildFrame MATCHMAKING_FOUND
    ([notice.opponentType.code, if notice.rated then 1 else 0] ++ roomId ++
      Buffer.ofByte matchIdBytes.length ++ matchIdBytes ++ Buffer.ofByte nameBytes.length ++
      nameBytes)

def buildStocMatchmakingProposedFrame (notice : MatchProposalNotice) : Raises Buffer := do
  let matchIdBytes := Buffer.ofUtf8 notice.matchId
  let acceptWithin ← Buffer.writeUInt32LE notice.acceptWithinMs
  buildFrame MATCHMAKING_PROPOSED
    (Buffer.ofByte matchIdBytes.length ++ matchIdBytes ++ acceptWithin)

/-! ## The harness -/

/-- The name of the entry of a table that has the code. -/
def invert {α : Type} (all : List α) (code : α → UInt8) (text : α → String) (byte : UInt8) :
    String :=
  match all.find? (fun a => code a = byte) with
  | some a => text a
  | none => "unknown(" ++ toString byte.toNat ++ ")"

/-- `version` is the version the client is configured with. -/
def enterFrame (version : Nat) (format : MatchmakingFormat) (botFallbackAfterMs : Option Nat) :
    Raises Buffer := do
  let clientVersion ← Buffer.writeUInt16LE version
  let delay ←
    match botFallbackAfterMs with
    | none => .ok []
    | some ms => Buffer.writeUInt32LE ms
  buildFrame MATCHMAKING_ENTER ([FORMAT_TO_CODE format, RANKED_MODE] ++ clientVersion ++ delay)

structure WireFrame where
  opcode : UInt8
  body : Buffer
  deriving DecidableEq, Repr

structure TakenFrames where
  frames : List WireFrame
  consumed : Nat
  deriving DecidableEq, Repr

/-- Whether the buffer holds a whole frame at the offset, by the size it declares. -/
def holdsFrame (buffer : Buffer) (offset size : Nat) : Bool :=
  !(size < 1 || buffer.length - offset < 2 + size)

def takeFramesFrom (buffer : Buffer) (offset : Nat) : Raises TakenFrames :=
  if buffer.length - offset ≥ 2 then
    match buffer.readUInt16LE offset with
    | .error error => .error error
    | .ok size =>
      if _hwhole : holdsFrame buffer offset size = true then do
        let opcode ← buffer.readUInt8 (offset + 2)
        let rest ← takeFramesFrom buffer (offset + 2 + size)
        return { rest with
          frames := { opcode := opcode
                      body := buffer.subarray (offset + 3) (offset + 2 + size) } :: rest.frames }
      else .ok { frames := [], consumed := offset }
  else .ok { frames := [], consumed := offset }
termination_by buffer.length - offset
decreasing_by
  simp only [holdsFrame, Bool.not_eq_true', Bool.or_eq_false_iff,
    decide_eq_false_iff_not] at _hwhole
  omega

def takeFrames (buffer : Buffer) : Raises TakenFrames := takeFramesFrom buffer 0

structure StatusDescription where
  state : String
  waitedMs : Nat
  reason : String
  deriving DecidableEq, Repr

def describeStatus (body : Buffer) : Raises StatusDescription :=
  if body.length ≠ 6 then
    .ok { state := "malformed(" ++ toString body.length ++ "B)", waitedMs := 0, reason := "none" }
  else do
    let state ← body.readUInt8 0
    let waitedMs ← body.readUInt32LE 1
    let reason ← body.readUInt8 5
    return { state := invert WireState.all WireState.code WireState.text state
             waitedMs := waitedMs
             reason := invert WireReason.all WireReason.code WireReason.text reason }

inductive FoundDescription where
  | malformed (text : String)
  | found (opponentType : String) (rated : Bool) (roomId : Nat) (matchId opponentName : String)
  deriving DecidableEq, Repr

def describeFound (body : Buffer) : Raises FoundDescription :=
  if body.length < 5 then .ok (.malformed (toString body.length ++ "B"))
  else do
    let matchIdLength ← body.readUInt8 4
    let nameOffset := 5 + matchIdLength.toNat
    let nameLength ← if body.length > nameOffset then body.readUInt8 nameOffset else .ok 0
    let opponentType ← body.readUInt8 0
    let rated ← body.readUInt8 1
    let roomId ← body.readUInt16LE 2
    return .found (invert OpponentType.all OpponentType.code OpponentType.text opponentType)
      (rated = 1) roomId (body.subarray 5 nameOffset).utf8ToString
      (body.subarray (nameOffset + 1) (nameOffset + 1 + nameLength.toNat)).utf8ToString

/-- The layout that is documented for PROPOSED, read by the client. -/
def readProposed (body : Buffer) : Raises MatchProposalNotice := do
  let matchIdLen ← body.readUInt8 0
  let acceptWithinMs ← body.readUInt32LE (1 + matchIdLen.toNat)
  return { matchId := (body.subarray 1 (1 + matchIdLen.toNat)).utf8ToString
           acceptWithinMs := acceptWithinMs }

end EdoproServer.Matchmaking
