import EdoproServer.Basic
import EdoproServer.Lib.Codec
import EdoproServer.Messages.Buffers

namespace EdoproServer.Edopro
open Lib Messages

/-! ## A recorded duel -/

/-- A player as the replay keeps it, with the codes of its cards. -/
structure ReplayPlayer where
  name : String
  team : Team
  main : List Nat
  extra : List Nat
  deriving DecidableEq, Repr

structure Replay where
  seed : Nat × Nat × Nat × Nat
  messages : List Bytes
  responses : List Bytes
  players : List ReplayPlayer
  startingLp : Nat
  startingDrawCount : Nat
  drawCountPerTurn : Nat
  flags : Nat
  deriving DecidableEq, Repr

structure ReplayHeader where
  type : Nat
  version : Nat
  flags : Nat
  timestamp : Nat
  size : Nat
  hash : Nat
  props : List Nat
  deriving DecidableEq, Repr

structure ExtendedReplayHeader where
  base : ReplayHeader
  version : Nat
  seed : Nat × Nat × Nat × Nat
  deriving DecidableEq, Repr

def REPLAY_YRP1 : Nat := 0x31707279
def REPLAY_YRPX : Nat := 0x58707279
def REPLAY_COMPRESSED : Nat := 0x1
def REPLAY_LUA64 : Nat := 0x10
def REPLAY_NEWREPLAY : Nat := 0x20
def REPLAY_64BIT_DUELFLAG : Nat := 0x100
def REPLAY_EXTENDED_HEADER : Nat := 0x200

/-- Each byte of the text becomes a code unit. The array is cut to as many bytes as it has units. -/
def UTF8ToUTF16 (str : String) (length : Nat) : Bytes :=
  let utf8Bytes := Buffer.ofUtf8 str
  let utf16Array := (List.range length).map (fun i => utf8Bytes.getD i 0)
  (utf16Array.flatMap (fun byte => [byte, 0])).take length

namespace Replay

section

variable (replay : Replay)

def setSeed (seed : Nat × Nat × Nat × Nat) : Replay := { replay with seed := seed }

def addMessage (message : Bytes) : Replay :=
  { replay with messages := replay.messages ++ [message] }

/-- The bytes of the response, which come as hexadecimal text. -/
def addResponse (response : Bytes) : Replay :=
  { replay with responses := replay.responses ++ [response] }

def addPlayers (players : List ReplayPlayer) : Replay := { replay with players := players }

def team0Players : List ReplayPlayer := replay.players.filter (fun player => player.team = .player)

def team1Players : List ReplayPlayer :=
  replay.players.filter (fun player => player.team = .opponent)

/-! ### Sizes -/

def yrpxHeaderSize : Nat :=
  let teamsSize := 8
  let flagSize := 8
  let playersSize := 40 * (replay.team0Players.length + replay.team1Players.length)
  let messagesSize := (replay.messages.map (fun message => message.length + 4)).sum
  teamsSize + flagSize + playersSize + messagesSize

def playerSize (player : ReplayPlayer) : Nat :=
  40 + 8 + player.main.length * 4 + player.extra.length * 4

/-- The extra cards of a replay are always empty. -/
def yrppHeaderSize : Nat :=
  let teamSize := 8
  let startingLpSize := 8
  let drawCountPerTurnSize := 4
  let flagSize := 8
  teamSize + startingLpSize + drawCountPerTurnSize + flagSize +
    (replay.team0Players.map playerSize).sum + (replay.team1Players.map playerSize).sum + 4 +
      (replay.responses.map (fun response => response.length + 1)).sum

/-! ### Headers -/

def buildReplayHeader : ExtendedReplayHeader :=
  { base :=
      { type := REPLAY_YRP1, version := 655656,
        flags := REPLAY_LUA64 ||| REPLAY_64BIT_DUELFLAG ||| REPLAY_NEWREPLAY |||
          REPLAY_EXTENDED_HEADER,
        timestamp := 0, size := replay.yrppHeaderSize, hash := 0, props := [] },
    version := 1, seed := replay.seed }

end

/-- `now` is the time in seconds. -/
def buildExtendedReplayHeader (size now : Nat) : ExtendedReplayHeader :=
  { base :=
      { type := REPLAY_YRPX, version := 655656,
        flags := REPLAY_LUA64 ||| REPLAY_64BIT_DUELFLAG ||| REPLAY_NEWREPLAY |||
          REPLAY_EXTENDED_HEADER,
        timestamp := now, size := size, hash := 0, props := [93, 0, 0, 0, 1, 0, 0, 0] },
    version := 1, seed := (0, 0, 0, 0) }

/-! ### Writing -/

def writeUInt8 (value : Int) : Write := putNumber 1 value

def writeUInt32 (value : Int) : Write := putNumber 4 value

def writeUInt64 (value : Int) : Write := putNumber 8 value

def writeBuffer (value : Bytes) : Write := put value

/-- What is undefined is written as zero. -/
def writeProp (header : ExtendedReplayHeader) (i : Nat) : Write :=
  writeUInt8 (header.base.props.getD i 0 : Nat)

def writeHeader (header : ExtendedReplayHeader) : Write := do
  writeUInt32 header.base.type
  writeUInt32 header.base.version
  writeUInt32 header.base.flags
  writeUInt32 header.base.timestamp
  writeUInt32 header.base.size
  writeUInt32 header.base.hash
  forM (List.range 8) (writeProp header)
  writeUInt64 header.version
  writeUInt64 header.seed.1
  writeUInt64 header.seed.2.1
  writeUInt64 header.seed.2.2.1
  writeUInt64 header.seed.2.2.2

def writeName (player : ReplayPlayer) : Write := writeBuffer (UTF8ToUTF16 player.name 40)

def writeTeam (players : List ReplayPlayer) : Write := do
  writeUInt32 players.length
  forM players writeName

def writePlayers (replay : Replay) : Write := do
  writeTeam replay.team0Players
  writeTeam replay.team1Players

def writeCards (codes : List Nat) : Write := do
  writeUInt32 codes.length
  forM codes (fun (code : Nat) => writeUInt32 code)

def writeDeck (player : ReplayPlayer) : Write := do
  writeCards player.main
  writeCards player.extra

def writeDecks (replay : Replay) : Write := do
  forM replay.team0Players writeDeck
  forM replay.team1Players writeDeck

def writeResponse (response : Bytes) : Write := do
  writeUInt8 response.length
  writeBuffer response

def writeResponses (replay : Replay) : Write := forM replay.responses writeResponse

/-- The size of an empty message is written as -1. -/
def writeMessage (message : Bytes) : Write := do
  writeUInt8 ((message.head?.map UInt8.toNat).getD 0 : Nat)
  writeUInt32 ((message.length : Int) - 1)
  writeBuffer (message.drop 1)

def writeMessages (replay : Replay) : Write := forM replay.messages writeMessage

def writeYrp (replay : Replay) : Write := do
  writeUInt8 231
  writeHeader replay.buildReplayHeader
  writePlayers replay
  writeUInt32 replay.startingLp
  writeUInt32 replay.startingDrawCount
  writeUInt32 replay.drawCountPerTurn
  writeUInt64 replay.flags
  writeDecks replay
  writeUInt32 0
  writeResponses replay

def writeYrpx (replay : Replay) : Write := do
  writePlayers replay
  writeUInt64 replay.flags
  writeMessages replay

/-- The data of a buffer of the size once it is written. -/
def fill (size : Nat) (write : Write) : Except WriteError Bytes :=
  match write (.alloc size) with
  | .ok _ buffer => .ok buffer.data
  | .error e _ => .error e

def yrpSize (replay : Replay) : Nat := replay.yrppHeaderSize + 72 + 1

def compressedHeader (size now : Nat) : ExtendedReplayHeader :=
  let header := buildExtendedReplayHeader size now
  { header with base := { header.base with flags := header.base.flags ||| REPLAY_COMPRESSED } }

def writeFile (header : ExtendedReplayHeader) (compressedData : Bytes) : Write := do
  writeHeader header
  writeBuffer compressedData

/-- The replay in the older format is the last message of the newer one. -/
def serialize (compress : Bytes → Bytes) (now : Nat) (replay : Replay) :
    Except WriteError Bytes := do
  let yrp ← fill replay.yrpSize (writeYrp replay)
  let recorded := replay.addMessage yrp
  let yrpx ← fill recorded.yrpxHeaderSize (writeYrpx recorded)
  let compressedData := compress yrpx
  fill (72 + compressedData.length) (writeFile (compressedHeader yrpx.length now) compressedData)

/-! ### What the writers write -/

def headerBytes (header : ExtendedReplayHeader) : Bytes :=
  littleEndian 4 header.base.type ++ littleEndian 4 header.base.version ++
    littleEndian 4 header.base.flags ++ littleEndian 4 header.base.timestamp ++
    littleEndian 4 header.base.size ++ littleEndian 4 header.base.hash ++
    (List.range 8).flatMap (fun i => littleEndian 1 (header.base.props.getD i 0)) ++
    littleEndian 8 header.version ++ littleEndian 8 header.seed.1 ++
    littleEndian 8 header.seed.2.1 ++ littleEndian 8 header.seed.2.2.1 ++
    littleEndian 8 header.seed.2.2.2

def HeaderFits (header : ExtendedReplayHeader) : Prop :=
  header.base.type < 256 ^ 4 ∧ header.base.version < 256 ^ 4 ∧ header.base.flags < 256 ^ 4 ∧
    header.base.timestamp < 256 ^ 4 ∧ header.base.size < 256 ^ 4 ∧ header.base.hash < 256 ^ 4 ∧
    (∀ i ∈ List.range 8, header.base.props.getD i 0 < 256 ^ 1) ∧ header.version < 256 ^ 8 ∧
    header.seed.1 < 256 ^ 8 ∧ header.seed.2.1 < 256 ^ 8 ∧ header.seed.2.2.1 < 256 ^ 8 ∧
    header.seed.2.2.2 < 256 ^ 8

theorem writeHeader_fills (header : ExtendedReplayHeader) :
    Fills (writeHeader header) (HeaderFits header) (headerBytes header) := by
  have hprops : Fills (forM (List.range 8) (writeProp header))
      (∀ i ∈ List.range 8, header.base.props.getD i 0 < 256 ^ 1)
      ((List.range 8).flatMap (fun i => littleEndian 1 (header.base.props.getD i 0))) := by
    apply Fills.loop
    intro i
    exact Fills.putNat 1 (header.base.props.getD i 0)
  have h := (Fills.putNat 4 header.base.type).seq ((Fills.putNat 4 header.base.version).seq
    ((Fills.putNat 4 header.base.flags).seq ((Fills.putNat 4 header.base.timestamp).seq
    ((Fills.putNat 4 header.base.size).seq ((Fills.putNat 4 header.base.hash).seq (hprops.seq
    ((Fills.putNat 8 header.version).seq ((Fills.putNat 8 header.seed.1).seq
    ((Fills.putNat 8 header.seed.2.1).seq ((Fills.putNat 8 header.seed.2.2.1).seq
    (Fills.putNat 8 header.seed.2.2.2)))))))))))
  simp only [headerBytes, List.append_assoc]
  exact h

@[simp] theorem length_headerBytes (header : ExtendedReplayHeader) :
    (headerBytes header).length = 72 := by
  simp [headerBytes, List.length_flatMap]

def teamBytes (players : List ReplayPlayer) : Bytes :=
  littleEndian 4 players.length ++ players.flatMap (fun player => UTF8ToUTF16 player.name 40)

theorem writeTeam_fills (players : List ReplayPlayer) :
    Fills (writeTeam players) (players.length < 256 ^ 4) (teamBytes players) :=
  ((Fills.putNat 4 players.length).seq (.loop (fun _ => .put _) players)).congr (by simp)

def playersBytes (replay : Replay) : Bytes :=
  teamBytes replay.team0Players ++ teamBytes replay.team1Players

theorem writePlayers_fills (replay : Replay) : Fills (writePlayers replay)
    (replay.team0Players.length < 256 ^ 4 ∧ replay.team1Players.length < 256 ^ 4)
    (playersBytes replay) :=
  (writeTeam_fills _).seq (writeTeam_fills _)

def cardsBytes (codes : List Nat) : Bytes :=
  littleEndian 4 codes.length ++ codes.flatMap (littleEndian 4)

def CardsFit (codes : List Nat) : Prop :=
  codes.length < 256 ^ 4 ∧ ∀ code ∈ codes, code < 256 ^ 4

theorem writeCards_fills (codes : List Nat) :
    Fills (writeCards codes) (CardsFit codes) (cardsBytes codes) :=
  (Fills.putNat 4 codes.length).seq (.loop (fun code => .putNat 4 code) codes)

def deckBytes (player : ReplayPlayer) : Bytes := cardsBytes player.main ++ cardsBytes player.extra

theorem writeDeck_fills (player : ReplayPlayer) :
    Fills (writeDeck player) (CardsFit player.main ∧ CardsFit player.extra) (deckBytes player) :=
  (writeCards_fills _).seq (writeCards_fills _)

def decksBytes (replay : Replay) : Bytes :=
  replay.team0Players.flatMap deckBytes ++ replay.team1Players.flatMap deckBytes

theorem writeDecks_fills (replay : Replay) : Fills (writeDecks replay)
    ((∀ player ∈ replay.team0Players, CardsFit player.main ∧ CardsFit player.extra) ∧
      ∀ player ∈ replay.team1Players, CardsFit player.main ∧ CardsFit player.extra)
    (decksBytes replay) :=
  (Fills.loop writeDeck_fills _).seq (Fills.loop writeDeck_fills _)

def responseBytes (response : Bytes) : Bytes := littleEndian 1 response.length ++ response

theorem writeResponses_fills (replay : Replay) : Fills (writeResponses replay)
    (∀ response ∈ replay.responses, response.length < 256 ^ 1)
    (replay.responses.flatMap responseBytes) := by
  apply Fills.loop
  intro response
  exact ((Fills.putNat 1 response.length).seq (.put response)).congr (by simp)

def messageBytes (message : Bytes) : Bytes :=
  littleEndian 1 ((message.head?.map UInt8.toNat).getD 0) ++
    (littleEndian 4 (message.length - 1) ++ message.drop 1)

theorem head_lt (message : Bytes) : (message.head?.map UInt8.toNat).getD 0 < 256 ^ 1 := by
  cases message with
  | nil => decide
  | cons byte rest => exact byte.toNat_lt

/-- An empty message raises. -/
theorem writeMessages_fills (replay : Replay) : Fills (writeMessages replay)
    (∀ message ∈ replay.messages, message ≠ [] ∧ message.length ≤ 256 ^ 4)
    (replay.messages.flatMap messageBytes) := by
  apply Fills.loop
  intro message
  have hsize := Fills.putNumber 4 ((message.length : Int) - 1)
  have htoNat : ((message.length : Int) - 1).toNat = message.length - 1 := by omega
  rw [htoNat] at hsize
  refine ((Fills.putNat 1 _).seq (hsize.seq (.put (message.drop 1)))).congr ?_
  have hhead := head_lt message
  have hempty : message ≠ [] ↔ message.length ≠ 0 := List.length_eq_zero_iff.not.symm
  have hfits : (message.length : Int) - 1 < 256 ^ 4 ↔ message.length ≤ 256 ^ 4 := by
    norm_num
  rw [hempty, hfits]
  constructor
  · rintro ⟨_, ⟨hpos, hle⟩, _⟩
    exact ⟨by omega, hle⟩
  · rintro ⟨hne, hle⟩
    exact ⟨hhead, ⟨by omega, hle⟩, trivial⟩

def yrpBytes (replay : Replay) : Bytes :=
  littleEndian 1 231 ++ headerBytes replay.buildReplayHeader ++ playersBytes replay ++
    littleEndian 4 replay.startingLp ++ littleEndian 4 replay.startingDrawCount ++
    littleEndian 4 replay.drawCountPerTurn ++ littleEndian 8 replay.flags ++ decksBytes replay ++
    littleEndian 4 0 ++ replay.responses.flatMap responseBytes

/-- Every number of the older format fits its field. -/
structure YrpFits (replay : Replay) : Prop where
  header : HeaderFits replay.buildReplayHeader
  players : replay.team0Players.length < 256 ^ 4 ∧ replay.team1Players.length < 256 ^ 4
  startingLp : replay.startingLp < 256 ^ 4
  startingDrawCount : replay.startingDrawCount < 256 ^ 4
  drawCountPerTurn : replay.drawCountPerTurn < 256 ^ 4
  flags : replay.flags < 256 ^ 8
  decks : (∀ player ∈ replay.team0Players, CardsFit player.main ∧ CardsFit player.extra) ∧
    ∀ player ∈ replay.team1Players, CardsFit player.main ∧ CardsFit player.extra
  responses : ∀ response ∈ replay.responses, response.length < 256 ^ 1

theorem writeYrp_fills (replay : Replay) :
    Fills (writeYrp replay) (YrpFits replay) (yrpBytes replay) := by
  have h := (Fills.putNat 1 231).seq ((writeHeader_fills replay.buildReplayHeader).seq
    ((writePlayers_fills replay).seq ((Fills.putNat 4 replay.startingLp).seq
    ((Fills.putNat 4 replay.startingDrawCount).seq ((Fills.putNat 4 replay.drawCountPerTurn).seq
    ((Fills.putNat 8 replay.flags).seq ((writeDecks_fills replay).seq ((Fills.putNat 4 0).seq
    (writeResponses_fills replay)))))))))
  simp only [yrpBytes, List.append_assoc]
  refine h.congr ⟨?_, ?_⟩
  · rintro ⟨_, hheader, hplayers, hlp, hdraw, hturn, hflags, hdecks, _, hresponses⟩
    exact ⟨hheader, hplayers, hlp, hdraw, hturn, hflags, hdecks, hresponses⟩
  · rintro ⟨hheader, hplayers, hlp, hdraw, hturn, hflags, hdecks, hresponses⟩
    exact ⟨by decide, hheader, hplayers, hlp, hdraw, hturn, hflags, hdecks, by decide, hresponses⟩

def yrpxBytes (replay : Replay) : Bytes :=
  playersBytes replay ++ littleEndian 8 replay.flags ++ replay.messages.flatMap messageBytes

structure YrpxFits (replay : Replay) : Prop where
  players : replay.team0Players.length < 256 ^ 4 ∧ replay.team1Players.length < 256 ^ 4
  flags : replay.flags < 256 ^ 8
  messages : ∀ message ∈ replay.messages, message ≠ [] ∧ message.length ≤ 256 ^ 4

theorem writeYrpx_fills (replay : Replay) :
    Fills (writeYrpx replay) (YrpxFits replay) (yrpxBytes replay) := by
  have h := (writePlayers_fills replay).seq ((Fills.putNat 8 replay.flags).seq
    (writeMessages_fills replay))
  simp only [yrpxBytes, List.append_assoc]
  refine h.congr ⟨?_, ?_⟩
  · rintro ⟨hplayers, hflags, hmessages⟩
    exact ⟨hplayers, hflags, hmessages⟩
  · rintro ⟨hplayers, hflags, hmessages⟩
    exact ⟨hplayers, hflags, hmessages⟩

/-! ### As many bytes as were allocated -/

theorem length_units (bytes : Bytes) :
    (bytes.flatMap (fun byte => [byte, 0])).length = 2 * bytes.length := by
  simp [List.length_flatMap, Nat.mul_comm]

@[simp] theorem length_UTF8ToUTF16 (str : String) (length : Nat) :
    (UTF8ToUTF16 str length).length = length := by
  rw [UTF8ToUTF16, List.length_take, length_units, List.length_map, List.length_range]
  omega

theorem length_teamBytes (players : List ReplayPlayer) :
    (teamBytes players).length = 4 + 40 * players.length := by
  simp [teamBytes, List.length_flatMap]
  omega

theorem length_cardsBytes (codes : List Nat) :
    (cardsBytes codes).length = 4 + 4 * codes.length := by
  simp [cardsBytes, List.length_flatMap]
  omega

theorem length_decksBytes (players : List ReplayPlayer) :
    (players.flatMap deckBytes).length + 40 * players.length = (players.map playerSize).sum := by
  induction players with
  | nil => rfl
  | cons player players ih =>
    simp only [List.flatMap_cons, List.length_append, List.length_cons, List.map_cons,
      List.sum_cons, playerSize, deckBytes, length_cardsBytes] at ih ⊢
    omega

theorem length_yrpBytes (replay : Replay) : (yrpBytes replay).length = replay.yrpSize := by
  have hdecks0 := length_decksBytes replay.team0Players
  have hdecks1 := length_decksBytes replay.team1Players
  have hresponses : (replay.responses.flatMap responseBytes).length =
      (replay.responses.map (fun response => response.length + 1)).sum := by
    rw [List.length_flatMap]
    simp [responseBytes, Nat.add_comm]
  simp only [yrpBytes, yrpSize, yrppHeaderSize, playersBytes, decksBytes, List.length_append,
    length_littleEndian, length_headerBytes, length_teamBytes, hresponses]
  omega

/-- An empty message would take more bytes than were allocated. -/
theorem length_yrpxBytes (replay : Replay) (h : ∀ message ∈ replay.messages, message ≠ []) :
    (yrpxBytes replay).length = replay.yrpxHeaderSize := by
  have hmessages : (replay.messages.flatMap messageBytes).length =
      (replay.messages.map (fun message => message.length + 4)).sum := by
    rw [List.length_flatMap]
    congr 1
    rw [List.map_inj_left]
    intro message hmessage
    have hpos := List.length_pos_iff.mpr (h message hmessage)
    simp only [messageBytes, List.length_append, length_littleEndian, List.length_drop]
    omega
  simp only [yrpxBytes, yrpxHeaderSize, playersBytes, List.length_append, length_littleEndian,
    length_teamBytes, hmessages]
  omega

end Replay

/-! ## Decoding -/

/-- What a replay tells of its duel. Names are in UTF-8. -/
structure DecodedReplay where
  team0 : List Bytes
  team1 : List Bytes
  decks0 : List (List Nat × List Nat)
  decks1 : List (List Nat × List Nat)
  responses : List Bytes
  messages : List Bytes
  deriving DecidableEq, Repr

namespace DecodedReplay

/-- The first byte of every pair. -/
def lowBytes : Bytes → Bytes
  | low :: _ :: rest => low :: lowBytes rest
  | _ => []

/-- A name ends at the first zero or with its field. -/
def readName : Reader Bytes :=
  (fun field => (lowBytes field).takeWhile (fun byte => byte ≠ 0)) <$> takeBytes 40

def readTeam : Reader (List Bytes) := do
  let count ← number 4
  times readName count

def readTeams : Reader (List Bytes × List Bytes) := do
  let team0 ← readTeam
  let team1 ← readTeam
  return (team0, team1)

def readCards : Reader (List Nat) := do
  let count ← number 4
  times (number 4) count

def readDeck : Reader (List Nat × List Nat) := do
  let main ← readCards
  let extra ← readCards
  return (main, extra)

def readResponse : Reader Bytes := do
  let length ← number 1
  takeBytes length

def readMessage : Reader Bytes := do
  let first ← takeBytes 1
  let size ← number 4
  let rest ← takeBytes size
  return first ++ rest

/-- The older format up to its responses: the mark and the header, the players, the numbers of the
duel, the decks and the count of extra cards. -/
def readYrp : Reader (List (List Nat × List Nat) × List (List Nat × List Nat)) := do
  let _ ← takeBytes 73
  let teams ← readTeams
  let _ ← takeBytes 20
  let decks0 ← times readDeck teams.1.length
  let decks1 ← times readDeck teams.2.length
  let _ ← takeBytes 4
  return (decks0, decks1)

def readYrpx : Reader (List Bytes × List Bytes) := do
  let teams ← readTeams
  let _ ← takeBytes 8
  return teams

def decode (decompress : Bytes → Bytes) (file : Bytes) : Option DecodedReplay := do
  let (_, compressed) ← takeBytes 72 file
  let (teams, frames) ← readYrpx (decompress compressed)
  let messages ← untilEnd readMessage frames.length frames
  let yrp ← messages.getLast?
  let (decks, answers) ← readYrp yrp
  let responses ← untilEnd readResponse answers.length answers
  return { team0 := teams.1, team1 := teams.2, decks0 := decks.1, decks1 := decks.2,
           responses := responses, messages := messages.dropLast }

end DecodedReplay

namespace Replay
open DecodedReplay

/-- What should be told of a recorded duel. -/
def recorded (replay : Replay) : DecodedReplay :=
  { team0 := replay.team0Players.map (fun player => Buffer.ofUtf8 player.name)
    team1 := replay.team1Players.map (fun player => Buffer.ofUtf8 player.name)
    decks0 := replay.team0Players.map (fun player => (player.main, player.extra))
    decks1 := replay.team1Players.map (fun player => (player.main, player.extra))
    responses := replay.responses
    messages := replay.messages }

/-! ### Names -/

/-- A name takes at most twenty bytes, none of them zero. -/
def NameFits (name : String) : Prop :=
  (Buffer.ofUtf8 name).length ≤ 20 ∧ 0 ∉ Buffer.ofUtf8 name

instance (name : String) : Decidable (NameFits name) := inferInstanceAs (Decidable (_ ∧ _))

/-- What the field of a name keeps. -/
def keptName (name : String) : Bytes :=
  ((Buffer.ofUtf8 name).take 20).takeWhile (fun byte => byte ≠ 0)

theorem lowBytes_take (bytes : Bytes) (n : Nat) :
    lowBytes ((bytes.flatMap (fun byte => [byte, 0])).take (2 * n)) = bytes.take n := by
  induction bytes generalizing n with
  | nil => simp [lowBytes]
  | cons byte bytes ih =>
    cases n with
    | zero => rfl
    | succ n =>
      rw [Nat.mul_succ, List.flatMap_cons]
      exact congrArg (byte :: ·) (ih n)

theorem takeWhile_padded (bytes : Bytes) (n : Nat) :
    (((List.range n).map (fun i => bytes.getD i 0))).takeWhile (fun byte => byte ≠ 0) =
      (bytes.take n).takeWhile (fun byte => byte ≠ 0) := by
  induction bytes generalizing n with
  | nil =>
    cases n with
    | zero => rfl
    | succ n => simp [List.range_succ_eq_map]
  | cons byte bytes ih =>
    cases n with
    | zero => rfl
    | succ n =>
      rw [List.range_succ_eq_map, List.map_cons, List.map_map, List.take_succ_cons,
        List.takeWhile_cons, List.takeWhile_cons, ← ih n]
      rfl

theorem readName_reads (name : String) :
    Reads readName (UTF8ToUTF16 name 40) (keptName name) := by
  have hread := (Reads.takeBytes (length_UTF8ToUTF16 name 40)).map
    (fun field => (lowBytes field).takeWhile (fun byte => byte ≠ 0))
  have hkept : (lowBytes (UTF8ToUTF16 name 40)).takeWhile (fun byte => byte ≠ 0) =
      keptName name := by
    have hlow := lowBytes_take
      ((List.range 40).map (fun i => (Buffer.ofUtf8 name).getD i 0)) 20
    rw [UTF8ToUTF16, hlow, ← List.map_take, List.take_range]
    exact takeWhile_padded _ 20
  rwa [hkept] at hread

theorem keptName_eq_iff (name : String) : keptName name = Buffer.ofUtf8 name ↔ NameFits name := by
  constructor
  · intro h
    have hlength := congrArg List.length h
    have hle := (List.takeWhile_prefix (fun byte : UInt8 => decide (byte ≠ 0))
      (l := (Buffer.ofUtf8 name).take 20)).length_le
    rw [keptName] at hlength
    rw [hlength, List.length_take] at hle
    refine ⟨by omega, ?_⟩
    intro hzero
    rw [← h] at hzero
    simpa using List.mem_takeWhile_imp hzero
  · rintro ⟨hlength, hzero⟩
    rw [keptName, List.take_of_length_le hlength, List.takeWhile_eq_self_iff]
    intro byte hbyte
    simpa using fun h : byte = 0 => hzero (h ▸ hbyte)

/-! ### Reading what was written -/

variable {replay : Replay}

theorem readTeam_reads {players : List ReplayPlayer} (h : players.length < 256 ^ 4) :
    Reads readTeam (teamBytes players) (players.map (fun player => keptName player.name)) :=
  (Reads.number h).bind (.times (fun player _ => readName_reads player.name))

theorem readTeams_reads (h : replay.team0Players.length < 256 ^ 4)
    (h' : replay.team1Players.length < 256 ^ 4) :
    Reads readTeams (playersBytes replay)
      (replay.team0Players.map (fun player => keptName player.name),
        replay.team1Players.map (fun player => keptName player.name)) := by
  have hread := (readTeam_reads h).bind (f := fun team0 => do
    let team1 ← readTeam
    return (team0, team1)) ((readTeam_reads h').bind (.pure _))
  rwa [List.append_nil] at hread

theorem readCards_reads {codes : List Nat} (h : CardsFit codes) :
    Reads readCards (cardsBytes codes) codes := by
  have hcodes := Reads.times (f := id) (fun code hcode => Reads.number (h.2 code hcode))
  rw [List.map_id] at hcodes
  exact (Reads.number h.1).bind hcodes

theorem readDeck_reads {player : ReplayPlayer} (h : CardsFit player.main)
    (h' : CardsFit player.extra) :
    Reads readDeck (deckBytes player) (player.main, player.extra) := by
  have hread := (readCards_reads h).bind (f := fun main => do
    let extra ← readCards
    return (main, extra)) ((readCards_reads h').bind (.pure _))
  rwa [List.append_nil] at hread

theorem readResponse_reads {response : Bytes} (h : response.length < 256 ^ 1) :
    Reads readResponse (responseBytes response) response :=
  (Reads.number h).bind (.takeBytes rfl)

theorem readMessage_reads {message : Bytes} (h : message ≠ []) (h' : message.length ≤ 256 ^ 4) :
    Reads readMessage (messageBytes message) message := by
  cases message with
  | nil => exact absurd rfl h
  | cons byte rest =>
    have hbyte : littleEndian 1 byte.toNat = [byte] := by
      simp [littleEndian]
    have hrest : rest.length < 256 ^ 4 := h'
    have hread := (Reads.takeBytes (w := [byte]) rfl).bind (f := fun first => do
      let size ← number 4
      let rest ← takeBytes size
      return first ++ rest) ((Reads.number hrest).bind ((Reads.takeBytes rfl).bind (.pure _)))
    have hbytes : messageBytes (byte :: rest) = [byte] ++ (littleEndian 4 rest.length ++ rest) := by
      rw [← hbyte]
      rfl
    rw [List.append_nil] at hread
    rw [hbytes]
    exact hread

theorem responseBytes_ne_nil (response : Bytes) : responseBytes response ≠ [] := by
  simp [responseBytes, littleEndian]

theorem messageBytes_ne_nil (message : Bytes) : messageBytes message ≠ [] := by
  simp [messageBytes, littleEndian]

theorem length_le_flatMap {g : Bytes → Bytes} (h : ∀ b, g b ≠ []) (l : List Bytes) :
    l.length ≤ (l.flatMap g).length := by
  induction l with
  | nil => exact Nat.le_refl 0
  | cons b l ih =>
    have hpos := List.length_pos_iff.mpr (h b)
    rw [List.flatMap_cons, List.length_append, List.length_cons]
    omega

/-- The older format is read up to its responses. -/
theorem readYrp_reads (h : YrpFits replay) : readYrp (yrpBytes replay) =
    some ((replay.recorded.decks0, replay.recorded.decks1),
      replay.responses.flatMap responseBytes) := by
  have hmark : (littleEndian 1 231 ++ headerBytes replay.buildReplayHeader).length = 73 := by simp
  have hnumbers : (littleEndian 4 replay.startingLp ++ (littleEndian 4 replay.startingDrawCount ++
      (littleEndian 4 replay.drawCountPerTurn ++ littleEndian 8 replay.flags))).length = 20 := by
    simp
  have hteams := readTeams_reads h.players.1 h.players.2
  have hdecks0 := Reads.times (fun player hplayer =>
    readDeck_reads (h.decks.1 player hplayer).1 (h.decks.1 player hplayer).2)
  have hdecks1 := Reads.times (fun player hplayer =>
    readDeck_reads (h.decks.2 player hplayer).1 (h.decks.2 player hplayer).2)
  have hread : Reads readYrp _ (replay.recorded.decks0, replay.recorded.decks1) :=
    (Reads.takeBytes hmark).bind (hteams.bind ((Reads.takeBytes hnumbers).bind (by
      simp only [List.length_map]
      exact hdecks0.bind (hdecks1.bind ((Reads.takeBytes (length_littleEndian 4 0)).bind
        (.pure _))))))
  have hall := hread (replay.responses.flatMap responseBytes)
  simpa only [yrpBytes, decksBytes, List.append_assoc, List.append_nil, List.nil_append] using hall

theorem readYrpx_reads (h : YrpxFits replay) : readYrpx (yrpxBytes replay) =
    some ((replay.team0Players.map (fun player => keptName player.name),
      replay.team1Players.map (fun player => keptName player.name)),
        replay.messages.flatMap messageBytes) := by
  have hread : Reads readYrpx _ _ := (readTeams_reads h.players.1 h.players.2).bind
    ((Reads.takeBytes (length_littleEndian 8 replay.flags)).bind (.pure _))
  have hall := hread (replay.messages.flatMap messageBytes)
  simpa only [yrpxBytes, List.append_assoc, List.append_nil, List.nil_append] using hall

/-- The replay with the older format as its last message. -/
def withYrp (replay : Replay) : Replay := replay.addMessage (yrpBytes replay)

/-- What can be read of a file whose numbers all fitted. -/
theorem decode_file {compress decompress : Bytes → Bytes}
    (hlzma : ∀ data, decompress (compress data) = data) (header : ExtendedReplayHeader)
    (hyrp : YrpFits replay) (hyrpx : YrpxFits replay.withYrp) :
    decode decompress (headerBytes header ++ compress (yrpxBytes replay.withYrp)) =
      some { replay.recorded with
        team0 := replay.team0Players.map (fun player => keptName player.name)
        team1 := replay.team1Players.map (fun player => keptName player.name) } := by
  have hheader := Reads.takeBytes (length_headerBytes header)
    (compress (yrpxBytes replay.withYrp))
  have hmessages : untilEnd readMessage
      (replay.withYrp.messages.flatMap messageBytes).length
      (replay.withYrp.messages.flatMap messageBytes) = some replay.withYrp.messages := by
    have hread := Reads.untilEnd (f := id) (fun message hmessage =>
      readMessage_reads (hyrpx.messages message hmessage).1 (hyrpx.messages message hmessage).2)
      (fun message _ => messageBytes_ne_nil message)
      (length_le_flatMap messageBytes_ne_nil replay.withYrp.messages)
    rwa [List.map_id] at hread
  have hresponses : untilEnd readResponse (replay.responses.flatMap responseBytes).length
      (replay.responses.flatMap responseBytes) = some replay.responses := by
    have hread := Reads.untilEnd (f := id) (fun response hresponse =>
      readResponse_reads (hyrp.responses response hresponse))
      (fun response _ => responseBytes_ne_nil response)
      (length_le_flatMap responseBytes_ne_nil replay.responses)
    rwa [List.map_id] at hread
  have hlast : replay.withYrp.messages.getLast? = some (yrpBytes replay) :=
    List.getLast?_concat
  have hbefore : replay.withYrp.messages.dropLast = replay.messages := List.dropLast_concat
  simp only [decode, hheader, hlzma, readYrpx_reads hyrpx, hmessages, hlast, readYrp_reads hyrp,
    hresponses, hbefore, Bind.bind, Option.bind_some]
  rfl

/-! ### Total and faithful -/

/-- The writer does not raise and writes as many bytes as were allocated. -/
def FillsExactly (size : Nat) (write : Write) (bytes : Bytes) : Prop :=
  write (.alloc size) = .ok ⟨⟩ { size := size, written := bytes } ∧ bytes.length = size

/-- The three buffers are filled exactly, and the file tells all of the duel. -/
def Faithful (compress decompress : Bytes → Bytes) (now : Nat) (replay : Replay) : Prop :=
  ∃ yrp yrpx file, FillsExactly replay.yrpSize (writeYrp replay) yrp ∧
    FillsExactly (replay.addMessage yrp).yrpxHeaderSize (writeYrpx (replay.addMessage yrp)) yrpx ∧
    FillsExactly (72 + (compress yrpx).length)
      (writeFile (compressedHeader yrpx.length now) (compress yrpx)) file ∧
    serialize compress now replay = .ok file ∧
    decode decompress file = some replay.recorded

/-- Names and responses fit their fields, no message is empty, and every number is in range. -/
structure Recordable (now : Nat) (replay : Replay) : Prop where
  responses : ∀ response ∈ replay.responses, response.length ≤ 255
  messages : ∀ message ∈ replay.messages, message ≠ []
  names : ∀ player ∈ replay.team0Players ++ replay.team1Players, NameFits player.name
  codes : ∀ player ∈ replay.team0Players ++ replay.team1Players,
    ∀ code ∈ player.main ++ player.extra, code < 256 ^ 4
  startingLp : replay.startingLp < 256 ^ 4
  startingDrawCount : replay.startingDrawCount < 256 ^ 4
  drawCountPerTurn : replay.drawCountPerTurn < 256 ^ 4
  flags : replay.flags < 256 ^ 8
  seed : replay.seed.1 < 256 ^ 8 ∧ replay.seed.2.1 < 256 ^ 8 ∧ replay.seed.2.2.1 < 256 ^ 8 ∧
    replay.seed.2.2.2 < 256 ^ 8
  now : now < 256 ^ 4
  size : replay.yrpxHeaderSize + (replay.yrpSize + 4) < 256 ^ 4

theorem FillsExactly.fill {size : Nat} {write : Write} {bytes : Bytes}
    (h : FillsExactly size write bytes) : fill size write = .ok bytes := by
  rw [Replay.fill, h.1]
  simp [BoundedBuffer.data, h.2]

theorem fillsExactly_iff {write : Write} {ok : Prop} {bytes : Bytes} (h : Fills write ok bytes)
    (hlength : bytes.length = size) : FillsExactly size write bytes ↔ ok := by
  subst hlength
  rw [FillsExactly, h.alloc_iff]
  simp

theorem FillsExactly.ok {size : Nat} {write : Write} {ok : Prop} {bytes bytes' : Bytes}
    (h : Fills write ok bytes) (h' : FillsExactly size write bytes') : ok := by
  by_contra hok
  obtain ⟨e, buffer, hraises⟩ := h.raises hok (.alloc size)
  rw [h'.1] at hraises
  cases hraises

theorem FillsExactly.eq {size : Nat} {write : Write} {ok : Prop} {bytes bytes' : Bytes}
    (h : Fills write ok bytes) (hlength : bytes.length = size)
    (h' : FillsExactly size write bytes') : bytes' = bytes := by
  have hwrites := ((fillsExactly_iff h hlength).mpr (h'.ok h)).1
  rw [h'.1] at hwrites
  simpa using hwrites

theorem writeFile_fills (header : ExtendedReplayHeader) (compressedData : Bytes) :
    Fills (writeFile header compressedData) (HeaderFits header)
      (headerBytes header ++ compressedData) :=
  ((writeHeader_fills header).seq (.put compressedData)).congr (by simp)

theorem compressedHeader_fits {size now : Nat} :
    HeaderFits (compressedHeader size now) ↔ now < 256 ^ 4 ∧ size < 256 ^ 4 := by
  constructor
  · rintro ⟨_, _, _, hnow, hsize, _⟩
    exact ⟨hnow, hsize⟩
  · rintro ⟨hnow, hsize⟩
    have htype : REPLAY_YRPX < 256 ^ 4 := by decide
    have hversion : 655656 < 256 ^ 4 := by decide
    have hflags : (REPLAY_LUA64 ||| REPLAY_64BIT_DUELFLAG ||| REPLAY_NEWREPLAY |||
        REPLAY_EXTENDED_HEADER) ||| REPLAY_COMPRESSED < 256 ^ 4 := by decide
    have hprops : ∀ i ∈ List.range 8, [93, 0, 0, 0, 1, 0, 0, 0].getD i 0 < 256 ^ 1 := by decide
    have hzero : 0 < 256 ^ 4 := by decide
    have hseed : 0 < 256 ^ 8 := by decide
    have hone : 1 < 256 ^ 8 := by decide
    exact ⟨htype, hversion, hflags, hnow, hsize, hzero, hprops, hone, hseed, hseed, hseed, hseed⟩

theorem buildReplayHeader_fits (hsize : replay.yrppHeaderSize < 256 ^ 4)
    (hseed : replay.seed.1 < 256 ^ 8 ∧ replay.seed.2.1 < 256 ^ 8 ∧ replay.seed.2.2.1 < 256 ^ 8 ∧
      replay.seed.2.2.2 < 256 ^ 8) :
    HeaderFits replay.buildReplayHeader := by
  have htype : REPLAY_YRP1 < 256 ^ 4 := by decide
  have hversion : 655656 < 256 ^ 4 := by decide
  have hflags : REPLAY_LUA64 ||| REPLAY_64BIT_DUELFLAG ||| REPLAY_NEWREPLAY |||
      REPLAY_EXTENDED_HEADER < 256 ^ 4 := by decide
  have hprops : ∀ i ∈ List.range 8, ([] : List Nat).getD i 0 < 256 ^ 1 := by decide
  have hzero : 0 < 256 ^ 4 := by decide
  have hone : 1 < 256 ^ 8 := by decide
  exact ⟨htype, hversion, hflags, hzero, hsize, hzero, hprops, hone, hseed⟩

theorem withYrp_size (replay : Replay) :
    replay.withYrp.yrpxHeaderSize = replay.yrpxHeaderSize + (replay.yrpSize + 4) := by
  have h0 : replay.withYrp.team0Players = replay.team0Players := rfl
  have h1 : replay.withYrp.team1Players = replay.team1Players := rfl
  have hmessages : replay.withYrp.messages = replay.messages ++ [yrpBytes replay] := rfl
  simp only [yrpxHeaderSize, h0, h1, hmessages, List.map_append, List.map_cons, List.map_nil,
    List.sum_append, List.sum_cons, List.sum_nil, length_yrpBytes]
  omega

theorem yrpBytes_ne_nil (replay : Replay) : yrpBytes replay ≠ [] := by
  apply List.ne_nil_of_length_pos
  rw [length_yrpBytes, yrpSize]
  omega

/-! ### When every number fits -/

theorem playerSize_le {player : ReplayPlayer}
    (h : player ∈ replay.team0Players ++ replay.team1Players) :
    playerSize player ≤ replay.yrppHeaderSize := by
  simp only [yrppHeaderSize]
  rcases List.mem_append.mp h with h | h
  · have hle := List.le_sum_of_mem (List.mem_map_of_mem (f := playerSize) h)
    omega
  · have hle := List.le_sum_of_mem (List.mem_map_of_mem (f := playerSize) h)
    omega

namespace Recordable

variable {now : Nat}

theorem cardsFit (h : Recordable now replay) {player : ReplayPlayer}
    (hplayer : player ∈ replay.team0Players ++ replay.team1Players) :
    CardsFit player.main ∧ CardsFit player.extra := by
  have hsize := h.size
  have hle := playerSize_le hplayer
  simp only [playerSize] at hle
  simp only [yrpSize] at hsize
  have hcodes := h.codes player hplayer
  refine ⟨⟨by omega, ?_⟩, by omega, ?_⟩
  · intro code hcode
    exact hcodes code (List.mem_append_left _ hcode)
  · intro code hcode
    exact hcodes code (List.mem_append_right _ hcode)

theorem teamsFit (h : Recordable now replay) :
    replay.team0Players.length < 256 ^ 4 ∧ replay.team1Players.length < 256 ^ 4 := by
  have hsize := h.size
  simp only [yrpxHeaderSize] at hsize
  omega

theorem yrp (h : Recordable now replay) : YrpFits replay where
  header := by
    have hsize := h.size
    simp only [yrpSize] at hsize
    exact buildReplayHeader_fits (by omega) h.seed
  players := h.teamsFit
  startingLp := h.startingLp
  startingDrawCount := h.startingDrawCount
  drawCountPerTurn := h.drawCountPerTurn
  flags := h.flags
  decks := by
    constructor
    · intro player hplayer
      exact h.cardsFit (List.mem_append_left _ hplayer)
    · intro player hplayer
      exact h.cardsFit (List.mem_append_right _ hplayer)
  responses := by
    intro response hresponse
    have hle := h.responses response hresponse
    omega

theorem yrpx (h : Recordable now replay) : YrpxFits replay.withYrp where
  players := h.teamsFit
  flags := h.flags
  messages := by
    intro message hmessage
    have hsize := h.size
    rcases List.mem_append.mp hmessage with hmessage | hmessage
    · have hle := List.le_sum_of_mem
        (List.mem_map_of_mem (f := fun message : Bytes => message.length + 4) hmessage)
      simp only [yrpxHeaderSize] at hsize
      exact ⟨h.messages message hmessage, by omega⟩
    · rw [List.mem_singleton.mp hmessage, length_yrpBytes]
      exact ⟨yrpBytes_ne_nil replay, by omega⟩

end Recordable

/-! ### Serializing -/

theorem names_fit_iff {players : List ReplayPlayer} :
    players.map (fun player => keptName player.name) =
      players.map (fun player => Buffer.ofUtf8 player.name) ↔
        ∀ player ∈ players, NameFits player.name := by
  rw [List.map_inj_left]
  constructor
  · intro h player hplayer
    exact (keptName_eq_iff player.name).mp (h player hplayer)
  · intro h player hplayer
    exact (keptName_eq_iff player.name).mpr (h player hplayer)

section

variable {compress decompress : Bytes → Bytes} {now : Nat}

theorem YrpxFits.length (h : YrpxFits replay.withYrp) :
    (yrpxBytes replay.withYrp).length = replay.yrpxHeaderSize + (replay.yrpSize + 4) := by
  rw [length_yrpxBytes _ (fun message hmessage => (h.messages message hmessage).1), withYrp_size]

theorem serialize_of_fill {yrp yrpx file : Bytes}
    (hyrp : fill replay.yrpSize (writeYrp replay) = .ok yrp)
    (hyrpx : fill (replay.addMessage yrp).yrpxHeaderSize (writeYrpx (replay.addMessage yrp)) =
      .ok yrpx)
    (hfile : fill (72 + (compress yrpx).length)
      (writeFile (compressedHeader yrpx.length now) (compress yrpx)) = .ok file) :
    serialize compress now replay = .ok file := by
  rw [serialize, hyrp, ok_bind]
  dsimp only
  rw [hyrpx, ok_bind]
  exact hfile

theorem faithful_of_recordable (hlzma : ∀ data, decompress (compress data) = data)
    (h : Recordable now replay) : Faithful compress decompress now replay := by
  have hlength := h.yrpx.length
  have hyrp : FillsExactly replay.yrpSize (writeYrp replay) (yrpBytes replay) :=
    (fillsExactly_iff (writeYrp_fills replay) (length_yrpBytes replay)).mpr h.yrp
  have hyrpx : FillsExactly replay.withYrp.yrpxHeaderSize (writeYrpx replay.withYrp)
      (yrpxBytes replay.withYrp) :=
    (fillsExactly_iff (writeYrpx_fills _) (by rw [hlength, withYrp_size])).mpr h.yrpx
  have hheader : HeaderFits (compressedHeader (yrpxBytes replay.withYrp).length now) := by
    rw [compressedHeader_fits, hlength]
    exact ⟨h.now, h.size⟩
  have hfile := (fillsExactly_iff (writeFile_fills _ (compress (yrpxBytes replay.withYrp)))
    (by rw [List.length_append, length_headerBytes])).mpr hheader
  refine ⟨_, _, _, hyrp, hyrpx, hfile, serialize_of_fill hyrp.fill hyrpx.fill hfile.fill, ?_⟩
  · have hnames0 := names_fit_iff.mpr
      (fun player hplayer => h.names player (List.mem_append_left _ hplayer))
    have hnames1 := names_fit_iff.mpr
      (fun player hplayer => h.names player (List.mem_append_right _ hplayer))
    rw [decode_file hlzma _ h.yrp h.yrpx, hnames0, hnames1]
    rfl

theorem recordable_of_faithful (hlzma : ∀ data, decompress (compress data) = data)
    (h : Faithful compress decompress now replay) : Recordable now replay := by
  obtain ⟨yrp, yrpx, file, hyrp, hyrpx, hfile, _, hdecode⟩ := h
  obtain rfl := hyrp.eq (writeYrp_fills replay) (length_yrpBytes replay)
  have hfits := hyrp.ok (writeYrp_fills replay)
  change FillsExactly replay.withYrp.yrpxHeaderSize (writeYrpx replay.withYrp) yrpx at hyrpx
  have hfitsx : YrpxFits replay.withYrp := hyrpx.ok (writeYrpx_fills _)
  have hlength := hfitsx.length
  rw [withYrp_size] at hyrpx
  obtain rfl := hyrpx.eq (writeYrpx_fills replay.withYrp) hlength
  have hheader := compressedHeader_fits.mp (hfile.ok (writeFile_fills _ _))
  obtain rfl := hfile.eq (writeFile_fills _ _) (by rw [List.length_append, length_headerBytes])
  rw [decode_file hlzma _ hfits hfitsx, Option.some_inj] at hdecode
  have hnames0 := names_fit_iff.mp (congrArg DecodedReplay.team0 hdecode)
  have hnames1 := names_fit_iff.mp (congrArg DecodedReplay.team1 hdecode)
  rw [hlength] at hheader
  refine
    { responses := ?_, messages := ?_, names := ?_, codes := ?_, startingLp := hfits.startingLp,
      startingDrawCount := hfits.startingDrawCount, drawCountPerTurn := hfits.drawCountPerTurn,
      flags := hfits.flags, seed := ?_, now := hheader.1, size := hheader.2 }
  · intro response hresponse
    have hlt := hfits.responses response hresponse
    omega
  · intro message hmessage
    exact (hfitsx.messages message (List.mem_append_left _ hmessage)).1
  · intro player hplayer
    rcases List.mem_append.mp hplayer with hplayer | hplayer
    · exact hnames0 player hplayer
    · exact hnames1 player hplayer
  · intro player hplayer code hcode
    have hcards : CardsFit player.main ∧ CardsFit player.extra := by
      rcases List.mem_append.mp hplayer with hplayer | hplayer
      · exact hfits.decks.1 player hplayer
      · exact hfits.decks.2 player hplayer
    rcases List.mem_append.mp hcode with hcode | hcode
    · exact hcards.1.2 code hcode
    · exact hcards.2.2 code hcode
  · obtain ⟨_, _, _, _, _, _, _, _, hseed⟩ := hfits.header
    exact hseed

end

/-- Both players answer once, and the core sends one message. -/
def shortDuel : Replay :=
  { seed := (1, 2, 3, 4), messages := [[4, 0]], responses := [[1], [0, 0, 0, 0]],
    players := [{ name := "Yugi", team := .player, main := [46986414], extra := [] },
      { name := "Kaiba", team := .opponent, main := [89631139], extra := [23995346] }],
    startingLp := 8000, startingDrawCount := 5, drawCountPerTurn := 1, flags := 0x2e800 }

/-- A response of 256 bytes. -/
def longResponse : Bytes := List.replicate 256 0

end Replay

end EdoproServer.Edopro
