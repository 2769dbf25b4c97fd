import EdoproServer.Lib.Base64
import EdoproServer.Lib.JsonText
import EdoproServer.Lib.Utf8
import EdoproServer.Room.EvrpFrames

namespace EdoproServer.Room.EvrpSerializer
open Lib
open Double (Whole)
open Utf16 (units)
open JsonText (Value)

/-! ## The record of a duel -/

/-- What the messages of the core are to the server. -/
structure MessageCodec (Message : Type) where
  isResponse : Message → Bool
  isWin : Message → Bool
  isStart : Message → Bool
  /-- Whether observers are among those a message is sent to. -/
  isForObserver : Message → Bool
  withPlayerType : Nat → Message → Message
  win : Nat → Whole → Message
  /-- The bytes of a message in its game message. -/
  toFullPayload : Message → Bytes

/-- A duel as it was recorded, without its decks and the answers of its players. -/
structure DuelRecord (Message Date : Type) where
  seed : List Whole
  isSwapped : Bool
  startTime : Date
  endTime : Option Date
  winPosition : Option Whole
  winReason : Option Whole
  messages : List Message

structure PlaybackOptions where
  includeResponse : Bool := false
  includeNonObserver : Bool := false
  msgStartPos : Option Nat := none

namespace DuelRecord

variable {Message Date : Type} (codec : MessageCodec Message) (record : DuelRecord Message Date)

/-- The win message of a duel that position 0 or 1 won for a known reason. -/
def resolveObserverWinMsg : Option Message :=
  match record.winPosition, record.winReason with
  | some winPosition, some winReason =>
    if winPosition.value = 0 ∨ winPosition.value = 1 then
      let player := if record.isSwapped then 1 - winPosition.value else winPosition.value
      some (codec.win player.toNat winReason)
    else none
  | _, _ => none

/-- What was played back so far, and the first win message met. -/
structure Playback (Message : Type) where
  yielded : List Message
  recordedWinMsg : Option Message

def playbackStep (cb : Message → Option Message) (options : PlaybackOptions)
    (playback : Playback Message) (message : Message) : Playback Message :=
  if codec.isResponse message && !options.includeResponse then playback
  else if codec.isWin message then
    { playback with recordedWinMsg := playback.recordedWinMsg.or (some message) }
  else if !options.includeNonObserver && !codec.isForObserver message then playback
  else
    let message := match options.msgStartPos with
      | some position =>
        if codec.isStart message then codec.withPlayerType position message else message
      | none => message
    match cb message with
    | none => playback
    | some mappedMsg => { playback with yielded := playback.yielded ++ [mappedMsg] }

def toPlayback (cb : Message → Option Message) (options : PlaybackOptions) : List Message :=
  let playback := record.messages.foldl (playbackStep codec cb options)
    { yielded := [], recordedWinMsg := none }
  playback.yielded ++
    ((record.resolveObserverWinMsg codec).or playback.recordedWinMsg).toList

def toEvrpFrames : List (List Char) :=
  (record.toPlayback codec some { includeNonObserver := true }).map fun stocMsg =>
    Base64.encode (codec.toFullPayload stocMsg)

/-- The messages of a replay: no prompts, and the win message last, the one of the duel's result
before a recorded one. -/
def exportedMessages : List Message :=
  record.messages.filter (fun message => !codec.isResponse message && !codec.isWin message) ++
    ((record.resolveObserverWinMsg codec).or
      (record.messages.find? fun message =>
        !codec.isResponse message && codec.isWin message)).toList

theorem foldl_playbackStep (messages : List Message) (playback : Playback Message) :
    messages.foldl (playbackStep codec some { includeNonObserver := true }) playback =
      { yielded := playback.yielded ++
          messages.filter (fun message => !codec.isResponse message && !codec.isWin message)
        recordedWinMsg := playback.recordedWinMsg.or
          (messages.find? fun message => !codec.isResponse message && codec.isWin message) } := by
  induction messages generalizing playback with
  | nil => simp
  | cons message messages ih =>
    rw [List.foldl_cons, ih]
    cases hresponse : codec.isResponse message with
    | true => simp [playbackStep, hresponse]
    | false =>
      cases hwin : codec.isWin message with
      | true =>
        simp [playbackStep, hresponse, hwin]
      | false => simp [playbackStep, hresponse, hwin]

theorem toPlayback_eq_exported :
    record.toPlayback codec some { includeNonObserver := true } =
      record.exportedMessages codec := by
  simp only [toPlayback, foldl_playbackStep, List.nil_append, Option.none_or]
  rfl

end DuelRecord

/-! ## The envelope of a match -/

/-- A number of a host info. -/
inductive HostNumber where
  | finite (value : Whole)
  | notFinite

structure EvrpRoomContext where
  /-- The names of the players. -/
  players : List Utf16
  /-- The members of the host info. -/
  hostInfo : List (Utf16 × HostNumber)

def whole (value : Nat) (h : Double.ofNat value = some value) : Value :=
  .number { value := value, exact := h }

/-- A number that is not finite is written as null. -/
def HostNumber.toValue : HostNumber → Value
  | finite value => .number value
  | notFinite => .null

/-- A member that is left out when it is undefined. -/
def optional (name : String) (value : Option Value) : List (Utf16 × Value) :=
  (value.map fun value => (units name, value)).toList

def textValue (text : List Char) : Value := .string (text.map Utf16.unit)

section Serialize

variable {Message Date : Type} (codec : MessageCodec Message) (toISOString : Date → Utf16)

def duelValue (rec : DuelRecord Message Date) : Value :=
  .object (
    [(units "seed", .array (rec.seed.map .number)),
      (units "startTime", .string (toISOString rec.startTime))] ++
    optional "endTime" (rec.endTime.map fun endTime => .string (toISOString endTime)) ++
    optional "winPosition" (rec.winPosition.map .number) ++
    optional "winReason" (rec.winReason.map .number) ++
    [(units "frames", .array ((rec.toEvrpFrames codec).map textValue))])

/-- When the first duel started, and when the last one ended, or else now. -/
def metaTimes (now : Date) (records : List (DuelRecord Message Date)) : Date × Date :=
  ((records.head?.map DuelRecord.startTime).getD now,
    (records.getLast?.bind DuelRecord.endTime).getD now)

def metaValue (now : Date) (room : EvrpRoomContext) (records : List (DuelRecord Message Date)) :
    Value :=
  .object
    [(units "players", .array (room.players.map fun name => .object [(units "name", .string name)])),
      (units "hostInfo", .object (room.hostInfo.map fun member =>
        (member.1, member.2.toValue))),
      (units "startTime", .string (toISOString (metaTimes now records).1)),
      (units "endTime", .string (toISOString (metaTimes now records).2))]

def envelope (now : Date) (room : EvrpRoomContext) (records : List (DuelRecord Message Date)) :
    Value :=
  .object
    [(units "version", whole EVRP_VERSION (Double.ofNat_exact (by decide))),
      (units "meta", metaValue toISOString now room records),
      (units "duels", .array (records.map (duelValue codec toISOString)))]

def serialize (gzipSync : Bytes → Bytes) (now : Date) (room : EvrpRoomContext)
    (records : List (DuelRecord Message Date)) : Bytes :=
  gzipSync (Utf8.encode (JsonText.stringify (envelope codec toISOString now room records)))

end Serialize

/-! ## A replay as it is read -/

structure ReplayDuel (Message : Type) where
  seed : List Whole
  startTime : Utf16
  endTime : Option Utf16
  winPosition : Option Whole
  winReason : Option Whole
  messages : List Message

structure Replay (Message : Type) where
  version : Whole
  players : List Utf16
  /-- The host info; none stands for null. -/
  hostInfo : List (Utf16 × Option Whole)
  startTime : Utf16
  endTime : Utf16
  duels : List (ReplayDuel Message)

/-- The member of a name. -/
def member (name : String) : Value → Option Value
  | .object members => (members.find? fun entry => entry.1 = units name).map Prod.snd
  | _ => none

def asNumber : Value → Option Whole
  | .number value => some value
  | _ => none

def asString : Value → Option Utf16
  | .string text => some text
  | _ => none

def asArray : Value → Option (List Value)
  | .array elements => some elements
  | _ => none

@[simp] theorem asNumber_number (value : Whole) : asNumber (.number value) = some value := rfl

@[simp] theorem asString_string (text : Utf16) : asString (.string text) = some text := rfl

@[simp] theorem asArray_array (elements : List Value) :
    asArray (.array elements) = some elements := rfl

/-- A number or null. -/
def asHostNumber : Value → Option (Option Whole)
  | .number value => some (some value)
  | .null => some none
  | _ => none

/-- A member that may be missing. -/
def optionalMember {α : Type} (read : Value → Option α) (name : String) (value : Value) :
    Option (Option α) :=
  match member name value with
  | none => some none
  | some found => (read found).map some

section Read

variable {Message : Type} (decodeMessage : Bytes → Option Message)

def readFrame (value : Value) : Option Message := do
  let text ← asString value
  let bytes ← Base64.decode (text.map fun u => Char.ofNat u.toNat)
  decodeMessage bytes

def readDuel (value : Value) : Option (ReplayDuel Message) := do
  let seed ← (← asArray (← member "seed" value)).mapM asNumber
  let startTime ← asString (← member "startTime" value)
  let endTime ← optionalMember asString "endTime" value
  let winPosition ← optionalMember asNumber "winPosition" value
  let winReason ← optionalMember asNumber "winReason" value
  let messages ← (← asArray (← member "frames" value)).mapM (readFrame decodeMessage)
  return { seed := seed, startTime := startTime, endTime := endTime, winPosition := winPosition,
           winReason := winReason, messages := messages }

def readPlayer (player : Value) : Option Utf16 := do asString (← member "name" player)

def readHostInfo : Value → Option (List (Utf16 × Option Whole))
  | .object members => members.mapM fun entry => do return (entry.1, ← asHostNumber entry.2)
  | _ => none

def readEnvelope (value : Value) : Option (Replay Message) := do
  let version ← asNumber (← member "version" value)
  let about ← member "meta" value
  let players ← (← asArray (← member "players" about)).mapM readPlayer
  let hostInfo ← readHostInfo (← member "hostInfo" about)
  let startTime ← asString (← member "startTime" about)
  let endTime ← asString (← member "endTime" about)
  let duels ← (← asArray (← member "duels" value)).mapM (readDuel decodeMessage)
  return { version := version, players := players, hostInfo := hostInfo, startTime := startTime,
           endTime := endTime, duels := duels }

/-- The frames put together, decompressed and decoded. -/
def readReplay (gunzipSync : Bytes → Bytes) (frames : List Bytes) : Option (Replay Message) := do
  readEnvelope decodeMessage (← JsonText.parse (Utf8.decode (gunzipSync (reassemble frames))))

end Read

/-! ## The replay of a match -/

def HostNumber.read : HostNumber → Option Whole
  | finite value => some value
  | notFinite => none

section Recorded

variable {Message Date : Type} (codec : MessageCodec Message) (toISOString : Date → Utf16)

def replayDuel (rec : DuelRecord Message Date) : ReplayDuel Message where
  seed := rec.seed
  startTime := toISOString rec.startTime
  endTime := rec.endTime.map toISOString
  winPosition := rec.winPosition
  winReason := rec.winReason
  messages := rec.exportedMessages codec

/-- What was recorded of a match: its header, with null for the numbers that are not finite, and
the messages of its duels. -/
def replayOf (now : Date) (room : EvrpRoomContext) (records : List (DuelRecord Message Date)) :
    Replay Message where
  version := { value := EVRP_VERSION, exact := Double.ofNat_exact (by decide) }
  players := room.players
  hostInfo := room.hostInfo.map fun member => (member.1, member.2.read)
  startTime := toISOString (metaTimes now records).1
  endTime := toISOString (metaTimes now records).2
  duels := records.map (replayDuel codec toISOString)

end Recorded

/-! ## Reading what was written -/

theorem mapM_map {α β γ : Type} {read : β → Option γ} {write : α → β} {meaning : α → γ}
    {items : List α} (h : ∀ item ∈ items, read (write item) = some (meaning item)) :
    (items.map write).mapM read = some (items.map meaning) := by
  induction items with
  | nil => rfl
  | cons item items ih =>
    rw [List.map_cons, List.mapM_cons, h item List.mem_cons_self,
      ih (fun other hother => h other (List.mem_cons_of_mem _ hother))]
    rfl

/-- The case that reading gives back what was written. -/
theorem mapM_write {α β : Type} {read : β → Option α} {write : α → β} {items : List α}
    (h : ∀ item ∈ items, read (write item) = some item) :
    (items.map write).mapM read = some items := by
  rw [mapM_map h, List.map_id']

theorem letter_ascii : ∀ n < 64, (Base64.letter n).toNat < 128 := by decide

/-- The letters of bytes are of the first 128 characters. -/
theorem encode_ascii (bytes : Bytes) : ∀ c ∈ Base64.encode bytes, c.toNat < 128 := by
  have hfilling : '='.toNat < 128 := by decide
  induction bytes using Base64.encode.induct with
  | case1 => simp [Base64.encode]
  | case2 a =>
    have ha := a.toNat_lt
    simp only [Base64.encode, List.forall_mem_cons]
    exact ⟨letter_ascii _ (by omega), letter_ascii _ (by omega), hfilling, hfilling, by simp⟩
  | case3 a b =>
    have ha := a.toNat_lt
    have hb := b.toNat_lt
    simp only [Base64.encode, List.forall_mem_cons]
    exact ⟨letter_ascii _ (by omega), letter_ascii _ (by omega), letter_ascii _ (by omega),
      hfilling, by simp⟩
  | case4 a b c rest ih =>
    have ha := a.toNat_lt
    have hb := b.toNat_lt
    have hc := c.toNat_lt
    simp only [Base64.encode, List.forall_mem_cons]
    exact ⟨letter_ascii _ (by omega), letter_ascii _ (by omega), letter_ascii _ (by omega),
      letter_ascii _ (by omega), ih⟩

theorem map_unit_map (text : List Char) (h : ∀ c ∈ text, c.toNat < 128) :
    (text.map Utf16.unit).map (fun u => Char.ofNat u.toNat) = text := by
  rw [List.map_map]
  conv_rhs => rw [← List.map_id text]
  apply List.map_congr_left
  intro c hc
  have hlt := h c hc
  have hunit : (Utf16.unit c).toNat = c.toNat := by
    rw [Utf16.unit, UInt16.toNat_ofNat']
    omega
  rw [Function.comp_apply, hunit, Char.ofNat_toNat, id]

theorem find?_optional_self (name : String) (value : Option Value) :
    (optional name value).find? (fun entry => entry.1 = units name) =
      value.map fun value => (units name, value) := by
  cases value <;> simp [optional]

theorem find?_optional_ne {name other : String} (h : units name ≠ units other)
    (value : Option Value) :
    (optional name value).find? (fun entry => entry.1 = units other) = none := by
  cases value <;> simp [optional, h]

/-- A member that may be missing is read as what was written, or as nothing. -/
theorem optionalMember_eq {α β : Type} {read : Value → Option α} {write : β → Value}
    (meaning : β → α) {name : String} {value : Value} {stored : Option β}
    (h : member name value = stored.map write)
    (hread : ∀ item, read (write item) = some (meaning item)) :
    optionalMember read name value = some (stored.map meaning) := by
  rw [optionalMember, h]
  cases stored with
  | none => rfl
  | some item =>
    rw [Option.map_some]
    dsimp only
    rw [hread, Option.map_some, Option.map_some]

section Read

variable {Message Date : Type} {codec : MessageCodec Message} {toISOString : Date → Utf16}
  {decodeMessage : Bytes → Option Message}

theorem readFrame_textValue {message : Message}
    (h : decodeMessage (codec.toFullPayload message) = some message) :
    readFrame decodeMessage (textValue (Base64.encode (codec.toFullPayload message))) =
      some message := by
  simp only [readFrame, textValue, asString, Option.bind_eq_bind, Option.bind_some,
    map_unit_map _ (encode_ascii _), Base64.decode_encode, h]

theorem readFrames_toEvrpFrames {rec : DuelRecord Message Date}
    (hcodec : ∀ message ∈ rec.exportedMessages codec,
      decodeMessage (codec.toFullPayload message) = some message) :
    ((rec.toEvrpFrames codec).map textValue).mapM (readFrame decodeMessage) =
      some (rec.exportedMessages codec) := by
  rw [DuelRecord.toEvrpFrames, DuelRecord.toPlayback_eq_exported, List.map_map]
  exact mapM_write fun message hmem => readFrame_textValue (hcodec message hmem)

theorem readDuel_duelValue {rec : DuelRecord Message Date}
    (hcodec : ∀ message ∈ rec.exportedMessages codec,
      decodeMessage (codec.toFullPayload message) = some message) :
    readDuel decodeMessage (duelValue codec toISOString rec) =
      some (replayDuel codec toISOString rec) := by
  have hseed : member "seed" (duelValue codec toISOString rec) =
      some (.array (rec.seed.map .number)) := by
    simp +decide [member, duelValue]
  have hstart : member "startTime" (duelValue codec toISOString rec) =
      some (.string (toISOString rec.startTime)) := by
    simp +decide [member, duelValue]
  have hend : member "endTime" (duelValue codec toISOString rec) =
      rec.endTime.map fun endTime => .string (toISOString endTime) := by
    simp +decide [member, duelValue, List.find?_append, find?_optional_self, find?_optional_ne]
    rfl
  have hposition : member "winPosition" (duelValue codec toISOString rec) =
      rec.winPosition.map .number := by
    simp +decide [member, duelValue, List.find?_append, find?_optional_self, find?_optional_ne]
    rfl
  have hreason : member "winReason" (duelValue codec toISOString rec) =
      rec.winReason.map .number := by
    simp +decide [member, duelValue, List.find?_append, find?_optional_self, find?_optional_ne]
    rfl
  have hframes : member "frames" (duelValue codec toISOString rec) =
      some (.array ((rec.toEvrpFrames codec).map textValue)) := by
    simp +decide [member, duelValue, List.find?_append, find?_optional_ne]
  have hseeds : (rec.seed.map Value.number).mapM asNumber = some rec.seed :=
    mapM_write fun _ _ => rfl
  have hendTime : optionalMember asString "endTime" (duelValue codec toISOString rec) =
      some (rec.endTime.map toISOString) := optionalMember_eq toISOString hend fun _ => rfl
  have hwinPosition : optionalMember asNumber "winPosition" (duelValue codec toISOString rec) =
      some (rec.winPosition.map id) := optionalMember_eq id hposition fun _ => rfl
  have hwinReason : optionalMember asNumber "winReason" (duelValue codec toISOString rec) =
      some (rec.winReason.map id) := optionalMember_eq id hreason fun _ => rfl
  rw [Option.map_id] at hwinPosition hwinReason
  simp only [readDuel, hseed, hstart, hframes, asArray_array, asString_string,
    Option.bind_eq_bind, Option.bind_some, hseeds, readFrames_toEvrpFrames hcodec, hendTime,
    hwinPosition, hwinReason]
  rfl

theorem readHostInfo_toValue (hostInfo : List (Utf16 × HostNumber)) :
    readHostInfo (.object (hostInfo.map fun member => (member.1, member.2.toValue))) =
      some (hostInfo.map fun member => (member.1, member.2.read)) := by
  apply mapM_map
  intro member _
  obtain ⟨name, number⟩ := member
  cases number with
  | finite value => rfl
  | notFinite => rfl

variable {now : Date} {room : EvrpRoomContext} {records : List (DuelRecord Message Date)}

theorem readEnvelope_envelope
    (hcodec : ∀ rec ∈ records, ∀ message ∈ rec.exportedMessages codec,
      decodeMessage (codec.toFullPayload message) = some message) :
    readEnvelope decodeMessage (envelope codec toISOString now room records) =
      some (replayOf codec toISOString now room records) := by
  have hversion : member "version" (envelope codec toISOString now room records) =
      some (whole EVRP_VERSION (Double.ofNat_exact (by decide))) := by
    simp +decide [member, envelope]
  have hmeta : member "meta" (envelope codec toISOString now room records) =
      some (metaValue toISOString now room records) := by
    simp +decide [member, envelope]
  have hduels : member "duels" (envelope codec toISOString now room records) =
      some (.array (records.map (duelValue codec toISOString))) := by
    simp +decide [member, envelope]
  have hplayers : member "players" (metaValue toISOString now room records) =
      some (.array (room.players.map fun name => .object [(units "name", .string name)])) := by
    simp +decide [member, metaValue]
  have hhost : member "hostInfo" (metaValue toISOString now room records) =
      some (.object (room.hostInfo.map fun member => (member.1, member.2.toValue))) := by
    simp +decide [member, metaValue]
  have hstart : member "startTime" (metaValue toISOString now room records) =
      some (.string (toISOString (metaTimes now records).1)) := by
    simp +decide [member, metaValue]
  have hend : member "endTime" (metaValue toISOString now room records) =
      some (.string (toISOString (metaTimes now records).2)) := by
    simp +decide [member, metaValue]
  have hreadDuels : (records.map (duelValue codec toISOString)).mapM (readDuel decodeMessage) =
      some (records.map (replayDuel codec toISOString)) :=
    mapM_map fun rec hrec => readDuel_duelValue (hcodec rec hrec)
  have hreadPlayers : (room.players.map fun name =>
      Value.object [(units "name", .string name)]).mapM readPlayer = some room.players :=
    mapM_write fun _ _ => by simp [readPlayer, member]
  simp only [readEnvelope, hversion, hmeta, hduels, hplayers, hhost, hstart, hend, whole,
    asNumber_number, asString_string, asArray_array, Option.bind_eq_bind, Option.bind_some,
    hreadDuels, hreadPlayers, readHostInfo_toValue]
  rfl

/-- A replay that reached a client whole is read as what was recorded. -/
theorem readReplay_toFrames {gzipSync gunzipSync : Bytes → Bytes}
    (hzip : ∀ bytes, gunzipSync (gzipSync bytes) = bytes)
    (hcodec : ∀ rec ∈ records, ∀ message ∈ rec.exportedMessages codec,
      decodeMessage (codec.toFullPayload message) = some message)
    (hsize : (serialize codec toISOString gzipSync now room records).length ≤
      MAX_CHUNKS * EVRP_CHUNK_BYTES)
    {received : List Bytes}
    (hperm : received.Perm (toFrames (serialize codec toISOString gzipSync now room records))) :
    readReplay decodeMessage gunzipSync received =
      some (replayOf codec toISOString now room records) := by
  rw [readReplay, reassemble_toFrames hsize hperm, serialize, hzip, Utf8.decode_encode,
    JsonText.parse_stringify]
  exact readEnvelope_envelope hcodec

end Read

/-- The frames of a compressed replay carry it over the wire and give it back, in whatever order
they arrive, and decompressed and decoded they give back what was recorded. -/
theorem evrp_round_trip {Message Date : Type} (codec : MessageCodec Message)
    (decodeMessage : Bytes → Option Message) (toISOString : Date → Utf16)
    (gzipSync gunzipSync : Bytes → Bytes)
    (hzip : ∀ bytes, gunzipSync (gzipSync bytes) = bytes) :
    (∀ gz : Bytes, gz.length ≤ MAX_CHUNKS * EVRP_CHUNK_BYTES →
      Framed (toFrames gz) ∧
        ∀ received, received.Perm (toFrames gz) → reassemble received = gz) ∧
    ∀ (now : Date) (room : EvrpRoomContext) (records : List (DuelRecord Message Date)),
      (∀ rec ∈ records, ∀ message ∈ rec.exportedMessages codec,
        decodeMessage (codec.toFullPayload message) = some message) →
      (serialize codec toISOString gzipSync now room records).length ≤
        MAX_CHUNKS * EVRP_CHUNK_BYTES →
      ∀ received,
        received.Perm (toFrames (serialize codec toISOString gzipSync now room records)) →
        readReplay decodeMessage gunzipSync received =
          some (replayOf codec toISOString now room records) := by
  constructor
  · intro gz hsize
    exact ⟨framed_toFrames hsize, fun received hperm => reassemble_toFrames hsize hperm⟩
  · intro now room records hcodec hsize received hperm
    exact readReplay_toFrames hzip hcodec hsize hperm

/-! ## A match of one duel -/

/-- A hint of no card, a question, and a win. -/
inductive SampleMessage where
  | hint
  | selectYesNo
  | win (player : Nat) (type : Whole)
  deriving DecidableEq

def sampleCodec : MessageCodec SampleMessage where
  isResponse message := message = .selectYesNo
  isWin
    | .win _ _ => true
    | _ => false
  isStart _ := false
  isForObserver message := message ≠ .selectYesNo
  withPlayerType _ message := message
  win := .win
  toFullPayload
    | .hint => [8, 0, 1, 2, 1, 0, 0, 0, 0, 0]
    | .selectYesNo => [7, 0, 1, 13, 0, 30, 0, 0, 0]
    | .win player type => [4, 0, 1, 5, UInt8.ofNat player, UInt8.ofNat type.value.toNat]

def one : Whole where
  value := 1
  exact := Double.ofNat_exact (by decide)

def zero : Whole where
  value := 0
  exact := Double.ofNat_exact (by decide)

def sampleDecode (bytes : Bytes) : Option SampleMessage :=
  if bytes = sampleCodec.toFullPayload .hint then some .hint
  else if bytes = sampleCodec.toFullPayload .selectYesNo then some .selectYesNo
  else if bytes = sampleCodec.toFullPayload (.win 0 one) then some (.win 0 one)
  else none

/-- Dates are given by their texts. -/
def sampleRecord : DuelRecord SampleMessage Utf16 where
  seed := [one]
  isSwapped := false
  startTime := units "2026-01-01T00:00:00.000Z"
  endTime := none
  winPosition := some zero
  winReason := some one
  messages := [.hint, .selectYesNo]

def sampleRoom : EvrpRoomContext where
  players := [units "A"]
  hostInfo := [(units "best_of", .finite one), (units "max_deck_points", .notFinite)]

def sampleEnd : Utf16 := units "2026-01-01T00:30:00.000Z"

def sampleText : Bytes :=
  Utf8.encode (JsonText.stringify (envelope sampleCodec id sampleEnd sampleRoom [sampleRecord]))

/-- The text compressed. -/
def sampleGz : Bytes :=
  [31, 139, 8, 0, 0, 0, 0, 0, 0, 3, 141, 143, 65, 107, 194, 64, 16, 133, 255, 203, 59, 175, 101,
    162, 224, 97, 193, 195, 110, 241, 224, 77, 197, 83, 37, 132, 109, 51, 209, 197, 100, 87, 50,
    107, 171, 132, 253, 239, 197, 164, 208, 75, 15, 29, 222, 101, 224, 155, 247, 230, 13, 248,
    228, 94, 124, 12, 208, 133, 66, 199, 201, 65, 15, 184, 182, 238, 193, 189, 64, 31, 7, 4, 215,
    49, 52, 12, 114, 169, 112, 142, 146, 54, 161, 137, 79, 232, 157, 37, 85, 177, 153, 14, 221,
    189, 170, 249, 227, 82, 93, 163, 15, 73, 160, 195, 173, 109, 179, 130, 36, 215, 167, 131, 31,
    29, 230, 52, 95, 206, 168, 152, 81, 113, 32, 210, 163, 94, 136, 232, 13, 10, 28, 234, 63, 161,
    197, 47, 148, 21, 234, 27, 183, 211, 79, 194, 92, 67, 31, 139, 242, 223, 9, 95, 62, 108, 163,
    248, 52, 54, 165, 113, 223, 179, 147, 159, 222, 77, 239, 58, 126, 90, 227, 213, 24, 107, 78,
    107, 51, 205, 106, 5, 5, 107, 140, 181, 59, 99, 81, 230, 50, 127, 3, 201, 102, 194, 229, 48,
    1, 0, 0]

/-- On the sample text as zlib compresses it. -/
def sampleGzip (bytes : Bytes) : Bytes := if bytes = sampleText then sampleGz else 0 :: bytes

def sampleGunzip (bytes : Bytes) : Bytes := if bytes = sampleGz then sampleText else bytes.tail

theorem sampleGunzip_sampleGzip (bytes : Bytes) : sampleGunzip (sampleGzip bytes) = bytes := by
  unfold sampleGzip
  split
  · rename_i htext
    rw [sampleGunzip, if_pos rfl, htext]
  · have hne : 0 :: bytes ≠ sampleGz := by
      intro h
      have hhead : (0 : UInt8) = 31 := (List.cons.inj h).1
      exact absurd hhead (by decide)
    rw [sampleGunzip, if_neg hne, List.tail_cons]

theorem sample_decodes : ∀ rec ∈ [sampleRecord], ∀ message ∈ rec.exportedMessages sampleCodec,
    sampleDecode (sampleCodec.toFullPayload message) = some message := by
  decide

theorem sample_fits :
    (serialize sampleCodec id sampleGzip sampleEnd sampleRoom [sampleRecord]).length ≤
      MAX_CHUNKS * EVRP_CHUNK_BYTES := by
  have hgz : sampleGzip sampleText = sampleGz := by
    rw [sampleGzip, if_pos rfl]
  change (sampleGzip sampleText).length ≤ MAX_CHUNKS * EVRP_CHUNK_BYTES
  rw [hgz]
  decide +kernel

theorem evrp_round_trip_sample :
    readReplay sampleDecode sampleGunzip
        (toFrames (serialize sampleCodec id sampleGzip sampleEnd sampleRoom [sampleRecord])) =
      some (replayOf sampleCodec id sampleEnd sampleRoom [sampleRecord]) :=
  (evrp_round_trip sampleCodec sampleDecode id sampleGzip sampleGunzip
    sampleGunzip_sampleGzip).2 sampleEnd sampleRoom [sampleRecord] sample_decodes sample_fits _
    (List.Perm.refl _)

/-- A replay does not give back all that was recorded: the question is left out, and a win
message follows that was not among the messages. -/
theorem prompt_left_out :
    ∃ replay, readReplay sampleDecode sampleGunzip
        (toFrames (serialize sampleCodec id sampleGzip sampleEnd sampleRoom [sampleRecord])) =
      some replay ∧
      replay.duels.map ReplayDuel.messages ≠ [sampleRecord].map DuelRecord.messages := by
  refine ⟨_, readReplay_toFrames sampleGunzip_sampleGzip sample_decodes sample_fits
    (List.Perm.refl _), ?_⟩
  decide

end EdoproServer.Room.EvrpSerializer
