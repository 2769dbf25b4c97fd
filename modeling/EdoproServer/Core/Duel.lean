import EdoproServer.Core.DrawCardHandler

namespace EdoproServer.Core
open Lib

/-! ## The engine -/

structure QuerySingleRequest where
  con : UInt8
  loc : UInt32
  seq : UInt32
  flags : UInt32
  deriving DecidableEq, Repr

structure QueryLocationRequest where
  con : UInt8
  loc : UInt32
  flags : UInt32
  deriving DecidableEq, Repr

inductive QueryRequest where
  | single (query : QuerySingleRequest)
  | location (query : QueryLocationRequest)
  deriving DecidableEq, Repr

/-- The engine behind the core, as far as the core calls it. -/
structure OCGApi (σ : Type) where
  startDuel : σ → σ
  process : σ → Int × σ
  getMessage : σ → Bytes × σ
  duelQueryCount : σ → UInt8 → UInt8 → UInt32
  duelQuery : σ → QuerySingleRequest → Bytes
  duelQueryLocation : σ → QueryLocationRequest → Bytes
  duelQueryField : σ → Bytes
  setResponse : σ → Bytes → σ

/-- The length of each message stands in front of it; past the end of the buffer nothing is
defined. Every message takes four bytes at least. -/
def parseMessagesUntil : Nat → Bytes → Option (List Bytes) :=
  untilEnd do
    let length ← number 4
    takeBytes length

def parseMessages (buffer : Bytes) : Option (List Bytes) := parseMessagesUntil buffer.length buffer

/-! ## What the core writes -/

/-- A MESSAGE line. Members that a line does not have are left out of it. -/
structure MessageLine where
  data : Bytes
  receiver : Option UInt8 := none
  cacheable : Option Bool := none
  all : Option Bool := none
  position : Option UInt8 := none
  except : Option UInt8 := none
  deriving DecidableEq, Repr

structure StartLine where
  lp : UInt32
  playerDeckSize : UInt32
  playerExtraDeckSize : UInt32
  opponentDeckSize : UInt32
  opponentExtraDeckSize : UInt32
  deriving DecidableEq, Repr

/-- The lines on the standard output by their types, with data as bytes. -/
inductive CoreLine where
  | START (line : StartLine)
  | CORE (message : UInt8) (data : Bytes) (status : Int)
  | REPLAY (data : Bytes)
  | MESSAGE (line : MessageLine)
  | MESSAGE_ALL (data : Bytes)
  | MESSAGE_ALL_EXCEPT (data : Bytes) (except : UInt8)
  | TIME (team : UInt8) (time : UInt16)
  | SWAP (team : UInt8)
  | FINISH (winner : UInt8)
  | FIELD (data : Bytes) (position : UInt8)
  | RECONNECT (position team : UInt8)
  deriving DecidableEq, Repr

/-! ## The state of the core -/

structure Config where
  lp : UInt32
  firstToPlay : UInt8
  timeLimit : UInt16
  deriving DecidableEq, Repr

/-- What the timers of the teams say: milliseconds left, and the nanosecond each expires at. -/
structure DuelTurnTimer where
  timeRemaining : UInt8 → Int
  expiry : UInt8 → Int

structure Duel (σ : Type) where
  duel : σ
  replier : UInt8
  lastHint : Bytes
  lastRequest : Bytes
  timer : DuelTurnTimer
  /-- How often the clock was read. -/
  readings : Nat
  written : List CoreLine

/-- Nothing comes of what is undefined. -/
abbrev CoreM (σ α : Type) := StateT (Duel σ) Option α

/-- The nanoseconds the clock shows when it is read. -/
abbrev Clock := Nat → Int

section Duel

variable {σ : Type}

def send_message (line : CoreLine) : CoreM σ PUnit :=
  modify fun d => { d with written := d.written ++ [line] }

def now (clock : Clock) : CoreM σ Int :=
  modifyGet fun d => (clock d.readings, { d with readings := d.readings + 1 })

/-! ### Time -/

def GRACE_PERIOD : Int := 5

def resetTimers (limitInSeconds : UInt16) : CoreM σ PUnit :=
  modify fun d =>
    { d with timer := { d.timer with
        timeRemaining := fun _ => (limitInSeconds.toNat + GRACE_PERIOD) * 1000 } }

def expiresAfter (clock : Clock) (team : UInt8) (seconds : Int) : CoreM σ PUnit := do
  let time ← now clock
  modify fun d =>
    { d with timer := { d.timer with
        expiry := Function.update d.timer.expiry team (time + seconds * 1000000000) } }

/-- There are timers of two teams. -/
def calculate (clock : Clock) (team : UInt8) : CoreM σ UInt16 := do
  let d ← get
  if team ≤ 1 then do
    let timeRemaining := (d.timer.timeRemaining team).tdiv 1000
    let apparentTimeRemaining := timeRemaining - GRACE_PERIOD
    expiresAfter clock team timeRemaining
    return UInt16.ofInt (max apparentTimeRemaining 0)
  else failure

/-- A part of a second that is left counts as a whole one. -/
def reduce (clock : Clock) (team : UInt8) : CoreM σ PUnit := do
  let time ← now clock
  if team ≤ 1 then
    modify fun d =>
      let delta := d.timer.expiry team - time
      { d with timer := { d.timer with
          timeRemaining := Function.update d.timer.timeRemaining team
            (1000 * -((-delta) / 1000000000)) } }
  else failure

/-! ### Messages -/

def get_swapped_team (config : Config) (team : UInt8) : UInt8 := config.firstToPlay ^^^ team

/-- The number of the spectators. -/
def SPECTATORS : UInt8 := 3

def get_team_message_receptor (message : Bytes) : Option UInt8 :=
  if message[0]? = some MSG_HINT then message[2]? else message[1]?

/-- Prompts that name cards. -/
def cardChoices : List UInt8 := [MSG_SELECT_CARD, MSG_SELECT_TRIBUTE, MSG_SELECT_UNSELECT_CARD]

/-- The other prompts, but for the filter of cards to announce. -/
def plainPrompts : List UInt8 :=
  [MSG_SELECT_BATTLECMD, MSG_SELECT_IDLECMD, MSG_SELECT_EFFECTYN, MSG_SELECT_YESNO,
    MSG_SELECT_OPTION, MSG_SELECT_CHAIN, MSG_SELECT_PLACE, MSG_SELECT_DISFIELD,
    MSG_SELECT_POSITION, MSG_SORT_CARD, MSG_SORT_CHAIN, MSG_SELECT_COUNTER, MSG_SELECT_SUM,
    MSG_ROCK_PAPER_SCISSORS, MSG_ANNOUNCE_RACE, MSG_ANNOUNCE_ATTRIB, MSG_ANNOUNCE_CARD,
    MSG_ANNOUNCE_NUMBER]

def does_message_required_answer (type : UInt8) : Bool :=
  type ∈ cardChoices ++ plainPrompts ++ [MSG_ANNOUNCE_CARD_FILTER]

inductive MessageTargets where
  | MSG_DIST_TYPE_SPECIFIC_TEAM_DUELIST_STRIPPED
  | MSG_DIST_TYPE_SPECIFIC_TEAM_DUELIST
  | MSG_DIST_TYPE_SPECIFIC_TEAM
  | MSG_DIST_TYPE_EVERYONE_EXCEPT_TEAM_DUELIST
  | MSG_DIST_TYPE_EVERYONE_STRIPPED
  | MSG_DIST_TYPE_EVERYONE
  deriving DecidableEq, Repr

open MessageTargets in
def get_message_target (message : Bytes) : Option MessageTargets := do
  let type ← message[0]?
  if type ∈ cardChoices then
    return MSG_DIST_TYPE_SPECIFIC_TEAM_DUELIST_STRIPPED
  else if type ∈ plainPrompts ++ [MSG_ANNOUNCE_CARD_FILTER, MSG_MISSED_EFFECT] then
    return MSG_DIST_TYPE_SPECIFIC_TEAM_DUELIST
  else if type = MSG_HINT then do
    let hint ← message[1]?
    if hint ∈ [1, 2, 3, 5] then return MSG_DIST_TYPE_SPECIFIC_TEAM_DUELIST
    else if hint = 200 then return MSG_DIST_TYPE_SPECIFIC_TEAM
    else if hint ∈ [4, 6, 7, 8, 9, 11] then return MSG_DIST_TYPE_EVERYONE_EXCEPT_TEAM_DUELIST
    else return MSG_DIST_TYPE_EVERYONE
  else if type = MSG_CONFIRM_CARDS then do
    let (count, rest) ← readUInt32 (message.drop 2)
    if count ≠ 0 then do
      let location ← rest[5]?
      if location = LOCATION_DECK then return MSG_DIST_TYPE_SPECIFIC_TEAM_DUELIST
      else return MSG_DIST_TYPE_EVERYONE
    else return MSG_DIST_TYPE_EVERYONE
  else if type ∈ [MSG_SHUFFLE_HAND, MSG_SHUFFLE_EXTRA, MSG_SET, MSG_MOVE, MSG_SPSUMMONING,
      MSG_DRAW, MSG_TAG_SWAP] then
    return MSG_DIST_TYPE_EVERYONE_STRIPPED
  else return MSG_DIST_TYPE_EVERYONE

def send_raw_message (message : Bytes) (status : Int) : CoreM σ PUnit := do
  let type ← liftM message[0]?
  send_message (.CORE type message status)

def send_replay_message (data : Bytes) : CoreM σ PUnit := send_message (.REPLAY data)

/-- Hints for one player and prompts are not recorded. -/
def send_core_replay_message (message : Bytes) : CoreM σ PUnit := do
  let type ← liftM message[0]?
  if type = MSG_HINT then do
    let hint ← liftM message[1]?
    if hint ∈ [1, 2, 3, 5] then pure ⟨⟩ else send_replay_message (0x01 :: message)
  else if type ∈ cardChoices ++ plainPrompts then pure ⟨⟩
  else send_replay_message (0x01 :: message)

def send_message_to (team : UInt8) (cacheable all : Bool) (message : Bytes) : CoreM σ PUnit :=
  send_message (.MESSAGE
    { data := 0x01 :: message, receiver := team, cacheable := cacheable, all := all })

def send_message_to_all (message : Bytes) : CoreM σ PUnit :=
  send_message (.MESSAGE_ALL (0x01 :: message))

def send_message_to_all_except (except : UInt8) (message : Bytes) : CoreM σ PUnit :=
  send_message (.MESSAGE_ALL_EXCEPT (0x01 :: message) except)

variable (config : Config)

open DrawCardHandler (handle)

def distribute_stripped_to_everyone (message : Bytes) : CoreM σ PUnit := do
  let messageA ← liftM (handle 0 message)
  let messageB ← liftM (handle 1 message)
  send_message_to (get_swapped_team config 0) true true messageA
  send_message_to (get_swapped_team config 1) true true messageB
  let strippedMessage ← liftM (handle 1 messageA)
  send_message_to SPECTATORS true true strippedMessage

def distribute_to (message : Bytes) : MessageTargets → CoreM σ PUnit
  | .MSG_DIST_TYPE_SPECIFIC_TEAM_DUELIST_STRIPPED => do
    let team ← liftM (get_team_message_receptor message)
    let stripped ← liftM (handle team message)
    send_message_to (get_swapped_team config team) true false stripped
  | .MSG_DIST_TYPE_EVERYONE_STRIPPED => distribute_stripped_to_everyone config message
  | .MSG_DIST_TYPE_EVERYONE => send_message_to_all message
  | .MSG_DIST_TYPE_SPECIFIC_TEAM_DUELIST => do
    let team ← liftM (get_team_message_receptor message)
    send_message_to (get_swapped_team config team) true false message
  | .MSG_DIST_TYPE_SPECIFIC_TEAM => do
    let team ← liftM (get_team_message_receptor message)
    send_message_to (get_swapped_team config team) false true message
  | .MSG_DIST_TYPE_EVERYONE_EXCEPT_TEAM_DUELIST => do
    let team ← liftM (get_team_message_receptor message)
    send_message_to_all_except (get_swapped_team config team) message

def distribute_message (message : Bytes) : CoreM σ PUnit := do
  send_core_replay_message message
  let target ← liftM (get_message_target message)
  distribute_to config message target

/-- The player asked last is asked again, with the last hint in front. -/
def ask_again : CoreM σ PUnit := do
  let d ← get
  (if d.lastHint ≠ [] then send_message_to d.replier false false d.lastHint else pure ⟨⟩)
  send_message_to d.replier false false d.lastRequest

/-- Whether the message goes on. A retry goes no further. -/
def pre_processing (message : Bytes) : CoreM σ Bool := do
  let type ← liftM message[0]?
  if type = MSG_RETRY then do
    ask_again
    return false
  else do
    (if type = MSG_TAG_SWAP then do
      let player ← liftM message[1]?
      send_message (.SWAP (get_swapped_team config player))
    else pure ⟨⟩)
    (if type = MSG_HINT then do
      let hint ← liftM message[1]?
      if hint = 3 then modify fun d => { d with lastHint := message } else pure ⟨⟩
    else pure ⟨⟩)
    (if type = MSG_NEW_TURN then resetTimers config.timeLimit else pure ⟨⟩)
    (if does_message_required_answer type then do
      let receptor ← liftM (get_team_message_receptor message)
      modify fun d =>
        { d with replier := get_swapped_team config receptor, lastRequest := message }
    else pure ⟨⟩)
    return true

def post_processing (clock : Clock) (message : Bytes) : CoreM σ PUnit := do
  let type ← liftM message[0]?
  if does_message_required_answer type then do
    let d ← get
    send_message (.MESSAGE { data := [0x01, 0x03], except := d.replier })
    if config.timeLimit ≠ 0 then do
      let receptor ← liftM (get_team_message_receptor message)
      let team := get_swapped_team config receptor
      let ticks ← calculate clock team
      send_message (.TIME team ticks)
    else pure ⟨⟩
  else pure ⟨⟩

def is_duel_finished (message : Bytes) : CoreM σ Bool := do
  let type ← liftM message[0]?
  if type ≠ MSG_WIN then return false
  else do
    let player ← liftM message[1]?
    send_message (.FINISH (if player > 1 then 2 else get_swapped_team config player))
    return true

/-! ### Queries -/

def refreshAll (loc : UInt8) (flags : UInt32) : List QueryRequest :=
  [.location { con := 0, loc := loc.toUInt32, flags := flags },
    .location { con := 1, loc := loc.toUInt32, flags := flags }]

def refreshAllMZones : List QueryRequest := refreshAll LOCATION_MZONE 0x3981FFF
def refreshAllSZones : List QueryRequest := refreshAll LOCATION_SZONE 0x3F81FFF
def refreshAllHands : List QueryRequest := refreshAll LOCATION_HAND 0x3781FFF
def refreshAllDecks : List QueryRequest := refreshAll LOCATION_DECK 0x1181FFF
def refreshAllGraves : List QueryRequest := refreshAll LOCATION_GRAVE 0x381FFF
def refreshAllExtras : List QueryRequest := refreshAll LOCATION_EXTRA 0x381FFF
def refreshAllRemoved : List QueryRequest := refreshAll LOCATION_REMOVED 0x30681FFF

def refreshAllZones : List QueryRequest :=
  refreshAllDecks ++ refreshAllMZones ++ refreshAllSZones ++ refreshAllHands ++ refreshAllGraves ++
    refreshAllExtras ++ refreshAllRemoved

def singleRequest (info : LocInfo) : QueryRequest :=
  .single { con := info.con, loc := info.loc.toUInt32, seq := info.seq, flags := 0x3F81FFF }

def locationRequest (con loc : UInt8) (flags : UInt32) : QueryRequest :=
  .location { con := con, loc := loc.toUInt32, flags := flags }

def pre_queries (message : Bytes) : Option (List QueryRequest) := do
  let type ← message[0]?
  if type = MSG_NEW_TURN ∨ type = MSG_SELECT_CHAIN then
    return refreshAllMZones ++ refreshAllSZones
  else if type = MSG_SELECT_IDLECMD ∨ type = MSG_SELECT_BATTLECMD then
    return refreshAllHands ++ refreshAllMZones ++ refreshAllSZones
  else if type = MSG_FLIPSUMMONING then do
    let (i, _) ← QueryDeserializer.readLocInfo (message.drop 5)
    return [singleRequest i]
  else return []

/-- No two of the branches on the type are taken together. -/
def post_queries (message : Bytes) : Option (List QueryRequest) := do
  let type ← message[0]?
  let player := message[1]?
  if type = MSG_DRAW ∨ type = MSG_SHUFFLE_HAND then
    return [locationRequest (← player) 0x02 0x3781FFF]
  else if type = MSG_SWAP then do
    let (p, rest) ← QueryDeserializer.readLocInfo (message.drop 5)
    let (c, _) ← QueryDeserializer.readLocInfo (rest.drop 4)
    return [singleRequest p, singleRequest c]
  else if type = MSG_NEW_PHASE ∨ type = MSG_CHAINED then
    return refreshAllMZones ++ refreshAllSZones ++ refreshAllHands
  else if type = MSG_SPSUMMONED ∨ type = MSG_SUMMONED ∨ type = MSG_FLIPSUMMONED then
    return refreshAllMZones ++ refreshAllSZones
  else if type = MSG_DAMAGE_STEP_START ∨ type = MSG_DAMAGE_STEP_END then
    return refreshAllMZones
  else if type = MSG_CHAIN_END then
    return refreshAllDecks ++ refreshAllMZones ++ refreshAllSZones ++ refreshAllHands
  else if type = MSG_MOVE then do
    let (previous, rest) ← QueryDeserializer.readLocInfo (message.drop 5)
    let (current, _) ← QueryDeserializer.readLocInfo rest
    if (previous.con ≠ current.con ∨ previous.loc ≠ current.loc) ∧ current.loc ≠ 0 ∧
        current.loc &&& LOCATION_OVERLAY = 0 then
      return [singleRequest current]
    else return []
  else if type = MSG_TAG_SWAP then do
    let player ← player
    return [locationRequest player LOCATION_DECK 0x1181FFF,
      locationRequest player LOCATION_EXTRA 0x381FFF,
      locationRequest player LOCATION_HAND 0x3781FFF,
      locationRequest 0 LOCATION_MZONE 0x3181FFF, locationRequest 1 LOCATION_MZONE 0x3181FFF,
      locationRequest 0 LOCATION_SZONE 0x3781FFF, locationRequest 1 LOCATION_SZONE 0x3781FFF]
  else if type = MSG_RELOAD_FIELD then
    return [locationRequest 0 LOCATION_EXTRA 0x381FFF, locationRequest 1 LOCATION_EXTRA 0x381FFF]
  else if type = MSG_SHUFFLE_EXTRA then
    return [locationRequest (← player) LOCATION_EXTRA 0x381FFF]
  else if type = MSG_SWAP_GRAVE_DECK then
    return [locationRequest (← player) LOCATION_GRAVE 0x381FFF]
  else if type = MSG_REVERSE_DECK then
    return refreshAllDecks
  else if type = MSG_SHUFFLE_SET_CARD then do
    let loc ← player
    return [locationRequest 0 loc 0x3181FFF, locationRequest 1 loc 0x3181FFF]
  else if type = MSG_POS_CHANGE then do
    let cc ← message[5]?
    let cl ← message[6]?
    let cs ← message[7]?
    let pp ← message[8]?
    let cp ← message[9]?
    if pp.toUInt32 &&& POS_FACEDOWN ≠ 0 ∧ cp.toUInt32 &&& POS_FACEUP ≠ 0 then
      return [singleRequest { con := cc, loc := cl, seq := cs.toUInt32, pos := 0 }]
    else return []
  else return []

def create_update_card_message (query : QuerySingleRequest) (buffer : Bytes) : Bytes :=
  [0x01, 0x07, query.con, query.loc.toUInt8, query.seq.toUInt8] ++ buffer

def create_update_data_message (query : QueryLocationRequest) (buffer : Bytes) : Bytes :=
  [0x01, 0x06, query.con, query.loc.toUInt8] ++ buffer

def send_update_card_message (team : UInt8) (query : QuerySingleRequest) (buffer : Bytes) :
    CoreM σ PUnit :=
  send_message (.MESSAGE
    { data := create_update_card_message query buffer, receiver := team, cacheable := true
      all := true })

def send_update_data_message (team : UInt8) (query : QueryLocationRequest) (buffer : Bytes) :
    CoreM σ PUnit :=
  send_message (.MESSAGE
    { data := create_update_data_message query buffer, receiver := team, cacheable := true
      all := true })

variable (api : OCGApi σ) (order : QueryDeserializer.OperandOrder)

open QueryDeserializer QuerySerializer in
def process_query : QueryRequest → CoreM σ PUnit
  | .single query => do
    let d ← get
    let buffer := api.duelQuery d.duel query
    let duel_query ← liftM (deserialize buffer)
    let player_buffer := serialize duel_query false
    let stripped_buffer := serialize duel_query true
    send_replay_message (create_update_card_message query buffer)
    let team := get_swapped_team config query.con
    send_update_card_message team query player_buffer
    send_update_card_message (1 - team) query stripped_buffer
    send_update_card_message SPECTATORS query stripped_buffer
  | .location query => do
    let d ← get
    let team := get_swapped_team config query.con
    let buffer := api.duelQueryLocation d.duel query
    send_replay_message (create_update_data_message query buffer)
    if query.loc = LOCATION_DECK.toUInt32 then pure ⟨⟩
    else if query.loc = LOCATION_EXTRA.toUInt32 then send_update_data_message team query buffer
    else do
      let queries ← liftM (deserializeLocationQuery order buffer)
      let player_buffer := serializeLocationQuery queries false
      let stripped_buffer := serializeLocationQuery queries true
      send_update_data_message team query player_buffer
      send_update_data_message (1 - team) query stripped_buffer
      send_update_data_message SPECTATORS query stripped_buffer

def process_queries (requests : List QueryRequest) : CoreM σ PUnit :=
  requests.forM (process_query config api order)

/-! ### The loop -/

def messages : CoreM σ (List Bytes) := do
  let buffer ← modifyGet fun d =>
    let (buffer, duel) := api.getMessage d.duel
    (buffer, { d with duel := duel })
  liftM (parseMessages buffer)

def status : CoreM σ Int :=
  modifyGet fun d =>
    let (status, duel) := api.process d.duel
    (status, { d with duel := duel })

variable (clock : Clock)

/-- The messages of one turn of the loop, and whether the last one ended the duel. A retry replaces
the messages that are gone through, so what would come behind it is undefined. -/
def handle_messages (status : Int) : List Bytes → Bool → CoreM σ Bool
  | [], finished => pure finished
  | message :: rest, finished => do
    send_raw_message message status
    if ← pre_processing config message then do
      process_queries config api order (← liftM (pre_queries message))
      distribute_message config message
      process_queries config api order (← liftM (post_queries message))
      let finished ← is_duel_finished config message
      post_processing config clock message
      handle_messages status rest finished
    else do
      let _ ← messages api
      if rest = [] then return finished else failure

/-- The engine goes on until it waits for an answer or the duel ends. -/
def process : Nat → Bool → CoreM σ PUnit
  | 0, _ => failure
  | fuel + 1, finished => do
    let status ← status api
    let core_messages ← messages api
    let finished ← handle_messages config api order clock status core_messages finished
    if status ≠ 2 ∨ finished = true then pure ⟨⟩ else process fuel finished

def set_response (team : UInt8) (data : Bytes) : CoreM σ PUnit := do
  reduce clock team
  modify fun d => { d with duel := api.setResponse d.duel data }

def set_main_deck (team : UInt8) : CoreM σ PUnit := do
  let d ← get
  let query : QueryLocationRequest :=
    { con := team, loc := LOCATION_DECK.toUInt32, flags := 0x1181FFF }
  let buffer := api.duelQueryLocation d.duel query
  send_replay_message (create_update_data_message query buffer)

def set_extra_deck (team : UInt8) : CoreM σ PUnit := do
  let d ← get
  let query : QueryLocationRequest :=
    { con := team, loc := LOCATION_EXTRA.toUInt32, flags := 0x381FFF }
  let data := create_update_data_message query (api.duelQueryLocation d.duel query)
  send_replay_message data
  send_message (.MESSAGE { data := data, receiver := get_swapped_team config query.con })

def set_decks : CoreM σ PUnit := do
  set_main_deck api 0
  set_main_deck api 1
  set_extra_deck config api 0
  set_extra_deck config api 1

def get_board (position : UInt8) : CoreM σ PUnit := do
  let d ← get
  send_message (.FIELD ([0x01, 0xa2] ++ api.duelQueryField d.duel) position)

def refresh_query (position team : UInt8) : QueryRequest → CoreM σ PUnit
  | .single _ => failure
  | .location query => do
    let d ← get
    let calculated_team := get_swapped_team config query.con
    let buffer := api.duelQueryLocation d.duel query
    let queries ← liftM (QueryDeserializer.deserializeLocationQuery order buffer)
    let buffer := QuerySerializer.serializeLocationQuery queries (team ≠ calculated_team)
    send_message (.MESSAGE
      { data := create_update_data_message query buffer, receiver := team, cacheable := false
        all := false, position := position })

def refresh_board (position team : UInt8) : CoreM σ PUnit := do
  refreshAllZones.forM (refresh_query config api order position team)
  send_message (.RECONNECT position team)

def start : CoreM σ PUnit := do
  modify fun d => { d with duel := api.startDuel d.duel }
  resetTimers config.timeLimit
  let d ← get
  send_message (.START
    { lp := config.lp
      playerDeckSize := api.duelQueryCount d.duel 0 LOCATION_DECK
      playerExtraDeckSize := api.duelQueryCount d.duel 0 LOCATION_EXTRA
      opponentDeckSize := api.duelQueryCount d.duel 1 LOCATION_DECK
      opponentExtraDeckSize := api.duelQueryCount d.duel 1 LOCATION_EXTRA })

/-- A line on the standard input, but for the one that ends the core. -/
inductive CoreCommand where
  | REFRESH_FIELD (position team : UInt8)
  | GET_FIELD (position : UInt8)
  | RESPONSE (replier : UInt8) (message : Bytes)
  | SET_DECKS
  | PROCESS
  deriving DecidableEq, Repr

def execute (fuel : Nat) : CoreCommand → CoreM σ PUnit
  | .REFRESH_FIELD position team => refresh_board config api order position team
  | .GET_FIELD position => get_board api position
  | .RESPONSE replier message => do
    set_response api clock replier message
    process config api order clock fuel false
  | .SET_DECKS => do
    set_decks config api
    process config api order clock fuel false
  | .PROCESS => process config api order clock fuel false

/-- The core from the start of the duel on. -/
def main (fuel : Nat) (commands : List CoreCommand) : CoreM σ PUnit := do
  start config api
  commands.forM (execute config api order clock fuel)

end Duel

end EdoproServer.Core
