import EdoproServer.Core.QueryDeserializer
import EdoproServer.Lib.ByteCursor

namespace EdoproServer.Core
open Lib

/-! ## Types, locations and positions -/

def MSG_RETRY : UInt8 := 1
def MSG_HINT : UInt8 := 2
def MSG_WIN : UInt8 := 5
def MSG_SELECT_BATTLECMD : UInt8 := 10
def MSG_SELECT_IDLECMD : UInt8 := 11
def MSG_SELECT_EFFECTYN : UInt8 := 12
def MSG_SELECT_YESNO : UInt8 := 13
def MSG_SELECT_OPTION : UInt8 := 14
def MSG_SELECT_CARD : UInt8 := 15
def MSG_SELECT_CHAIN : UInt8 := 16
def MSG_SELECT_PLACE : UInt8 := 18
def MSG_SELECT_POSITION : UInt8 := 19
def MSG_SELECT_TRIBUTE : UInt8 := 20
def MSG_SORT_CHAIN : UInt8 := 21
def MSG_SELECT_COUNTER : UInt8 := 22
def MSG_SELECT_SUM : UInt8 := 23
def MSG_SELECT_DISFIELD : UInt8 := 24
def MSG_SORT_CARD : UInt8 := 25
def MSG_SELECT_UNSELECT_CARD : UInt8 := 26
def MSG_CONFIRM_CARDS : UInt8 := 31
def MSG_SHUFFLE_HAND : UInt8 := 33
def MSG_SWAP_GRAVE_DECK : UInt8 := 35
def MSG_SHUFFLE_SET_CARD : UInt8 := 36
def MSG_REVERSE_DECK : UInt8 := 37
def MSG_SHUFFLE_EXTRA : UInt8 := 39
def MSG_NEW_TURN : UInt8 := 40
def MSG_NEW_PHASE : UInt8 := 41
def MSG_MOVE : UInt8 := 50
def MSG_POS_CHANGE : UInt8 := 53
def MSG_SET : UInt8 := 54
def MSG_SWAP : UInt8 := 55
def MSG_SUMMONED : UInt8 := 61
def MSG_SPSUMMONING : UInt8 := 62
def MSG_SPSUMMONED : UInt8 := 63
def MSG_FLIPSUMMONING : UInt8 := 64
def MSG_FLIPSUMMONED : UInt8 := 65
def MSG_CHAINED : UInt8 := 71
def MSG_CHAIN_END : UInt8 := 74
def MSG_DRAW : UInt8 := 90
def MSG_DAMAGE_STEP_START : UInt8 := 113
def MSG_DAMAGE_STEP_END : UInt8 := 114
def MSG_MISSED_EFFECT : UInt8 := 120
def MSG_ROCK_PAPER_SCISSORS : UInt8 := 132
def MSG_ANNOUNCE_RACE : UInt8 := 140
def MSG_ANNOUNCE_ATTRIB : UInt8 := 141
def MSG_ANNOUNCE_CARD : UInt8 := 142
def MSG_ANNOUNCE_NUMBER : UInt8 := 143
def MSG_ANNOUNCE_CARD_FILTER : UInt8 := 144
def MSG_TAG_SWAP : UInt8 := 161
def MSG_RELOAD_FIELD : UInt8 := 162

def LOCATION_DECK : UInt8 := 0x01
def LOCATION_HAND : UInt8 := 0x02
def LOCATION_MZONE : UInt8 := 0x04
def LOCATION_SZONE : UInt8 := 0x08
def LOCATION_GRAVE : UInt8 := 0x10
def LOCATION_REMOVED : UInt8 := 0x20
def LOCATION_EXTRA : UInt8 := 0x40
def LOCATION_OVERLAY : UInt8 := 0x80

def POS_FACEDOWN_ATTACK : UInt32 := 0x2
def POS_FACEDOWN_DEFENSE : UInt32 := 0x8
def POS_FACEDOWN : UInt32 := POS_FACEDOWN_ATTACK + POS_FACEDOWN_DEFENSE

/-! ## Cards in messages -/

/-- A card as a message names it: its code, and what else the message says of it. -/
structure Entry (β : Type) where
  code : UInt32
  info : β
  deriving DecidableEq, Repr

namespace Entry

variable {β : Type}

def encode (write : β → Bytes) (card : Entry β) : Bytes := writeUInt32 card.code ++ write card.info

/-- The card with its code out of sight, if it is hidden. -/
def hide (hidden : β → Bool) (card : Entry β) : Entry β :=
  if hidden card.info then { card with code := 0 } else card

@[simp] theorem hide_info (hidden : β → Bool) (card : Entry β) :
    (card.hide hidden).info = card.info := by
  unfold hide
  split
  · rfl
  · rfl

end Entry

namespace Entry

theorem encode_hide {β : Type} (write : β → Bytes) (hidden : β → Bool) (card : Entry β) :
    (card.hide hidden).encode write =
      writeUInt32 (if hidden card.info then 0 else card.code) ++ write card.info := by
  unfold hide encode
  split
  · rfl
  · rfl

/-- Where nothing is hidden the card stays as it is. -/
theorem hide_of_not {β : Type} {hidden : β → Bool} {card : Entry β}
    (h : hidden card.info = false) : card.hide hidden = card := by
  unfold hide
  rw [h, if_neg Bool.false_ne_true]

end Entry

/-- A list whose length goes in front of it, in four bytes. -/
abbrev Counted (α : Type) := { l : List α // l.length < 2 ^ 32 }

namespace Counted

variable {α β : Type}

def map (f : α → β) (l : Counted α) : Counted β := ⟨l.val.map f, by simpa using l.property⟩

def count (l : Counted α) : UInt32 := UInt32.ofNat l.val.length

def encode (write : α → Bytes) (l : Counted α) : Bytes :=
  writeUInt32 l.count ++ l.val.flatMap write

@[simp] theorem map_val (f : α → β) (l : Counted α) : (l.map f).val = l.val.map f := rfl

@[simp] theorem count_map (f : α → β) (l : Counted α) : (l.map f).count = l.count := by
  simp [count]

@[simp] theorem count_toNat (l : Counted α) : l.count.toNat = l.val.length :=
  UInt32.toNat_ofNat_of_lt' l.property

/-- Where nothing is hidden the list stays as it is. -/
theorem map_hide_of_not {γ : Type} {hidden : γ → Bool} (l : Counted (Entry γ))
    (h : ∀ info, hidden info = false) : l.map (Entry.hide hidden) = l := by
  apply Subtype.ext
  rw [map_val, List.map_congr_left (fun card _ => Entry.hide_of_not (h card.info)), List.map_id']

end Counted

/-- What stands in front of the cards a player chooses from. -/
structure Choice where
  player : UInt8
  cancelable : UInt8
  min : UInt32
  max : UInt32
  deriving DecidableEq, Repr

def Choice.encode (choice : Choice) : Bytes :=
  writeUInt8 choice.player ++ writeUInt8 choice.cancelable ++ writeUInt32 choice.min ++
    writeUInt32 choice.max

/-- A choice that may be finished says so behind the player. -/
def Choice.encodeUnselect (finishable : UInt8) (choice : Choice) : Bytes :=
  writeUInt8 choice.player ++ writeUInt8 finishable ++ writeUInt8 choice.cancelable ++
    writeUInt32 choice.min ++ writeUInt32 choice.max

/-- What is said of a card that may be tributed. -/
structure Tribute where
  con : UInt8
  loc : UInt8
  seq : UInt32
  releaseParam : UInt8
  deriving DecidableEq, Repr

def Tribute.encode (tribute : Tribute) : Bytes :=
  writeUInt8 tribute.con ++ (writeUInt8 tribute.loc ++ writeUInt32 tribute.seq ++
    writeUInt8 tribute.releaseParam)

/-- Where a card moves from and to. -/
structure Path where
  previous : LocInfo
  current : LocInfo
  deriving DecidableEq, Repr

def writeLocInfo (info : LocInfo) : Bytes := QuerySerializer.insertLocInfo info

def Path.encode (path : Path) : Bytes := writeLocInfo path.previous ++ writeLocInfo path.current

/-- The cards of the player who comes in: those of the extra deck, then the hand. -/
structure Incoming where
  deck : UInt32
  extra : List (Entry UInt32)
  faceUp : UInt32
  hand : List (Entry UInt32)
  top : UInt32
  fits : extra.length + hand.length < 2 ^ 32
  deriving DecidableEq, Repr

namespace Incoming

def map (f : Entry UInt32 → Entry UInt32) (incoming : Incoming) : Incoming :=
  { incoming with
    extra := incoming.extra.map f
    hand := incoming.hand.map f
    fits := by simpa using incoming.fits }

theorem map_hide_of_not {hidden : UInt32 → Bool} (incoming : Incoming)
    (h : ∀ pos, hidden pos = false) : incoming.map (Entry.hide hidden) = incoming := by
  have hsame : Entry.hide hidden = id := funext fun card => Entry.hide_of_not (h card.info)
  simp [map, hsame]

def encode (incoming : Incoming) : Bytes :=
  writeUInt32 incoming.deck ++ (writeUInt32 (UInt32.ofNat incoming.extra.length) ++
    (writeUInt32 incoming.faceUp ++ (writeUInt32 (UInt32.ofNat incoming.hand.length) ++
      (writeUInt32 incoming.top ++
        (incoming.extra ++ incoming.hand).flatMap (Entry.encode writeUInt32)))))

end Incoming

/-- The types of the messages that name cards which are not for everybody. -/
def strippedTypes : List UInt8 :=
  [MSG_SET, MSG_SHUFFLE_HAND, MSG_SHUFFLE_EXTRA, MSG_DRAW, MSG_SPSUMMONING, MSG_MOVE,
    MSG_SELECT_CARD, MSG_SELECT_TRIBUTE, MSG_SELECT_UNSELECT_CARD, MSG_TAG_SWAP]

theorem notMem_strippedTypes {type : UInt8} : type ∉ strippedTypes ↔
    type ≠ MSG_SET ∧ ¬(type = MSG_SHUFFLE_HAND ∨ type = MSG_SHUFFLE_EXTRA) ∧ type ≠ MSG_DRAW ∧
      type ≠ MSG_SPSUMMONING ∧ type ≠ MSG_MOVE ∧ type ≠ MSG_SELECT_CARD ∧
      type ≠ MSG_SELECT_TRIBUTE ∧ type ≠ MSG_SELECT_UNSELECT_CARD ∧ type ≠ MSG_TAG_SWAP := by
  simp [strippedTypes, not_or, and_assoc]

/-- The messages of the engine by the cards they name. -/
inductive CardMessage where
  | set (code : UInt32) (rest : Bytes)
  | shuffle (extra : Bool) (player : UInt8) (cards : Counted (Entry Unit)) (rest : Bytes)
  | draw (player : UInt8) (cards : Counted (Entry UInt32)) (rest : Bytes)
  | spsummoning (card : Entry LocInfo) (rest : Bytes)
  | move (card : Entry Path) (rest : Bytes)
  | selectCard (choice : Choice) (cards : Counted (Entry LocInfo)) (rest : Bytes)
  | selectTribute (choice : Choice) (cards : Counted (Entry Tribute)) (rest : Bytes)
  | selectUnselect (finishable : UInt8) (choice : Choice)
      (select unselect : Counted (Entry LocInfo)) (rest : Bytes)
  | tagSwap (player : UInt8) (incoming : Incoming) (rest : Bytes)
  | other (type : UInt8) (body : Bytes) (h : type ∉ strippedTypes)
  deriving DecidableEq

namespace CardMessage

def type : CardMessage → UInt8
  | set _ _ => MSG_SET
  | shuffle extra _ _ _ => if extra then MSG_SHUFFLE_EXTRA else MSG_SHUFFLE_HAND
  | draw _ _ _ => MSG_DRAW
  | spsummoning _ _ => MSG_SPSUMMONING
  | move _ _ => MSG_MOVE
  | selectCard _ _ _ => MSG_SELECT_CARD
  | selectTribute _ _ _ => MSG_SELECT_TRIBUTE
  | selectUnselect _ _ _ _ _ => MSG_SELECT_UNSELECT_CARD
  | tagSwap _ _ _ => MSG_TAG_SWAP
  | other type _ _ => type

def body : CardMessage → Bytes
  | set code rest => writeUInt32 code ++ rest
  | shuffle _ player cards rest =>
    writeUInt8 player ++ (cards.encode (Entry.encode fun _ => []) ++ rest)
  | draw player cards rest =>
    writeUInt8 player ++ (cards.encode (Entry.encode writeUInt32) ++ rest)
  | spsummoning card rest => card.encode writeLocInfo ++ rest
  | move card rest => card.encode Path.encode ++ rest
  | selectCard choice cards rest =>
    choice.encode ++ (cards.encode (Entry.encode writeLocInfo) ++ rest)
  | selectTribute choice cards rest =>
    choice.encode ++ (cards.encode (Entry.encode Tribute.encode) ++ rest)
  | selectUnselect finishable choice select unselect rest =>
    Choice.encodeUnselect finishable choice ++
      (select.encode (Entry.encode writeLocInfo) ++
        (unselect.encode (Entry.encode writeLocInfo) ++ rest))
  | tagSwap player incoming rest => writeUInt8 player ++ (incoming.encode ++ rest)
  | other _ body _ => body

/-- The bytes the engine writes. -/
def encode (message : CardMessage) : Bytes := message.type :: message.body

end CardMessage

/-! ## The bytes of a message determine it -/

section Readers

variable {β : Type} {write : β → Bytes} {read : Reader β}

def readEntry (read : Reader β) : Reader (Entry β) := do
  let code ← readUInt32
  let info ← read
  return { code := code, info := info }

def returnCounted (l : List β) : Reader (Counted β) :=
  if h : l.length < 2 ^ 32 then return ⟨l, h⟩ else failure

def readCounted (read : Reader β) : Reader (Counted β) := do
  let count ← readUInt32
  let l ← times read count.toNat
  returnCounted l

def readChoice : Reader Choice := do
  let player ← readUInt8
  let cancelable ← readUInt8
  let min ← readUInt32
  let max ← readUInt32
  return { player := player, cancelable := cancelable, min := min, max := max }

def readUnselectChoice : Reader (UInt8 × Choice) := do
  let player ← readUInt8
  let finishable ← readUInt8
  let cancelable ← readUInt8
  let min ← readUInt32
  let max ← readUInt32
  return (finishable, { player := player, cancelable := cancelable, min := min, max := max })

def readTribute : Reader Tribute := do
  let con ← readUInt8
  let loc ← readUInt8
  let seq ← readUInt32
  let releaseParam ← readUInt8
  return { con := con, loc := loc, seq := seq, releaseParam := releaseParam }

def readPath : Reader Path := do
  let previous ← QueryDeserializer.readLocInfo
  let current ← QueryDeserializer.readLocInfo
  return { previous := previous, current := current }

def returnIncoming (deck faceUp top : UInt32) (extra hand : List (Entry UInt32)) :
    Reader Incoming :=
  if h : extra.length + hand.length < 2 ^ 32 then
    return { deck := deck, extra := extra, faceUp := faceUp, hand := hand, top := top, fits := h }
  else failure

def readIncoming : Reader Incoming := do
  let deck ← readUInt32
  let extraCount ← readUInt32
  let faceUp ← readUInt32
  let handCount ← readUInt32
  let top ← readUInt32
  let extra ← times (readEntry readUInt32) extraCount.toNat
  let hand ← times (readEntry readUInt32) handCount.toNat
  returnIncoming deck faceUp top extra hand

theorem reads_entry (h : ∀ info, Reads read (write info) info) (card : Entry β) :
    Reads (readEntry read) (card.encode write) card := by
  exact (Reads.readUInt32 card.code).bind (h card.info).bindPure

theorem reads_counted (h : ∀ info, Reads read (write info) info) (l : Counted β) :
    Reads (readCounted read) (l.encode write) l := by
  have hl : Reads (times read l.count.toNat) (l.val.flatMap write) l.val := by
    have htimes := Reads.times (f := id) (fun b (_ : b ∈ l.val) => h b)
    rwa [List.map_id, ← l.count_toNat] at htimes
  have hreturn : Reads (returnCounted l.val) [] l := by
    rw [returnCounted, dif_pos l.property]
    exact .pure l
  rw [Counted.encode, ← List.append_nil (l.val.flatMap write)]
  exact (Reads.readUInt32 l.count).bind (hl.bind hreturn)

theorem reads_choice (choice : Choice) : Reads readChoice choice.encode choice := by
  rw [Choice.encode, List.append_assoc, List.append_assoc]
  exact (Reads.readUInt8 _).bind ((Reads.readUInt8 _).bind ((Reads.readUInt32 _).bind
    (Reads.readUInt32 _).bindPure))

theorem reads_unselectChoice (finishable : UInt8) (choice : Choice) :
    Reads readUnselectChoice (choice.encodeUnselect finishable) (finishable, choice) := by
  rw [Choice.encodeUnselect, List.append_assoc, List.append_assoc, List.append_assoc]
  exact (Reads.readUInt8 _).bind ((Reads.readUInt8 _).bind ((Reads.readUInt8 _).bind
    ((Reads.readUInt32 _).bind (Reads.readUInt32 _).bindPure)))

theorem reads_tribute (tribute : Tribute) : Reads readTribute tribute.encode tribute := by
  rw [Tribute.encode, List.append_assoc]
  exact (Reads.readUInt8 _).bind ((Reads.readUInt8 _).bind ((Reads.readUInt32 _).bind
    (Reads.readUInt8 _).bindPure))

theorem reads_path (path : Path) : Reads readPath path.encode path :=
  (QueryDeserializer.reads_locInfo _).bind (QueryDeserializer.reads_locInfo _).bindPure

theorem reads_cards (cards : List (Entry UInt32)) :
    Reads (times (readEntry readUInt32) cards.length) (cards.flatMap (Entry.encode writeUInt32))
      cards := by
  have htimes := Reads.times (f := id) (fun b (_ : b ∈ cards) => reads_entry Reads.readUInt32 b)
  rwa [List.map_id] at htimes

theorem reads_incoming (incoming : Incoming) :
    Reads readIncoming incoming.encode incoming := by
  have hfits := incoming.fits
  have hextra := reads_cards incoming.extra
  have hhand := reads_cards incoming.hand
  rw [← UInt32.toNat_ofNat_of_lt' (by omega : incoming.extra.length < 2 ^ 32)] at hextra
  rw [← UInt32.toNat_ofNat_of_lt' (by omega : incoming.hand.length < 2 ^ 32)] at hhand
  have hreturn : Reads (returnIncoming incoming.deck incoming.faceUp incoming.top incoming.extra
      incoming.hand) [] incoming := by
    rw [returnIncoming, dif_pos hfits]
    exact .pure incoming
  rw [Incoming.encode, List.flatMap_append,
    ← List.append_nil (incoming.hand.flatMap (Entry.encode writeUInt32))]
  exact (Reads.readUInt32 _).bind ((Reads.readUInt32 _).bind ((Reads.readUInt32 _).bind
    ((Reads.readUInt32 _).bind ((Reads.readUInt32 _).bind (hextra.bind (hhand.bind hreturn))))))

end Readers

namespace CardMessage
open QueryDeserializer (readLocInfo reads_locInfo)

/-- What is read behind the type. Whatever follows the cards is left over. -/
def readBody (type : UInt8) (body : Bytes) : Option CardMessage :=
  if type = MSG_SET then do
    let (code, rest) ← readUInt32 body
    return set code rest
  else if type = MSG_SHUFFLE_HAND ∨ type = MSG_SHUFFLE_EXTRA then do
    let (player, body) ← readUInt8 body
    let (cards, rest) ← readCounted (readEntry (pure ())) body
    return shuffle (type = MSG_SHUFFLE_EXTRA) player cards rest
  else if type = MSG_DRAW then do
    let (player, body) ← readUInt8 body
    let (cards, rest) ← readCounted (readEntry readUInt32) body
    return draw player cards rest
  else if type = MSG_SPSUMMONING then do
    let (card, rest) ← readEntry readLocInfo body
    return spsummoning card rest
  else if type = MSG_MOVE then do
    let (card, rest) ← readEntry readPath body
    return move card rest
  else if type = MSG_SELECT_CARD then do
    let (choice, body) ← readChoice body
    let (cards, rest) ← readCounted (readEntry readLocInfo) body
    return selectCard choice cards rest
  else if type = MSG_SELECT_TRIBUTE then do
    let (choice, body) ← readChoice body
    let (cards, rest) ← readCounted (readEntry readTribute) body
    return selectTribute choice cards rest
  else if type = MSG_SELECT_UNSELECT_CARD then do
    let ((finishable, choice), body) ← readUnselectChoice body
    let (select, body) ← readCounted (readEntry readLocInfo) body
    let (unselect, rest) ← readCounted (readEntry readLocInfo) body
    return selectUnselect finishable choice select unselect rest
  else if type = MSG_TAG_SWAP then do
    let (player, body) ← readUInt8 body
    let (incoming, rest) ← readIncoming body
    return tagSwap player incoming rest
  else if h : type ∉ strippedTypes then some (other type body h)
  else none

def decode : Bytes → Option CardMessage
  | [] => none
  | type :: body => readBody type body

theorem decode_encode (message : CardMessage) : decode message.encode = some message := by
  cases message with
  | set code rest => simp +decide [decode, encode, type, body, readBody, Reads.readUInt32 code rest]
  | shuffle extra player cards rest =>
    have hplayer := Reads.readUInt8 player
    have hinfo : ∀ info : Unit, Reads (pure ()) ((fun _ => []) info) info := fun _ => Reads.pure ()
    have hcards := reads_counted (reads_entry hinfo) cards
    cases extra <;> simp +decide [decode, encode, type, body, readBody, hplayer _, hcards rest]
  | draw player cards rest =>
    have hplayer := Reads.readUInt8 player
    have hcards := reads_counted (reads_entry Reads.readUInt32) cards
    simp +decide [decode, encode, type, body, readBody, hplayer _, hcards rest]
  | spsummoning card rest =>
    have hcard : Reads (readEntry readLocInfo) (card.encode writeLocInfo) card :=
      reads_entry reads_locInfo card
    simp +decide [decode, encode, type, body, readBody, hcard rest]
  | move card rest =>
    have hcard := reads_entry reads_path card
    simp +decide [decode, encode, type, body, readBody, hcard rest]
  | selectCard choice cards rest =>
    have hcards : Reads (readCounted (readEntry readLocInfo))
      (cards.encode (Entry.encode writeLocInfo)) cards := reads_counted (reads_entry reads_locInfo) cards
    simp +decide [decode, encode, type, body, readBody, reads_choice choice _, hcards rest]
  | selectTribute choice cards rest =>
    have hcards := reads_counted (reads_entry reads_tribute) cards
    simp +decide [decode, encode, type, body, readBody, reads_choice choice _, hcards rest]
  | selectUnselect finishable choice select unselect rest =>
    have hcards : ∀ cards, Reads (readCounted (readEntry readLocInfo))
      (cards.encode (Entry.encode writeLocInfo)) cards := reads_counted (reads_entry reads_locInfo)
    simp +decide [decode, encode, type, body, readBody, reads_unselectChoice finishable choice _,
      hcards select _, hcards unselect rest]
  | tagSwap player incoming rest =>
    have hplayer := Reads.readUInt8 player
    simp +decide [decode, encode, type, body, readBody, hplayer _, reads_incoming incoming rest]
  | other type body h =>
    obtain ⟨hset, hshuffle, hdraw, hsummoning, hmove, hcard, htribute, hunselect, hswap⟩ :=
      notMem_strippedTypes.mp h
    rw [encode, decode, CardMessage.type, CardMessage.body, readBody, if_neg hset, if_neg hshuffle,
      if_neg hdraw, if_neg hsummoning, if_neg hmove, if_neg hcard, if_neg htribute,
      if_neg hunselect, if_neg hswap, dif_pos h]

theorem encode_injective : Function.Injective encode := by
  intro message message' h
  rw [← Option.some_inj, ← decode_encode, ← decode_encode, h]

end CardMessage

end EdoproServer.Core
