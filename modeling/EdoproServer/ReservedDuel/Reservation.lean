import EdoproServer.Lib.Json
import Mathlib

namespace EdoproServer.ReservedDuel
open Lib

inductive ReservationMode where
  | single
  | «match»
  deriving DecidableEq, Repr

inductive DeckLockKind where
  | exact
  | registered
  deriving DecidableEq, Repr

structure RequiredDeck where
  main : List Rat
  extra : List Rat
  side : List Rat
  deriving DecidableEq, Repr

inductive ReservationParticipant where
  | user (seat : Nat) (userId : String) (requiredDeck : Option RequiredDeck)
  | windbot (seat : Nat) (botName : String)
  deriving DecidableEq, Repr

namespace ReservationParticipant

def seat : ReservationParticipant → Nat
  | user seat _ _ => seat
  | windbot seat _ => seat

def isUser : ReservationParticipant → Bool
  | user .. => true
  | windbot .. => false

end ReservationParticipant

structure ReservationOptions where
  spectators : Bool
  listed : Bool
  reconnect : Bool
  deckLock : DeckLockKind
  lobbyTimeoutSeconds : Rat
  deriving DecidableEq, Repr

structure Reservation where
  id : String
  format : String
  mode : ReservationMode
  participants : List ReservationParticipant
  options : ReservationOptions
  deriving DecidableEq, Repr

def RESERVATION_VERSION : Rat := 1

def DEFAULT_LOBBY_TIMEOUT_SECONDS : Rat := 120

/-- `RESERVATION_ID_PATTERN`: sixteen ASCII letters and digits. -/
def isReservationId (id : String) : Bool :=
  id.toList.length = 16 && id.toList.all Char.isAlphanum

/-! ## Parsing -/

def asString : Option Json → Option String
  | some (.string text) => some text
  | _ => none

def nonEmptyString (value : Option Json) : Option String :=
  (asString value).filter (fun text => text ≠ "")

/-- `value === expected`. -/
def isNumber (value : Option Json) (expected : Rat) : Bool :=
  match value with
  | some (.number number) => number = expected
  | _ => false

/-- `value === true`. -/
def isTrue : Option Json → Bool
  | some (.bool value) => value
  | _ => false

/-- An empty object reads as an empty list: the claim script has no other empty list. -/
def asList : Json → Option (List Json)
  | .array elements => some elements
  | .object [] => some []
  | _ => none

def cardCode : Json → Option Rat
  | .number code => if code.isInt ∧ 0 < code then some code else none
  | _ => none

def asCardList : Option Json → Option (List Rat)
  | none => some []
  | some .null => some []
  | some value => (asList value).bind (fun list => list.mapM cardCode)

/-- `none` is a malformed deck, `some none` no deck at all. -/
def parseRequiredDeck : Option Json → Option (Option RequiredDeck)
  | none => some none
  | some .null => some none
  | some (.object members) => do
    let main ← asCardList (Json.memberOf members "main")
    let extra ← asCardList (Json.memberOf members "extra")
    let side ← asCardList (Json.memberOf members "side")
    return some { main, extra, side }
  | some _ => none

def readSeat (value : Option Json) : Option Nat :=
  if isNumber value 0 then some 0 else if isNumber value 1 then some 1 else none

def parseParticipant (value : Json) : Option ReservationParticipant :=
  if !value.isObject then none
  else do
    let seat ← readSeat (value.field "seat")
    if asString (value.field "kind") = some "user" then
      let userId ← nonEmptyString (value.field "userId")
      let requiredDeck ← parseRequiredDeck (value.field "requiredDeck")
      return .user seat userId requiredDeck
    else if asString (value.field "kind") = some "windbot" then
      let botName ← nonEmptyString (value.field "botName")
      return .windbot seat botName
    else none

def readDeckLock : Option Json → Option DeckLockKind
  | none => some .exact
  | some .null => some .exact
  | some (.string text) =>
    if text = "exact" then some .exact
    else if text = "registered" then some .registered
    else none
  | some _ => none

def readTimeout : Option Json → Option Rat
  | none => some DEFAULT_LOBBY_TIMEOUT_SECONDS
  | some .null => some DEFAULT_LOBBY_TIMEOUT_SECONDS
  | some (.number timeout) => if 0 < timeout then some timeout else none
  | some _ => none

/-- The members of the options; anything but an object has none. -/
def optionOf (value : Option Json) (name : String) : Option Json :=
  value.bind (fun options => options.field name)

def parseOptions (value : Option Json) : Option ReservationOptions := do
  let deckLock ← readDeckLock (optionOf value "deckLock")
  let timeout ← readTimeout (optionOf value "lobbyTimeoutSeconds")
  return {
    spectators := isTrue (optionOf value "spectators")
    listed := isTrue (optionOf value "listed")
    reconnect := isTrue (optionOf value "reconnect")
    deckLock := deckLock
    lobbyTimeoutSeconds := timeout }

def readMode (value : Option Json) : Option ReservationMode :=
  if asString value = some "single" then some .single
  else if asString value = some "match" then some .match
  else none

/-- Two readable participants on two seats, a human among them, in the order of their seats. -/
def seatParticipants (values : List Json) : Option (List ReservationParticipant) :=
  match values.map parseParticipant with
  | [some first, some second] =>
    if first.seat = second.seat || !(first.isUser || second.isUser) then none
    else if first.seat ≤ second.seat then some [first, second]
    else some [second, first]
  | _ => none

def participantsOf (value : Json) : List Json :=
  ((value.field "participants").bind asList).getD []

/-- Reads a stored reservation, or nothing of one it cannot honour exactly. -/
def parseReservation (toLowerCase : String → String) (value : Json) : Option Reservation :=
  if !value.isObject || !isNumber (value.field "v") RESERVATION_VERSION then none
  else do
    let id ← (asString (value.field "reservationId")).filter isReservationId
    let format ← nonEmptyString (value.field "format")
    let mode ← readMode (value.field "mode")
    let participants ← seatParticipants (participantsOf value)
    let options ← parseOptions (value.field "options")
    return {
      id := id
      format := toLowerCase format
      mode := mode
      participants := participants
      options := options }

/-! ## The claim script -/

inductive ClaimStatus where
  | missing
  | notParticipant
  | claimed
  | alreadyClaimedHere
  | claimedElsewhere
  deriving DecidableEq, Repr

/-- The script's reply and the document it leaves under the key. -/
structure ClaimReply where
  status : ClaimStatus
  payload : Option Json
  stored : Option Json

def hasParticipant (reservation : Json) (userId : String) : Bool :=
  match reservation.field "participants" with
  | some (.array participants) =>
    participants.any (fun p =>
      asString (p.field "kind") = some "user" && asString (p.field "userId") = some userId)
  | _ => false

/-- `reservation.claim = { … }`. -/
def setClaim (reservation claim : Json) : Json :=
  match reservation with
  | .object members => .object (members ++ [("claim", claim)])
  | other => other

/-- A value that Lua decodes as a table. -/
def isTable : Json → Bool
  | .array _ => true
  | .object _ => true
  | _ => false

/-- `CLAIM_RESERVATION_SCRIPT` on a stored JSON document. What `cjson` prints a number as is a
parameter. -/
def claimReservation (printed : Rat → Rat) (instanceId userId claimedAt : String)
    (raw : Option Json) : ClaimReply :=
  match raw with
  | none => { status := .missing, payload := none, stored := none }
  | some reservation =>
    if !isTable reservation then { status := .missing, payload := none, stored := raw }
    else if !hasParticipant reservation userId then
      { status := .notParticipant, payload := none, stored := raw }
    else
      let claim : Json :=
        .object [("instanceId", .string instanceId), ("at", .string claimedAt)]
      let rewritten := (setClaim reservation claim).throughLua printed
      match reservation.field "claim" with
      | none => { status := .claimed, payload := raw, stored := some rewritten }
      | some .null => { status := .claimed, payload := raw, stored := some rewritten }
      | some claim =>
        if asString (claim.field "instanceId") = some instanceId then
          { status := .alreadyClaimedHere, payload := raw, stored := raw }
        else { status := .claimedElsewhere, payload := none, stored := raw }

/-! ## What survives the script -/

/-- What is relied on of the numbers `cjson` prints with fourteen digits: zero and one stay, and a
positive number or a positive integer stays one. -/
structure PrintsNumbers (printed : Rat → Rat) : Prop where
  zero : printed 0 = 0
  one : printed 1 = 1
  pos : ∀ x, 0 < x → 0 < printed x
  isInt : ∀ x, 0 < x → x.isInt = true → (printed x).isInt = true

def NumberKept (printed : Rat → Rat) (value : Option Json) : Prop :=
  ∀ x, value = some (.number x) → printed x = x

def listOf (value : Option Json) : List Json := (value.bind asList).getD []

/-- A deck that is not an empty array, with cards whose codes are kept. -/
def DeckKept (printed : Rat → Rat) (deck : Option Json) : Prop :=
  deck ≠ some (.array []) ∧
    ∀ part ∈ ["main", "extra", "side"],
      ∀ card ∈ listOf (deck.bind (fun deck => deck.field part)), NumberKept printed (some card)

def ParticipantKept (printed : Rat → Rat) (participant : Json) : Prop :=
  NumberKept printed (participant.field "seat") ∧
    (asString (participant.field "kind") = some "user" →
      DeckKept printed (participant.field "requiredDeck"))

/-- The script changes nothing that is read of the document. -/
def Preserved (printed : Rat → Rat) (doc : Json) : Prop :=
  NumberKept printed (doc.field "v") ∧
    (∀ participant ∈ participantsOf doc, ParticipantKept printed participant) ∧
    NumberKept printed (optionOf (doc.field "options") "lobbyTimeoutSeconds")

section Parts

variable {printed : Rat → Rat} {value : Option Json} {participant : Json}

/-- A reading that takes every table and every number alike is the same after the script. -/
theorem read_throughLua {α : Type} (read : Option Json → α) (malformed : α)
    (htable : ∀ json, isTable json = true → read (some json) = malformed)
    (hnumber : ∀ x, read (some (.number x)) = malformed) :
    read (value.map (Json.throughLua printed)) = read value := by
  match value with
  | none => rfl
  | some (.array elements) =>
    have hafter : isTable ((Json.array elements).throughLua printed) = true := by
      cases elements <;> rfl
    rw [Option.map_some, htable _ hafter, htable _ rfl]
  | some (.object members) =>
    have hafter : isTable ((Json.object members).throughLua printed) = true := rfl
    rw [Option.map_some, htable _ hafter, htable _ rfl]
  | some (.number x) => exact (hnumber (printed x)).trans (hnumber x).symm
  | some .null => rfl
  | some (.bool _) => rfl
  | some (.string _) => rfl

@[simp] theorem asString_throughLua :
    asString (value.map (Json.throughLua printed)) = asString value := by
  apply read_throughLua asString none
  · intro json htable
    cases json <;> first | rfl | cases htable
  · intro _
    rfl

@[simp] theorem isTrue_throughLua :
    isTrue (value.map (Json.throughLua printed)) = isTrue value := by
  apply read_throughLua isTrue false
  · intro json htable
    cases json <;> first | rfl | cases htable
  · intro _
    rfl

@[simp] theorem readDeckLock_throughLua :
    readDeckLock (value.map (Json.throughLua printed)) = readDeckLock value := by
  apply read_throughLua readDeckLock none
  · intro json htable
    cases json <;> first | rfl | cases htable
  · intro _
    rfl

@[simp] theorem nonEmptyString_throughLua :
    nonEmptyString (value.map (Json.throughLua printed)) = nonEmptyString value := by
  simp [nonEmptyString]

@[simp] theorem readMode_throughLua :
    readMode (value.map (Json.throughLua printed)) = readMode value := by
  simp [readMode]

theorem isNumber_throughLua (expected : Rat) :
    isNumber (value.map (Json.throughLua printed)) expected = true ↔
      ∃ x, value = some (.number x) ∧ printed x = expected := by
  match value with
  | none => simp [isNumber]
  | some (.array []) => simp [isNumber, Json.throughLua]
  | some (.array (_ :: _)) => simp [isNumber, Json.throughLua]
  | some (.object _) => simp [isNumber]
  | some .null => simp [isNumber, Json.throughLua]
  | some (.bool _) => simp [isNumber, Json.throughLua]
  | some (.number _) => simp [isNumber, Json.throughLua]
  | some (.string _) => simp [isNumber, Json.throughLua]

theorem isNumber_iff {expected : Rat} :
    isNumber value expected = true ↔ value = some (.number expected) := by
  unfold isNumber
  split
  · simp
  · rename_i hnot
    simp only [Bool.false_eq_true, false_iff]
    exact hnot expected

/-- An empty list of the script still reads as a list. -/
@[simp] theorem asList_throughLua (value : Json) :
    asList (value.throughLua printed) =
      (asList value).map (List.map (Json.throughLua printed)) := by
  match value with
  | .array [] => rfl
  | .array (element :: elements) =>
    rw [Json.throughLua_array (List.cons_ne_nil element elements)]
    rfl
  | .object [] => simp [asList]
  | .object (_ :: _) => simp [asList]
  | .null => rfl
  | .bool _ => rfl
  | .number _ => rfl
  | .string _ => rfl

@[simp] theorem listOf_throughLua :
    listOf (value.map (Json.throughLua printed)) =
      (listOf value).map (Json.throughLua printed) := by
  cases value with
  | none => rfl
  | some value => cases hlist : asList value <;> simp [listOf, hlist]

/-! ## Cards and decks -/

theorem cardCode_eq_some {card : Json} {code : Rat} :
    cardCode card = some code ↔ card = .number code ∧ code.isInt = true ∧ 0 < code := by
  unfold cardCode
  split
  · rename_i number
    split
    · rename_i hcode
      simp only [Option.some.injEq, Json.number.injEq]
      constructor
      · rintro rfl
        exact ⟨rfl, hcode⟩
      · exact And.left
    · rename_i hnot
      simp only [reduceCtorEq, Json.number.injEq, false_iff]
      rintro ⟨rfl, hcode⟩
      exact hnot hcode
  · rename_i hnot
    simp only [reduceCtorEq, false_iff]
    rintro ⟨rfl, -⟩
    exact hnot code rfl

theorem cardCode_throughLua {card : Json} (hkept : NumberKept printed (some card)) :
    cardCode (card.throughLua printed) = cardCode card := by
  cases card with
  | number x =>
    have hx : printed x = x := hkept x rfl
    simp [Json.throughLua, hx]
  | array elements => cases elements <;> rfl
  | _ => rfl

/-- A value that is absent or reads as a list. -/
def isListLike : Option Json → Bool
  | none => true
  | some .null => true
  | some value => (asList value).isSome

theorem asCardList_eq :
    asCardList value = if isListLike value then (listOf value).mapM cardCode else none := by
  match value with
  | none => rfl
  | some .null => rfl
  | some (.array _) => rfl
  | some (.object []) => rfl
  | some (.object (_ :: _)) => rfl
  | some (.bool _) => rfl
  | some (.number _) => rfl
  | some (.string _) => rfl

@[simp] theorem isListLike_throughLua :
    isListLike (value.map (Json.throughLua printed)) = isListLike value := by
  match value with
  | none => rfl
  | some .null => rfl
  | some (.array []) => rfl
  | some (.array (_ :: _)) => rfl
  | some (.object []) => simp [isListLike]
  | some (.object (_ :: _)) => simp [isListLike, asList]
  | some (.bool _) => rfl
  | some (.number _) => rfl
  | some (.string _) => rfl

theorem mapM_cardCode_throughLua {list : List Json}
    (hkept : ∀ card ∈ list, NumberKept printed (some card)) :
    (list.map (Json.throughLua printed)).mapM cardCode = list.mapM cardCode := by
  induction list with
  | nil => rfl
  | cons card list ih =>
    have hcard := cardCode_throughLua (hkept card List.mem_cons_self)
    have hlist := ih (fun other hother => hkept other (List.mem_cons_of_mem card hother))
    rw [List.map_cons, List.mapM_cons, List.mapM_cons, hcard, hlist]

theorem mapM_cardCode_eq_some {list : List Json} {codes : List Rat} :
    list.mapM cardCode = some codes ↔
      list = codes.map Json.number ∧ ∀ code ∈ codes, code.isInt = true ∧ 0 < code := by
  induction list generalizing codes with
  | nil =>
    cases codes <;> simp
  | cons card list ih =>
    simp only [List.mapM_cons, Option.bind_eq_bind, Option.bind_eq_some_iff, Option.pure_def,
      Option.some.injEq, cardCode_eq_some, ih]
    constructor
    · rintro ⟨code, ⟨rfl, hcode⟩, rest, ⟨rfl, hrest⟩, rfl⟩
      exact ⟨rfl, List.forall_mem_cons.mpr ⟨hcode, hrest⟩⟩
    · rintro ⟨hlist, hcodes⟩
      cases codes with
      | nil => cases hlist
      | cons code codes =>
        obtain ⟨hcode, hrest⟩ := List.forall_mem_cons.mp hcodes
        obtain ⟨rfl, rfl⟩ := List.cons.inj hlist
        exact ⟨code, ⟨rfl, hcode⟩, codes, ⟨rfl, hrest⟩, rfl⟩

theorem asCardList_kept (hkept : ∀ card ∈ listOf value, NumberKept printed (some card)) :
    asCardList (value.map (Json.throughLua printed)) = asCardList value := by
  rw [asCardList_eq, asCardList_eq, isListLike_throughLua, listOf_throughLua,
    mapM_cardCode_throughLua hkept]

/-- Readable cards stay readable, each as the number that is printed for it. -/
theorem asCardList_printed (hprinted : PrintsNumbers printed) {codes : List Rat}
    (h : asCardList value = some codes) :
    asCardList (value.map (Json.throughLua printed)) = some (codes.map printed) := by
  rw [asCardList_eq] at h ⊢
  rw [isListLike_throughLua, listOf_throughLua]
  split at h
  · rename_i hlist
    obtain ⟨hcards, hcodes⟩ := mapM_cardCode_eq_some.mp h
    rw [if_pos hlist, mapM_cardCode_eq_some, hcards]
    refine ⟨by simp [Json.throughLua], ?_⟩
    intro code hcode
    obtain ⟨number, hnumber, rfl⟩ := List.mem_map.mp hcode
    obtain ⟨hint, hpos⟩ := hcodes number hnumber
    exact ⟨hprinted.isInt number hpos hint, hprinted.pos number hpos⟩
  · cases h

/-- Cards that read the same are printed as they are. -/
theorem kept_of_asCardList {codes : List Rat} (h : asCardList value = some codes)
    (hsame : codes.map printed = codes) :
    ∀ card ∈ listOf value, NumberKept printed (some card) := by
  rw [asCardList_eq] at h
  split at h
  · obtain ⟨hcards, -⟩ := mapM_cardCode_eq_some.mp h
    rw [hcards]
    intro card hcard x hx
    obtain ⟨code, hcode, rfl⟩ := List.mem_map.mp hcard
    obtain rfl : code = x := by simpa using hx
    exact List.map_inj_left.mp (hsame.trans (List.map_id codes).symm) code hcode
  · cases h

theorem parseRequiredDeck_object {members : List (String × Json)}
    {deck : Option RequiredDeck} :
    parseRequiredDeck (some (.object members)) = some deck ↔
      ∃ main extra side, asCardList (Json.memberOf members "main") = some main ∧
        asCardList (Json.memberOf members "extra") = some extra ∧
        asCardList (Json.memberOf members "side") = some side ∧
        deck = some { main, extra, side } := by
  simp only [parseRequiredDeck, Option.bind_eq_bind, Option.bind_eq_some_iff, Option.pure_def,
    Option.some.injEq]
  constructor
  · rintro ⟨main, hmain, extra, hextra, side, hside, rfl⟩
    exact ⟨main, extra, side, hmain, hextra, hside, rfl⟩
  · rintro ⟨main, extra, side, hmain, hextra, hside, rfl⟩
    exact ⟨main, hmain, extra, hextra, side, hside, rfl⟩

theorem parseRequiredDeck_kept (hkept : DeckKept printed value) :
    parseRequiredDeck (value.map (Json.throughLua printed)) = parseRequiredDeck value := by
  match value with
  | none => rfl
  | some .null => rfl
  | some (.array []) => exact absurd rfl hkept.1
  | some (.array (_ :: _)) => rfl
  | some (.object members) =>
    have hmain := asCardList_kept (hkept.2 "main" (by simp))
    have hextra := asCardList_kept (hkept.2 "extra" (by simp))
    have hside := asCardList_kept (hkept.2 "side" (by simp))
    simp only [Option.bind_some, Json.field] at hmain hextra hside
    simp only [Option.map_some, Json.throughLua_object, parseRequiredDeck, Json.memberOf_map,
      hmain, hextra, hside]
  | some (.bool _) => rfl
  | some (.number _) => rfl
  | some (.string _) => rfl

/-- A readable deck stays readable. -/
theorem parseRequiredDeck_printed (hprinted : PrintsNumbers printed) {deck : Option RequiredDeck}
    (h : parseRequiredDeck value = some deck) :
    ∃ deck', parseRequiredDeck (value.map (Json.throughLua printed)) = some deck' := by
  match value with
  | none => exact ⟨none, rfl⟩
  | some .null => exact ⟨none, rfl⟩
  | some (.object members) =>
    obtain ⟨main, extra, side, hmain, hextra, hside, -⟩ := parseRequiredDeck_object.mp h
    rw [Option.map_some, Json.throughLua_object]
    refine ⟨_, parseRequiredDeck_object.mpr ⟨main.map printed, extra.map printed,
      side.map printed, ?_, ?_, ?_, rfl⟩⟩
    · rw [Json.memberOf_map, asCardList_printed hprinted hmain]
    · rw [Json.memberOf_map, asCardList_printed hprinted hextra]
    · rw [Json.memberOf_map, asCardList_printed hprinted hside]

/-- A deck that reads the same on both sides is kept. -/
theorem kept_of_parseRequiredDeck (hprinted : PrintsNumbers printed) {deck : Option RequiredDeck}
    (h : parseRequiredDeck value = some deck)
    (hsame : parseRequiredDeck (value.map (Json.throughLua printed)) = some deck) :
    DeckKept printed value := by
  match value with
  | none => exact ⟨by simp, by simp [listOf]⟩
  | some .null => exact ⟨by simp, by simp [listOf, Json.field]⟩
  | some (.object members) =>
    obtain ⟨main, extra, side, hmain, hextra, hside, rfl⟩ := parseRequiredDeck_object.mp h
    rw [Option.map_some, Json.throughLua_object] at hsame
    obtain ⟨main', extra', side', hmain', hextra', hside', heq⟩ :=
      parseRequiredDeck_object.mp hsame
    obtain ⟨rfl, rfl, rfl⟩ : main = main' ∧ extra = extra' ∧ side = side' := by simpa using heq
    rw [Json.memberOf_map] at hmain' hextra' hside'
    have hkept : ∀ {part : Option Json} {codes : List Rat}, asCardList part = some codes →
        asCardList (part.map (Json.throughLua printed)) = some codes →
          ∀ card ∈ listOf part, NumberKept printed (some card) := by
      intro part codes hcodes hcodes'
      have hprint := asCardList_printed hprinted hcodes
      exact kept_of_asCardList hcodes (Option.some.inj (hprint.symm.trans hcodes'))
    refine ⟨by simp, ?_⟩
    simp only [List.forall_mem_cons, Option.bind_some, Json.field]
    exact ⟨hkept hmain hmain', hkept hextra hextra', hkept hside hside', by simp⟩

/-! ## Participants and options -/

theorem isNumber_kept {expected : Rat} (hkept : NumberKept printed value) :
    isNumber (value.map (Json.throughLua printed)) expected = isNumber value expected := by
  rw [Bool.eq_iff_iff, isNumber_throughLua, isNumber_iff]
  constructor
  · rintro ⟨x, hx, rfl⟩
    rw [hkept x hx]
    exact hx
  · intro hx
    exact ⟨expected, hx, hkept expected hx⟩

theorem readSeat_kept (hkept : NumberKept printed value) :
    readSeat (value.map (Json.throughLua printed)) = readSeat value := by
  simp only [readSeat, isNumber_kept hkept]

theorem readSeat_eq_some {seat : Nat} (h : readSeat value = some seat) :
    value = some (.number seat) ∧ (seat = 0 ∨ seat = 1) := by
  unfold readSeat at h
  split at h
  · rename_i hzero
    obtain rfl := Option.some.inj h
    exact ⟨by simpa using isNumber_iff.mp hzero, Or.inl rfl⟩
  · split at h
    · rename_i hone
      obtain rfl := Option.some.inj h
      exact ⟨by simpa using isNumber_iff.mp hone, Or.inr rfl⟩
    · cases h

/-- A seat that is read is printed as it is. -/
theorem kept_of_readSeat (hprinted : PrintsNumbers printed) {seat : Nat}
    (h : readSeat value = some seat) : NumberKept printed value := by
  obtain ⟨rfl, hseat⟩ := readSeat_eq_some h
  intro x hx
  obtain rfl : (seat : Rat) = x := by simpa using hx
  rcases hseat with rfl | rfl
  · exact hprinted.zero
  · exact hprinted.one

theorem parseParticipant_eq_some {parsed : ReservationParticipant} :
    parseParticipant participant = some parsed ↔
      participant.isObject = true ∧ ∃ seat, readSeat (participant.field "seat") = some seat ∧
        ((asString (participant.field "kind") = some "user" ∧
            ∃ userId deck, nonEmptyString (participant.field "userId") = some userId ∧
              parseRequiredDeck (participant.field "requiredDeck") = some deck ∧
              parsed = .user seat userId deck) ∨
          (asString (participant.field "kind") = some "windbot" ∧
            ∃ botName, nonEmptyString (participant.field "botName") = some botName ∧
              parsed = .windbot seat botName)) := by
  unfold parseParticipant
  cases hobject : participant.isObject with
  | false => simp
  | true =>
    simp only [Bool.not_true, Bool.false_eq_true, if_false, Option.bind_eq_bind,
      Option.bind_eq_some_iff, true_and]
    refine exists_congr (fun seat => and_congr_right (fun _ => ?_))
    by_cases huser : asString (participant.field "kind") = some "user"
    · simp [huser, Option.bind_eq_some_iff, @eq_comm _ parsed]
    · by_cases hbot : asString (participant.field "kind") = some "windbot"
      · simp [hbot, Option.bind_eq_some_iff, @eq_comm _ parsed]
      · simp [huser, hbot]

theorem parseParticipant_kept (hkept : ParticipantKept printed participant) :
    parseParticipant (participant.throughLua printed) = parseParticipant participant := by
  cases participant with
  | array elements => cases elements <;> rfl
  | object members =>
    have hseat := readSeat_kept hkept.1
    by_cases huser : asString ((Json.object members).field "kind") = some "user"
    · have hdeck := parseRequiredDeck_kept (hkept.2 huser)
      simp only [parseParticipant, Json.field_throughLua, hseat, hdeck, asString_throughLua,
        nonEmptyString_throughLua]
      rfl
    · simp only [parseParticipant, Json.field_throughLua, hseat, asString_throughLua,
        nonEmptyString_throughLua, huser, if_false]
      rfl
  | _ => rfl

/-- A readable participant stays readable, on its seat and of its kind. -/
theorem parseParticipant_printed (hprinted : PrintsNumbers printed)
    {parsed : ReservationParticipant} (h : parseParticipant participant = some parsed) :
    ∃ parsed', parseParticipant (participant.throughLua printed) = some parsed' ∧
      parsed'.seat = parsed.seat ∧ parsed'.isUser = parsed.isUser := by
  obtain ⟨hobject, seat, hseat, hkind⟩ := parseParticipant_eq_some.mp h
  have hobject' : (participant.throughLua printed).isObject = true := by
    obtain ⟨members, rfl⟩ := Json.isObject_iff.mp hobject
    rfl
  have hseat' : readSeat ((participant.throughLua printed).field "seat") = some seat := by
    rw [Json.field_throughLua, readSeat_kept (kept_of_readSeat hprinted hseat), hseat]
  rcases hkind with ⟨huser, userId, deck, huserId, hdeck, rfl⟩ | ⟨hbot, botName, hbotName, rfl⟩
  · obtain ⟨deck', hdeck'⟩ := parseRequiredDeck_printed hprinted hdeck
    refine ⟨.user seat userId deck', parseParticipant_eq_some.mpr ⟨hobject', seat, hseat', ?_⟩,
      rfl, rfl⟩
    exact Or.inl ⟨by simpa using huser, userId, deck', by simpa using huserId,
      by simpa using hdeck', rfl⟩
  · refine ⟨.windbot seat botName, parseParticipant_eq_some.mpr ⟨hobject', seat, hseat', ?_⟩,
      rfl, rfl⟩
    exact Or.inr ⟨by simpa using hbot, botName, by simpa using hbotName, rfl⟩

/-- A participant that reads the same on both sides is kept. -/
theorem kept_of_parseParticipant (hprinted : PrintsNumbers printed)
    {parsed : ReservationParticipant} (h : parseParticipant participant = some parsed)
    (hsame : parseParticipant (participant.throughLua printed) = some parsed) :
    ParticipantKept printed participant := by
  obtain ⟨-, seat, hseat, hkind⟩ := parseParticipant_eq_some.mp h
  refine ⟨kept_of_readSeat hprinted hseat, fun huser => ?_⟩
  obtain ⟨-, seat', -, hkind'⟩ := parseParticipant_eq_some.mp hsame
  rcases hkind with ⟨-, userId, deck, -, hdeck, rfl⟩ | ⟨hbot, -⟩
  · rcases hkind' with ⟨-, userId', deck', -, hdeck', heq⟩ | ⟨-, botName, -, heq⟩
    · obtain ⟨-, -, rfl⟩ := ReservationParticipant.user.inj heq
      exact kept_of_parseRequiredDeck hprinted hdeck (by simpa using hdeck')
    · cases heq
  · rw [huser] at hbot
    exact absurd hbot (by decide)

theorem seatParticipants_eq_some {values : List Json} {seated : List ReservationParticipant} :
    seatParticipants values = some seated ↔
      ∃ a b first second, values = [a, b] ∧ parseParticipant a = some first ∧
        parseParticipant b = some second ∧ first.seat ≠ second.seat ∧
        (first.isUser || second.isUser) = true ∧
        seated = if first.seat ≤ second.seat then [first, second] else [second, first] := by
  unfold seatParticipants
  constructor
  · intro h
    split at h
    · rename_i first second hparsed
      obtain ⟨a, rest, rfl, ha, hrest⟩ := List.map_eq_cons_iff.mp hparsed
      obtain ⟨b, rest, rfl, hb, hrest⟩ := List.map_eq_cons_iff.mp hrest
      obtain rfl := List.map_eq_nil_iff.mp hrest
      split at h
      · cases h
      · rename_i hseats
        simp only [Bool.or_eq_true, decide_eq_true_eq, Bool.not_eq_true', not_or,
          Bool.not_eq_false] at hseats
        obtain ⟨hseats, huser⟩ := hseats
        refine ⟨a, b, first, second, rfl, ha, hb, hseats, by simpa using huser, ?_⟩
        split at h <;> simp_all
    · cases h
  · rintro ⟨a, b, first, second, rfl, ha, hb, hseats, huser, rfl⟩
    simp only [List.map_cons, List.map_nil, ha, hb, huser, hseats, decide_false, Bool.not_true,
      Bool.or_self, Bool.false_eq_true, if_false]
    split <;> rfl

theorem seatParticipants_kept {values : List Json}
    (hkept : ∀ participant ∈ values, ParticipantKept printed participant) :
    seatParticipants (values.map (Json.throughLua printed)) = seatParticipants values := by
  have hparsed : (values.map (Json.throughLua printed)).map parseParticipant =
      values.map parseParticipant := by
    rw [List.map_map]
    exact List.map_congr_left (fun participant hin => parseParticipant_kept (hkept participant hin))
  rw [seatParticipants, seatParticipants, hparsed]

theorem seatParticipants_printed (hprinted : PrintsNumbers printed) {values : List Json}
    {seated : List ReservationParticipant} (h : seatParticipants values = some seated) :
    ∃ seated', seatParticipants (values.map (Json.throughLua printed)) = some seated' := by
  obtain ⟨a, b, first, second, rfl, ha, hb, hseats, huser, -⟩ := seatParticipants_eq_some.mp h
  obtain ⟨first', ha', hseat, hkind⟩ := parseParticipant_printed hprinted ha
  obtain ⟨second', hb', hseat', hkind'⟩ := parseParticipant_printed hprinted hb
  refine ⟨_, seatParticipants_eq_some.mpr ⟨_, _, first', second', rfl, ha', hb', ?_, ?_, rfl⟩⟩
  · rw [hseat, hseat']
    exact hseats
  · rw [hkind, hkind']
    exact huser

theorem kept_of_seatParticipants (hprinted : PrintsNumbers printed) {values : List Json}
    {seated : List ReservationParticipant} (h : seatParticipants values = some seated)
    (hsame : seatParticipants (values.map (Json.throughLua printed)) = some seated) :
    ∀ participant ∈ values, ParticipantKept printed participant := by
  obtain ⟨a, b, first, second, rfl, ha, hb, hseats, huser, hseated⟩ :=
    seatParticipants_eq_some.mp h
  obtain ⟨first', ha', hseat, hkind⟩ := parseParticipant_printed hprinted ha
  obtain ⟨second', hb', hseat', hkind'⟩ := parseParticipant_printed hprinted hb
  have hafter : seatParticipants ([a, b].map (Json.throughLua printed)) =
      some (if first'.seat ≤ second'.seat then [first', second'] else [second', first']) := by
    refine seatParticipants_eq_some.mpr ⟨_, _, first', second', rfl, ha', hb', ?_, ?_, rfl⟩
    · rw [hseat, hseat']
      exact hseats
    · rw [hkind, hkind']
      exact huser
  have heq := Option.some.inj (hafter.symm.trans hsame)
  rw [hseated, hseat, hseat'] at heq
  obtain ⟨rfl, rfl⟩ : first' = first ∧ second' = second := by
    split at heq <;> simp_all
  simp only [List.forall_mem_cons]
  exact ⟨kept_of_parseParticipant hprinted ha ha', kept_of_parseParticipant hprinted hb hb',
    by simp⟩

@[simp] theorem optionOf_throughLua (name : String) :
    optionOf (value.map (Json.throughLua printed)) name =
      (optionOf value name).map (Json.throughLua printed) := by
  cases value <;> simp [optionOf]

theorem readTimeout_kept (hkept : NumberKept printed value) :
    readTimeout (value.map (Json.throughLua printed)) = readTimeout value := by
  match value with
  | none => rfl
  | some .null => rfl
  | some (.array []) => rfl
  | some (.array (_ :: _)) => rfl
  | some (.object _) => rfl
  | some (.bool _) => rfl
  | some (.number x) =>
    have hx : printed x = x := hkept x rfl
    simp [Json.throughLua, hx]
  | some (.string _) => rfl

theorem readTimeout_eq_some {timeout : Rat} (h : readTimeout value = some timeout) :
    (value = some (.number timeout) ∧ 0 < timeout) ∨
      (timeout = DEFAULT_LOBBY_TIMEOUT_SECONDS ∧ (value = none ∨ value = some .null)) := by
  unfold readTimeout at h
  split at h
  · exact Or.inr ⟨(Option.some.inj h).symm, Or.inl rfl⟩
  · exact Or.inr ⟨(Option.some.inj h).symm, Or.inr rfl⟩
  · split at h
    · rename_i hpos
      obtain rfl := Option.some.inj h
      exact Or.inl ⟨rfl, hpos⟩
    · cases h
  · cases h

theorem readTimeout_number {x : Rat} (h : 0 < x) : readTimeout (some (.number x)) = some x := by
  simp [readTimeout, h]

theorem readTimeout_printed (hprinted : PrintsNumbers printed) {timeout : Rat}
    (h : readTimeout value = some timeout) :
    ∃ timeout', readTimeout (value.map (Json.throughLua printed)) = some timeout' := by
  rcases readTimeout_eq_some h with ⟨rfl, hpos⟩ | ⟨-, rfl | rfl⟩
  · exact ⟨printed timeout, readTimeout_number (hprinted.pos timeout hpos)⟩
  · exact ⟨_, rfl⟩
  · exact ⟨_, rfl⟩

theorem kept_of_readTimeout (hprinted : PrintsNumbers printed) {timeout : Rat}
    (h : readTimeout value = some timeout)
    (hsame : readTimeout (value.map (Json.throughLua printed)) = some timeout) :
    NumberKept printed value := by
  intro x hx
  rcases readTimeout_eq_some h with ⟨rfl, hpos⟩ | ⟨-, rfl | rfl⟩
  · obtain rfl : timeout = x := by simpa using hx
    have hafter : readTimeout ((some (Json.number timeout)).map (Json.throughLua printed)) =
        some (printed timeout) := readTimeout_number (hprinted.pos timeout hpos)
    exact Option.some.inj (hafter.symm.trans hsame)
  · cases hx
  · cases hx

theorem parseOptions_eq_some {options : ReservationOptions} :
    parseOptions value = some options ↔
      ∃ deckLock timeout, readDeckLock (optionOf value "deckLock") = some deckLock ∧
        readTimeout (optionOf value "lobbyTimeoutSeconds") = some timeout ∧
        options =
          { spectators := isTrue (optionOf value "spectators")
            listed := isTrue (optionOf value "listed")
            reconnect := isTrue (optionOf value "reconnect")
            deckLock := deckLock
            lobbyTimeoutSeconds := timeout } := by
  simp only [parseOptions, Option.bind_eq_bind, Option.bind_eq_some_iff, Option.pure_def,
    Option.some.injEq, @eq_comm _ _ options]
  constructor
  · rintro ⟨deckLock, hlock, timeout, htimeout, heq⟩
    exact ⟨deckLock, timeout, hlock, htimeout, heq⟩
  · rintro ⟨deckLock, timeout, hlock, htimeout, heq⟩
    exact ⟨deckLock, hlock, timeout, htimeout, heq⟩

theorem parseOptions_kept (hkept : NumberKept printed (optionOf value "lobbyTimeoutSeconds")) :
    parseOptions (value.map (Json.throughLua printed)) = parseOptions value := by
  simp [parseOptions, readTimeout_kept hkept]

theorem parseOptions_printed (hprinted : PrintsNumbers printed) {options : ReservationOptions}
    (h : parseOptions value = some options) :
    ∃ options', parseOptions (value.map (Json.throughLua printed)) = some options' := by
  obtain ⟨deckLock, timeout, hlock, htimeout, -⟩ := parseOptions_eq_some.mp h
  obtain ⟨timeout', htimeout'⟩ := readTimeout_printed hprinted htimeout
  exact ⟨_, parseOptions_eq_some.mpr
    ⟨deckLock, timeout', by simpa using hlock, by simpa using htimeout', rfl⟩⟩

theorem kept_of_parseOptions (hprinted : PrintsNumbers printed) {options : ReservationOptions}
    (h : parseOptions value = some options)
    (hsame : parseOptions (value.map (Json.throughLua printed)) = some options) :
    NumberKept printed (optionOf value "lobbyTimeoutSeconds") := by
  obtain ⟨deckLock, timeout, -, htimeout, rfl⟩ := parseOptions_eq_some.mp h
  obtain ⟨deckLock', timeout', -, htimeout', heq⟩ := parseOptions_eq_some.mp hsame
  obtain rfl : timeout = timeout' := congrArg ReservationOptions.lobbyTimeoutSeconds heq
  exact kept_of_readTimeout hprinted htimeout (by simpa using htimeout')

end Parts

/-! ## The whole document -/

/-- Apart from what the script may repair or spoil, the document is readable: each check passes on
the part it reads, as the script leaves it. -/
structure Legible (printed : Rat → Rat) (doc : Json) : Prop where
  version : ∃ v, doc.field "v" = some (.number v) ∧ printed v = RESERVATION_VERSION
  id : ∃ id, asString (doc.field "reservationId") = some id ∧ isReservationId id = true
  format : ∃ format, nonEmptyString (doc.field "format") = some format
  mode : ∃ mode, readMode (doc.field "mode") = some mode
  participants : ∃ seated,
    seatParticipants ((participantsOf doc).map (Json.throughLua printed)) = some seated
  options : ∃ options, parseOptions ((doc.field "options").map (Json.throughLua printed)) =
    some options

section Documents

variable {printed : Rat → Rat} {doc rewritten claim : Json} {toLowerCase : String → String}
  {instanceId userId claimedAt : String}

theorem parseReservation_eq_some {reservation : Reservation} :
    parseReservation toLowerCase doc = some reservation ↔
      doc.isObject = true ∧ isNumber (doc.field "v") RESERVATION_VERSION = true ∧
        ∃ id format mode seated options, asString (doc.field "reservationId") = some id ∧
          isReservationId id = true ∧ nonEmptyString (doc.field "format") = some format ∧
          readMode (doc.field "mode") = some mode ∧
          seatParticipants (participantsOf doc) = some seated ∧
          parseOptions (doc.field "options") = some options ∧
          reservation =
            { id := id
              format := toLowerCase format
              mode := mode
              participants := seated
              options := options } := by
  unfold parseReservation
  by_cases hchecks : doc.isObject = true ∧ isNumber (doc.field "v") RESERVATION_VERSION = true
  · simp only [hchecks, Bool.not_true, Bool.or_self, Bool.false_eq_true, if_false,
      Option.bind_eq_bind, Option.bind_eq_some_iff, Option.pure_def, Option.some.injEq,
      Option.filter_eq_some_iff, true_and, @eq_comm _ _ reservation]
    constructor
    · rintro ⟨id, ⟨hid, hpattern⟩, format, hformat, mode, hmode, seated, hseated, options,
        hoptions, heq⟩
      exact ⟨id, format, mode, seated, options, hid, hpattern, hformat, hmode, hseated, hoptions,
        heq⟩
    · rintro ⟨id, format, mode, seated, options, hid, hpattern, hformat, hmode, hseated,
        hoptions, heq⟩
      exact ⟨id, ⟨hid, hpattern⟩, format, hformat, mode, hmode, seated, hseated, options,
        hoptions, heq⟩
  · have hfails : (!doc.isObject || !isNumber (doc.field "v") RESERVATION_VERSION) = true := by
      rw [Bool.or_eq_true, Bool.not_eq_true', Bool.not_eq_true', ← Bool.not_eq_true,
        ← Bool.not_eq_true]
      exact not_and_or.mp hchecks
    rw [if_pos hfails]
    constructor
    · intro h
      cases h
    · rintro ⟨hobject, hversion, -⟩
      exact absurd ⟨hobject, hversion⟩ hchecks

/-- What the script leaves of a field that it does not set. -/
theorem field_setClaim {name : String} (hobject : doc.isObject = true) (hname : name ≠ "claim") :
    ((setClaim doc claim).throughLua printed).field name =
      (doc.field name).map (Json.throughLua printed) := by
  obtain ⟨members, rfl⟩ := Json.isObject_iff.mp hobject
  rw [Json.field_throughLua]
  congr 1
  exact (Json.memberOf_append_singleton members "claim" name claim).trans (if_neg hname)

theorem participantsOf_setClaim (hobject : doc.isObject = true) :
    participantsOf ((setClaim doc claim).throughLua printed) =
      (participantsOf doc).map (Json.throughLua printed) := by
  unfold participantsOf
  rw [field_setClaim hobject (by decide)]
  exact listOf_throughLua

theorem isObject_of_hasParticipant (h : hasParticipant doc userId = true) :
    doc.isObject = true := by
  cases doc with
  | object members => rfl
  | _ => cases h

/-- A claim leaves the document with the claim set, as Lua prints it. -/
theorem claimReservation_claimed
    (hclaimed : (claimReservation printed instanceId userId claimedAt (some doc)).status = .claimed)
    (hstored : (claimReservation printed instanceId userId claimedAt (some doc)).stored =
      some rewritten) :
    doc.isObject = true ∧ ∃ claim, rewritten = (setClaim doc claim).throughLua printed := by
  unfold claimReservation at hclaimed hstored
  by_cases htable : isTable doc = true
  · by_cases hin : hasParticipant doc userId = true
    · refine ⟨isObject_of_hasParticipant hin,
        .object [("instanceId", .string instanceId), ("at", .string claimedAt)], ?_⟩
      simp only [htable, hin, Bool.not_true, Bool.false_eq_true, if_false] at hclaimed hstored
      split at hclaimed
      · rename_i hfield
        rw [hfield] at hstored
        exact (Option.some.inj hstored).symm
      · rename_i hfield
        rw [hfield] at hstored
        exact (Option.some.inj hstored).symm
      · split at hclaimed <;> cases hclaimed
    · simp [htable, hin] at hclaimed
  · simp [htable] at hclaimed

/-- A readable document stays readable but for what the script changes. -/
theorem legible_of_parseReservation (hprinted : PrintsNumbers printed) {reservation : Reservation}
    (h : parseReservation toLowerCase doc = some reservation) : Legible printed doc := by
  obtain ⟨-, hversion, id, format, mode, seated, options, hid, hpattern, hformat, hmode, hseated,
    hoptions, -⟩ := parseReservation_eq_some.mp h
  exact {
    version := ⟨1, isNumber_iff.mp hversion, hprinted.one⟩
    id := ⟨id, hid, hpattern⟩
    format := ⟨format, hformat⟩
    mode := ⟨mode, hmode⟩
    participants := seatParticipants_printed hprinted hseated
    options := parseOptions_printed hprinted hoptions }

/-- What the parser reads of the rewritten document. -/
theorem parseReservation_rewritten (hobject : doc.isObject = true) {reservation : Reservation} :
    parseReservation toLowerCase ((setClaim doc claim).throughLua printed) = some reservation ↔
      isNumber ((doc.field "v").map (Json.throughLua printed)) RESERVATION_VERSION = true ∧
        ∃ id format mode seated options, asString (doc.field "reservationId") = some id ∧
          isReservationId id = true ∧ nonEmptyString (doc.field "format") = some format ∧
          readMode (doc.field "mode") = some mode ∧
          seatParticipants ((participantsOf doc).map (Json.throughLua printed)) = some seated ∧
          parseOptions ((doc.field "options").map (Json.throughLua printed)) = some options ∧
          reservation =
            { id := id
              format := toLowerCase format
              mode := mode
              participants := seated
              options := options } := by
  have hafter : ((setClaim doc claim).throughLua printed).isObject = true := by
    obtain ⟨members, rfl⟩ := Json.isObject_iff.mp hobject
    rfl
  rw [parseReservation_eq_some, participantsOf_setClaim hobject]
  simp only [hafter, true_and, field_setClaim hobject (show "v" ≠ "claim" by decide),
    field_setClaim hobject (show "reservationId" ≠ "claim" by decide),
    field_setClaim hobject (show "format" ≠ "claim" by decide),
    field_setClaim hobject (show "mode" ≠ "claim" by decide),
    field_setClaim hobject (show "options" ≠ "claim" by decide), asString_throughLua,
    nonEmptyString_throughLua, readMode_throughLua]

theorem legible_iff_rewritten (hobject : doc.isObject = true) :
    Legible printed doc ↔ ∃ reservation, parseReservation toLowerCase
      ((setClaim doc claim).throughLua printed) = some reservation := by
  simp only [parseReservation_rewritten hobject, isNumber_throughLua]
  constructor
  · rintro ⟨hversion, ⟨id, hid, hpattern⟩, ⟨format, hformat⟩, ⟨mode, hmode⟩, ⟨seated, hseated⟩,
      ⟨options, hoptions⟩⟩
    exact ⟨_, hversion, id, format, mode, seated, options, hid, hpattern, hformat, hmode, hseated,
      hoptions, rfl⟩
  · rintro ⟨reservation, hversion, id, format, mode, seated, options, hid, hpattern, hformat,
      hmode, hseated, hoptions, -⟩
    exact ⟨hversion, ⟨id, hid, hpattern⟩, ⟨format, hformat⟩, ⟨mode, hmode⟩, ⟨seated, hseated⟩,
      ⟨options, hoptions⟩⟩

/-- A document that is preserved reads the same. -/
theorem parseReservation_preserved (hobject : doc.isObject = true) (h : Preserved printed doc) :
    parseReservation toLowerCase ((setClaim doc claim).throughLua printed) =
      parseReservation toLowerCase doc := by
  obtain ⟨hversion, hparticipants, htimeout⟩ := h
  apply Option.ext
  intro reservation
  rw [parseReservation_rewritten hobject, parseReservation_eq_some, isNumber_kept hversion,
    seatParticipants_kept hparticipants, parseOptions_kept htimeout]
  simp only [hobject, true_and]

/-- A document that reads as the same reservation is preserved. -/
theorem preserved_of_same (hprinted : PrintsNumbers printed) (hobject : doc.isObject = true)
    {reservation : Reservation} (h : parseReservation toLowerCase doc = some reservation)
    (hsame : parseReservation toLowerCase ((setClaim doc claim).throughLua printed) =
      some reservation) : Preserved printed doc := by
  obtain ⟨-, hversion, id, format, mode, seated, options, -, -, -, -, hseated, hoptions, rfl⟩ :=
    parseReservation_eq_some.mp h
  obtain ⟨-, id', format', mode', seated', options', -, -, -, -, hseated', hoptions', heq⟩ :=
    (parseReservation_rewritten hobject).mp hsame
  obtain rfl : seated = seated' := congrArg Reservation.participants heq
  obtain rfl : options = options' := congrArg Reservation.options heq
  refine ⟨?_, kept_of_seatParticipants hprinted hseated hseated',
    kept_of_parseOptions hprinted hoptions hoptions'⟩
  intro x hx
  obtain rfl : RESERVATION_VERSION = x := by simpa [isNumber_iff.mp hversion] using hx
  exact hprinted.one

end Documents

/-- A claimed document reads as it did before the claim exactly when the script preserves it, or
when it has a defect that the script leaves in it. -/
theorem reservation_survives_claim (toLowerCase : String → String) (printed : Rat → Rat)
    (hprinted : PrintsNumbers printed) (instanceId userId claimedAt : String)
    (doc rewritten : Json)
    (hclaimed : (claimReservation printed instanceId userId claimedAt (some doc)).status = .claimed)
    (hstored : (claimReservation printed instanceId userId claimedAt (some doc)).stored =
      some rewritten) :
    parseReservation toLowerCase rewritten = parseReservation toLowerCase doc ↔
      (Legible printed doc → Preserved printed doc) := by
  obtain ⟨hobject, claim, rfl⟩ := claimReservation_claimed hclaimed hstored
  constructor
  · intro hsame hlegible
    obtain ⟨reservation, hreservation⟩ := (legible_iff_rewritten hobject).mp hlegible
    exact preserved_of_same hprinted hobject (hsame.symm.trans hreservation) hreservation
  · intro hpreserved
    by_cases hlegible : Legible printed doc
    · exact parseReservation_preserved hobject (hpreserved hlegible)
    · have hraw : parseReservation toLowerCase doc = none := by
        rw [Option.eq_none_iff_forall_ne_some]
        intro reservation hreservation
        exact hlegible (legible_of_parseReservation hprinted hreservation)
      rw [hraw, Option.eq_none_iff_forall_ne_some]
      intro reservation hreservation
      exact hlegible ((legible_iff_rewritten hobject).mpr ⟨reservation, hreservation⟩)

/-- One human against a bot. -/
def humanAgainstBot (requiredDeck : Json) : Json :=
  .object [("v", .number 1), ("reservationId", .string "Ab3dEf6hIj9kLm2n"),
    ("format", .string "edison"), ("mode", .string "single"),
    ("participants", .array [
      .object [("seat", .number 0), ("kind", .string "user"), ("userId", .string "user-1"),
        ("requiredDeck", requiredDeck)],
      .object [("seat", .number 1), ("kind", .string "windbot"), ("botName", .string "Haunted")]]),
    ("options", .object []), ("claim", .null)]

def oneCardDeck : Json := .object [("main", .array [.number 12345678]), ("side", .array [])]

theorem printsNumbers_id : PrintsNumbers id :=
  ⟨rfl, rfl, fun _ h => h, fun _ _ h => h⟩

/-- Numbers of eight digits are printed as they are, and the empty side deck reads as before. -/
theorem reservation_survives_claim_one_card :
    ∃ rewritten,
      (claimReservation id "i1" "user-1" "now" (some (humanAgainstBot oneCardDeck))).stored =
        some rewritten ∧
      parseReservation String.toLower rewritten =
        parseReservation String.toLower (humanAgainstBot oneCardDeck) := by
  refine ⟨_, rfl, (reservation_survives_claim String.toLower id printsNumbers_id "i1" "user-1"
    "now" (humanAgainstBot oneCardDeck) _ rfl rfl).mpr (fun _ => ?_)⟩
  refine ⟨fun _ _ => rfl, fun participant hin => ⟨fun _ _ => rfl, fun huser => ⟨?_, ?_⟩⟩,
    fun _ _ => rfl⟩
  · rcases List.mem_cons.mp hin with rfl | hbot
    · simp [Json.field, Json.memberOf, oneCardDeck]
    · obtain rfl := List.mem_singleton.mp hbot
      exact absurd huser (by decide)
  · intro _ _ _ _ _ _
    rfl

/-- A required deck that is an empty array: rejected before the claim, an empty deck after it. -/
theorem reservation_changed_by_claim :
    ¬ ∀ (toLowerCase : String → String) (printed : Rat → Rat), PrintsNumbers printed →
        ∀ (instanceId userId claimedAt : String) (doc rewritten : Json),
          (claimReservation printed instanceId userId claimedAt (some doc)).status = .claimed →
          (claimReservation printed instanceId userId claimedAt (some doc)).stored =
            some rewritten →
            parseReservation toLowerCase rewritten = parseReservation toLowerCase doc := by
  intro hall
  have hsame := hall id id printsNumbers_id "i1" "user-1" "now" (humanAgainstBot (.array [])) _
    rfl rfl
  have hbefore : parseReservation id (humanAgainstBot (.array [])) = none := by decide
  rw [hbefore] at hsame
  exact absurd hsame (by decide)

end EdoproServer.ReservedDuel
