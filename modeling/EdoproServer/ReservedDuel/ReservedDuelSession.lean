import EdoproServer.ReservedDuel.DeckLock

namespace EdoproServer.ReservedDuel
open Lib Decks

structure UserParticipant where
  seat : Nat
  userId : String
  requiredDeck : Option RequiredDeck
  deriving DecidableEq, Repr

structure WindbotParticipant where
  seat : Nat
  botName : String
  deriving DecidableEq, Repr

namespace ReservationParticipant

def asUser : ReservationParticipant → Option UserParticipant
  | user seat userId requiredDeck => some ⟨seat, userId, requiredDeck⟩
  | windbot _ _ => none

def asWindbot : ReservationParticipant → Option WindbotParticipant
  | user .. => none
  | windbot seat botName => some ⟨seat, botName⟩

end ReservationParticipant

/-! ## The session of a reserved room -/

namespace ReservedDuelSession

variable (reservation : Reservation)

def users : List UserParticipant := reservation.participants.filterMap (·.asUser)

def bots : List WindbotParticipant := reservation.participants.filterMap (·.asWindbot)

def userIds : List String := (users reservation).map UserParticipant.userId

/-- A connection that did not prove who it is has no user id. -/
def seatOfUser (userId : Option String) : Option Nat :=
  ((users reservation).find? (fun user => some user.userId = userId)).map UserParticipant.seat

def botSeat : Option Nat := (bots reservation).head?.map WindbotParticipant.seat

/-- Seats with no deck requirement accept any deck the ban list accepts. -/
def acceptsDeck (seat : Nat) (deck : RequiredDeck) : Bool :=
  match ((users reservation).find? (fun user => user.seat = seat)).bind
      UserParticipant.requiredDeck with
  | none => true
  | some required => deckHonoursLock reservation.options.deckLock required deck

/-- With an exact lock the deck cannot change once the seat is ready. -/
def locksReadyDeck : Bool := reservation.options.deckLock = .exact

end ReservedDuelSession

open ReservedDuelSession

/-! ## Deck locks over siding -/

section Siding

variable {TYPES_EXTRA_DECK : Nat} {findByCode : Nat → Option Card} {banList : BanList}
  {deckRules : DeckRules} {reservation : Reservation} {required : RequiredDeck}
  {original deck : Deck} {main side : List Nat}

/-- A deck built of an accepted side deck has the cards of the deck it replaces. -/
theorem cards_of_sided (hfind : YGOProDeckCreator.FindsByCode findByCode)
    (hvalid : original.isSideDeckValid main side = true)
    (hbuilt : YGOProDeckCreator.build TYPES_EXTRA_DECK findByCode banList deckRules main side =
      .ok deck) :
    (original.allCards.map Card.code).Perm (deck.allCards.map Card.code) :=
  (original.isSideDeckValid_iff.mp hvalid).trans
    (YGOProDeckCreator.build_codes hfind hbuilt).symm

theorem acceptsDeck_of_same_cards (seat : Nat)
    (hlock : reservation.options.deckLock = .registered)
    (hcards : (original.allCards.map Card.code).Perm (deck.allCards.map Card.code))
    (h : acceptsDeck reservation seat (toCardCodes original) = true) :
    acceptsDeck reservation seat (toCardCodes deck) = true := by
  unfold acceptsDeck at h ⊢
  cases hrequired : ((users reservation).find? (fun user => user.seat = seat)).bind
      UserParticipant.requiredDeck with
  | none => rfl
  | some required =>
    simp only [hrequired, hlock] at h ⊢
    exact honours_registered_of_same_cards hcards h

end Siding

/-- A lock compares multisets, an exact one by sections and a registered one by the whole deck, and
siding stays within a registered lock. -/
theorem deck_locks_are_permutations (TYPES_EXTRA_DECK : Nat) (findByCode : Nat → Option Card)
    (hfind : YGOProDeckCreator.FindsByCode findByCode) :
    (∀ a b : List Rat, sameMultiset a b = true ↔ a.Perm b) ∧
    (∀ required deck : RequiredDeck, deckHonoursLock .exact required deck = true ↔
      required.main.Perm deck.main ∧ required.extra.Perm deck.extra ∧
        required.side.Perm deck.side) ∧
    (∀ required deck : RequiredDeck, deckHonoursLock .registered required deck = true ↔
      (allCards required).Perm (allCards deck)) ∧
    (∀ required deck : RequiredDeck, deckHonoursLock .exact required deck = true →
      deckHonoursLock .registered required deck = true) ∧
    (∀ (original deck : Deck) (main side : List Nat) (banList : BanList) (deckRules : DeckRules),
      original.isSideDeckValid main side = true →
      YGOProDeckCreator.build TYPES_EXTRA_DECK findByCode banList deckRules main side =
        .ok deck →
        (∀ required, deckHonoursLock .registered required (toCardCodes original) = true →
          deckHonoursLock .registered required (toCardCodes deck) = true) ∧
        (∀ (reservation : Reservation) (seat : Nat),
          reservation.options.deckLock = .registered →
          acceptsDeck reservation seat (toCardCodes original) = true →
          acceptsDeck reservation seat (toCardCodes deck) = true)) := by
  refine ⟨fun a b => sameMultiset_iff, fun required deck => honours_exact_iff,
    fun required deck => honours_registered_iff, fun required deck => honours_registered_of_exact,
    ?_⟩
  intro original deck main side banList deckRules hvalid hbuilt
  have hcards := cards_of_sided hfind hvalid hbuilt
  constructor
  · intro required h
    exact honours_registered_of_same_cards hcards h
  · intro reservation seat hlock h
    exact acceptsDeck_of_same_cards seat hlock hcards h

/-- A repository of two monsters. -/
def twoMonsters (code : Nat) : Option Card :=
  if code = 1 then some { aliasCode := 0, code := 1, type := 0x21, variant := 3 }
  else if code = 2 then some { aliasCode := 0, code := 2, type := 0x61, variant := 3 }
  else none

theorem twoMonsters_findsByCode : YGOProDeckCreator.FindsByCode twoMonsters := by
  intro code card hfound
  unfold twoMonsters at hfound
  split at hfound
  · rename_i hcode
    obtain rfl := Option.some.inj hfound
    exact hcode.symm
  · split at hfound
    · rename_i hcode
      obtain rfl := Option.some.inj hfound
      exact hcode.symm
    · cases hfound

/-- A lock asks for two copies and a third card, in whatever order. -/
theorem deck_locks_are_permutations_two_monsters :
    YGOProDeckCreator.FindsByCode twoMonsters ∧
      deckHonoursLock .registered ⟨[1, 1], [2], []⟩ ⟨[1], [2], [1]⟩ = true ∧
      deckHonoursLock .exact ⟨[1, 1], [2], []⟩ ⟨[1], [2], [1]⟩ = false := by
  have hlocks := deck_locks_are_permutations 0x40 twoMonsters twoMonsters_findsByCode
  refine ⟨twoMonsters_findsByCode, (hlocks.2.2.1 _ _).mpr (by decide), by decide⟩

/-! ## Reservations that can be honoured -/

/-- Two seats, a human on one of them, and every user finds its own seat. -/
structure Honourable (reservation : Reservation) : Prop where
  seats : reservation.participants.map ReservationParticipant.seat = [0, 1]
  human : users reservation ≠ []
  distinct : ∀ user ∈ users reservation, ∀ other ∈ users reservation,
    user.seat ≠ other.seat → user.userId ≠ other.userId
  seated : ∀ user ∈ users reservation, seatOfUser reservation (some user.userId) = some user.seat

/-- The user a participant of a document names. -/
def namedUser (participant : Json) : Option String :=
  if asString (participant.field "kind") = some "user" then asString (participant.field "userId")
  else none

/-- A document whose two participants name the same user. -/
def NamesOneUserTwice (doc : Json) : Prop :=
  ∃ a b userId, participantsOf doc = [a, b] ∧ namedUser a = some userId ∧
    namedUser b = some userId

section Acceptance

variable {doc participant : Json} {reservation : Reservation} {toLowerCase : String → String}
  {parsed : ReservationParticipant}

theorem seat_of_parseParticipant (h : parseParticipant participant = some parsed) :
    parsed.seat = 0 ∨ parsed.seat = 1 := by
  obtain ⟨-, seat, hseat, hkind⟩ := parseParticipant_eq_some.mp h
  obtain ⟨-, hrange⟩ := readSeat_eq_some hseat
  rcases hkind with ⟨-, userId, deck, -, -, rfl⟩ | ⟨-, botName, -, rfl⟩
  · exact hrange
  · exact hrange

theorem namedUser_of_parseParticipant (h : parseParticipant participant = some parsed) :
    namedUser participant = parsed.asUser.map UserParticipant.userId := by
  obtain ⟨-, seat, -, hkind⟩ := parseParticipant_eq_some.mp h
  rcases hkind with ⟨huser, userId, deck, hid, -, rfl⟩ | ⟨hbot, botName, -, rfl⟩
  · obtain ⟨hid', -⟩ := Option.filter_eq_some_iff.mp hid
    rw [namedUser, if_pos huser, hid']
    rfl
  · rw [namedUser, if_neg (by rw [hbot]; decide)]
    rfl

/-- The two participants of an accepted document, in the order of their seats. -/
theorem participants_of_accepted
    (h : parseReservation toLowerCase doc = some reservation) :
    ∃ p q : ReservationParticipant, reservation.participants = [p, q] ∧ p.seat = 0 ∧ q.seat = 1 ∧
      (p.isUser || q.isUser) = true ∧
      (NamesOneUserTwice doc ↔ ∃ userId, p.asUser.map UserParticipant.userId = some userId ∧
        q.asUser.map UserParticipant.userId = some userId) := by
  obtain ⟨-, -, id, format, mode, seated, options, -, -, -, -, hseated, -, rfl⟩ :=
    parseReservation_eq_some.mp h
  obtain ⟨a, b, first, second, hdoc, hfirst, hsecond, hne, hhuman, rfl⟩ :=
    seatParticipants_eq_some.mp hseated
  have htwice : NamesOneUserTwice doc ↔
      ∃ userId, first.asUser.map UserParticipant.userId = some userId ∧
        second.asUser.map UserParticipant.userId = some userId := by
    rw [← namedUser_of_parseParticipant hfirst, ← namedUser_of_parseParticipant hsecond]
    constructor
    · intro ⟨a', b', userId, hdoc', ha, hb⟩
      rw [hdoc, List.cons.injEq, List.cons.injEq] at hdoc'
      obtain ⟨rfl, rfl, -⟩ := hdoc'
      exact ⟨userId, ha, hb⟩
    · intro ⟨userId, ha, hb⟩
      exact ⟨a, b, userId, hdoc, ha, hb⟩
  rcases seat_of_parseParticipant hfirst with hzero | hone
  · have hsecond1 : second.seat = 1 := by
      rcases seat_of_parseParticipant hsecond with hzero' | hone'
      · exact absurd (hzero.trans hzero'.symm) hne
      · exact hone'
    refine ⟨first, second, if_pos (by omega), hzero, hsecond1, hhuman, htwice⟩
  · have hsecond0 : second.seat = 0 := by
      rcases seat_of_parseParticipant hsecond with hzero' | hone'
      · exact hzero'
      · exact absurd (hone.trans hone'.symm) hne
    refine ⟨second, first, if_neg (by omega), hsecond0, hone, Bool.or_comm _ _ ▸ hhuman, ?_⟩
    rw [htwice]
    exact exists_congr (fun _ => and_comm)

/-- With two seats it is enough that no user has both. -/
theorem honourable_iff_of_participants {p q : ReservationParticipant}
    (hpair : reservation.participants = [p, q]) (hp : p.seat = 0) (hq : q.seat = 1)
    (hhuman : (p.isUser || q.isUser) = true) :
    Honourable reservation ↔ ¬ ∃ userId, p.asUser.map UserParticipant.userId = some userId ∧
      q.asUser.map UserParticipant.userId = some userId := by
  have hseats : reservation.participants.map ReservationParticipant.seat = [0, 1] := by
    rw [hpair, List.map_cons, List.map_singleton, hp, hq]
  have husers : users reservation = [p, q].filterMap (·.asUser) := by rw [users, hpair]
  cases p with
  | windbot seat botName =>
    cases q with
    | windbot seat' botName' => cases hhuman
    | user seat' userId' deck' =>
      have hone : users reservation = [⟨seat', userId', deck'⟩] := husers
      simp only [ReservationParticipant.asUser, Option.map_none, reduceCtorEq, false_and,
        exists_false, not_false_eq_true, iff_true]
      exact ⟨hseats, by simp [hone], by simp [hone], by simp [seatOfUser, hone]⟩
  | user seat userId deck =>
    cases q with
    | windbot seat' botName' =>
      have hone : users reservation = [⟨seat, userId, deck⟩] := husers
      simp only [ReservationParticipant.asUser, Option.map_none, reduceCtorEq, and_false,
        exists_false, not_false_eq_true, iff_true]
      exact ⟨hseats, by simp [hone], by simp [hone], by simp [seatOfUser, hone]⟩
    | user seat' userId' deck' =>
      have htwo : users reservation = [⟨seat, userId, deck⟩, ⟨seat', userId', deck'⟩] := husers
      have hdiffer : seat ≠ seat' := by
        have hzero : seat = 0 := hp
        have hone : seat' = 1 := hq
        omega
      constructor
      · intro hhonourable
        rintro ⟨id, hid, hid'⟩
        have hsame : userId = userId' := Option.some.inj (hid.trans hid'.symm)
        exact hhonourable.distinct ⟨seat, userId, deck⟩ (by simp [htwo]) ⟨seat', userId', deck'⟩
          (by simp [htwo]) hdiffer hsame
      · intro hnot
        have hne : userId ≠ userId' := by
          rintro rfl
          exact hnot ⟨userId, rfl, rfl⟩
        refine ⟨hseats, by simp [htwo], ?_, ?_⟩
        · simp [htwo, hne, hne.symm]
        · simp [seatOfUser, htwo, hne]

end Acceptance

/-- An accepted reservation can be honoured exactly when its document does not give both seats to
one user. -/
theorem accepted_reservation_honourable (toLowerCase : String → String) (doc : Json)
    (reservation : Reservation) (h : parseReservation toLowerCase doc = some reservation) :
    Honourable reservation ↔ ¬ NamesOneUserTwice doc := by
  obtain ⟨p, q, hpair, hp, hq, hhuman, htwice⟩ := participants_of_accepted h
  rw [htwice]
  exact honourable_iff_of_participants hpair hp hq hhuman

/-- Two humans, with user ids to choose. -/
def humanAgainstHuman (first second : String) : Json :=
  .object [("v", .number 1), ("reservationId", .string "Ab3dEf6hIj9kLm2n"),
    ("format", .string "edison"), ("mode", .string "single"),
    ("participants", .array [
      .object [("seat", .number 0), ("kind", .string "user"), ("userId", .string first)],
      .object [("seat", .number 1), ("kind", .string "user"), ("userId", .string second)]]),
    ("options", .object [])]

/-- What the document of two humans reads as. -/
def twoHumans (first second : String) : Reservation :=
  { id := "Ab3dEf6hIj9kLm2n"
    format := "edison"
    mode := .single
    participants := [.user 0 first none, .user 1 second none]
    options :=
      { spectators := false
        listed := false
        reconnect := false
        deckLock := .exact
        lobbyTimeoutSeconds := 120 } }

/-- Two users find their own seats. -/
theorem accepted_reservation_honourable_two_users :
    Honourable (twoHumans "user-1" "user-2") ∧
      parseReservation id (humanAgainstHuman "user-1" "user-2") =
        some (twoHumans "user-1" "user-2") := by
  have haccepted : parseReservation id (humanAgainstHuman "user-1" "user-2") =
      some (twoHumans "user-1" "user-2") := by decide
  refine ⟨(accepted_reservation_honourable id _ _ haccepted).mpr ?_, haccepted⟩
  intro ⟨a, b, userId, hdoc, ha, hb⟩
  have hpair : [a, b] = participantsOf (humanAgainstHuman "user-1" "user-2") := hdoc.symm
  obtain ⟨rfl, hrest⟩ := List.cons.inj hpair
  obtain ⟨rfl, -⟩ := List.cons.inj hrest
  exact absurd (ha.trans hb.symm) (by decide)

/-- One user on both seats is accepted, and its second seat is out of reach. -/
theorem accepted_reservation_not_honourable :
    ¬ ∀ (toLowerCase : String → String) (doc : Json) (reservation : Reservation),
        parseReservation toLowerCase doc = some reservation → Honourable reservation := by
  intro hall
  have haccepted : parseReservation id (humanAgainstHuman "user-1" "user-1") =
      some (twoHumans "user-1" "user-1") := by decide
  have hseated := (hall id _ _ haccepted).seated ⟨1, "user-1", none⟩ (by decide)
  exact absurd hseated (by decide)

end EdoproServer.ReservedDuel
