import EdoproServer.Decks.Basic
import EdoproServer.Lib.Counts

namespace EdoproServer.Decks
open Lib

/-! ## Siding -/

namespace Deck

variable (deck : Deck)

/-- The side deck may only rearrange the cards of the deck it replaces: both have as many distinct
codes, and each code of the old deck is as often in the new one. -/
def isSideDeckValid (newMain newSide : List Nat) : Bool :=
  let oldCounts := counts (deck.allCards.map Card.code)
  let newCounts := counts (newMain ++ newSide)
  if oldCounts.size ≠ newCounts.size then false
  else oldCounts.entries.all (fun entry => newCounts.get entry.1 = some entry.2)

theorem isSideDeckValid_iff {newMain newSide : List Nat} :
    deck.isSideDeckValid newMain newSide = true ↔
      (deck.allCards.map Card.code).Perm (newMain ++ newSide) := by
  rw [perm_iff_countsAgree_and_size]
  unfold isSideDeckValid countsAgree
  by_cases hsize : (counts (deck.allCards.map Card.code)).size = (counts (newMain ++ newSide)).size
  · simp [hsize]
  · simp [hsize]

end Deck

/-! ## Building the new deck -/

structure DeckParts where
  main : List Card
  extra : List Card
  side : List Card
  deriving DecidableEq, Repr

namespace YGOProDeckCreator

/-- One card of the main list, put where its type belongs. Which types the extra deck takes is a
parameter. -/
def place (TYPES_EXTRA_DECK : Nat) (parts : DeckParts) (card : Card) : DeckParts :=
  if card.type &&& TYPES_EXTRA_DECK ≠ 0 then { parts with extra := parts.extra ++ [card] }
  else { parts with main := parts.main ++ [card] }

/-- The main list read into the main and the extra deck, or the first unknown card. -/
def readMain (TYPES_EXTRA_DECK : Nat) (findByCode : Nat → Option Card) :
    DeckParts → List Nat → Except Nat DeckParts
  | parts, [] => .ok parts
  | parts, cardId :: rest =>
    match findByCode cardId with
    | none => .error cardId
    | some card => readMain TYPES_EXTRA_DECK findByCode (place TYPES_EXTRA_DECK parts card) rest

def readSide (findByCode : Nat → Option Card) : DeckParts → List Nat → Except Nat DeckParts
  | parts, [] => .ok parts
  | parts, cardId :: rest =>
    match findByCode cardId with
    | none => .error cardId
    | some card => readSide findByCode { parts with side := parts.side ++ [card] } rest

/-- The deck of a submission, or the error that names its first unknown card. -/
def build (TYPES_EXTRA_DECK : Nat) (findByCode : Nat → Option Card) (banList : BanList)
    (deckRules : DeckRules) (main side : List Nat) : Except DeckError Deck :=
  match readMain TYPES_EXTRA_DECK findByCode ⟨[], [], []⟩ main with
  | .error cardId => .error { type := .cardUnknown, code := cardId }
  | .ok parts =>
    match readSide findByCode parts side with
    | .error cardId => .error { type := .cardUnknown, code := cardId }
    | .ok parts =>
      .ok
        { main := parts.main
          side := parts.side
          extra := parts.extra
          banList := banList
          deckRules := deckRules }

/-- The cards of all parts. -/
def cardsOf (parts : DeckParts) : List Card := parts.main ++ parts.side ++ parts.extra

/-- A repository finds a card under its own code. -/
def FindsByCode (findByCode : Nat → Option Card) : Prop :=
  ∀ code card, findByCode code = some card → card.code = code

section Reading

variable {TYPES_EXTRA_DECK : Nat} {findByCode : Nat → Option Card} {parts built : DeckParts}

theorem place_cards (TYPES_EXTRA_DECK : Nat) (parts : DeckParts) (card : Card) :
    (cardsOf (place TYPES_EXTRA_DECK parts card)).Perm (cardsOf parts ++ [card]) := by
  unfold place cardsOf
  split
  · simp
  · have hlast : ([card] ++ (parts.side ++ parts.extra)).Perm
        ((parts.side ++ parts.extra) ++ [card]) := List.perm_append_comm
    simpa only [List.append_assoc] using hlast.append_left parts.main

theorem readMain_codes (hfind : FindsByCode findByCode) {cardIds : List Nat}
    (h : readMain TYPES_EXTRA_DECK findByCode parts cardIds = .ok built) :
    ((cardsOf built).map Card.code).Perm ((cardsOf parts).map Card.code ++ cardIds) := by
  induction cardIds generalizing parts with
  | nil =>
    obtain rfl := Except.ok.inj h
    simp
  | cons cardId rest ih =>
    rw [readMain] at h
    cases hcard : findByCode cardId with
    | none => simp [hcard] at h
    | some card =>
      simp only [hcard] at h
      have hplaced := (place_cards TYPES_EXTRA_DECK parts card).map Card.code
      rw [List.map_append, List.map_singleton, hfind cardId card hcard] at hplaced
      have hrest := (ih h).trans (hplaced.append_right rest)
      simpa using hrest

theorem readSide_codes (hfind : FindsByCode findByCode) {cardIds : List Nat}
    (h : readSide findByCode parts cardIds = .ok built) :
    ((cardsOf built).map Card.code).Perm ((cardsOf parts).map Card.code ++ cardIds) := by
  induction cardIds generalizing parts with
  | nil =>
    obtain rfl := Except.ok.inj h
    simp
  | cons cardId rest ih =>
    rw [readSide] at h
    cases hcard : findByCode cardId with
    | none => simp [hcard] at h
    | some card =>
      simp only [hcard] at h
      have hplaced : ((cardsOf { parts with side := parts.side ++ [card] }).map Card.code).Perm
          ((cardsOf parts).map Card.code ++ [cardId]) := by
        rw [← hfind cardId card hcard]
        simp only [cardsOf, List.map_append, List.map_singleton, List.append_assoc]
        refine (List.Perm.append_left _ (List.Perm.append_left _ ?_))
        exact List.perm_append_comm
      have hrest := (ih h).trans (hplaced.append_right rest)
      simpa using hrest

/-- A deck that could be built holds the cards of the submission and no others. -/
theorem build_codes (hfind : FindsByCode findByCode) {banList : BanList} {deckRules : DeckRules}
    {main side : List Nat} {deck : Deck}
    (h : build TYPES_EXTRA_DECK findByCode banList deckRules main side = .ok deck) :
    (deck.allCards.map Card.code).Perm (main ++ side) := by
  unfold build at h
  cases hmain : readMain TYPES_EXTRA_DECK findByCode ⟨[], [], []⟩ main with
  | error cardId => simp [hmain] at h
  | ok parts =>
    simp only [hmain] at h
    cases hside : readSide findByCode parts side with
    | error cardId => simp [hside] at h
    | ok built =>
      simp only [hside, Except.ok.injEq] at h
      subst h
      have hcodes := readMain_codes hfind hmain
      exact (readSide_codes hfind hside).trans (hcodes.append_right side)

end Reading

end YGOProDeckCreator

end EdoproServer.Decks
