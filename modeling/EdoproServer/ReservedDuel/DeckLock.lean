import EdoproServer.Lib.Counts
import EdoproServer.Decks.SideDeck
import EdoproServer.ReservedDuel.Reservation

namespace EdoproServer.ReservedDuel
open Lib Decks
open scoped List

/-! ## The deck lock of a reservation -/

def sameMultiset (a b : List Rat) : Bool :=
  if a.length ≠ b.length then false
  else
    let left := counts a
    let right := counts b
    left.entries.all (fun entry => right.get entry.1 = some entry.2)

def allCards (deck : RequiredDeck) : List Rat := deck.main ++ deck.extra ++ deck.side

/-- Section by section with an exact lock, all cards together with a registered one. -/
def deckHonoursLock (lock : DeckLockKind) (required deck : RequiredDeck) : Bool :=
  match lock with
  | .registered => sameMultiset (allCards required) (allCards deck)
  | .exact =>
    sameMultiset required.main deck.main && sameMultiset required.extra deck.extra &&
      sameMultiset required.side deck.side

/-- A built deck as the card codes a lock compares. -/
def toCardCodes (deck : Deck) : RequiredDeck :=
  let codes (cards : List Card) : List Rat := cards.map (fun card => (card.code : Rat))
  { main := codes deck.main, extra := codes deck.extra, side := codes deck.side }

section Locks

variable {a b : List Rat} {required deck : RequiredDeck}

theorem sameMultiset_iff : sameMultiset a b = true ↔ a.Perm b := by
  rw [perm_iff_countsAgree_and_length]
  unfold sameMultiset countsAgree
  by_cases hlength : a.length = b.length
  · simp [hlength]
  · simp [hlength]

theorem honours_exact_iff :
    deckHonoursLock .exact required deck = true ↔
      required.main.Perm deck.main ∧ required.extra.Perm deck.extra ∧
        required.side.Perm deck.side := by
  simp only [deckHonoursLock, Bool.and_eq_true, sameMultiset_iff, and_assoc]

theorem honours_registered_iff :
    deckHonoursLock .registered required deck = true ↔
      (allCards required).Perm (allCards deck) := by
  simp only [deckHonoursLock, sameMultiset_iff]

theorem honours_registered_of_exact (h : deckHonoursLock .exact required deck = true) :
    deckHonoursLock .registered required deck = true := by
  obtain ⟨hmain, hextra, hside⟩ := honours_exact_iff.mp h
  exact honours_registered_iff.mpr ((hmain.append hextra).append hside)

/-- A deck object lists its side deck before its extra deck, a lock after it. -/
theorem allCards_toCardCodes (deck : Deck) :
    (allCards (toCardCodes deck)).Perm
      ((deck.allCards.map Card.code).map (fun code : Nat => (code : Rat))) := by
  simp only [allCards, toCardCodes, Deck.allCards, List.map_append, List.map_map, List.append_assoc,
    Function.comp_def]
  exact List.Perm.append_left _ List.perm_append_comm

/-- Two decks of the same cards honour the same registered locks. -/
theorem honours_registered_of_same_cards {original deck : Deck}
    (hcards : (original.allCards.map Card.code).Perm (deck.allCards.map Card.code))
    (h : deckHonoursLock .registered required (toCardCodes original) = true) :
    deckHonoursLock .registered required (toCardCodes deck) = true := by
  rw [honours_registered_iff] at h ⊢
  calc allCards required
    _ ~ allCards (toCardCodes original) := h
    _ ~ (original.allCards.map Card.code).map (fun code : Nat => (code : Rat)) :=
        allCards_toCardCodes original
    _ ~ (deck.allCards.map Card.code).map (fun code : Nat => (code : Rat)) := hcards.map _
    _ ~ allCards (toCardCodes deck) := (allCards_toCardCodes deck).symm

end Locks

end EdoproServer.ReservedDuel
