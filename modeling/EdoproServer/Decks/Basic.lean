import EdoproServer.Lib.InsertionMap

namespace EdoproServer.Decks
open Lib

/-- A card of the database. `code` and `aliasCode` are decimal numerals in the source, compared as
numbers everywhere; an alias of 0 means the card has none. -/
structure Card where
  aliasCode : Nat
  code : Nat
  type : Nat
  variant : Nat
  deriving DecidableEq, Repr

def TYPE_PENDULUM : Nat := 0x1000000
def TYPE_LINK : Nat := 0x4000000

namespace ScopeCode

def OCG : Nat := 0x1
def TCG : Nat := 0x2
def PRERELEASE : Nat := 0x100
def OCG_TCG : Nat := OCG ||| TCG
def OFFICIAL : Nat := OCG ||| TCG ||| PRERELEASE

end ScopeCode

/-- The EDOPro `allowed` rule. A number outside the enumeration checks nothing. -/
inductive Rule where
  | onlyOcg
  | onlyTcg
  | ocgTcg
  | preRelease
  | all
  | unknown (value : Nat)
  deriving DecidableEq, Repr

/-- Card-pool rule of a Mercury room, numbered as upstream ygopro does. -/
inductive YGOProRule where
  | ocg
  | tcg
  | sc
  | custom
  | noUnique
  | all
  | unknown (value : Nat)
  deriving DecidableEq, Repr

namespace AvailFlag

def OCG : Nat := 0x1
def TCG : Nat := 0x2
def CUSTOM : Nat := 0x4
def SC : Nat := 0x8

end AvailFlag

/-- Required availability bits for a rule; an unknown rule checks nothing. -/
def availFlagFor : YGOProRule → Nat
  | .ocg => AvailFlag.OCG
  | .tcg => AvailFlag.TCG
  | .sc => AvailFlag.SC
  | .custom => AvailFlag.CUSTOM
  | .noUnique => AvailFlag.OCG ||| AvailFlag.TCG
  | .all => 0
  | .unknown _ => 0

/-- How much of a category one deck may spend, and what each member costs. -/
structure CreditLimit where
  cap : Nat
  cards : InsertionMap Nat Nat

structure BanList where
  forbidden : List Nat
  limited : List Nat
  semiLimited : List Nat
  all : List Nat
  points : InsertionMap Nat Nat
  creditLimits : InsertionMap String CreditLimit
  name : Option String
  isWhiteListed : Bool

def BanList.isGenesys (banList : BanList) : Bool := banList.name = some "Genesys"

structure DeckRules where
  mainMin : Int
  mainMax : Int
  extraMin : Int
  extraMax : Int
  sideMin : Int
  sideMax : Int
  rule : Rule
  maxDeckPoints : Int
  deriving DecidableEq, Repr

structure Deck where
  main : List Card
  side : List Card
  extra : List Card
  banList : BanList
  deckRules : DeckRules

def Deck.allCards (deck : Deck) : List Card := deck.main ++ deck.side ++ deck.extra

inductive DeckErrorType where
  | cardBanlisted
  | cardOcgOnly
  | cardTcgOnly
  | cardUnknown
  | cardMoreThan3
  | deckBadMainCount
  | deckBadExtraCount
  | deckBadSideCount
  | cardUnofficial
  deriving DecidableEq, Repr

structure DeckError where
  type : DeckErrorType
  code : Nat := 0
  got : Int := 0
  min : Int := 0
  max : Int := 0
  deriving DecidableEq, Repr

def mainDeckLimitError (got min max : Int) : DeckError :=
  { type := .deckBadMainCount, got := got, min := min, max := max }

def sideDeckLimitError (got min max : Int) : DeckError :=
  { type := .deckBadSideCount, got := got, min := min, max := max }

def extraDeckLimitError (got min max : Int) : DeckError :=
  { type := .deckBadExtraCount, got := got, min := min, max := max }

def banListDeckError (cardId : Nat) : DeckError := { type := .cardBanlisted, code := cardId }

/-- Reported as banlisted: the only verdict of the wire protocol that points at a card. -/
def creditLimitDeckError (cardId spent allowed : Nat) : DeckError :=
  { type := .cardBanlisted, code := cardId, got := spent, max := allowed }

def cardMoreThan3Error (cardId : Nat) : DeckError := { type := .cardMoreThan3, code := cardId }
def notOfficialCardError (cardId : Nat) : DeckError := { type := .cardUnofficial, code := cardId }
def ocgCardError (cardId : Nat) : DeckError := { type := .cardOcgOnly, code := cardId }
def tcgCardError (cardId : Nat) : DeckError := { type := .cardTcgOnly, code := cardId }
def unknownCardError (cardId : Nat) : DeckError := { type := .cardUnknown, code := cardId }

end EdoproServer.Decks
