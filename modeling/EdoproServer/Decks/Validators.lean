import Mathlib.Tactic.Tauto
import EdoproServer.Decks.Basic

namespace EdoproServer.Decks
open Lib

/-- A validation handler together with the handlers after it: the first error, if any. -/
abbrev DeckValidation := Deck → Option DeckError

/-- A handler with no next handler accepts what reaches the end of it. -/
def noNextHandler : DeckValidation := fun _ => none

/-! ## The handlers -/

def deckLimitsValidationHandler (rules : DeckRules) (next : DeckValidation) : DeckValidation :=
  fun deck =>
    if deck.main.length > rules.mainMax ∨ deck.main.length < rules.mainMin then
      some (mainDeckLimitError deck.main.length rules.mainMin rules.mainMax)
    else if deck.side.length > rules.sideMax ∨ deck.side.length < rules.sideMin then
      some (sideDeckLimitError deck.side.length rules.sideMin rules.sideMax)
    else if deck.extra.length > rules.extraMax ∨ deck.extra.length < rules.extraMin then
      some (extraDeckLimitError deck.extra.length rules.extraMin rules.extraMax)
    else next deck

/-- The copies of each code, an aliased card also counting for its alias. The count of the code
is read before the alias is written, so a card that is its own alias counts once. -/
def countCard (cards : InsertionMap Nat Nat) (card : Card) : InsertionMap Nat Nat :=
  let count := (cards.get card.code).getD 0
  let cards := if card.aliasCode ≠ 0 then
      cards.set card.aliasCode ((cards.get card.aliasCode).getD 0 + 1)
    else cards
  cards.set card.code (count + 1)

def countCards (cards : List Card) : InsertionMap Nat Nat := cards.foldl countCard .empty

/-- Rejects the first entry of a bucket the deck holds more than `allowed` copies of. -/
def bucketValidationHandler (bucket : List Nat) (allowed : Nat) (error : Nat → DeckError)
    (next : DeckValidation) : DeckValidation :=
  fun deck =>
    let cards := countCards deck.allCards
    match bucket.find? (fun code => (cards.get code).getD 0 > allowed) with
    | some code => some (error code)
    | none => next deck

def forbiddenCardValidationHandler (banList : BanList) : DeckValidation → DeckValidation :=
  bucketValidationHandler banList.forbidden 0 banListDeckError

def limitedCardValidationHandler (banList : BanList) : DeckValidation → DeckValidation :=
  bucketValidationHandler banList.limited 1 banListDeckError

def semiLimitedCardValidationHandler (banList : BanList) : DeckValidation → DeckValidation :=
  bucketValidationHandler banList.semiLimited 2 banListDeckError

def noLimitedCardValidationHandler (banList : BanList) : DeckValidation → DeckValidation :=
  bucketValidationHandler banList.all 3 cardMoreThan3Error

/-- The card whose credit overspends the limit, with what was spent by then. -/
def overspent (limit : CreditLimit) : Nat → List Card → Option (Nat × Nat)
  | _, [] => none
  | spent, card :: cards =>
    match limit.cards.get card.code with
    | none => overspent limit spent cards
    | some credit =>
      if spent + credit > limit.cap then some (card.code, spent + credit)
      else overspent limit (spent + credit) cards

def creditLimitValidationHandler (banList : BanList) (next : DeckValidation) : DeckValidation :=
  fun deck =>
    match banList.creditLimits.values.findSome? (fun limit =>
        (overspent limit 0 deck.allCards).map (fun (offender, spent) =>
          creditLimitDeckError offender spent limit.cap)) with
    | some error => some error
    | none => next deck

/-- Rejects the first card a check finds an error in. -/
def eachCardValidationHandler (check : Card → Option DeckError) (next : DeckValidation) :
    DeckValidation :=
  fun deck =>
    match deck.allCards.findSome? check with
    | some error => some error
    | none => next deck

def checkAvail (availFlag : Nat) (card : Card) : Option DeckError :=
  if card.variant &&& AvailFlag.CUSTOM ≠ 0 then none
  else if card.variant &&& availFlag = availFlag then none
  else if card.variant &&& AvailFlag.OCG ≠ 0 ∧ availFlag ≠ AvailFlag.OCG then
    some (ocgCardError card.code)
  else if card.variant &&& AvailFlag.TCG ≠ 0 ∧ availFlag ≠ AvailFlag.TCG then
    some (tcgCardError card.code)
  else some (notOfficialCardError card.code)

def cardAvailabilityValidationHandler (rule : YGOProRule) (next : DeckValidation) :
    DeckValidation :=
  let availFlag := availFlagFor rule
  if availFlag = 0 then next else eachCardValidationHandler (checkAvail availFlag) next

def BanList.availableCards (banList : BanList) : List Nat :=
  banList.limited ++ banList.semiLimited ++ banList.forbidden ++ banList.all

def unavailableError (banList : BanList) (card : Card) : Option DeckError :=
  if card.code ∉ banList.availableCards ∧
      (card.aliasCode = 0 ∨ card.aliasCode ∉ banList.availableCards) then
    some (unknownCardError card.code)
  else none

/-- A list that is no whitelist ends the chain here, whatever comes next. -/
def availableCardValidationHandler (banList : BanList) (next : DeckValidation) : DeckValidation :=
  if banList.isWhiteListed then
    if banList.availableCards.length > 0 then
      eachCardValidationHandler (unavailableError banList) next
    else next
  else fun _ => none

def deckRuleValidationHandler (rules : DeckRules) : DeckValidation → DeckValidation :=
  eachCardValidationHandler (fun card =>
    if rules.rule = .onlyOcg then
      if card.variant &&& ScopeCode.OCG = 0 then some (tcgCardError card.code) else none
    else if rules.rule = .onlyTcg then
      if card.variant &&& ScopeCode.TCG = 0 then some (ocgCardError card.code) else none
    else none)

/-- Bits of a 32-bit variant outside the official scopes. -/
def unofficialBits (variant : Nat) : Nat :=
  (variant % 2 ^ 32) &&& (2 ^ 32 - 1 - ScopeCode.OFFICIAL)

def officialCardAllowed (rule : Rule) (card : Card) : Bool :=
  match rule with
  | .ocgTcg | .onlyOcg | .onlyTcg => ¬ card.variant > ScopeCode.OCG_TCG
  | .preRelease => ¬ unofficialBits card.variant ≠ 0
  | _ => true

def officialCardValidationHandler (rules : DeckRules) : DeckValidation → DeckValidation :=
  eachCardValidationHandler (fun card =>
    if officialCardAllowed rules.rule card then none else some (notOfficialCardError card.code))

def prereleaseAllowed (rule : Rule) (card : Card) : Bool :=
  ¬ (rule = .preRelease ∧ card.variant &&& ScopeCode.OFFICIAL = 0)

def prereleaseValidationHandler (rules : DeckRules) : DeckValidation → DeckValidation :=
  eachCardValidationHandler (fun card =>
    if prereleaseAllowed rules.rule card then none else some (notOfficialCardError card.code))

def MAX_COPIES : Nat := 3

/-- A card's identity: alternate artworks share their alias. -/
def Card.canonicalId (card : Card) : Nat := if card.aliasCode ≠ 0 then card.aliasCode else card.code

def countCanonical (cards : List Card) : InsertionMap Nat Nat :=
  cards.foldl (fun counts card =>
    counts.set card.canonicalId ((counts.get card.canonicalId).getD 0 + 1)) .empty

def maxCopiesValidationHandler (next : DeckValidation) : DeckValidation :=
  fun deck =>
    match (countCanonical deck.allCards).entries.find? (fun entry => entry.2 > MAX_COPIES) with
    | some (canonicalId, _) => some (cardMoreThan3Error canonicalId)
    | none => next deck

def genesysCardError (card : Card) : Option DeckError :=
  if card.type &&& (TYPE_PENDULUM ||| TYPE_LINK) ≠ 0 then some (banListDeckError card.code)
  else if card.variant = 8 then some (banListDeckError card.code)
  else none

/-- A card without points of its own costs what its alias costs. -/
def cardPoint (points : InsertionMap Nat Nat) (card : Card) : Nat :=
  ((points.get card.code).or (points.get card.aliasCode)).getD 0

/-- Always the last handler: the source refuses to set one after it. -/
def genesysRulesValidationHandler (maxDeckPoints : Int) (points : InsertionMap Nat Nat) :
    DeckValidation :=
  fun deck =>
    match deck.allCards.findSome? genesysCardError with
    | some error => some error
    | none =>
      let total := (deck.allCards.map (cardPoint points)).sum
      if (total : Int) > maxDeckPoints then some (mainDeckLimitError total 0 maxDeckPoints)
      else none

/-! ## The two chains -/

/-- `YGOProDeckValidator.validate`. -/
def YGOProDeckValidator.validate (rules : DeckRules) (banList : BanList) (rule : YGOProRule) :
    DeckValidation :=
  deckLimitsValidationHandler rules <|
    if banList.isGenesys then
      maxCopiesValidationHandler <|
        genesysRulesValidationHandler rules.maxDeckPoints banList.points
    else
      forbiddenCardValidationHandler banList <|
        semiLimitedCardValidationHandler banList <|
        limitedCardValidationHandler banList <|
        creditLimitValidationHandler banList <|
        cardAvailabilityValidationHandler rule <|
        noLimitedCardValidationHandler banList <|
        availableCardValidationHandler banList noNextHandler

/-- `Deck.validate`, over the list and the rules the deck was built with. -/
def Deck.validate (deck : Deck) : Option DeckError :=
  let rules := deck.deckRules
  let banList := deck.banList
  let handleValidations : DeckValidation :=
    deckLimitsValidationHandler rules <|
      if !banList.isGenesys then
        forbiddenCardValidationHandler banList <|
          semiLimitedCardValidationHandler banList <|
          limitedCardValidationHandler banList <|
          deckRuleValidationHandler rules <|
          officialCardValidationHandler rules <|
          prereleaseValidationHandler rules <|
          noLimitedCardValidationHandler banList <|
          availableCardValidationHandler banList noNextHandler
      else
        deckRuleValidationHandler rules <|
          officialCardValidationHandler rules <|
          prereleaseValidationHandler rules <|
          maxCopiesValidationHandler <|
          genesysRulesValidationHandler rules.maxDeckPoints banList.points
  handleValidations deck

/-! ## What each handler accepts -/

theorem deckLimits_none {rules : DeckRules} {next : DeckValidation} {deck : Deck} :
    deckLimitsValidationHandler rules next deck = none ↔
      (rules.mainMin ≤ deck.main.length ∧ deck.main.length ≤ rules.mainMax) ∧
      (rules.sideMin ≤ deck.side.length ∧ deck.side.length ≤ rules.sideMax) ∧
      (rules.extraMin ≤ deck.extra.length ∧ deck.extra.length ≤ rules.extraMax) ∧
      next deck = none := by
  unfold deckLimitsValidationHandler
  split
  · rename_i h
    simp only [reduceCtorEq, false_iff]
    omega
  · split
    · rename_i h
      simp only [reduceCtorEq, false_iff]
      omega
    · split
      · rename_i h
        simp only [reduceCtorEq, false_iff]
        omega
      · constructor
        · intro h
          exact ⟨by omega, by omega, by omega, h⟩
        · exact fun h => h.2.2.2

/-- A card goes by its code and, when it has one, by its alias. -/
def Card.goesBy (code : Nat) (card : Card) : Bool :=
  card.code = code ∨ card.aliasCode ≠ 0 ∧ card.aliasCode = code

theorem countCard_get (cards : InsertionMap Nat Nat) (card : Card) (code : Nat) :
    ((countCard cards card).get code).getD 0 =
      (cards.get code).getD 0 + if card.goesBy code then 1 else 0 := by
  unfold countCard Card.goesBy
  by_cases hc : code = card.code
  · subst hc
    simp
  · by_cases ha : card.aliasCode = 0
    · simp [ha, hc, Ne.symm hc]
    · by_cases hca : code = card.aliasCode
      · subst hca
        simp [ha, hc]
      · simp [ha, hc, hca, Ne.symm hc, Ne.symm hca]

theorem countCards_get (cards : List Card) (code : Nat) :
    ((countCards cards).get code).getD 0 = cards.countP (Card.goesBy code) := by
  have hfold : ∀ (counts : InsertionMap Nat Nat),
      ((cards.foldl countCard counts).get code).getD 0 =
        (counts.get code).getD 0 + cards.countP (Card.goesBy code) := by
    induction cards with
    | nil => simp
    | cons card cards ih =>
      intro counts
      rw [List.foldl_cons, ih, countCard_get, List.countP_cons]
      omega
  simpa [countCards] using hfold .empty

theorem bucket_none {bucket : List Nat} {allowed : Nat} {error : Nat → DeckError}
    {next : DeckValidation} {deck : Deck} :
    bucketValidationHandler bucket allowed error next deck = none ↔
      (∀ code ∈ bucket, deck.allCards.countP (Card.goesBy code) ≤ allowed) ∧
        next deck = none := by
  simp only [bucketValidationHandler, countCards_get]
  split
  · rename_i code h
    have hover := List.find?_some h
    simp only [reduceCtorEq, false_iff, not_and]
    intro hall
    have hle := hall code (List.mem_of_find?_eq_some h)
    simp only [decide_eq_true_eq] at hover
    omega
  · rename_i h
    simp only [List.find?_eq_none, decide_eq_true_eq, Nat.not_lt, gt_iff_lt] at h
    exact ⟨fun hnext => ⟨h, hnext⟩, fun hnext => hnext.2⟩

/-- What a deck spends of a category. -/
def CreditLimit.spentBy (limit : CreditLimit) (cards : List Card) : Nat :=
  (cards.filterMap (fun card => limit.cards.get card.code)).sum

theorem overspent_none (limit : CreditLimit) :
    ∀ (cards : List Card) (spent : Nat), spent ≤ limit.cap →
      (overspent limit spent cards = none ↔ spent + limit.spentBy cards ≤ limit.cap)
  | [], spent, h => by simpa [overspent, CreditLimit.spentBy] using h
  | card :: cards, spent, h => by
    cases hcredit : limit.cards.get card.code with
    | none =>
      have ih := overspent_none limit cards spent h
      simpa [overspent, CreditLimit.spentBy, hcredit] using ih
    | some credit =>
      have hspent : limit.spentBy (card :: cards) = credit + limit.spentBy cards := by
        simp [CreditLimit.spentBy, hcredit]
      simp only [overspent, hcredit, hspent]
      split
      · simp only [reduceCtorEq, false_iff]
        omega
      · have ih := overspent_none limit cards (spent + credit) (by omega)
        rw [ih]
        omega

theorem creditLimit_none {banList : BanList} {next : DeckValidation} {deck : Deck} :
    creditLimitValidationHandler banList next deck = none ↔
      (∀ limit ∈ banList.creditLimits.values, limit.spentBy deck.allCards ≤ limit.cap) ∧
        next deck = none := by
  have hlimits : banList.creditLimits.values.findSome? (fun limit =>
      (overspent limit 0 deck.allCards).map (fun (offender, spent) =>
        creditLimitDeckError offender spent limit.cap)) = none ↔
      ∀ limit ∈ banList.creditLimits.values, limit.spentBy deck.allCards ≤ limit.cap := by
    simp only [List.findSome?_eq_none_iff, Option.map_eq_none_iff]
    refine forall₂_congr (fun limit _ => ?_)
    simpa using overspent_none limit deck.allCards 0 (Nat.zero_le _)
  rw [← hlimits]
  unfold creditLimitValidationHandler
  split
  · rename_i error h
    simp [h]
  · rename_i h
    simp [h]

theorem eachCard_none {check : Card → Option DeckError} {next : DeckValidation} {deck : Deck} :
    eachCardValidationHandler check next deck = none ↔
      (∀ card ∈ deck.allCards, check card = none) ∧ next deck = none := by
  rw [← List.findSome?_eq_none_iff]
  unfold eachCardValidationHandler
  split
  · rename_i error h
    simp [h]
  · rename_i h
    simp [h]

/-- A card passes when it is custom or carries every bit the rule requires. -/
def Card.availableUnder (rule : YGOProRule) (card : Card) : Prop :=
  card.variant &&& AvailFlag.CUSTOM ≠ 0 ∨
    card.variant &&& availFlagFor rule = availFlagFor rule

theorem checkAvail_none {availFlag : Nat} {card : Card} :
    checkAvail availFlag card = none ↔
      card.variant &&& AvailFlag.CUSTOM ≠ 0 ∨ card.variant &&& availFlag = availFlag := by
  unfold checkAvail
  by_cases hcustom : card.variant &&& AvailFlag.CUSTOM = 0
  · by_cases hflag : card.variant &&& availFlag = availFlag
    · simp [hcustom, hflag]
    · simp only [hcustom, hflag, ne_eq, not_true_eq_false, if_false, or_self, iff_false]
      split
      · simp
      · split <;> simp
  · simp [hcustom]

theorem cardAvailability_none {rule : YGOProRule} {next : DeckValidation} {deck : Deck} :
    cardAvailabilityValidationHandler rule next deck = none ↔
      (∀ card ∈ deck.allCards, card.availableUnder rule) ∧ next deck = none := by
  unfold cardAvailabilityValidationHandler
  by_cases h : availFlagFor rule = 0
  · simp [h, Card.availableUnder]
  · simp only [h, if_false, eachCard_none, checkAvail_none]
    rfl

theorem availableCard_none {banList : BanList} {deck : Deck} :
    availableCardValidationHandler banList noNextHandler deck = none ↔
      (banList.isWhiteListed = true → banList.availableCards ≠ [] → ∀ card ∈ deck.allCards,
        card.code ∈ banList.availableCards ∨
          card.aliasCode ≠ 0 ∧ card.aliasCode ∈ banList.availableCards) := by
  have hcard : ∀ card : Card, unavailableError banList card = none ↔
      card.code ∈ banList.availableCards ∨
        card.aliasCode ≠ 0 ∧ card.aliasCode ∈ banList.availableCards := by
    intro card
    unfold unavailableError
    split
    · simp only [reduceCtorEq, false_iff]
      tauto
    · simp only [true_iff]
      tauto
  unfold availableCardValidationHandler
  by_cases hwhite : banList.isWhiteListed = true
  · by_cases hempty : banList.availableCards = []
    · simp [hwhite, hempty, noNextHandler]
    · have hpos : banList.availableCards.length > 0 := List.length_pos_iff.mpr hempty
      simp [hwhite, hpos, hempty, eachCard_none, hcard, noNextHandler]
  · simp [hwhite]

theorem countCanonical_get (cards : List Card) (id : Nat) :
    ((countCanonical cards).get id).getD 0 =
      cards.countP (fun card => card.canonicalId = id) := by
  have hfold : ∀ (counts : InsertionMap Nat Nat),
      ((cards.foldl (fun counts card =>
        counts.set card.canonicalId ((counts.get card.canonicalId).getD 0 + 1)) counts).get
          id).getD 0 =
        (counts.get id).getD 0 + cards.countP (fun card => card.canonicalId = id) := by
    induction cards with
    | nil => simp
    | cons card cards ih =>
      intro counts
      rw [List.foldl_cons, ih, InsertionMap.get_set, List.countP_cons]
      by_cases h : id = card.canonicalId
      · subst h
        simp only [if_true, Option.getD_some, decide_true]
        omega
      · simp [h, Ne.symm h]
  simpa [countCanonical] using hfold .empty

/-- Copies of a card identity in main, side and extra together. -/
def Deck.copies (deck : Deck) (id : Nat) : Nat :=
  deck.allCards.countP (fun card => card.canonicalId = id)

theorem maxCopies_none {next : DeckValidation} {deck : Deck} :
    maxCopiesValidationHandler next deck = none ↔
      (∀ id, deck.copies id ≤ MAX_COPIES) ∧ next deck = none := by
  unfold maxCopiesValidationHandler
  split
  · rename_i id count h
    have hget := InsertionMap.get_eq_some.mpr (List.mem_of_find?_eq_some h)
    have hover := List.find?_some h
    simp only [reduceCtorEq, false_iff, not_and]
    intro hall
    have hcopies := countCanonical_get deck.allCards id
    rw [hget, Option.getD_some] at hcopies
    have hle := hall id
    simp only [decide_eq_true_eq] at hover
    unfold Deck.copies at hle
    omega
  · rename_i h
    simp only [List.find?_eq_none, decide_eq_true_eq, gt_iff_lt] at h
    refine ⟨fun hnext => ⟨?_, hnext⟩, fun hnext => hnext.2⟩
    intro id
    rw [Deck.copies, ← countCanonical_get]
    cases hget : (countCanonical deck.allCards).get id with
    | none => exact Nat.zero_le _
    | some count => exact Nat.not_lt.mp (h (id, count) (InsertionMap.get_eq_some.mp hget))

end EdoproServer.Decks
