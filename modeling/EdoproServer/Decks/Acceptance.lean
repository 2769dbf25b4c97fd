import EdoproServer.Decks.Validators

namespace EdoproServer.Decks
open Lib

/-! ## What an accepted deck is -/

structure WithinDeckLimits (rules : DeckRules) (deck : Deck) : Prop where
  main : rules.mainMin ≤ deck.main.length ∧ deck.main.length ≤ rules.mainMax
  side : rules.sideMin ≤ deck.side.length ∧ deck.side.length ≤ rules.sideMax
  extra : rules.extraMin ≤ deck.extra.length ∧ deck.extra.length ≤ rules.extraMax

/-- The copies each bucket of a ban list allows of its entries. -/
def BanList.buckets (banList : BanList) : List (List Nat × Nat) :=
  [(banList.forbidden, 0), (banList.limited, 1), (banList.semiLimited, 2), (banList.all, 3)]

theorem forall_buckets {banList : BanList} {P : Nat → Nat → Prop} :
    (∀ bucket ∈ banList.buckets, ∀ code ∈ bucket.1, P code bucket.2) ↔
      (∀ code ∈ banList.forbidden, P code 0) ∧ (∀ code ∈ banList.limited, P code 1) ∧
        (∀ code ∈ banList.semiLimited, P code 2) ∧ (∀ code ∈ banList.all, P code 3) := by
  simp only [BanList.buckets, List.mem_cons, List.not_mem_nil, or_false, forall_eq_or_imp,
    forall_eq]

/-- What a ban list other than Genesys asks of the cards, whatever section they are in. -/
structure MeetsBanList (banList : BanList) (cards : List Card) : Prop where
  buckets : ∀ bucket ∈ banList.buckets, ∀ code ∈ bucket.1,
    cards.countP (Card.goesBy code) ≤ bucket.2
  whitelist : banList.isWhiteListed = true → banList.availableCards ≠ [] → ∀ card ∈ cards,
    card.code ∈ banList.availableCards ∨
      card.aliasCode ≠ 0 ∧ card.aliasCode ∈ banList.availableCards

structure MeetsYGOProPool (banList : BanList) (rule : YGOProRule) (cards : List Card) : Prop where
  credits : ∀ limit ∈ banList.creditLimits.values, limit.spentBy cards ≤ limit.cap
  available : ∀ card ∈ cards, card.availableUnder rule

/-- The EDOPro card-pool rule: scope, officialness and prerelease. -/
structure MeetsEdoproPool (rules : DeckRules) (cards : List Card) : Prop where
  ocg : rules.rule = .onlyOcg → ∀ card ∈ cards, card.variant &&& ScopeCode.OCG ≠ 0
  tcg : rules.rule = .onlyTcg → ∀ card ∈ cards, card.variant &&& ScopeCode.TCG ≠ 0
  official : ∀ card ∈ cards, officialCardAllowed rules.rule card = true
  prerelease : ∀ card ∈ cards, prereleaseAllowed rules.rule card = true

theorem deckRule_none {rules : DeckRules} {next : DeckValidation} {deck : Deck} :
    deckRuleValidationHandler rules next deck = none ↔
      (rules.rule = .onlyOcg → ∀ card ∈ deck.allCards, card.variant &&& ScopeCode.OCG ≠ 0) ∧
      (rules.rule = .onlyTcg → ∀ card ∈ deck.allCards, card.variant &&& ScopeCode.TCG ≠ 0) ∧
      next deck = none := by
  rw [deckRuleValidationHandler, eachCard_none]
  by_cases hocg : rules.rule = .onlyOcg
  · simp [hocg]
  · by_cases htcg : rules.rule = .onlyTcg
    · simp [htcg]
    · simp [hocg, htcg]

theorem allowed_none {allowed : Card → Bool} {error : Card → DeckError} {next : DeckValidation}
    {deck : Deck} :
    eachCardValidationHandler (fun card => if allowed card then none else some (error card)) next
        deck = none ↔
      (∀ card ∈ deck.allCards, allowed card = true) ∧ next deck = none := by
  simp [eachCard_none]

/-- The chain of a YGOPro room accepts exactly the decks that meet every rule on their own. -/
theorem YGOProDeckValidator.validate_none {rules : DeckRules} {banList : BanList}
    {rule : YGOProRule} {deck : Deck} (hlist : banList.isGenesys = false) :
    YGOProDeckValidator.validate rules banList rule deck = none ↔
      WithinDeckLimits rules deck ∧ MeetsBanList banList deck.allCards ∧
        MeetsYGOProPool banList rule deck.allCards := by
  simp only [YGOProDeckValidator.validate, hlist, Bool.false_eq_true, if_false, deckLimits_none,
    forbiddenCardValidationHandler, semiLimitedCardValidationHandler, limitedCardValidationHandler,
    noLimitedCardValidationHandler, bucket_none, creditLimit_none, cardAvailability_none,
    availableCard_none]
  constructor
  · rintro ⟨hmain, hside, hextra, hforbidden, hsemi, hlimited, hcredit, havail, hall, hwhite⟩
    exact ⟨⟨hmain, hside, hextra⟩, 
      ⟨forall_buckets.mpr ⟨hforbidden, hlimited, hsemi, hall⟩, hwhite⟩, ⟨hcredit, havail⟩⟩
  · rintro ⟨⟨hmain, hside, hextra⟩, ⟨hbuckets, hwhite⟩, ⟨hcredit, havail⟩⟩
    obtain ⟨hforbidden, hlimited, hsemi, hall⟩ := forall_buckets.mp hbuckets
    exact ⟨hmain, hside, hextra, hforbidden, hsemi, hlimited, hcredit, havail, hall, hwhite⟩

theorem Deck.validate_none {deck : Deck} (hlist : deck.banList.isGenesys = false) :
    deck.validate = none ↔
      WithinDeckLimits deck.deckRules deck ∧ MeetsBanList deck.banList deck.allCards ∧
        MeetsEdoproPool deck.deckRules deck.allCards := by
  simp only [Deck.validate, hlist, Bool.not_false, if_true, deckLimits_none,
    forbiddenCardValidationHandler, semiLimitedCardValidationHandler, limitedCardValidationHandler,
    noLimitedCardValidationHandler, bucket_none, deckRule_none, officialCardValidationHandler,
    prereleaseValidationHandler, allowed_none, availableCard_none]
  constructor
  · rintro ⟨hmain, hside, hextra, hforbidden, hsemi, hlimited, hocg, htcg, hofficial, hpre, hall,
      hwhite⟩
    exact ⟨⟨hmain, hside, hextra⟩, 
      ⟨forall_buckets.mpr ⟨hforbidden, hlimited, hsemi, hall⟩, hwhite⟩,
      ⟨hocg, htcg, hofficial, hpre⟩⟩
  · rintro ⟨⟨hmain, hside, hextra⟩, ⟨hbuckets, hwhite⟩, ⟨hocg, htcg, hofficial, hpre⟩⟩
    obtain ⟨hforbidden, hlimited, hsemi, hall⟩ := forall_buckets.mp hbuckets
    exact ⟨hmain, hside, hextra, hforbidden, hsemi, hlimited, hocg, htcg, hofficial, hpre, hall,
      hwhite⟩

/-! ## Copies of a card -/

/-- At most three copies of every card identity, and at most what the list allows of the
identities it names. -/
structure CopyLimit (banList : BanList) (deck : Deck) : Prop where
  three : ∀ id, deck.copies id ≤ 3
  listed : banList.isGenesys = false → ∀ bucket ∈ banList.buckets, ∀ id ∈ bucket.1,
    deck.copies id ≤ bucket.2

/-- No identity outside the list's four buckets is played more than three times. -/
def UnlistedWithinThree (banList : BanList) (deck : Deck) : Prop :=
  ∀ id, id ∉ banList.availableCards → deck.copies id ≤ 3

theorem goesBy_canonicalId (card : Card) : card.goesBy card.canonicalId = true := by
  unfold Card.goesBy Card.canonicalId
  split <;> simp_all

theorem copies_le_goesBy (deck : Deck) (id : Nat) :
    deck.copies id ≤ deck.allCards.countP (Card.goesBy id) := by
  apply List.countP_mono_left
  intro card _ hid
  simp only [decide_eq_true_eq] at hid
  exact hid ▸ goesBy_canonicalId card

theorem MeetsBanList.copies_le {banList : BanList} {deck : Deck}
    (h : MeetsBanList banList deck.allCards) {bucket : List Nat × Nat}
    (hbucket : bucket ∈ banList.buckets) {id : Nat} (hid : id ∈ bucket.1) :
    deck.copies id ≤ bucket.2 :=
  Nat.le_trans (copies_le_goesBy deck id) (h.buckets bucket hbucket id hid)

theorem listed_bucket {banList : BanList} {id : Nat} (h : id ∈ banList.availableCards) :
    ∃ bucket ∈ banList.buckets, id ∈ bucket.1 ∧ bucket.2 ≤ 3 := by
  simp only [BanList.availableCards, List.mem_append] at h
  rcases h with ((h | h) | h) | h
  · exact ⟨(banList.limited, 1), by simp [BanList.buckets], h, by simp⟩
  · exact ⟨(banList.semiLimited, 2), by simp [BanList.buckets], h, by simp⟩
  · exact ⟨(banList.forbidden, 0), by simp [BanList.buckets], h, by simp⟩
  · exact ⟨(banList.all, 3), by simp [BanList.buckets], h, by simp⟩

/-- The list caps what it names; the cap of the rest has to come from elsewhere. -/
theorem MeetsBanList.copyLimit_iff {banList : BanList} {deck : Deck}
    (h : MeetsBanList banList deck.allCards) :
    CopyLimit banList deck ↔ UnlistedWithinThree banList deck := by
  constructor
  · intro hlimit id _
    exact hlimit.three id
  · intro hunlisted
    refine ⟨?_, fun _ bucket hbucket id hid => h.copies_le hbucket hid⟩
    intro id
    by_cases hid : id ∈ banList.availableCards
    · obtain ⟨bucket, hbucket, hmem, hthree⟩ := listed_bucket hid
      exact Nat.le_trans (h.copies_le hbucket hmem) hthree
    · exact hunlisted id hid

theorem YGOProDeckValidator.genesys_copies {rules : DeckRules} {banList : BanList}
    {rule : YGOProRule} {deck : Deck} (hlist : banList.isGenesys = true)
    (h : YGOProDeckValidator.validate rules banList rule deck = none) : CopyLimit banList deck := by
  simp only [YGOProDeckValidator.validate, hlist, if_true, deckLimits_none, maxCopies_none] at h
  obtain ⟨-, -, -, hcopies, -⟩ := h
  exact ⟨hcopies, fun hno => by simp [hlist] at hno⟩

theorem Deck.genesys_copies {deck : Deck} (hlist : deck.banList.isGenesys = true)
    (h : deck.validate = none) : CopyLimit deck.banList deck := by
  simp only [Deck.validate, hlist, Bool.not_true, Bool.false_eq_true, if_false, deckLimits_none,
    deckRule_none, officialCardValidationHandler, prereleaseValidationHandler, allowed_none,
    maxCopies_none] at h
  obtain ⟨-, -, -, -, -, -, -, hcopies, -⟩ := h
  exact ⟨hcopies, fun hno => by simp [hlist] at hno⟩

/-- A verdict that caps copies on Genesys and is `legal` elsewhere implies the copy limit exactly
when the list is Genesys, caps everything the deck overplays, or the deck is not legal. -/
theorem verdict_copyLimit_iff {banList : BanList} {deck : Deck} {accepted legal : Prop}
    (hgenesys : banList.isGenesys = true → accepted → CopyLimit banList deck)
    (hother : banList.isGenesys = false → (accepted ↔ legal))
    (hlegal : legal → MeetsBanList banList deck.allCards) :
    (accepted → CopyLimit banList deck) ↔
      (banList.isGenesys = true ∨ UnlistedWithinThree banList deck ∨ ¬ legal) := by
  cases hlist : banList.isGenesys with
  | true => simpa using hgenesys hlist
  | false =>
    rw [hother hlist]
    constructor
    · intro himp
      by_cases hl : legal
      · exact .inr (.inl ((hlegal hl).copyLimit_iff.mp (himp hl)))
      · exact .inr (.inr hl)
    · rintro (hgenesys | hunlisted | hillegal) hl
      · cases hgenesys
      · exact (hlegal hl).copyLimit_iff.mpr hunlisted
      · exact absurd hl hillegal

/-- The copy limit follows from either verdict exactly when the list is Genesys, no identity the
list leaves out is played more than three times, or another rule refuses the deck anyway. -/
theorem accepted_copyLimit_iff (rules : DeckRules) (banList : BanList) (rule : YGOProRule)
    (deck : Deck) :
    ((YGOProDeckValidator.validate rules banList rule deck = none → CopyLimit banList deck) ↔
      (banList.isGenesys = true ∨ UnlistedWithinThree banList deck ∨
        ¬ (WithinDeckLimits rules deck ∧ MeetsBanList banList deck.allCards ∧
          MeetsYGOProPool banList rule deck.allCards))) ∧
    ((deck.validate = none → CopyLimit deck.banList deck) ↔
      (deck.banList.isGenesys = true ∨ UnlistedWithinThree deck.banList deck ∨
        ¬ (WithinDeckLimits deck.deckRules deck ∧ MeetsBanList deck.banList deck.allCards ∧
          MeetsEdoproPool deck.deckRules deck.allCards))) := by
  constructor
  · exact verdict_copyLimit_iff YGOProDeckValidator.genesys_copies
      YGOProDeckValidator.validate_none (fun h => h.2.1)
  · exact verdict_copyLimit_iff Deck.genesys_copies Deck.validate_none (fun h => h.2.1)

/-- A list that only forbids one card, and forty copies of another one. -/
def fortyCopies : Deck where
  main := List.replicate 40 { aliasCode := 0, code := 46986414, type := 0x11, variant := 0x3 }
  side := []
  extra := []
  banList := {
    forbidden := [91869203], limited := [], semiLimited := [], all := [], points := .empty
    creditLimits := .empty, name := some "2026.04 TCG", isWhiteListed := false }
  deckRules := {
    mainMin := 40, mainMax := 60, extraMin := 0, extraMax := 15, sideMin := 0, sideMax := 15
    rule := .onlyTcg, maxDeckPoints := 100 }

theorem fortyCopies_accepted :
    YGOProDeckValidator.validate fortyCopies.deckRules fortyCopies.banList .tcg fortyCopies = none ∧
      fortyCopies.validate = none ∧ ¬ CopyLimit fortyCopies.banList fortyCopies := by
  refine ⟨by decide, by decide, ?_⟩
  intro h
  exact absurd (h.three 46986414) (by decide)

/-! ## What the verdict depends on -/

theorem CreditLimit.spentBy_perm (limit : CreditLimit) {cards cards' : List Card}
    (h : cards.Perm cards') : limit.spentBy cards = limit.spentBy cards' :=
  (h.filterMap _).sum_eq

theorem MeetsBanList.perm {banList : BanList} {cards cards' : List Card} (h : cards.Perm cards')
    (hmeets : MeetsBanList banList cards) : MeetsBanList banList cards' where
  buckets bucket hbucket code hcode := by
    rw [← h.countP_eq]
    exact hmeets.buckets bucket hbucket code hcode
  whitelist hwhite hlisted card hcard :=
    hmeets.whitelist hwhite hlisted card (h.mem_iff.mpr hcard)

theorem MeetsYGOProPool.perm {banList : BanList} {rule : YGOProRule} {cards cards' : List Card}
    (h : cards.Perm cards') (hmeets : MeetsYGOProPool banList rule cards) :
    MeetsYGOProPool banList rule cards' where
  credits limit hlimit := by
    rw [← limit.spentBy_perm h]
    exact hmeets.credits limit hlimit
  available card hcard := hmeets.available card (h.mem_iff.mpr hcard)

/-- The chain of a YGOPro room is the conjunction of its rules, so the order of the cards does not
matter and their sections only by their sizes. -/
theorem deck_validation_reference (rules : DeckRules) (banList : BanList) (rule : YGOProRule)
    (deck : Deck) (hlist : banList.isGenesys = false) :
    (YGOProDeckValidator.validate rules banList rule deck = none ↔
      WithinDeckLimits rules deck ∧
      (∀ card ∈ deck.allCards, card.availableUnder rule) ∧
      (∀ code ∈ banList.forbidden, deck.allCards.countP (Card.goesBy code) ≤ 0) ∧
      (∀ code ∈ banList.limited, deck.allCards.countP (Card.goesBy code) ≤ 1) ∧
      (∀ code ∈ banList.semiLimited, deck.allCards.countP (Card.goesBy code) ≤ 2) ∧
      (∀ code ∈ banList.all, deck.allCards.countP (Card.goesBy code) ≤ 3) ∧
      (∀ limit ∈ banList.creditLimits.values, limit.spentBy deck.allCards ≤ limit.cap) ∧
      (banList.isWhiteListed = true → banList.availableCards ≠ [] → ∀ card ∈ deck.allCards,
        ∃ code ∈ banList.availableCards, card.goesBy code = true)) ∧
    ∀ deck' : Deck, deck'.main.length = deck.main.length → deck'.side.length = deck.side.length →
      deck'.extra.length = deck.extra.length → deck'.allCards.Perm deck.allCards →
      (YGOProDeckValidator.validate rules banList rule deck' = none ↔
        YGOProDeckValidator.validate rules banList rule deck = none) := by
  have hnamed : ∀ card : Card, (card.code ∈ banList.availableCards ∨
      card.aliasCode ≠ 0 ∧ card.aliasCode ∈ banList.availableCards) ↔
        ∃ code ∈ banList.availableCards, card.goesBy code = true := by
    intro card
    simp only [Card.goesBy, decide_eq_true_eq]
    constructor
    · rintro (hcode | ⟨halias, hcode⟩)
      · exact ⟨card.code, hcode, Or.inl rfl⟩
      · exact ⟨card.aliasCode, hcode, Or.inr ⟨halias, rfl⟩⟩
    · rintro ⟨code, hcode, rfl | ⟨halias, rfl⟩⟩
      · exact Or.inl hcode
      · exact Or.inr ⟨halias, hcode⟩
  constructor
  · rw [YGOProDeckValidator.validate_none hlist]
    constructor
    · rintro ⟨hlimits, hmeets, hpool⟩
      obtain ⟨hforbidden, hlimited, hsemi, hall⟩ := forall_buckets.mp hmeets.buckets
      exact ⟨hlimits, hpool.available, hforbidden, hlimited, hsemi, hall, hpool.credits,
        fun hwhite hne card hcard => (hnamed card).mp (hmeets.whitelist hwhite hne card hcard)⟩
    · rintro ⟨hlimits, havail, hforbidden, hlimited, hsemi, hall, hcredits, hwhite⟩
      exact ⟨hlimits, ⟨forall_buckets.mpr ⟨hforbidden, hlimited, hsemi, hall⟩,
        fun hw hne card hcard => (hnamed card).mpr (hwhite hw hne card hcard)⟩,
        ⟨hcredits, havail⟩⟩
  · intro deck' hmain hside hextra hcards
    rw [YGOProDeckValidator.validate_none hlist, YGOProDeckValidator.validate_none hlist]
    constructor
    · rintro ⟨hlimits, hmeets, hpool⟩
      refine ⟨⟨?_, ?_, ?_⟩, hmeets.perm hcards, hpool.perm hcards⟩
      · exact hmain ▸ hlimits.main
      · exact hside ▸ hlimits.side
      · exact hextra ▸ hlimits.extra
    · rintro ⟨hlimits, hmeets, hpool⟩
      refine ⟨⟨?_, ?_, ?_⟩, hmeets.perm hcards.symm, hpool.perm hcards.symm⟩
      · exact hmain.symm ▸ hlimits.main
      · exact hside.symm ▸ hlimits.side
      · exact hextra.symm ▸ hlimits.extra

/-- The forty copies pass every rule of their list, turned around as well. -/
theorem deck_validation_reference_forty :
    WithinDeckLimits fortyCopies.deckRules fortyCopies ∧
      YGOProDeckValidator.validate fortyCopies.deckRules fortyCopies.banList .tcg
        { fortyCopies with main := fortyCopies.main.reverse } = none := by
  have haccepted : YGOProDeckValidator.validate fortyCopies.deckRules fortyCopies.banList .tcg
      fortyCopies = none := by decide
  obtain ⟨hiff, hperm⟩ := deck_validation_reference fortyCopies.deckRules fortyCopies.banList .tcg
    fortyCopies rfl
  have hperm' := hperm { fortyCopies with main := fortyCopies.main.reverse }
    List.length_reverse rfl rfl (((List.reverse_perm _).append_right _).append_right _)
  exact ⟨(hiff.mp haccepted).1, hperm'.mpr haccepted⟩

end EdoproServer.Decks
