import EdoproServer.Lib.Double
import EdoproServer.Lib.TokenPatterns
import EdoproServer.Lib.Utf16

namespace EdoproServer.Room
open Lib Utf16 TokenPatterns

/-! ## The settings of a room -/

inductive GameMode where
  | SINGLE
  | MATCH
  | TAG
  deriving DecidableEq, Repr

/-- The settings a host chooses. A number that was read may be infinite. -/
structure HostInfo where
  lflist : Int
  rule : Nat
  mode : GameMode
  duelRule : ℕ∞
  noCheckDeck : Nat
  noShuffleDeck : Nat
  startLp : ℕ∞
  startHand : ℕ∞
  drawCount : ℕ∞
  timeLimit : ℕ∞
  maxDeckPoints : ℕ∞
  bestOf : ℕ∞
  tcgSegocNonpublic : Nat
  goat2005 : Nat
  deriving DecidableEq

/-- The settings that a rule names. -/
structure PartialHostInfo where
  lflist : Option Int := none
  rule : Option Nat := none
  mode : Option GameMode := none
  duelRule : Option ℕ∞ := none
  noCheckDeck : Option Nat := none
  noShuffleDeck : Option Nat := none
  startLp : Option ℕ∞ := none
  startHand : Option ℕ∞ := none
  drawCount : Option ℕ∞ := none
  timeLimit : Option ℕ∞ := none
  maxDeckPoints : Option ℕ∞ := none
  bestOf : Option ℕ∞ := none
  tcgSegocNonpublic : Option Nat := none
  goat2005 : Option Nat := none

/-- Settings overwritten by the ones a rule names. -/
def HostInfo.spread (info : HostInfo) (rule : PartialHostInfo) : HostInfo where
  lflist := rule.lflist.getD info.lflist
  rule := rule.rule.getD info.rule
  mode := rule.mode.getD info.mode
  duelRule := rule.duelRule.getD info.duelRule
  noCheckDeck := rule.noCheckDeck.getD info.noCheckDeck
  noShuffleDeck := rule.noShuffleDeck.getD info.noShuffleDeck
  startLp := rule.startLp.getD info.startLp
  startHand := rule.startHand.getD info.startHand
  drawCount := rule.drawCount.getD info.drawCount
  timeLimit := rule.timeLimit.getD info.timeLimit
  maxDeckPoints := rule.maxDeckPoints.getD info.maxDeckPoints
  bestOf := rule.bestOf.getD info.bestOf
  tcgSegocNonpublic := rule.tcgSegocNonpublic.getD info.tcgSegocNonpublic
  goat2005 := rule.goat2005.getD info.goat2005

/-- The ban lists currently loaded, as far as rooms are created from them. An index of -1 stands
for no list. -/
structure YGOProBanListCatalog where
  findIndexByAlias : Utf16 → Int
  getNewestTCGIndex : Int
  getFirstOCGIndex : Int
  /-- The hash of the list at an index. -/
  hashOf : Int → Option UInt32

/-! ## Tokens and numbers -/

def tokenAlphabet : Alphabet UInt16 where
  isDigit c := 0x30 ≤ c && c ≤ 0x39
  isLineEnd c := c ∈ [0xa, 0xd, 0x2028, 0x2029]
  fold c := if 0x41 ≤ c && c ≤ 0x5a then c + 0x20 else c

structure RuleMapping where
  patterns : List (Pattern UInt16)
  get : YGOProBanListCatalog → Utf16 → Except String PartialHostInfo

def RuleMapping.validate (mapping : RuleMapping) (value : Utf16) : Bool :=
  acceptsAny tokenAlphabet mapping.patterns value

abbrev RuleMappings := List RuleMapping

def word (text : String) : Pattern UInt16 := .word (units text)
def numbered (stem : String) : Pattern UInt16 := .numbered (units stem)

/-- The first digits of an option. -/
def firstDigits (input : Utf16) : Utf16 :=
  (input.dropWhile (fun c => !tokenAlphabet.isDigit c)).takeWhile tokenAlphabet.isDigit

/-- What digits stand for. -/
def digitsValue (digits : Utf16) : Nat :=
  digits.foldl (fun value c => 10 * value + (c.toNat - 0x30)) 0

/-- The double that is nearest to a natural number. -/
def toDouble (m : Nat) : ℕ∞ :=
  match Double.ofNat m with
  | some n => n
  | none => ⊤

/-- The sign and the fraction that may stand at a number are in no option with a number. -/
def extractNumberFromCommand (input : Utf16) : Option ℕ∞ :=
  let digits := firstDigits input
  if digits = [] then none else some (toDouble (digitsValue digits))

/-- An integer of at most 21 digits rounded to a double. -/
def roundInt (z : Int) : Int :=
  z.sign * Double.roundTo (Double.spacing z.natAbs) z.natAbs

/-- The integer that a text starts with; one past all doubles counts as none. -/
def parseInt (text : Utf16) : Option Int :=
  let unsigned (text : Utf16) : Option Nat :=
    match text.takeWhile tokenAlphabet.isDigit with
    | [] => none
    | digits => Double.ofNat (digitsValue digits)
  match text.dropWhile Utf16.isWhitespace with
  | [] => none
  | c :: rest =>
    if c = unit '-' then (unsigned rest).map (fun n => -(n : Int))
    else if c = unit '+' then (unsigned rest).map (fun n => (n : Int))
    else (unsigned (c :: rest)).map (fun n => (n : Int))

def resolveAliasIndex (catalog : YGOProBanListCatalog) («alias» : String) : Int :=
  let fallback := 0
  let index := catalog.findIndexByAlias (units «alias»)
  if index = -1 then fallback else index

/-- A rule whose settings do not depend on the option. -/
def RuleMapping.constant (patterns : List (Pattern UInt16))
    (rule : YGOProBanListCatalog → PartialHostInfo) : RuleMapping where
  patterns := patterns
  get catalog _ := .ok (rule catalog)

/-- A rule that reads a number from the option. -/
def RuleMapping.ofNumber (patterns : List (Pattern UInt16))
    (rule : Option ℕ∞ → PartialHostInfo) : RuleMapping where
  patterns := patterns
  get _ value := .ok (rule (extractNumberFromCommand value))

/-! ## The mode tier -/

namespace ModeRule

def m : RuleMapping :=
  .constant [word "m", word "match"] fun _ =>
    { mode := some .MATCH, startLp := some 8000, bestOf := some 3 }

def t : RuleMapping :=
  .constant [word "t", word "tag"] fun _ =>
    { mode := some .TAG, startLp := some 16000, bestOf := some 1 }

end ModeRule

def ruleMappings : RuleMappings := [ModeRule.m, ModeRule.t]

/-! ## The priority tier -/

namespace PriorityRule

/-- An odd number of games. An infinite remainder is not 0, and a sum is rounded. -/
def bestOf : Option ℕ∞ → ℕ∞
  | none => 3
  | some ⊤ => ⊤
  | some (n : ℕ) => if n < 1 then 3 else if n % 2 = 0 then toDouble (n + 1) else n

def bo : RuleMapping :=
  .ofNumber [numbered "bo"] fun number => { mode := some .MATCH, bestOf := some (bestOf number) }

def lp : RuleMapping :=
  .ofNumber [numbered "lp"] fun
    | none => { startLp := some 8000 }
    | some lps =>
      if lps ≤ 0 then { startLp := some 1 }
      else if 99999 ≤ lps then { startLp := some 99999 }
      else { startLp := some lps }

def tm : RuleMapping :=
  .ofNumber [numbered "tm", numbered "time"] fun
    | none => { timeLimit := some 450 }
    | some time =>
      if 1 ≤ time ∧ time ≤ 60 then { timeLimit := some (time * 60) }
      else if 999 ≤ time then { timeLimit := some 999 }
      else { timeLimit := some time }

def mr : RuleMapping :=
  .ofNumber [numbered "mr", numbered "duelrule"] fun
    | none => {}
    | some duelRule => if 0 < duelRule ∧ duelRule ≤ 5 then { duelRule := some duelRule } else {}

def ot : RuleMapping := .constant [word "ot", word "tcg"] fun _ => { rule := some 5 }

def otto : RuleMapping :=
  .constant [word "otto"] fun catalog =>
    { rule := some 5, lflist := some catalog.getFirstOCGIndex }

def toot : RuleMapping :=
  .constant [word "toot", word "tt"] fun catalog =>
    { rule := some 5, lflist := some catalog.getNewestTCGIndex }

def ns : RuleMapping :=
  .constant [word "ns", word "noshuffle"] fun _ => { noShuffleDeck := some 1 }

def tcgsegoc : RuleMapping :=
  .constant [word "tcgsegoc"] fun _ => { tcgSegocNonpublic := some 1 }

def goat2005 : RuleMapping := .constant [word "goat2005"] fun _ => { goat2005 := some 1 }

def nc : RuleMapping := .constant [word "nc", word "nocheck"] fun _ => { noCheckDeck := some 1 }

/-- A count that is none or nothing counts as the fallback, one above the cap as the cap. -/
def capCount (cap fallback : ℕ∞) : Option ℕ∞ → ℕ∞
  | none => fallback
  | some count => if cap < count then cap else if count ≤ 0 then fallback else count

def dr : RuleMapping :=
  .ofNumber [numbered "dr", numbered "draw"] fun number =>
    { drawCount := some (capCount 35 1 number) }

def st : RuleMapping :=
  .ofNumber [numbered "st", numbered "start"] fun number =>
    { startHand := some (capCount 40 5 number) }

def «to» : RuleMapping :=
  .constant [word "to", word "tcgonly", word "tor"] fun catalog =>
    { rule := some 1, lflist := some catalog.getNewestTCGIndex }

/-- The list a query names: by its position, or by an alias. -/
def lflist (catalog : YGOProBanListCatalog) (query : Utf16) : Int :=
  let byAlias :=
    let aliasIndex := catalog.findIndexByAlias query
    if aliasIndex ≠ -1 then aliasIndex else 0
  match parseInt query with
  | none => byAlias
  | some numericIndex =>
    if (Double.integerText numericIndex).map unit = query then roundInt (numericIndex - 1)
    else byAlias

/-- Of the two stems the shorter one is tried first, so all that follows it is the query. -/
def lf : RuleMapping where
  patterns := [.opened (units "lf"), .opened (units "lflist")]
  get catalog value :=
    if (Pattern.opened (units "lf")).accepts tokenAlphabet value then
      .ok { lflist := some (lflist catalog (value.drop 2)) }
    else .ok { lflist := some (-1) }

def nf : RuleMapping := .constant [word "nf", word "nolflist"] fun _ => { lflist := some (-1) }

def oor : RuleMapping :=
  .constant [word "oor", word "oo", word "ocgonly"] fun catalog =>
    { rule := some 0, lflist := some catalog.getFirstOCGIndex }

def or : RuleMapping :=
  .constant [word "or"] fun catalog =>
    { rule := some 5, lflist := some catalog.getFirstOCGIndex }

def tr : RuleMapping :=
  .constant [word "tr"] fun catalog =>
    { rule := some 5, lflist := some catalog.getNewestTCGIndex }

def oomr : RuleMapping :=
  .constant [word "oomr"] fun catalog =>
    { rule := some 0, lflist := some catalog.getFirstOCGIndex, mode := some .MATCH,
      bestOf := some 3 }

def omr : RuleMapping :=
  .constant [word "omr"] fun catalog =>
    { rule := some 5, lflist := some catalog.getFirstOCGIndex, mode := some .MATCH,
      bestOf := some 3 }

def tomr : RuleMapping :=
  .constant [word "tomr"] fun catalog =>
    { rule := some 1, lflist := some catalog.getNewestTCGIndex, mode := some .MATCH,
      bestOf := some 3 }

def tmr : RuleMapping :=
  .constant [word "tmr"] fun catalog =>
    { rule := some 5, lflist := some catalog.getNewestTCGIndex, mode := some .MATCH,
      bestOf := some 3 }

end PriorityRule

open PriorityRule in
def priorityRuleMappings : RuleMappings :=
  [bo, lp, tm, mr, ot, otto, toot, ns, tcgsegoc, goat2005, nc, dr, st, «to», lf, nf, oor, or, tr,
    oomr, omr, tomr, tmr]

/-! ## The format tier -/

namespace FormatRule

def edisonRuleSet (catalog : YGOProBanListCatalog) : PartialHostInfo :=
  { rule := some 5, lflist := some (resolveAliasIndex catalog "edison"), duelRule := some 1,
    timeLimit := some 450 }

def goatRuleSet (catalog : YGOProBanListCatalog) : PartialHostInfo :=
  { rule := some 5, lflist := some (resolveAliasIndex catalog "goat"), duelRule := some 1,
    goat2005 := some 1, timeLimit := some 450 }

def goat : RuleMapping := .constant [word "goat"] goatRuleSet
def gt : RuleMapping := .constant [word "gt"] goatRuleSet
def edison : RuleMapping := .constant [word "edison"] edisonRuleSet
def ed : RuleMapping := .constant [word "ed"] edisonRuleSet

def edm : RuleMapping :=
  .constant [word "edm"] fun catalog =>
    { edisonRuleSet catalog with mode := some .MATCH, bestOf := some 3 }

def tengu : RuleMapping :=
  .constant [word "tengu"] fun catalog =>
    { rule := some 5, lflist := some (resolveAliasIndex catalog "tengu"), duelRule := some (2 : ℕ),
      timeLimit := some 450 }

def md : RuleMapping :=
  .constant [word "md"] fun catalog =>
    { rule := some 5, lflist := some (resolveAliasIndex catalog "md"), duelRule := some 5,
      timeLimit := some 450 }

def jtp : RuleMapping :=
  .constant [word "jtp"] fun catalog =>
    { rule := some 5, lflist := some (resolveAliasIndex catalog "jtp"), duelRule := some 1 }

def jtp200703 : RuleMapping :=
  .constant [word "jtp-2007-03"] fun catalog =>
    { rule := some 5, lflist := some (resolveAliasIndex catalog "adv2007-03"),
      duelRule := some 1 }

def jm : RuleMapping :=
  .constant [word "jm"] fun catalog =>
    { rule := some 5, lflist := some (resolveAliasIndex catalog "jtp"), duelRule := some 1,
      mode := some .MATCH, bestOf := some 3 }

/-- The one rule that needs its ban list loaded. -/
def genesys : RuleMapping where
  patterns := [word "genesys", word "g", numbered "g", numbered "genesys"]
  get catalog value :=
    let maxDeckPoints := (extractNumberFromCommand value).getD 100
    let genesysIndex := catalog.findIndexByAlias (units "genesys")
    if genesysIndex = -1 then .error "Genesys ban list is not loaded"
    else .ok { rule := some 1, lflist := some genesysIndex, duelRule := some 5,
               maxDeckPoints := some maxDeckPoints, timeLimit := some 450 }

def rush : RuleMapping :=
  .constant [word "rush"] fun catalog =>
    let index := catalog.findIndexByAlias (units "rush")
    { rule := some 5, lflist := some (if index ≠ -1 then index else 2), duelRule := some 5,
      startHand := some 4 }

def rushpre : RuleMapping :=
  .constant [word "rushpre"] fun catalog =>
    let index := catalog.findIndexByAlias (units "rush")
    { rule := some 5, lflist := some (if index ≠ -1 then index else 2), duelRule := some 4 }

def world : RuleMapping :=
  .constant [word "world"] fun catalog =>
    let index := catalog.findIndexByAlias (units "world")
    { rule := some 5, lflist := some (if index ≠ -1 then index else 5), duelRule := some 4 }

def pre : RuleMapping :=
  .constant [word "pre"] fun _ =>
    { rule := some 5, duelRule := some 5, timeLimit := some 450 }

def ocg : RuleMapping :=
  .constant [word "ocg"] fun catalog =>
    { rule := some 0, lflist := some catalog.getFirstOCGIndex, timeLimit := some 450 }

def tcgpre : RuleMapping :=
  .constant [word "tcgpre"] fun _ =>
    { rule := some 1, duelRule := some 5, timeLimit := some 450 }

def ocgpre : RuleMapping :=
  .constant [word "ocgpre"] fun catalog =>
    { rule := some 0, duelRule := some 5, lflist := some catalog.getFirstOCGIndex,
      timeLimit := some 450 }

def tcgart : RuleMapping :=
  .constant [word "tcgart"] fun _ =>
    { rule := some 1, duelRule := some 5, timeLimit := some 450 }

def ocgart : RuleMapping :=
  .constant [word "ocgart"] fun catalog =>
    { rule := some 0, duelRule := some 5, lflist := some catalog.getFirstOCGIndex,
      timeLimit := some 450 }

end FormatRule

open FormatRule in
def formatRuleMappings : RuleMappings :=
  [goat, gt, edison, ed, edm, tengu, md, jtp, jtp200703, jm, genesys, rush, rushpre, world, pre,
    ocg, tcgpre, ocgpre, tcgart, ocgart]

/-- The tiers in the order they are applied in. -/
def RULE_MAPPING_TIERS : List RuleMappings :=
  [ruleMappings, formatRuleMappings, priorityRuleMappings]

/-! ## No option matches two rules of a tier -/

def allDisjoint (tier : RuleMappings) : Prop :=
  tier.Pairwise (fun a b => allApart tokenAlphabet a.patterns b.patterns = true)

theorem tier_disjoint {tier : RuleMappings} (h : tier ∈ RULE_MAPPING_TIERS) :
    allDisjoint tier := by
  have hall : ∀ tier ∈ RULE_MAPPING_TIERS, (tier.map RuleMapping.patterns).Pairwise
      (fun a b => allApart tokenAlphabet a b = true) := by
    decide +kernel
  exact List.pairwise_map.mp (hall tier h)

/-! ## What the settings of a rule are -/

structure PartialHostInfo.InRange (rule : PartialHostInfo) : Prop where
  startLp : ∀ lp, rule.startLp = some lp → 1 ≤ lp ∧ lp ≤ 99999
  drawCount : ∀ count, rule.drawCount = some count → 1 ≤ count ∧ count ≤ 35
  startHand : ∀ count, rule.startHand = some count → 1 ≤ count ∧ count ≤ 40
  duelRule : ∀ duelRule, rule.duelRule = some duelRule → 1 ≤ duelRule ∧ duelRule ≤ 5
  timeLimit : ∀ time, rule.timeLimit = some time → time ≤ 3600
  mode : rule.bestOf ≠ none → rule.mode ≠ none
  tag : rule.mode = some .TAG → rule.bestOf = some 1

structure HostInfo.InRange (info : HostInfo) : Prop where
  startLp : 1 ≤ info.startLp ∧ info.startLp ≤ 99999
  drawCount : 1 ≤ info.drawCount ∧ info.drawCount ≤ 35
  startHand : 1 ≤ info.startHand ∧ info.startHand ≤ 40
  duelRule : 1 ≤ info.duelRule ∧ info.duelRule ≤ 5
  timeLimit : info.timeLimit ≤ 3600
  tag : info.mode = .TAG → info.bestOf = 1

theorem getD_of_forall {α : Type} {P : α → Prop} {setting : Option α} {default : α}
    (hsetting : ∀ value, setting = some value → P value) (hdefault : P default) :
    P (setting.getD default) := by
  cases setting with
  | none => exact hdefault
  | some value => exact hsetting value rfl

theorem HostInfo.InRange.spread {info : HostInfo} {rule : PartialHostInfo} (h : info.InRange)
    (hrule : rule.InRange) : (info.spread rule).InRange where
  startLp := getD_of_forall hrule.startLp h.startLp
  drawCount := getD_of_forall hrule.drawCount h.drawCount
  startHand := getD_of_forall hrule.startHand h.startHand
  duelRule := getD_of_forall hrule.duelRule h.duelRule
  timeLimit := getD_of_forall hrule.timeLimit h.timeLimit
  tag := by
    intro htag
    cases hmode : rule.mode with
    | none =>
      -- such a rule leaves the number of games alone
      have hbest : rule.bestOf = none := by
        by_contra hbest
        exact hrule.mode hbest hmode
      simp only [HostInfo.spread, hmode, hbest, Option.getD_none] at htag ⊢
      exact h.tag htag
    | some mode =>
      simp only [HostInfo.spread, hmode, Option.getD_some] at htag ⊢
      rw [hrule.tag (by rw [hmode, htag]), Option.getD_some]

def RuleMapping.InRange (mapping : RuleMapping) : Prop :=
  ∀ catalog value rule, mapping.get catalog value = .ok rule → rule.InRange

theorem constant_inRange {patterns : List (Pattern UInt16)}
    {rule : YGOProBanListCatalog → PartialHostInfo} (h : ∀ catalog, (rule catalog).InRange) :
    (RuleMapping.constant patterns rule).InRange := by
  intro catalog value result hget
  cases hget
  exact h catalog

theorem ofNumber_inRange {patterns : List (Pattern UInt16)} {rule : Option ℕ∞ → PartialHostInfo}
    (h : ∀ number, (rule number).InRange) : (RuleMapping.ofNumber patterns rule).InRange := by
  intro catalog value result hget
  cases hget
  exact h _

theorem modeRules_inRange : ∀ mapping ∈ ruleMappings, mapping.InRange := by
  simp only [ruleMappings, List.forall_mem_cons]
  constructorm* _ ∧ _
  · exact constant_inRange fun _ => by constructor <;> simp [Nat.ofNat_le]
  · exact constant_inRange fun _ => by constructor <;> simp [Nat.ofNat_le]
  · simp

theorem genesys_inRange : FormatRule.genesys.InRange := by
  intro catalog value rule hget
  simp only [FormatRule.genesys] at hget
  split at hget
  · cases hget
  · cases hget
    constructor <;> simp [Nat.ofNat_le]

theorem formatRules_inRange : ∀ mapping ∈ formatRuleMappings, mapping.InRange := by
  simp only [formatRuleMappings, List.forall_mem_cons]
  constructorm* _ ∧ _
  case right.right.right.right.right.right.right.right.right.right.left => exact genesys_inRange
  all_goals first
    | exact constant_inRange fun _ => by
        constructor <;> simp [Nat.ofNat_le, FormatRule.goatRuleSet, FormatRule.edisonRuleSet]
    | simp

theorem le_of_not_ge {n bound : ℕ∞} (h : ¬ bound ≤ n) : n ≤ bound := le_of_lt (not_le.mp h)

theorem one_le_of_not_le_zero {n : ℕ∞} (h : ¬ n ≤ 0) : 1 ≤ n :=
  Order.one_le_iff_pos.mpr (not_le.mp h)

theorem bo_inRange : PriorityRule.bo.InRange :=
  ofNumber_inRange fun _ => by constructor <;> simp

theorem lp_inRange : PriorityRule.lp.InRange := by
  refine ofNumber_inRange fun number => ?_
  cases number with
  | none => constructor <;> simp [Nat.ofNat_le]
  | some lps =>
    dsimp only
    split_ifs with hlow hhigh
    · constructor <;> simp
    · constructor <;> simp
    · constructor <;> simp [one_le_of_not_le_zero hlow, le_of_not_ge hhigh]

theorem tm_inRange : PriorityRule.tm.InRange := by
  refine ofNumber_inRange fun number => ?_
  cases number with
  | none => constructor <;> simp [Nat.ofNat_le]
  | some time =>
    dsimp only
    split_ifs with hminutes hhigh
    · have hbound : time * 60 ≤ 3600 := by
        calc time * 60 ≤ 60 * 60 := mul_le_mul_left hminutes.2 60
          _ = 3600 := by norm_num
      constructor <;> simp [hbound]
    · constructor <;> simp [Nat.ofNat_le]
    · have hbound : time ≤ 3600 := le_trans (le_of_not_ge hhigh) (by norm_num)
      constructor <;> simp [hbound]

theorem mr_inRange : PriorityRule.mr.InRange := by
  refine ofNumber_inRange fun number => ?_
  cases number with
  | none => constructor <;> simp
  | some duelRule =>
    dsimp only
    split_ifs with hrange
    · constructor <;> simp [Order.one_le_iff_pos, hrange.1, hrange.2]
    · constructor <;> simp

theorem capCount_range {cap fallback : ℕ∞} (hfallback : 1 ≤ fallback) (hcap : fallback ≤ cap)
    (number : Option ℕ∞) :
    1 ≤ PriorityRule.capCount cap fallback number ∧
      PriorityRule.capCount cap fallback number ≤ cap := by
  cases number with
  | none => exact ⟨hfallback, hcap⟩
  | some count =>
    rw [PriorityRule.capCount]
    split_ifs with hhigh hlow
    · exact ⟨le_trans hfallback hcap, le_refl cap⟩
    · exact ⟨hfallback, hcap⟩
    · exact ⟨one_le_of_not_le_zero hlow, not_lt.mp hhigh⟩

theorem dr_inRange : PriorityRule.dr.InRange := by
  refine ofNumber_inRange fun number => ?_
  have hrange := capCount_range (le_refl 1) (by simp : (1 : ℕ∞) ≤ 35) number
  constructor <;> simp [hrange]

theorem st_inRange : PriorityRule.st.InRange := by
  refine ofNumber_inRange fun number => ?_
  have hrange := capCount_range (by simp : (1 : ℕ∞) ≤ 5) (by simp [Nat.ofNat_le] : (5 : ℕ∞) ≤ 40)
    number
  constructor <;> simp [hrange]

theorem lf_inRange : PriorityRule.lf.InRange := by
  intro catalog value rule hget
  simp only [PriorityRule.lf] at hget
  split at hget
  · cases hget
    constructor <;> simp
  · cases hget
    constructor <;> simp

theorem priorityRules_inRange : ∀ mapping ∈ priorityRuleMappings, mapping.InRange := by
  simp only [priorityRuleMappings, List.forall_mem_cons]
  refine ⟨bo_inRange, lp_inRange, tm_inRange, mr_inRange, ?_⟩
  constructorm* _ ∧ _
  all_goals first
    | exact dr_inRange
    | exact st_inRange
    | exact lf_inRange
    | exact constant_inRange fun _ => by constructor <;> simp
    | simp

end EdoproServer.Room
