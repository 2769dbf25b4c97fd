import EdoproServer.Lib.Effect
import EdoproServer.Room.JoinRouting
import EdoproServer.Room.RuleMappings

namespace EdoproServer.Room
open Lib TokenPatterns
open Utf16 (unit units)

/-! ## A room from a command -/

def PARAM_MATCH : String := "Error: param match with two rules."

def DEFAULT_POOL : String := "standard"
def EXTENDED_POOL : String := "extended"
def RUSH_POOL : String := "rush"

def formatCardPools : List (Utf16 × String) :=
  [(units "pre", EXTENDED_POOL), (units "tcgpre", EXTENDED_POOL), (units "ocgpre", EXTENDED_POOL),
    (units "tcgart", EXTENDED_POOL), (units "ocgart", EXTENDED_POOL),
    (units "rushpre", EXTENDED_POOL), (units "rush", RUSH_POOL)]

/-- A room as it is created, without what it was handed over for its later work. -/
structure CreatedRoom where
  id : Nat
  hostInfo : HostInfo
  name : Utf16
  password : Utf16
  team0 : Nat
  team1 : Nat
  league : RoomLeague
  createdBySocketId : Nat
  bestOf : ℕ∞
  startLp : ℕ∞
  banListHash : UInt32
  cardPool : String

/-- Who creates a room. -/
structure RoomCreator where
  createdBySocketId : Nat
  hasPin : Bool
  rankedOverride : Option Bool

namespace CreatedRoom

variable (toLowerCase : Utf16 → Utf16) (catalog : YGOProBanListCatalog)

def configuration (command : Utf16) : Utf16 := (command.splitOn (unit '#')).headD []

def passwordOf (command : Utf16) : Utf16 := (command.splitOn (unit '#')).getD 1 []

def options (command : Utf16) : List Utf16 :=
  ((toLowerCase (configuration command)).splitOn (unit ',')).map Utf16.trim

/-- The pool of the first option that has one. -/
def resolveCardPool (options : List Utf16) : String :=
  (options.findSome? fun option => formatCardPools.lookup (toLowerCase option)).getD DEFAULT_POOL

def defaultHostInfo : HostInfo where
  lflist := catalog.getNewestTCGIndex
  rule := 1
  mode := .SINGLE
  duelRule := (5 : ℕ)
  noCheckDeck := 0
  noShuffleDeck := 0
  startLp := (8000 : ℕ)
  startHand := (5 : ℕ)
  drawCount := (1 : ℕ)
  timeLimit := (450 : ℕ)
  maxDeckPoints := (100 : ℕ)
  bestOf := (1 : ℕ)
  tcgSegocNonpublic := 0
  goat2005 := 0

def applyOption (tier : RuleMappings) (hostInfo : HostInfo) (option : Utf16) :
    Except String HostInfo :=
  match tier.filter (fun item => item.validate option) with
  | [] => .ok hostInfo
  | [mapping] => (mapping.get catalog option).map hostInfo.spread
  | _ => .error PARAM_MATCH

def applyTier (options : List Utf16) (hostInfo : HostInfo) (tier : RuleMappings) :
    Except String HostInfo :=
  options.foldlM (applyOption catalog tier) hostInfo

def create (creator : RoomCreator) (id : Nat) (command : Utf16) : Except String CreatedRoom := do
  let options := options toLowerCase command
  let hostInfo ← RULE_MAPPING_TIERS.foldlM (applyTier catalog options) (defaultHostInfo catalog)
  let teamCount := if hostInfo.mode = .TAG then 2 else 1
  let casual : Bool := units "casual" ∈ options
  return { id := id
           hostInfo := hostInfo
           name := configuration command
           password := passwordOf command
           team0 := teamCount
           team1 := teamCount
           league := .determine casual creator.rankedOverride creator.hasPin
           createdBySocketId := creator.createdBySocketId
           bestOf := hostInfo.bestOf
           startLp := hostInfo.startLp
           banListHash := (catalog.hashOf hostInfo.lflist).getD 0
           cardPool := resolveCardPool toLowerCase options }

/-! ## The step of one option -/

variable {catalog} {tier : RuleMappings} {hostInfo : HostInfo} {option : Utf16}

/-- No option matches two rules, so it applies one rule or none. -/
theorem applyOption_cases (catalog : YGOProBanListCatalog) (hostInfo : HostInfo)
    (option : Utf16) (htier : tier ∈ RULE_MAPPING_TIERS) :
    applyOption catalog tier hostInfo option = .ok hostInfo ∧
        (∀ mapping ∈ tier, mapping.validate option = false) ∨
      ∃ mapping ∈ tier, mapping.validate option = true ∧
        applyOption catalog tier hostInfo option =
          (mapping.get catalog option).map hostInfo.spread := by
  rcases matching_cases RuleMapping.patterns option (tier_disjoint htier) with
    hnone | ⟨mapping, hmem, hvalidate, hone⟩
  · refine Or.inl ⟨?_, ?_⟩
    · unfold applyOption RuleMapping.validate
      rw [hnone]
    · intro mapping hmem
      exact Bool.eq_false_iff.mpr (List.filter_eq_nil_iff.mp hnone mapping hmem)
  · refine Or.inr ⟨mapping, hmem, hvalidate, ?_⟩
    unfold applyOption RuleMapping.validate
    rw [hone]

/-! ## Odd numbers of games -/

def OddGames (games : ℕ∞) : Prop := ∃ n : ℕ, games = n ∧ n % 2 = 1

theorem oddGames_coe {n : ℕ} : OddGames n ↔ n % 2 = 1 := by
  refine ⟨?_, fun h => ⟨n, rfl, h⟩⟩
  rintro ⟨games, heq, hodd⟩
  rw [Nat.cast_inj] at heq
  rwa [heq]

theorem not_oddGames_top : ¬ OddGames ⊤ := by
  rintro ⟨n, htop, -⟩
  exact ENat.top_ne_natCast n htop

theorem toDouble_of_some {m n : Nat} (h : Double.ofNat m = some n) : toDouble m = n := by
  unfold toDouble
  rw [h]

theorem toDouble_of_none {m : Nat} (h : Double.ofNat m = none) : toDouble m = ⊤ := by
  unfold toDouble
  rw [h]

theorem toDouble_exact {m : Nat} (h : m < 2 ^ 53) : toDouble m = m :=
  toDouble_of_some (Double.ofNat_exact h)

/-- From 2^53 on no double is odd. -/
theorem not_oddGames_toDouble {m : Nat} (h : 2 ^ 53 ≤ m) : ¬ OddGames (toDouble m) := by
  cases hdouble : Double.ofNat m with
  | none =>
    rw [toDouble_of_none hdouble]
    exact not_oddGames_top
  | some n =>
    have heven := Double.ofNat_even h hdouble
    rw [toDouble_of_some hdouble, oddGames_coe]
    omega

/-- The next odd number exists as long as it is exact. -/
theorem bestOf_odd_of_lt {m : Nat} (h : m < 2 ^ 53) :
    OddGames (PriorityRule.bestOf (some (toDouble m))) := by
  rw [toDouble_exact h]
  change OddGames (if m < 1 then 3 else if m % 2 = 0 then toDouble (m + 1) else m)
  split_ifs with hsmall heven
  · exact ⟨3, rfl, rfl⟩
  · rw [toDouble_exact (by omega), oddGames_coe]
    omega
  · rw [oddGames_coe]
    omega

theorem bestOf_not_odd {m : Nat} (h : 2 ^ 53 ≤ m) :
    ¬ OddGames (PriorityRule.bestOf (some (toDouble m))) := by
  cases hdouble : Double.ofNat m with
  | none =>
    rw [toDouble_of_none hdouble]
    exact not_oddGames_top
  | some n =>
    obtain ⟨heven, hlarge⟩ := Double.ofNat_even h hdouble
    rw [toDouble_of_some hdouble]
    change ¬ OddGames (if n < 1 then 3 else if n % 2 = 0 then toDouble (n + 1) else n)
    rw [if_neg (by omega), if_pos heven]
    exact not_oddGames_toDouble (by omega)

/-- The number of a best-of option is odd when it is below 2^53, and only then. -/
theorem bestOf_odd_iff {option : Utf16} :
    OddGames (PriorityRule.bestOf (extractNumberFromCommand option)) ↔
      digitsValue (firstDigits option) < 2 ^ 53 := by
  by_cases hdigits : firstDigits option = []
  · have hnumber : extractNumberFromCommand option = none := if_pos hdigits
    rw [hnumber, hdigits]
    exact ⟨fun _ => by decide, fun _ => ⟨3, rfl, rfl⟩⟩
  · have hnumber : extractNumberFromCommand option =
        some (toDouble (digitsValue (firstDigits option))) := if_neg hdigits
    rw [hnumber]
    refine ⟨fun hodd => ?_, bestOf_odd_of_lt⟩
    by_contra hlarge
    exact bestOf_not_odd (Nat.le_of_not_lt hlarge) hodd

/-! ## What the rules do to the number of games -/

def Total (mapping : RuleMapping) : Prop :=
  ∀ catalog value, ∃ rule, mapping.get catalog value = .ok rule

def KeepsGames (mapping : RuleMapping) : Prop :=
  ∀ catalog value rule, mapping.get catalog value = .ok rule → rule.bestOf = none

def OddGamesOnly (mapping : RuleMapping) : Prop :=
  ∀ catalog value rule, mapping.get catalog value = .ok rule →
    ∀ games, rule.bestOf = some games → OddGames games

theorem constant_total {patterns : List (Pattern UInt16)}
    {rule : YGOProBanListCatalog → PartialHostInfo} : Total (.constant patterns rule) :=
  fun catalog _ => ⟨rule catalog, rfl⟩

theorem ofNumber_total {patterns : List (Pattern UInt16)} {rule : Option ℕ∞ → PartialHostInfo} :
    Total (.ofNumber patterns rule) :=
  fun _ _ => ⟨_, rfl⟩

theorem lf_total : Total PriorityRule.lf := by
  intro catalog value
  simp only [PriorityRule.lf]
  split
  · exact ⟨_, rfl⟩
  · exact ⟨_, rfl⟩

theorem modeRules_total : ∀ mapping ∈ ruleMappings, Total mapping := by
  simp only [ruleMappings, List.forall_mem_cons]
  exact ⟨constant_total, constant_total, by simp⟩

theorem priorityRules_total : ∀ mapping ∈ priorityRuleMappings, Total mapping := by
  simp only [priorityRuleMappings, List.forall_mem_cons]
  constructorm* _ ∧ _
  all_goals first
    | exact constant_total
    | exact ofNumber_total
    | exact lf_total
    | simp

theorem formatRules_total :
    ∀ mapping ∈ formatRuleMappings, mapping = FormatRule.genesys ∨ Total mapping := by
  simp only [formatRuleMappings, List.forall_mem_cons]
  constructorm* _ ∧ _
  all_goals first
    | exact Or.inr constant_total
    | exact Or.inl rfl
    | simp

theorem constant_keeps {patterns : List (Pattern UInt16)}
    {rule : YGOProBanListCatalog → PartialHostInfo} (h : ∀ catalog, (rule catalog).bestOf = none) :
    KeepsGames (.constant patterns rule) := by
  intro catalog value result hget
  cases hget
  exact h catalog

theorem ofNumber_keeps {patterns : List (Pattern UInt16)} {rule : Option ℕ∞ → PartialHostInfo}
    (h : ∀ number, (rule number).bestOf = none) : KeepsGames (.ofNumber patterns rule) := by
  intro catalog value result hget
  cases hget
  exact h _

theorem KeepsGames.oddGamesOnly {mapping : RuleMapping} (h : KeepsGames mapping) :
    OddGamesOnly mapping := by
  intro catalog value rule hget games hgames
  rw [h catalog value rule hget] at hgames
  cases hgames

theorem constant_odd {patterns : List (Pattern UInt16)}
    {rule : YGOProBanListCatalog → PartialHostInfo} (n : ℕ) (hodd : n % 2 = 1)
    (h : ∀ catalog, (rule catalog).bestOf = some (n : ℕ∞)) :
    OddGamesOnly (.constant patterns rule) := by
  intro catalog value result hget games hgames
  cases hget
  rw [h catalog] at hgames
  cases hgames
  exact oddGames_coe.mpr hodd

theorem modeRules_odd : ∀ mapping ∈ ruleMappings, OddGamesOnly mapping := by
  simp only [ruleMappings, List.forall_mem_cons]
  exact ⟨constant_odd 3 rfl fun _ => rfl, constant_odd 1 rfl fun _ => rfl, by simp⟩

theorem genesys_keeps : KeepsGames FormatRule.genesys := by
  intro catalog value rule hget
  simp only [FormatRule.genesys] at hget
  split at hget
  · cases hget
  · cases hget
    rfl

theorem formatRules_odd : ∀ mapping ∈ formatRuleMappings, OddGamesOnly mapping := by
  simp only [formatRuleMappings, List.forall_mem_cons]
  constructorm* _ ∧ _
  all_goals first
    | exact (constant_keeps fun _ => rfl).oddGamesOnly
    | exact constant_odd 3 rfl fun _ => rfl
    | exact genesys_keeps.oddGamesOnly
    | simp

/-! ## The last option that sets the number of games -/

open PriorityRule in
/-- The rules of the last tier that set a number of games. -/
def bestOfRules : RuleMappings := [bo, oomr, omr, tomr, tmr]

def setsBestOf (option : Utf16) : Bool := bestOfRules.any (fun mapping => mapping.validate option)

/-- The last option that sets the number of games does not set it from a number of 2^53 or more. -/
def ExactGames (options : List Utf16) : Prop :=
  ∀ option, (options.filter setsBestOf).getLast? = some option →
    PriorityRule.bo.validate option = true → digitsValue (firstDigits option) < 2 ^ 53

theorem exactGames_nil : ExactGames [] := by
  intro option hlast
  cases hlast

theorem exactGames_of_not_sets {done : List Utf16} (h : setsBestOf option = false) :
    ExactGames (done ++ [option]) ↔ ExactGames done := by
  unfold ExactGames
  rw [List.filter_append, List.filter_singleton, h, cond_false, List.append_nil]

theorem exactGames_of_sets {done : List Utf16} (h : setsBestOf option = true) :
    ExactGames (done ++ [option]) ↔
      (PriorityRule.bo.validate option = true → digitsValue (firstDigits option) < 2 ^ 53) := by
  unfold ExactGames
  rw [List.filter_append, List.filter_singleton, h, cond_true, List.getLast?_concat]
  exact ⟨fun hall => hall option rfl, fun himp other hother => by cases hother; exact himp⟩

theorem lp_keeps : KeepsGames PriorityRule.lp := by
  refine ofNumber_keeps fun number => ?_
  cases number with
  | none => rfl
  | some lps =>
    dsimp only
    split_ifs <;> rfl

theorem tm_keeps : KeepsGames PriorityRule.tm := by
  refine ofNumber_keeps fun number => ?_
  cases number with
  | none => rfl
  | some time =>
    dsimp only
    split_ifs <;> rfl

theorem mr_keeps : KeepsGames PriorityRule.mr := by
  refine ofNumber_keeps fun number => ?_
  cases number with
  | none => rfl
  | some duelRule =>
    dsimp only
    split_ifs <;> rfl

theorem lf_keeps : KeepsGames PriorityRule.lf := by
  intro catalog value rule hget
  simp only [PriorityRule.lf] at hget
  split at hget
  · cases hget
    rfl
  · cases hget
    rfl

theorem priorityRules_keep :
    ∀ mapping ∈ priorityRuleMappings, mapping ∈ bestOfRules ∨ KeepsGames mapping := by
  simp only [priorityRuleMappings, List.forall_mem_cons]
  constructorm* _ ∧ _
  all_goals first
    | exact Or.inr lp_keeps
    | exact Or.inr tm_keeps
    | exact Or.inr mr_keeps
    | exact Or.inr lf_keeps
    | exact Or.inr (constant_keeps fun _ => rfl)
    | exact Or.inr (ofNumber_keeps fun _ => rfl)
    | (left; simp [bestOfRules])
    | simp

/-- A rule that an option matches is the only one of its tier. -/
theorem validate_unique {a b : RuleMapping} (htier : tier ∈ RULE_MAPPING_TIERS) (ha : a ∈ tier)
    (hb : b ∈ tier) (hvalidate : a.validate option = true)
    (hvalidate' : b.validate option = true) : a = b := by
  have hmema : a ∈ tier.filter (fun item => item.validate option) :=
    List.mem_filter.mpr ⟨ha, hvalidate⟩
  have hmemb : b ∈ tier.filter (fun item => item.validate option) :=
    List.mem_filter.mpr ⟨hb, hvalidate'⟩
  unfold RuleMapping.validate at hmema hmemb
  rcases matching_cases RuleMapping.patterns option (tier_disjoint htier) with
    hnone | ⟨mapping, -, -, hone⟩
  · rw [hnone] at hmema
    cases hmema
  · rw [hone, List.mem_singleton] at hmema hmemb
    rw [hmema, hmemb]

theorem bestOfRules_subset : ∀ mapping ∈ bestOfRules, mapping ∈ priorityRuleMappings := by
  simp [bestOfRules, priorityRuleMappings]

theorem priority_mem : priorityRuleMappings ∈ RULE_MAPPING_TIERS := by
  simp [RULE_MAPPING_TIERS]

/-- Such a rule sets an odd number, unless the option itself says one too large. -/
theorem bestOfRules_odd {mapping : RuleMapping} (hmem : mapping ∈ bestOfRules)
    (hvalidate : mapping.validate option = true) {rule : PartialHostInfo}
    (hget : mapping.get catalog option = .ok rule) :
    ∃ games, rule.bestOf = some games ∧ (OddGames games ↔
      (PriorityRule.bo.validate option = true → digitsValue (firstDigits option) < 2 ^ 53)) := by
  by_cases hbo : mapping = PriorityRule.bo
  · subst hbo
    cases hget
    refine ⟨_, rfl, ?_⟩
    rw [bestOf_odd_iff]
    exact ⟨fun h _ => h, fun h => h hvalidate⟩
  · have hthree : rule.bestOf = some 3 := by
      simp only [bestOfRules, List.mem_cons, hbo, false_or, List.not_mem_nil, or_false] at hmem
      rcases hmem with rfl | rfl | rfl | rfl <;> cases hget <;> rfl
    refine ⟨3, hthree, fun _ hvalidate' => ?_, fun _ => oddGames_coe.mpr (rfl : 3 % 2 = 1)⟩
    exact absurd (validate_unique priority_mem (bestOfRules_subset _ hmem)
      (bestOfRules_subset _ List.mem_cons_self) hvalidate hvalidate') hbo

/-- One option of the last tier. -/
theorem priority_step {done : List Utf16}
    (h : hostInfo.InRange ∧ (OddGames hostInfo.bestOf ↔ ExactGames done)) :
    ∃ info, applyOption catalog priorityRuleMappings hostInfo option = .ok info ∧
      info.InRange ∧ (OddGames info.bestOf ↔ ExactGames (done ++ [option])) := by
  rcases applyOption_cases catalog hostInfo option priority_mem with
    ⟨happly, hnone⟩ | ⟨mapping, hmem, hvalidate, happly⟩
  · have hsets : setsBestOf option = false := by
      rw [setsBestOf, List.any_eq_false]
      intro mapping hmem
      rw [hnone mapping (bestOfRules_subset mapping hmem)]
      exact Bool.false_ne_true
    exact ⟨hostInfo, happly, h.1, by rw [exactGames_of_not_sets hsets]; exact h.2⟩
  · obtain ⟨rule, hget⟩ := priorityRules_total mapping hmem catalog option
    rw [hget, Except.map] at happly
    refine ⟨_, happly, h.1.spread (priorityRules_inRange mapping hmem catalog option rule hget), ?_⟩
    by_cases hbest : mapping ∈ bestOfRules
    · obtain ⟨games, hgames, hodd⟩ := bestOfRules_odd hbest hvalidate hget
      have hsets : setsBestOf option = true := List.any_eq_true.mpr ⟨mapping, hbest, hvalidate⟩
      rw [exactGames_of_sets hsets, ← hodd]
      simp only [HostInfo.spread, hgames, Option.getD_some]
    · have hkeeps := ((priorityRules_keep mapping hmem).resolve_left hbest) catalog option rule hget
      have hsets : setsBestOf option = false := by
        rw [setsBestOf, List.any_eq_false]
        intro other hother hvalidate'
        have heq := validate_unique priority_mem hmem (bestOfRules_subset other hother) hvalidate
          hvalidate'
        exact hbest (heq ▸ hother)
      rw [exactGames_of_not_sets hsets, ← h.2]
      simp only [HostInfo.spread, hkeeps, Option.getD_none]

/-- One option of a tier whose rules set odd numbers of games only. -/
theorem plain_step (htier : tier ∈ RULE_MAPPING_TIERS)
    (hrange : ∀ mapping ∈ tier, mapping.InRange) (hodd : ∀ mapping ∈ tier, OddGamesOnly mapping)
    (htotal : ∀ mapping ∈ tier, mapping.validate option = true →
      ∃ rule, mapping.get catalog option = .ok rule)
    (h : hostInfo.InRange ∧ OddGames hostInfo.bestOf) :
    ∃ info, applyOption catalog tier hostInfo option = .ok info ∧
      info.InRange ∧ OddGames info.bestOf := by
  rcases applyOption_cases catalog hostInfo option htier with
    ⟨happly, -⟩ | ⟨mapping, hmem, hvalidate, happly⟩
  · exact ⟨hostInfo, happly, h⟩
  · obtain ⟨rule, hget⟩ := htotal mapping hmem hvalidate
    rw [hget, Except.map] at happly
    exact ⟨_, happly, h.1.spread (hrange mapping hmem catalog option rule hget),
      getD_of_forall (hodd mapping hmem catalog option rule hget) h.2⟩

/-! ## The settings of a created room -/

/-- The ban lists that a format of the options needs are loaded. -/
def ListsLoaded (catalog : YGOProBanListCatalog) (options : List Utf16) : Prop :=
  ∀ option ∈ options, FormatRule.genesys.validate option = true →
    catalog.findIndexByAlias (units "genesys") ≠ -1

theorem format_total {options : List Utf16} (hloaded : ListsLoaded catalog options)
    (hoption : option ∈ options) :
    ∀ mapping ∈ formatRuleMappings, mapping.validate option = true →
      ∃ rule, mapping.get catalog option = .ok rule := by
  intro mapping hmem hvalidate
  rcases formatRules_total mapping hmem with rfl | htotal
  · have hindex := hloaded option hoption hvalidate
    simp only [FormatRule.genesys, if_neg hindex]
    exact ⟨_, rfl⟩
  · exact htotal catalog option

theorem default_inRange (catalog : YGOProBanListCatalog) :
    (defaultHostInfo catalog).InRange := by
  constructor <;> simp [defaultHostInfo, Nat.ofNat_le]

/-- A run over the options with such a tier. -/
theorem plain_tier {options : List Utf16} (htier : tier ∈ RULE_MAPPING_TIERS)
    (hrange : ∀ mapping ∈ tier, mapping.InRange) (hodd : ∀ mapping ∈ tier, OddGamesOnly mapping)
    (htotal : ∀ option ∈ options, ∀ mapping ∈ tier, mapping.validate option = true →
      ∃ rule, mapping.get catalog option = .ok rule)
    (h : hostInfo.InRange ∧ OddGames hostInfo.bestOf) :
    ∃ info, applyTier catalog options hostInfo tier = .ok info ∧
      info.InRange ∧ OddGames info.bestOf := by
  apply foldlM_reaches (P := fun _ info => HostInfo.InRange info ∧ OddGames info.bestOf) _ [] h
  intro before option hoption info hinfo
  exact plain_step htier hrange hodd (htotal option hoption) hinfo

/-- A run over the options with the last tier. -/
theorem priority_tier (catalog : YGOProBanListCatalog) (options : List Utf16)
    (h : hostInfo.InRange ∧ OddGames hostInfo.bestOf) :
    ∃ info, applyTier catalog options hostInfo priorityRuleMappings = .ok info ∧
      info.InRange ∧ (OddGames info.bestOf ↔ ExactGames options) := by
  apply foldlM_reaches (P := fun done info => HostInfo.InRange info ∧
    (OddGames info.bestOf ↔ ExactGames done)) _ []
  · exact ⟨h.1, fun _ => exactGames_nil, fun _ => h.2⟩
  · intro before option _ info hinfo
    exact priority_step hinfo

/-- The tiers one after the other. -/
theorem applyTiers {options : List Utf16} (hloaded : ListsLoaded catalog options) :
    ∃ info, RULE_MAPPING_TIERS.foldlM (applyTier catalog options) (defaultHostInfo catalog) =
      .ok info ∧ info.InRange ∧ (OddGames info.bestOf ↔ ExactGames options) := by
  have hmodeTotal : ∀ option ∈ options, ∀ mapping ∈ ruleMappings,
      mapping.validate option = true → ∃ rule, mapping.get catalog option = .ok rule :=
    fun option _ mapping hmem _ => modeRules_total mapping hmem catalog option
  obtain ⟨first, hfirst, hmode⟩ := plain_tier (by simp [RULE_MAPPING_TIERS]) modeRules_inRange
    modeRules_odd hmodeTotal ⟨default_inRange catalog, 1, rfl, rfl⟩
  obtain ⟨second, hsecond, hformat⟩ := plain_tier (by simp [RULE_MAPPING_TIERS])
    formatRules_inRange formatRules_odd (fun option hoption => format_total hloaded hoption) hmode
  obtain ⟨third, hthird, hpriority⟩ := priority_tier catalog options hformat
  refine ⟨third, ?_, hpriority⟩
  simp only [RULE_MAPPING_TIERS, List.foldlM_cons, List.foldlM_nil, hfirst, hsecond, hthird,
    Bind.bind, Except.bind]
  rfl

/-- A room a match can be played over by the settings. -/
structure Legal (room : CreatedRoom) : Prop where
  inRange : room.hostInfo.InRange
  games : ∃ n : ℕ, room.hostInfo.bestOf = n ∧ n % 2 = 1 ∧ 1 ≤ n ∧
    room.bestOf = n ∧ 2 * (Match.create n).needWins = n + 1

variable (catalog)

/-- What a command creates, once its lists are loaded. -/
theorem create_settings (creator : RoomCreator) (id : Nat) (command : Utf16)
    (hloaded : ListsLoaded catalog (options toLowerCase command)) :
    ∃ room, create toLowerCase catalog creator id command = .ok room ∧
      room.hostInfo.InRange ∧ room.bestOf = room.hostInfo.bestOf ∧
      (OddGames room.hostInfo.bestOf ↔ ExactGames (options toLowerCase command)) := by
  obtain ⟨info, hinfo, hrange, hodd⟩ := applyTiers hloaded
  simp only [create, hinfo, Bind.bind, Except.bind]
  exact ⟨_, rfl, hrange, rfl, hodd⟩

theorem legal_iff {room : CreatedRoom} (hrange : room.hostInfo.InRange)
    (hbest : room.bestOf = room.hostInfo.bestOf) :
    room.Legal ↔ OddGames room.hostInfo.bestOf := by
  constructor
  · intro h
    obtain ⟨n, hn, hodd, -⟩ := h.games
    exact ⟨n, hn, hodd⟩
  · intro hgames
    obtain ⟨n, hn, hodd⟩ := hgames
    refine ⟨hrange, n, hn, hodd, by omega, by rw [hbest, hn], ?_⟩
    simp only [Match.needWins, Match.create]
    omega

/-- Every command whose ban lists are loaded creates a room with legal settings, unless its last
option for the number of games asks for 2^53 or more. -/
theorem create_legal_iff (creator : RoomCreator) (id : Nat) (command : Utf16)
    (hloaded : ListsLoaded catalog (options toLowerCase command)) :
    (∃ room, create toLowerCase catalog creator id command = .ok room ∧ room.Legal) ↔
      ExactGames (options toLowerCase command) := by
  obtain ⟨room, hroom, hrange, hbest, hodd⟩ :=
    create_settings toLowerCase catalog creator id command hloaded
  rw [← hodd, ← legal_iff hrange hbest]
  constructor
  · intro h
    obtain ⟨other, hother, hlegal⟩ := h
    rw [hroom] at hother
    cases hother
    exact hlegal
  · intro h
    exact ⟨room, hroom, h⟩

/-- A catalog of one list, which every alias finds. -/
def oneList : YGOProBanListCatalog where
  findIndexByAlias _ := 0
  getNewestTCGIndex := 0
  getFirstOCGIndex := 0
  hashOf index := if index = 0 then some 1 else none

theorem oneList_loaded (options : List Utf16) : ListsLoaded oneList options := by
  intro option _ _
  decide

/-- The lower case of a text of plain letters. -/
def lowerLetters (text : Utf16) : Utf16 := text.map tokenAlphabet.fold

theorem create_legal_iff_tag : ListsLoaded oneList (options lowerLetters (units "T,lp9#pw")) ∧
    ∃ room, create lowerLetters oneList ⟨1, false, none⟩ 7 (units "T,lp9#pw") = .ok room ∧
      room.Legal :=
  ⟨oneList_loaded _, (create_legal_iff lowerLetters oneList ⟨1, false, none⟩ 7 _
    (oneList_loaded _)).mpr (by
      intro option hlast
      have hnone : (options lowerLetters (units "T,lp9#pw")).filter setsBestOf = [] := by
        decide +kernel
      rw [hnone] at hlast
      cases hlast)⟩

/-- Past 2^53 the next number is no odd one. -/
theorem evenGames_created : ListsLoaded oneList
      (options lowerLetters (units "bo9007199254740992")) ∧
    ¬ ∃ room, create lowerLetters oneList ⟨1, false, none⟩ 7 (units "bo9007199254740992") =
      .ok room ∧ room.Legal := by
  refine ⟨oneList_loaded _, fun h => ?_⟩
  obtain ⟨room, hroom, hrange, hbest, hodd⟩ := create_settings lowerLetters oneList
    ⟨1, false, none⟩ 7 (units "bo9007199254740992") (oneList_loaded _)
  obtain ⟨other, hother, hlegal⟩ := h
  rw [hroom] at hother
  cases hother
  have hexact := hodd.mp ((legal_iff hrange hbest).mp hlegal)
  have hlast : ((options lowerLetters (units "bo9007199254740992")).filter setsBestOf).getLast? =
      some (units "bo9007199254740992") := by
    decide +kernel
  have hlt := hexact _ hlast (by decide +kernel)
  exact absurd hlt (by decide +kernel)

end CreatedRoom

end EdoproServer.Room
