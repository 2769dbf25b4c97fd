import EdoproServer.Stats.Backfill

namespace EdoproServer.Stats
open Lib

structure PlayerStatsSnapshotRow where
  userId : UserId
  rankId : String
  rankName : RankName
  season : Int
  stats : Tally
  deriving DecidableEq, Repr

structure AchievementPointsRow where
  userId : UserId
  rankName : RankName
  season : Int
  points : Int
  deriving DecidableEq, Repr

structure UnmappedAchievementLabel where
  label : String
  occurrences : Nat
  deriving DecidableEq, Repr

structure ReconciliationKey where
  userId : UserId
  rankName : RankName
  season : Int
  deriving DecidableEq, Repr

structure ReconciliationMismatch where
  key : ReconciliationKey
  ledger : Tally
  achievementPoints : Int
  stats : Tally
  delta : Tally
  deriving DecidableEq, Repr

structure PreFlaggedGames where
  count : Nat
  gameIds : List String
  deriving DecidableEq, Repr

structure ReconciliationReport where
  mismatches : List ReconciliationMismatch
  differingKeys : Nat
  preFlaggedGames : PreFlaggedGames
  unmappedBanLists : List UnmappedBanList
  unmappedAchievementLabels : List UnmappedAchievementLabel
  incompleteGames : List String
  orphanStatsCount : Nat
  skippedMissingUsers : SkippedMissingUsers
  orphanStatsOfMissingUsers : Nat
  clean : Bool
  deriving DecidableEq, Repr

structure ReconciliationInput where
  planResult : PlanLedgerBackfillResult
  gameIds : List String
  playerStats : List PlayerStatsSnapshotRow
  achievementPoints : List AchievementPointsRow
  unmappedAchievementLabels : List UnmappedAchievementLabel

/-- The ledger rows of one key, added up. -/
structure LedgerAggregate where
  key : ReconciliationKey
  tally : Tally

/-! ## Keys -/

/-- The text that stands for a key in the maps of the report. -/
def keyOf (key : ReconciliationKey) : String :=
  key.userId ++ "|" ++ key.rankName ++ "|" ++ toString key.season

def byKeyOrder (localeCompare : String → String → Ordering) (a b : ReconciliationKey) : Ordering :=
  ((localeCompare a.userId b.userId).then (localeCompare a.rankName b.rankName)).then
    (compare a.season b.season)

def PlayerStatsSnapshotRow.key (row : PlayerStatsSnapshotRow) : ReconciliationKey where
  userId := row.userId
  rankName := row.rankName
  season := row.season

def AchievementPointsRow.key (row : AchievementPointsRow) : ReconciliationKey where
  userId := row.userId
  rankName := row.rankName
  season := row.season

/-- The names of the planned ranks; a rank without a summary goes by its id. -/
def rankNameById (planResult : PlanLedgerBackfillResult) : InsertionMap String RankName :=
  .ofList (planResult.rankSummaries.map (fun summary => (summary.rankId, summary.rankName)))

def PointsLedgerEntry.reconciliationKey (planResult : PlanLedgerBackfillResult)
    (entry : PointsLedgerEntry) : ReconciliationKey where
  userId := entry.userId
  rankName := ((rankNameById planResult).get entry.rankId).getD entry.rankId
  season := entry.season

/-! ## The report -/

def aggregateAchievementPoints (rows : List AchievementPointsRow) : InsertionMap String Int :=
  .gather (fun row => keyOf row.key) (fun _ => 0) (fun points row => points + row.points) rows

def aggregateLedgerEntries (planResult : PlanLedgerBackfillResult) :
    InsertionMap String LedgerAggregate :=
  .gather (fun entry => keyOf (entry.reconciliationKey planResult))
    (fun entry => { key := entry.reconciliationKey planResult, tally := .zero })
    (fun acc entry => { acc with tally := acc.tally.add entry.delta }) planResult.entries

def toMismatch (key : ReconciliationKey) (ledger : Option LedgerAggregate)
    (stats : Option PlayerStatsSnapshotRow) (achievementPoints : Int) : ReconciliationMismatch :=
  let ledgerTally := (ledger.map LedgerAggregate.tally).getD .zero
  let statsTally := (stats.map PlayerStatsSnapshotRow.stats).getD .zero
  { key := key
    ledger := ledgerTally
    achievementPoints := achievementPoints
    stats := statsTally
    delta :=
      { points := statsTally.points - (ledgerTally.points + achievementPoints)
        wins := statsTally.wins - ledgerTally.wins
        losses := statsTally.losses - ledgerTally.losses } }

def isReconciled (mismatch : ReconciliationMismatch) : Bool :=
  mismatch.delta.wins = 0 && mismatch.delta.losses = 0 && mismatch.delta.points = 0

namespace ReconciliationInput

variable (input : ReconciliationInput)

/-- Users of stored rows whose accounts are gone. -/
def missing (userId : UserId) : Bool := userId ∈ input.planResult.skippedMissingUsers.users

def knownStats : List PlayerStatsSnapshotRow :=
  input.playerStats.filter (fun row => !input.missing row.userId)

def statsByKey : InsertionMap String PlayerStatsSnapshotRow :=
  .ofList (input.knownStats.map (fun row => (keyOf row.key, row)))

/-- The keys of the ledger and those of the statistics. -/
def allKeys : List String :=
  ((aggregateLedgerEntries input.planResult).keys ++ input.statsByKey.keys).eraseDups

/-- What one text is compared as; it is a key of the ledger or of the statistics. -/
def mismatchAt (text : String) : Option ReconciliationMismatch :=
  let ledger := (aggregateLedgerEntries input.planResult).get text
  let stats := input.statsByKey.get text
  ((ledger.map LedgerAggregate.key).or (stats.map PlayerStatsSnapshotRow.key)).map (fun key =>
    toMismatch key ledger stats
      (((aggregateAchievementPoints input.achievementPoints).get text).getD 0))

end ReconciliationInput

def buildReconciliationReport (localeCompare : String → String → Ordering)
    (input : ReconciliationInput) : ReconciliationReport :=
  let ledgerByKey := aggregateLedgerEntries input.planResult
  let mismatches :=
    sortBy (fun a b => byKeyOrder localeCompare a.key b.key)
      (input.allKeys.filterMap input.mismatchAt)
  let ledgerGameIds := input.planResult.entries.map PointsLedgerEntry.gameId
  let skippedGameIds := input.planResult.skippedMissingUsers.gameIds
  let incompleteGames :=
    sortTexts (input.gameIds.filter (fun gameId =>
      gameId ∉ ledgerGameIds && gameId ∉ skippedGameIds))
  let differingKeys := (mismatches.filter (fun mismatch => !isReconciled mismatch)).length
  { mismatches := mismatches
    differingKeys := differingKeys
    preFlaggedGames :=
      { count := input.planResult.preFlaggedGameIds.length
        gameIds := sortTexts input.planResult.preFlaggedGameIds }
    unmappedBanLists := input.planResult.unmappedBanLists
    unmappedAchievementLabels := input.unmappedAchievementLabels
    incompleteGames := incompleteGames
    orphanStatsCount := (input.statsByKey.keys.filter (fun key => !ledgerByKey.has key)).length
    skippedMissingUsers := input.planResult.skippedMissingUsers
    orphanStatsOfMissingUsers :=
      (input.playerStats.filter (fun row => input.missing row.userId)).length
    clean :=
      differingKeys = 0 && input.planResult.unmappedBanLists.isEmpty &&
        input.unmappedAchievementLabels.isEmpty && incompleteGames.isEmpty }

/-! ## What the report stands for -/

namespace ReconciliationInput

variable (input : ReconciliationInput)

/-- The ledger rows whose keys satisfy `p`, added up. -/
def ledgerOver (p : ReconciliationKey → Bool) : Tally :=
  Tally.sum ((input.planResult.entries.filter (fun entry =>
    p (entry.reconciliationKey input.planResult))).map PointsLedgerEntry.delta)

def achievementsOver (p : ReconciliationKey → Bool) : Int :=
  ((input.achievementPoints.filter (fun row => p row.key)).map AchievementPointsRow.points).sum

/-- What the statistics should hold: the ledger, and the points of achievements. -/
def dueOver (p : ReconciliationKey → Bool) : Tally :=
  { input.ledgerOver p with points := (input.ledgerOver p).points + input.achievementsOver p }

/-- The statistics stored for a key: every row of it, all zero without one. -/
def storedAt (key : ReconciliationKey) : List Tally :=
  match (input.knownStats.filter (fun row => row.key = key)).map PlayerStatsSnapshotRow.stats with
  | [] => [.zero]
  | stored => stored

/-- The key occurs in the ledger, in the statistics or in the achievements. -/
def Occurs (key : ReconciliationKey) : Prop :=
  (∃ entry ∈ input.planResult.entries, entry.reconciliationKey input.planResult = key) ∨
    (∃ row ∈ input.playerStats, row.key = key) ∨
      ∃ row ∈ input.achievementPoints, row.key = key

def ReconciledAt (key : ReconciliationKey) : Prop :=
  ∀ stats ∈ input.storedAt key, stats = input.dueOver (fun other => other = key)

/-- Every user, rank and season of a known user agrees. -/
def Sound : Prop :=
  ∀ key, input.missing key.userId = false → input.Occurs key → input.ReconciledAt key

end ReconciliationInput

/-! ## Sums -/

namespace Tally

theorem add_assoc (x y z : Tally) : (x.add y).add z = x.add (y.add z) := by
  simp [add, Int.add_assoc]

theorem add_comm (x y : Tally) : x.add y = y.add x := by
  simp [add, Int.add_comm]

theorem add_right_cancel_iff {x y z : Tally} : x.add z = y.add z ↔ x = y := by
  simp [add, Tally.ext_iff]

theorem foldl_add (x : Tally) (xs : List Tally) : xs.foldl add x = x.add (sum xs) := by
  induction xs using List.reverseRecOn with
  | nil => simp [sum, add, zero]
  | append_singleton xs y ih =>
    rw [List.foldl_append, ih, sum_append_singleton]
    exact add_assoc x (sum xs) y

theorem sum_append (xs ys : List Tally) : sum (xs ++ ys) = (sum xs).add (sum ys) := by
  rw [sum, List.foldl_append, foldl_add]
  rfl

theorem sum_perm {xs ys : List Tally} (h : List.Perm xs ys) : sum xs = sum ys :=
  h.foldl_eq' (fun x _ y _ z => by rw [add_assoc, add_comm x, ← add_assoc]) zero

end Tally

namespace ReconciliationInput

variable {input : ReconciliationInput} {text : String} {key : ReconciliationKey}

theorem ledgerOver_split (p q : ReconciliationKey → Bool) :
    input.ledgerOver p =
      (input.ledgerOver (fun key => p key && q key)).add
        (input.ledgerOver (fun key => p key && !q key)) := by
  unfold ledgerOver
  rw [← Tally.sum_append, ← List.map_append]
  apply Tally.sum_perm
  apply List.Perm.map
  have hsplit := List.filter_append_perm
    (fun entry : PointsLedgerEntry => q (entry.reconciliationKey input.planResult))
    (input.planResult.entries.filter (fun entry => p (entry.reconciliationKey input.planResult)))
  simp only [List.filter_filter] at hsplit
  simpa only [Bool.and_comm] using hsplit.symm

theorem achievementsOver_split (p q : ReconciliationKey → Bool) :
    input.achievementsOver p =
      input.achievementsOver (fun key => p key && q key) +
        input.achievementsOver (fun key => p key && !q key) := by
  unfold achievementsOver
  rw [← List.sum_append, ← List.map_append]
  apply List.Perm.sum_eq
  apply List.Perm.map
  have hsplit := List.filter_append_perm (fun row : AchievementPointsRow => q row.key)
    (input.achievementPoints.filter (fun row => p row.key))
  simp only [List.filter_filter] at hsplit
  simpa only [Bool.and_comm] using hsplit.symm

/-- What is due over a set of keys is due over two parts of it. -/
theorem dueOver_split (p q : ReconciliationKey → Bool) :
    input.dueOver p =
      (input.dueOver (fun key => p key && q key)).add
        (input.dueOver (fun key => p key && !q key)) := by
  unfold dueOver
  rw [ledgerOver_split p q, achievementsOver_split p q]
  simp only [Tally.add, Tally.mk.injEq, and_true]
  omega

/-! ## What the report compares -/

/-- The statistics the report remembers under a text: the last row that has it. -/
def rememberedAt (input : ReconciliationInput) (text : String) : Tally :=
  ((input.knownStats.filter (fun row => keyOf row.key = text)).getLast?.map
    PlayerStatsSnapshotRow.stats).getD .zero

theorem statsByKey_tally :
    ((input.statsByKey.get text).map PlayerStatsSnapshotRow.stats).getD .zero =
      input.rememberedAt text := by
  have hlast := InsertionMap.get_ofList_keyed (fun row : PlayerStatsSnapshotRow => keyOf row.key)
    input.knownStats text
  rw [statsByKey, hlast, rememberedAt]

theorem foldl_aggregate (entries : List PointsLedgerEntry) (acc : LedgerAggregate) :
    (entries.foldl (fun acc entry => { acc with tally := acc.tally.add entry.delta }) acc).tally =
      acc.tally.add (Tally.sum (entries.map PointsLedgerEntry.delta)) := by
  rw [← Tally.foldl_add]
  induction entries generalizing acc with
  | nil => rfl
  | cons entry entries ih => exact ih _

theorem ledgerByKey_tally :
    (((aggregateLedgerEntries input.planResult).get text).map LedgerAggregate.tally).getD .zero =
      input.ledgerOver (fun key => keyOf key = text) := by
  rw [aggregateLedgerEntries, InsertionMap.get_gather, ledgerOver]
  cases input.planResult.entries.filter
      (fun entry => keyOf (entry.reconciliationKey input.planResult) = text) with
  | nil => rfl
  | cons entry entries =>
    simp only [List.head?_cons, Option.map_some, Option.getD_some]
    rw [foldl_aggregate, Tally.zero_add]

theorem achievementByKey_points :
    ((aggregateAchievementPoints input.achievementPoints).get text).getD 0 =
      input.achievementsOver (fun key => keyOf key = text) := by
  rw [aggregateAchievementPoints, InsertionMap.get_gather, achievementsOver]
  cases input.achievementPoints.filter (fun row => keyOf row.key = text) with
  | nil => rfl
  | cons row rows =>
    simp only [List.head?_cons, Option.map_some, Option.getD_some]
    rw [List.sum_eq_foldl, List.foldl_map]

/-- The texts the report compares: those of the ledger and of known users' statistics. -/
def Compared (input : ReconciliationInput) (text : String) : Prop :=
  (∃ entry ∈ input.planResult.entries, keyOf (entry.reconciliationKey input.planResult) = text) ∨
    ∃ row ∈ input.knownStats, keyOf row.key = text

theorem mem_allKeys : text ∈ input.allKeys ↔ input.Compared text := by
  have hstats : text ∈ input.statsByKey.keys ↔ ∃ row ∈ input.knownStats, keyOf row.key = text := by
    have hlast := InsertionMap.get_ofList_keyed (fun row : PlayerStatsSnapshotRow => keyOf row.key)
      input.knownStats text
    rw [← not_iff_not, ← InsertionMap.get_eq_none, statsByKey, hlast]
    simp
  rw [allKeys, List.mem_eraseDups, List.mem_append, hstats, aggregateLedgerEntries,
    InsertionMap.mem_keys_gather, Compared]

theorem mismatchAt_reconciled {mismatch : ReconciliationMismatch}
    (h : input.mismatchAt text = some mismatch) :
    isReconciled mismatch = true ↔
      input.rememberedAt text = input.dueOver (fun key => keyOf key = text) := by
  obtain ⟨key, -, rfl⟩ := Option.map_eq_some_iff.mp h
  simp only [isReconciled, toMismatch, statsByKey_tally, ledgerByKey_tally,
    achievementByKey_points, Bool.and_eq_true, decide_eq_true_eq, dueOver, Tally.ext_iff]
  omega

theorem mismatchAt_isSome (h : text ∈ input.allKeys) :
    ∃ mismatch, input.mismatchAt text = some mismatch := by
  rw [allKeys, List.mem_eraseDups, List.mem_append] at h
  rcases h with hledger | hstats
  · obtain ⟨acc, hacc⟩ := InsertionMap.mem_keys.mp hledger
    simp [mismatchAt, hacc]
  · obtain ⟨row, hrow⟩ := InsertionMap.mem_keys.mp hstats
    cases hacc : (aggregateLedgerEntries input.planResult).get text <;>
      simp [mismatchAt, hacc, hrow]

/-- A clean report has compared every text of the ledger and of the statistics. -/
theorem remembered_of_clean {localeCompare : String → String → Ordering}
    (hclean : (buildReconciliationReport localeCompare input).clean = true)
    (htext : input.Compared text) :
    input.rememberedAt text = input.dueOver (fun key => keyOf key = text) := by
  obtain ⟨mismatch, hmismatch⟩ := mismatchAt_isSome (mem_allKeys.mpr htext)
  simp only [buildReconciliationReport, Bool.and_eq_true] at hclean
  have hnone := List.filter_eq_nil_iff.mp
    (List.length_eq_zero_iff.mp (of_decide_eq_true hclean.1.1.1)) mismatch
  rw [sortBy, List.mem_mergeSort, List.mem_filterMap] at hnone
  have hreconciled := hnone ⟨text, mem_allKeys.mpr htext, hmismatch⟩
  exact (mismatchAt_reconciled hmismatch).mp (by simpa using hreconciled)

/-! ## When a clean report is right -/

/-- The rows that share the key's text but not the key, and a row of the key that the report does
not remember, cancel out. -/
def Undisturbed (input : ReconciliationInput) (key : ReconciliationKey) : Prop :=
  ∀ stats ∈ input.storedAt key,
    input.rememberedAt (keyOf key) =
      stats.add (input.dueOver (fun other => keyOf other = keyOf key && !decide (other = key)))

theorem dueOver_text (key : ReconciliationKey) :
    input.dueOver (fun other => keyOf other = keyOf key) =
      (input.dueOver (fun other => other = key)).add
        (input.dueOver (fun other => keyOf other = keyOf key && !decide (other = key))) := by
  rw [dueOver_split (fun other => keyOf other = keyOf key) (fun other => other = key)]
  congr 2
  funext other
  by_cases hkey : other = key <;> simp [hkey]

/-- A compared key of a clean report agrees exactly when nothing disturbs it. -/
theorem reconciledAt_iff_undisturbed
    (hremembered : input.rememberedAt (keyOf key) =
      input.dueOver (fun other => keyOf other = keyOf key)) :
    input.ReconciledAt key ↔ input.Undisturbed key := by
  rw [dueOver_text] at hremembered
  refine forall₂_congr (fun stats _ => ?_)
  rw [hremembered, Tally.add_right_cancel_iff]
  exact eq_comm

theorem dueOver_eq_zero {p : ReconciliationKey → Bool}
    (h : ∀ other, input.Occurs other → p other = false) : input.dueOver p = .zero := by
  have hledger : input.planResult.entries.filter
      (fun entry => p (entry.reconciliationKey input.planResult)) = [] := by
    rw [List.filter_eq_nil_iff]
    intro entry hentry
    simp [h _ (Or.inl ⟨entry, hentry, rfl⟩)]
  have hachievements : input.achievementPoints.filter (fun row => p row.key) = [] := by
    rw [List.filter_eq_nil_iff]
    intro row hrow
    simp [h _ (Or.inr (Or.inr ⟨row, hrow, rfl⟩))]
  simp [dueOver, ledgerOver, hledger, achievementsOver, hachievements, Tally.sum, Tally.zero]

/-- Keys of different texts, with one stored row each, are not disturbed. -/
theorem undisturbed_of_distinct
    (htexts : ∀ other, input.Occurs other → keyOf other = keyOf key → other = key)
    (hrows : ∀ row ∈ input.knownStats, ∀ row' ∈ input.knownStats,
      row.key = key → row'.key = key → row.stats = row'.stats) : input.Undisturbed key := by
  have hothers : input.dueOver (fun other => keyOf other = keyOf key && !decide (other = key)) =
      .zero := by
    refine dueOver_eq_zero (fun other hoccurs => ?_)
    by_cases htext : keyOf other = keyOf key
    · simp [htexts other hoccurs htext]
    · simp [htext]
  have hfilter : input.knownStats.filter (fun row => keyOf row.key = keyOf key) =
      input.knownStats.filter (fun row => row.key = key) := by
    refine List.filter_congr (fun row hrow => ?_)
    have hoccurs : input.Occurs row.key :=
      Or.inr (Or.inl ⟨row, (List.mem_filter.mp hrow).1, rfl⟩)
    exact decide_eq_decide.mpr ⟨htexts row.key hoccurs, congrArg keyOf⟩
  intro stats hstats
  rw [hothers, rememberedAt, hfilter, Tally.add_comm, Tally.zero_add]
  unfold storedAt at hstats
  cases hlast : (input.knownStats.filter (fun row => row.key = key)).getLast? with
  | none =>
    rw [List.getLast?_eq_none_iff.mp hlast] at hstats
    exact (List.mem_singleton.mp hstats).symm
  | some last =>
    have hin := List.mem_of_getLast? hlast
    have hne := List.ne_nil_of_mem hin
    cases hstored : (input.knownStats.filter (fun row => row.key = key)).map
        PlayerStatsSnapshotRow.stats with
    | nil => exact absurd (List.map_eq_nil_iff.mp hstored) hne
    | cons head tail =>
      rw [hstored] at hstats
      have hmem : stats ∈ (input.knownStats.filter (fun row => row.key = key)).map
          PlayerStatsSnapshotRow.stats := hstored ▸ hstats
      obtain ⟨row, hrow, rfl⟩ := List.mem_map.mp hmem
      simp only [List.mem_filter, decide_eq_true_eq] at hrow hin
      exact hrows last hin.1 row hrow.1 hin.2 hrow.2

/-- A key that only occurs in the achievements is never compared. -/
theorem reconciledAt_iff_of_not_compared (hnot : ¬ input.Compared (keyOf key)) :
    input.ReconciledAt key ↔ input.achievementsOver (fun other => other = key) = 0 := by
  have hledger : input.planResult.entries.filter
      (fun entry => decide (entry.reconciliationKey input.planResult = key)) = [] := by
    rw [List.filter_eq_nil_iff]
    intro entry hentry hkey
    exact hnot (Or.inl ⟨entry, hentry, by rw [of_decide_eq_true hkey]⟩)
  have hstats : input.knownStats.filter (fun row => decide (row.key = key)) = [] := by
    rw [List.filter_eq_nil_iff]
    intro row hrow hkey
    exact hnot (Or.inr ⟨row, hrow, by rw [of_decide_eq_true hkey]⟩)
  have hdue : input.dueOver (fun other => other = key) =
      { points := input.achievementsOver (fun other => other = key), wins := 0, losses := 0 } := by
    simp [dueOver, ledgerOver, hledger, Tally.sum, Tally.zero]
  rw [ReconciledAt, storedAt, hstats, hdue]
  simp only [List.map_nil, List.mem_singleton, forall_eq, Tally.zero, Tally.mk.injEq, and_true]
  exact eq_comm

end ReconciliationInput

open ReconciliationInput in
/-- A clean report is right about every known user exactly when nothing disturbs the keys it
compares and the keys it does not compare have no achievement points. -/
theorem clean_report_sound (localeCompare : String → String → Ordering)
    (input : ReconciliationInput)
    (hclean : (buildReconciliationReport localeCompare input).clean = true) :
    input.Sound ↔
      ∀ key, input.missing key.userId = false → input.Occurs key →
        (input.Compared (keyOf key) → input.Undisturbed key) ∧
          (¬ input.Compared (keyOf key) →
            input.achievementsOver (fun other => other = key) = 0) := by
  refine forall₃_congr (fun key _ _ => ?_)
  by_cases hcompared : input.Compared (keyOf key)
  · have hremembered := remembered_of_clean hclean hcompared
    simp [hcompared, reconciledAt_iff_undisturbed hremembered]
  · simp [hcompared, reconciledAt_iff_of_not_compared hcompared]

/-- Ana's five achievement points and nothing else: no key of hers is compared. -/
def achievementsOnly : ReconciliationInput where
  planResult := planLedgerBackfill id (fun _ => []) laddersByName (fun _ => true) compare []
  gameIds := []
  playerStats := []
  achievementPoints := [{ userId := "Ana", rankName := "Global", season := 6, points := 5 }]
  unmappedAchievementLabels := []

def anaStats : PlayerStatsSnapshotRow where
  userId := "Ana"
  rankId := "r1"
  rankName := "Global"
  season := 6
  stats := { points := 6, wins := 1, losses := 0 }

/-- Ana's statistics hold one win on Global and the points of her achievement. -/
def bridgedByAchievements : ReconciliationInput where
  planResult := planLedgerBackfill id (fun _ => []) laddersByName (fun _ => true) compare
    [{ gameId := "m1", userId := "Ana", season := 6, banListName := "", winner := true
       points := 1, anulled := false }]
  gameIds := ["m1"]
  playerStats := [anaStats]
  achievementPoints := [{ userId := "Ana", rankName := "Global", season := 6, points := 5 }]
  unmappedAchievementLabels := []

theorem occurs_bridgedByAchievements {key : ReconciliationKey}
    (h : bridgedByAchievements.Occurs key) :
    key = anaStats.key := by
  rcases h with ⟨entry, hentry, rfl⟩ | ⟨row, hrow, rfl⟩ | ⟨row, hrow, rfl⟩
  · revert entry
    decide +kernel
  · revert row
    decide
  · revert row
    decide

theorem clean_report_sound_bridged : bridgedByAchievements.Sound := by
  refine (clean_report_sound compare bridgedByAchievements (by decide +kernel)).mpr ?_
  intro key _ hoccurs
  rw [occurs_bridgedByAchievements hoccurs]
  constructor
  · intro _ stats hstats
    revert stats
    decide +kernel
  · intro hnot
    have hin : anaStats ∈ bridgedByAchievements.knownStats := by decide +kernel
    exact absurd (Or.inr ⟨anaStats, hin, rfl⟩) hnot

/-- A clean report, five achievement points, and nothing stored. -/
theorem clean_report_unsound :
    ¬ ∀ (localeCompare : String → String → Ordering) (input : ReconciliationInput),
        (buildReconciliationReport localeCompare input).clean = true → input.Sound := by
  intro hall
  have hsound := hall compare achievementsOnly (by decide +kernel)
    { userId := "Ana", rankName := "Global", season := 6 } (by decide +kernel)
    (Or.inr (Or.inr ⟨_, List.mem_singleton_self _, rfl⟩))
  have hdue := hsound .zero (by decide +kernel)
  exact absurd hdue (by decide +kernel)

end EdoproServer.Stats
