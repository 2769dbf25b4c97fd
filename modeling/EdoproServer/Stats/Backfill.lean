import EdoproServer.Lib.Grouping
import EdoproServer.Stats.Points

namespace EdoproServer.Stats
open Lib

inductive RankType where
  | banlist
  | group
  | global
  deriving DecidableEq, Repr

structure Rank where
  id : String
  name : RankName
  type : RankType
  enabled : Bool
  deriving DecidableEq, Repr

/-- A row of `points_ledger`, its rank by id. -/
structure PointsLedgerEntry where
  gameId : String
  userId : UserId
  rankId : String
  season : Int
  kind : RowKind
  cycle : Nat
  delta : Tally
  deriving DecidableEq, Repr

/-- What the unique index of the ledger identifies an entry by. -/
def PointsLedgerEntry.key (entry : PointsLedgerEntry) : String × UserId × String × RowKind × Nat :=
  (entry.gameId, entry.userId, entry.rankId, entry.kind, entry.cycle)

/-- One stored match of one player. -/
structure BackfillMatchRow where
  gameId : String
  userId : UserId
  season : Int
  banListName : String
  winner : Bool
  points : Int
  anulled : Bool
  deriving DecidableEq, Repr

abbrev RanksByName := RankName → Option Rank

structure UnmappedBanList where
  banListName : String
  matchRows : Nat
  deriving DecidableEq, Repr

structure SkippedMissingUsers where
  matchRows : Nat
  users : List UserId
  gameIds : List String
  deriving DecidableEq, Repr

structure RankBackfillSummary where
  rankId : String
  rankName : RankName
  entryCount : Nat
  gameCount : Nat
  userCount : Nat
  deriving DecidableEq, Repr

structure PlanLedgerBackfillResult where
  entries : List PointsLedgerEntry
  unmappedBanLists : List UnmappedBanList
  rankSummaries : List RankBackfillSummary
  preFlaggedGameIds : List String
  skippedMissingUsers : SkippedMissingUsers
  deriving DecidableEq, Repr

/-! ## Orders of texts -/

/-- The code units a JavaScript string compares by. -/
def codeUnits (text : String) : List Nat :=
  text.toList.flatMap (fun c =>
    if c.toNat < 0x10000 then [c.toNat]
    else [0xd800 + (c.toNat - 0x10000) / 0x400, 0xdc00 + (c.toNat - 0x10000) % 0x400])

/-- `.sort()` without a comparison. -/
def sortTexts (texts : List String) : List String :=
  texts.mergeSort (fun a b => codeUnits a ≤ codeUnits b)

/-- `.sort(compare)`. -/
def sortBy {α : Type} (compare : α → α → Ordering) (xs : List α) : List α :=
  xs.mergeSort (fun a b => compare a b ≠ .gt)

/-! ## The plan -/

structure RankAccumulator where
  rankName : RankName
  entryCount : Nat
  games : List String
  users : List UserId

structure GameRowCounts where
  total : Nat
  missing : Nat

/-- The variables of the loop over the rows. -/
structure BackfillProgress where
  entries : List PointsLedgerEntry
  unmappedCounts : InsertionMap String Nat
  preFlaggedGameIds : List String
  rankStats : InsertionMap String RankAccumulator
  missingUsers : List UserId
  missingUserMatchRows : Nat
  gameRowCounts : InsertionMap String GameRowCounts

def BackfillProgress.start : BackfillProgress where
  entries := []
  unmappedCounts := .empty
  preFlaggedGameIds := []
  rankStats := .empty
  missingUsers := []
  missingUserMatchRows := 0
  gameRowCounts := .empty

/-- The ranks a row credits, or nothing when one of them does not exist. -/
def resolveRanksToCredit (row : BackfillMatchRow) (resolveAlias : String → String)
    (groupsFor : String → List String) (ranksByName : RanksByName) : Option (List Rank) := do
  let hasBanList := row.banListName ≠ ""
  let isRankedBanList := hasBanList ∧ row.banListName ≠ "N/A"
  let resolvedBanListName :=
    if isRankedBanList then resolveAlias row.banListName else row.banListName
  let banListRanks ←
    if hasBanList then (ranksByName resolvedBanListName).map (fun rank => [rank]) else some []
  let globalRank ← ranksByName "Global"
  let groupRanks ←
    if isRankedBanList then (groupsFor resolvedBanListName).mapM ranksByName else some []
  return banListRanks ++ globalRank :: groupRanks

def BackfillMatchRow.entryFor (row : BackfillMatchRow) (rank : Rank) : PointsLedgerEntry where
  gameId := row.gameId
  userId := row.userId
  rankId := rank.id
  season := row.season
  kind := .applied
  cycle := 0
  delta :=
    { points := row.points
      wins := if row.winner then 1 else 0
      losses := if row.winner then 0 else 1 }

def accumulateRankStats (rankStats : InsertionMap String RankAccumulator) (rank : Rank)
    (row : BackfillMatchRow) : InsertionMap String RankAccumulator :=
  let stats := (rankStats.get rank.id).getD
    { rankName := rank.name, entryCount := 0, games := [], users := [] }
  rankStats.set rank.id
    { stats with
      entryCount := stats.entryCount + 1
      games := insertOnce stats.games row.gameId
      users := insertOnce stats.users row.userId }

/-- The entry of one rank, and its share of the summary. -/
def planRank (row : BackfillMatchRow) (progress : BackfillProgress) (rank : Rank) :
    BackfillProgress :=
  { progress with
    entries := progress.entries ++ [row.entryFor rank]
    rankStats := accumulateRankStats progress.rankStats rank row }

section Plan

variable (resolveAlias : String → String) (groupsFor : String → List String)
  (ranksByName : RanksByName) (knownUserIds : UserId → Bool)

/-- One round of the loop. -/
def planRow (progress : BackfillProgress) (row : BackfillMatchRow) : BackfillProgress :=
  let gameCounts := (progress.gameRowCounts.get row.gameId).getD { total := 0, missing := 0 }
  let gameCounts := { gameCounts with total := gameCounts.total + 1 }
  if !knownUserIds row.userId then
    { progress with
      missingUsers := insertOnce progress.missingUsers row.userId
      missingUserMatchRows := progress.missingUserMatchRows + 1
      gameRowCounts := progress.gameRowCounts.set row.gameId
        { gameCounts with missing := gameCounts.missing + 1 } }
  else
    let progress :=
      { progress with
        gameRowCounts := progress.gameRowCounts.set row.gameId gameCounts
        preFlaggedGameIds :=
          if row.anulled then insertOnce progress.preFlaggedGameIds row.gameId
          else progress.preFlaggedGameIds }
    match resolveRanksToCredit row resolveAlias groupsFor ranksByName with
    | none =>
      { progress with
        unmappedCounts := progress.unmappedCounts.set row.banListName
          ((progress.unmappedCounts.get row.banListName).getD 0 + 1) }
    | some credit => credit.foldl (planRank row) progress

def planRows (matchRows : List BackfillMatchRow) : BackfillProgress :=
  matchRows.foldl (planRow resolveAlias groupsFor ranksByName knownUserIds) .start

/-- The ledger rows the stored matches are worth. The order of texts in the reader's language is a
parameter: only reports are sorted by it. -/
def planLedgerBackfill (localeCompare : String → String → Ordering)
    (matchRows : List BackfillMatchRow) : PlanLedgerBackfillResult :=
  let progress := planRows resolveAlias groupsFor ranksByName knownUserIds matchRows
  { entries := progress.entries
    unmappedBanLists :=
      sortBy (fun a b => localeCompare a.banListName b.banListName)
        (progress.unmappedCounts.entries.map (fun entry =>
          { banListName := entry.1, matchRows := entry.2 }))
    rankSummaries :=
      sortBy (fun a b => (localeCompare a.rankName b.rankName).then
          (localeCompare a.rankId b.rankId))
        (progress.rankStats.entries.map (fun entry =>
          { rankId := entry.1
            rankName := entry.2.rankName
            entryCount := entry.2.entryCount
            gameCount := entry.2.games.length
            userCount := entry.2.users.length }))
    preFlaggedGameIds := sortTexts progress.preFlaggedGameIds
    skippedMissingUsers :=
      { matchRows := progress.missingUserMatchRows
        users := sortTexts progress.missingUsers
        gameIds := sortTexts
          ((progress.gameRowCounts.entries.filter (fun entry =>
            entry.2.missing = entry.2.total)).map Prod.fst) } }

end Plan

/-! ## Live crediting -/

/-- `INSERT … ON CONFLICT (name) DO NOTHING`, then the row of that name. -/
def findOrCreateByName (newId : RankName → String) (table : List Rank) (name : RankName)
    (type : Option RankType) : List Rank × Rank :=
  match table.find? (fun rank => rank.name = name) with
  | some rank => (table, rank)
  | none =>
    let rank :=
      { id := newId name
        name := name
        type := type.getD (if name = "Global" then .global else .banlist)
        enabled := name ≠ "N/A" }
    (table ++ [rank], rank)

def findOrCreateAll (newId : RankName → String) :
    List Rank → List (RankName × Option RankType) → List Rank × List Rank
  | table, [] => (table, [])
  | table, (name, type) :: requests =>
    let found := findOrCreateByName newId table name type
    let others := findOrCreateAll newId found.1 requests
    (others.1, found.2 :: others.2)

/-- The lookups of one delivery, in their order: the list, Global, then the groups. -/
def BasicStatsCalculator.rankRequests (env : StatsEnvironment) (banListName : String) :
    List (RankName × Option RankType) :=
  let hasBanList := banListName ≠ ""
  let isRankedBanList := hasBanList ∧ banListName ≠ "N/A"
  let resolvedBanListName :=
    if isRankedBanList then env.resolveAlias banListName else banListName
  let groupNames := if isRankedBanList then env.groupsFor resolvedBanListName else []
  (if hasBanList then [(resolvedBanListName, none)] else []) ++
    ("Global", none) :: groupNames.map (fun groupName => (groupName, some .group))

namespace StatsTransaction

def entryFor (tx : StatsTransaction) (rank : Rank) : PointsLedgerEntry where
  gameId := tx.gameId
  userId := tx.userId
  rankId := rank.id
  season := tx.season
  kind := .applied
  cycle := 0
  delta := tx.player.credit

/-- The match row stored after the transaction. Rows are annulled later, if at all. -/
def matchRow (tx : StatsTransaction) (banListName : String) : BackfillMatchRow where
  gameId := tx.gameId
  userId := tx.userId
  season := tx.season
  banListName := banListName
  winner := tx.player.winner
  points := tx.player.calculateMatchPoints
  anulled := false

end StatsTransaction

/-- What a delivery writes for one player. -/
structure LiveCredit where
  matchRow : BackfillMatchRow
  entries : List PointsLedgerEntry

def BasicStatsCalculator.credits (newId : RankName → String) (env : StatsEnvironment)
    (table : List Rank) (event : GameOver) : List LiveCredit :=
  let statsRanks := (findOrCreateAll newId table (rankRequests env event.banListName)).2
  (transactions env event).map (fun tx =>
    { matchRow := tx.matchRow event.banListName
      entries := statsRanks.map tx.entryFor })

/-- `entries` is what a delivery wrote beside the stored row, with the aliases, the groups and the
ranks the planner reads. -/
def WrittenLive (env : StatsEnvironment) (table : List Rank) (row : BackfillMatchRow)
    (entries : List PointsLedgerEntry) : Prop :=
  ∃ newId live event, live.resolveAlias = env.resolveAlias ∧ live.groupsFor = env.groupsFor ∧
    ∃ credit ∈ BasicStatsCalculator.credits newId live table event,
      { credit.matchRow with anulled := row.anulled } = row ∧ credit.entries = entries

/-! ## What becomes of a row -/

inductive RowOutcome where
  | missing
  | unmapped
  | credited
  deriving DecidableEq, Repr

/-- A row of a known user is credited when every rank it feeds exists. -/
def rowOutcome (env : StatsEnvironment) (ranksByName : RanksByName) (knownUserIds : UserId → Bool)
    (row : BackfillMatchRow) : RowOutcome :=
  if !knownUserIds row.userId then .missing
  else if (BasicStatsCalculator.statsRanks env row.banListName).all
      (fun name => (ranksByName name).isSome) then .credited
  else .unmapped

/-- The mapping holds rows of the table only. -/
def RanksByName.ReadFrom (ranksByName : RanksByName) (table : List Rank) : Prop :=
  ∀ name rank, ranksByName name = some rank →
    table.find? (fun rank => rank.name = name) = some rank

/-! ## One row -/

section Rows

variable {env : StatsEnvironment} {table : List Rank} {ranksByName : RanksByName}
  {knownUserIds : UserId → Bool} {row : BackfillMatchRow} {rows : List BackfillMatchRow}

/-- The planner looks up the ranks live crediting asks for. -/
theorem resolveRanksToCredit_eq :
    resolveRanksToCredit row env.resolveAlias env.groupsFor ranksByName =
      (BasicStatsCalculator.statsRanks env row.banListName).mapM ranksByName := by
  unfold resolveRanksToCredit BasicStatsCalculator.statsRanks
  by_cases hlist : row.banListName = ""
  · simp [hlist]
  · by_cases hna : row.banListName = "N/A"
    · cases hrank : ranksByName "N/A" <;> simp [hna, hrank, Option.bind_assoc]
    · cases hrank : ranksByName (env.resolveAlias row.banListName) <;>
        simp [hlist, hna, hrank, Option.bind_assoc]

theorem rankRequests_names (banListName : String) :
    (BasicStatsCalculator.rankRequests env banListName).map Prod.fst =
      BasicStatsCalculator.statsRanks env banListName := by
  unfold BasicStatsCalculator.rankRequests BasicStatsCalculator.statsRanks
  by_cases hlist : banListName = ""
  · simp [hlist]
  · simp [hlist, Function.comp_def]

/-- Ranks that exist are found, and nothing is created for them. -/
theorem findOrCreateAll_of_mapM (newId : RankName → String) (hread : ranksByName.ReadFrom table)
    {requests : List (RankName × Option RankType)} {ranks : List Rank}
    (hranks : (requests.map Prod.fst).mapM ranksByName = some ranks) :
    findOrCreateAll newId table requests = (table, ranks) := by
  induction requests generalizing ranks with
  | nil =>
    have hnil : ranks = [] := by simpa using hranks.symm
    rw [hnil, findOrCreateAll]
  | cons request requests ih =>
    obtain ⟨name, type⟩ := request
    simp only [List.map_cons, List.mapM_cons, Option.bind_eq_bind, Option.bind_eq_some_iff,
      Option.pure_def, Option.some.injEq] at hranks
    obtain ⟨rank, hrank, others, hothers, rfl⟩ := hranks
    have hfound : findOrCreateByName newId table name type = (table, rank) := by
      simp [findOrCreateByName, hread name rank hrank]
    simp [findOrCreateAll, hfound, ih hothers]

theorem mapM_isSome (names : List RankName) :
    (names.mapM ranksByName).isSome = names.all (fun name => (ranksByName name).isSome) := by
  induction names with
  | nil => rfl
  | cons name names ih =>
    cases hrank : ranksByName name with
    | none => simp [hrank]
    | some rank => cases hothers : names.mapM ranksByName <;> simp_all

theorem mem_of_mapM {names : List RankName} {name : RankName} {ranks : List Rank}
    (hranks : names.mapM ranksByName = some ranks) (hname : name ∈ names) :
    ∃ rank ∈ ranks, ranksByName name = some rank := by
  induction names generalizing ranks with
  | nil => cases hname
  | cons head names ih =>
    simp only [List.mapM_cons, Option.bind_eq_bind, Option.bind_eq_some_iff, Option.pure_def,
      Option.some.injEq] at hranks
    obtain ⟨rank, hrank, others, hothers, rfl⟩ := hranks
    rcases List.mem_cons.mp hname with rfl | htail
    · exact ⟨rank, List.mem_cons_self, hrank⟩
    · obtain ⟨found, hin, hfound⟩ := ih hothers htail
      exact ⟨found, List.mem_cons_of_mem _ hin, hfound⟩

/-- Every credited row credits Global. -/
theorem global_credited {ranks : List Rank}
    (hranks : resolveRanksToCredit row env.resolveAlias env.groupsFor ranksByName = some ranks) :
    ∃ rank ∈ ranks, ranksByName "Global" = some rank := by
  rw [resolveRanksToCredit_eq] at hranks
  exact mem_of_mapM hranks (by simp [BasicStatsCalculator.statsRanks])

/-- What the planner plans for a credited row is what was written live. -/
theorem entries_of_writtenLive {ranks : List Rank} {entries : List PointsLedgerEntry}
    (hread : ranksByName.ReadFrom table)
    (hranks : resolveRanksToCredit row env.resolveAlias env.groupsFor ranksByName = some ranks)
    (hlive : WrittenLive env table row entries) : entries = ranks.map row.entryFor := by
  obtain ⟨newId, live, event, halias, hgroups, credit, hcredit, hrow, rfl⟩ := hlive
  obtain ⟨tx, htx, rfl⟩ := List.mem_map.mp hcredit
  have hname : event.banListName = row.banListName := by rw [← hrow]; rfl
  have hranks' : (BasicStatsCalculator.statsRanks live event.banListName).mapM ranksByName =
      some ranks := by
    rw [← hranks, ← halias, ← hgroups, resolveRanksToCredit_eq, hname]
  rw [← rankRequests_names] at hranks'
  simp only [findOrCreateAll_of_mapM newId hread hranks']
  rw [← hrow]
  rfl

/-- Every row has a delivery that stores it. -/
theorem exists_writtenLive (env : StatsEnvironment) (table : List Rank) (row : BackfillMatchRow) :
    ∃ entries, WrittenLive env table row entries := by
  let player : GameOverPlayer :=
    { id := none, name := "", team := .player, winner := row.winner
      games := List.replicate row.points.toNat .winner ++
        List.replicate (-row.points).toNat .loser }
  let event : GameOver :=
    { matchId := row.gameId, ranked := true, banListName := row.banListName, players := [player] }
  let live : StatsEnvironment :=
    { env with season := row.season, findByUsername := fun _ => some row.userId }
  have hpoints : player.calculateMatchPoints = row.points := by
    simp only [GameOverPlayer.calculateMatchPoints, GameOverPlayer.wins, GameOverPlayer.losses,
      player, List.filter_append, List.filter_replicate, List.length_append]
    simp only [decide_true, if_true, reduceCtorEq, decide_false, Bool.false_eq_true, if_false,
      List.length_replicate, List.length_nil]
    omega
  refine ⟨_, fun _ => "", live, event, rfl, rfl, _, List.mem_map.mpr
    ⟨{ gameId := row.gameId, userId := row.userId, season := row.season
       ranks := BasicStatsCalculator.statsRanks live row.banListName, player := player },
      ?_, rfl⟩, ?_, rfl⟩
  · simp [BasicStatsCalculator.transactions, event, live]
  · simp only [StatsTransaction.matchRow, hpoints, player, event]

/-! ## The loop -/

theorem foldl_planRank (credit : List Rank) (progress : BackfillProgress) :
    (credit.foldl (planRank row) progress).entries =
        progress.entries ++ credit.map row.entryFor ∧
      (credit.foldl (planRank row) progress).missingUserMatchRows =
        progress.missingUserMatchRows ∧
      (credit.foldl (planRank row) progress).unmappedCounts = progress.unmappedCounts := by
  induction credit generalizing progress with
  | nil => simp
  | cons rank credit ih =>
    obtain ⟨hentries, hmissing, hunmapped⟩ := ih (planRank row progress rank)
    refine ⟨?_, hmissing, hunmapped⟩
    rw [List.foldl_cons, hentries]
    simp [planRank]

theorem rowOutcome_missing :
    rowOutcome env ranksByName knownUserIds row = .missing ↔ knownUserIds row.userId = false := by
  unfold rowOutcome
  cases knownUserIds row.userId with
  | false => simp
  | true => simp only [Bool.not_true, Bool.false_eq_true, if_false]; split <;> simp

theorem rowOutcome_unmapped :
    rowOutcome env ranksByName knownUserIds row = .unmapped ↔
      knownUserIds row.userId = true ∧
        resolveRanksToCredit row env.resolveAlias env.groupsFor ranksByName = none := by
  rw [resolveRanksToCredit_eq, ← Option.not_isSome_iff_eq_none, mapM_isSome]
  unfold rowOutcome
  cases knownUserIds row.userId with
  | false => simp
  | true => simp only [Bool.not_true, Bool.false_eq_true, if_false]; split <;> simp_all

theorem rowOutcome_credited :
    rowOutcome env ranksByName knownUserIds row = .credited ↔
      knownUserIds row.userId = true ∧
        ∃ ranks, resolveRanksToCredit row env.resolveAlias env.groupsFor ranksByName =
          some ranks := by
  rw [resolveRanksToCredit_eq, ← Option.isSome_iff_exists, mapM_isSome]
  unfold rowOutcome
  cases knownUserIds row.userId with
  | false => simp
  | true => simp only [Bool.not_true, Bool.false_eq_true, if_false]; split <;> simp_all

/-- What the loop holds once it has read `rows`. -/
structure Accounts (env : StatsEnvironment) (ranksByName : RanksByName)
    (knownUserIds : UserId → Bool) (live : BackfillMatchRow → List PointsLedgerEntry)
    (progress : BackfillProgress) (rows : List BackfillMatchRow) : Prop where
  entries : progress.entries =
    (rows.filter (rowOutcome env ranksByName knownUserIds · = .credited)).flatMap live
  missing : progress.missingUserMatchRows =
    (rows.filter (rowOutcome env ranksByName knownUserIds · = .missing)).length
  unmapped : progress.unmappedCounts =
    InsertionMap.gather BackfillMatchRow.banListName (fun _ => 0) (fun count _ => count + 1)
      (rows.filter (rowOutcome env ranksByName knownUserIds · = .unmapped))

variable {live : BackfillMatchRow → List PointsLedgerEntry}

theorem planRow_accounts {progress : BackfillProgress}
    (hread : ranksByName.ReadFrom table) (hlive : WrittenLive env table row (live row))
    (h : Accounts env ranksByName knownUserIds live progress rows) :
    Accounts env ranksByName knownUserIds live
      (planRow env.resolveAlias env.groupsFor ranksByName knownUserIds progress row)
      (rows ++ [row]) := by
  cases houtcome : rowOutcome env ranksByName knownUserIds row with
  | missing =>
    have hunknown := rowOutcome_missing.mp houtcome
    constructor
    · simp [planRow, hunknown, houtcome, h.entries]
    · simp [planRow, hunknown, houtcome, h.missing]
    · simp [planRow, hunknown, houtcome, h.unmapped]
  | unmapped =>
    obtain ⟨hknown, hranks⟩ := rowOutcome_unmapped.mp houtcome
    constructor
    · simp [planRow, hknown, hranks, houtcome, h.entries]
    · simp [planRow, hknown, hranks, houtcome, h.missing]
    · rw [List.filter_append, List.filter_cons_of_pos (by simpa using houtcome), List.filter_nil,
        InsertionMap.gather_append_singleton, ← h.unmapped]
      simp [planRow, hknown, hranks, InsertionMap.absorb]
  | credited =>
    obtain ⟨hknown, ranks, hranks⟩ := rowOutcome_credited.mp houtcome
    have hentries := entries_of_writtenLive hread hranks hlive
    constructor
    · simp [planRow, hknown, hranks, houtcome, foldl_planRank, h.entries, hentries]
    · simp [planRow, hknown, hranks, houtcome, foldl_planRank, h.missing]
    · simp [planRow, hknown, hranks, houtcome, foldl_planRank, h.unmapped]

theorem planRows_accounts (hread : ranksByName.ReadFrom table)
    (hlive : ∀ row ∈ rows, WrittenLive env table row (live row)) :
    Accounts env ranksByName knownUserIds live
      (planRows env.resolveAlias env.groupsFor ranksByName knownUserIds rows) rows := by
  induction rows using List.reverseRecOn with
  | nil => exact ⟨rfl, rfl, rfl⟩
  | append_singleton rows row ih =>
    have hrows := ih (fun earlier hin => hlive earlier (List.mem_append_left _ hin))
    have hrow := hlive row (by simp)
    simp only [planRows, List.foldl_append, List.foldl_cons, List.foldl_nil]
    exact planRow_accounts hread hrow hrows

/-! ## The result -/

theorem sum_unmappedBanLists (localeCompare : String → String → Ordering)
    (h : Accounts env ranksByName knownUserIds live
      (planRows env.resolveAlias env.groupsFor ranksByName knownUserIds rows) rows) :
    ((planLedgerBackfill env.resolveAlias env.groupsFor ranksByName knownUserIds localeCompare
        rows).unmappedBanLists.map UnmappedBanList.matchRows).sum =
      (rows.filter (rowOutcome env ranksByName knownUserIds · = .unmapped)).length := by
  have hsorted := (List.mergeSort_perm ((planRows env.resolveAlias env.groupsFor ranksByName
      knownUserIds rows).unmappedCounts.entries.map (fun entry =>
        ({ banListName := entry.1, matchRows := entry.2 } : UnmappedBanList)))
    (fun a b => localeCompare a.banListName b.banListName ≠ .gt)).map UnmappedBanList.matchRows
  have hvalues := InsertionMap.sum_values_gather BackfillMatchRow.banListName
    (rows.filter (rowOutcome env ranksByName knownUserIds · = .unmapped))
  rw [← h.unmapped] at hvalues
  rw [← hvalues]
  simpa [planLedgerBackfill, sortBy, InsertionMap.values, List.map_map, Function.comp_def]
    using hsorted.sum_eq

/-- Every row has one of three outcomes. -/
theorem length_outcomes (env : StatsEnvironment) (ranksByName : RanksByName)
    (knownUserIds : UserId → Bool) (rows : List BackfillMatchRow) :
    (rows.filter (rowOutcome env ranksByName knownUserIds · = .credited)).length +
        (rows.filter (rowOutcome env ranksByName knownUserIds · = .unmapped)).length +
        (rows.filter (rowOutcome env ranksByName knownUserIds · = .missing)).length =
      rows.length := by
  induction rows with
  | nil => rfl
  | cons row rows ih =>
    cases houtcome : rowOutcome env ranksByName knownUserIds row <;>
      simp [houtcome] <;> omega

/-- Two credited rows of one game and user meet at Global. -/
theorem keys_disjoint_iff {other : BackfillMatchRow} {ranks ranks' : List Rank}
    (hranks : resolveRanksToCredit row env.resolveAlias env.groupsFor ranksByName = some ranks)
    (hranks' : resolveRanksToCredit other env.resolveAlias env.groupsFor ranksByName =
      some ranks') :
    List.Disjoint ((ranks.map row.entryFor).map PointsLedgerEntry.key)
        ((ranks'.map other.entryFor).map PointsLedgerEntry.key) ↔
      (row.gameId, row.userId) ≠ (other.gameId, other.userId) := by
  constructor
  · intro hdisjoint hsame
    obtain ⟨hgame, huser⟩ := Prod.mk.inj hsame
    obtain ⟨global, hin, hglobal⟩ := global_credited hranks
    obtain ⟨global', hin', hglobal'⟩ := global_credited hranks'
    obtain rfl : global = global' := Option.some.inj (hglobal.symm.trans hglobal')
    refine hdisjoint (a := (row.entryFor global).key) ?_ ?_
    · exact List.mem_map_of_mem (List.mem_map_of_mem hin)
    · have hkey : (row.entryFor global).key = (other.entryFor global).key := by
        simp [BackfillMatchRow.entryFor, PointsLedgerEntry.key, hgame, huser]
      rw [hkey]
      exact List.mem_map_of_mem (List.mem_map_of_mem hin')
  · intro hne key hkey hkey'
    simp only [List.map_map, List.mem_map, Function.comp_apply] at hkey hkey'
    obtain ⟨rank, -, rfl⟩ := hkey
    obtain ⟨rank', -, heq⟩ := hkey'
    simp only [BackfillMatchRow.entryFor, PointsLedgerEntry.key, Prod.mk.injEq] at heq
    exact hne (Prod.ext heq.1.symm heq.2.1.symm)

/-- The entries of one row differ in their ranks only. -/
theorem nodup_keys_entryFor (row : BackfillMatchRow) (ranks : List Rank) :
    ((ranks.map row.entryFor).map PointsLedgerEntry.key).Nodup ↔
      ((ranks.map row.entryFor).map PointsLedgerEntry.rankId).Nodup := by
  have hkeys : (ranks.map row.entryFor).map PointsLedgerEntry.key =
      ((ranks.map row.entryFor).map PointsLedgerEntry.rankId).map
        (fun rankId => (row.gameId, row.userId, rankId, RowKind.applied, 0)) := by
    simp [BackfillMatchRow.entryFor, PointsLedgerEntry.key]
  rw [hkeys]
  refine List.nodup_map_iff ?_
  intro rankId rankId' heq
  simpa using heq

theorem nodup_planned_iff (hread : ranksByName.ReadFrom table)
    (hlive : ∀ row ∈ rows, WrittenLive env table row (live row))
    (hcredited : ∀ row ∈ rows, rowOutcome env ranksByName knownUserIds row = .credited) :
    ((rows.flatMap live).map PointsLedgerEntry.key).Nodup ↔
      (rows.map (fun row => (row.gameId, row.userId))).Nodup ∧
        ∀ row ∈ rows, ((live row).map PointsLedgerEntry.rankId).Nodup := by
  have hplanned : ∀ row ∈ rows, ∃ ranks,
      resolveRanksToCredit row env.resolveAlias env.groupsFor ranksByName = some ranks ∧
        live row = ranks.map row.entryFor := by
    intro row hrow
    obtain ⟨-, ranks, hranks⟩ := rowOutcome_credited.mp (hcredited row hrow)
    exact ⟨ranks, hranks, entries_of_writtenLive hread hranks (hlive row hrow)⟩
  rw [List.map_flatMap, List.nodup_flatMap, and_comm]
  refine and_congr ?_ (forall₂_congr fun row hrow => ?_)
  · rw [List.nodup_iff_pairwise_ne, List.pairwise_map]
    apply List.Pairwise.iff_of_mem
    intro row other hrow hother
    obtain ⟨ranks, hranks, hentries⟩ := hplanned row hrow
    obtain ⟨ranks', hranks', hentries'⟩ := hplanned other hother
    simp only [Function.onFun, hentries, hentries']
    exact keys_disjoint_iff hranks hranks'
  · obtain ⟨ranks, -, hentries⟩ := hplanned row hrow
    rw [hentries]
    exact nodup_keys_entryFor row ranks

/-- The plan takes every row by itself: a row whose user is gone is counted missing, a row with a
rank that does not exist is counted unmapped, and every other row plans the entries live crediting
wrote for it. An entry is planned twice only for two credited rows of one game and user, or for a
row that credits a rank twice. -/
theorem backfill_plans_live_entries (localeCompare : String → String → Ordering)
    (env : StatsEnvironment) (table : List Rank) (ranksByName : RanksByName)
    (knownUserIds : UserId → Bool) (rows : List BackfillMatchRow)
    (live : BackfillMatchRow → List PointsLedgerEntry) (hread : ranksByName.ReadFrom table)
    (hlive : ∀ row ∈ rows, WrittenLive env table row (live row)) :
    let plan := planLedgerBackfill env.resolveAlias env.groupsFor ranksByName knownUserIds
      localeCompare rows
    let outcome := rowOutcome env ranksByName knownUserIds
    let credited := rows.filter (outcome · = .credited)
    plan.entries = credited.flatMap live ∧
      (∀ row ∈ credited, live row ≠ []) ∧
      plan.skippedMissingUsers.matchRows = (rows.filter (outcome · = .missing)).length ∧
      (plan.unmappedBanLists.map UnmappedBanList.matchRows).sum =
        (rows.filter (outcome · = .unmapped)).length ∧
      credited.length + (plan.unmappedBanLists.map UnmappedBanList.matchRows).sum +
        plan.skippedMissingUsers.matchRows = rows.length ∧
      ((plan.entries.map PointsLedgerEntry.key).Nodup ↔
        (credited.map (fun row => (row.gameId, row.userId))).Nodup ∧
          ∀ row ∈ credited, ((live row).map PointsLedgerEntry.rankId).Nodup) := by
  intro plan outcome credited
  have haccounts := @planRows_accounts env table ranksByName knownUserIds rows live hread hlive
  have hentries : plan.entries = credited.flatMap live := haccounts.entries
  have hmissing : plan.skippedMissingUsers.matchRows =
      (rows.filter (outcome · = .missing)).length := haccounts.missing
  have hunmapped := sum_unmappedBanLists localeCompare haccounts
  have hcredited : ∀ row ∈ credited, row ∈ rows ∧ outcome row = .credited := by
    intro row hrow
    simpa using List.mem_filter.mp hrow
  refine ⟨hentries, ?_, hmissing, hunmapped, ?_, ?_⟩
  · intro row hrow
    obtain ⟨hin, houtcome⟩ := hcredited row hrow
    obtain ⟨-, ranks, hranks⟩ := rowOutcome_credited.mp houtcome
    obtain ⟨rank, hrank, -⟩ := global_credited hranks
    rw [entries_of_writtenLive hread hranks (hlive row hin)]
    exact List.ne_nil_of_mem (List.mem_map_of_mem hrank)
  · rw [hunmapped, hmissing]
    exact length_outcomes env ranksByName knownUserIds rows
  · rw [hentries]
    exact nodup_planned_iff hread (fun row hrow => hlive row (hcredited row hrow).1)
      (fun row hrow => (hcredited row hrow).2)

end Rows

/-! ## Three deliveries -/

def ladders : List Rank :=
  [{ id := "r1", name := "Global", type := .global, enabled := true },
    { id := "r2", name := "2026.04 TCG", type := .banlist, enabled := true }]

def laddersByName : RanksByName := fun name => ladders.find? (fun rank => rank.name = name)

theorem laddersByName_readFrom : laddersByName.ReadFrom ladders := fun _ _ h => h

/-- The match on the known list, and the same on a list that has no ladder yet. -/
def storedCredits : List LiveCredit :=
  BasicStatsCalculator.credits (fun _ => "new") oneLadder ladders anaBeatsBen ++
    BasicStatsCalculator.credits (fun _ => "new") oneLadder ladders
      { anaBeatsBen with matchId := "m2", banListName := "2005.04 GOAT" }

def storedRows : List BackfillMatchRow := storedCredits.map LiveCredit.matchRow

def storedEntries (row : BackfillMatchRow) : List PointsLedgerEntry :=
  ((storedCredits.find? (fun credit => credit.matchRow = row)).map LiveCredit.entries).getD []

theorem storedEntries_live :
    ∀ row ∈ storedRows, WrittenLive oneLadder ladders row (storedEntries row) := by
  have hrows : ∀ credit ∈ storedCredits, WrittenLive oneLadder ladders credit.matchRow
      credit.entries := by
    intro credit hcredit
    rcases List.mem_append.mp hcredit with hin | hin
    · exact ⟨_, oneLadder, _, rfl, rfl, credit, hin, rfl, rfl⟩
    · exact ⟨_, oneLadder, _, rfl, rfl, credit, hin, rfl, rfl⟩
  intro row hrow
  obtain ⟨credit, hcredit, rfl⟩ := List.mem_map.mp hrow
  have hfound : ∀ credit ∈ storedCredits, storedEntries credit.matchRow = credit.entries := by
    decide
  rw [hfound credit hcredit]
  exact hrows credit hcredit

/-- Ana's account is gone, Ben's first match is credited, his second is on an unmapped list. -/
theorem backfill_plans_live_entries_two_matches :
    let plan := planLedgerBackfill id (fun _ => []) laddersByName (fun userId => userId = "Ben")
      compare storedRows
    plan.entries.map PointsLedgerEntry.key =
        [("m1", "Ben", "r2", .applied, 0), ("m1", "Ben", "r1", .applied, 0)] ∧
      plan.skippedMissingUsers.matchRows = 2 ∧
      (plan.unmappedBanLists.map UnmappedBanList.matchRows).sum = 1 ∧
      (plan.entries.map PointsLedgerEntry.key).Nodup := by
  intro plan
  obtain ⟨hentries, -, hmissing, hunmapped, -, hnodup⟩ :=
    backfill_plans_live_entries compare oneLadder ladders laddersByName
      (fun userId => userId = "Ben") storedRows storedEntries laddersByName_readFrom
      storedEntries_live
  have hplan : plan.entries.map PointsLedgerEntry.key =
      [("m1", "Ben", "r2", .applied, 0), ("m1", "Ben", "r1", .applied, 0)] :=
    (congrArg (List.map PointsLedgerEntry.key) hentries).trans (by decide)
  exact ⟨hplan, hmissing.trans (by decide), hunmapped.trans (by decide), hnodup.mpr (by decide)⟩

/-- Of matches stored twice, one of them on an unmapped list, the plan is neither empty nor all
that was written live, and it plans an entry twice. -/
theorem backfill_plans_in_part :
    let rows := storedRows ++ storedRows
    let plan := planLedgerBackfill oneLadder.resolveAlias oneLadder.groupsFor laddersByName
      (fun _ => true) compare rows
    (∀ row ∈ rows, WrittenLive oneLadder ladders row (storedEntries row)) ∧
      plan.entries ≠ [] ∧ plan.entries ≠ rows.flatMap storedEntries ∧
      ¬ (plan.entries.map PointsLedgerEntry.key).Nodup := by
  intro rows plan
  refine ⟨?_, by decide, by decide, by decide⟩
  intro row hrow
  exact storedEntries_live row ((List.mem_append.mp hrow).elim id id)

end EdoproServer.Stats
