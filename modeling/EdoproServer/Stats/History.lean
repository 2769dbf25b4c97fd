import EdoproServer.Stats.Elo
import EdoproServer.Stats.GameOver

namespace EdoproServer.Stats
open Lib

/-! ## Eligibility -/

structure RatedMatchPlayer where
  id : UserId
  team : Team
  name : String
  winner : Bool
  deriving DecidableEq, Repr

inductive RatingEligibility where
  | eligible (banListName : String) (players : List RatedMatchPlayer)
  | unranked
  | noRankedBanlist
  | missingAccountId (missingIdCount : Nat)
  deriving DecidableEq, Repr

def evaluateRatingEligibility (event : GameOver) : RatingEligibility :=
  if event.ranked = false then .unranked
  else if event.banListName = "" ∨ event.banListName = "N/A" then .noRankedBanlist
  else
    let missingIdCount := (event.players.filter (fun player => player.id.isNone)).length
    if missingIdCount > 0 then .missingAccountId missingIdCount
    else .eligible event.banListName (event.players.filterMap (fun player =>
      player.id.map (fun id =>
        { id := id, team := player.team, name := player.name, winner := player.winner })))

/-! ## The two tables -/

structure HistoryRow where
  matchId : String
  userId : UserId
  rank : RankName
  season : Int
  kind : RowKind
  previousRating : Int
  delta : Int
  kFactor : Int
  opponentRating : Int
  cycle : Nat
  deriving DecidableEq, Repr

namespace HistoryRow

def key (row : HistoryRow) : RowKey :=
  { gameId := row.matchId, userId := row.userId, rank := row.rank, kind := row.kind
    cycle := row.cycle }

def step (row : HistoryRow) : RatingStep :=
  { previousRating := row.previousRating, delta := row.delta }

def newRating (row : HistoryRow) : Int := row.previousRating + row.delta

/-- The row belongs to a user's ladder of one season. -/
def on (row : HistoryRow) (userId : UserId) (rank : RankName) (season : Int) : Bool :=
  row.userId = userId ∧ row.rank = rank ∧ row.season = season

end HistoryRow

abbrev RatingKey := UserId × RankName × Int

/-- `rating_history`, oldest row first, and `player_ratings`. -/
structure RatingTables where
  history : List HistoryRow
  ratings : InsertionMap RatingKey Rating

namespace RatingTables

def empty : RatingTables := { history := [], ratings := .empty }

/-- The stored rating, or a fresh season start. -/
def ratingAt (t : RatingTables) (key : RatingKey) : Rating :=
  (t.ratings.get key).getD Rating.initial

def rowsOn (t : RatingTables) (userId : UserId) (rank : RankName) (season : Int) :
    List HistoryRow :=
  t.history.filter (fun row => row.on userId rank season)

/-- The unique index already holds the row's key. -/
def conflicts (t : RatingTables) (row : HistoryRow) : Bool := row.key ∈ t.history.map HistoryRow.key

/-- `INSERT … ON CONFLICT DO NOTHING`: the table, and whether a row went in. -/
def insertHistory (t : RatingTables) (row : HistoryRow) : RatingTables × Bool :=
  if t.conflicts row then (t, false) else ({ t with history := t.history ++ [row] }, true)

def saveRating (t : RatingTables) (key : RatingKey) (rating : Rating) : RatingTables :=
  { t with ratings := t.ratings.set key rating }

/-- The participants' ratings as the transaction locks them. -/
def lockRatings (t : RatingTables) (userIds : List UserId) (rank : RankName) (season : Int) :
    InsertionMap UserId Rating :=
  .ofList (userIds.map (fun userId => (userId, t.ratingAt (userId, rank, season))))

end RatingTables

/-! ## The transaction of one match on one rank -/

/-- One rank's transaction: who played, and the ladder it moves. -/
structure RankTransaction where
  players : List RatedPlayer
  matchId : String
  rank : RankName
  season : Int
  deriving DecidableEq, Repr

namespace RankTransaction

def rowFor (tx : RankTransaction) (delta : RatingDelta) (appliedDelta : Int) : HistoryRow :=
  { matchId := tx.matchId
    userId := delta.userId
    rank := tx.rank
    season := tx.season
    kind := .applied
    previousRating := delta.previousRating
    delta := appliedDelta
    kFactor := delta.kFactor
    opponentRating := delta.opponentRating
    cycle := 0 }

/-- Records one player's movement, unless this match already moved it on this rank. -/
def record (tx : RankTransaction) (ratings : InsertionMap UserId Rating) (t : RatingTables)
    (delta : RatingDelta) : Except String RatingTables := do
  let currentRating ← EloCalculator.ratingOf ratings delta.userId
  let appliedDelta := currentRating.effectiveDelta delta.delta
  let (t, inserted) := t.insertHistory (tx.rowFor delta appliedDelta)
  if inserted then
    return t.saveRating (delta.userId, tx.rank, tx.season) (currentRating.applyDelta appliedDelta)
  else return t

/-- The tables a transaction commits. One that raises is rolled back and commits nothing. -/
def run (curve : EloCurve) (tx : RankTransaction) (t : RatingTables) :
    Except String RatingTables := do
  let ratings := t.lockRatings (tx.players.map RatedPlayer.id) tx.rank tx.season
  let deltas ← EloCalculator.deltasFor curve tx.players ratings
  deltas.foldlM (tx.record ratings) t

end RankTransaction

/-- The transactions one delivery runs, in order: none when it is skipped, otherwise the played
list's rank and then every group ladder it feeds. -/
def EloRatingCalculator.transactions (env : StatsEnvironment) (event : GameOver) :
    List RankTransaction :=
  match evaluateRatingEligibility event with
  | .eligible banListName players =>
    if players.all (fun player => env.accountExists player.id) then
      let banListName := env.resolveAlias banListName
      (banListName :: env.groupsFor banListName).map (fun rank =>
        { players := players.map (fun player =>
            { id := player.id, team := player.team, winner := player.winner })
          matchId := event.matchId
          rank := rank
          season := env.season })
    else []
  | _ => []

/-! ## Deliveries -/

/-- The tables and what every delivery under way still has to run. -/
structure EloState where
  tables : RatingTables
  inFlight : List (List RankTransaction)

/-- A delivery starts, commits its next transaction, or stops: its transactions are done, one of
them raised, or the process failed between two of them. Deliveries interleave freely; a match may
be delivered any number of times. -/
inductive EloStep (curve : EloCurve) : EloState → EloState → Prop
  | deliver (s : EloState) (env : StatsEnvironment) (event : GameOver) :
      EloStep curve s
        { s with inFlight := s.inFlight ++ [EloRatingCalculator.transactions env event] }
  | commit (t t' : RatingTables) (before after : List (List RankTransaction))
      (tx : RankTransaction) (txs : List RankTransaction) (commits : tx.run curve t = .ok t') :
      EloStep curve ⟨t, before ++ (tx :: txs) :: after⟩ ⟨t', before ++ txs :: after⟩
  | stop (t : RatingTables) (before after : List (List RankTransaction))
      (txs : List RankTransaction) :
      EloStep curve ⟨t, before ++ txs :: after⟩ ⟨t, before ++ after⟩

inductive EloReachable (curve : EloCurve) : EloState → Prop
  | start : EloReachable curve ⟨.empty, []⟩
  | step {s s' : EloState} (reach : EloReachable curve s) (next : EloStep curve s s') :
      EloReachable curve s'

/-! ## What every committed state satisfies -/

/-- The rows of every ladder chain the initial rating to the stored one. -/
structure RatingTables.Valid (t : RatingTables) : Prop where
  chain : ∀ userId rank season, RatingChain Rating.initial
    ((t.rowsOn userId rank season).map HistoryRow.step) (t.ratingAt (userId, rank, season))
  stored : ∀ userId rank season,
    t.ratings.get (userId, rank, season) = none ↔ t.rowsOn userId rank season = []
  unique : (t.history.map HistoryRow.key).Nodup
  applied : ∀ row ∈ t.history, row.kind = .applied ∧ row.cycle = 0

theorem RatingTables.Valid.empty : RatingTables.empty.Valid where
  chain := fun _ _ _ => .nil _
  stored := fun _ _ _ => by simp [RatingTables.empty, RatingTables.rowsOn]
  unique := List.nodup_nil
  applied := fun _ h => by simp [RatingTables.empty] at h

theorem HistoryRow.on_iff {row : HistoryRow} {userId : UserId} {rank : RankName} {season : Int} :
    row.on userId rank season = true ↔
      row.userId = userId ∧ row.rank = rank ∧ row.season = season := by
  simp [HistoryRow.on]

/-- A row that starts at the stored rating and goes in with the rating it leads to keeps the
tables valid. -/
theorem RatingTables.Valid.insert {t : RatingTables} (h : t.Valid) {row : HistoryRow}
    (hnew : t.conflicts row = false) (hkind : row.kind = .applied ∧ row.cycle = 0)
    (hprevious : row.previousRating = (t.ratingAt (row.userId, row.rank, row.season)).value) :
    ({ history := t.history ++ [row]
       ratings := t.ratings.set (row.userId, row.rank, row.season)
        ((t.ratingAt (row.userId, row.rank, row.season)).moved row.delta) } :
      RatingTables).Valid := by
  refine ⟨?_, ?_, ?_, ?_⟩
  · intro userId rank season
    by_cases hon : row.on userId rank season
    · have hrow := HistoryRow.on_iff.mp hon
      obtain ⟨rfl, rfl, rfl⟩ := hrow
      simp only [RatingTables.rowsOn, List.filter_append, List.filter_cons, hon, if_true,
        List.filter_nil, List.map_append, List.map_cons, List.map_nil, RatingTables.ratingAt,
        InsertionMap.get_set, Option.getD_some]
      exact (h.chain row.userId row.rank row.season).append (RatingChain.single _ hprevious)
    · have hne : (userId, rank, season) ≠ (row.userId, row.rank, row.season) := by
        intro he
        simp only [Prod.mk.injEq] at he
        exact hon (HistoryRow.on_iff.mpr ⟨he.1.symm, he.2.1.symm, he.2.2.symm⟩)
      simp only [RatingTables.rowsOn, List.filter_append, List.filter_cons, hon,
        Bool.false_eq_true, if_false, List.filter_nil, List.append_nil, RatingTables.ratingAt,
        InsertionMap.get_set, hne]
      exact h.chain userId rank season
  · intro userId rank season
    by_cases hon : row.on userId rank season
    · have hrow := HistoryRow.on_iff.mp hon
      obtain ⟨rfl, rfl, rfl⟩ := hrow
      simp [RatingTables.rowsOn, List.filter_append, hon]
    · have hne : (userId, rank, season) ≠ (row.userId, row.rank, row.season) := by
        intro he
        simp only [Prod.mk.injEq] at he
        exact hon (HistoryRow.on_iff.mpr ⟨he.1.symm, he.2.1.symm, he.2.2.symm⟩)
      simpa [RatingTables.rowsOn, List.filter_append, hon, hne] using h.stored userId rank season
  · have habsent : row.key ∉ t.history.map HistoryRow.key := by
      simpa [RatingTables.conflicts] using hnew
    rw [List.map_append, List.map_cons, List.map_nil]
    exact List.nodup_append.mpr ⟨h.unique, List.nodup_singleton _, by
      intro a ha b hb
      rw [List.mem_singleton] at hb
      rintro rfl
      exact habsent (hb ▸ ha)⟩
  · intro r hr
    rcases List.mem_append.mp hr with hr | hr
    · exact h.applied r hr
    · rw [List.mem_singleton.mp hr]
      exact hkind

/-- While a transaction runs, a participant either has its row already or still has the rating
that was locked. -/
def RankTransaction.Locked (tx : RankTransaction) (ratings : InsertionMap UserId Rating)
    (t : RatingTables) : Prop :=
  ∀ userId r, ratings.get userId = some r →
    ({ gameId := tx.matchId, userId := userId, rank := tx.rank, kind := .applied, cycle := 0 } :
      RowKey) ∈ t.history.map HistoryRow.key ∨ t.ratingAt (userId, tx.rank, tx.season) = r

theorem RankTransaction.record_valid {tx : RankTransaction} {ratings : InsertionMap UserId Rating}
    {t t' : RatingTables} {delta : RatingDelta} (hvalid : t.Valid) (hlocked : tx.Locked ratings t)
    (hdelta : ∀ r, ratings.get delta.userId = some r → delta.previousRating = r.value)
    (h : tx.record ratings t delta = .ok t') : t'.Valid ∧ tx.Locked ratings t' := by
  unfold RankTransaction.record EloCalculator.ratingOf at h
  cases hrating : ratings.get delta.userId with
  | none => simp [hrating, bind, Except.bind] at h
  | some r =>
    simp only [hrating, bind, Except.bind, RatingTables.insertHistory] at h
    cases hconflict : t.conflicts (tx.rowFor delta (r.effectiveDelta delta.delta)) with
    | true =>
      simp only [hconflict, if_true, Bool.false_eq_true, if_false, pure, Except.pure,
        Except.ok.injEq] at h
      subst h
      exact ⟨hvalid, hlocked⟩
    | false =>
      simp only [hconflict, Bool.false_eq_true, if_false, if_true, pure, Except.pure,
        Except.ok.injEq] at h
      have hcurrent : t.ratingAt (delta.userId, tx.rank, tx.season) = r := by
        rcases hlocked delta.userId r hrating with hrow | hcurrent
        · have hno : ¬ t.conflicts (tx.rowFor delta (r.effectiveDelta delta.delta)) = true := by
            simp [hconflict]
          exact absurd (decide_eq_true hrow) hno
        · exact hcurrent
      have hinsert := hvalid.insert hconflict ⟨rfl, rfl⟩
        ((hdelta r hrating).trans (congrArg Rating.value hcurrent.symm))
      subst h
      constructor
      · rw [Rating.applyDelta_effective, ← hcurrent]
        rw [← hcurrent] at hinsert
        exact hinsert
      · intro userId r' hr'
        by_cases hu : userId = delta.userId
        · subst hu
          exact .inl (by simp [RatingTables.saveRating, RankTransaction.rowFor, HistoryRow.key])
        · rcases hlocked userId r' hr' with hrow | hkeeps
          · exact .inl (by
              simp only [RatingTables.saveRating, List.map_append, List.mem_append]
              exact .inl hrow)
          · exact .inr (by simpa [RatingTables.saveRating, RatingTables.ratingAt, hu] using hkeeps)

/-- Every delta of the calculator starts at the rating it was given for its player. -/
theorem deltasFor_previousRating {curve : EloCurve} {players : List RatedPlayer}
    {ratings : InsertionMap UserId Rating} {deltas : List RatingDelta}
    (h : EloCalculator.deltasFor curve players ratings = .ok deltas) :
    ∀ delta ∈ deltas, ∀ r, ratings.get delta.userId = some r → delta.previousRating = r.value := by
  have hone : ∀ player delta, EloCalculator.deltaFor curve players ratings player = .ok delta →
      ∀ r, ratings.get delta.userId = some r → delta.previousRating = r.value := by
    intro player delta hd r hr
    unfold EloCalculator.deltaFor EloCalculator.ratingOf at hd
    cases hrating : ratings.get player.id with
    | none => simp [hrating, bind, Except.bind] at hd
    | some own =>
      simp only [hrating, bind, Except.bind] at hd
      split at hd
      · cases hd
      · simp only [pure, Except.pure, Except.ok.injEq] at hd
        subst hd
        simp only at hr ⊢
        rw [hrating] at hr
        rw [Option.some.inj hr]
  unfold EloCalculator.deltasFor at h
  have hall : ∀ (rest : List RatedPlayer) (deltas : List RatingDelta),
      rest.mapM (EloCalculator.deltaFor curve players ratings) = .ok deltas →
      ∀ delta ∈ deltas, ∃ player,
        EloCalculator.deltaFor curve players ratings player = .ok delta := by
    intro rest
    induction rest with
    | nil =>
      intro deltas hm delta hmem
      simp only [List.mapM_nil, pure, Except.pure, Except.ok.injEq] at hm
      subst hm
      cases hmem
    | cons player rest ih =>
      intro deltas hm delta hmem
      simp only [List.mapM_cons, bind, Except.bind] at hm
      cases hd : EloCalculator.deltaFor curve players ratings player with
      | error e => simp [hd] at hm
      | ok first =>
        cases hrest : rest.mapM (EloCalculator.deltaFor curve players ratings) with
        | error e => simp [hd, hrest] at hm
        | ok later =>
          simp only [hd, hrest, pure, Except.pure, Except.ok.injEq] at hm
          subst hm
          rcases List.mem_cons.mp hmem with rfl | hmem
          · exact ⟨player, hd⟩
          · exact ih later hrest delta hmem
  intro delta hmem
  obtain ⟨player, hplayer⟩ := hall players deltas h delta hmem
  exact hone player delta hplayer

theorem RankTransaction.run_valid {curve : EloCurve} {tx : RankTransaction} {t t' : RatingTables}
    (hvalid : t.Valid) (h : tx.run curve t = .ok t') : t'.Valid := by
  unfold RankTransaction.run at h
  simp only [bind, Except.bind] at h
  cases hdeltas : EloCalculator.deltasFor curve tx.players
      (t.lockRatings (tx.players.map RatedPlayer.id) tx.rank tx.season) with
  | error e => simp [hdeltas] at h
  | ok deltas =>
    simp only [hdeltas] at h
    have hprevious := deltasFor_previousRating hdeltas
    have hlocked : tx.Locked
        (t.lockRatings (tx.players.map RatedPlayer.id) tx.rank tx.season) t := by
      intro userId r hr
      right
      rw [RatingTables.lockRatings, InsertionMap.get_ofList_map
        (fun userId => t.ratingAt (userId, tx.rank, tx.season))] at hr
      split at hr
      · exact Option.some.inj hr
      · cases hr
    generalize t.lockRatings (tx.players.map RatedPlayer.id) tx.rank tx.season = ratings at *
    clear hdeltas
    induction deltas generalizing t with
    | nil =>
      simp only [List.foldlM_nil, pure, Except.pure, Except.ok.injEq] at h
      exact h ▸ hvalid
    | cons delta deltas ih =>
      simp only [List.foldlM_cons, bind, Except.bind] at h
      cases hrecord : tx.record ratings t delta with
      | error e => simp [hrecord] at h
      | ok t₁ =>
        simp only [hrecord] at h
        obtain ⟨hvalid₁, hlocked₁⟩ := RankTransaction.record_valid hvalid hlocked
          (hprevious delta List.mem_cons_self) hrecord
        exact ih hvalid₁ h (fun d hd => hprevious d (List.mem_cons_of_mem _ hd)) hlocked₁

theorem EloReachable.valid {curve : EloCurve} {s : EloState} (h : EloReachable curve s) :
    s.tables.Valid := by
  induction h with
  | start => exact .empty
  | step _ next ih =>
    cases next with
    | deliver env event => exact ih
    | commit _ _ _ _ _ _ commits => exact RankTransaction.run_valid ih commits
    | stop => exact ih

/-! ## The history chain -/

/-- What the rows of one ladder say of the rating stored for it. -/
structure HistoryChain (rows : List HistoryRow) (stored : Option Rating) : Prop where
  first : ∀ row, rows.head? = some row → row.previousRating = INITIAL_RATING
  linked : rows.IsChain (fun row next => next.previousRating = row.newRating)
  present : stored = none ↔ rows = []
  value : ∀ rating row, stored = some rating → rows.getLast? = some row →
    rating.value = row.newRating
  gamesPlayed : ∀ rating, stored = some rating → rating.gamesPlayed = rows.length
  peak : ∀ rating, stored = some rating →
    rating.peak = (RatingChain.reached (rows.map HistoryRow.step)).foldl max INITIAL_RATING
  once : (rows.map HistoryRow.matchId).Nodup

theorem RatingChain.linked {r r' : Rating} : ∀ {rows : List HistoryRow},
    RatingChain r (rows.map HistoryRow.step) r' →
      rows.IsChain (fun row next => next.previousRating = row.newRating)
  | [], _ => .nil
  | [row], _ => .singleton row
  | row :: next :: rows, h => by
    cases h with
    | cons start rest =>
      have hnext := rest.head
      refine .cons_cons ?_ rest.linked
      simp only [HistoryRow.step, Rating.moved] at start hnext
      rw [HistoryRow.newRating, start]
      exact hnext

theorem RatingChain.value_last {r r' : Rating} {step : RatingStep} :
    ∀ {steps : List RatingStep}, RatingChain r steps r' → steps.getLast? = some step →
      r'.value = step.previousRating + step.delta
  | [], _, hlast => by cases hlast
  | [only], h, hlast => by
    cases h with
    | cons start rest =>
      simp only [List.getLast?_singleton, Option.some.injEq] at hlast
      subst hlast
      rw [rest.eq_of_nil, Rating.moved, start]
  | _ :: second :: steps, h, hlast => by
    cases h with
    | cons start rest =>
      exact rest.value_last (by simpa using hlast)

/-- On one ladder the unique index admits a match once. -/
theorem RatingTables.Valid.once {t : RatingTables} (h : t.Valid) (userId : UserId)
    (rank : RankName) (season : Int) :
    ((t.rowsOn userId rank season).map HistoryRow.matchId).Nodup := by
  rw [List.Nodup, List.pairwise_map]
  have hkeys : t.history.Pairwise (fun row row' => row.key ≠ row'.key) :=
    List.pairwise_map.mp h.unique
  refine (hkeys.sublist List.filter_sublist).imp_of_mem ?_
  intro row row' hrow hrow' hne hmatch
  obtain ⟨hin, hon⟩ := List.mem_filter.mp hrow
  obtain ⟨hin', hon'⟩ := List.mem_filter.mp hrow'
  obtain ⟨huser, hrank, -⟩ := HistoryRow.on_iff.mp hon
  obtain ⟨huser', hrank', -⟩ := HistoryRow.on_iff.mp hon'
  obtain ⟨hkind, hcycle⟩ := h.applied row hin
  obtain ⟨hkind', hcycle'⟩ := h.applied row' hin'
  apply hne
  simp only [HistoryRow.key, hmatch, huser, huser', hrank, hrank', hkind, hkind', hcycle, hcycle']

theorem RatingTables.Valid.historyChain {t : RatingTables} (h : t.Valid) (userId : UserId)
    (rank : RankName) (season : Int) :
    HistoryChain (t.rowsOn userId rank season) (t.ratings.get (userId, rank, season)) := by
  have hchain := h.chain userId rank season
  have hat : ∀ rating, t.ratings.get (userId, rank, season) = some rating →
      t.ratingAt (userId, rank, season) = rating := by
    intro rating hstored
    simp [RatingTables.ratingAt, hstored]
  refine ⟨?_, hchain.linked, h.stored userId rank season, ?_, ?_, ?_, h.once userId rank season⟩
  · intro row hhead
    obtain ⟨rows, hrows⟩ := List.head?_eq_some_iff.mp hhead
    rw [hrows] at hchain
    exact hchain.head
  · intro rating row hstored hlast
    rw [hat rating hstored] at hchain
    have hstep : ((t.rowsOn userId rank season).map HistoryRow.step).getLast? = some row.step := by
      rw [List.getLast?_map, hlast]
      rfl
    exact hchain.value_last hstep
  · intro rating hstored
    rw [hat rating hstored] at hchain
    have hgames := hchain.gamesPlayed
    rw [List.length_map] at hgames
    rw [hgames]
    exact Int.zero_add _
  · intro rating hstored
    rw [hat rating hstored] at hchain
    exact hchain.peak (le_refl INITIAL_RATING)

/-- In every state a sequence of deliveries commits, with any redelivery, failure and
interleaving, every ladder's history is a chain that ends at its stored rating. -/
theorem history_chain (curve : EloCurve) (s : EloState) (h : EloReachable curve s)
    (userId : UserId) (rank : RankName) (season : Int) :
    HistoryChain (s.tables.rowsOn userId rank season)
      (s.tables.ratings.get (userId, rank, season)) :=
  h.valid.historyChain userId rank season

/-- The curve between equals. -/
def evenCurve : EloCurve := fun kFactor won _ _ => if won then kFactor / 2 else -(kFactor / 2)

/-- Two deliveries of one match, both committed. -/
theorem history_chain_redelivered :
    ∃ tx t, EloRatingCalculator.transactions oneLadder anaBeatsBen = [tx] ∧
      tx.run evenCurve .empty = .ok t ∧
      HistoryChain (t.rowsOn "ana" "2026.04 TCG" 6) (t.ratings.get ("ana", "2026.04 TCG", 6)) := by
  refine ⟨_, _, rfl, rfl, ?_⟩
  refine history_chain evenCurve ⟨_, [[], []]⟩ ?_ _ _ _
  have hstart : EloReachable evenCurve _ := .start
  have hdelivered := (hstart.step (.deliver _ oneLadder anaBeatsBen)).step
    (.deliver _ oneLadder anaBeatsBen)
  have hcommitted := hdelivered.step (.commit _ _ [] _ _ _ rfl)
  exact hcommitted.step (.commit _ _ [[]] [] _ _ rfl)

end EdoproServer.Stats
