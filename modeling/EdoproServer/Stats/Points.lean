import Mathlib.Algebra.BigOperators.Group.List.Basic
import EdoproServer.Lib.InsertionMap
import EdoproServer.Stats.GameOver

namespace EdoproServer.Stats
open Lib

/-! ## Player statistics and the ledger -/

/-- Points, wins and losses: what `player_stats` stores and what a ledger row adds. -/
@[ext] structure Tally where
  points : Int
  wins : Int
  losses : Int
  deriving DecidableEq, Repr

namespace Tally

def zero : Tally := { points := 0, wins := 0, losses := 0 }

def add (x y : Tally) : Tally :=
  { points := x.points + y.points, wins := x.wins + y.wins, losses := x.losses + y.losses }

def sum (xs : List Tally) : Tally := xs.foldl add zero

/-- Matches counted, won or lost. -/
def played (x : Tally) : Int := x.wins + x.losses

theorem zero_add (x : Tally) : zero.add x = x := by
  simp [zero, add]

theorem sum_append_singleton (xs : List Tally) (x : Tally) :
    sum (xs ++ [x]) = (sum xs).add x := by
  simp [sum, List.foldl_append]

@[simp] theorem played_add (x y : Tally) : (x.add y).played = x.played + y.played := by
  simp only [played, add]
  omega

end Tally

namespace GameOverPlayer

def wins (player : GameOverPlayer) : Nat :=
  (player.games.filter (fun result => result = .winner)).length

def losses (player : GameOverPlayer) : Nat :=
  (player.games.filter (fun result => result = .loser)).length

def calculateMatchPoints (player : GameOverPlayer) : Int := player.wins - player.losses

/-- What the match is worth to the player on every rank it feeds. -/
def credit (player : GameOverPlayer) : Tally :=
  { points := player.calculateMatchPoints
    wins := if player.winner then 1 else 0
    losses := if player.winner then 0 else 1 }

@[simp] theorem credit_played (player : GameOverPlayer) : player.credit.played = 1 := by
  unfold credit Tally.played
  cases player.winner <;> rfl

end GameOverPlayer

structure LedgerRow where
  gameId : String
  userId : UserId
  rank : RankName
  season : Int
  kind : RowKind
  cycle : Nat
  delta : Tally
  deriving DecidableEq, Repr

def LedgerRow.key (row : LedgerRow) : RowKey :=
  { gameId := row.gameId, userId := row.userId, rank := row.rank, kind := row.kind
    cycle := row.cycle }

abbrev StatsKey := UserId × RankName × Int

def LedgerRow.statsKey (row : LedgerRow) : StatsKey := (row.userId, row.rank, row.season)

/-- `player_stats` and `points_ledger`, oldest row first. -/
structure PointsTables where
  stats : InsertionMap StatsKey Tally
  ledger : List LedgerRow

namespace PointsTables

def empty : PointsTables := { stats := .empty, ledger := [] }

/-- The stored statistics, all zero before the first save. -/
def statsAt (t : PointsTables) (key : StatsKey) : Tally := (t.stats.get key).getD Tally.zero

/-- The sums over a key's ledger rows. -/
def ledgerAt (t : PointsTables) (key : StatsKey) : Tally :=
  Tally.sum ((t.ledger.filter (fun row => row.statsKey = key)).map LedgerRow.delta)

/-- `INSERT … ON CONFLICT DO NOTHING`. The calculator ignores whether a row went in. -/
def insertLedgerEntry (t : PointsTables) (row : LedgerRow) : PointsTables :=
  if row.key ∈ t.ledger.map LedgerRow.key then t else { t with ledger := t.ledger ++ [row] }

theorem insertLedgerEntry_ledger (t : PointsTables) (row : LedgerRow) :
    (t.insertLedgerEntry row).ledger =
      if row.key ∈ t.ledger.map LedgerRow.key then t.ledger else t.ledger ++ [row] := by
  unfold insertLedgerEntry
  split <;> rfl

def save (t : PointsTables) (key : StatsKey) (stats : Tally) : PointsTables :=
  { t with stats := t.stats.set key stats }

/-- The two stores say the same of every user, rank and season. -/
def Agrees (t : PointsTables) : Prop := ∀ key, t.statsAt key = t.ledgerAt key

end PointsTables

/-! ## The transaction of one player -/

structure StatsTransaction where
  gameId : String
  userId : UserId
  season : Int
  ranks : List RankName
  player : GameOverPlayer
  deriving DecidableEq, Repr

namespace StatsTransaction

def rowFor (tx : StatsTransaction) (rank : RankName) : LedgerRow :=
  { gameId := tx.gameId
    userId := tx.userId
    rank := rank
    season := tx.season
    kind := .applied
    cycle := 0
    delta := tx.player.credit }

def creditRank (tx : StatsTransaction) (t : PointsTables) (rank : RankName) : PointsTables :=
  let key := (tx.userId, rank, tx.season)
  (t.save key ((t.statsAt key).add tx.player.credit)).insertLedgerEntry (tx.rowFor rank)

def run (tx : StatsTransaction) (t : PointsTables) : PointsTables :=
  tx.ranks.foldl tx.creditRank t

end StatsTransaction

/-- The ranks a match feeds: its list, Global and the groups of a ranked list. -/
def BasicStatsCalculator.statsRanks (env : StatsEnvironment) (banListName : String) :
    List RankName :=
  let hasBanList := banListName ≠ ""
  let isRankedBanList := hasBanList ∧ banListName ≠ "N/A"
  let resolvedBanListName :=
    if isRankedBanList then env.resolveAlias banListName else banListName
  let groupNames := if isRankedBanList then env.groupsFor resolvedBanListName else []
  (if hasBanList then [resolvedBanListName] else []) ++ "Global" :: groupNames

/-- The transactions one delivery runs, one for every player with a profile. -/
def BasicStatsCalculator.transactions (env : StatsEnvironment) (event : GameOver) :
    List StatsTransaction :=
  if event.ranked then
    event.players.filterMap (fun player =>
      (env.findByUsername player.name).map (fun userId =>
        { gameId := event.matchId
          userId := userId
          season := env.season
          ranks := statsRanks env event.banListName
          player := player }))
  else []

/-! ## Deliveries -/

/-- `PointsRun t inFlight trace`: deliveries from empty tables reached `t`, with `inFlight` still
to run; `trace` lists every committed transaction with the tables it was committed to.
A delivery may stop at any point, and a match may be delivered any number of times. -/
inductive PointsRun : PointsTables → List (List StatsTransaction) →
    List (PointsTables × StatsTransaction) → Prop
  | start : PointsRun .empty [] []
  | deliver {t : PointsTables} {inFlight : List (List StatsTransaction)}
      {trace : List (PointsTables × StatsTransaction)} (run : PointsRun t inFlight trace)
      (env : StatsEnvironment) (event : GameOver) :
      PointsRun t (inFlight ++ [BasicStatsCalculator.transactions env event]) trace
  | commit {t : PointsTables} (before : List (List StatsTransaction))
      {after : List (List StatsTransaction)} {tx : StatsTransaction} {txs : List StatsTransaction}
      {trace : List (PointsTables × StatsTransaction)}
      (run : PointsRun t (before ++ (tx :: txs) :: after) trace) :
      PointsRun (tx.run t) (before ++ txs :: after) (trace ++ [(t, tx)])
  | stop {t : PointsTables} (before : List (List StatsTransaction))
      {after : List (List StatsTransaction)} {txs : List StatsTransaction}
      {trace : List (PointsTables × StatsTransaction)}
      (run : PointsRun t (before ++ txs :: after) trace) : PointsRun t (before ++ after) trace

/-- A transaction is fresh when it credits no rank twice and no rank it credits has a row of the
same game and user yet. -/
def FreshRanks (t : PointsTables) (tx : StatsTransaction) (ranks : List RankName) : Prop :=
  ranks.Nodup ∧ ∀ rank ∈ ranks, (tx.rowFor rank).key ∉ t.ledger.map LedgerRow.key

/-! ## One rank -/

namespace StatsTransaction

variable {t : PointsTables} {tx : StatsTransaction} {rank : RankName}

theorem statsAt_creditRank (key : StatsKey) :
    (tx.creditRank t rank).statsAt key =
      if key = (tx.userId, rank, tx.season) then (t.statsAt key).add tx.player.credit
      else t.statsAt key := by
  simp only [creditRank, PointsTables.insertLedgerEntry]
  split
  all_goals
    simp only [PointsTables.save, PointsTables.statsAt, InsertionMap.get_set]
    split
    · rename_i hkey
      rw [hkey, Option.getD_some]
    · rfl

theorem ledger_creditRank :
    (tx.creditRank t rank).ledger =
      if (tx.rowFor rank).key ∈ t.ledger.map LedgerRow.key then t.ledger
      else t.ledger ++ [tx.rowFor rank] := by
  exact PointsTables.insertLedgerEntry_ledger
    (t.save (tx.userId, rank, tx.season) ((t.statsAt _).add tx.player.credit)) (tx.rowFor rank)

theorem ledgerAt_creditRank (key : StatsKey) :
    (tx.creditRank t rank).ledgerAt key =
      if (tx.rowFor rank).key ∉ t.ledger.map LedgerRow.key ∧ key = (tx.userId, rank, tx.season)
      then (t.ledgerAt key).add tx.player.credit else t.ledgerAt key := by
  simp only [PointsTables.ledgerAt, ledger_creditRank]
  by_cases hrow : (tx.rowFor rank).key ∈ t.ledger.map LedgerRow.key
  · simp [hrow]
  · by_cases hkey : key = (tx.userId, rank, tx.season)
    · have hon : (tx.rowFor rank).statsKey = key := hkey.symm
      simp only [hrow, if_false, not_false_eq_true, hkey, and_self, if_true, List.filter_append,
        List.map_append]
      rw [← hkey, List.filter_cons_of_pos (by simpa using hon), List.filter_nil, List.map_cons,
        List.map_nil, Tally.sum_append_singleton]
      rfl
    · have hoff : (tx.rowFor rank).statsKey ≠ key := fun h => hkey h.symm
      simp only [hrow, if_false, hkey, and_false, List.filter_append]
      rw [List.filter_cons_of_neg (by simpa using hoff), List.filter_nil, List.append_nil]

/-- A rank without a row of this game moves both stores alike. -/
theorem creditRank_agrees (h : t.Agrees)
    (hfresh : (tx.rowFor rank).key ∉ t.ledger.map LedgerRow.key) :
    (tx.creditRank t rank).Agrees := by
  intro key
  rw [statsAt_creditRank, ledgerAt_creditRank, h key]
  simp only [hfresh, not_false_eq_true, true_and]

/-- The statistics count at least the matches of the ledger, and a rank credited against its own
row counts one more. -/
theorem surplus_creditRank (key : StatsKey) :
    (t.statsAt key).played - (t.ledgerAt key).played ≤
      ((tx.creditRank t rank).statsAt key).played -
        ((tx.creditRank t rank).ledgerAt key).played := by
  rw [statsAt_creditRank, ledgerAt_creditRank]
  by_cases hkey : key = (tx.userId, rank, tx.season)
  · by_cases hrow : (tx.rowFor rank).key ∈ t.ledger.map LedgerRow.key
    · simp only [hkey, if_true, hrow, not_true_eq_false, false_and, if_false, Tally.played_add,
        GameOverPlayer.credit_played]
      omega
    · simp only [hkey, if_true, hrow, not_false_eq_true, and_self, Tally.played_add,
        GameOverPlayer.credit_played]
      omega
  · simp only [hkey, and_false, if_false]
    exact Int.le_refl _

theorem surplus_conflict (h : t.Agrees)
    (hrow : (tx.rowFor rank).key ∈ t.ledger.map LedgerRow.key) :
    ((tx.creditRank t rank).ledgerAt (tx.userId, rank, tx.season)).played <
      ((tx.creditRank t rank).statsAt (tx.userId, rank, tx.season)).played := by
  rw [statsAt_creditRank, ledgerAt_creditRank, h]
  simp only [if_true, hrow, not_true_eq_false, false_and, if_false, Tally.played_add,
    GameOverPlayer.credit_played]
  omega

/-! ## All ranks of a transaction -/

theorem surplus_foldl (ranks : List RankName) (key : StatsKey) : ∀ t : PointsTables,
    (t.statsAt key).played - (t.ledgerAt key).played ≤
      ((ranks.foldl tx.creditRank t).statsAt key).played -
        ((ranks.foldl tx.creditRank t).ledgerAt key).played := by
  induction ranks with
  | nil => exact fun _ => Int.le_refl _
  | cons rank ranks ih => exact fun t => Int.le_trans (surplus_creditRank key) (ih _)

theorem freshRanks_cons {ranks : List RankName}
    (hhead : (tx.rowFor rank).key ∉ t.ledger.map LedgerRow.key) :
    FreshRanks t tx (rank :: ranks) ↔ FreshRanks (tx.creditRank t rank) tx ranks := by
  have hledger : (tx.creditRank t rank).ledger = t.ledger ++ [tx.rowFor rank] := by
    rw [ledger_creditRank, if_neg hhead]
  have hmem : ∀ r, (tx.rowFor r).key ∈ (tx.creditRank t rank).ledger.map LedgerRow.key ↔
      (tx.rowFor r).key ∈ t.ledger.map LedgerRow.key ∨ r = rank := by
    intro r
    rw [hledger, List.map_append, List.mem_append, List.map_singleton, List.mem_singleton]
    refine or_congr_right ⟨fun hkey => congrArg RowKey.rank hkey, ?_⟩
    rintro rfl
    rfl
  simp only [FreshRanks, hmem, not_or, List.nodup_cons, List.mem_cons, forall_eq_or_imp]
  constructor
  · rintro ⟨⟨hnot, hnodup⟩, -, hrest⟩
    refine ⟨hnodup, fun r hr => ⟨hrest r hr, ?_⟩⟩
    rintro rfl
    exact hnot hr
  · rintro ⟨hnodup, hrest⟩
    exact ⟨⟨fun hin => (hrest rank hin).2 rfl, hnodup⟩, hhead, fun r hr => (hrest r hr).1⟩

theorem foldl_agrees_iff (ranks : List RankName) : ∀ t : PointsTables, t.Agrees →
    ((ranks.foldl tx.creditRank t).Agrees ↔ FreshRanks t tx ranks) := by
  induction ranks with
  | nil =>
    intro t h
    exact iff_of_true h ⟨List.nodup_nil, fun _ hr => absurd hr List.not_mem_nil⟩
  | cons rank ranks ih =>
    intro t h
    rw [List.foldl_cons]
    by_cases hrow : (tx.rowFor rank).key ∈ t.ledger.map LedgerRow.key
    · constructor
      · intro hagrees
        have hsurplus := @surplus_foldl tx ranks (tx.userId, rank, tx.season)
          (tx.creditRank t rank)
        have hover := surplus_conflict h hrow
        rw [hagrees (tx.userId, rank, tx.season)] at hsurplus
        omega
      · intro hfresh
        exact absurd hrow (hfresh.2 rank List.mem_cons_self)
    · rw [ih _ (creditRank_agrees h hrow), freshRanks_cons hrow]

/-- From tables that agree, a transaction leaves tables that agree exactly when it is fresh. -/
theorem run_agrees_iff (h : t.Agrees) : (tx.run t).Agrees ↔ FreshRanks t tx tx.ranks :=
  foldl_agrees_iff tx.ranks t h

end StatsTransaction

/-! ## Whole runs -/

theorem PointsTables.empty_agrees : PointsTables.empty.Agrees := fun _ => rfl

/-- A run agrees in every state it reaches exactly when every transaction it commits is fresh. -/
theorem points_agree_iff (t : PointsTables) (inFlight : List (List StatsTransaction))
    (trace : List (PointsTables × StatsTransaction)) (h : PointsRun t inFlight trace) :
    (t.Agrees ∧ ∀ entry ∈ trace, entry.1.Agrees) ↔
      ∀ entry ∈ trace, FreshRanks entry.1 entry.2 entry.2.ranks := by
  induction h with
  | start => simpa using PointsTables.empty_agrees
  | deliver _ _ _ ih => exact ih
  | stop _ _ ih => exact ih
  | @commit t before after tx txs trace run ih =>
    simp only [List.mem_append, List.mem_singleton, or_imp, forall_and, forall_eq]
    rw [← ih]
    constructor
    · rintro ⟨hafter, hearlier, hagrees⟩
      exact ⟨⟨hagrees, hearlier⟩, (StatsTransaction.run_agrees_iff hagrees).mp hafter⟩
    · rintro ⟨⟨hagrees, hearlier⟩, hfresh⟩
      exact ⟨(StatsTransaction.run_agrees_iff hagrees).mpr hfresh, hearlier, hagrees⟩

theorem points_agree_iff_delivered_once :
    ∃ tx₁ tx₂, BasicStatsCalculator.transactions oneLadder anaBeatsBen = [tx₁, tx₂] ∧
      (((tx₂.run (tx₁.run .empty)).Agrees ∧
        ∀ entry ∈ [(PointsTables.empty, tx₁), (tx₁.run .empty, tx₂)], entry.1.Agrees) ↔
        ∀ entry ∈ [(PointsTables.empty, tx₁), (tx₁.run .empty, tx₂)],
          FreshRanks entry.1 entry.2 entry.2.ranks) := by
  refine ⟨_, _, rfl, ?_⟩
  refine points_agree_iff _ [] _ ?_
  have hdelivered := PointsRun.start.deliver oneLadder anaBeatsBen
  have hfirst := hdelivered.commit []
  exact (hfirst.commit []).stop []

/-- The match delivered twice counts twice in the statistics and once in the ledger. -/
theorem redelivery_disagrees :
    ∃ t inFlight trace, PointsRun t inFlight trace ∧ ¬ t.Agrees := by
  have hdelivered := (PointsRun.start.deliver oneLadder anaBeatsBen).deliver oneLadder anaBeatsBen
  have hfirst := hdelivered.commit []
  have hagain := hfirst.commit [_]
  refine ⟨_, _, _, hagain, ?_⟩
  intro hagrees
  exact absurd (hagrees ("Ana", "Global", 6)) (by decide)

end EdoproServer.Stats
