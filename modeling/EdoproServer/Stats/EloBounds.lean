import EdoproServer.Stats.Elo
import Mathlib

namespace EdoproServer.Stats
open Lib

/-! ## The expected score over the reals -/

def RATING_SCALE : ℝ := 400
def MAX_EXPECTED_SCORE_GAP : ℝ := 500

namespace EloCalculator

/-- The gap that is fed into the expected score. -/
noncomputable def gap (playerRating opponentRating : ℝ) : ℝ :=
  min MAX_EXPECTED_SCORE_GAP (max (-MAX_EXPECTED_SCORE_GAP) (opponentRating - playerRating))

noncomputable def expectedScore (playerRating opponentRating : ℝ) : ℝ :=
  1 / (1 + 10 ^ (gap playerRating opponentRating / RATING_SCALE))

/-- The rounded movement with the exact expected score. -/
noncomputable def exactCurve : EloCurve := fun kFactor winner playerRating opponentRating =>
  let actual : ℝ := if winner then 1 else 0
  ⌊kFactor * (actual - expectedScore playerRating opponentRating) + 1 / 2⌋

section Curve

variable {K : Int} {own lower opponent : ℝ}

theorem gap_le (own opponent : ℝ) : gap own opponent ≤ 500 := min_le_left _ _

theorem neg_le_gap (own opponent : ℝ) : -500 ≤ gap own opponent :=
  le_min (by norm_num [MAX_EXPECTED_SCORE_GAP]) (le_max_left _ _)

/-- The weaker the player, the wider the gap to one opponent. -/
theorem gap_anti (opponent : ℝ) (h : lower ≤ own) : gap own opponent ≤ gap lower opponent :=
  min_le_min le_rfl (max_le_max le_rfl (sub_le_sub_left h opponent))

/-- At the widest gap the stronger player is expected to take nineteen points of twenty. -/
theorem power_le_nineteen : (10 : ℝ) ^ (5 / 4 : ℝ) ≤ 19 := by
  have hfourth : ((10 : ℝ) ^ (5 / 4 : ℝ)) ^ (4 : ℕ) ≤ 19 ^ (4 : ℕ) := by
    rw [← Real.rpow_natCast, ← Real.rpow_mul (by norm_num)]
    norm_num
  exact le_of_pow_le_pow_left₀ (by norm_num) (by norm_num) hfourth

theorem power_pos (own opponent : ℝ) : 0 < (10 : ℝ) ^ (gap own opponent / RATING_SCALE) :=
  Real.rpow_pos_of_pos (by norm_num) _

theorem power_le (own opponent : ℝ) : (10 : ℝ) ^ (gap own opponent / RATING_SCALE) ≤ 19 := by
  have hexponent : gap own opponent / RATING_SCALE ≤ 5 / 4 := by
    unfold RATING_SCALE
    linarith [gap_le own opponent]
  exact (Real.rpow_le_rpow_of_exponent_le (by norm_num) hexponent).trans power_le_nineteen

theorem le_power (own opponent : ℝ) : 1 / 19 ≤ (10 : ℝ) ^ (gap own opponent / RATING_SCALE) := by
  have hexponent : -(5 / 4) ≤ gap own opponent / RATING_SCALE := by
    unfold RATING_SCALE
    linarith [neg_le_gap own opponent]
  have hlow : (1 : ℝ) / 19 ≤ 10 ^ (-(5 / 4) : ℝ) := by
    rw [Real.rpow_neg (by norm_num), ← one_div]
    exact one_div_le_one_div_of_le (Real.rpow_pos_of_pos (by norm_num) _) power_le_nineteen
  exact hlow.trans (Real.rpow_le_rpow_of_exponent_le (by norm_num) hexponent)

theorem le_expectedScore (own opponent : ℝ) : 1 / 20 ≤ expectedScore own opponent := by
  have hpower := power_le own opponent
  have hpos := power_pos own opponent
  unfold expectedScore
  exact one_div_le_one_div_of_le (by linarith) (by linarith)

theorem expectedScore_le (own opponent : ℝ) : expectedScore own opponent ≤ 19 / 20 := by
  have hpower := le_power own opponent
  unfold expectedScore
  rw [div_le_iff₀ (by linarith)]
  linarith

theorem expectedScore_mono (opponent : ℝ) (h : lower ≤ own) :
    expectedScore lower opponent ≤ expectedScore own opponent := by
  have hexponent : gap own opponent / RATING_SCALE ≤ gap lower opponent / RATING_SCALE := by
    unfold RATING_SCALE
    linarith [gap_anti opponent h]
  have hpower := Real.rpow_le_rpow_of_exponent_le (by norm_num : (1 : ℝ) ≤ 10) hexponent
  unfold expectedScore
  exact one_div_le_one_div_of_le (by linarith [power_pos own opponent])
    (by linarith)

end Curve

end EloCalculator

open EloCalculator

/-! ## One game -/

section Game

variable {K own lower : Int} {opponent : ℚ}

theorem one_le_exactCurve_win (own : Int) (opponent : ℚ) (hK : 10 ≤ K) :
    1 ≤ exactCurve K true own opponent := by
  have hscore := expectedScore_le own opponent
  have hK' : (10 : ℝ) ≤ K := by exact_mod_cast hK
  apply Int.le_floor.mpr
  simp only [if_true, Int.cast_one]
  nlinarith

theorem exactCurve_win_le (own : Int) (opponent : ℚ) (hK : 10 ≤ K) :
    exactCurve K true own opponent ≤ K := by
  have hscore := le_expectedScore own opponent
  have hK' : (10 : ℝ) ≤ K := by exact_mod_cast hK
  apply Int.lt_add_one_iff.mp
  apply Int.floor_lt.mpr
  simp only [if_true]
  push_cast
  nlinarith

theorem exactCurve_loss_le (own : Int) (opponent : ℚ) (hK : 10 ≤ K) :
    exactCurve K false own opponent ≤ 0 := by
  have hscore := le_expectedScore own opponent
  have hK' : (10 : ℝ) ≤ K := by exact_mod_cast hK
  apply Int.lt_add_one_iff.mp
  apply Int.floor_lt.mpr
  simp only [Bool.false_eq_true, if_false]
  push_cast
  nlinarith

theorem neg_le_exactCurve_loss (own : Int) (opponent : ℚ) (hK : 10 ≤ K) :
    -K ≤ exactCurve K false own opponent := by
  have hscore := expectedScore_le own opponent
  have hK' : (10 : ℝ) ≤ K := by exact_mod_cast hK
  apply Int.le_floor.mpr
  simp only [Bool.false_eq_true, if_false]
  push_cast
  nlinarith

/-- The better a loser is rated, the more it loses to one opponent. -/
theorem exactCurve_loss_anti (hK : 10 ≤ K) (h : lower ≤ own) :
    exactCurve K false own opponent ≤ exactCurve K false lower opponent := by
  have hmono := expectedScore_mono opponent
    (show (lower : ℝ) ≤ own by exact_mod_cast h)
  have hK' : (10 : ℝ) ≤ K := by exact_mod_cast hK
  apply Int.floor_le_floor
  simp only [Bool.false_eq_true, if_false]
  nlinarith

end Game

/-! ## Ratings that games lead to -/

/-- A rating some sequence of 1v1 games takes the initial one to. -/
inductive ReachableRating : Rating → Prop
  | initial : ReachableRating Rating.initial
  | played {own opponent : Rating} (reached : ReachableRating own)
      (opponentReached : ReachableRating opponent) (player : RatedPlayer) :
      ReachableRating (own.applyDelta (versus exactCurve player own opponent).delta)

/-- The deltas of a 1v1 lead from ratings games lead to on to others. -/
theorem reachable_deltasFor {a b : RatedPlayer} {ratings : InsertionMap UserId Rating}
    {own opponent : Rating} (hteam : a.team ≠ b.team) (ha : ratings.get a.id = some own)
    (hb : ratings.get b.id = some opponent) (hown : ReachableRating own)
    (hopponent : ReachableRating opponent) :
    ∃ da db, deltasFor exactCurve [a, b] ratings = .ok [da, db] ∧
      ReachableRating (own.applyDelta da.delta) ∧
        ReachableRating (opponent.applyDelta db.delta) :=
  ⟨_, _, deltasFor_pair exactCurve a b ratings own opponent hteam ha hb,
    .played hown hopponent a, .played hopponent hown b⟩

theorem floor_le_applyDelta (rating : Rating) (delta : Int) :
    RATING_FLOOR ≤ (rating.applyDelta delta).value := by
  simp only [Rating.applyDelta_value, Rating.effectiveDelta]
  omega

theorem ReachableRating.floor_le {rating : Rating} (h : ReachableRating rating) :
    RATING_FLOOR ≤ rating.value := by
  cases h with
  | initial => decide
  | played => exact floor_le_applyDelta _ _

/-- The K factors there are. -/
def kTiers : List Int := [K_PROVISIONAL, K_HIGH_RATED, K_DEFAULT]

theorem kFactorFor_mem (rating : Rating) : kFactorFor rating ∈ kTiers := by
  unfold kFactorFor kTiers
  split
  · simp
  · split <;> simp

theorem ten_le_of_mem_kTiers {K : Int} (h : K ∈ kTiers) : 10 ≤ K := by
  simp only [kTiers, List.mem_cons, List.not_mem_nil, or_false] at h
  rcases h with rfl | rfl | rfl <;> decide

/-- The part of a movement the floor leaves is no larger, and no smaller for a lower rating. -/
theorem effectiveDelta_of_loss {rating : Rating} {delta : Int}
    (hfloor : RATING_FLOOR ≤ rating.value) (hloss : delta ≤ 0) :
    rating.effectiveDelta delta ≤ 0 ∧ delta ≤ rating.effectiveDelta delta := by
  unfold Rating.effectiveDelta
  omega

theorem effectiveDelta_of_gain {rating : Rating} {delta : Int}
    (hfloor : RATING_FLOOR ≤ rating.value) (hgain : 0 ≤ delta) :
    rating.effectiveDelta delta = delta := by
  unfold Rating.effectiveDelta
  omega

theorem effectiveDelta_anti {higher lower : Rating} {delta delta' : Int}
    (hvalue : lower.value ≤ higher.value) (hdelta : delta ≤ delta') :
    higher.effectiveDelta delta ≤ lower.effectiveDelta delta' := by
  unfold Rating.effectiveDelta
  omega

/-- What a game between two ratings does to them, with one K factor. -/
structure EloBounds (K : Int) (winner loser : Rating) : Prop where
  winnerGains : 1 ≤ exactCurve K true winner.value loser.value
  loserLoses : loser.effectiveDelta (exactCurve K false loser.value winner.value) ≤ 0
  winnerWithin : |winner.effectiveDelta (exactCurve K true winner.value loser.value)| ≤ K
  loserWithin : |loser.effectiveDelta (exactCurve K false loser.value winner.value)| ≤ K
  floors : RATING_FLOOR ≤ winner.value ∧ RATING_FLOOR ≤ loser.value ∧
    RATING_FLOOR ≤ (winner.applyDelta (exactCurve K true winner.value loser.value)).value ∧
    RATING_FLOOR ≤ (loser.applyDelta (exactCurve K false loser.value winner.value)).value
  monotone : ∀ lower, ReachableRating lower → lower.value ≤ loser.value →
    loser.effectiveDelta (exactCurve K false loser.value winner.value) ≤
      lower.effectiveDelta (exactCurve K false lower.value winner.value)

/-- Whatever two ratings meet, the winner gains, the loser does not, both by K at most, no one
falls below the floor and a better loser does not lose less. -/
theorem elo_bounds (winner loser : Rating) (hwinner : ReachableRating winner)
    (hloser : ReachableRating loser) (K : Int) (hK : K ∈ kTiers) : EloBounds K winner loser := by
  have hten := ten_le_of_mem_kTiers hK
  have hgain := one_le_exactCurve_win winner.value loser.value hten
  have hgainLe := exactCurve_win_le winner.value loser.value hten
  have hloss := exactCurve_loss_le loser.value winner.value hten
  have hlossLe := neg_le_exactCurve_loss loser.value winner.value hten
  have habsorbed := effectiveDelta_of_loss hloser.floor_le hloss
  refine ⟨hgain, habsorbed.1, ?_, ?_, ?_, ?_⟩
  · rw [effectiveDelta_of_gain hwinner.floor_le (by omega)]
    exact abs_le.mpr ⟨by omega, hgainLe⟩
  · exact abs_le.mpr ⟨hlossLe.trans habsorbed.2, by omega⟩
  · exact ⟨hwinner.floor_le, hloser.floor_le, floor_le_applyDelta _ _, floor_le_applyDelta _ _⟩
  · intro lower _ hlower
    exact effectiveDelta_anti hlower (exactCurve_loss_anti hten hlower)

/-- Two newcomers meet. -/
theorem elo_bounds_initial : EloBounds K_PROVISIONAL Rating.initial Rating.initial :=
  elo_bounds Rating.initial Rating.initial .initial .initial K_PROVISIONAL (by decide)

end EdoproServer.Stats
