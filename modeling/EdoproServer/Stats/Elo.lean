import Mathlib.Data.Rat.Floor
import EdoproServer.Basic
import EdoproServer.Lib.InsertionMap

namespace EdoproServer.Stats
open Lib

def INITIAL_RATING : Int := 1000
def RATING_FLOOR : Int := 100
def PROVISIONAL_GAMES_THRESHOLD : Int := 10

structure Rating where
  value : Int
  gamesPlayed : Int
  peak : Int
  deriving DecidableEq, Repr

/-- The plain record a `Rating` is built from and stored as has the same three fields. -/
abbrev RatingProperties := Rating

namespace Rating

/-- `Rating.initialize()`. -/
def initial : Rating :=
  { value := INITIAL_RATING, gamesPlayed := 0, peak := INITIAL_RATING }

def provisional (r : Rating) : Bool := r.gamesPlayed < PROVISIONAL_GAMES_THRESHOLD

/-- The part of `delta` the rating can absorb before it meets the floor. -/
def effectiveDelta (r : Rating) (delta : Int) : Int :=
  max RATING_FLOOR (r.value + delta) - r.value

def applyDelta (r : Rating) (delta : Int) : Rating :=
  let value := r.value + r.effectiveDelta delta
  { value := value, gamesPlayed := r.gamesPlayed + 1, peak := max r.peak value }

@[simp] theorem applyDelta_value (r : Rating) (delta : Int) :
    (r.applyDelta delta).value = r.value + r.effectiveDelta delta := rfl

@[simp] theorem applyDelta_gamesPlayed (r : Rating) (delta : Int) :
    (r.applyDelta delta).gamesPlayed = r.gamesPlayed + 1 := rfl

@[simp] theorem applyDelta_peak (r : Rating) (delta : Int) :
    (r.applyDelta delta).peak = max r.peak (r.value + r.effectiveDelta delta) := rfl

/-- A recorded delta is exactly reversible: absorbing it again changes nothing. -/
@[simp] theorem effectiveDelta_idem (r : Rating) (delta : Int) :
    r.effectiveDelta (r.effectiveDelta delta) = r.effectiveDelta delta := by
  unfold effectiveDelta
  omega

end Rating

/-! ## The Elo calculator -/

def HIGH_RATED_THRESHOLD : Int := 2300
def K_PROVISIONAL : Int := 40
def K_HIGH_RATED : Int := 10
def K_DEFAULT : Int := 20

structure RatedPlayer where
  id : UserId
  team : Team
  winner : Bool
  deriving DecidableEq, Repr

structure RatingDelta where
  userId : UserId
  previousRating : Int
  delta : Int
  kFactor : Int
  opponentRating : Int
  deriving DecidableEq, Repr

/-- `Math.round(kFactor * (actual - expectedScore(rating, opponentAverage)))` as a function of
the K factor, whether the player won, its rating and its opponents' average. The expected
score is a floating-point power, so the rounded movement is a parameter of the model. -/
abbrev EloCurve := Int → Bool → Int → ℚ → Int

/-- `Math.round`: halves go up. -/
def mathRound (x : ℚ) : Int := ⌊x + 1 / 2⌋

namespace EloCalculator

def kFactorFor (rating : Rating) : Int :=
  if rating.provisional then K_PROVISIONAL
  else if rating.value ≥ HIGH_RATED_THRESHOLD then K_HIGH_RATED
  else K_DEFAULT

/-- The rating of one player, or the error that stops the whole calculation. -/
def ratingOf (ratings : InsertionMap UserId Rating) (id : UserId) : Except String Rating :=
  match ratings.get id with
  | some rating => .ok rating
  | none => .error ("No rating provided for player " ++ id)

/-- With no opponents the source divides by zero. The resulting NaN has no integer to store:
the row that carries it is refused, so the model stops at the average. -/
def averageRatingOf (players : List RatedPlayer) (ratings : InsertionMap UserId Rating) :
    Except String ℚ := do
  let values ← players.mapM (fun player => ratingOf ratings player.id)
  if players.isEmpty then
    throw "NaN"
  return ((values.map Rating.value).sum : ℚ) / players.length

def deltaFor (curve : EloCurve) (players : List RatedPlayer)
    (ratings : InsertionMap UserId Rating) (player : RatedPlayer) :
    Except String RatingDelta := do
  let rating ← ratingOf ratings player.id
  let opponents := players.filter (fun other => other.team ≠ player.team)
  let opponentAverage ← averageRatingOf opponents ratings
  let kFactor := kFactorFor rating
  return {
    userId := player.id
    previousRating := rating.value
    delta := curve kFactor player.winner rating.value opponentAverage
    kFactor := kFactor
    opponentRating := mathRound opponentAverage }

def deltasFor (curve : EloCurve) (players : List RatedPlayer)
    (ratings : InsertionMap UserId Rating) : Except String (List RatingDelta) :=
  players.mapM (deltaFor curve players ratings)

@[simp] theorem mathRound_intCast (n : Int) : mathRound (n : ℚ) = n := by
  unfold mathRound
  rw [Int.floor_eq_iff]
  constructor <;> norm_num

/-- What a player of a 1v1 gains or loses: its opponents' average is the other's rating. -/
def versus (curve : EloCurve) (player : RatedPlayer) (own other : Rating) : RatingDelta :=
  { userId := player.id
    previousRating := own.value
    delta := curve (kFactorFor own) player.winner own.value other.value
    kFactor := kFactorFor own
    opponentRating := other.value }

theorem deltasFor_pair (curve : EloCurve) (a b : RatedPlayer)
    (ratings : InsertionMap UserId Rating) (ra rb : Rating) (hteam : a.team ≠ b.team)
    (ha : ratings.get a.id = some ra) (hb : ratings.get b.id = some rb) :
    deltasFor curve [a, b] ratings = .ok [versus curve a ra rb, versus curve b rb ra] := by
  simp [deltasFor, deltaFor, versus, ratingOf, ha, hb, averageRatingOf, hteam, hteam.symm,
    bind, Except.bind, pure, Except.pure]

end EloCalculator

/-! ## Chains of recorded movements -/

/-- The rating movement of one history row: before value and applied delta. -/
structure RatingStep where
  previousRating : Int
  delta : Int
  deriving DecidableEq, Repr

/-- The rating after one recorded movement. -/
def Rating.moved (r : Rating) (delta : Int) : Rating :=
  { value := r.value + delta, gamesPlayed := r.gamesPlayed + 1
    peak := max r.peak (r.value + delta) }

theorem Rating.applyDelta_effective (r : Rating) (delta : Int) :
    r.applyDelta (r.effectiveDelta delta) = r.moved (r.effectiveDelta delta) := by
  simp [Rating.applyDelta, Rating.moved]

/-- `RatingChain r steps r'`: every step starts from the value the one before it left, and
together they carry `r` to `r'`. -/
inductive RatingChain : Rating → List RatingStep → Rating → Prop
  | nil (r : Rating) : RatingChain r [] r
  | cons {r r' : Rating} {step : RatingStep} {steps : List RatingStep}
      (start : step.previousRating = r.value)
      (rest : RatingChain (r.moved step.delta) steps r') : RatingChain r (step :: steps) r'

namespace RatingChain

theorem append {r s t : Rating} {xs ys : List RatingStep}
    (h : RatingChain r xs s) (h' : RatingChain s ys t) : RatingChain r (xs ++ ys) t := by
  induction h with
  | nil => exact h'
  | cons start _ ih => exact .cons start (ih h')

theorem single (r : Rating) {step : RatingStep} (start : step.previousRating = r.value) :
    RatingChain r [step] (r.moved step.delta) :=
  .cons start (.nil _)

theorem eq_of_nil {r s : Rating} (h : RatingChain r [] s) : s = r := by
  cases h
  rfl

theorem gamesPlayed {r s : Rating} {steps : List RatingStep} (h : RatingChain r steps s) :
    s.gamesPlayed = r.gamesPlayed + steps.length := by
  induction h with
  | nil => simp
  | cons _ _ ih =>
    rw [ih]
    simp only [Rating.moved, List.length_cons]
    omega

theorem head {r s : Rating} {step : RatingStep} {steps : List RatingStep}
    (h : RatingChain r (step :: steps) s) : step.previousRating = r.value := by
  cases h with
  | cons start _ => exact start

/-- Both ends of every step, in order. -/
def reached (steps : List RatingStep) : List Int :=
  steps.flatMap (fun row => [row.previousRating, row.previousRating + row.delta])

/-- The peak is the highest value reached, or the one held before if nothing exceeded it. -/
theorem peak {r s : Rating} {steps : List RatingStep} (h : RatingChain r steps s)
    (hr : r.value ≤ r.peak) : s.peak = (reached steps).foldl max r.peak := by
  induction h with
  | nil => rfl
  | @cons r s step steps start _ ih =>
    have hmoved : (r.moved step.delta).value ≤ (r.moved step.delta).peak := by
      simp [Rating.moved]
    rw [ih hmoved]
    simp [reached, Rating.moved, start, hr]

end RatingChain

end EdoproServer.Stats
