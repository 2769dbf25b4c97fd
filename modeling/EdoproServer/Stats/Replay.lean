import EdoproServer.Stats.Elo

namespace EdoproServer.Stats
open Lib

structure WindowGamePlayer where
  userId : UserId
  winner : Bool
  deriving DecidableEq, Repr

/-- One game of a rank's replay window. A game that never went through Elo is not `rated`. -/
structure WindowGame where
  gameId : String
  players : List WindowGamePlayer
  rated : Bool
  deriving DecidableEq, Repr

structure StoredWindowRow where
  gameId : String
  userId : UserId
  previousRating : Int
  delta : Int
  kFactor : Int
  opponentRating : Int
  deriving DecidableEq, Repr

def StoredWindowRow.step (row : StoredWindowRow) : RatingStep :=
  { previousRating := row.previousRating, delta := row.delta }

/-- A player's rating right before the window opened, rebuilt from what is stored. -/
def baselineAtWindowStart (current : Option RatingProperties)
    (windowRows preWindowRows : List RatingStep) : Except String RatingProperties :=
  match windowRows with
  | [] => .ok (current.getD Rating.initial)
  | first :: _ =>
    match current with
    | none =>
      .error "A player with rating history inside the window must have a stored rating"
    | some current =>
      let reached := RatingChain.reached preWindowRows
      .ok {
        value := first.previousRating
        gamesPlayed := current.gamesPlayed - windowRows.length
        peak := reached.foldl max Rating.initial.peak }

/-- Why a game cannot be replayed as a 1v1 (`none` when it can). -/
def validateWindowGame (game : WindowGame) : Option String :=
  match game.players with
  | [a, b] =>
    if a.userId = b.userId then
      some ("Game " ++ game.gameId ++ " has the same player on both sides")
    else if (game.players.filter WindowGamePlayer.winner).length ≠ 1 then
      some ("Game " ++ game.gameId ++ " does not have exactly one winner")
    else none
  | players =>
    some ("Game " ++ game.gameId ++ " has " ++ toString players.length ++ " players, expected 2")

/-- The rows and ratings a replay has produced so far. -/
structure Replay where
  rows : List StoredWindowRow
  state : InsertionMap UserId Rating

/-- The rating a replay holds for a user; a user it never met starts at the initial one. -/
def ratingIn (state : InsertionMap UserId Rating) (userId : UserId) : Rating :=
  (state.get userId).getD Rating.initial

def recordDelta (ratings : InsertionMap UserId Rating) (gameId : String) (replay : Replay)
    (delta : RatingDelta) : Except String Replay := do
  let rating ← EloCalculator.ratingOf ratings delta.userId
  let appliedDelta := rating.effectiveDelta delta.delta
  return {
    rows := replay.rows ++ [{
      gameId := gameId
      userId := delta.userId
      previousRating := delta.previousRating
      delta := appliedDelta
      kFactor := delta.kFactor
      opponentRating := delta.opponentRating }]
    state := replay.state.set delta.userId (rating.applyDelta appliedDelta) }

def ratedPlayers (game : WindowGame) : List RatedPlayer :=
  game.players.mapIdx (fun index player =>
    { id := player.userId
      team := if index = 0 then Team.player else Team.opponent
      winner := player.winner })

def replayGame (curve : EloCurve) (replay : Replay) (game : WindowGame) :
    Except String Replay := do
  let ratings := InsertionMap.ofList (game.players.map (fun player =>
    (player.userId, ratingIn replay.state player.userId)))
  let deltas ← EloCalculator.deltasFor curve (ratedPlayers game) ratings
  deltas.foldlM (recordDelta ratings game.gameId) replay

/-- Replays the rated games in order from the baselines. The final ratings are its `state`. -/
def replayRatingWindow (curve : EloCurve) (baselines : InsertionMap UserId RatingProperties)
    (games : List WindowGame) : Except String Replay :=
  (games.filter WindowGame.rated).foldlM (replayGame curve) { rows := [], state := baselines }

/-! ## One valid game -/

/-- The delta the rating absorbs when its owner meets `other`. -/
def movement (curve : EloCurve) (winner : Bool) (own other : Rating) : Int :=
  own.effectiveDelta (curve (EloCalculator.kFactorFor own) winner own.value other.value)

def rowFor (curve : EloCurve) (gameId : String) (player : WindowGamePlayer)
    (own other : Rating) : StoredWindowRow :=
  { gameId := gameId
    userId := player.userId
    previousRating := own.value
    delta := movement curve player.winner own other
    kFactor := EloCalculator.kFactorFor own
    opponentRating := other.value }

theorem valid_players {game : WindowGame} (h : validateWindowGame game = none) :
    ∃ a b, game.players = [a, b] ∧ a.userId ≠ b.userId := by
  unfold validateWindowGame at h
  split at h
  · rename_i a b hp
    refine ⟨a, b, hp, ?_⟩
    intro he
    simp [he] at h
  · cases h

/-- The rows of a game between `a` and `b`: each side's movement is computed from the ratings
held before the game. -/
def pairRows (curve : EloCurve) (state : InsertionMap UserId Rating) (gameId : String)
    (a b : WindowGamePlayer) : List StoredWindowRow :=
  [rowFor curve gameId a (ratingIn state a.userId) (ratingIn state b.userId),
   rowFor curve gameId b (ratingIn state b.userId) (ratingIn state a.userId)]

def pairState (curve : EloCurve) (state : InsertionMap UserId Rating)
    (a b : WindowGamePlayer) : InsertionMap UserId Rating :=
  let ra := ratingIn state a.userId
  let rb := ratingIn state b.userId
  (state.set a.userId (ra.moved (movement curve a.winner ra rb))).set b.userId
    (rb.moved (movement curve b.winner rb ra))

theorem replayGame_pair (curve : EloCurve) (replay : Replay) (game : WindowGame)
    {a b : WindowGamePlayer} (hp : game.players = [a, b]) (hab : a.userId ≠ b.userId) :
    replayGame curve replay game = .ok {
      rows := replay.rows ++ pairRows curve replay.state game.gameId a b
      state := pairState curve replay.state a b } := by
  have hteams : ratedPlayers game =
      [⟨a.userId, .player, a.winner⟩, ⟨b.userId, .opponent, b.winner⟩] := by
    simp [ratedPlayers, hp, List.mapIdx_cons]
  simp only [replayGame, hteams, hp, List.map_cons, List.map_nil]
  rw [EloCalculator.deltasFor_pair curve _ _ _ (ratingIn replay.state a.userId)
    (ratingIn replay.state b.userId) (by simp) (by simp [InsertionMap.ofList, hab])
    (by simp [InsertionMap.ofList])]
  simp [recordDelta, EloCalculator.ratingOf, InsertionMap.ofList, hab, EloCalculator.versus,
    Rating.applyDelta_effective, movement, pairRows, pairState, rowFor, bind, Except.bind, pure,
    Except.pure]

/-- The history steps of one user, oldest first. -/
def stepsOf (userId : UserId) (rows : List StoredWindowRow) : List RatingStep :=
  (rows.filter (fun row => row.userId = userId)).map StoredWindowRow.step

@[simp] theorem stepsOf_nil (userId : UserId) : stepsOf userId [] = [] := rfl

@[simp] theorem stepsOf_append (userId : UserId) (xs ys : List StoredWindowRow) :
    stepsOf userId (xs ++ ys) = stepsOf userId xs ++ stepsOf userId ys := by
  simp [stepsOf]

theorem ratingIn_pairState (curve : EloCurve) (state : InsertionMap UserId Rating)
    {a b : WindowGamePlayer} (hab : a.userId ≠ b.userId) (gameId : String) (u : UserId) :
    RatingChain (ratingIn state u) (stepsOf u (pairRows curve state gameId a b))
      (ratingIn (pairState curve state a b) u) := by
  by_cases hb : u = b.userId
  · subst hb
    have hsteps : stepsOf b.userId (pairRows curve state gameId a b) =
        [(rowFor curve gameId b (ratingIn state b.userId) (ratingIn state a.userId)).step] := by
      simp [stepsOf, pairRows, rowFor, hab]
    have hafter : ratingIn (pairState curve state a b) b.userId =
        (ratingIn state b.userId).moved (movement curve b.winner (ratingIn state b.userId)
          (ratingIn state a.userId)) := by
      simp [ratingIn, pairState]
    rw [hsteps, hafter]
    exact RatingChain.single _ rfl
  · by_cases ha : u = a.userId
    · subst ha
      have hsteps : stepsOf a.userId (pairRows curve state gameId a b) =
          [(rowFor curve gameId a (ratingIn state a.userId) (ratingIn state b.userId)).step] := by
        simp [stepsOf, pairRows, rowFor, hab.symm]
      have hafter : ratingIn (pairState curve state a b) a.userId =
          (ratingIn state a.userId).moved (movement curve a.winner (ratingIn state a.userId)
            (ratingIn state b.userId)) := by
        simp [ratingIn, pairState, hab]
      rw [hsteps, hafter]
      exact RatingChain.single _ rfl
    · have hsteps : stepsOf u (pairRows curve state gameId a b) = [] := by
        simp [stepsOf, pairRows, rowFor, Ne.symm ha, Ne.symm hb]
      have hafter : ratingIn (pairState curve state a b) u = ratingIn state u := by
        simp [ratingIn, pairState, ha, hb]
      rw [hsteps, hafter]
      exact .nil _

theorem pairState_get (curve : EloCurve) (state : InsertionMap UserId Rating)
    (a b : WindowGamePlayer) (gameId : String) (u : UserId) :
    (stepsOf u (pairRows curve state gameId a b) = [] ∧
        (pairState curve state a b).get u = state.get u) ∨
      ((u = a.userId ∨ u = b.userId) ∧ ∃ r, (pairState curve state a b).get u = some r) := by
  by_cases hb : u = b.userId
  · exact .inr ⟨.inr hb, by simp [pairState, hb]⟩
  · by_cases ha : u = a.userId
    · exact .inr ⟨.inl ha, by by_cases h : a.userId = b.userId <;> simp [pairState, ha, h]⟩
    · exact .inl ⟨by simp [stepsOf, pairRows, rowFor, Ne.symm ha, Ne.symm hb],
        by simp [pairState, ha, hb]⟩

/-! ## A whole window -/

/-- `Played curve s games rows s'`: the games, all of them valid and rated, take the ratings `s`
to `s'` and leave `rows` behind. -/
inductive Played (curve : EloCurve) : InsertionMap UserId Rating → List WindowGame →
    List StoredWindowRow → InsertionMap UserId Rating → Prop
  | nil (state) : Played curve state [] [] state
  | cons {state after : InsertionMap UserId Rating} {game : WindowGame} {games : List WindowGame}
      {rows : List StoredWindowRow} {a b : WindowGamePlayer}
      (players : game.players = [a, b]) (distinct : a.userId ≠ b.userId)
      (rest : Played curve (pairState curve state a b) games rows after) :
      Played curve state (game :: games) (pairRows curve state game.gameId a b ++ rows) after

namespace Played

variable {curve : EloCurve} {state after : InsertionMap UserId Rating}
  {games : List WindowGame} {rows : List StoredWindowRow}

theorem exists_of_valid (curve : EloCurve) :
    ∀ (games : List WindowGame) (state : InsertionMap UserId Rating),
      (∀ game ∈ games, validateWindowGame game = none) →
      ∃ rows after, Played curve state games rows after
  | [], state, _ => ⟨[], state, .nil state⟩
  | game :: games, state, hvalid => by
    obtain ⟨a, b, hp, hab⟩ := valid_players (hvalid game (List.mem_cons_self))
    obtain ⟨rows, after, h⟩ := exists_of_valid curve games (pairState curve state a b)
      (fun g hg => hvalid g (List.mem_cons_of_mem _ hg))
    exact ⟨_, after, .cons hp hab h⟩

/-- The source's loop computes what `Played` relates. -/
theorem foldlM_eq (h : Played curve state games rows after) (before : List StoredWindowRow) :
    games.foldlM (replayGame curve) { rows := before, state := state } =
      .ok { rows := before ++ rows, state := after } := by
  induction h generalizing before with
  | nil => simp [pure, Except.pure]
  | cons players distinct rest ih =>
    rw [List.foldlM_cons, replayGame_pair curve _ _ players distinct]
    change List.foldlM _ _ _ = _
    rw [ih, List.append_assoc]

theorem append {games' : List WindowGame} {rows' : List StoredWindowRow}
    {last : InsertionMap UserId Rating} (h : Played curve state games rows after)
    (h' : Played curve after games' rows' last) :
    Played curve state (games ++ games') (rows ++ rows') last := by
  induction h with
  | nil => exact h'
  | cons players distinct rest ih =>
    rw [List.append_assoc]
    exact .cons players distinct (ih h')

/-- Every user's rows chain its rating before the window to its rating after it. -/
theorem chain (h : Played curve state games rows after) (u : UserId) :
    RatingChain (ratingIn state u) (stepsOf u rows) (ratingIn after u) := by
  induction h with
  | nil state => exact .nil _
  | cons players distinct rest ih =>
    rw [stepsOf_append]
    exact (ratingIn_pairState curve _ distinct _ u).append ih

/-- A user either has no rows and an untouched entry, or has an entry. -/
theorem get_after (h : Played curve state games rows after) (u : UserId) :
    (stepsOf u rows = [] ∧ after.get u = state.get u) ∨ ∃ r, after.get u = some r := by
  induction h with
  | nil state => exact .inl ⟨rfl, rfl⟩
  | @cons state after game games rows a b players distinct rest ih =>
    rcases ih with ⟨hrows, hget⟩ | hsome
    · rcases pairState_get curve state a b game.gameId u with ⟨hpair, hstate⟩ | ⟨-, r, hr⟩
      · exact .inl ⟨by rw [stepsOf_append, hpair, hrows]; rfl, hget.trans hstate⟩
      · exact .inr ⟨r, hget.trans hr⟩
    · exact .inr hsome

end Played

/-! ## From the baselines back to the window -/

/-- `Restricts users s s'`: the ratings `s'` know exactly `users`, each with its rating in `s`. -/
def Restricts (users : List UserId) (s s' : InsertionMap UserId Rating) : Prop :=
  ∀ u, s'.get u = if u ∈ users then some (ratingIn s u) else none

theorem Restricts.ratingIn_eq {users : List UserId} {s s' : InsertionMap UserId Rating}
    (h : Restricts users s s') {u : UserId} (hu : u ∈ users) : ratingIn s' u = ratingIn s u := by
  simp [ratingIn, h u, hu]

theorem Restricts.pairRows_eq {users : List UserId} {s s' : InsertionMap UserId Rating}
    (h : Restricts users s s') (curve : EloCurve) (gameId : String) {a b : WindowGamePlayer}
    (ha : a.userId ∈ users) (hb : b.userId ∈ users) :
    pairRows curve s' gameId a b = pairRows curve s gameId a b := by
  simp only [pairRows, h.ratingIn_eq ha, h.ratingIn_eq hb]

theorem Restricts.pairState {users : List UserId} {s s' : InsertionMap UserId Rating}
    (h : Restricts users s s') (curve : EloCurve) {a b : WindowGamePlayer}
    (ha : a.userId ∈ users) (hb : b.userId ∈ users) :
    Restricts users (pairState curve s a b) (Stats.pairState curve s' a b) := by
  intro u
  by_cases hub : u = b.userId
  · subst hub
    simp [Stats.pairState, ratingIn, h a.userId, h b.userId, ha, hb]
  · by_cases hua : u = a.userId
    · subst hua
      simp [Stats.pairState, ratingIn, h a.userId, h b.userId, ha, hb, hub]
    · simp [Stats.pairState, ratingIn, h u, hub, hua]

/-- Replaying from a restriction that covers the players leaves the same rows, and a
restriction of the same ratings. -/
theorem Played.restrict {curve : EloCurve} {s after s' : InsertionMap UserId Rating}
    {games : List WindowGame} {rows : List StoredWindowRow} {users : List UserId}
    (h : Played curve s games rows after) (hr : Restricts users s s')
    (hcover : ∀ game ∈ games, ∀ player ∈ game.players, player.userId ∈ users) :
    ∃ after', Played curve s' games rows after' ∧ Restricts users after after' := by
  induction h generalizing s' with
  | nil => exact ⟨s', .nil s', hr⟩
  | @cons s after game games rows a b players distinct rest ih =>
    have hmem := hcover game List.mem_cons_self
    simp only [players, List.mem_cons, List.not_mem_nil, or_false, forall_eq_or_imp,
      forall_eq] at hmem
    obtain ⟨ha, hb⟩ := hmem
    obtain ⟨after', hplayed, hafter⟩ := ih (hr.pairState curve ha hb)
      (fun g hg => hcover g (List.mem_cons_of_mem _ hg))
    rw [← hr.pairRows_eq curve game.gameId ha hb]
    exact ⟨after', .cons players distinct hplayed, hafter⟩

/-- The baselines a window is replayed from, rebuilt user by user from the stored ratings and
the stored history. -/
def baselinesAtWindowStart (current : InsertionMap UserId Rating)
    (windowRows preWindowRows : List StoredWindowRow) (users : List UserId) :
    Except String (InsertionMap UserId RatingProperties) := do
  let entries ← users.mapM (fun userId => do
    let baseline ← baselineAtWindowStart (current.get userId) (stepsOf userId windowRows)
      (stepsOf userId preWindowRows)
    return (userId, baseline))
  return InsertionMap.ofList entries

/-- The reconstruction meets the forward replay: a user's baseline is the rating the games
before the window left it with. -/
theorem baselineAtWindowStart_played {curve : EloCurve} {start finals : InsertionMap UserId Rating}
    {pre window : List WindowGame} {preRows windowRows : List StoredWindowRow}
    (hpre : Played curve .empty pre preRows start)
    (hwindow : Played curve start window windowRows finals) (u : UserId) :
    baselineAtWindowStart (finals.get u) (stepsOf u windowRows) (stepsOf u preRows) =
      .ok (ratingIn start u) := by
  have hchain := hwindow.chain u
  cases hsteps : stepsOf u windowRows with
  | nil =>
    rw [hsteps] at hchain
    rw [← hchain.eq_of_nil]
    rfl
  | cons first later =>
    rw [hsteps] at hchain
    rcases hwindow.get_after u with ⟨hnone, -⟩ | ⟨current, hcurrent⟩
    · rw [hsteps] at hnone
      cases hnone
    have hfinal : ratingIn finals u = current := by simp [ratingIn, hcurrent]
    have hgames := hchain.gamesPlayed
    have hpeak := (hpre.chain u).peak (le_refl INITIAL_RATING)
    rw [hfinal] at hgames
    simp only [hcurrent, baselineAtWindowStart, hchain.head]
    congr 1
    have hinitial : ratingIn .empty u = Rating.initial := rfl
    rw [hinitial] at hpeak
    rw [← hpeak, hgames, Int.add_sub_cancel]

theorem baselinesAtWindowStart_played {curve : EloCurve}
    {start finals : InsertionMap UserId Rating} {pre window : List WindowGame}
    {preRows windowRows : List StoredWindowRow} (hpre : Played curve .empty pre preRows start)
    (hwindow : Played curve start window windowRows finals) (users : List UserId) :
    ∃ baselines, baselinesAtWindowStart finals windowRows preRows users = .ok baselines ∧
      Restricts users start baselines := by
  have hentries : users.mapM (fun userId => do
      let baseline ← baselineAtWindowStart (finals.get userId) (stepsOf userId windowRows)
        (stepsOf userId preRows)
      return (userId, baseline)) =
        .ok (users.map (fun userId => (userId, ratingIn start userId))) := by
    induction users with
    | nil => rfl
    | cons user users ih =>
      rw [List.mapM_cons, ih, baselineAtWindowStart_played hpre hwindow]
      rfl
  refine ⟨.ofList (users.map (fun userId => (userId, ratingIn start userId))), ?_, ?_⟩
  · simp only [baselinesAtWindowStart, hentries]
    rfl
  · intro u
    exact InsertionMap.get_ofList_map _ users u

/-- Round trip of a replay window. Whatever the rating curve and wherever a list of valid games
is split, the baselines rebuilt from the finals and the history are the ratings the prefix
leaves, and replaying the window from them gives back the window's rows and finals. -/
theorem replayRatingWindow_roundtrip (curve : EloCurve) (pre window : List WindowGame)
    (users : List UserId) (hvalid : ∀ game ∈ pre ++ window, validateWindowGame game = none)
    (hcover : ∀ game ∈ window, ∀ player ∈ game.players, player.userId ∈ users) :
    ∃ preRows start windowRows finals,
      replayRatingWindow curve .empty pre = .ok { rows := preRows, state := start } ∧
      replayRatingWindow curve .empty (pre ++ window) =
        .ok { rows := preRows ++ windowRows, state := finals } ∧
      (∀ u, baselineAtWindowStart (finals.get u) (stepsOf u windowRows) (stepsOf u preRows) =
        .ok (ratingIn start u)) ∧
      ∃ baselines finals',
        baselinesAtWindowStart finals windowRows preRows users = .ok baselines ∧
        replayRatingWindow curve baselines window = .ok { rows := windowRows, state := finals' } ∧
        ∀ u, finals'.get u = if u ∈ users then some (ratingIn finals u) else none := by
  have hrated : ∀ games : List WindowGame, (∀ game ∈ games, validateWindowGame game = none) →
      ∀ game ∈ games.filter WindowGame.rated, validateWindowGame game = none := by
    intro games h game hg
    exact h game (List.mem_of_mem_filter hg)
  obtain ⟨preRows, start, hpre⟩ := Played.exists_of_valid curve _ .empty
    (hrated pre (fun game hg => hvalid game (List.mem_append_left _ hg)))
  obtain ⟨windowRows, finals, hwindow⟩ := Played.exists_of_valid curve _ start
    (hrated window (fun game hg => hvalid game (List.mem_append_right _ hg)))
  obtain ⟨baselines, hbaselines, hrestricts⟩ := baselinesAtWindowStart_played hpre hwindow users
  obtain ⟨finals', hplayed, hfinals⟩ := hwindow.restrict hrestricts
    (fun game hg => hcover game (List.mem_of_mem_filter hg))
  refine ⟨preRows, start, windowRows, finals, hpre.foldlM_eq [], ?_,
    baselineAtWindowStart_played hpre hwindow, baselines, finals', hbaselines,
    hplayed.foldlM_eq [], hfinals⟩
  unfold replayRatingWindow
  rw [List.filter_append]
  exact (hpre.append hwindow).foldlM_eq []

/-- A duel before the window and a return match inside it. -/
theorem replayRatingWindow_roundtrip_return_match :
    ∃ preRows start windowRows finals,
      replayRatingWindow (fun k won _ _ => if won then k / 2 else -(k / 2)) .empty
        [⟨"g1", [⟨"ana", true⟩, ⟨"ben", false⟩], true⟩] =
        .ok { rows := preRows, state := start } ∧
      replayRatingWindow (fun k won _ _ => if won then k / 2 else -(k / 2)) .empty
        ([⟨"g1", [⟨"ana", true⟩, ⟨"ben", false⟩], true⟩] ++
          [⟨"g2", [⟨"ben", true⟩, ⟨"ana", false⟩], true⟩]) =
        .ok { rows := preRows ++ windowRows, state := finals } ∧
      (∀ u, baselineAtWindowStart (finals.get u) (stepsOf u windowRows) (stepsOf u preRows) =
        .ok (ratingIn start u)) ∧
      ∃ baselines finals',
        baselinesAtWindowStart finals windowRows preRows ["ana", "ben"] = .ok baselines ∧
        replayRatingWindow (fun k won _ _ => if won then k / 2 else -(k / 2)) baselines
          [⟨"g2", [⟨"ben", true⟩, ⟨"ana", false⟩], true⟩] =
          .ok { rows := windowRows, state := finals' } ∧
        ∀ u, finals'.get u = if u ∈ ["ana", "ben"] then some (ratingIn finals u) else none :=
  replayRatingWindow_roundtrip _ [⟨"g1", [⟨"ana", true⟩, ⟨"ben", false⟩], true⟩]
    [⟨"g2", [⟨"ben", true⟩, ⟨"ana", false⟩], true⟩] ["ana", "ben"] (by decide) (by decide)

end EdoproServer.Stats
