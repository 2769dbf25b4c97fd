import EdoproServer.Stats.Replay
import EdoproServer.Lib.Grouping

namespace EdoproServer.Stats
open Lib

/-! ## The comparison of a replay with what is stored -/

structure ReplayMismatch where
  gameId : String
  userId : UserId
  stored : StoredWindowRow
  replayed : Option StoredWindowRow
  deriving DecidableEq, Repr

structure RatingMismatch where
  userId : UserId
  stored : Option Rating
  replayed : Option Rating
  deriving DecidableEq, Repr

def rowKey (row : StoredWindowRow) : String := row.gameId ++ ":" ++ row.userId

/-- The four numbers of two rows. -/
def sameRow (left right : StoredWindowRow) : Bool :=
  left.previousRating = right.previousRating && left.delta = right.delta &&
    left.kFactor = right.kFactor && left.opponentRating = right.opponentRating

/-- Stored rows the replay does not reproduce field for field. -/
def compareReplayWithStored (stored replayed : List StoredWindowRow) : List ReplayMismatch :=
  let replayedByKey := InsertionMap.ofList (replayed.map (fun row => (rowKey row, row)))
  ((stored.map (fun row => (row, replayedByKey.get (rowKey row)))).filter
    (fun compared => compared.2.all (fun found => !sameRow compared.1 found))).map
      (fun compared =>
        { gameId := compared.1.gameId
          userId := compared.1.userId
          stored := compared.1
          replayed := compared.2 })

/-- The rows of each user. -/
def windowByUser (windowHistory : List StoredWindowRow) :
    InsertionMap UserId (List StoredWindowRow) :=
  InsertionMap.gather StoredWindowRow.userId (fun _ => []) (fun rows row => rows ++ [row])
    windowHistory

structure SelfCheck where
  rowMismatches : List ReplayMismatch
  ratingMismatches : List RatingMismatch

/-- Replaying only what is stored must reproduce it exactly. -/
def selfCheck (windowHistory : List StoredWindowRow) (current : InsertionMap UserId Rating)
    (storedOnly : Replay) : SelfCheck :=
  { rowMismatches := compareReplayWithStored windowHistory storedOnly.rows
    ratingMismatches :=
      ((windowByUser windowHistory).keys.map (fun userId =>
        { userId := userId
          stored := current.get userId
          replayed := storedOnly.state.get userId : RatingMismatch })).filter
            (fun compared => compared.stored ≠ compared.replayed) }

/-- Nothing is written unless nothing was reported. -/
def SelfCheck.passes (check : SelfCheck) : Bool :=
  check.rowMismatches.isEmpty && check.ratingMismatches.isEmpty

/-! ## What a clean check means -/

/-- Every stored row finds under its key a replayed row with its numbers, the last of that key, and
every user with stored rows ends at its stored rating. -/
structure Reproduces (windowHistory : List StoredWindowRow) (current : InsertionMap UserId Rating)
    (storedOnly : Replay) : Prop where
  rows : ∀ row ∈ windowHistory, ∃ found,
    (storedOnly.rows.filter (fun replayed => rowKey replayed = rowKey row)).getLast? = some found ∧
      sameRow row found = true
  ratings : ∀ row ∈ windowHistory, current.get row.userId = storedOnly.state.get row.userId

/-- The replay is what is stored, rows and ratings alike. -/
structure ReplaysExactly (windowHistory : List StoredWindowRow)
    (current : InsertionMap UserId Rating) (storedOnly : Replay) : Prop where
  rows : ∀ row, row ∈ windowHistory ↔ row ∈ storedOnly.rows
  ratings : ∀ userId, storedOnly.state.get userId = current.get userId

/-- Stored and replayed rows are about the same users in the same games, and no other user ends
anywhere but at its stored rating. -/
structure SameGround (windowHistory : List StoredWindowRow) (current : InsertionMap UserId Rating)
    (storedOnly : Replay) : Prop where
  replayedIsStored : ∀ replayed ∈ storedOnly.rows, ∃ row ∈ windowHistory,
    row.gameId = replayed.gameId ∧ row.userId = replayed.userId
  storedIsReplayed : ∀ row ∈ windowHistory, ∃ replayed ∈ storedOnly.rows,
    replayed.gameId = row.gameId ∧ replayed.userId = row.userId
  alike : ∀ replayed ∈ storedOnly.rows, ∀ other ∈ storedOnly.rows,
    rowKey replayed = rowKey other → sameRow replayed other = true
  moved : ∀ userId, storedOnly.state.get userId ≠ current.get userId →
    ∃ row ∈ windowHistory, row.userId = userId

section Comparison

variable {left right third : StoredWindowRow} {stored replayed windowHistory : List StoredWindowRow}
  {current : InsertionMap UserId Rating} {storedOnly : Replay}

theorem sameRow_iff :
    sameRow left right = true ↔
      left.previousRating = right.previousRating ∧ left.delta = right.delta ∧
        left.kFactor = right.kFactor ∧ left.opponentRating = right.opponentRating := by
  simp only [sameRow, Bool.and_eq_true, decide_eq_true_eq, and_assoc]

theorem sameRow_symm (h : sameRow left right = true) : sameRow right left = true := by
  obtain ⟨hprevious, hdelta, hk, hopponent⟩ := sameRow_iff.mp h
  exact sameRow_iff.mpr ⟨hprevious.symm, hdelta.symm, hk.symm, hopponent.symm⟩

theorem sameRow_trans (h : sameRow left right = true) (h' : sameRow right third = true) :
    sameRow left third = true := by
  obtain ⟨hprevious, hdelta, hk, hopponent⟩ := sameRow_iff.mp h
  obtain ⟨hprevious', hdelta', hk', hopponent'⟩ := sameRow_iff.mp h'
  exact sameRow_iff.mpr ⟨hprevious.trans hprevious', hdelta.trans hdelta', hk.trans hk',
    hopponent.trans hopponent'⟩

/-- A row is its game, its user and its four numbers. -/
theorem eq_of_sameRow (hgame : left.gameId = right.gameId) (huser : left.userId = right.userId)
    (h : sameRow left right = true) : left = right := by
  obtain ⟨hprevious, hdelta, hk, hopponent⟩ := sameRow_iff.mp h
  cases left
  cases right
  simp_all

theorem rowKey_eq (hgame : left.gameId = right.gameId) (huser : left.userId = right.userId) :
    rowKey left = rowKey right := by
  rw [rowKey, rowKey, hgame, huser]

theorem compareReplayWithStored_isEmpty :
    (compareReplayWithStored stored replayed).isEmpty = true ↔
      ∀ row ∈ stored, ∃ found,
        (replayed.filter (fun r => rowKey r = rowKey row)).getLast? = some found ∧
          sameRow row found = true := by
  simp only [compareReplayWithStored, List.isEmpty_iff, List.map_eq_nil_iff,
    List.filter_eq_nil_iff, List.forall_mem_map, InsertionMap.get_ofList_keyed]
  refine forall₂_congr (fun row _ => ?_)
  cases (replayed.filter (fun r => rowKey r = rowKey row)).getLast? with
  | none => simp
  | some found => simp

theorem mem_keys_windowByUser {userId : UserId} :
    userId ∈ (windowByUser windowHistory).keys ↔ ∃ row ∈ windowHistory, row.userId = userId :=
  InsertionMap.mem_keys_gather

theorem passes_iff :
    (selfCheck windowHistory current storedOnly).passes = true ↔
      Reproduces windowHistory current storedOnly := by
  have hratings : (selfCheck windowHistory current storedOnly).ratingMismatches.isEmpty = true ↔
      ∀ row ∈ windowHistory, current.get row.userId = storedOnly.state.get row.userId := by
    simp only [selfCheck, List.isEmpty_iff, List.filter_eq_nil_iff, List.forall_mem_map,
      mem_keys_windowByUser, decide_eq_true_eq, not_not]
    constructor
    · intro hall row hin
      exact hall row.userId ⟨row, hin, rfl⟩
    · intro hall userId hseen
      obtain ⟨row, hin, huser⟩ := hseen
      exact huser ▸ hall row hin
  rw [SelfCheck.passes, Bool.and_eq_true, hratings]
  constructor
  · intro h
    obtain ⟨hrows, hsame⟩ := h
    exact ⟨compareReplayWithStored_isEmpty.mp hrows, hsame⟩
  · intro h
    exact ⟨compareReplayWithStored_isEmpty.mpr h.rows, h.ratings⟩

/-- The row a stored row was compared with. -/
theorem found_of_reproduces (h : Reproduces windowHistory current storedOnly)
    (hin : left ∈ windowHistory) :
    ∃ found ∈ storedOnly.rows, rowKey found = rowKey left ∧ sameRow left found = true := by
  obtain ⟨found, hlast, hsame⟩ := h.rows left hin
  obtain ⟨hreplayed, hkey⟩ := List.mem_filter.mp (List.mem_of_getLast? hlast)
  exact ⟨found, hreplayed, by simpa using hkey, hsame⟩

/-- A stored and a replayed row of one user in one game are the same row. -/
theorem eq_of_same_ids (h : Reproduces windowHistory current storedOnly)
    (halike : ∀ replayed ∈ storedOnly.rows, ∀ other ∈ storedOnly.rows,
      rowKey replayed = rowKey other → sameRow replayed other = true)
    (hstored : left ∈ windowHistory) (hreplayed : right ∈ storedOnly.rows)
    (hgame : left.gameId = right.gameId) (huser : left.userId = right.userId) : left = right := by
  obtain ⟨found, hfound, hkey, hsame⟩ := found_of_reproduces h hstored
  have hkeys : rowKey found = rowKey right := hkey.trans (rowKey_eq hgame huser)
  exact eq_of_sameRow hgame huser (sameRow_trans hsame (halike found hfound right hreplayed hkeys))

theorem replaysExactly_iff (h : Reproduces windowHistory current storedOnly) :
    ReplaysExactly windowHistory current storedOnly ↔
      SameGround windowHistory current storedOnly := by
  constructor
  · intro hexact
    refine ⟨fun replayed hin => ⟨replayed, (hexact.rows replayed).mpr hin, rfl, rfl⟩,
      fun row hin => ⟨row, (hexact.rows row).mp hin, rfl, rfl⟩, ?_, ?_⟩
    · intro replayed hin other hin' hkey
      obtain ⟨found, hlast, hsame⟩ := h.rows replayed ((hexact.rows replayed).mpr hin)
      obtain ⟨found', hlast', hsame'⟩ := h.rows other ((hexact.rows other).mpr hin')
      rw [hkey, hlast'] at hlast
      obtain rfl := Option.some.inj hlast
      exact sameRow_trans hsame (sameRow_symm hsame')
    · intro userId hmoved
      exact absurd (hexact.ratings userId) hmoved
  · intro hground
    refine ⟨fun row => ⟨?_, ?_⟩, ?_⟩
    · intro hstored
      obtain ⟨replayed, hreplayed, hgame, huser⟩ := hground.storedIsReplayed row hstored
      exact eq_of_same_ids h hground.alike hstored hreplayed hgame.symm huser.symm ▸ hreplayed
    · intro hreplayed
      obtain ⟨stored, hstored, hgame, huser⟩ := hground.replayedIsStored row hreplayed
      exact eq_of_same_ids h hground.alike hstored hreplayed hgame huser ▸ hstored
    · intro userId
      by_contra hmoved
      obtain ⟨row, hin, rfl⟩ := hground.moved userId hmoved
      exact hmoved (h.ratings row hin).symm

end Comparison

/-- A check that reports nothing proves the replay exact just when it reports what differs of the
stored rows, or the replay covers the users of the stored games and moves no one else. -/
theorem self_check_complete (windowHistory : List StoredWindowRow)
    (current : InsertionMap UserId Rating) (storedOnly : Replay) :
    ((selfCheck windowHistory current storedOnly).passes = true →
        ReplaysExactly windowHistory current storedOnly) ↔
      ¬ Reproduces windowHistory current storedOnly ∨
        SameGround windowHistory current storedOnly := by
  rw [passes_iff]
  by_cases h : Reproduces windowHistory current storedOnly
  · simp only [h, forall_const, not_true_eq_false, false_or]
    exact replaysExactly_iff h
  · exact iff_of_true (fun hreproduces => absurd hreproduces h) (Or.inl h)

/-- The row of the winner of a first game between two newcomers. -/
def winnerRow : StoredWindowRow := ⟨"g1", "u1", 1000, 20, 40, 1000⟩

/-- The replay of that game, with the row of the loser. -/
def bothReplayed : Replay :=
  { rows := [winnerRow, ⟨"g1", "u2", 1000, -20, 40, 1000⟩]
    state := .ofList [("u1", ⟨1020, 1, 1020⟩), ("u2", ⟨980, 1, 1000⟩)] }

/-- The row of the loser is missing in the store, and its rating was never moved. -/
theorem self_check_incomplete :
    ¬ ∀ (windowHistory : List StoredWindowRow) (current : InsertionMap UserId Rating)
        (storedOnly : Replay), (selfCheck windowHistory current storedOnly).passes = true →
          ReplaysExactly windowHistory current storedOnly := by
  intro hall
  have hexact := hall [winnerRow]
    (.ofList [("u1", ⟨1020, 1, 1020⟩), ("u2", ⟨1000, 0, 1000⟩)]) bothReplayed
    (by decide)
  exact absurd ((hexact.rows ⟨"g1", "u2", 1000, -20, 40, 1000⟩).mpr (by decide)) (by decide)

end EdoproServer.Stats
