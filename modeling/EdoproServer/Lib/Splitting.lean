import Mathlib.Data.List.Basic
import Mathlib.Tactic

/-! Splitting a text on a separator of several letters, from left to right without overlap. A
text joined from pieces splits into them again when a letter of the separator is in no piece. -/

namespace EdoproServer.Lib.Splitting

variable {α : Type*}

/-- A letter of a joined text is one of a piece or of the separator. -/
theorem mem_intercalate {sep : List α} {pieces : List (List α)} {letter : α}
    (h : letter ∈ List.intercalate sep pieces) :
    letter ∈ sep ∨ ∃ piece ∈ pieces, letter ∈ piece := by
  induction pieces with
  | nil => cases h
  | cons piece rest ih =>
    cases rest with
    | nil =>
      rw [List.intercalate_singleton] at h
      exact Or.inr ⟨piece, List.mem_cons_self, h⟩
    | cons next rest =>
      rw [List.intercalate_cons_cons] at h
      rcases List.mem_append.mp h with hleft | hright
      · rcases List.mem_append.mp hleft with hpiece | hsep
        · exact Or.inr ⟨piece, List.mem_cons_self, hpiece⟩
        · exact Or.inl hsep
      · rcases ih hright with hsep | ⟨other, hother, hmem⟩
        · exact Or.inl hsep
        · exact Or.inr ⟨other, List.mem_cons_of_mem _ hother, hmem⟩

variable [DecidableEq α]

/-- What is left to split, with the letters of the separator still to pass over and the piece
read so far. -/
def splitFrom (sep : List α) : Nat → List α → List α → List (List α)
  | _, piece, [] => [piece]
  | skip + 1, piece, _ :: rest => splitFrom sep skip piece rest
  | 0, piece, letter :: rest =>
    if sep.isPrefixOf (letter :: rest) then piece :: splitFrom sep (sep.length - 1) [] rest
    else splitFrom sep 0 (piece ++ [letter]) rest

def splitOn (sep text : List α) : List (List α) := splitFrom sep 0 [] text

variable {before after : List α} {mark : α}

/-- Without the mark there is no separator. -/
theorem splitFrom_of_not_mem {piece text : List α} (h : mark ∉ text) :
    splitFrom (before ++ mark :: after) 0 piece text = [piece ++ text] := by
  induction text generalizing piece with
  | nil => rw [splitFrom, List.append_nil]
  | cons letter rest ih =>
    have hno : (before ++ mark :: after).isPrefixOf (letter :: rest) = false := by
      rw [Bool.eq_false_iff]
      intro hpre
      exact h ((List.isPrefixOf_iff_prefix.mp hpre).subset (by simp))
    rw [splitFrom, hno, if_neg Bool.false_ne_true,
      ih (fun hrest => h (List.mem_cons_of_mem _ hrest)), List.append_assoc,
      List.singleton_append]

theorem splitFrom_skip {sep skipped rest piece : List α} :
    splitFrom sep skipped.length piece (skipped ++ rest) = splitFrom sep 0 piece rest := by
  induction skipped with
  | nil => rfl
  | cons letter skipped ih => rw [List.length_cons, List.cons_append, splitFrom, ih]

/-- The first separator is found where the mark first stands. -/
theorem splitFrom_append {piece text rest : List α} (hbefore : mark ∉ before) (h : mark ∉ text) :
    splitFrom (before ++ mark :: after) 0 piece (text ++ (before ++ mark :: after) ++ rest) =
      (piece ++ text) :: splitFrom (before ++ mark :: after) 0 [] rest := by
  induction text generalizing piece with
  | nil =>
    rw [List.nil_append, List.append_nil]
    cases hsep : before ++ mark :: after with
    | nil => exact absurd hsep (by simp)
    | cons letter others =>
      have hpre : (letter :: others).isPrefixOf (letter :: others ++ rest) = true :=
        List.isPrefixOf_iff_prefix.mpr (List.prefix_append _ _)
      rw [List.cons_append] at hpre
      rw [List.cons_append, splitFrom, if_pos hpre, List.length_cons, Nat.add_sub_cancel,
        splitFrom_skip]
  | cons letter text ih =>
    obtain ⟨hne, hrest⟩ := not_or.mp (fun hor => h (List.mem_cons.mpr hor))
    -- a separator here would put the mark among the letters before the next one
    have hno : (before ++ mark :: after).isPrefixOf
        (letter :: (text ++ (before ++ mark :: after) ++ rest)) = false := by
      rw [Bool.eq_false_iff]
      intro hpre
      have hpre' := List.isPrefixOf_iff_prefix.mp hpre
      have hat : (letter :: (text ++ (before ++ mark :: after) ++ rest))[before.length]? =
          some mark := by
        have hget := List.prefix_iff_getElem?.mp hpre' before.length (by simp)
        simpa using hget
      have hleft : letter :: (text ++ (before ++ mark :: after) ++ rest) =
          (letter :: text ++ before) ++ (mark :: after ++ rest) := by simp
      rw [hleft, List.getElem?_append_left (by simp)] at hat
      rcases List.mem_append.mp (List.mem_of_getElem? hat) with hmem | hmem
      · exact h hmem
      · exact hbefore hmem
    rw [List.cons_append, List.cons_append, splitFrom, hno, if_neg Bool.false_ne_true, ih hrest,
      List.append_assoc, List.singleton_append]

/-- Pieces without the mark come back from the joined text. -/
theorem splitOn_intercalate (before : List α) (mark : α) (after : List α)
    {pieces : List (List α)} (hbefore : mark ∉ before)
    (hpieces : ∀ piece ∈ pieces, mark ∉ piece) (hsome : pieces ≠ []) :
    splitOn (before ++ mark :: after) (List.intercalate (before ++ mark :: after) pieces) =
      pieces := by
  induction pieces with
  | nil => exact absurd rfl hsome
  | cons piece rest ih =>
    have hpiece := hpieces piece List.mem_cons_self
    cases rest with
    | nil =>
      rw [List.intercalate_singleton, splitOn, splitFrom_of_not_mem hpiece, List.nil_append]
    | cons next rest =>
      rw [List.intercalate_cons_cons, splitOn, splitFrom_append hbefore hpiece, List.nil_append]
      congr 1
      exact ih (fun other hother => hpieces other (List.mem_cons_of_mem _ hother)) (by simp)

/-- Nothing is the join of no pieces and of one empty piece. -/
theorem splitOn_nil (sep : List α) : splitOn sep [] = [[]] := rfl

end EdoproServer.Lib.Splitting
