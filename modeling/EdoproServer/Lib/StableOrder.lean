import Mathlib.Data.List.Sort

namespace EdoproServer.Lib

universe u v

/-! ## Lists of one element at most -/

theorem eq_singleton_of_length_le_one {α : Type u} {l : List α} {a : α} (hl : l.length ≤ 1)
    (ha : a ∈ l) : l = [a] := by
  have hone : l.length = 1 := by
    have hpos := List.length_pos_of_mem ha
    omega
  obtain ⟨b, rfl⟩ := List.length_eq_one_iff.mp hone
  rw [List.mem_singleton.mp ha]

theorem eq_of_perm_of_length_le_one {α : Type u} {l l' : List α} (hl : l.length ≤ 1)
    (h : l'.Perm l) : l' = l := by
  cases l with
  | nil => exact h.eq_nil
  | cons a rest =>
    rw [eq_singleton_of_length_le_one hl List.mem_cons_self] at h ⊢
    exact List.perm_singleton.mp h

/-! ## Lists in the order of a key -/

section Order

variable {α : Type u} {κ : Type v} [LinearOrder κ] (key : α → κ)

/-- `a` goes before `b`: its key is smaller, or the keys are equal and it stands before `b`. -/
def Precedes (l : List α) (a b : α) : Prop :=
  key a < key b ∨ key a = key b ∧ [a, b].Sublist l

/-- The elements of a list by their keys, ties in the order of the list. -/
structure StableOrder (l ordered : List α) : Prop where
  perm : ordered.Perm l
  sorted : ordered.Pairwise (Precedes key l)

theorem pair_sublist_or {l : List α} {a b : α} (ha : a ∈ l) (hb : b ∈ l) (hne : a ≠ b) :
    [a, b].Sublist l ∨ [b, a].Sublist l := by
  induction l with
  | nil => cases ha
  | cons c l ih =>
    rcases List.mem_cons.mp ha with rfl | ha'
    · rcases List.mem_cons.mp hb with rfl | hb'
      · exact absurd rfl hne
      · exact Or.inl ((List.singleton_sublist.mpr hb').cons_cons a)
    · rcases List.mem_cons.mp hb with rfl | hb'
      · exact Or.inr ((List.singleton_sublist.mpr ha').cons_cons b)
      · rcases ih ha' hb' with hab | hba
        · exact Or.inl (hab.cons c)
        · exact Or.inr (hba.cons c)

theorem not_pair_sublist_swap {l : List α} {a b : α} (hl : l.Nodup) (h : [a, b].Sublist l) :
    ¬ [b, a].Sublist l := by
  induction l with
  | nil => cases h
  | cons c l ih =>
    obtain ⟨hnot, hrest⟩ := List.nodup_cons.mp hl
    intro hswap
    cases h with
    | cons _ h =>
      cases hswap with
      | cons _ hswap => exact ih hrest h hswap
      | cons_cons _ hswap => exact hnot (h.subset (by simp))
    | cons_cons _ h =>
      cases hswap with
      | cons _ hswap => exact hnot (hswap.subset (by simp))
      | cons_cons _ hswap => exact hnot (List.singleton_sublist.mp hswap)

/-- Whoever joins at the end goes before the others by its key alone. -/
theorem precedes_joined {before joined : List α} (hl : (before ++ joined).Nodup) {a b : α}
    (ha : a ∈ before) (hb : b ∈ joined) :
    (Precedes key (before ++ joined) b a ↔ key b < key a) ∧
      (Precedes key (before ++ joined) a b ↔ key a ≤ key b) := by
  have hab : [a, b].Sublist (before ++ joined) :=
    (List.singleton_sublist.mpr ha).append (List.singleton_sublist.mpr hb)
  have hba := not_pair_sublist_swap hl hab
  constructor
  · constructor
    · intro h
      rcases h with hlt | ⟨_, hswap⟩
      · exact hlt
      · exact absurd hswap hba
    · exact fun hlt => Or.inl hlt
  · rw [le_iff_lt_or_eq]
    constructor
    · intro h
      exact h.imp id And.left
    · intro h
      exact h.imp id (fun he => ⟨he, hab⟩)

/-- Insertion by keys is stable. -/
theorem stableOrder_insertionSort {l : List α} (hl : l.Nodup) :
    StableOrder key l (l.insertionSort (fun a b => key a ≤ key b)) := by
  have hperm := List.perm_insertionSort (fun a b => key a ≤ key b) l
  have hnodup := hperm.nodup_iff.mpr hl
  have hsorted : (l.insertionSort (fun a b => key a ≤ key b)).Pairwise
      (fun a b => key a ≤ key b) := by
    have : Std.Total (fun a b : α => key a ≤ key b) := ⟨fun a b => le_total _ _⟩
    have : IsTrans α (fun a b => key a ≤ key b) := ⟨fun _ _ _ => le_trans⟩
    exact List.pairwise_insertionSort _ l
  refine ⟨hperm, List.pairwise_iff_forall_sublist.mpr ?_⟩
  intro a b hab
  have hle : key a ≤ key b := List.pairwise_iff_forall_sublist.mp hsorted hab
  rcases lt_or_eq_of_le hle with hlt | heq
  · exact Or.inl hlt
  · refine Or.inr ⟨heq, ?_⟩
    have hne : a ≠ b := by
      have hdistinct := hab.nodup hnodup
      simpa using hdistinct
    have ha : a ∈ l := hperm.mem_iff.mp (hab.subset (by simp))
    have hb : b ∈ l := hperm.mem_iff.mp (hab.subset (by simp))
    rcases pair_sublist_or ha hb hne with hstays | hswap
    · exact hstays
    · exact absurd hab (not_pair_sublist_swap hnodup
        (List.pair_sublist_insertionSort heq.ge hswap))

end Order

/-! ## Two at a time -/

section Pairs

variable {α : Type u}

/-- The elements two by two; an odd one is left out. -/
def pairsOf : List α → List (List α)
  | a :: b :: rest => [a, b] :: pairsOf rest
  | _ => []

theorem flatten_pairsOf (l : List α) : (pairsOf l).flatten = l.take (2 * (l.length / 2)) := by
  induction l using pairsOf.induct with
  | case1 a b rest ih =>
    have hlength : 2 * ((a :: b :: rest).length / 2) = 2 * (rest.length / 2) + 1 + 1 := by
      simp only [List.length_cons]
      omega
    rw [hlength]
    simp [pairsOf, ih]
  | case2 l hshort =>
    match l, hshort with
    | [], _ => simp [pairsOf]
    | [_], _ => simp [pairsOf]
    | a :: b :: rest, hshort => exact absurd rfl (hshort a b rest)

/-- The one that is left out makes no difference. -/
theorem pairsOf_take (l : List α) : pairsOf (l.take (2 * (l.length / 2))) = pairsOf l := by
  induction l using pairsOf.induct with
  | case1 a b rest ih =>
    have hlength : 2 * ((a :: b :: rest).length / 2) = 2 * (rest.length / 2) + 1 + 1 := by
      simp only [List.length_cons]
      omega
    rw [hlength]
    simp [pairsOf, ih]
  | case2 l hshort =>
    match l, hshort with
    | [], _ => simp [pairsOf]
    | [_], _ => simp [pairsOf]
    | a :: b :: rest, hshort => exact absurd rfl (hshort a b rest)

end Pairs

end EdoproServer.Lib
