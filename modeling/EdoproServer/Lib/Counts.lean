import EdoproServer.Lib.Grouping

namespace EdoproServer.Lib

universe u

variable {α : Type u} [DecidableEq α]

/-- How often each element occurs, in the order of the first occurrences. -/
def counts (xs : List α) : InsertionMap α Nat :=
  InsertionMap.gather id (fun _ => 0) (fun n _ => n + 1) xs

/-- Each count of the first list is that of the second. -/
def countsAgree (xs ys : List α) : Bool :=
  (counts xs).entries.all (fun entry => (counts ys).get entry.1 = some entry.2)

section Counting

variable {xs ys : List α} {x : α}

omit [DecidableEq α] in
theorem foldl_count (n : Nat) (xs : List α) :
    xs.foldl (fun n _ => n + 1) n = n + xs.length := by
  induction xs generalizing n with
  | nil => rfl
  | cons _ xs ih =>
    rw [List.foldl_cons, ih, List.length_cons]
    omega

theorem get_counts : (counts xs).get x = if x ∈ xs then some (xs.count x) else none := by
  have hoccurrences : xs.filter (fun y => id y = x) = List.replicate (xs.count x) x := by
    simpa using List.filter_eq x
  unfold counts
  rw [InsertionMap.get_gather, hoccurrences]
  by_cases hin : x ∈ xs
  · obtain ⟨n, hn⟩ := Nat.exists_eq_succ_of_ne_zero (List.count_pos_iff.mpr hin).ne'
    rw [if_pos hin, hn, List.replicate_succ, List.head?_cons, Option.map_some, ← hn]
    rw [foldl_count]
    simp [hn]
  · rw [if_neg hin, List.count_eq_zero.mpr hin]
    rfl

theorem mem_entries_counts {n : Nat} :
    (x, n) ∈ (counts xs).entries ↔ x ∈ xs ∧ n = xs.count x := by
  rw [← InsertionMap.get_eq_some, get_counts]
  by_cases hin : x ∈ xs <;> simp [hin, eq_comm]

theorem keys_counts_perm (xs : List α) : (counts xs).keys.Perm xs.dedup := by
  rw [List.perm_ext_iff_of_nodup (InsertionMap.keys_nodup _) xs.nodup_dedup]
  intro x
  rw [List.mem_dedup, InsertionMap.mem_keys, get_counts]
  by_cases hin : x ∈ xs <;> simp [hin]

theorem size_counts : (counts xs).size = xs.dedup.length := by
  have hkeys := (keys_counts_perm xs).length_eq
  simpa [InsertionMap.keys, InsertionMap.size] using hkeys

theorem countsAgree_iff :
    countsAgree xs ys = true ↔ ∀ x ∈ xs, ys.count x = xs.count x := by
  simp only [countsAgree, List.all_eq_true, decide_eq_true_eq, Prod.forall, mem_entries_counts]
  constructor
  · intro hall x hin
    have hget := hall x _ ⟨hin, rfl⟩
    rw [get_counts] at hget
    split at hget
    · exact Option.some.inj hget
    · cases hget
  · rintro hall x n ⟨hin, rfl⟩
    have hsame := hall x hin
    have hin' : x ∈ ys := List.count_pos_iff.mp (hsame ▸ List.count_pos_iff.mpr hin)
    rw [get_counts, if_pos hin', hsame]

theorem countsAgree_of_perm (h : xs.Perm ys) : countsAgree xs ys = true :=
  countsAgree_iff.mpr (fun x _ => (h.count_eq x).symm)

/-- Of two lists of one length the second has no room for anything but the first. -/
theorem perm_of_countsAgree_of_length (hagree : countsAgree xs ys = true)
    (hlength : xs.length = ys.length) : xs.Perm ys := by
  have hcounts := countsAgree_iff.mp hagree
  have hsub : List.Subperm xs ys := by
    apply List.subperm_ext_iff.mpr
    intro x hin
    rw [hcounts x hin]
  exact hsub.perm_of_length_le hlength.ge

/-- With as many distinct elements the second has no element of its own. -/
theorem perm_of_countsAgree_of_size (hagree : countsAgree xs ys = true)
    (hsize : (counts xs).size = (counts ys).size) : xs.Perm ys := by
  have hcounts := countsAgree_iff.mp hagree
  rw [size_counts, size_counts] at hsize
  have hsub : xs.dedup ⊆ ys.dedup := by
    intro x hin
    have hx := List.mem_dedup.mp hin
    exact List.mem_dedup.mpr
      (List.count_pos_iff.mp (hcounts x hx ▸ List.count_pos_iff.mpr hx))
  have hsame : xs.dedup.Perm ys.dedup :=
    (List.subperm_of_subset xs.nodup_dedup hsub).perm_of_length_le hsize.ge
  rw [List.perm_iff_count]
  intro x
  by_cases hin : x ∈ xs
  · exact (hcounts x hin).symm
  · have hin' : x ∉ ys := by
      intro hy
      exact hin (List.mem_dedup.mp (hsame.mem_iff.mpr (List.mem_dedup.mpr hy)))
    rw [List.count_eq_zero.mpr hin, List.count_eq_zero.mpr hin']

theorem perm_iff_countsAgree_and_length :
    xs.Perm ys ↔ xs.length = ys.length ∧ countsAgree xs ys = true :=
  ⟨fun h => ⟨h.length_eq, countsAgree_of_perm h⟩,
    fun h => perm_of_countsAgree_of_length h.2 h.1⟩

theorem perm_iff_countsAgree_and_size :
    xs.Perm ys ↔ (counts xs).size = (counts ys).size ∧ countsAgree xs ys = true := by
  constructor
  · intro h
    refine ⟨?_, countsAgree_of_perm h⟩
    rw [size_counts, size_counts]
    exact h.dedup.length_eq
  · intro h
    exact perm_of_countsAgree_of_size h.2 h.1

end Counting

end EdoproServer.Lib
