import Mathlib

namespace EdoproServer.Lib

universe u v

/-- A finite map that keeps its keys in the order they were first inserted.
Two entries never share a key, so a lookup and a membership say the same. -/
structure InsertionMap (κ : Type u) (ν : Type v) where
  entries : List (κ × ν)
  distinct : (entries.map Prod.fst).Nodup

namespace InsertionMap

variable {κ : Type u} {ν : Type v}

@[ext] theorem ext {m m' : InsertionMap κ ν} (h : m.entries = m'.entries) : m = m' := by
  cases m
  cases m'
  cases h
  rfl

def empty : InsertionMap κ ν := ⟨[], List.nodup_nil⟩

def keys (m : InsertionMap κ ν) : List κ := m.entries.map Prod.fst

def values (m : InsertionMap κ ν) : List ν := m.entries.map Prod.snd

def size (m : InsertionMap κ ν) : Nat := m.entries.length

@[simp] theorem entries_empty : (empty : InsertionMap κ ν).entries = [] := rfl
@[simp] theorem keys_empty : (empty : InsertionMap κ ν).keys = [] := rfl
@[simp] theorem values_empty : (empty : InsertionMap κ ν).values = [] := rfl
@[simp] theorem length_values (m : InsertionMap κ ν) : m.values.length = m.size := by
  simp [values, size]

theorem mem_values {m : InsertionMap κ ν} {x : ν} :
    x ∈ m.values ↔ ∃ k, (k, x) ∈ m.entries := by
  simp [values]

theorem keys_nodup (m : InsertionMap κ ν) : m.keys.Nodup := m.distinct

section Lookup

variable [DecidableEq κ]

def get (m : InsertionMap κ ν) (k : κ) : Option ν :=
  (m.entries.find? (fun e => e.1 = k)).map Prod.snd

def has (m : InsertionMap κ ν) (k : κ) : Bool := (m.get k).isSome

@[simp] theorem get_empty (k : κ) : (empty : InsertionMap κ ν).get k = none := rfl

theorem find_of_mem {l : List (κ × ν)} (hd : (l.map Prod.fst).Nodup) {k : κ} {x : ν}
    (h : (k, x) ∈ l) : l.find? (fun e => e.1 = k) = some (k, x) := by
  induction l with
  | nil => simp at h
  | cons e rest ih =>
    rw [List.map_cons, List.nodup_cons] at hd
    rcases List.mem_cons.mp h with rfl | hm
    · simp
    · have hne : e.1 ≠ k := by
        rintro rfl
        exact hd.1 (List.mem_map.mpr ⟨(e.1, x), hm, rfl⟩)
      rw [List.find?_cons_of_neg (by simpa using hne)]
      exact ih hd.2 hm

/-- Lookup is membership among the entries. -/
theorem get_eq_some {m : InsertionMap κ ν} {k : κ} {x : ν} :
    m.get k = some x ↔ (k, x) ∈ m.entries := by
  unfold get
  constructor
  · intro h
    obtain ⟨⟨k', y⟩, hf, he⟩ := Option.map_eq_some_iff.mp h
    have hk : k' = k := by simpa using List.find?_some hf
    subst hk
    have hy : y = x := he
    exact hy ▸ List.mem_of_find?_eq_some hf
  · intro h
    rw [find_of_mem m.distinct h]
    rfl

theorem get_eq_none {m : InsertionMap κ ν} {k : κ} : m.get k = none ↔ k ∉ m.keys := by
  simp only [get, Option.map_eq_none_iff, List.find?_eq_none, keys, List.mem_map, not_exists,
    not_and, decide_eq_true_eq]

theorem mem_keys {m : InsertionMap κ ν} {k : κ} : k ∈ m.keys ↔ ∃ x, m.get k = some x := by
  constructor
  · intro h
    obtain ⟨⟨k', x⟩, he, rfl⟩ := List.mem_map.mp h
    exact ⟨x, get_eq_some.mpr he⟩
  · rintro ⟨x, h⟩
    exact List.mem_map.mpr ⟨(k, x), get_eq_some.mp h, rfl⟩

theorem eq_empty {m : InsertionMap κ ν} (h : ∀ k x, m.get k ≠ some x) : m = empty := by
  apply ext
  rw [entries_empty, List.eq_nil_iff_forall_not_mem]
  rintro ⟨k, x⟩ hmem
  exact h k x (get_eq_some.mpr hmem)

theorem mem_values_get {m : InsertionMap κ ν} {x : ν} : x ∈ m.values ↔ ∃ k, m.get k = some x := by
  simp [mem_values, get_eq_some]

theorem get_mem_values {m : InsertionMap κ ν} {k : κ} {x : ν} (h : m.get k = some x) :
    x ∈ m.values :=
  mem_values_get.mpr ⟨k, h⟩

/-- A present key keeps its place, an absent one goes last. -/
def setEntry (k : κ) (x : ν) : List (κ × ν) → List (κ × ν)
  | [] => [(k, x)]
  | e :: rest => if e.1 = k then (k, x) :: rest else e :: setEntry k x rest

theorem setEntry_keys (k : κ) (x : ν) (l : List (κ × ν)) :
    (setEntry k x l).map Prod.fst =
      if k ∈ l.map Prod.fst then l.map Prod.fst else l.map Prod.fst ++ [k] := by
  induction l with
  | nil => simp [setEntry]
  | cons e rest ih =>
    by_cases he : e.1 = k
    · simp [setEntry, he]
    · have hk : ¬ k = e.1 := fun h => he h.symm
      simp only [setEntry, he, if_false, List.map_cons, ih, List.mem_cons, hk, false_or]
      split <;> rfl

theorem setEntry_distinct (k : κ) (x : ν) {l : List (κ × ν)} (hd : (l.map Prod.fst).Nodup) :
    ((setEntry k x l).map Prod.fst).Nodup := by
  rw [setEntry_keys]
  split
  · exact hd
  · rename_i hk
    exact List.nodup_append.mpr ⟨hd, List.nodup_singleton k, by
      intro a ha b hb
      rw [List.mem_singleton] at hb
      rintro rfl
      exact hk (hb ▸ ha)⟩

def set (m : InsertionMap κ ν) (k : κ) (x : ν) : InsertionMap κ ν :=
  ⟨setEntry k x m.entries, setEntry_distinct k x m.distinct⟩

def delete (m : InsertionMap κ ν) (k : κ) : InsertionMap κ ν :=
  ⟨m.entries.filter (fun e => e.1 ≠ k),
    m.distinct.sublist (List.filter_sublist.map Prod.fst)⟩

theorem setEntry_find (k k' : κ) (x : ν) (l : List (κ × ν)) :
    (setEntry k x l).find? (fun e => e.1 = k') =
      if k' = k then some (k, x) else l.find? (fun e => e.1 = k') := by
  induction l with
  | nil =>
    by_cases h : k' = k
    · simp [setEntry, h]
    · have h' : ¬ k = k' := fun he => h he.symm
      simp [setEntry, h, h']
  | cons e rest ih =>
    by_cases he : e.1 = k
    · by_cases h : k' = k
      · simp [setEntry, he, h]
      · have h' : ¬ k = k' := fun hk => h hk.symm
        simp [setEntry, he, h, h']
    · simp only [setEntry, he, if_false, List.find?_cons]
      split
      · rename_i hk
        have hk : e.1 = k' := by simpa using hk
        have hne : ¬ k' = k := fun h => he (hk.trans h)
        simp [hne]
      · exact ih

@[simp] theorem get_set (m : InsertionMap κ ν) (k k' : κ) (x : ν) :
    (m.set k x).get k' = if k' = k then some x else m.get k' := by
  unfold get set
  simp only [setEntry_find]
  split <;> rfl

@[simp] theorem get_delete (m : InsertionMap κ ν) (k k' : κ) :
    (m.delete k).get k' = if k' = k then none else m.get k' := by
  unfold get delete
  simp only [List.find?_filter]
  split
  · rename_i h
    subst h
    simp only [Option.map_eq_none_iff, List.find?_eq_none]
    intro e _
    simp
  · rename_i h
    congr 2
    funext e
    by_cases he : e.1 = k'
    · simp [he, h]
    · simp [he]

theorem mem_set {m : InsertionMap κ ν} {k k' : κ} {x y : ν} :
    (k', y) ∈ (m.set k x).entries ↔ (k' = k ∧ y = x) ∨ (k' ≠ k ∧ (k', y) ∈ m.entries) := by
  rw [← get_eq_some, get_set, ← get_eq_some]
  by_cases h : k' = k
  · simp [h, eq_comm]
  · simp [h]

/-- Setting an absent key appends its entry. -/
theorem entries_set_of_absent {m : InsertionMap κ ν} {k : κ} (h : m.get k = none) (x : ν) :
    (m.set k x).entries = m.entries ++ [(k, x)] := by
  have hk : k ∉ m.entries.map Prod.fst := get_eq_none.mp h
  change setEntry k x m.entries = _
  generalize m.entries = l at hk
  induction l with
  | nil => rfl
  | cons e rest ih =>
    simp only [List.map_cons, List.mem_cons, not_or] at hk
    have he : ¬ e.1 = k := fun h => hk.1 h.symm
    simp only [setEntry, he, if_false, List.cons_append, ih hk.2]

theorem values_set_of_absent {m : InsertionMap κ ν} {k : κ} (h : m.get k = none) (x : ν) :
    (m.set k x).values = m.values ++ [x] := by
  simp [values, entries_set_of_absent h]

/-- Setting a present key replaces its entry in place. -/
theorem entries_set_of_present {m : InsertionMap κ ν} {k : κ} (h : k ∈ m.keys) (x : ν) :
    (m.set k x).entries = m.entries.map (fun e => if e.1 = k then (k, x) else e) := by
  have hd := m.distinct
  change setEntry k x m.entries = _
  change k ∈ m.entries.map Prod.fst at h
  generalize m.entries = l at hd h
  induction l with
  | nil => cases h
  | cons e rest ih =>
    rw [List.map_cons, List.nodup_cons] at hd
    by_cases he : e.1 = k
    · have hrest : rest.map (fun e => if e.1 = k then (k, x) else e) = rest := by
        refine (List.map_congr_left ?_).trans (List.map_id rest)
        intro e' he'
        have hne : ¬ e'.1 = k := fun h' => hd.1 (he ▸ h' ▸ List.mem_map_of_mem he')
        simp [hne]
      simp [setEntry, he, hrest]
    · have hk : k ∈ rest.map Prod.fst := by
        rcases List.mem_cons.mp h with h' | h'
        · exact absurd h'.symm he
        · exact h'
      simp [setEntry, he, ih hd.2 hk]

theorem delete_of_absent {m : InsertionMap κ ν} {k : κ} (h : m.get k = none) :
    m.delete k = m := by
  apply ext
  apply List.filter_eq_self.mpr
  intro e he
  have hk : e.1 ≠ k := by
    rintro rfl
    exact get_eq_none.mp h (List.mem_map.mpr ⟨e, he, rfl⟩)
  simpa using hk

theorem delete_set (m : InsertionMap κ ν) (k : κ) (x : ν) : (m.set k x).delete k = m.delete k := by
  apply ext
  change (setEntry k x m.entries).filter _ = m.entries.filter _
  generalize m.entries = l
  induction l with
  | nil => simp [setEntry]
  | cons e rest ih =>
    by_cases he : e.1 = k
    · simp [setEntry, he]
    · simpa [setEntry, he] using ih

theorem setEntry_setEntry (k : κ) (x y : ν) (l : List (κ × ν)) :
    setEntry k y (setEntry k x l) = setEntry k y l := by
  induction l with
  | nil => simp [setEntry]
  | cons e rest ih =>
    by_cases h : e.1 = k
    · simp [setEntry, h]
    · simp [setEntry, h, ih]

theorem set_set (m : InsertionMap κ ν) (k : κ) (x y : ν) : (m.set k x).set k y = m.set k y :=
  InsertionMap.ext (setEntry_setEntry k x y m.entries)

/-- The map a list of pairs builds, a later pair overwriting an earlier one. -/
def ofList (l : List (κ × ν)) : InsertionMap κ ν :=
  l.foldl (fun m e => m.set e.1 e.2) empty

theorem get_foldl_set (f : κ → ν) (l : List κ) (m : InsertionMap κ ν) (k : κ) :
    ((l.map (fun k => (k, f k))).foldl (fun m e => m.set e.1 e.2) m).get k =
      if k ∈ l then some (f k) else m.get k := by
  induction l generalizing m with
  | nil => simp
  | cons a l ih =>
    rw [List.map_cons, List.foldl_cons, ih, get_set]
    by_cases hk : k = a
    · simp [hk]
    · simp [hk]

theorem get_ofList_map (f : κ → ν) (l : List κ) (k : κ) :
    (ofList (l.map (fun k => (k, f k)))).get k = if k ∈ l then some (f k) else none := by
  rw [ofList, get_foldl_set, get_empty]

end Lookup

end InsertionMap

end EdoproServer.Lib
