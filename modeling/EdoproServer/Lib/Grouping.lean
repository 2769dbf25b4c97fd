import EdoproServer.Lib.InsertionMap

namespace EdoproServer.Lib

universe u v w

/-- A set that keeps the order its elements were first added in. -/
def insertOnce {α : Type u} [DecidableEq α] (xs : List α) (x : α) : List α :=
  if x ∈ xs then xs else xs ++ [x]

namespace InsertionMap

variable {α : Type w} {κ : Type u} {ν : Type v} [DecidableEq κ]

/-- One more item at its key: the value there, or the key's first value, takes the item in. -/
def absorb (key : α → κ) (first : α → ν) (add : ν → α → ν) (m : InsertionMap κ ν) (x : α) :
    InsertionMap κ ν :=
  m.set (key x) (add ((m.get (key x)).getD (first x)) x)

/-- The items gathered by their keys. -/
def gather (key : α → κ) (first : α → ν) (add : ν → α → ν) (items : List α) : InsertionMap κ ν :=
  items.foldl (absorb key first add) .empty

variable {key : α → κ} {first : α → ν} {add : ν → α → ν}

theorem gather_append_singleton (items : List α) (x : α) :
    gather key first add (items ++ [x]) = absorb key first add (gather key first add items) x := by
  simp [gather, List.foldl_append]

/-- The value at a key is made of the items of that key alone, in their order. -/
theorem get_gather (items : List α) (k : κ) :
    (gather key first add items).get k =
      (items.filter (fun x => key x = k)).head?.map (fun x =>
        (items.filter (fun x => key x = k)).foldl add (first x)) := by
  induction items using List.reverseRecOn with
  | nil => rfl
  | append_singleton items x ih =>
    rw [gather_append_singleton, absorb, get_set, List.filter_append]
    by_cases hkey : k = key x
    · rw [if_pos hkey, ← hkey, ih, List.filter_cons_of_pos (by simpa using hkey.symm)]
      cases items.filter (fun x => key x = k) with
      | nil => rfl
      | cons y ys => simp [List.foldl_append]
    · rw [if_neg hkey, ih, List.filter_cons_of_neg (by simpa using Ne.symm hkey), List.filter_nil,
        List.append_nil]

theorem mem_keys_gather {items : List α} {k : κ} :
    k ∈ (gather key first add items).keys ↔ ∃ x ∈ items, key x = k := by
  rw [mem_keys]
  simp only [get_gather, Option.map_eq_some_iff, List.head?_eq_some_iff]
  constructor
  · rintro ⟨v, x, ⟨xs, hxs⟩, -⟩
    have hin : x ∈ items.filter (fun x => key x = k) := by rw [hxs]; exact List.mem_cons_self
    obtain ⟨hmem, hkey⟩ := List.mem_filter.mp hin
    exact ⟨x, hmem, by simpa using hkey⟩
  · rintro ⟨x, hmem, hkey⟩
    have hin : x ∈ items.filter (fun x => key x = k) :=
      List.mem_filter.mpr ⟨hmem, by simpa using hkey⟩
    obtain ⟨y, ys, hys⟩ := List.exists_cons_of_ne_nil (List.ne_nil_of_mem hin)
    exact ⟨_, y, ⟨ys, hys⟩, rfl⟩

theorem foldl_keep_last (x : α) (xs : List α) :
    some (xs.foldl (fun _ y => y) x) = (x :: xs).getLast? := by
  induction xs generalizing x with
  | nil => rfl
  | cons y ys ih => rw [List.foldl_cons, ih, List.getLast?_cons_cons]

/-- Of items that share a key the map keeps the last. -/
theorem get_ofList_keyed (key : α → κ) (items : List α) (k : κ) :
    (ofList (items.map (fun x => (key x, x)))).get k =
      (items.filter (fun x => key x = k)).getLast? := by
  have hgather : ofList (items.map (fun x => (key x, x))) = gather key id (fun _ x => x) items := by
    rw [ofList, List.foldl_map]
    rfl
  rw [hgather, get_gather]
  cases items.filter (fun x => key x = k) with
  | nil => rfl
  | cons x xs => exact foldl_keep_last x xs

theorem sum_setEntry (k : κ) (n : Nat) (l : List (κ × Nat)) :
    ((setEntry k n l).map Prod.snd).sum + ((l.find? (fun e => e.1 = k)).map Prod.snd).getD 0 =
      (l.map Prod.snd).sum + n := by
  induction l with
  | nil => simp [setEntry]
  | cons e rest ih =>
    by_cases he : e.1 = k
    · simp only [setEntry, he, if_true, List.map_cons, List.sum_cons, decide_true,
        List.find?_cons_of_pos, Option.map_some, Option.getD_some]
      omega
    · simp only [setEntry, he, if_false, List.map_cons, List.sum_cons, decide_false,
        Bool.false_eq_true, not_false_eq_true, List.find?_cons_of_neg]
      omega

/-- Counting items by their keys loses none. -/
theorem sum_values_gather (key : α → κ) (items : List α) :
    (gather key (fun _ => 0) (fun n _ => n + 1) items).values.sum = items.length := by
  induction items using List.reverseRecOn with
  | nil => rfl
  | append_singleton items x ih =>
    rw [gather_append_singleton, List.length_append, List.length_singleton, ← ih]
    have hsum := sum_setEntry (key x)
      (((gather key (fun _ => 0) (fun n _ => n + 1) items).get (key x)).getD 0 + 1)
      (gather key (fun _ => 0) (fun n _ => n + 1) items).entries
    simp only [absorb, values, set, get] at hsum ⊢
    omega

end InsertionMap

end EdoproServer.Lib
