import EdoproServer.Lib.Utf16

namespace EdoproServer.Decks
open Lib Utf16

/-- A loaded list: the names it goes by, and everything else it is. -/
structure NamedBanList (Content : Type) where
  «alias» : Option Utf16
  name : Option Utf16
  content : Content
  deriving DecidableEq

namespace BanListAliases

variable {Content : Type} (toLowerCase : Utf16 → Utf16)

def normalizeAliasKey (value : Utf16) : Utf16 :=
  (toLowerCase value).filter (fun c => !isWhitespace c)

/-- The normalized name of a list; an empty name counts as none. -/
def normalizedName (list : NamedBanList Content) : Option Utf16 :=
  match list.name with
  | none => none
  | some [] => none
  | some name => some (normalizeAliasKey toLowerCase name)

def hasAlias (key : Utf16) (list : NamedBanList Content) : Bool := list.alias = some key

def hasName (key : Utf16) (list : NamedBanList Content) : Bool :=
  normalizedName toLowerCase list = some key

def hasNameWithin (key : Utf16) (list : NamedBanList Content) : Bool :=
  match normalizedName toLowerCase list with
  | none => false
  | some name => key <:+: name

/-- The comparison of the tie-breaks: the shorter normalized name, then the lesser one. -/
def compareNames (a b : NamedBanList Content) : Int :=
  let nameA := normalizeAliasKey toLowerCase (a.name.getD [])
  let nameB := normalizeAliasKey toLowerCase (b.name.getD [])
  if nameA.length ≠ nameB.length then (nameA.length : Int) - nameB.length
  else if nameA < nameB then -1 else if nameB < nameA then 1 else 0

def sortsBefore (a b : NamedBanList Content × Nat) : Bool :=
  compareNames toLowerCase a.1 b.1 ≤ 0

/-- The lists whose name has the key within, with their indexes. -/
def substringMatches (banLists : List (NamedBanList Content)) (key : Utf16) :
    List (NamedBanList Content × Nat) :=
  banLists.zipIdx.filter (fun entry => hasNameWithin toLowerCase key entry.1)

/-- The index of the list an alias resolves to, or -1. -/
def findIndexByAlias (banLists : List (NamedBanList Content)) («alias» : Utf16) : Int :=
  let normalizedAlias := normalizeAliasKey toLowerCase «alias»
  match banLists.findIdx? (hasAlias normalizedAlias) with
  | some aliasFieldIndex => aliasFieldIndex
  | none =>
    match banLists.findIdx? (hasName toLowerCase normalizedAlias) with
    | some exactIndex => exactIndex
    | none =>
      match (substringMatches toLowerCase banLists normalizedAlias).mergeSort
          (sortsBefore toLowerCase) with
      | [] => -1
      | winner :: _ => winner.2

def findByAlias (banLists : List (NamedBanList Content)) («alias» : Utf16) :
    Option (NamedBanList Content) :=
  let index := findIndexByAlias toLowerCase banLists «alias»
  if index ≠ -1 then banLists[index.toNat]? else none

/-! ## The lists a resolution decides among -/

/-- Among these the order of loading decides: the lists with the alias; if there are none, those
with the name; if there are none of these either, the least of those whose name has it within. -/
def deciding (banLists : List (NamedBanList Content)) (key : Utf16) :
    List (NamedBanList Content) :=
  if banLists.any (hasAlias key) then banLists.filter (hasAlias key)
  else if banLists.any (hasName toLowerCase key) then banLists.filter (hasName toLowerCase key)
  else
    let within := banLists.filter (hasNameWithin toLowerCase key)
    within.filter (fun list => within.all (fun other => compareNames toLowerCase list other ≤ 0))

variable {toLowerCase} {banLists reordered : List (NamedBanList Content)}
  {list other : NamedBanList Content} {key : Utf16}

/-! ## The tie-breaks -/

theorem compareNames_le {a b : NamedBanList Content} :
    compareNames toLowerCase a b ≤ 0 ↔
      (normalizeAliasKey toLowerCase (a.name.getD [])).length <
          (normalizeAliasKey toLowerCase (b.name.getD [])).length ∨
        (normalizeAliasKey toLowerCase (a.name.getD [])).length =
            (normalizeAliasKey toLowerCase (b.name.getD [])).length ∧
          normalizeAliasKey toLowerCase (a.name.getD []) ≤
            normalizeAliasKey toLowerCase (b.name.getD []) := by
  unfold compareNames
  generalize normalizeAliasKey toLowerCase (a.name.getD []) = nameA
  generalize normalizeAliasKey toLowerCase (b.name.getD []) = nameB
  by_cases hlength : nameA.length = nameB.length
  · simp only [hlength, ne_eq, not_true, if_false, lt_irrefl, true_and, false_or]
    by_cases hless : nameA < nameB
    · rw [if_pos hless]
      exact ⟨fun _ => List.le_of_lt hless, fun _ => by decide⟩
    · rw [if_neg hless]
      by_cases hmore : nameB < nameA
      · rw [if_pos hmore]
        exact ⟨fun h => absurd h (by decide), fun h => absurd hmore h⟩
      · rw [if_neg hmore]
        exact ⟨fun _ => hmore, fun _ => le_refl 0⟩
  · simp only [hlength, ne_eq, not_false_eq_true, if_true, false_and, or_false]
    omega

theorem compareNames_trans {a b c : NamedBanList Content}
    (hab : compareNames toLowerCase a b ≤ 0) (hbc : compareNames toLowerCase b c ≤ 0) :
    compareNames toLowerCase a c ≤ 0 := by
  rw [compareNames_le] at hab hbc ⊢
  rcases hab with hab | ⟨hab, hle⟩
  · rcases hbc with hbc | ⟨hbc, -⟩
    · exact Or.inl (Nat.lt_trans hab hbc)
    · exact Or.inl (hbc ▸ hab)
  · rcases hbc with hbc | ⟨hbc, hle'⟩
    · exact Or.inl (hab ▸ hbc)
    · exact Or.inr ⟨hab.trans hbc, List.le_trans hle hle'⟩

theorem compareNames_total (a b : NamedBanList Content) :
    compareNames toLowerCase a b ≤ 0 ∨ compareNames toLowerCase b a ≤ 0 := by
  rw [compareNames_le, compareNames_le]
  rcases Nat.lt_trichotomy (normalizeAliasKey toLowerCase (a.name.getD [])).length
      (normalizeAliasKey toLowerCase (b.name.getD [])).length with hlt | heq | hgt
  · exact Or.inl (Or.inl hlt)
  · rcases List.le_total (normalizeAliasKey toLowerCase (a.name.getD []))
        (normalizeAliasKey toLowerCase (b.name.getD [])) with hle | hle
    · exact Or.inl (Or.inr ⟨heq, hle⟩)
    · exact Or.inr (Or.inr ⟨heq.symm, hle⟩)
  · exact Or.inr (Or.inl hgt)

variable (toLowerCase) in
theorem sortsBefore_trans (a b c : NamedBanList Content × Nat)
    (hab : sortsBefore toLowerCase a b = true) (hbc : sortsBefore toLowerCase b c = true) :
    sortsBefore toLowerCase a c = true :=
  decide_eq_true (compareNames_trans (of_decide_eq_true hab) (of_decide_eq_true hbc))

variable (toLowerCase) in
theorem sortsBefore_total (a b : NamedBanList Content × Nat) :
    (sortsBefore toLowerCase a b || sortsBefore toLowerCase b a) = true := by
  rw [Bool.or_eq_true]
  rcases compareNames_total a.1 b.1 with h | h
  · exact Or.inl (decide_eq_true h)
  · exact Or.inr (decide_eq_true h)

/-! ## The three stages -/

/-- A scan for the first match finds one, and the first list if that matches. -/
theorem findByIdx {p : NamedBanList Content → Bool} {index : Nat}
    (h : banLists.findIdx? p = some index) :
    ∃ list ∈ banLists, banLists[index]? = some list ∧ p list = true ∧
      ∀ first rest, banLists = first :: rest → p first = true → list = first := by
  obtain ⟨hlt, hp, hbefore⟩ := List.findIdx?_eq_some_iff_getElem.mp h
  refine ⟨banLists[index], List.getElem_mem hlt, List.getElem?_eq_getElem hlt, hp, ?_⟩
  rintro first rest rfl hfirst
  cases index with
  | zero => rfl
  | succ index => exact absurd hfirst (hbefore 0 (Nat.zero_lt_succ index))

/-- Every list with the key within its name is a match, and only those. -/
theorem mem_substringMatches {index : Nat} :
    (list, index) ∈ substringMatches toLowerCase banLists key ↔
      banLists[index]? = some list ∧ hasNameWithin toLowerCase key list = true := by
  rw [substringMatches, List.mem_filter, List.mk_mem_zipIdx_iff_getElem?]

/-- The head of the sorted matches is the least, and the first list if that is least too. -/
theorem winner_spec {sorted : List (NamedBanList Content × Nat)} {index : Nat}
    (h : (substringMatches toLowerCase banLists key).mergeSort (sortsBefore toLowerCase) =
      (list, index) :: sorted) :
    banLists[index]? = some list ∧ hasNameWithin toLowerCase key list = true ∧
      ∀ other ∈ banLists, hasNameWithin toLowerCase key other = true →
        compareNames toLowerCase list other ≤ 0 := by
  have hperm := List.mergeSort_perm (substringMatches toLowerCase banLists key)
    (sortsBefore toLowerCase)
  have hpairs := List.pairwise_mergeSort (sortsBefore_trans toLowerCase)
    (sortsBefore_total toLowerCase)
    (substringMatches toLowerCase banLists key)
  rw [h] at hperm hpairs
  obtain ⟨hindex, hwithin⟩ := mem_substringMatches.mp (hperm.subset List.mem_cons_self)
  refine ⟨hindex, hwithin, ?_⟩
  intro other hother hmatch
  obtain ⟨otherIndex, hat⟩ := List.getElem?_of_mem hother
  have hmem := hperm.symm.subset (mem_substringMatches.mpr ⟨hat, hmatch⟩)
  rcases List.mem_cons.mp hmem with heq | htail
  · cases heq
    exact (compareNames_total list list).elim id id
  · exact of_decide_eq_true ((List.pairwise_cons.mp hpairs).1 _ htail)

/-- The sort is stable: the first list wins if no match is less. -/
theorem winner_first {first : NamedBanList Content} {rest : List (NamedBanList Content)}
    (hwithin : hasNameWithin toLowerCase key first = true)
    (hleast : ∀ other ∈ first :: rest, hasNameWithin toLowerCase key other = true →
      compareNames toLowerCase first other ≤ 0) :
    ∃ sorted, (substringMatches toLowerCase (first :: rest) key).mergeSort
      (sortsBefore toLowerCase) = (first, 0) :: sorted := by
  have hcons : substringMatches toLowerCase (first :: rest) key = (first, 0) ::
      (rest.zipIdx 1).filter (fun entry => hasNameWithin toLowerCase key entry.1) := by
    rw [substringMatches, List.zipIdx_cons]
    exact List.filter_cons_of_pos hwithin
  rw [hcons]
  obtain ⟨before, after, hsorted, hothers, hless⟩ := List.mergeSort_cons
    (sortsBefore_trans toLowerCase) (sortsBefore_total toLowerCase) (first, 0)
    ((rest.zipIdx 1).filter (fun entry => hasNameWithin toLowerCase key entry.1))
  cases before with
  | nil => exact ⟨after, hsorted⟩
  | cons entry before =>
    have hmem : entry ∈ (rest.zipIdx 1).filter
        (fun entry => hasNameWithin toLowerCase key entry.1) := by
      apply (List.mergeSort_perm _ (sortsBefore toLowerCase)).subset
      rw [hothers]
      exact List.mem_cons_self
    obtain ⟨hin, hmatch⟩ := List.mem_filter.mp hmem
    have hle := hleast entry.1 (List.mem_cons_of_mem _ (List.fst_mem_of_mem_zipIdx hin)) hmatch
    have hnot := hless entry List.mem_cons_self
    rw [sortsBefore, decide_eq_true hle] at hnot
    cases hnot

/-! ## The list an alias selects -/

theorem mem_deciding :
    list ∈ deciding toLowerCase banLists key ↔ list ∈ banLists ∧
      if banLists.any (hasAlias key) then hasAlias key list = true
      else if banLists.any (hasName toLowerCase key) then hasName toLowerCase key list = true
      else hasNameWithin toLowerCase key list = true ∧
        ∀ other ∈ banLists, hasNameWithin toLowerCase key other = true →
          compareNames toLowerCase list other ≤ 0 := by
  unfold deciding
  split
  · exact List.mem_filter
  · split
    · exact List.mem_filter
    · simp only [List.mem_filter, List.all_eq_true, decide_eq_true_eq, and_assoc, and_imp]

/-- The lists that decide are the same in every order. -/
theorem mem_deciding_perm (perm : reordered.Perm banLists) :
    list ∈ deciding toLowerCase reordered key ↔ list ∈ deciding toLowerCase banLists key := by
  have hany : ∀ p : NamedBanList Content → Bool, reordered.any p = banLists.any p := by
    intro p
    exact perm.any_eq
  simp only [mem_deciding, hany, perm.mem_iff]

/-- What the alias selects: one of the lists that decide, the first of all lists if it is one of
them; nothing if there are none. -/
structure Selects (toLowerCase : Utf16 → Utf16) (banLists : List (NamedBanList Content))
    (key : Utf16) (selected : Option (NamedBanList Content)) : Prop where
  decides : ∀ list, selected = some list → list ∈ deciding toLowerCase banLists key
  none : selected = none → deciding toLowerCase banLists key = []
  first : ∀ first rest, banLists = first :: rest →
    first ∈ deciding toLowerCase banLists key → selected = some first

theorem Selects.of_some (hmem : list ∈ deciding toLowerCase banLists key)
    (hfirst : ∀ first rest, banLists = first :: rest →
      first ∈ deciding toLowerCase banLists key → list = first) :
    Selects toLowerCase banLists key (some list) where
  decides := by
    intro other h
    cases h
    exact hmem
  none := by
    intro h
    cases h
  first := fun first rest h hdecides => congrArg some (hfirst first rest h hdecides)

theorem findByAlias_selects (toLowerCase : Utf16 → Utf16) (banLists : List (NamedBanList Content))
    («alias» : Utf16) :
    Selects toLowerCase banLists (normalizeAliasKey toLowerCase «alias»)
      (findByAlias toLowerCase banLists «alias») := by
  generalize hkey : normalizeAliasKey toLowerCase «alias» = key
  -- an index that was found is not -1
  have hfound : ∀ {index : Nat} {list : NamedBanList Content},
      findIndexByAlias toLowerCase banLists «alias» = index → banLists[index]? = some list →
        findByAlias toLowerCase banLists «alias» = some list := by
    intro index list hindex hat
    have hne : (index : Int) ≠ -1 := by omega
    simp only [findByAlias, hindex, hne, ne_eq, not_false_eq_true, if_true, Int.toNat_natCast, hat]
  cases haliases : banLists.findIdx? (hasAlias key) with
  | some index =>
    obtain ⟨list, hmem, hat, hp, hfirst⟩ := findByIdx haliases
    have hany : banLists.any (hasAlias key) = true := List.any_eq_true.mpr ⟨list, hmem, hp⟩
    have hindex : findIndexByAlias toLowerCase banLists «alias» = index := by
      simp only [findIndexByAlias, hkey, haliases]
    rw [hfound hindex hat]
    refine .of_some ?_ ?_
    · rw [mem_deciding, if_pos hany]
      exact ⟨hmem, hp⟩
    · intro first rest hlists hdecides
      rw [mem_deciding, if_pos hany] at hdecides
      exact hfirst first rest hlists hdecides.2
  | none =>
    have hnoAlias : banLists.any (hasAlias key) = false := by
      rw [List.any_eq_false]
      intro list hmem hp
      exact absurd hp (by simpa using List.findIdx?_eq_none_iff.mp haliases list hmem)
    cases hnames : banLists.findIdx? (hasName toLowerCase key) with
    | some index =>
      obtain ⟨list, hmem, hat, hp, hfirst⟩ := findByIdx hnames
      have hany : banLists.any (hasName toLowerCase key) = true :=
        List.any_eq_true.mpr ⟨list, hmem, hp⟩
      have hindex : findIndexByAlias toLowerCase banLists «alias» = index := by
        simp only [findIndexByAlias, hkey, haliases, hnames]
      rw [hfound hindex hat]
      refine .of_some ?_ ?_
      · rw [mem_deciding, hnoAlias, if_neg Bool.false_ne_true, if_pos hany]
        exact ⟨hmem, hp⟩
      · intro first rest hlists hdecides
        rw [mem_deciding, hnoAlias, if_neg Bool.false_ne_true, if_pos hany] at hdecides
        exact hfirst first rest hlists hdecides.2
    | none =>
      have hnoName : banLists.any (hasName toLowerCase key) = false := by
        rw [List.any_eq_false]
        intro list hmem hp
        exact absurd hp (by simpa using List.findIdx?_eq_none_iff.mp hnames list hmem)
      cases hsorted : (substringMatches toLowerCase banLists key).mergeSort
          (sortsBefore toLowerCase) with
      | nil =>
        have hindex : findIndexByAlias toLowerCase banLists «alias» = -1 := by
          simp only [findIndexByAlias, hkey, haliases, hnames, hsorted]
        have hnoMatch : deciding toLowerCase banLists key = [] := by
          rw [List.eq_nil_iff_forall_not_mem]
          intro list hdecides
          rw [mem_deciding, hnoAlias, hnoName, if_neg Bool.false_ne_true,
            if_neg Bool.false_ne_true] at hdecides
          obtain ⟨index, hat⟩ := List.getElem?_of_mem hdecides.1
          have hmatch := (List.mergeSort_perm (substringMatches toLowerCase banLists key)
            (sortsBefore toLowerCase)).symm.subset (mem_substringMatches.mpr ⟨hat, hdecides.2.1⟩)
          rw [hsorted] at hmatch
          cases hmatch
        have hnone : findByAlias toLowerCase banLists «alias» = Option.none := by
          simp only [findByAlias, hindex, ne_eq, not_true, if_false]
        rw [hnone]
        refine ⟨?_, fun _ => hnoMatch, ?_⟩
        · intro list h
          cases h
        · intro first rest _ hdecides
          rw [hnoMatch] at hdecides
          cases hdecides
      | cons winner sorted =>
        obtain ⟨list, index⟩ := winner
        obtain ⟨hat, hwithin, hleast⟩ := winner_spec hsorted
        have hindex : findIndexByAlias toLowerCase banLists «alias» = index := by
          simp only [findIndexByAlias, hkey, haliases, hnames, hsorted]
        rw [hfound hindex hat]
        refine .of_some ?_ ?_
        · rw [mem_deciding, hnoAlias, hnoName, if_neg Bool.false_ne_true,
            if_neg Bool.false_ne_true]
          exact ⟨List.mem_of_getElem? hat, hwithin, hleast⟩
        · intro first rest hlists hdecides
          rw [mem_deciding, hnoAlias, hnoName, if_neg Bool.false_ne_true,
            if_neg Bool.false_ne_true, hlists] at hdecides
          obtain ⟨sorted', hfirst⟩ := winner_first hdecides.2.1 hdecides.2.2
          rw [hlists, hfirst] at hsorted
          exact (congrArg Prod.fst (List.cons.inj hsorted).1).symm

/-- The list an alias selects is the same for every order of the lists exactly when the lists
that decide are all one list: those that have the alias as their own; without such a list those
of that normalized name; without these either, the shortest and then least normalized names that
have it within. -/
theorem findByAlias_order_iff (toLowerCase : Utf16 → Utf16)
    (banLists : List (NamedBanList Content)) («alias» : Utf16) :
    (∀ reordered : List (NamedBanList Content), reordered.Perm banLists →
      findByAlias toLowerCase reordered «alias» = findByAlias toLowerCase banLists «alias») ↔
    ∀ a ∈ deciding toLowerCase banLists (normalizeAliasKey toLowerCase «alias»),
      ∀ b ∈ deciding toLowerCase banLists (normalizeAliasKey toLowerCase «alias»), a = b := by
  constructor
  · intro hsame a ha b hb
    -- put in front, each of the two is selected
    have hfront : ∀ c ∈ deciding toLowerCase banLists (normalizeAliasKey toLowerCase «alias»),
        findByAlias toLowerCase banLists «alias» = some c := by
      intro c hc
      obtain ⟨before, after, hlists⟩ := List.append_of_mem (mem_deciding.mp hc).1
      have hperm : (c :: (before ++ after)).Perm banLists := by
        rw [hlists]
        exact List.perm_middle.symm
      rw [← hsame _ hperm]
      exact (findByAlias_selects toLowerCase _ «alias»).first c _ rfl
        ((mem_deciding_perm hperm).mpr hc)
    exact Option.some.inj ((hfront a ha).symm.trans (hfront b hb))
  · intro hone reordered hperm
    have hselects := findByAlias_selects toLowerCase banLists «alias»
    have hselects' := findByAlias_selects toLowerCase reordered «alias»
    cases hselected : findByAlias toLowerCase banLists «alias» with
    | none =>
      cases hselected' : findByAlias toLowerCase reordered «alias» with
      | none => rfl
      | some list =>
        have hmem := (mem_deciding_perm hperm).mp (hselects'.decides list hselected')
        rw [hselects.none hselected] at hmem
        cases hmem
    | some list =>
      have hmem := hselects.decides list hselected
      cases hselected' : findByAlias toLowerCase reordered «alias» with
      | none =>
        have hmem' := (mem_deciding_perm hperm).mpr hmem
        rw [hselects'.none hselected'] at hmem'
        cases hmem'
      | some list' =>
        have hmem' := (mem_deciding_perm hperm).mp (hselects'.decides list' hselected')
        rw [hone list' hmem' list hmem]

/-- Two lists loaded for one alias, told apart by their content. -/
def sharedAlias : List (NamedBanList Nat) :=
  [⟨some (units "jtp"), none, 1⟩, ⟨some (units "jtp"), none, 2⟩]

/-- The one that was loaded first is selected. -/
theorem sharedAlias_order :
    ¬ ∀ (banLists reordered : List (NamedBanList Nat)) («alias» : Utf16),
      reordered.Perm banLists →
        findByAlias id reordered «alias» = findByAlias id banLists «alias» := by
  intro hsame
  have hswapped := hsame sharedAlias sharedAlias.reverse (units "jtp") (List.reverse_perm _)
  have hcontent := congrArg (fun list => list.map NamedBanList.content) hswapped
  revert hcontent
  decide +kernel

end BanListAliases

end EdoproServer.Decks
