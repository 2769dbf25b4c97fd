import EdoproServer.Lib.Double
import EdoproServer.Lib.Splitting
import EdoproServer.Lib.Utf16

namespace EdoproServer.Stats.RatingAnnouncement
open Lib Utf16

def MAX_LENGTH : Nat := 20
def PREFIX : Utf16 := units "[Rating v1 "
def TEAMMATE_SEPARATOR : Utf16 := [0x20, 0xb7, 0x20]
def TEAM_SEPARATOR : Utf16 := [0x20, 0x7c, 0x20]
def ELLIPSIS : Utf16 := [0x2026]

def isControlChar (c : UInt16) : Bool := c ≤ 0x1f ∨ c = 0x7f

def isGrammarSeparator (c : UInt16) : Bool := c = 0xb7 ∨ c = 0x7c

structure Entry where
  name : Utf16
  rating : Number

structure DeltaEntry extends Entry where
  delta : Number

def removeControlChars (name : Utf16) : Utf16 := name.filter (fun c => !isControlChar c)

def replaceSeparators (name : Utf16) : Utf16 :=
  name.map (fun c => if isGrammarSeparator c then 0x20 else c)

/-- Each run of whitespace becomes one blank; the flag tells whether a run is under way. -/
def collapseRuns : Bool → Utf16 → Utf16
  | _, [] => []
  | inRun, c :: rest =>
    if isWhitespace c then
      if inRun then collapseRuns true rest else 0x20 :: collapseRuns true rest
    else c :: collapseRuns false rest

/-- The name before it is cut. -/
def cleanName (name : Utf16) : Utf16 :=
  trim (collapseRuns false (replaceSeparators (removeControlChars name)))

def truncateName (name : Utf16) : Utf16 :=
  if name.length ≤ MAX_LENGTH then name
  else
    let boundaryUnit := name.getD (MAX_LENGTH - 1) 0
    let cut := if isHighSurrogate boundaryUnit then MAX_LENGTH - 1 else MAX_LENGTH
    name.take cut ++ ELLIPSIS

def sanitizeName (name : Utf16) : Utf16 := truncateName (cleanName name)

def formatEntry (entry : Entry) : Utf16 :=
  sanitizeName entry.name ++ 0x20 :: entry.rating.roundText.map unit

def formatDeltaEntry (entry : DeltaEntry) : Utf16 :=
  let sign := if entry.delta.nonneg then '+' else '-'
  formatEntry entry.toEntry ++ units " (" ++ unit sign :: entry.delta.abs.roundText.map unit ++
    units ")"

def formatFrame {α : Type} (kind : String) (teams : List (List α)) (formatOne : α → Utf16) :
    Utf16 :=
  let body := List.intercalate TEAM_SEPARATOR
    (teams.map (fun team => List.intercalate TEAMMATE_SEPARATOR (team.map formatOne)))
  PREFIX ++ units kind ++ units "] " ++ body

def formatStart (teams : List (List Entry)) : Utf16 := formatFrame "start" teams formatEntry

def formatEnd (teams : List (List DeltaEntry)) : Utf16 := formatFrame "end" teams formatDeltaEntry

/-- What follows the tag of a frame. -/
def frameBody (kind : String) (frame : Utf16) : Utf16 :=
  frame.drop (PREFIX ++ units kind ++ units "] ").length

/-- A body split on its separators. -/
def splitTeams (body : Utf16) : List (List Utf16) :=
  (Splitting.splitOn TEAM_SEPARATOR body).map (Splitting.splitOn TEAMMATE_SEPARATOR)

/-! ## Names -/

theorem mem_collapseRuns {c : UInt16} {inRun : Bool} {name : Utf16}
    (h : c ∈ collapseRuns inRun name) : c ∈ name ∨ c = 0x20 := by
  induction name generalizing inRun with
  | nil => cases h
  | cons first rest ih =>
    unfold collapseRuns at h
    split at h
    · split at h
      · rcases ih h with hrest | hblank
        · exact Or.inl (List.mem_cons_of_mem _ hrest)
        · exact Or.inr hblank
      · rcases List.mem_cons.mp h with hblank | hlater
        · exact Or.inr hblank
        · rcases ih hlater with hrest | hblank
          · exact Or.inl (List.mem_cons_of_mem _ hrest)
          · exact Or.inr hblank
    · rcases List.mem_cons.mp h with rfl | hlater
      · exact Or.inl List.mem_cons_self
      · rcases ih hlater with hrest | hblank
        · exact Or.inl (List.mem_cons_of_mem _ hrest)
        · exact Or.inr hblank

theorem mem_truncateName {c : UInt16} {name : Utf16} (h : c ∈ truncateName name) :
    c ∈ name ∨ c ∈ ELLIPSIS := by
  unfold truncateName at h
  split at h
  · exact Or.inl h
  · rcases List.mem_append.mp h with hkept | hellipsis
    · exact Or.inl (List.mem_of_mem_take hkept)
    · exact Or.inr hellipsis

/-- Neither separator survives in a displayed name. -/
theorem separator_not_mem_sanitizeName {c : UInt16} (hc : isGrammarSeparator c = true)
    (name : Utf16) : c ∉ sanitizeName name := by
  intro h
  have hblank : isGrammarSeparator 0x20 = false := by decide
  rcases mem_truncateName h with hclean | hellipsis
  · rcases mem_collapseRuns (mem_trim hclean) with hmap | hspace
    · obtain ⟨d, -, hd⟩ := List.mem_map.mp hmap
      split at hd
      · rw [← hd, hblank] at hc
        cases hc
      · rename_i hno
        exact hno (hd ▸ hc)
    · rw [hspace, hblank] at hc
      cases hc
  · rw [List.mem_singleton.mp hellipsis] at hc
    exact absurd hc (by decide)

/-- How many units of a clean name are shown. -/
def keptUnits (name : Utf16) : Nat :=
  if name.length ≤ MAX_LENGTH then name.length
  else if isHighSurrogate (name.getD (MAX_LENGTH - 1) 0) then MAX_LENGTH - 1 else MAX_LENGTH

theorem keptUnits_le (name : Utf16) : keptUnits name ≤ MAX_LENGTH := by
  unfold keptUnits
  split
  · assumption
  · split
    · exact Nat.sub_le _ _
    · exact Nat.le_refl _

theorem truncateName_eq (name : Utf16) :
    truncateName name =
      name.take (keptUnits name) ++ if keptUnits name < name.length then ELLIPSIS else [] := by
  unfold truncateName keptUnits
  by_cases hshort : name.length ≤ MAX_LENGTH
  · rw [if_pos hshort, if_pos hshort, List.take_length, if_neg (Nat.lt_irrefl _), List.append_nil]
  · have hcut : (if isHighSurrogate (name.getD (MAX_LENGTH - 1) 0) = true then MAX_LENGTH - 1
        else MAX_LENGTH) < name.length := by
      split <;> omega
    rw [if_neg hshort, if_neg hshort, if_pos hcut]

/-- A surrogate pair stays together: both units are shown or neither is. -/
theorem keptUnits_pair {name : Utf16} {i : Nat} {high low : UInt16}
    (hhigh : name[i]? = some high) (hlow : name[i + 1]? = some low)
    (high' : isHighSurrogate high = true) (low' : isLowSurrogate low = true) :
    i < keptUnits name ↔ i + 1 < keptUnits name := by
  have hin : i + 1 < name.length := (List.getElem?_eq_some_iff.mp hlow).1
  have hboundary : name.getD (MAX_LENGTH - 1) 0 = (name[MAX_LENGTH - 1]?).getD 0 :=
    List.getD_eq_getElem?_getD
  unfold keptUnits
  by_cases hshort : name.length ≤ MAX_LENGTH
  · rw [if_pos hshort]
    omega
  · rw [if_neg hshort]
    cases hcut : isHighSurrogate (name.getD (MAX_LENGTH - 1) 0) with
    | true =>
      -- the unit at the boundary is a high one, so it is not the second of the pair
      have hne : i + 1 ≠ MAX_LENGTH - 1 := by
        intro he
        rw [hboundary, ← he, hlow, Option.getD_some] at hcut
        rw [not_low_of_high hcut] at low'
        cases low'
      rw [if_pos rfl]
      omega
    | false =>
      have hne : i ≠ MAX_LENGTH - 1 := by
        intro he
        rw [hboundary, ← he, hhigh, Option.getD_some, high'] at hcut
        cases hcut
      rw [if_neg Bool.false_ne_true]
      unfold MAX_LENGTH at hne ⊢
      omega

/-! ## Entries and teams -/

theorem separator_not_mem_text {c : UInt16} (hc : isGrammarSeparator c = true) {text : List Char}
    (letters : ∀ d ∈ text, d ∈ Double.numberLetters) : c ∉ text.map unit := by
  have hno : ∀ d ∈ Double.numberLetters, isGrammarSeparator (unit d) = false := by
    simp [Double.numberLetters, isGrammarSeparator, unit]
  intro h
  obtain ⟨d, hd, rfl⟩ := List.mem_map.mp h
  rw [hno d (letters d hd)] at hc
  cases hc

theorem separator_not_mem_formatEntry {c : UInt16} (hc : isGrammarSeparator c = true)
    (entry : Entry) : c ∉ formatEntry entry := by
  intro h
  rcases List.mem_append.mp h with hname | hrating
  · exact separator_not_mem_sanitizeName hc entry.name hname
  · rcases List.mem_cons.mp hrating with hblank | hnumber
    · rw [hblank] at hc
      exact absurd hc (by decide)
    · exact separator_not_mem_text hc entry.rating.roundText_letters hnumber

theorem separator_not_mem_formatDeltaEntry {c : UInt16} (hc : isGrammarSeparator c = true)
    (entry : DeltaEntry) : c ∉ formatDeltaEntry entry := by
  have hopen : ∀ d ∈ units " (", isGrammarSeparator d = false := by
    simp [units, isGrammarSeparator, unit]
  have hclose : ∀ d ∈ units ")", isGrammarSeparator d = false := by
    simp [units, isGrammarSeparator, unit]
  intro h
  simp only [formatDeltaEntry, List.mem_append, List.mem_cons] at h
  rcases h with ((hentry | hparen) | hsign | hnumber) | hparen
  · exact separator_not_mem_formatEntry hc entry.toEntry hentry
  · rw [hopen c hparen] at hc
    cases hc
  · rw [hsign] at hc
    split at hc <;> exact absurd hc (by decide)
  · exact separator_not_mem_text hc entry.delta.abs.roundText_letters hnumber
  · rw [hclose c hparen] at hc
    cases hc

theorem frameBody_formatFrame {α : Type} (kind : String) (teams : List (List α))
    (formatOne : α → Utf16) :
    frameBody kind (formatFrame kind teams formatOne) = List.intercalate TEAM_SEPARATOR
      (teams.map (fun team => List.intercalate TEAMMATE_SEPARATOR (team.map formatOne))) :=
  List.drop_left

/-- Entries without separators come back from the body, team by team. -/
theorem splitTeams_formatFrame {α : Type} {formatOne : α → Utf16}
    (clean : ∀ entry c, isGrammarSeparator c = true → c ∉ formatOne entry) (kind : String)
    {teams : List (List α)} (some : teams ≠ []) (each : ∀ team ∈ teams, team ≠ []) :
    splitTeams (frameBody kind (formatFrame kind teams formatOne)) =
      teams.map (fun team => team.map formatOne) := by
  have hteam : ∀ text ∈ teams.map (fun team =>
      List.intercalate TEAMMATE_SEPARATOR (team.map formatOne)), (0x7c : UInt16) ∉ text := by
    intro text htext hmark
    obtain ⟨team, -, rfl⟩ := List.mem_map.mp htext
    rcases Splitting.mem_intercalate hmark with hsep | ⟨piece, hpiece, hmem⟩
    · exact absurd hsep (by decide)
    · obtain ⟨entry, -, rfl⟩ := List.mem_map.mp hpiece
      exact clean entry 0x7c (by decide) hmem
  have hteams : Splitting.splitOn TEAM_SEPARATOR (List.intercalate TEAM_SEPARATOR
      (teams.map (fun team => List.intercalate TEAMMATE_SEPARATOR (team.map formatOne)))) =
        teams.map (fun team => List.intercalate TEAMMATE_SEPARATOR (team.map formatOne)) :=
    Splitting.splitOn_intercalate [0x20] 0x7c [0x20] (by decide) hteam
      (by simpa using some)
  rw [splitTeams, frameBody_formatFrame, hteams, List.map_map]
  apply List.map_congr_left
  intro team hmem
  rw [Function.comp_apply]
  apply Splitting.splitOn_intercalate [0x20] 0xb7 [0x20] (by decide)
  · intro piece hpiece
    obtain ⟨entry, -, rfl⟩ := List.mem_map.mp hpiece
    exact clean entry 0xb7 (by decide)
  · simpa using each team hmem

/-- Of one team at least, each with an entry at least, both frames give back the formatted
entries in order, team by team, when the body is split on its separators. Every displayed name
is the clean name, or its first units and the ellipsis: at most 20 units before the ellipsis,
never one half of a surrogate pair. -/
theorem announcement_unambiguous :
    (∀ teams, teams ≠ [] → (∀ team ∈ teams, team ≠ []) →
        splitTeams (frameBody "start" (formatStart teams)) =
          teams.map (fun team => team.map formatEntry)) ∧
      (∀ teams, teams ≠ [] → (∀ team ∈ teams, team ≠ []) →
        splitTeams (frameBody "end" (formatEnd teams)) =
          teams.map (fun team => team.map formatDeltaEntry)) ∧
      ∀ name, (sanitizeName name).length ≤ MAX_LENGTH + ELLIPSIS.length ∧
        ∃ kept ≤ MAX_LENGTH,
          sanitizeName name = (cleanName name).take kept ++
            (if kept < (cleanName name).length then ELLIPSIS else []) ∧
          ∀ i high low, (cleanName name)[i]? = some high → (cleanName name)[i + 1]? = some low →
            isHighSurrogate high = true → isLowSurrogate low = true →
            (i < kept ↔ i + 1 < kept) := by
  refine ⟨?_, ?_, ?_⟩
  · intro teams some each
    exact splitTeams_formatFrame (fun entry c hc => separator_not_mem_formatEntry hc entry)
      "start" some each
  · intro teams some each
    exact splitTeams_formatFrame (fun entry c hc => separator_not_mem_formatDeltaEntry hc entry)
      "end" some each
  · intro name
    have hkept := keptUnits_le (cleanName name)
    have hname := truncateName_eq (cleanName name)
    refine ⟨?_, keptUnits (cleanName name), hkept, hname, ?_⟩
    · rw [sanitizeName, hname, List.length_append, List.length_take]
      have htail : (if keptUnits (cleanName name) < (cleanName name).length then ELLIPSIS
          else []).length ≤ ELLIPSIS.length := by
        split
        · exact Nat.le_refl _
        · exact Nat.zero_le _
      omega
    · intro i high low hhigh hlow high' low'
      exact keptUnits_pair hhigh hlow high' low'

/-- Two teams, one of them with a name that spells out separators. -/
def forgingTeams : List (List Entry) :=
  [[⟨units "Di\x00an | bad · x", .finite 1000⟩, ⟨units "Ally", .finite (2201 / 2)⟩],
    [⟨units "Rival", .nan⟩]]

/-- The name cannot pass for two: there are two teams, of two entries and of one. -/
theorem announcement_unambiguous_forging :
    (splitTeams (frameBody "start" (formatStart forgingTeams))).map List.length = [2, 1] := by
  rw [announcement_unambiguous.1 forgingTeams (by decide) (by decide)]
  rfl

/-- No team at all and one team of nobody are announced alike, and read as one empty entry. -/
theorem emptyTeams_ambiguous :
    formatStart [] = formatStart [[]] ∧
      ¬ ∀ teams, splitTeams (frameBody "start" (formatStart teams)) =
        teams.map (fun team => team.map formatEntry) := by
  refine ⟨rfl, ?_⟩
  intro h
  have hnone := congrArg List.length (h [])
  revert hnone
  decide +kernel

end EdoproServer.Stats.RatingAnnouncement
