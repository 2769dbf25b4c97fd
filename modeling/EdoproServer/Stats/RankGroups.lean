import EdoproServer.Stats.GameOver

namespace EdoproServer.Stats

/-- A played header name and the canonical rank name it feeds, as the configuration maps them. -/
abbrev RankGroupAliases := List (RankName × RankName)

/-- One configured group rank, fed by every ban list that matches one of its members. -/
structure RankGroupDefinition where
  name : RankName
  enabled : Bool
  onlyCurrent : Bool
  members : List String
  deriving DecidableEq, Repr

structure RankGroupsConfig where
  aliases : RankGroupAliases
  groups : List RankGroupDefinition

structure BanListDatePrefix where
  year : Nat
  month : Nat
  day : Nat
  deriving DecidableEq, Repr

/-- The UTC calendar day of an instant; a month counts from zero. -/
structure UTCDate where
  getUTCFullYear : Int
  getUTCMonth : Nat
  getUTCDate : Nat
  deriving DecidableEq, Repr

def NON_GROUPABLE_NAMES : List RankName := ["N/A", "Global"]

/-! ## Names -/

/-- `JSON.parse` keeps the last value of a repeated alias. -/
def resolveAlias (name : RankName) (aliases : RankGroupAliases) : RankName :=
  ((aliases.reverse.find? (fun entry => entry.1 = name)).map Prod.snd).getD name

/-- `"* X"` matches every name that ends in `" X"`, any other member only itself. -/
def memberMatches (banListName member : String) : Bool :=
  if "* ".toList.isPrefixOf member.toList then
    (' ' :: member.toList.drop 2).isSuffixOf banListName.toList
  else banListName == member

def matchesGroup (name : RankName) (group : RankGroupDefinition) : Bool :=
  group.members.any (memberMatches name)

/-- The characters `\s` stands for. -/
def isWhiteSpace (c : Char) : Bool :=
  c ∈ ['\t', '\n', '\x0b', '\x0c', '\r', ' ', '\u00a0', '\u1680', '\u2028', '\u2029', '\u202f',
    '\u205f', '\u3000', '\ufeff'] || ('\u2000' ≤ c && c ≤ '\u200a')

/-- `(?=\s|$)`. -/
def atBreak : List Char → Bool
  | [] => true
  | c :: _ => isWhiteSpace c

def digitsValue (digits : List Char) : Nat :=
  digits.foldl (fun value c => 10 * value + (c.toNat - '0'.toNat)) 0

/-- A leading `YYYY.MM` or `YYYY.MM.DD` that ends at a break; a missing day is the first. -/
def parseBanListDatePrefix (name : RankName) : Option BanListDatePrefix :=
  match name.toList with
  | y₁ :: y₂ :: y₃ :: y₄ :: '.' :: m₁ :: m₂ :: rest =>
    if [y₁, y₂, y₃, y₄, m₁, m₂].all Char.isDigit then
      let year := digitsValue [y₁, y₂, y₃, y₄]
      let month := digitsValue [m₁, m₂]
      match rest with
      | '.' :: d₁ :: d₂ :: after =>
        -- without the day the prefix would end at the second dot, which is no break
        if d₁.isDigit && d₂.isDigit && atBreak after then
          some { year, month, day := digitsValue [d₁, d₂] }
        else none
      | _ => if atBreak rest then some { year, month, day := 1 } else none
    else none
  | _ => none

/-- `YYYYMMDD` as one number. -/
def dateKey (date : BanListDatePrefix) : Int :=
  date.year * 10000 + date.month * 100 + date.day

def todayKey (today : UTCDate) : Int :=
  today.getUTCFullYear * 10000 + (today.getUTCMonth + 1) * 100 + today.getUTCDate

/-! ## The lists that feed a group -/

/-- The newest key up to the reference day among the loaded names that match the group. -/
def maxCurrentDatedKey (group : RankGroupDefinition) (loadedBanListNames : List RankName)
    (referenceKey : Int) : Option Int :=
  ((((loadedBanListNames.filter (matchesGroup · group)).filterMap parseBanListDatePrefix).map
    dateKey).filter (· ≤ referenceKey)).max?

/-- The oldest of the servers' newest keys. -/
def currencyFloorKey (group : RankGroupDefinition) (loadedNameSets : List (List RankName))
    (referenceKey : Int) : Option Int :=
  (loadedNameSets.filterMap (fun names => maxCurrentDatedKey group names referenceKey)).min?

def isCurrent (playedKey : Option Int) (group : RankGroupDefinition)
    (loadedNameSets : List (List RankName)) (referenceKey : Int) : Bool :=
  match playedKey with
  | none => true
  | some key =>
    if key > referenceKey then false
    else
      match currencyFloorKey group loadedNameSets referenceKey with
      | none => true
      | some floorKey => floorKey ≤ key

/-- The names of the groups a played name feeds. -/
def resolveGroupsFor (banListName : RankName) (groups : List RankGroupDefinition)
    (loadedNameSets : List (List RankName)) (today : UTCDate) : List RankName :=
  if banListName = "" ∨ banListName ∈ NON_GROUPABLE_NAMES then []
  else
    let referenceKey := todayKey today
    let playedKey := (parseBanListDatePrefix banListName).map dateKey
    (((groups.filter RankGroupDefinition.enabled).filter (matchesGroup banListName)).filter
      (fun group =>
        !group.onlyCurrent || isCurrent playedKey group loadedNameSets referenceKey)).map
      RankGroupDefinition.name

structure GroupLists where
  matched : List RankName
  current : List RankName

/-- The loaded names that match a group, and those that feed it today. -/
def currentListsFor (group : RankGroupDefinition) (loadedNameSets : List (List RankName))
    (today : UTCDate) : GroupLists :=
  let matched := loadedNameSets.flatten.eraseDups.filter (matchesGroup · group)
  let referenceKey := todayKey today
  let floorKey := currencyFloorKey group loadedNameSets referenceKey
  { matched := matched
    current := matched.filter (fun name =>
      if name ∈ NON_GROUPABLE_NAMES then false
      else
        match parseBanListDatePrefix name with
        | none => true
        | some date =>
          match floorKey with
          | none => false
          | some floor => floor ≤ dateKey date && dateKey date ≤ referenceKey) }

/-! ## Both ways of asking -/

variable {group : RankGroupDefinition} {groups : List RankGroupDefinition}
  {loadedNameSets : List (List RankName)} {referenceKey : Int} {name : RankName}

/-- A loaded match up to the reference day gives its server a newest key. -/
theorem maxCurrentDatedKey_isSome {names : List RankName} {date : BanListDatePrefix}
    (hname : name ∈ names) (hmatch : matchesGroup name group = true)
    (hdate : parseBanListDatePrefix name = some date) (hle : dateKey date ≤ referenceKey) :
    ∃ key, maxCurrentDatedKey group names referenceKey = some key := by
  apply Option.isSome_iff_exists.mp
  apply List.isSome_max?_of_mem (a := dateKey date)
  simp only [List.mem_filter, List.mem_map, List.mem_filterMap, decide_eq_true_eq]
  exact ⟨⟨date, ⟨name, ⟨hname, hmatch⟩, hdate⟩, rfl⟩, hle⟩

/-- Every loaded match up to the reference day holds the floor up. -/
theorem currencyFloorKey_isSome {date : BanListDatePrefix} (hname : name ∈ loadedNameSets.flatten)
    (hmatch : matchesGroup name group = true) (hdate : parseBanListDatePrefix name = some date)
    (hle : dateKey date ≤ referenceKey) :
    ∃ floorKey, currencyFloorKey group loadedNameSets referenceKey = some floorKey := by
  obtain ⟨names, hnames, hin⟩ := List.mem_flatten.mp hname
  obtain ⟨key, hkey⟩ := maxCurrentDatedKey_isSome hin hmatch hdate hle
  apply Option.isSome_iff_exists.mp
  apply List.isSome_min?_of_mem (a := key)
  exact List.mem_filterMap.mpr ⟨names, hnames, hkey⟩

theorem mem_currentListsFor {today : UTCDate} :
    name ∈ (currentListsFor group loadedNameSets today).current ↔
      name ∈ loadedNameSets.flatten ∧ matchesGroup name group = true ∧
        name ∉ NON_GROUPABLE_NAMES ∧
          ∀ date, parseBanListDatePrefix name = some date →
            dateKey date ≤ todayKey today ∧
              ∃ floor, currencyFloorKey group loadedNameSets (todayKey today) = some floor ∧
                floor ≤ dateKey date := by
  simp only [currentListsFor, List.mem_filter, List.mem_eraseDups, and_assoc]
  refine and_congr_right (fun _ => and_congr_right (fun _ => ?_))
  by_cases hnon : name ∈ NON_GROUPABLE_NAMES
  · simp [hnon]
  · simp only [hnon, if_false, not_false_eq_true, true_and]
    cases hdate : parseBanListDatePrefix name with
    | none => simp
    | some date =>
      cases hfloor : currencyFloorKey group loadedNameSets (todayKey today) with
      | none => simp
      | some floor => simp [and_comm]

/-- For a loaded match the two tests of currency agree: the floor it is compared with exists. -/
theorem isCurrent_iff (hname : name ∈ loadedNameSets.flatten)
    (hmatch : matchesGroup name group = true) :
    isCurrent ((parseBanListDatePrefix name).map dateKey) group loadedNameSets referenceKey = true ↔
      ∀ date, parseBanListDatePrefix name = some date →
        dateKey date ≤ referenceKey ∧
          ∃ floor, currencyFloorKey group loadedNameSets referenceKey = some floor ∧
            floor ≤ dateKey date := by
  cases hdate : parseBanListDatePrefix name with
  | none => simp [isCurrent]
  | some date =>
    by_cases hle : dateKey date ≤ referenceKey
    · obtain ⟨floor, hfloor⟩ := currencyFloorKey_isSome hname hmatch hdate hle
      simp [isCurrent, hfloor, hle]
    · simp [isCurrent, hle, Int.not_le.mp hle]

/-- What a loaded name feeds, group by group. -/
theorem mem_resolveGroupsFor {today : UTCDate} {groupName : RankName} (hne : name ≠ "")
    (hname : name ∈ loadedNameSets.flatten) :
    groupName ∈ resolveGroupsFor name groups loadedNameSets today ↔
      ∃ group ∈ groups, group.enabled = true ∧ group.name = groupName ∧
        matchesGroup name group = true ∧ name ∉ NON_GROUPABLE_NAMES ∧
          (group.onlyCurrent = true →
            name ∈ (currentListsFor group loadedNameSets today).current) := by
  by_cases hnon : name ∈ NON_GROUPABLE_NAMES
  · simp [resolveGroupsFor, hnon]
  · simp only [resolveGroupsFor, hne, hnon, or_self, if_false, List.mem_map, List.mem_filter,
      Bool.or_eq_true, Bool.not_eq_true', not_false_eq_true, true_and]
    constructor
    · rintro ⟨group, ⟨⟨⟨hin, henabled⟩, hmatch⟩, hcurrent⟩, hgroup⟩
      refine ⟨group, hin, henabled, hgroup, hmatch, fun honly => ?_⟩
      rw [honly] at hcurrent
      have hkey := (isCurrent_iff hname hmatch).mp (hcurrent.resolve_left (by decide))
      exact mem_currentListsFor.mpr ⟨hname, hmatch, hnon, hkey⟩
    · rintro ⟨group, hin, henabled, hgroup, hmatch, hcurrent⟩
      refine ⟨group, ⟨⟨⟨hin, henabled⟩, hmatch⟩, ?_⟩, hgroup⟩
      cases honly : group.onlyCurrent with
      | false => exact Or.inl rfl
      | true =>
        have hkey := (mem_currentListsFor.mp (hcurrent honly)).2.2.2
        exact Or.inr ((isCurrent_iff hname hmatch).mpr hkey)

/-- An enabled only-current group and the resolver of a played name agree on every loaded list,
unless another enabled group goes by the same name. -/
theorem current_lists_agree (groups : List RankGroupDefinition) (group : RankGroupDefinition)
    (loadedNameSets : List (List RankName)) (today : UTCDate) (name : RankName)
    (hin : group ∈ groups) (henabled : group.enabled = true) (honly : group.onlyCurrent = true)
    (hunique : ∀ other ∈ groups, other.enabled = true → other.name = group.name → other = group)
    (hname : name ∈ loadedNameSets.flatten) (hne : name ≠ "") :
    name ∈ (currentListsFor group loadedNameSets today).current ↔
      group.name ∈ resolveGroupsFor name groups loadedNameSets today := by
  rw [mem_resolveGroupsFor hne hname]
  constructor
  · intro hcurrent
    obtain ⟨-, hmatch, hnon, -⟩ := mem_currentListsFor.mp hcurrent
    exact ⟨group, hin, henabled, rfl, hmatch, hnon, fun _ => hcurrent⟩
  · rintro ⟨other, hother, hon, hsame, -, -, hcurrent⟩
    obtain rfl := hunique other hother hon hsame
    exact hcurrent honly

def currentTcg : RankGroupDefinition :=
  { name := "TCG", enabled := true, onlyCurrent := true, members := ["* TCG"] }

def retroTcg : RankGroupDefinition :=
  { name := "TCG", enabled := true, onlyCurrent := false, members := ["* TCG"] }

/-- The YGOPro server is one list behind the EDOPro server. -/
def laggingServers : List (List RankName) :=
  [["2026.02 TCG", "2026.05 TCG", "Global"], ["2025.11 TCG", "2026.02 TCG"]]

def launchDay : UTCDate := { getUTCFullYear := 2026, getUTCMonth := 4, getUTCDate := 20 }

/-- The list of the lagging server still feeds the group, and the resolver says so. -/
theorem current_lists_agree_lagging :
    "2026.02 TCG" ∈ (currentListsFor currentTcg laggingServers launchDay).current ∧
      "TCG" ∈ resolveGroupsFor "2026.02 TCG" [currentTcg] laggingServers launchDay := by
  have hcurrent :
      "2026.02 TCG" ∈ (currentListsFor currentTcg laggingServers launchDay).current := by
    decide +kernel
  exact ⟨hcurrent, (current_lists_agree [currentTcg] currentTcg laggingServers launchDay
    "2026.02 TCG" (by decide) rfl rfl (by decide) (by decide) (by decide)).mp hcurrent⟩

/-- Two groups of one name: the retro one makes an old list feed the name. -/
theorem current_lists_disagree :
    ¬ ∀ (groups : List RankGroupDefinition) (group : RankGroupDefinition)
        (loadedNameSets : List (List RankName)) (today : UTCDate) (name : RankName),
        group ∈ groups → group.enabled = true → group.onlyCurrent = true →
          name ∈ loadedNameSets.flatten → name ≠ "" →
            (name ∈ (currentListsFor group loadedNameSets today).current ↔
              group.name ∈ resolveGroupsFor name groups loadedNameSets today) := by
  intro hagree
  have hold := hagree [currentTcg, retroTcg] currentTcg laggingServers launchDay "2025.11 TCG"
    (by decide) rfl rfl (by decide) (by decide)
  have hfeeds : "TCG" ∈ resolveGroupsFor "2025.11 TCG" [currentTcg, retroTcg] laggingServers
      launchDay := by decide +kernel
  have hnot : "2025.11 TCG" ∉ (currentListsFor currentTcg laggingServers launchDay).current := by
    decide +kernel
  exact hnot (hold.mpr hfeeds)

/-! ## The resolver and the boot log -/

/-- The live resolver: every name goes through the aliases first. -/
def RankGroupResolver.groupsFor (config : RankGroupsConfig) (loaded : List (List RankName))
    (now : UTCDate) (banListName : RankName) : List RankName :=
  resolveGroupsFor banListName config.groups
    (loaded.map (·.map (resolveAlias · config.aliases))) now

/-- One line of the boot log: an enabled group and the lists that feed it. -/
def rankGroupsSegments (config : RankGroupsConfig) (loadedNameSets : List (List RankName))
    (today : UTCDate) : List (RankName × List RankName) :=
  (config.groups.filter RankGroupDefinition.enabled).map (fun group =>
    (group.name, (currentListsFor group
      (loadedNameSets.map (·.map (resolveAlias · config.aliases))) today).current))

/-- A list the boot log shows for a group feeds that group when it is played. -/
theorem groupsFor_of_segment {config : RankGroupsConfig} {loaded : List (List RankName)}
    {now : UTCDate} {segment : RankName × List RankName} {banListName : RankName}
    (hsegment : segment ∈ rankGroupsSegments config loaded now)
    (hname : banListName ∈ segment.2) (hne : banListName ≠ "") :
    segment.1 ∈ RankGroupResolver.groupsFor config loaded now banListName := by
  obtain ⟨group, hgroup, rfl⟩ := List.mem_map.mp hsegment
  obtain ⟨hin, henabled⟩ := List.mem_filter.mp hgroup
  obtain ⟨hloaded, hmatch, hnon, -⟩ := mem_currentListsFor.mp hname
  exact (mem_resolveGroupsFor hne hloaded).mpr
    ⟨group, hin, henabled, rfl, hmatch, hnon, fun _ => hname⟩

end EdoproServer.Stats
