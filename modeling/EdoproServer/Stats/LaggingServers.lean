import EdoproServer.Stats.RankGroups
import Mathlib.Data.Prod.Lex

namespace EdoproServer.Stats

/-! ## Calendar days -/

/-- Days compare by year, then by month, then by day. -/
abbrev CalendarDay := Int ×ₗ Nat ×ₗ Nat

def BanListDatePrefix.calendarDay (date : BanListDatePrefix) : CalendarDay :=
  toLex ((date.year : Int), toLex (date.month, date.day))

def UTCDate.calendarDay (today : UTCDate) : CalendarDay :=
  toLex (today.getUTCFullYear, toLex (today.getUTCMonth + 1, today.getUTCDate))

/-- A month from 0 to 11 and a day from 1 to 31, as every date gives them. -/
structure UTCDate.Valid (today : UTCDate) : Prop where
  month : today.getUTCMonth ≤ 11
  day : 1 ≤ today.getUTCDate ∧ today.getUTCDate ≤ 31

/-- Two digits each for the month and the day keep the order of days. -/
theorem key_le_iff {y y' : Int} {m m' d d' : Nat} (hm : m ≤ 99) (hm' : m' ≤ 99) (hd : d ≤ 99)
    (hd' : d' ≤ 99) : y * 10000 + m * 100 + d ≤ y' * 10000 + m' * 100 + d' ↔
      (toLex (y, toLex (m, d)) : CalendarDay) ≤ toLex (y', toLex (m', d')) := by
  simp only [Prod.Lex.toLex_le_toLex]
  omega

theorem digit_le {c : Char} (h : c.isDigit = true) : c.toNat - '0'.toNat ≤ 9 := by
  simp only [Char.isDigit, Bool.and_eq_true, decide_eq_true_eq, UInt32.le_iff_toNat_le] at h
  have hzero : '0'.toNat = 48 := rfl
  have hupper : c.toNat ≤ 57 := h.2
  omega

theorem digitsValue_two {a b : Char} (ha : a.isDigit = true) (hb : b.isDigit = true) :
    digitsValue [a, b] ≤ 99 := by
  have hten := digit_le ha
  have hone := digit_le hb
  simp only [digitsValue, List.foldl_cons, List.foldl_nil]
  omega

/-- A month and a day of a name have two digits. -/
theorem parseBanListDatePrefix_bounds {name : RankName} {date : BanListDatePrefix}
    (h : parseBanListDatePrefix name = some date) : date.month ≤ 99 ∧ date.day ≤ 99 := by
  unfold parseBanListDatePrefix at h
  split at h
  · rename_i y₁ y₂ y₃ y₄ m₁ m₂ rest _
    split at h
    · rename_i hdigits
      simp only [List.all_cons, List.all_nil, Bool.and_true, Bool.and_eq_true] at hdigits
      have hmonth := digitsValue_two hdigits.2.2.2.2.1 hdigits.2.2.2.2.2
      split at h
      · rename_i d₁ d₂ after
        split at h
        · rename_i hday
          simp only [Bool.and_eq_true] at hday
          injection h with h
          subst h
          exact ⟨hmonth, digitsValue_two hday.1.1 hday.1.2⟩
        · cases h
      · split at h
        · injection h with h
          subst h
          exact ⟨hmonth, Nat.le_of_ble_eq_true rfl⟩
        · cases h
    · cases h
  · cases h

theorem dateKey_le_iff {name name' : RankName} {date date' : BanListDatePrefix}
    (h : parseBanListDatePrefix name = some date) (h' : parseBanListDatePrefix name' = some date') :
    dateKey date ≤ dateKey date' ↔ date.calendarDay ≤ date'.calendarDay := by
  obtain ⟨hm, hd⟩ := parseBanListDatePrefix_bounds h
  obtain ⟨hm', hd'⟩ := parseBanListDatePrefix_bounds h'
  exact key_le_iff hm hm' hd hd'

theorem dateKey_le_todayKey_iff {today : UTCDate} (valid : today.Valid) {name : RankName}
    {date : BanListDatePrefix} (h : parseBanListDatePrefix name = some date) :
    dateKey date ≤ todayKey today ↔ date.calendarDay ≤ today.calendarDay := by
  obtain ⟨hm, hd⟩ := parseBanListDatePrefix_bounds h
  have hmonth : today.getUTCMonth + 1 ≤ 99 := by
    have := valid.month
    omega
  have hday : today.getUTCDate ≤ 99 := le_trans valid.day.2 (by decide)
  have hkey := @key_le_iff date.year today.getUTCFullYear _ _ _ _ hm hmonth hd hday
  simpa [dateKey, todayKey, BanListDatePrefix.calendarDay, UTCDate.calendarDay] using hkey

/-! ## The newest list of a server -/

variable {group : RankGroupDefinition} {loadedNameSets : List (List RankName)} {today : UTCDate}
  {names : List RankName} {name : RankName} {date : BanListDatePrefix}

/-- A list of the server that matches the group and is dated today or earlier. -/
structure DatedMatch (group : RankGroupDefinition) (today : UTCDate) (names : List RankName)
    (name : RankName) (date : BanListDatePrefix) : Prop where
  loaded : name ∈ names
  matching : matchesGroup name group = true
  dated : parseBanListDatePrefix name = some date
  notFuture : date.calendarDay ≤ today.calendarDay

/-- The newest such list of the server, or one of them. -/
structure Newest (group : RankGroupDefinition) (today : UTCDate) (names : List RankName)
    (name : RankName) (date : BanListDatePrefix) : Prop extends
    DatedMatch group today names name date where
  newest : ∀ other day, DatedMatch group today names other day → day.calendarDay ≤ date.calendarDay

theorem maxCurrentDatedKey_eq_some (valid : today.Valid) {key : Int} :
    maxCurrentDatedKey group names (todayKey today) = some key ↔
      ∃ name date, Newest group today names name date ∧ dateKey date = key := by
  have hmem : ∀ key, key ∈ ((((names.filter (matchesGroup · group)).filterMap
      parseBanListDatePrefix).map dateKey).filter (· ≤ todayKey today)) ↔
        ∃ name date, DatedMatch group today names name date ∧ dateKey date = key := by
    intro key
    simp only [List.mem_filter, List.mem_map, List.mem_filterMap, decide_eq_true_eq]
    constructor
    · rintro ⟨⟨date, ⟨name, ⟨hloaded, hmatch⟩, hdate⟩, rfl⟩, hle⟩
      exact ⟨name, date, ⟨hloaded, hmatch, hdate, (dateKey_le_todayKey_iff valid hdate).mp hle⟩,
        rfl⟩
    · rintro ⟨name, date, h, rfl⟩
      exact ⟨⟨date, ⟨name, ⟨h.loaded, h.matching⟩, h.dated⟩, rfl⟩,
        (dateKey_le_todayKey_iff valid h.dated).mpr h.notFuture⟩
  rw [maxCurrentDatedKey, List.max?_eq_some_iff]
  constructor
  · rintro ⟨hin, hmax⟩
    obtain ⟨name, date, h, rfl⟩ := (hmem key).mp hin
    refine ⟨name, date, ⟨h, ?_⟩, rfl⟩
    intro other day hother
    exact (dateKey_le_iff hother.dated h.dated).mp (hmax _ ((hmem _).mpr ⟨other, day, hother, rfl⟩))
  · rintro ⟨name, date, h, rfl⟩
    refine ⟨(hmem _).mpr ⟨name, date, h.toDatedMatch, rfl⟩, ?_⟩
    intro key hin
    obtain ⟨other, day, hother, rfl⟩ := (hmem key).mp hin
    exact (dateKey_le_iff hother.dated h.dated).mpr (h.newest other day hother)

/-- The floor is the newest list of the server that lags most. -/
theorem currencyFloorKey_eq_some (valid : today.Valid) {floor : Int} :
    currencyFloorKey group loadedNameSets (todayKey today) = some floor ↔
      ∃ names ∈ loadedNameSets, ∃ name date, Newest group today names name date ∧
        dateKey date = floor ∧ ∀ others ∈ loadedNameSets, ∀ other day,
          Newest group today others other day → date.calendarDay ≤ day.calendarDay := by
  rw [currencyFloorKey, List.min?_eq_some_iff]
  simp only [List.mem_filterMap, maxCurrentDatedKey_eq_some valid]
  constructor
  · rintro ⟨⟨names, hnames, name, date, hnewest, hfloor⟩, hmin⟩
    refine ⟨names, hnames, name, date, hnewest, hfloor, ?_⟩
    intro others ho other day hother
    have hle := hmin _ ⟨others, ho, other, day, hother, rfl⟩
    rw [← hfloor] at hle
    exact (dateKey_le_iff hnewest.dated hother.dated).mp hle
  · rintro ⟨names, hnames, name, date, hnewest, rfl, hmin⟩
    refine ⟨⟨names, hnames, name, date, hnewest, rfl⟩, ?_⟩
    rintro key ⟨others, ho, other, day, hother, rfl⟩
    exact (dateKey_le_iff hnewest.dated hother.dated).mpr (hmin others ho other day hother)

/-- A name that is no rank list has no date. -/
theorem groupable_of_dated (h : parseBanListDatePrefix name = some date) :
    name ∉ NON_GROUPABLE_NAMES := by
  intro hname
  have hnone : ∀ other ∈ NON_GROUPABLE_NAMES, parseBanListDatePrefix other = none := by
    decide +kernel
  cases (hnone name hname).symm.trans h

/-- Every server's newest list up to today feeds the group, a future one never does, and none does
that is older than the newest list of the server that lags most. -/
theorem lagging_servers_feed (group : RankGroupDefinition) (loadedNameSets : List (List RankName))
    (today : UTCDate) (valid : today.Valid) :
    (∀ names ∈ loadedNameSets, ∀ name date, Newest group today names name date →
      name ∈ (currentListsFor group loadedNameSets today).current) ∧
    ∀ name ∈ (currentListsFor group loadedNameSets today).current, ∀ date,
      parseBanListDatePrefix name = some date →
        date.calendarDay ≤ today.calendarDay ∧
        ∃ lagging ∈ loadedNameSets, ∃ newest day, Newest group today lagging newest day ∧
          (∀ names ∈ loadedNameSets, ∀ other otherDay, Newest group today names other otherDay →
            day.calendarDay ≤ otherDay.calendarDay) ∧
          day.calendarDay ≤ date.calendarDay := by
  constructor
  · intro names hnames name date hnewest
    have hloaded : name ∈ loadedNameSets.flatten :=
      List.mem_flatten.mpr ⟨names, hnames, hnewest.loaded⟩
    have htoday := (dateKey_le_todayKey_iff valid hnewest.dated).mpr hnewest.notFuture
    obtain ⟨floor, hfloor⟩ :=
      currencyFloorKey_isSome hloaded hnewest.matching hnewest.dated htoday
    refine mem_currentListsFor.mpr ⟨hloaded, hnewest.matching, groupable_of_dated hnewest.dated, ?_⟩
    intro date' hdate
    cases hnewest.dated.symm.trans hdate
    refine ⟨htoday, floor, hfloor, ?_⟩
    obtain ⟨_, -, _, _, hleast, rfl, hmin⟩ := (currencyFloorKey_eq_some valid).mp hfloor
    exact (dateKey_le_iff hleast.dated hnewest.dated).mpr (hmin names hnames name date hnewest)
  · intro name hcurrent date hdate
    obtain ⟨-, -, -, hdated⟩ := mem_currentListsFor.mp hcurrent
    obtain ⟨htoday, floor, hfloor, hle⟩ := hdated date hdate
    obtain ⟨lagging, hlagging, newest, day, hnewest, rfl, hmin⟩ :=
      (currencyFloorKey_eq_some valid).mp hfloor
    refine ⟨(dateKey_le_todayKey_iff valid hdate).mp htoday, lagging, hlagging, newest, day,
      hnewest, hmin, ?_⟩
    exact (dateKey_le_iff hnewest.dated hdate).mp hle

/-- The lagging server still has its list of February current in April, and the other server its
own, which is the same. -/
theorem lagging_servers_feed_april :
    launchDay.Valid ∧
      "2026.02 TCG" ∈ (currentListsFor currentTcg laggingServers launchDay).current ∧
      ∀ name ∈ (currentListsFor currentTcg laggingServers launchDay).current, ∀ date,
        parseBanListDatePrefix name = some date → date.calendarDay ≤ launchDay.calendarDay := by
  have hvalid : launchDay.Valid := ⟨by decide, by decide⟩
  obtain ⟨-, hcurrent⟩ := lagging_servers_feed currentTcg laggingServers launchDay hvalid
  exact ⟨hvalid, by decide +kernel, fun name hname date hdate => (hcurrent name hname date hdate).1⟩

end EdoproServer.Stats
