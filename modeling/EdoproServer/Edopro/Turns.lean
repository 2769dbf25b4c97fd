import EdoproServer.Edopro.TurnOrder

namespace EdoproServer.Edopro

/-! ## Starting a match -/

structure LobbyClient extends Duelist where
  isReady : Bool
  deriving DecidableEq, Repr

/-- How TRY_START ends. It raises when a team has nobody to choose a hand. -/
inductive StartOutcome where
  | ignored
  | raised
  | started (t0Client t1Client : ClientRef)
  deriving DecidableEq, Repr

def tryStartHandler (players : List LobbyClient) : StartOutcome :=
  if players.all LobbyClient.isReady then
    match teamBySeat (players.map LobbyClient.toDuelist) .player,
        teamBySeat (players.map LobbyClient.toDuelist) .opponent with
    | t0Client :: _, t1Client :: _ => .started t0Client.client t1Client.client
    | _, _ => .raised
  else .ignored

/-- A room whose lobby started a match. Its clients are distinct and a team without seats has no
players. What the clients played before is left open. -/
structure StartedRoom where
  lobby : List LobbyClient
  rules : TurnOrderRules
  started : ∃ t0Client t1Client, tryStartHandler lobby = .started t0Client t1Client
  distinct : ((lobby.map LobbyClient.toDuelist).map Duelist.client).Nodup
  seats : ∀ team, (∃ p ∈ lobby, p.team = team) → 0 < rules.size team

namespace StartedRoom

def players (room : StartedRoom) : List Duelist := room.lobby.map LobbyClient.toDuelist

end StartedRoom

/-! ## Turns that go round -/

/-- The players of a team in the order of the room. -/
def teamClients (players : List Duelist) (team : Team) : List ClientRef :=
  (players.filter (fun p => p.team = team)).map Duelist.client

/-- Of the team, this client is in turn and nobody else. -/
def HasTurn (players : List Duelist) (team : Team) (client : ClientRef) : Prop :=
  ∀ p ∈ players, p.team = team → (p.inTurn = true ↔ p.client = client)

/-- There is one order of all players of the team that every run of turns goes round: each turn of
the team passes to the next, and turns of the other team change nothing. -/
def TurnsCycle (players : List Duelist) (team : Team) : Prop :=
  ∃ (order : List ClientRef) (start : Nat), order.Perm (teamClients players team) ∧
    ∀ calls : List Team, ∃ client,
      order[(start + calls.count team) % order.length]? = some client ∧
        HasTurn (calls.foldl nextTurn players) team client

/-- No team is rotated that has empty seats. -/
def RotatesFullTeams (players : List Duelist) (rules : TurnOrderRules) : Prop :=
  ∀ team ≠ .spectator, teamClients players team ≠ [] →
    rules.offset team = 0 ∨ rules.size team ≤ (teamClients players team).length

/-! ## One turn -/

variable {players : List Duelist}

def byDuelPosition (players : List Duelist) (team : Team) : List Duelist :=
  (players.filter (fun p => p.team = team)).insertionSort
    (fun a b => a.duelPosition ≤ b.duelPosition)

def turnOrder (players : List Duelist) (team : Team) : List ClientRef :=
  (byDuelPosition players team).map Duelist.client

theorem mem_byDuelPosition {team : Team} {p : Duelist} :
    p ∈ byDuelPosition players team ↔ p ∈ players ∧ p.team = team := by
  simp [byDuelPosition]

theorem seat_eq_iff {p q : Duelist} :
    q.seat = p.seat ↔ q.client = p.client ∧ q.team = p.team ∧ q.position = p.position := by
  simp [Duelist.seat]

theorem turnOrder_perm (team : Team) : (turnOrder players team).Perm (teamClients players team) :=
  (List.perm_insertionSort _ _).map _

theorem turnOrder_nodup (hd : (players.map Duelist.client).Nodup) (team : Team) :
    (turnOrder players team).Nodup :=
  (turnOrder_perm team).nodup_iff.mpr (hd.sublist (List.filter_sublist.map _))

@[simp] theorem turnOrder_setTurn (client : ClientRef) (inTurn : Bool) (team : Team) :
    turnOrder (setTurn players client inTurn) team = turnOrder players team := by
  have hfilter : (setTurn players client inTurn).filter (fun p => p.team = team) =
      setTurn (players.filter (fun p => p.team = team)) client inTurn := by
    rw [setTurn, setTurn, List.filter_map]
    congr 2
    funext p
    simp only [Function.comp_apply]
    split
    · rfl
    · rfl
  rw [turnOrder, turnOrder, byDuelPosition, byDuelPosition, hfilter, setTurn,
    ← List.map_insertionSort (fun a b : Duelist => a.duelPosition ≤ b.duelPosition), List.map_map]
  · congr 1
    funext p
    simp only [Function.comp_apply]
    split
    · rfl
    · rfl
  · intro a _ b _
    split
    · split
      · rfl
      · rfl
    · split
      · rfl
      · rfl

theorem mem_setTurn {client : ClientRef} {inTurn : Bool} {p : Duelist}
    (h : p ∈ setTurn players client inTurn) :
    ∃ q ∈ players, q.seat = p.seat ∧
      p.inTurn = if q.client = client then inTurn else q.inTurn := by
  obtain ⟨q, hq, rfl⟩ := List.mem_map.mp h
  refine ⟨q, hq, ?_, ?_⟩
  · split
    · rfl
    · rfl
  · split
    · rfl
    · rfl

/-- Who is in turn once the turn went from one client to another. -/
theorem mem_setTurn_setTurn {current next : ClientRef} {p : Duelist}
    (h : p ∈ setTurn (setTurn players current false) next true) :
    ∃ q ∈ players, q.seat = p.seat ∧
      (p.inTurn = true ↔ q.client = next ∨ q.inTurn = true ∧ q.client ≠ current) := by
  obtain ⟨o, ho, hop, hnext⟩ := mem_setTurn h
  obtain ⟨q, hq, hqo, hcurrent⟩ := mem_setTurn ho
  refine ⟨q, hq, hqo.trans hop, ?_⟩
  rw [hnext, hcurrent, ← (seat_eq_iff.mp hqo).1]
  by_cases hn : q.client = next
  · simp [hn]
  · by_cases hc : q.client = current
    · simp [hc]
    · simp [hn, hc]

theorem index_eq_of_nodup {l : List Duelist} (h : (l.map Duelist.client).Nodup) {i j : Nat}
    (hi : i < l.length) (hj : j < l.length) (hsame : l[i].client = l[j].client) : i = j := by
  have heq := List.inj_on_of_nodup_map h (List.getElem_mem hi) (List.getElem_mem hj) hsame
  exact (h.of_map _).getElem_inj_iff.mp heq

/-- A turn changes nothing, or takes the turn from one member and gives it to another. -/
theorem nextTurn_cases (players : List Duelist) (team : Team) : nextTurn players team = players ∨
    ∃ current next, current ∈ byDuelPosition players team ∧ next ∈ byDuelPosition players team ∧
      nextTurn players team = setTurn (setTurn players current.client false) next.client true := by
  unfold nextTurn
  dsimp only
  split
  · exact Or.inl rfl
  · split
    · rename_i current next hcurrent hnext
      exact Or.inr ⟨current, next, List.mem_of_getElem? hcurrent, List.mem_of_getElem? hnext, rfl⟩
    · exact Or.inl rfl

@[simp] theorem turnOrder_nextTurn (other team : Team) :
    turnOrder (nextTurn players other) team = turnOrder players team := by
  rcases nextTurn_cases players other with h | ⟨current, next, _, _, h⟩
  · rw [h]
  · rw [h, turnOrder_setTurn, turnOrder_setTurn]

theorem nextTurn_nodup (hd : (players.map Duelist.client).Nodup) (team : Team) :
    ((nextTurn players team).map Duelist.client).Nodup := by
  rw [map_client_of_seats (nextTurn_seats team)]
  exact hd

/-- Whoever is in turn passes the turn to the next of the order. -/
theorem HasTurn.nextTurn (hd : (players.map Duelist.client).Nodup) {team : Team}
    {client : ClientRef} {k : Nat} (hk : (turnOrder players team)[k]? = some client)
    (h : HasTurn players team client) :
    ∃ next, (turnOrder players team)[(k + 1) % (turnOrder players team).length]? = some next ∧
      HasTurn (nextTurn players team) team next := by
  have hlength : (turnOrder players team).length = (byDuelPosition players team).length :=
    List.length_map _
  rw [turnOrder, List.getElem?_map, Option.map_eq_some_iff] at hk
  obtain ⟨current, hcurrent, rfl⟩ := hk
  obtain ⟨hlt, rfl⟩ := List.getElem?_eq_some_iff.mp hcurrent
  have hnext : (k + 1) % (byDuelPosition players team).length <
      (byDuelPosition players team).length := Nat.mod_lt _ (by omega)
  refine ⟨(byDuelPosition players team)[(k + 1) % (byDuelPosition players team).length].client,
    ?_, ?_⟩
  · rw [hlength, turnOrder, List.getElem?_map, List.getElem?_eq_getElem hnext]
    rfl
  · have hturn : ∀ p ∈ byDuelPosition players team,
        (p.inTurn = true ↔ p.client = (byDuelPosition players team)[k].client) :=
      fun p hp => h p (mem_byDuelPosition.mp hp).1 (mem_byDuelPosition.mp hp).2
    have hidx : (byDuelPosition players team).findIdx? Duelist.inTurn = some k := by
      rw [List.findIdx?_eq_some_iff_getElem]
      refine ⟨hlt, (hturn _ (List.getElem_mem hlt)).mpr rfl, ?_⟩
      intro j hj hinturn
      have hsame := (hturn _ (List.getElem_mem (hj.trans hlt))).mp hinturn
      have hnodup := turnOrder_nodup hd team
      rw [turnOrder] at hnodup
      have hjk := index_eq_of_nodup hnodup (hj.trans hlt) hlt hsame
      omega
    have heq : Edopro.nextTurn players team =
        setTurn (setTurn players (byDuelPosition players team)[k].client false)
          (byDuelPosition players team)[(k + 1) % (byDuelPosition players team).length].client
          true := by
      unfold byDuelPosition at hidx hlt hnext ⊢
      unfold Edopro.nextTurn
      simp only [hidx, List.getElem?_eq_getElem hlt, List.getElem?_eq_getElem hnext]
    rw [heq]
    intro p hp hteam
    obtain ⟨q, hq, hseat, hinTurn⟩ := mem_setTurn_setTurn hp
    obtain ⟨hclient, hteams, _⟩ := seat_eq_iff.mp hseat
    rw [hinTurn, h q hq (hteams.trans hteam), ← hclient]
    simp

/-- A turn of the other team leaves the turn where it is. -/
theorem HasTurn.nextTurn_other (hd : (players.map Duelist.client).Nodup) {team other : Team}
    (ht : team ≠ other) {client : ClientRef} (h : HasTurn players team client) :
    HasTurn (Edopro.nextTurn players other) team client := by
  rcases nextTurn_cases players other with heq | ⟨current, next, hc, hn, heq⟩
  · rw [heq]
    exact h
  · rw [heq]
    intro p hp hteam
    obtain ⟨q, hq, hseat, hinTurn⟩ := mem_setTurn_setTurn hp
    obtain ⟨hclient, hteams, _⟩ := seat_eq_iff.mp hseat
    have hother : ∀ o ∈ byDuelPosition players other, p.client ≠ o.client := by
      intro o ho hsame
      have hqo : q = o := List.inj_on_of_nodup_map hd hq (mem_byDuelPosition.mp ho).1
        (hclient.trans hsame)
      have hoteam := (mem_byDuelPosition.mp ho).2
      rw [← hqo, hteams, hteam] at hoteam
      exact ht hoteam
    rw [hinTurn, h q hq (hteams.trans hteam), hclient]
    simp [hother current hc, hother next hn]

/-! ## A run of turns -/

/-- Each call of the team is one step along its order. -/
theorem HasTurn.run {team : Team} (calls : List Team) {k : Nat} {client : ClientRef}
    (hd : (players.map Duelist.client).Nodup)
    (hk : (turnOrder players team)[k % (turnOrder players team).length]? = some client)
    (h : HasTurn players team client) :
    ∃ last, (turnOrder players team)[(k + calls.count team) %
        (turnOrder players team).length]? = some last ∧
      HasTurn (calls.foldl Edopro.nextTurn players) team last := by
  induction calls generalizing players k client with
  | nil => exact ⟨client, hk, h⟩
  | cons call calls ih =>
    have hd' := nextTurn_nodup hd call
    by_cases ht : call = team
    · subst ht
      obtain ⟨next, hnext, hturn⟩ := h.nextTurn hd hk
      rw [Nat.mod_add_mod, ← turnOrder_nextTurn call call] at hnext
      obtain ⟨last, hlast, hrun⟩ := ih hd' hnext hturn
      rw [turnOrder_nextTurn] at hlast
      rw [List.count_cons_self, Nat.add_comm (calls.count call), ← Nat.add_assoc]
      exact ⟨last, hlast, hrun⟩
    · rw [← turnOrder_nextTurn call team] at hk
      obtain ⟨last, hlast, hrun⟩ := ih hd' hk (h.nextTurn_other hd (Ne.symm ht))
      rw [turnOrder_nextTurn] at hlast
      rw [List.count_cons_of_ne ht]
      exact ⟨last, hlast, hrun⟩

theorem HasTurn.cycles (hd : (players.map Duelist.client).Nodup) {team : Team}
    {client : ClientRef} (hc : client ∈ teamClients players team)
    (h : HasTurn players team client) : TurnsCycle players team := by
  obtain ⟨k, hk⟩ := List.getElem?_of_mem ((turnOrder_perm team).mem_iff.mpr hc)
  obtain ⟨hlt, _⟩ := List.getElem?_eq_some_iff.mp hk
  refine ⟨turnOrder players team, k, turnOrder_perm team, ?_⟩
  intro calls
  rw [← Nat.mod_eq_of_lt hlt] at hk
  exact h.run calls hd hk

/-- A team that has no turn never gets one. -/
theorem NoneInTurn.not_cycles {team : Team} (h : NoneInTurn players team) :
    ¬TurnsCycle players team := by
  rintro ⟨order, start, hperm, hcalls⟩
  obtain ⟨client, hclient, hturn⟩ := hcalls []
  have hmem := hperm.mem_iff.mp (List.mem_of_getElem? hclient)
  obtain ⟨p, hp, hpc⟩ := List.mem_map.mp hmem
  have hp' := List.mem_filter.mp hp
  have hteam : p.team = team := by simpa using hp'.2
  have hinTurn := (hturn p hp'.1 hteam).mpr hpc
  rw [h p hp'.1 hteam] at hinTurn
  cases hinTurn

/-! ## The first turn of a duel -/

theorem setDuelPosition_other (seated : List Duelist) {offset size : Nat} {p : Duelist}
    (h : ∀ o ∈ seated, o.client ≠ p.client) : setDuelPosition seated offset size p = p := by
  have hnone : seated.findIdx? (fun o => o.client = p.client) = none := by
    simpa [List.findIdx?_eq_none_iff] using h
  simp [setDuelPosition, hnone]

theorem setDuelPosition_at {seated : List Duelist} (hd : (seated.map Duelist.client).Nodup)
    {offset size i : Nat} (hi : i < seated.length) :
    (setDuelPosition seated offset size seated[i]).duelPosition = (i + offset) % size := by
  have hidx : seated.findIdx? (fun o => o.client = seated[i].client) = some i := by
    rw [List.findIdx?_eq_some_iff_getElem]
    refine ⟨hi, by simp, ?_⟩
    intro j hj hsame
    have hji := index_eq_of_nodup hd (hj.trans hi) hi (by simpa using hsame)
    omega
  simp [setDuelPosition, hidx]

/-- The duel positions of a team are its seats, rotated. -/
theorem positioned_iff (hd : (players.map Duelist.client).Nodup) (rules : TurnOrderRules)
    {team : Team} (ht : team ≠ .spectator) (n : Nat) :
    (∃ p ∈ positioned players rules, p.team = team ∧ p.duelPosition = n) ↔
      ∃ i < (teamClients players team).length, (i + rules.offset team) % rules.size team = n := by
  have hlength : (teamBySeat players team).length = (teamClients players team).length := by
    simp [teamBySeat, teamClients]
  have hnodup : ((teamBySeat players team).map Duelist.client).Nodup :=
    ((List.perm_insertionSort _ _).map _).nodup_iff.mpr (hd.sublist (List.filter_sublist.map _))
  have hplace : ∀ q ∈ players, q.team = team →
      setDuelPosition (teamBySeat players .opponent) (rules.offset .opponent)
          (rules.size .opponent)
          (setDuelPosition (teamBySeat players .player) (rules.offset .player)
            (rules.size .player) q) =
        setDuelPosition (teamBySeat players team) (rules.offset team) (rules.size team) q := by
    intro q hq hteam
    have hother : ∀ other ≠ team, ∀ o ∈ teamBySeat players other, o.client ≠ q.client := by
      intro other hne o ho hsame
      obtain ⟨ho, hoteam⟩ := mem_teamBySeat.mp ho
      have hoq : o = q := List.inj_on_of_nodup_map hd ho hq hsame
      rw [hoq, hteam] at hoteam
      exact hne hoteam.symm
    cases team with
    | spectator => exact absurd rfl ht
    | player =>
      rw [setDuelPosition_other (teamBySeat players .opponent)]
      intro o ho
      rw [setDuelPosition_client]
      exact hother .opponent (by simp) o ho
    | opponent =>
      rw [setDuelPosition_other _ (hother .player (by simp))]
  constructor
  · rintro ⟨p, hp, hteam, rfl⟩
    obtain ⟨q, hq, rfl⟩ := List.mem_map.mp hp
    have hqteam : q.team = team := by
      have hseat : q.seat = (setDuelPosition (teamBySeat players .opponent)
          (rules.offset .opponent) (rules.size .opponent) (setDuelPosition
            (teamBySeat players .player) (rules.offset .player) (rules.size .player) q)).seat := by
        simp
      exact (seat_eq_iff.mp hseat).2.1.trans hteam
    obtain ⟨i, hi, rfl⟩ := List.getElem_of_mem (mem_teamBySeat.mpr ⟨hq, hqteam⟩)
    rw [hplace _ hq hqteam, setDuelPosition_at hnodup hi]
    exact ⟨i, hlength ▸ hi, rfl⟩
  · rintro ⟨i, hi, rfl⟩
    rw [← hlength] at hi
    obtain ⟨hq, hqteam⟩ := mem_teamBySeat.mp (List.getElem_mem hi)
    refine ⟨_, List.mem_map_of_mem hq, ?_, ?_⟩
    · rw [hplace _ hq hqteam]
      exact (seat_eq_iff.mp (seat_setDuelPosition _ _ _ _)).2.1.trans hqteam
    · rw [hplace _ hq hqteam, setDuelPosition_at hnodup hi]

theorem offset_le_one (rules : TurnOrderRules) (team : Team) : rules.offset team ≤ 1 := by
  cases team <;> simp only [TurnOrderRules.offset] <;> split <;> try split
  all_goals omega

/-- Duel position 0 is taken unless the team is rotated and has empty seats. -/
theorem zero_taken_iff {offset size count : Nat} (hoffset : offset ≤ 1) (hsize : 0 < size)
    (hcount : 0 < count) :
    (∃ i < count, (i + offset) % size = 0) ↔ offset = 0 ∨ size ≤ count := by
  constructor
  · rintro ⟨i, hi, hzero⟩
    by_cases h : offset = 0
    · exact Or.inl h
    · have hle := Nat.le_of_dvd (by omega) (Nat.dvd_of_mod_eq_zero hzero)
      omega
  · intro h
    by_cases hoff : offset = 0
    · exact ⟨0, hcount, by simp [hoff]⟩
    · refine ⟨size - 1, by omega, ?_⟩
      have hlast : size - 1 + offset = size := by omega
      rw [hlast, Nat.mod_self]

theorem teamClients_of_seats {players' : List Duelist}
    (h : players'.map Duelist.seat = players.map Duelist.seat) (team : Team) :
    teamClients players' team = teamClients players team := by
  have hclients : ∀ l : List Duelist, teamClients l team =
      ((l.map Duelist.seat).filter (fun s => s.2.1 = team)).map Prod.fst := by
    intro l
    rw [teamClients, List.filter_map, List.map_map]
    rfl
  rw [hclients, hclients, h]

theorem HasTurn.giveFirstTurn_other (hd : (players.map Duelist.client).Nodup)
    {team other : Team} (ht : team ≠ other) {client : ClientRef}
    (h : HasTurn players team client) :
    HasTurn (Edopro.giveFirstTurn players other) team client := by
  unfold Edopro.giveFirstTurn
  cases hfirst : (teamBySeat players other).find? (fun p => p.duelPosition = 0) with
  | none => exact h
  | some first =>
    intro p hp hteam
    obtain ⟨q, hq, hseat, hinTurn⟩ := mem_setTurn hp
    obtain ⟨hclient, hteams, _⟩ := seat_eq_iff.mp hseat
    obtain ⟨hmem, hfirstTeam⟩ := mem_teamBySeat.mp (List.mem_of_find?_eq_some hfirst)
    have hne : q.client ≠ first.client := by
      intro hsame
      rw [← List.inj_on_of_nodup_map hd hq hmem hsame, hteams, hteam] at hfirstTeam
      exact ht hfirstTeam
    rw [hinTurn, if_neg hne, ← hclient]
    exact h q hq (hteams.trans hteam)

/-- The first player on duel position 0 gets the turn. -/
theorem giveFirstTurn_given {team : Team} (h : NoneInTurn players team)
    (hzero : ∃ p ∈ players, p.team = team ∧ p.duelPosition = 0) :
    ∃ client ∈ teamClients players team, HasTurn (giveFirstTurn players team) team client := by
  unfold giveFirstTurn
  cases hfirst : (teamBySeat players team).find? (fun p => p.duelPosition = 0) with
  | none =>
    obtain ⟨p, hp, hteam, hpos⟩ := hzero
    rw [List.find?_eq_none] at hfirst
    exact absurd hpos (by simpa using hfirst p (mem_teamBySeat.mpr ⟨hp, hteam⟩))
  | some first =>
    obtain ⟨hmem, hfirstTeam⟩ := mem_teamBySeat.mp (List.mem_of_find?_eq_some hfirst)
    refine ⟨first.client, List.mem_map_of_mem (by simp [hmem, hfirstTeam]), ?_⟩
    intro p hp hteam
    obtain ⟨q, hq, hseat, hinTurn⟩ := mem_setTurn hp
    obtain ⟨hclient, hteams, _⟩ := seat_eq_iff.mp hseat
    rw [hinTurn, h q hq (hteams.trans hteam), ← hclient]
    by_cases hsame : q.client = first.client
    · simp [hsame]
    · simp [hsame]

theorem giveFirstTurn_missing {team : Team}
    (h : ¬∃ p ∈ players, p.team = team ∧ p.duelPosition = 0) :
    giveFirstTurn players team = players := by
  unfold giveFirstTurn
  cases hfirst : (teamBySeat players team).find? (fun p => p.duelPosition = 0) with
  | none => rfl
  | some first =>
    obtain ⟨hmem, hteam⟩ := mem_teamBySeat.mp (List.mem_of_find?_eq_some hfirst)
    exact absurd ⟨first, hmem, hteam, by simpa using List.find?_some hfirst⟩ h

/-- The turn does not move anybody to another duel position. -/
theorem giveFirstTurn_places (team : Team) :
    (giveFirstTurn players team).map (fun p => (p.team, p.duelPosition)) =
      players.map (fun p => (p.team, p.duelPosition)) := by
  unfold giveFirstTurn
  split
  · rfl
  · simp only [setTurn, List.map_map, List.map_inj_left, Function.comp_apply]
    intro p _
    split
    · rfl
    · rfl

theorem giveFirstTurn_zero (other team : Team) :
    (∃ p ∈ giveFirstTurn players other, p.team = team ∧ p.duelPosition = 0) ↔
      ∃ p ∈ players, p.team = team ∧ p.duelPosition = 0 := by
  have hplaces : ∀ l : List Duelist, (∃ p ∈ l, p.team = team ∧ p.duelPosition = 0) ↔
      (team, 0) ∈ l.map (fun p => (p.team, p.duelPosition)) := by
    intro l
    simp
  rw [hplaces, hplaces, giveFirstTurn_places]

/-- A team's turns go round in a duel exactly if somebody sits on its duel position 0. -/
theorem prepareTurnOrder_cycles_iff (hd : (players.map Duelist.client).Nodup)
    (rules : TurnOrderRules) {team : Team} (ht : team ≠ .spectator) :
    TurnsCycle (prepareTurnOrder players rules) team ↔
      ∃ p ∈ positioned players rules, p.team = team ∧ p.duelPosition = 0 := by
  have hds : ((positioned players rules).map Duelist.client).Nodup := by
    rw [map_client_of_seats (positioned_seats rules)]
    exact hd
  have hdp : ((giveFirstTurn (positioned players rules) .player).map Duelist.client).Nodup := by
    rw [map_client_of_seats (giveFirstTurn_seats .player)]
    exact hds
  have hdo : ((prepareTurnOrder players rules).map Duelist.client).Nodup := by
    rw [map_client_of_seats (prepareTurnOrder_seats rules)]
    exact hd
  have hnone : NoneInTurn (positioned players rules) team := positioned_noneInTurn rules ht
  constructor
  · intro hcycles
    by_contra hzero
    refine NoneInTurn.not_cycles ?_ hcycles
    rw [prepareTurnOrder_eq]
    cases team with
    | spectator => exact absurd rfl ht
    | player =>
      rw [giveFirstTurn_missing hzero]
      exact hnone.giveFirstTurn_other hds (by simp)
    | opponent =>
      rw [giveFirstTurn_missing (mt (giveFirstTurn_zero .player .opponent).mp hzero)]
      exact hnone.giveFirstTurn_other hds (by simp)
  · intro hzero
    have hturn : ∃ client ∈ teamClients (positioned players rules) team,
        HasTurn (prepareTurnOrder players rules) team client := by
      rw [prepareTurnOrder_eq]
      cases team with
      | spectator => exact absurd rfl ht
      | player =>
        obtain ⟨client, hclient, h⟩ := giveFirstTurn_given hnone hzero
        exact ⟨client, hclient, h.giveFirstTurn_other hdp (by simp)⟩
      | opponent =>
        obtain ⟨client, hclient, h⟩ := giveFirstTurn_given
          (hnone.giveFirstTurn_other hds (by simp))
          ((giveFirstTurn_zero .player .opponent).mpr hzero)
        rw [teamClients_of_seats (giveFirstTurn_seats .player)] at hclient
        exact ⟨client, hclient, h⟩
    obtain ⟨client, hclient, h⟩ := hturn
    rw [teamClients_of_seats (positioned_seats rules),
      ← teamClients_of_seats (prepareTurnOrder_seats rules)] at hclient
    exact h.cycles hdo hclient

/-- In the duels of a started match every team with players has exactly one of them in turn, and
the turns of a team go round all its players, exactly when no team with empty seats is rotated. -/
theorem turns_cycle_iff (room : StartedRoom) :
    (∀ team ≠ .spectator, teamClients room.players team ≠ [] →
        TurnsCycle (prepareTurnOrder room.players room.rules) team) ↔
      RotatesFullTeams room.players room.rules := by
  have hone : ∀ team ≠ .spectator, teamClients room.players team ≠ [] →
      (TurnsCycle (prepareTurnOrder room.players room.rules) team ↔
        (room.rules.offset team = 0 ∨
          room.rules.size team ≤ (teamClients room.players team).length)) := by
    intro team ht hplayers
    have hsize : 0 < room.rules.size team := by
      obtain ⟨client, hclient⟩ := List.exists_mem_of_ne_nil _ hplayers
      obtain ⟨p, hp, _⟩ := List.mem_map.mp hclient
      obtain ⟨hp, hteam⟩ := List.mem_filter.mp hp
      obtain ⟨c, hc, rfl⟩ := List.mem_map.mp hp
      exact room.seats team ⟨c, hc, by simpa using hteam⟩
    have hd : (room.players.map Duelist.client).Nodup := room.distinct
    rw [prepareTurnOrder_cycles_iff hd room.rules ht, positioned_iff hd room.rules ht,
      zero_taken_iff (offset_le_one room.rules team) hsize (List.length_pos_iff.mpr hplayers)]
  constructor
  · intro h team ht hplayers
    exact (hone team ht hplayers).mp (h team ht hplayers)
  · intro h team ht hplayers
    exact (hone team ht hplayers).mpr (h team ht hplayers)

/-- One player sits on either team of a tag room with two seats a team, both ready. -/
def halfTagRoom : StartedRoom where
  lobby := [
    { client := 0, team := .player, position := 0, duelPosition := 0, inTurn := false,
      isReady := true },
    { client := 1, team := .opponent, position := 2, duelPosition := 0, inTurn := false,
      isReady := true }]
  rules := { team0 := 2, team1 := 2, isRelay := false, firstToPlay := 0 }
  started := ⟨0, 1, by decide⟩
  distinct := by decide
  seats := by
    intro team _
    cases team <;> decide

/-- The team that plays second has no turn at all. -/
theorem halfTagRoom_no_turn :
    ¬∀ team ≠ .spectator, teamClients halfTagRoom.players team ≠ [] →
      TurnsCycle (prepareTurnOrder halfTagRoom.players halfTagRoom.rules) team := by
  intro h
  have hnone : NoneInTurn (prepareTurnOrder halfTagRoom.players halfTagRoom.rules) .opponent := by
    unfold NoneInTurn
    decide
  exact hnone.not_cycles (h .opponent (by decide) (by decide))

end EdoproServer.Edopro
