import EdoproServer.Engine.OCGCore
import EdoproServer.Room.LifePoints
import EdoproServer.Room.SeatIntegrity

namespace EdoproServer.Room
open Decks Engine Lib

/-! ## Decks on their way to the engine -/

section

variable {α : Type}

def swapElements (players : List α) (a b : Nat) : List α :=
  match players[a]?, players[b]? with
  | some x, some y => (players.set a y).set b x
  | _, _ => players

/-- Four players change sides in pairs, any other number of them by the first two. -/
def toSwappedPlayers (isSwapped : Bool) (players : List α) : List α :=
  if !isSwapped then players
  else if players.length = 4 then swapElements (swapElements players 0 2) 1 3
  else swapElements players 0 1

/-- A deck in the engine: whose it is, its place in the list that was handed over, and whether it
waits for its player's turn. -/
structure LoadedDeck (α : Type) where
  owner : Side
  index : Nat
  tagged : Bool
  deck : α

/-- The places of the list, the sides they go to and whether they wait, in the order of loading. -/
def deckSlots (isTag : Bool) : List (Nat × Side × Bool) :=
  if isTag then [(0, 0, false), (1, 0, true), (3, 1, false), (2, 1, true)]
  else [(0, 0, false), (1, 1, false)]

/-- A place that the list does not have is left out. -/
def loadDecks (isTag : Bool) (decks : List α) : List (LoadedDeck α) :=
  (deckSlots isTag).filterMap (fun slot =>
    decks[slot.1]?.map (fun deck =>
      { owner := slot.2.1, index := slot.1, tagged := slot.2.2, deck := deck }))

/-- The decks of a side by their places in the list. -/
def decksOf (side : Side) (loaded : List (LoadedDeck α)) : List α :=
  ((loaded.filter (fun deck => deck.owner = side)).insertionSort
    (fun a b => a.index ≤ b.index)).map LoadedDeck.deck

end

namespace YGOProRoom

section

variable (cfg : RoomConfig) (hasTimeLimit : Bool) (room : YGOProRoom)

/-- What the engine wrapper reads of this room. -/
def duelTable : DuelTable :=
  { players := room.players.map (fun c =>
      { client := c, team := (room.client c).team, position := (room.client c).position })
    isTag := cfg.isTag
    isPositionSwapped := room.isPositionSwapped
    hasTimeLimit := hasTimeLimit }

def getPlayersAtIngamePosition (side : Side) : List ClientRef :=
  room.getTeamPlayers ((room.duelTable cfg hasTimeLimit).getSideTeam side)

/-- The decks in the engine of a duel. `prepare` is what shuffling and the side-in cards make of a
player's deck. -/
def engineDecks (prepare : ClientRef → Deck → Deck) (decks : List (ClientRef × Deck)) :
    List (LoadedDeck (ClientRef × Deck)) :=
  loadDecks cfg.isTag
    (toSwappedPlayers room.isPositionSwapped (decks.map (fun p => (p.1, prepare p.1 p.2))))

end

/-- The seats of a team by the mode of the room. -/
def teamCount (cfg : RoomConfig) : Nat := if cfg.isTag then 2 else 1

/-- A room whose host may start the match: the players sit on different places, everybody is ready
and no team is empty. -/
structure MayStart (cfg : RoomConfig) (room : YGOProRoom) : Prop where
  team0 : cfg.team0 = teamCount cfg
  team1 : cfg.team1 = teamCount cfg
  seats : SeatIntegrity cfg room.toSeating
  ready : room.allPlayersReady = true
  counted : room.deckCountRaises = false

/-- A player's deck as the engine gets it. -/
def ownDeck (prepare : ClientRef → Deck → Deck) (room : YGOProRoom) (c : ClientRef) :
    Option (ClientRef × Deck) :=
  (room.client c).deck.map (fun deck => (c, prepare c deck))

/-- Engine side, team and decks agree: a side has the decks of the team that plays it, and whoever
acts for it or sees with its eyes is of that team. -/
structure SidesAgree (cfg : RoomConfig) (hasTimeLimit : Bool) (prepare : ClientRef → Deck → Deck)
    (room : YGOProRoom) (decks : List (ClientRef × Deck)) : Prop where
  decks : ∀ side, decksOf side (room.engineDecks cfg prepare decks) =
    (room.getTeamPlayers ((room.duelTable cfg hasTimeLimit).getSideTeam side)).filterMap
      (ownDeck prepare room)
  actor : ∀ side turn, ∃ c ∈ room.players,
    (room.duelTable cfg hasTimeLimit).getActivePlayer side turn = some c ∧
      (room.client c).team = (room.duelTable cfg hasTimeLimit).getSideTeam side
  viewers : ∀ side, ∀ c ∈ room.getPlayersAtIngamePosition cfg hasTimeLimit side,
    (room.client c).team = (room.duelTable cfg hasTimeLimit).getSideTeam side

/-- Both teams are complete, or the first team is and nobody is swapped. -/
def TeamsFillSides (cfg : RoomConfig) (room : YGOProRoom) : Prop :=
  cfg.isTag = true → room.players.length = 4 ∨
    room.isPositionSwapped = false ∧ (room.getTeamPlayers .player).length = 2

end YGOProRoom

/-! ## Lists of decks -/

section

variable {α : Type}

/-- Of the lists of two teams, the one of the team that plays a side. -/
def teamList (isSwapped : Bool) (side : Side) (first second : List α) : List α :=
  if isSwapped then (if side = 0 then second else first)
  else (if side = 0 then first else second)

/-- In a single duel the two decks go to the two sides. -/
theorem decksOf_single (isSwapped : Bool) (x y : α) (side : Side) :
    decksOf side (loadDecks false (toSwappedPlayers isSwapped [x, y])) =
      teamList isSwapped side [x] [y] := by
  cases isSwapped <;> fin_cases side <;>
    simp [decksOf, loadDecks, deckSlots, toSwappedPlayers, swapElements, teamList]

/-- In a tag duel the decks go to the right sides if the swap moves whole teams and the second
team starts at the third place of the list. -/
theorem decksOf_tag_iff (isSwapped : Bool) (first second : List α)
    (hfirst : first.length = 1 ∨ first.length = 2)
    (hsecond : second.length = 1 ∨ second.length = 2)
    (hdisjoint : ∀ x ∈ first, x ∉ second) :
    (∀ side, decksOf side (loadDecks true (toSwappedPlayers isSwapped (first ++ second))) =
        teamList isSwapped side first second) ↔
      (first ++ second).length = 4 ∨ isSwapped = false ∧ first.length = 2 := by
  rw [Fin.forall_fin_two]
  match first, hfirst with
  | [x], _ =>
    match second, hsecond with
    | [y], _ =>
      cases isSwapped <;>
        simp [decksOf, loadDecks, deckSlots, toSwappedPlayers, swapElements, teamList]
    | [y, y'], _ =>
      have hne : x ≠ y' := by
        intro h
        exact hdisjoint x (by simp) (by simp [h])
      cases isSwapped <;>
        simp [decksOf, loadDecks, deckSlots, toSwappedPlayers, swapElements, teamList, hne]
  | [x, x'], _ =>
    match second, hsecond with
    | [y], _ =>
      cases isSwapped <;>
        simp [decksOf, loadDecks, deckSlots, toSwappedPlayers, swapElements, teamList]
    | [y, y'], _ =>
      cases isSwapped <;>
        simp [decksOf, loadDecks, deckSlots, toSwappedPlayers, swapElements, teamList]

end

/-! ## Who acts for a side -/

/-- Some player of the team that plays a side acts for it. -/
theorem getActivePlayer_mem (table : DuelTable) (side : Side) (turn : Nat)
    (h : ∃ p ∈ table.players, p.team = table.getSideTeam side) :
    ∃ p ∈ table.players, p.team = table.getSideTeam side ∧
      table.getActivePlayer side turn = some p.client := by
  have hmem : ∀ p, p ∈ table.players.filter (fun p => p.team = table.getSideTeam side) →
      p ∈ table.players ∧ p.team = table.getSideTeam side := by
    intro p hp
    simpa using hp
  have hne : table.players.filter (fun p => p.team = table.getSideTeam side) ≠ [] := by
    obtain ⟨p, hp, hteam⟩ := h
    exact List.ne_nil_of_mem (List.mem_filter.mpr ⟨hp, by simpa using hteam⟩)
  unfold DuelTable.getActivePlayer
  dsimp only
  generalize table.players.filter (fun p => p.team = table.getSideTeam side) = teamPlayers
    at hmem hne
  split
  · obtain ⟨first, hfirst⟩ := Option.ne_none_iff_exists'.mp (mt List.head?_eq_none_iff.mp hne)
    obtain ⟨hp, hteam⟩ := hmem first (List.mem_of_head? hfirst)
    exact ⟨first, hp, hteam, by simp [hfirst]⟩
  · -- A teammate is chosen by the turn, or the first one if that seat is empty.
    generalize (if side = 0 then (turn - 1) / 2 % 2 else 1 - turn / 2 % 2) = idx
    generalize hsorted : teamPlayers.mergeSort (fun a b => a.position ≤ b.position) = sorted
    have hperm : ∀ p, p ∈ sorted → p ∈ teamPlayers := by
      intro p hp
      rw [← hsorted] at hp
      exact (List.mergeSort_perm _ _).mem_iff.mp hp
    cases hidx : sorted[idx]? with
    | some p =>
      obtain ⟨hp, hteam⟩ := hmem p (hperm p (List.mem_of_getElem? hidx))
      exact ⟨p, hp, hteam, by simp⟩
    | none =>
      have hsome : sorted ≠ [] := by
        intro hnil
        rw [hnil] at hsorted
        have hlen := congrArg List.length hsorted
        rw [List.length_mergeSort, List.length_nil] at hlen
        exact hne (List.length_eq_zero_iff.mp hlen)
      obtain ⟨first, hfirst⟩ := Option.ne_none_iff_exists'.mp (mt List.head?_eq_none_iff.mp hsome)
      obtain ⟨hp, hteam⟩ := hmem first (hperm first (List.mem_of_head? hfirst))
      exact ⟨first, hp, hteam, by simp [hfirst]⟩

namespace YGOProRoom

variable {cfg : RoomConfig} {room : YGOProRoom}

theorem mem_getTeamPlayers {c : ClientRef} {team : Team} :
    c ∈ room.getTeamPlayers team ↔ c ∈ room.players ∧ (room.client c).team = team := by
  simp [getTeamPlayers, List.mem_insertionSort]

/-- The places of a team, which its players occupy once each. -/
theorem getTeamPlayers_length_le (h : MayStart cfg room) (team : Team) (positions : List Nat)
    (hpositions : ∀ c ∈ room.getTeamPlayers team, (room.client c).position ∈ positions) :
    (room.getTeamPlayers team).length ≤ positions.length := by
  have hnodup : ((room.getTeamPlayers team).map (fun c => (room.client c).position)).Nodup := by
    apply List.Nodup.map_on
    · intro a ha b hb hab
      exact h.seats.distinct a (mem_getTeamPlayers.mp ha).1 b (mem_getTeamPlayers.mp hb).1 hab
    · exact (List.perm_insertionSort _ _).nodup_iff.mpr (h.seats.nodup.filter _)
  have hsub : (room.getTeamPlayers team).map (fun c => (room.client c).position) ⊆ positions := by
    intro position hp
    obtain ⟨c, hc, rfl⟩ := List.mem_map.mp hp
    exact hpositions c hc
  have hlen := (List.Nodup.subperm hnodup hsub).length_le
  rwa [List.length_map] at hlen

/-- The positions of the second team come after those of the first. -/
theorem player_before_opponent (h : MayStart cfg room) {a b : ClientRef}
    (ha : a ∈ room.getTeamPlayers .player) (hb : b ∈ room.getTeamPlayers .opponent) :
    (room.client a).position < cfg.team0 ∧ cfg.team0 ≤ (room.client b).position := by
  obtain ⟨hap, hateam⟩ := mem_getTeamPlayers.mp ha
  obtain ⟨hbp, hbteam⟩ := mem_getTeamPlayers.mp hb
  have hsa := (h.seats.seated a hap).2
  have hsb := (h.seats.seated b hbp).2
  rw [hateam] at hsa
  rw [hbteam] at hsb
  simp only [RoomConfig.teamAt] at hsa hsb
  constructor
  · by_contra hge
    simp [hge] at hsa
  · by_contra hlt
    simp [show (room.client b).position < cfg.team0 by omega] at hsb

theorem team_length (h : MayStart cfg room) (team : Team) (hteam : team ≠ .spectator) :
    1 ≤ (room.getTeamPlayers team).length ∧
      (room.getTeamPlayers team).length ≤ teamCount cfg := by
  have hcounted := h.counted
  simp only [deckCountRaises, Bool.or_eq_false_iff, decide_eq_false_iff_not] at hcounted
  have hseat : ∀ c ∈ room.getTeamPlayers team,
      (room.client c).position < cfg.team0 + cfg.team1 := by
    intro c hc
    exact (h.seats.seated c (mem_getTeamPlayers.mp hc).1).1
  cases team with
  | player =>
    refine ⟨List.length_pos_iff.mpr hcounted.1, ?_⟩
    obtain ⟨b, hb⟩ := List.exists_mem_of_ne_nil _ hcounted.2
    have hle := getTeamPlayers_length_le h .player cfg.t0Positions (by
      intro c hc
      exact RoomConfig.mem_t0Positions.mpr (player_before_opponent h hc hb).1)
    simpa [RoomConfig.t0Positions, h.team0] using hle
  | opponent =>
    refine ⟨List.length_pos_iff.mpr hcounted.2, ?_⟩
    obtain ⟨a, ha⟩ := List.exists_mem_of_ne_nil _ hcounted.1
    have hle := getTeamPlayers_length_le h .opponent cfg.t1Positions (by
      intro c hc
      exact RoomConfig.mem_t1Positions.mpr ⟨(player_before_opponent h ha hc).2, hseat c hc⟩)
    simpa [RoomConfig.t1Positions, h.team1] using hle
  | spectator => exact absurd rfl hteam

/-- The players by position: the first team, then the second. -/
theorem players_sorted (h : MayStart cfg room) :
    room.players.insertionSort
        (fun a b => (room.client a).position ≤ (room.client b).position) =
      room.getTeamPlayers .player ++ room.getTeamPlayers .opponent := by
  have hplaying : ∀ c ∈ room.players,
      (room.client c).team = .player ∨ (room.client c).team = .opponent := by
    intro c hc
    have hteam := (h.seats.seated c hc).2
    dsimp only at hteam
    rw [hteam, RoomConfig.teamAt]
    split
    · exact Or.inl rfl
    · exact Or.inr rfl
  have hperm : (room.getTeamPlayers .player ++ room.getTeamPlayers .opponent).Perm
      room.players := by
    have hrest : room.players.filter (fun c => (room.client c).team = .opponent) =
        room.players.filter (fun c => !decide ((room.client c).team = .player)) := by
      apply List.filter_congr
      intro c hc
      cases hplaying c hc with
      | inl ht => simp [ht]
      | inr ht => simp [ht]
    refine ((List.perm_insertionSort _ _).append (List.perm_insertionSort _ _)).trans ?_
    rw [hrest]
    exact List.filter_append_perm _ _
  refine @List.Perm.eq_of_pairwise _
    (fun a b => (room.client a).position ≤ (room.client b).position) _ _ ?_ ?_ ?_
    ((List.perm_insertionSort _ _).trans hperm.symm)
  · intro a b ha hb hab hba
    have hpa := (List.mem_insertionSort _).mp ha
    have hpb := hperm.subset hb
    exact h.seats.distinct a hpa b hpb (Nat.le_antisymm hab hba)
  · exact List.pairwise_insertionSort _ _
  · rw [List.pairwise_append]
    refine ⟨List.pairwise_insertionSort _ _, List.pairwise_insertionSort _ _, ?_⟩
    intro a ha b hb
    obtain ⟨hlt, hge⟩ := player_before_opponent h ha hb
    omega

/-- What a snapshot says of the decks of the players it was taken from. -/
theorem mapM_ownDeck (prepare : ClientRef → Deck → Deck) {players : List ClientRef}
    {decks : List (ClientRef × Deck)}
    (h : players.mapM (fun c => (room.client c).deck.map (fun deck => (c, deck))) = some decks) :
    decks.map (fun p => (p.1, prepare p.1 p.2)) = players.filterMap (ownDeck prepare room) ∧
      ∀ c ∈ players, ∃ deck, ownDeck prepare room c = some (c, deck) := by
  induction players generalizing decks with
  | nil =>
    simp only [List.mapM_nil, Option.pure_def, Option.some.injEq] at h
    subst h
    simp
  | cons c players ih =>
    rw [List.mapM_cons] at h
    cases hdeck : (room.client c).deck with
    | none => simp [hdeck] at h
    | some deck =>
      simp only [hdeck, Option.map_some, Option.bind_eq_bind, Option.bind_some, Option.pure_def,
        Option.bind_eq_some_iff, Option.some.injEq] at h
      obtain ⟨rest, hrest, rfl⟩ := h
      obtain ⟨hmap, hall⟩ := ih hrest
      have hown : ownDeck prepare room c = some (c, prepare c deck) := by simp [ownDeck, hdeck]
      constructor
      · rw [List.map_cons, hmap, List.filterMap_cons, hown]
      · intro c' hc'
        cases List.mem_cons.mp hc' with
        | inl he =>
          subst he
          exact ⟨_, hown⟩
        | inr hr => exact hall c' hr

theorem length_filterMap_ownDeck {prepare : ClientRef → Deck → Deck} {players : List ClientRef}
    (h : ∀ c ∈ players, ∃ deck, ownDeck prepare room c = some (c, deck)) :
    (players.filterMap (ownDeck prepare room)).length = players.length := by
  induction players with
  | nil => rfl
  | cons c players ih =>
    obtain ⟨deck, hdeck⟩ := h c (by simp)
    have hrest := ih (fun c' hc' => h c' (List.mem_cons_of_mem _ hc'))
    rw [List.filterMap_cons, hdeck]
    simp [hrest]

theorem mem_filterMap_ownDeck {prepare : ClientRef → Deck → Deck} {players : List ClientRef}
    {p : ClientRef × Deck} (h : p ∈ players.filterMap (ownDeck prepare room)) :
    p.1 ∈ players := by
  obtain ⟨c, hc, hown⟩ := List.mem_filterMap.mp h
  simp only [ownDeck, Option.map_eq_some_iff] at hown
  obtain ⟨deck, -, rfl⟩ := hown
  exact hc

/-- The decks handed over: those of the first team in seat order, then those of the second. -/
theorem snapshotDecks_eq (h : MayStart cfg room) {decks : List (ClientRef × Deck)}
    (hdecks : room.snapshotDecks = some decks) (prepare : ClientRef → Deck → Deck) :
    decks.map (fun p => (p.1, prepare p.1 p.2)) =
        (room.getTeamPlayers .player).filterMap (ownDeck prepare room) ++
          (room.getTeamPlayers .opponent).filterMap (ownDeck prepare room) ∧
      ∀ team, team ≠ .spectator →
        ((room.getTeamPlayers team).filterMap (ownDeck prepare room)).length =
          (room.getTeamPlayers team).length := by
  rw [snapshotDecks, players_sorted h] at hdecks
  obtain ⟨hmap, hown⟩ := mapM_ownDeck prepare hdecks
  rw [hmap, List.filterMap_append]
  refine ⟨rfl, ?_⟩
  intro team hteam
  apply length_filterMap_ownDeck
  intro c hc
  apply hown
  cases team with
  | player => exact List.mem_append_left _ hc
  | opponent => exact List.mem_append_right _ hc
  | spectator => exact absurd rfl hteam

theorem players_length (h : MayStart cfg room) :
    room.players.length =
      (room.getTeamPlayers .player).length + (room.getTeamPlayers .opponent).length := by
  have hlen := congrArg List.length (players_sorted h)
  rwa [List.length_insertionSort, List.length_append] at hlen

/-- No deck is handed over for both teams. -/
theorem ownDecks_disjoint (prepare : ClientRef → Deck → Deck) (room : YGOProRoom) :
    ∀ p ∈ (room.getTeamPlayers .player).filterMap (ownDeck prepare room),
      p ∉ (room.getTeamPlayers .opponent).filterMap (ownDeck prepare room) := by
  intro p hp hq
  have hteam := (mem_getTeamPlayers.mp (mem_filterMap_ownDeck hp)).2
  rw [(mem_getTeamPlayers.mp (mem_filterMap_ownDeck hq)).2] at hteam
  cases hteam

theorem teamList_getSideTeam (cfg : RoomConfig) (hasTimeLimit : Bool) (room : YGOProRoom) {α : Type}
    (f : Team → List α) (side : Side) :
    f ((room.duelTable cfg hasTimeLimit).getSideTeam side) =
      teamList room.isPositionSwapped side (f .player) (f .opponent) := by
  have hswap : (room.duelTable cfg hasTimeLimit).isPositionSwapped = room.isPositionSwapped := rfl
  unfold DuelTable.getSideTeam teamList
  rw [hswap]
  cases room.isPositionSwapped <;> cases side_eq_zero_or_one side with
  | inl hside => simp [hside]
  | inr hside => simp [hside]

/-- The decks of the engine's sides are those of the teams that play them exactly when the teams
fill the sides. -/
theorem engineDecks_iff (h : MayStart cfg room) {decks : List (ClientRef × Deck)}
    (hdecks : room.snapshotDecks = some decks) (hasTimeLimit : Bool)
    (prepare : ClientRef → Deck → Deck) :
    (∀ side, decksOf side (room.engineDecks cfg prepare decks) =
        (room.getTeamPlayers ((room.duelTable cfg hasTimeLimit).getSideTeam side)).filterMap
          (ownDeck prepare room)) ↔
      TeamsFillSides cfg room := by
  obtain ⟨hmap, hlen⟩ := snapshotDecks_eq h hdecks prepare
  have hplayer := team_length h .player (by decide)
  have hopponent := team_length h .opponent (by decide)
  have hplayerLen := hlen .player (by decide)
  have hopponentLen := hlen .opponent (by decide)
  have hsides := fun side => teamList_getSideTeam cfg hasTimeLimit room
    (fun team => (room.getTeamPlayers team).filterMap (ownDeck prepare room)) side
  simp only [engineDecks, hmap, hsides, TeamsFillSides, players_length h]
  simp only [← hplayerLen, ← hopponentLen] at hplayer hopponent ⊢
  have hdisjoint := ownDecks_disjoint prepare room
  generalize (room.getTeamPlayers .player).filterMap (ownDeck prepare room) = first
    at hplayer hdisjoint ⊢
  generalize (room.getTeamPlayers .opponent).filterMap (ownDeck prepare room) = second
    at hopponent hdisjoint ⊢
  cases htag : cfg.isTag with
  | true =>
    simp only [teamCount, htag, if_true] at hplayer hopponent
    rw [decksOf_tag_iff room.isPositionSwapped first second (by omega) (by omega) hdisjoint,
      List.length_append]
    simp
  | false =>
    simp only [teamCount, htag, Bool.false_eq_true, if_false] at hplayer hopponent
    obtain ⟨x, rfl⟩ := List.length_eq_one_iff.mp (Nat.le_antisymm hplayer.2 hplayer.1)
    obtain ⟨y, rfl⟩ := List.length_eq_one_iff.mp (Nat.le_antisymm hopponent.2 hopponent.1)
    simp [decksOf_single]

/-- Engine side, team and decks agree in a room that may start exactly when the teams fill the
sides. -/
theorem sides_agree_iff (h : MayStart cfg room) {decks : List (ClientRef × Deck)}
    (hdecks : room.snapshotDecks = some decks) (hasTimeLimit : Bool)
    (prepare : ClientRef → Deck → Deck) :
    SidesAgree cfg hasTimeLimit prepare room decks ↔ TeamsFillSides cfg room := by
  constructor
  · intro hagree
    exact (engineDecks_iff h hdecks hasTimeLimit prepare).mp hagree.decks
  · intro hfill
    refine ⟨(engineDecks_iff h hdecks hasTimeLimit prepare).mpr hfill, ?_, ?_⟩
    · intro side turn
      have hteam : (room.duelTable cfg hasTimeLimit).getSideTeam side ≠ .spectator := by
        unfold DuelTable.getSideTeam
        split <;> split <;> decide
      obtain ⟨c, hc⟩ := List.exists_mem_of_length_pos (team_length h _ hteam).1
      obtain ⟨hplayer, hc⟩ := mem_getTeamPlayers.mp hc
      obtain ⟨p, hp, hpteam, hactive⟩ := getActivePlayer_mem (room.duelTable cfg hasTimeLimit) side
        turn ⟨_, List.mem_map_of_mem hplayer, hc⟩
      obtain ⟨a, ha, rfl⟩ := List.mem_map.mp hp
      exact ⟨a, ha, hactive, hpteam⟩
    · intro side c hc
      exact (mem_getTeamPlayers.mp hc).2

/-! ## Three players in a tag room -/

instance decidableIsSeat (cfg : RoomConfig) (place : Nat × Team) : Decidable (cfg.IsSeat place) :=
  inferInstanceAs (Decidable (_ ∧ _))

theorem sides_agree_guests :
    ∃ decks, (after casualRoom guestsReady).snapshotDecks = some decks ∧
      SidesAgree casualRoom true (fun _ deck => deck) (after casualRoom guestsReady) decks := by
  obtain ⟨decks, hdecks⟩ : ∃ decks, (after casualRoom guestsReady).snapshotDecks = some decks := by
    rw [← Option.isSome_iff_exists]
    decide +kernel
  have hstart : MayStart casualRoom (after casualRoom guestsReady) :=
    { team0 := rfl
      team1 := rfl
      seats := ⟨by decide +kernel, by decide +kernel, by decide +kernel⟩
      ready := by decide +kernel
      counted := by decide +kernel }
  refine ⟨decks, hdecks, (sides_agree_iff hstart hdecks true (fun _ deck => deck)).mpr ?_⟩
  intro htag
  cases htag

/-- Three players of a tag duel that the second team opens. -/
def swappedTrio : YGOProRoom :=
  after tagRoom (threePlayers ++ decksShown ++
    [.message 2 (.updateDeck [] []), .settled 0 (.built (some emptyDeck)), .grant,
      .message 0 .tryStart, .message 0 (.rpsChoice 1), .message 2 (.rpsChoice 2),
      .message 2 (.turnChoice true)])

/-- The decks of the first team go to the side that the second team plays. -/
theorem swappedTrio_sides_disagree :
    ∃ decks, MayStart tagRoom swappedTrio ∧ swappedTrio.snapshotDecks = some decks ∧
      ¬SidesAgree tagRoom true (fun _ deck => deck) swappedTrio decks := by
  obtain ⟨decks, hdecks⟩ : ∃ decks, swappedTrio.snapshotDecks = some decks := by
    rw [← Option.isSome_iff_exists]
    decide +kernel
  have hstart : MayStart tagRoom swappedTrio :=
    { team0 := rfl
      team1 := rfl
      seats := ⟨by decide +kernel, by decide +kernel, by decide +kernel⟩
      ready := by decide +kernel
      counted := by decide +kernel }
  refine ⟨decks, hstart, hdecks, ?_⟩
  intro hagree
  have hfill := (engineDecks_iff hstart hdecks true (fun _ deck => deck)).mp hagree.decks
  have hnot : ¬(swappedTrio.players.length = 4 ∨ swappedTrio.isPositionSwapped = false ∧
      (swappedTrio.getTeamPlayers .player).length = 2) := by
    decide +kernel
  exact hnot (hfill rfl)

end YGOProRoom

end EdoproServer.Room
