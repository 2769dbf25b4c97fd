import EdoproServer.Room.Seats

namespace EdoproServer.Room
open Decks Lib

/-! ## Positions and teams of the seated players -/

namespace RoomConfig

/-- The team that a position belongs to. -/
def teamAt (cfg : RoomConfig) (position : Nat) : Team :=
  if position < cfg.team0 then .player else .opponent

/-- A place of the room: one of its positions, with the team of that position. -/
def IsSeat (cfg : RoomConfig) (place : Nat × Team) : Prop :=
  place.1 < cfg.team0 + cfg.team1 ∧ place.2 = cfg.teamAt place.1

variable {cfg : RoomConfig} {position : Nat}

theorem mem_t0Positions : position ∈ cfg.t0Positions ↔ position < cfg.team0 := by
  simp [t0Positions]

theorem mem_t1Positions :
    position ∈ cfg.t1Positions ↔ cfg.team0 ≤ position ∧ position < cfg.team0 + cfg.team1 := by
  simp only [t1Positions, List.mem_map, List.mem_range]
  constructor
  · intro h
    obtain ⟨k, hk, rfl⟩ := h
    omega
  · intro h
    exact ⟨position - cfg.team0, by omega, by omega⟩

theorem isSeat_player (h : position ∈ cfg.t0Positions) : cfg.IsSeat (position, .player) := by
  have hlt := mem_t0Positions.mp h
  exact ⟨by dsimp only; omega, by simp [teamAt, hlt]⟩

theorem isSeat_opponent (h : position ∈ cfg.t1Positions) : cfg.IsSeat (position, .opponent) := by
  obtain ⟨hge, hlt⟩ := mem_t1Positions.mp h
  exact ⟨hlt, by simp [teamAt, hge]⟩

end RoomConfig

/-- The players of a room sit on different places of it. -/
structure SeatIntegrity (cfg : RoomConfig) (s : Seating) : Prop where
  nodup : s.players.Nodup
  distinct : ∀ a ∈ s.players, ∀ b ∈ s.players,
    (s.client a).position = (s.client b).position → a = b
  seated : ∀ c ∈ s.players, cfg.IsSeat ((s.client c).position, (s.client c).team)

namespace SeatIntegrity

variable {cfg : RoomConfig} {s s' : Seating}

theorem congr (h : SeatIntegrity cfg s) (hplayers : s'.players = s.players)
    (hposition : ∀ c, (s'.client c).position = (s.client c).position)
    (hteam : ∀ c, (s'.client c).team = (s.client c).team) : SeatIntegrity cfg s' where
  nodup := hplayers ▸ h.nodup
  distinct := by
    intro a ha b hb hab
    rw [hplayers] at ha hb
    rw [hposition, hposition] at hab
    exact h.distinct a ha b hb hab
  seated := by
    intro c hc
    rw [hplayers] at hc
    rw [hposition, hteam]
    exact h.seated c hc

theorem sameSeats (h : SeatIntegrity cfg s) (hs : SameSeats s s') : SeatIntegrity cfg s' :=
  h.congr hs.players hs.position hs.team

theorem not_spectator (h : SeatIntegrity cfg s) {c : ClientRef}
    (hc : (s.client c).isSpectator = true) : c ∉ s.players := by
  intro hmem
  have hteam := (h.seated c hmem).2
  simp only [YGOProClient.isSpectator, decide_eq_true_eq] at hc
  dsimp only at hteam
  rw [hc, RoomConfig.teamAt] at hteam
  split at hteam
  · cases hteam
  · cases hteam

/-- Whoever leaves, the others stay where they are. -/
theorem sublist (h : SeatIntegrity cfg s) {players spectators : List ClientRef}
    (hp : players.Sublist s.players) :
    SeatIntegrity cfg { s with players := players, spectators := spectators } where
  nodup := h.nodup.sublist hp
  distinct := fun a ha b hb => h.distinct a (hp.subset ha) b (hp.subset hb)
  seated := fun c hc => h.seated c (hp.subset hc)

theorem removePlayer (h : SeatIntegrity cfg s) (id : Nat) : SeatIntegrity cfg (s.removePlayer id) :=
  h.sublist List.filter_sublist

theorem removeSpectator (h : SeatIntegrity cfg s) (id : Nat) :
    SeatIntegrity cfg (s.removeSpectator id) :=
  h.sublist (List.Sublist.refl _)

/-- A client that is moved sits on a place of the room that nobody else has, if it sits. -/
theorem update (h : SeatIntegrity cfg s) {c : ClientRef} {client : YGOProClient}
    (hseat : c ∈ s.players → cfg.IsSeat (client.position, client.team))
    (hfree : ∀ p ∈ s.players, p ≠ c → (s.client p).position ≠ client.position) :
    SeatIntegrity cfg { s with client := Function.update s.client c client } where
  nodup := h.nodup
  distinct := by
    intro a ha b hb hab
    by_cases hac : a = c
    · by_cases hbc : b = c
      · exact hac.trans hbc.symm
      · subst hac
        simp only [Function.update_self, Function.update_of_ne hbc] at hab
        exact absurd hab.symm (hfree b hb hbc)
    · by_cases hbc : b = c
      · subst hbc
        simp only [Function.update_self, Function.update_of_ne hac] at hab
        exact absurd hab (hfree a ha hac)
      · simp only [Function.update_of_ne hac, Function.update_of_ne hbc] at hab
        exact h.distinct a ha b hb hab
  seated := by
    intro p hp
    by_cases hpc : p = c
    · subst hpc
      simpa using hseat hp
    · simpa [Function.update_of_ne hpc] using h.seated p hp

/-- A client that is not seated yet sits down on a free place. -/
theorem sit (h : SeatIntegrity cfg s) {c : ClientRef} {next : Nat} {client : YGOProClient}
    (hc : c ∉ s.players) (hseat : cfg.IsSeat (client.position, client.team))
    (hfree : ∀ p ∈ s.players, (s.client p).position ≠ client.position) :
    SeatIntegrity cfg
      { s with
        client := Function.update s.client c client
        nextClient := next
        players := s.players ++ [c] } where
  nodup := by
    apply List.Nodup.append h.nodup (by simp)
    simpa using hc
  distinct := by
    have hfresh : ∀ p ∈ s.players, p ≠ c := fun p hp hpc => hc (hpc ▸ hp)
    intro a ha b hb hab
    simp only [List.mem_append, List.mem_singleton] at ha hb
    cases ha with
    | inl ha =>
      cases hb with
      | inl hb =>
        simp only [Function.update_of_ne (hfresh a ha), Function.update_of_ne (hfresh b hb)] at hab
        exact h.distinct a ha b hb hab
      | inr hb =>
        subst hb
        simp only [Function.update_self, Function.update_of_ne (hfresh a ha)] at hab
        exact absurd hab (hfree a ha)
    | inr ha =>
      subst ha
      cases hb with
      | inl hb =>
        simp only [Function.update_self, Function.update_of_ne (hfresh b hb)] at hab
        exact absurd hab.symm (hfree b hb)
      | inr hb => exact hb.symm
  seated := by
    intro p hp
    simp only [List.mem_append, List.mem_singleton] at hp
    cases hp with
    | inl hp =>
      have hpc : p ≠ c := fun hpc => hc (hpc ▸ hp)
      simpa [Function.update_of_ne hpc] using h.seated p hp
    | inr hp =>
      subst hp
      simpa using hseat

theorem addPlayer (h : SeatIntegrity cfg s) (ha : Allocated s) (request : JoinRequest)
    (credential : PlayerCredential) {place : Nat × Team} (hseat : cfg.IsSeat place)
    (hfree : ∀ p ∈ s.players, (s.client p).position ≠ place.1) :
    SeatIntegrity cfg (s.addPlayer request credential place) :=
  h.sit (fun hmem => ha.player_ne hmem rfl) hseat hfree

theorem addSpectator (h : SeatIntegrity cfg s) (ha : Allocated s) (name : String)
    (socket : Socket) (credential : Option PlayerCredential) :
    SeatIntegrity cfg (s.addSpectator name socket credential) := by
  constructor
  · exact h.nodup
  · intro a hma b hmb hab
    simp only [Seating.addSpectator, Function.update_of_ne (ha.player_ne hma),
      Function.update_of_ne (ha.player_ne hmb)] at hab
    exact h.distinct a hma b hmb hab
  · intro c hc
    simpa [Seating.addSpectator, Function.update_of_ne (ha.player_ne hc)] using h.seated c hc

theorem playerToSpectator (h : SeatIntegrity cfg s) (c : ClientRef) :
    SeatIntegrity cfg (s.playerToSpectator c) := by
  have hremoved : SeatIntegrity cfg
      { s with
        players := s.players.filter (fun p => (s.client p).socket.id ≠ (s.client c).socket.id)
        spectators := s.spectators ++ [c] } := h.sublist List.filter_sublist
  have hgone : c ∉ s.players.filter
      (fun p => (s.client p).socket.id ≠ (s.client c).socket.id) := by simp
  constructor
  · exact hremoved.nodup
  · intro a ha b hb hab
    have hac : a ≠ c := fun he => hgone (he ▸ ha)
    have hbc : b ≠ c := fun he => hgone (he ▸ hb)
    simp only [Seating.playerToSpectator, Seating.modify, Function.update_of_ne hac,
      Function.update_of_ne hbc] at hab
    exact hremoved.distinct a ha b hb hab
  · intro p hp
    have hpc : p ≠ c := fun he => hgone (he ▸ hp)
    simpa [Seating.playerToSpectator, Seating.removePlayer, Seating.modify,
      Function.update_of_ne hpc] using hremoved.seated p hp

theorem spectatorToPlayer (h : SeatIntegrity cfg s) {c : ClientRef} {place : Nat × Team}
    (hspectator : (s.client c).isSpectator = true)
    (hseat : cfg.IsSeat place) (hfree : ∀ p ∈ s.players, (s.client p).position ≠ place.1) :
    SeatIntegrity cfg (s.spectatorToPlayer c place) :=
  (h.removeSpectator (s.client c).socket.id).sit (h.not_spectator hspectator) hseat hfree

theorem movePlayerToAnotherCell (h : SeatIntegrity cfg s) (c : ClientRef) {place : Nat × Team}
    (hseat : cfg.IsSeat place) (hfree : ∀ p ∈ s.players, (s.client p).position ≠ place.1) :
    SeatIntegrity cfg (s.movePlayerToAnotherCell c place) :=
  h.update (fun _ => hseat) (fun p hp _ => hfree p hp)

theorem reconnect (h : SeatIntegrity cfg s) (c : ClientRef) (socket : Socket) :
    SeatIntegrity cfg (s.reconnect c socket) := by
  refine h.congr ?_ ?_ ?_
  · rfl
  · intro p
    by_cases hp : p = c
    · subst hp
      simp [Seating.reconnect, Seating.modify, YGOProClient.setSocket, YGOProClient.reconnecting]
    · simp [Seating.reconnect, Seating.modify, hp]
  · intro p
    by_cases hp : p = c
    · subst hp
      simp [Seating.reconnect, Seating.modify, YGOProClient.setSocket, YGOProClient.reconnecting]
    · simp [Seating.reconnect, Seating.modify, hp]

end SeatIntegrity

/-! ## The places that are offered -/

namespace YGOProRoom

variable {cfg : RoomConfig} {room pre : YGOProRoom} {input : RoomInput}

/-- No seated player is at a position. -/
def IsFree (room : YGOProRoom) (position : Nat) : Prop :=
  ∀ p ∈ room.players, (room.client p).position ≠ position

/-- A position of one team is free if nobody of that team is at it. -/
theorem isFree_of_team (h : SeatIntegrity cfg room.toSeating) {position : Nat} {team : Team}
    (hseat : cfg.IsSeat (position, team))
    (hteam : ∀ p ∈ room.players, (room.client p).team = team →
      (room.client p).position ≠ position) : room.IsFree position := by
  intro p hp he
  have hp' := (h.seated p hp).2
  dsimp only at hp'
  rw [he] at hp'
  exact hteam p hp (hp'.trans hseat.2.symm) he

theorem freePositions_isFree {team : Team} {positions : List Nat} {position : Nat}
    (hmem : position ∈ room.freePositions team positions) :
    position ∈ positions ∧ ∀ p ∈ room.players, (room.client p).team = team →
      (room.client p).position ≠ position := by
  simp only [freePositions, List.mem_filter, decide_eq_true_eq, List.mem_map, not_exists,
    not_and] at hmem
  exact ⟨hmem.1, fun p hp ht => hmem.2 p ⟨hp, ht⟩⟩

/-- The place found for a newcomer is a free seat. -/
theorem calculatePlace_spec (h : SeatIntegrity cfg room.toSeating) {place : Nat × Team}
    (hplace : room.calculatePlace cfg = some place) : cfg.IsSeat place ∧ room.IsFree place.1 := by
  unfold calculatePlace at hplace
  split at hplace
  · rename_i position rest hfree
    cases hplace
    obtain ⟨hmem, hteam⟩ := @freePositions_isFree room _ _ _
      (hfree ▸ List.mem_cons_self : position ∈ room.freePositions .player cfg.t0Positions)
    exact ⟨RoomConfig.isSeat_player hmem,
      isFree_of_team h (RoomConfig.isSeat_player hmem) hteam⟩
  · split at hplace
    · rename_i position rest hfree
      cases hplace
      obtain ⟨hmem, hteam⟩ := @freePositions_isFree room _ _ _
        (hfree ▸ List.mem_cons_self : position ∈ room.freePositions .opponent cfg.t1Positions)
      exact ⟨RoomConfig.isSeat_opponent hmem,
        isFree_of_team h (RoomConfig.isSeat_opponent hmem) hteam⟩
    · cases hplace

theorem seatOfUser_ne_spectator (reserved : ReservedDuel) (userId : UserId) :
    reserved.seatOfUser userId ≠ some .spectator := by
  unfold ReservedDuel.seatOfUser
  intro h
  obtain ⟨user, huser, hteam⟩ := Option.map_eq_some_iff.mp h
  exact reserved.usersSeated user (List.mem_of_find?_eq_some huser) hteam

/-- The seat reserved for a socket is a free seat. -/
theorem reservedSeatFor_spec (h : SeatIntegrity cfg room.toSeating) {reserved : ReservedDuel}
    {socket : Socket} {place : Nat × Team}
    (hplace : room.reservedSeatFor cfg reserved socket = some place) :
    cfg.IsSeat place ∧ room.IsFree place.1 := by
  unfold reservedSeatFor at hplace
  dsimp only at hplace
  split at hplace
  · cases hplace
  · rename_i team hteam
    split at hplace
    · cases hplace
    · rename_i hnobody
      have hempty : ∀ position, ∀ p ∈ room.players, (room.client p).team = team →
          (room.client p).position ≠ position := by
        intro position p hp ht
        exact absurd (List.any_eq_true.mpr ⟨p, hp, decide_eq_true ht⟩) hnobody
      cases team with
      | player =>
        obtain ⟨position, hhead, rfl⟩ := Option.map_eq_some_iff.mp hplace
        have hseat := RoomConfig.isSeat_player (List.mem_of_head? hhead)
        exact ⟨hseat, isFree_of_team h hseat (hempty position)⟩
      | opponent =>
        obtain ⟨position, hhead, rfl⟩ := Option.map_eq_some_iff.mp hplace
        have hseat := RoomConfig.isSeat_opponent (List.mem_of_head? hhead)
        exact ⟨hseat, isFree_of_team h hseat (hempty position)⟩
      | spectator =>
        split at hteam
        · exact absurd hteam reserved.botSeated
        · obtain ⟨userId, _, hseat⟩ := Option.bind_eq_some_iff.mp hteam
          exact absurd hseat (seatOfUser_ne_spectator reserved userId)

/-- The seat offered to a socket is a free seat. -/
theorem freeSeat_spec (h : SeatIntegrity cfg room.toSeating) {socket : Socket}
    {place : Nat × Team} (hplace : room.freeSeat cfg socket = some place) :
    cfg.IsSeat place ∧ room.IsFree place.1 := by
  unfold freeSeat at hplace
  split at hplace
  · cases hplace
  · split at hplace
    · cases hplace
    · split at hplace
      · exact reservedSeatFor_spec h hplace
      · exact calculatePlace_spec h hplace

/-- Nothing is free past a position, and what is free before it belongs to the second team. -/
def wrapsToSecondTeam (cfg : RoomConfig) (room : YGOProRoom) (position : Nat) : Bool :=
  (room.freeCells cfg).all (fun p => p ≤ position && cfg.team0 ≤ p) && 0 < cfg.team0

theorem mem_freeCells {position : Nat} :
    position ∈ room.freeCells cfg ↔ position < cfg.team0 + cfg.team1 ∧ room.IsFree position := by
  simp only [freeCells, List.mem_filter, List.mem_insertionSort, List.mem_append,
    RoomConfig.mem_t0Positions, RoomConfig.mem_t1Positions, decide_eq_true_eq, List.mem_map,
    not_exists, not_and, IsFree, ne_eq]
  constructor
  · intro h
    exact ⟨by omega, h.2⟩
  · intro h
    exact ⟨by omega, h.2⟩

/-- The very first position is one of the first team, if that has any. -/
theorem lowest_mem :
    ((cfg.t1Positions ++ cfg.t0Positions).insertionSort (· ≤ ·)).head? ∈
      cfg.t0Positions.map some ↔ 0 < cfg.team0 := by
  constructor
  · intro h
    obtain ⟨position, hposition, _⟩ := List.mem_map.mp h
    have := RoomConfig.mem_t0Positions.mp hposition
    omega
  · intro h
    have hzero : 0 ∈ (cfg.t1Positions ++ cfg.t0Positions).insertionSort (· ≤ ·) := by
      rw [List.mem_insertionSort, List.mem_append]
      exact .inr (RoomConfig.mem_t0Positions.mpr h)
    have hsorted := List.pairwise_insertionSort (· ≤ ·) (cfg.t1Positions ++ cfg.t0Positions)
    cases hl : (cfg.t1Positions ++ cfg.t0Positions).insertionSort (· ≤ ·) with
    | nil =>
      rw [hl] at hzero
      cases hzero
    | cons lowest rest =>
      rw [hl] at hzero hsorted
      have hlowest : lowest = 0 := by
        cases List.mem_cons.mp hzero with
        | inl he => exact he.symm
        | inr hmem => exact Nat.le_zero.mp (List.rel_of_pairwise_cons hsorted hmem)
      rw [hlowest]
      exact List.mem_map.mpr ⟨0, RoomConfig.mem_t0Positions.mpr h, rfl⟩

/-- The first free cell is the lowest. -/
theorem freeCells_first {first : Nat} {rest : List Nat} (h : room.freeCells cfg = first :: rest) :
    ∀ p ∈ room.freeCells cfg, first ≤ p := by
  have hsorted : (room.freeCells cfg).Pairwise (· ≤ ·) :=
    (List.pairwise_insertionSort (· ≤ ·) (cfg.t1Positions ++ cfg.t0Positions)).filter _
  intro p hp
  rw [h] at hp hsorted
  cases List.mem_cons.mp hp with
  | inl he => exact le_of_eq he.symm
  | inr hmem => exact List.rel_of_pairwise_cons hsorted hmem

/-- The next cell of a player is a free seat, unless the search wraps to the second team. -/
theorem nextAvailablePosition_spec {position : Nat} {place : Nat × Team}
    (hplace : room.nextAvailablePosition cfg position = some place)
    (hwrap : wrapsToSecondTeam cfg room position = false) :
    cfg.IsSeat place ∧ room.IsFree place.1 := by
  unfold nextAvailablePosition at hplace
  split at hplace
  · cases hplace
  · rename_i first rest hcells
    have hall : ∀ p ∈ first :: rest, p < cfg.team0 + cfg.team1 ∧ room.IsFree p := by
      intro p hp
      rw [← hcells] at hp
      exact mem_freeCells.mp hp
    split at hplace
    · rename_i next later hnext
      have hmem : next ∈ first :: rest :=
        List.mem_of_mem_filter (hnext ▸ List.mem_cons_self : next ∈ (first :: rest).filter _)
      obtain ⟨hlt, hfree⟩ := hall next hmem
      cases hplace
      refine ⟨⟨hlt, ?_⟩, hfree⟩
      simp [RoomConfig.teamAt, RoomConfig.mem_t0Positions]
    · rename_i hnone
      obtain ⟨hlt, hfree⟩ := hall first List.mem_cons_self
      have hbefore : ∀ p ∈ room.freeCells cfg, p ≤ position := by
        intro p hp
        rw [hcells] at hp
        have := List.filter_eq_nil_iff.mp hnone p hp
        simpa using this
      cases hplace
      refine ⟨⟨hlt, ?_⟩, hfree⟩
      dsimp only
      rw [if_congr lowest_mem rfl rfl, RoomConfig.teamAt]
      by_cases hteam : 0 < cfg.team0
      · by_cases hfirst : first < cfg.team0
        · rw [if_pos hteam, if_pos hfirst]
        · have hwraps : wrapsToSecondTeam cfg room position = true := by
            simp only [wrapsToSecondTeam, Bool.and_eq_true, List.all_eq_true, decide_eq_true_eq]
            refine ⟨fun p hp => ⟨hbefore p hp, ?_⟩, hteam⟩
            exact (not_lt.mp hfirst).trans (freeCells_first hcells p hp)
          rw [hwrap] at hwraps
          cases hwraps
      · rw [if_neg hteam, if_neg (by omega)]

/-! ## Runs of a lobby -/

/-- No player that moves on wraps around to the seats of the second team. -/
def NoWrap (cfg : RoomConfig) (room : YGOProRoom) : Call → Prop
  | .movePlayerToAnotherCell c _ => wrapsToSecondTeam cfg room (room.client c).position = false
  | _ => True

/-- The seats, and that new clients are new. -/
structure SeatInvariant (cfg : RoomConfig) (room : YGOProRoom) : Prop where
  seats : SeatIntegrity cfg room.toSeating
  known : ClientsKnown room

theorem seatIntegrity_perform {call : Call} (h : SeatInvariant cfg room)
    (hguard : Guarded cfg pre input room call) (hok : NoWrap cfg room call) :
    SeatIntegrity cfg (room.perform cfg call).toSeating := by
  cases call with
  | addPlayer request credential place =>
    obtain ⟨hseat, hfree⟩ := freeSeat_spec h.seats hguard.1
    exact h.seats.addPlayer h.known.allocated request credential hseat hfree
  | addSpectator name socket credential =>
    exact h.seats.addSpectator h.known.allocated name socket credential
  | removePlayer id => exact h.seats.removePlayer id
  | removeSpectator id => exact h.seats.removeSpectator id
  | playerToSpectator c => exact h.seats.playerToSpectator c
  | spectatorToPlayer c place =>
    obtain ⟨_, hspectator, hplace, _⟩ := hguard
    obtain ⟨hseat, hfree⟩ := calculatePlace_spec h.seats hplace
    exact h.seats.spectatorToPlayer hspectator hseat hfree
  | movePlayerToAnotherCell c place =>
    obtain ⟨hseat, hfree⟩ := nextAvailablePosition_spec hguard.2 hok
    exact h.seats.movePlayerToAnotherCell c hseat hfree
  | reconnect c socket => exact h.seats.reconnect c socket
  | _ => exact h.seats.sameSeats (perform_sameSeats rfl)

theorem seatInvariant_perform {call : Call} (hpre : SeatInvariant cfg pre)
    (h : SeatInvariant cfg room) (hguard : Guarded cfg pre input room call)
    (hok : NoWrap cfg room call) : SeatInvariant cfg (room.perform cfg call) where
  seats := seatIntegrity_perform h hguard hok
  known := clientsKnown_perform hpre.known h.known hguard

theorem create_seatInvariant (outside : Outside) : SeatInvariant cfg (create cfg outside) where
  seats :=
    { nodup := by simp [create]
      distinct := by simp [create]
      seated := by simp [create] }
  known := create_clientsKnown outside

theorem Runs.seatInvariant {ok : YGOProRoom → Call → Prop}
    (hok : ∀ room call, ok room call → NoWrap cfg room call) (h : Runs cfg ok room) :
    SeatInvariant cfg room :=
  Runs.invariant create_seatInvariant
    (fun _ _ _ _ hpre hroom hguard hcall =>
      seatInvariant_perform hpre hroom hguard (hok _ _ hcall)) h

/-! ## Seat integrity -/

/-- The seated players have different positions, every position is one of the room's, and a
player is of the first team exactly when its position is, so no team is larger than its size. -/
structure SeatsAreSound (cfg : RoomConfig) (room : YGOProRoom) : Prop where
  distinct : (room.players.map (fun c => (room.client c).position)).Nodup
  within : ∀ c ∈ room.players, (room.client c).position < cfg.team0 + cfg.team1
  team : ∀ c ∈ room.players,
    ((room.client c).team = .player ↔ (room.client c).position ∈ cfg.t0Positions) ∧
      ((room.client c).team = .opponent ↔ (room.client c).position ∈ cfg.t1Positions)
  first : (room.players.filter (fun c => (room.client c).team = .player)).length ≤ cfg.team0
  second : (room.players.filter (fun c => (room.client c).team = .opponent)).length ≤ cfg.team1

theorem positions_nodup (h : SeatIntegrity cfg room.toSeating) :
    (room.players.map (fun c => (room.client c).position)).Nodup :=
  h.nodup.map_on (fun a ha b hb hab => h.distinct a ha b hb hab)

/-- Players whose positions are all in a list are no more than the list is long. -/
theorem length_filter_le (h : SeatIntegrity cfg room.toSeating) {p : ClientRef → Bool}
    (positions : List Nat)
    (hp : ∀ c ∈ room.players, p c = true → (room.client c).position ∈ positions) :
    (room.players.filter p).length ≤ positions.length := by
  have hnodup : ((room.players.filter p).map (fun c => (room.client c).position)).Nodup :=
    (positions_nodup h).sublist (List.filter_sublist.map _)
  have hsub : (room.players.filter p).map (fun c => (room.client c).position) ⊆ positions := by
    intro position hmem
    obtain ⟨c, hc, rfl⟩ := List.mem_map.mp hmem
    obtain ⟨hmem, hpc⟩ := List.mem_filter.mp hc
    exact hp c hmem hpc
  have hle := (List.subperm_of_subset hnodup hsub).length_le
  rwa [List.length_map] at hle

theorem team_iff (h : SeatIntegrity cfg room.toSeating) {c : ClientRef} (hc : c ∈ room.players) :
    ((room.client c).team = .player ↔ (room.client c).position ∈ cfg.t0Positions) ∧
      ((room.client c).team = .opponent ↔ (room.client c).position ∈ cfg.t1Positions) := by
  obtain ⟨hlt, hteam⟩ := h.seated c hc
  dsimp only at hlt hteam
  rw [hteam, RoomConfig.mem_t0Positions, RoomConfig.mem_t1Positions, RoomConfig.teamAt]
  split
  · simp
    omega
  · simp
    omega

theorem seatsAreSound (h : SeatIntegrity cfg room.toSeating) : SeatsAreSound cfg room where
  distinct := positions_nodup h
  within := fun c hc => (h.seated c hc).1
  team := fun c hc => team_iff h hc
  first := by
    have hle := length_filter_le h (p := fun c => (room.client c).team = .player)
      cfg.t0Positions
      (fun c hc hteam => (team_iff h hc).1.mp (by simpa using hteam))
    simpa [RoomConfig.t0Positions] using hle
  second := by
    have hle := length_filter_le h (p := fun c => (room.client c).team = .opponent)
      cfg.t1Positions
      (fun c hc hteam => (team_iff h hc).2.mp (by simpa using hteam))
    simpa [RoomConfig.t1Positions] using hle

/-- In a run in which no player wraps around to the second team, all seats are sound. -/
theorem seat_integrity (cfg : RoomConfig) (room : YGOProRoom) (h : Runs cfg (NoWrap cfg) room) :
    SeatsAreSound cfg room :=
  seatsAreSound (h.seatInvariant (fun _ _ hok => hok)).seats

instance (cfg : RoomConfig) (room : YGOProRoom) (call : Call) :
    Decidable (NoWrap cfg room call) := by
  apply Call.casesOn (motive := fun call => Decidable (NoWrap cfg room call)) call
  case movePlayerToAnotherCell =>
    intro c place
    show Decidable (wrapsToSecondTeam cfg room _ = false)
    infer_instance
  all_goals
    intros
    exact instDecidableTrue

/-- The room of a tag duel with three players, the third of which moves twice. -/
def tagRoom : RoomConfig := { casualRoom with team0 := 2, team1 := 2, isTag := true }

def threePlayers : List RoomInput := joining 0 "A" ++ joining 1 "B" ++ joining 2 "C"

def movingOn (c : ClientRef) : List RoomInput := [.message c .toDuel, .grant]

theorem seat_integrity_moved :
    SeatsAreSound tagRoom (after tagRoom (threePlayers ++ movingOn 2)) :=
  seat_integrity _ _ (Runs.after (by decide +kernel))

/-- The third player moves from the last seat to the free one before it and changes teams. -/
theorem seats_not_sound :
    ∃ room, Runs tagRoom (fun _ _ => True) room ∧ ¬ SeatsAreSound tagRoom room := by
  refine ⟨_, runs_after _ (threePlayers ++ movingOn 2 ++ movingOn 2), ?_⟩
  intro h
  have hfirst := h.first
  revert hfirst
  decide +kernel

end YGOProRoom

end EdoproServer.Room
