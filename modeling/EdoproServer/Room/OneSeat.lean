import EdoproServer.Room.SeatIntegrity

namespace EdoproServer.Room
open Decks Lib

/-! ## One live seat for an identity -/

/-- Whether a client belongs to a user, by its account or by its connection. -/
def YGOProClient.isFor (client : YGOProClient) (userId : UserId) : Bool :=
  client.id = some userId || client.socket.resolvedUserId = some userId

/-- Whether two clients belong to one of the users a room is reserved for. -/
def RoomConfig.sameReservedUser (cfg : RoomConfig) (a b : YGOProClient) : Bool :=
  cfg.reservedUserIds.any (fun userId => a.isFor userId && b.isFor userId)

def Seating.isLive (s : Seating) (c : ClientRef) : Bool :=
  (s.client c).socket.id ∉ s.closedSockets

/-- Two clients that should not both be seated. -/
def Conflict (cfg : RoomConfig) (s : Seating) (a b : ClientRef) : Prop :=
  (s.client a).name = (s.client b).name ∨
    cfg.sameReservedUser (s.client a) (s.client b) = true ∧ s.isLive a = true ∧ s.isLive b = true

/-- No two players conflict. -/
def OneSeat (cfg : RoomConfig) (s : Seating) : Prop :=
  ∀ a ∈ s.players, ∀ b ∈ s.players, Conflict cfg s a b → a = b

namespace OneSeat

variable {cfg : RoomConfig} {s s' : Seating}

/-- Fewer players and fewer conflicts among them. -/
theorem of_conflict (h : OneSeat cfg s) (hp : s'.players ⊆ s.players)
    (hc : ∀ a ∈ s'.players, ∀ b ∈ s'.players, Conflict cfg s' a b → Conflict cfg s a b) :
    OneSeat cfg s' :=
  fun a ha b hb hab => h a (hp ha) b (hp hb) (hc a ha b hb hab)

theorem isLive_of (hclosed : ∀ id ∈ s.closedSockets, id ∈ s'.closedSockets) {c : ClientRef}
    (hsocket : (s'.client c).socket = (s.client c).socket) (h : s'.isLive c = true) :
    s.isLive c = true := by
  simp only [Seating.isLive, hsocket, decide_eq_true_eq] at h ⊢
  exact fun hmem => h (hclosed _ hmem)

/-- Clients with the same names, accounts and connections conflict no more than before. -/
theorem conflict_of (hclosed : ∀ id ∈ s.closedSockets, id ∈ s'.closedSockets) {a b : ClientRef}
    (ha : (s'.client a).name = (s.client a).name ∧ (s'.client a).id = (s.client a).id ∧
      (s'.client a).socket = (s.client a).socket)
    (hb : (s'.client b).name = (s.client b).name ∧ (s'.client b).id = (s.client b).id ∧
      (s'.client b).socket = (s.client b).socket)
    (h : Conflict cfg s' a b) : Conflict cfg s a b := by
  obtain ⟨hna, hia, hsa⟩ := ha
  obtain ⟨hnb, hib, hsb⟩ := hb
  cases h with
  | inl hname => exact .inl (hna ▸ hnb ▸ hname)
  | inr hlive =>
    obtain ⟨huser, hla, hlb⟩ := hlive
    refine .inr ⟨?_, isLive_of hclosed hsa hla, isLive_of hclosed hsb hlb⟩
    simpa [RoomConfig.sameReservedUser, YGOProClient.isFor, hia, hib, hsa, hsb] using huser

theorem sameSeats (h : OneSeat cfg s) (hs : SameSeats s s') : OneSeat cfg s' := by
  apply h.of_conflict (by rw [hs.players]; exact fun _ h => h)
  intro a _ b _
  exact conflict_of hs.closed ⟨hs.name a, hs.id a, hs.socket a⟩ ⟨hs.name b, hs.id b, hs.socket b⟩

/-- Players that stay as they are while others leave. -/
theorem stay (h : OneSeat cfg s) (hp : s'.players ⊆ s.players)
    (hclosed : s'.closedSockets = s.closedSockets)
    (hclient : ∀ c ∈ s'.players, (s'.client c).name = (s.client c).name ∧
      (s'.client c).id = (s.client c).id ∧ (s'.client c).socket = (s.client c).socket) :
    OneSeat cfg s' := by
  apply h.of_conflict hp
  intro a ha b hb
  exact conflict_of (by rw [hclosed]; exact fun _ h => h) (hclient a ha) (hclient b hb)

theorem conflict_symm {a b : ClientRef} (h : Conflict cfg s a b) : Conflict cfg s b a := by
  cases h with
  | inl hname => exact .inl hname.symm
  | inr hlive =>
    obtain ⟨huser, ha, hb⟩ := hlive
    refine .inr ⟨?_, hb, ha⟩
    simp only [RoomConfig.sameReservedUser, List.any_eq_true] at huser ⊢
    obtain ⟨userId, hmem, hboth⟩ := huser
    exact ⟨userId, hmem, by rwa [Bool.and_comm]⟩

/-- One client changes or sits down, and conflicts with no other player afterwards. -/
theorem change (h : OneSeat cfg s) {c : ClientRef} (hp : ∀ p ∈ s'.players, p ≠ c → p ∈ s.players)
    (hclosed : s'.closedSockets = s.closedSockets)
    (hclient : ∀ p, p ≠ c → s'.client p = s.client p)
    (hc : ∀ p ∈ s.players, p ≠ c → ¬ Conflict cfg s' p c) : OneSeat cfg s' := by
  intro a ha b hb hab
  by_cases hac : a = c
  · by_cases hbc : b = c
    · exact hac.trans hbc.symm
    · subst hac
      exact absurd (conflict_symm hab) (hc b (hp b hb hbc) hbc)
  · by_cases hbc : b = c
    · subst hbc
      exact absurd hab (hc a (hp a ha hac) hac)
    · apply h a (hp a ha hac) b (hp b hb hbc)
      apply conflict_of _ _ _ hab
      · rw [hclosed]
        exact fun _ h => h
      · rw [hclient a hac]
        exact ⟨rfl, rfl, rfl⟩
      · rw [hclient b hbc]
        exact ⟨rfl, rfl, rfl⟩

end OneSeat

namespace YGOProRoom

variable {cfg : RoomConfig} {room pre : YGOProRoom} {input : RoomInput}

/-! ## The gates in front of a seat -/

/-- Whether a live player already sits for a user that a client belongs to. -/
def hasLiveSeatFor (cfg : RoomConfig) (room : YGOProRoom) (client : YGOProClient) : Bool :=
  room.players.any (fun p => cfg.sameReservedUser (room.client p) client && room.isLive p)

/-- The name and the reserved users of whoever takes a seat have no other seat at that moment. A
connection that comes back revives no second seat, and nobody wraps to the second team. -/
def GatesHold (cfg : RoomConfig) (room : YGOProRoom) : Call → Prop
  | .addPlayer request credential place =>
    room.isNameTaken request.name = false ∧
      room.hasLiveSeatFor cfg (room.buildPlayer request credential place) = false
  | .spectatorToPlayer c _ =>
    room.isNameTaken (room.client c).name = false ∧
      room.hasLiveSeatFor cfg (room.client c) = false
  | .reconnect c socket => ∀ p ∈ room.players, p ≠ c → room.isLive p = true →
      cfg.sameReservedUser (room.client p) ((room.client c).setSocket socket) = false
  | .movePlayerToAnotherCell c _ => wrapsToSecondTeam cfg room (room.client c).position = false
  | _ => True

theorem GatesHold.noWrap {call : Call} (h : GatesHold cfg room call) : NoWrap cfg room call := by
  cases call with
  | movePlayerToAnotherCell c place => exact h
  | _ => trivial

theorem not_name_of_not_taken {name : String} (h : room.isNameTaken name = false)
    {p : ClientRef} (hp : p ∈ room.players) : (room.client p).name ≠ name := by
  simp only [isNameTaken, List.any_eq_false, decide_eq_true_eq] at h
  exact h p hp

theorem not_live_of_no_seat {client : YGOProClient} (h : room.hasLiveSeatFor cfg client = false)
    {p : ClientRef} (hp : p ∈ room.players) :
    ¬ (cfg.sameReservedUser (room.client p) client = true ∧ room.isLive p = true) := by
  simp only [hasLiveSeatFor, List.any_eq_false, Bool.and_eq_true] at h
  exact h p hp

theorem isLive_eq (room : YGOProRoom) (c : ClientRef) :
    room.toSeating.isLive c = room.isLive c := by
  simp [Seating.isLive, YGOProRoom.isLive, isClosed]

/-- A client that passes the gates conflicts with nobody who sits. -/
theorem not_conflict {s : Seating} {c p : ClientRef}
    (hclient : s.client p = room.client p) (hclosed : s.closedSockets = room.closedSockets)
    (hname : (s.client c).name ≠ (room.client p).name)
    (hlive : ¬ (cfg.sameReservedUser (room.client p) (s.client c) = true ∧
      room.isLive p = true)) : ¬ Conflict cfg s p c := by
  intro h
  cases h with
  | inl he =>
    rw [hclient] at he
    exact hname he.symm
  | inr huser =>
    obtain ⟨hsame, hp', _⟩ := huser
    rw [hclient] at hsame
    apply hlive ⟨hsame, ?_⟩
    rw [← isLive_eq]
    simpa [Seating.isLive, hclient, hclosed] using hp'

theorem oneSeat_addPlayer (h : OneSeat cfg room.toSeating) {request : JoinRequest}
    {credential : PlayerCredential}
    {place : Nat × Team} (hname : room.isNameTaken request.name = false)
    (hlive : room.hasLiveSeatFor cfg (room.buildPlayer request credential place) = false) :
    OneSeat cfg (room.toSeating.addPlayer request credential place) := by
  have hother : ∀ p, p ≠ room.nextClient →
      (room.toSeating.addPlayer request credential place).client p = room.client p := by
    intro p hp
    simp [Seating.addPlayer, hp]
  have hnew : (room.toSeating.addPlayer request credential place).client room.nextClient =
      room.buildPlayer request credential place := by simp [Seating.addPlayer]
  refine h.change (c := room.nextClient) ?_ ?_ hother ?_
  · intro p hp hpc
    cases List.mem_append.mp hp with
    | inl hp => exact hp
    | inr hp => exact absurd (List.mem_singleton.mp hp) hpc
  · rfl
  · intro p hp hpc
    apply not_conflict (hother p hpc) rfl
    · rw [hnew]
      exact (not_name_of_not_taken hname hp).symm
    · rw [hnew]
      exact not_live_of_no_seat hlive hp

theorem oneSeat_spectatorToPlayer (h : OneSeat cfg room.toSeating) {c : ClientRef}
    {place : Nat × Team} (hname : room.isNameTaken (room.client c).name = false)
    (hlive : room.hasLiveSeatFor cfg (room.client c) = false) :
    OneSeat cfg (room.toSeating.spectatorToPlayer c place) := by
  have hother : ∀ p, p ≠ c →
      (room.toSeating.spectatorToPlayer c place).client p = room.client p := by
    intro p hp
    simp [Seating.spectatorToPlayer, Seating.removeSpectator, Seating.modify, hp]
  have hself : (room.toSeating.spectatorToPlayer c place).client c =
      ((room.client c).playerPosition place.1 place.2).notReady := by
    simp [Seating.spectatorToPlayer, Seating.removeSpectator, Seating.modify]
  refine h.change (c := c) ?_ ?_ hother ?_
  · intro p hp hpc
    cases List.mem_append.mp hp with
    | inl hp => exact hp
    | inr hp => exact absurd (List.mem_singleton.mp hp) hpc
  · rfl
  · intro p hp hpc
    apply not_conflict (hother p hpc) rfl
    · rw [hself]
      exact (not_name_of_not_taken hname hp).symm
    · rw [hself]
      exact not_live_of_no_seat hlive hp

theorem oneSeat_reconnect (h : OneSeat cfg room.toSeating) {c : ClientRef} {socket : Socket}
    (hok : ∀ p ∈ room.players, p ≠ c → room.isLive p = true →
      cfg.sameReservedUser (room.client p) ((room.client c).setSocket socket) = false) :
    OneSeat cfg (room.toSeating.reconnect c socket) := by
  have hother : ∀ p, p ≠ c → (room.toSeating.reconnect c socket).client p = room.client p := by
    intro p hp
    simp [Seating.reconnect, Seating.modify, hp]
  have hself : (room.toSeating.reconnect c socket).client c =
      ((room.client c).setSocket socket).reconnecting := by
    simp [Seating.reconnect, Seating.modify]
  by_cases hc : c ∈ room.players
  · refine h.change (c := c) (fun p hp _ => hp) ?_ hother ?_
    · rfl
    intro p hp hpc
    apply not_conflict (hother p hpc) rfl
    · rw [hself]
      intro he
      exact hpc (h p hp c hc (.inl he.symm))
    · rw [hself]
      intro hboth
      have := hok p hp hpc hboth.2
      rw [show cfg.sameReservedUser (room.client p)
        ((room.client c).setSocket socket).reconnecting = cfg.sameReservedUser (room.client p)
          ((room.client c).setSocket socket) from rfl, this] at hboth
      exact absurd hboth.1 (by simp)
  · refine h.stay ?_ ?_ ?_
    · exact fun _ h => h
    · rfl
    intro p hp
    rw [hother p (fun he => hc (he ▸ hp))]
    exact ⟨rfl, rfl, rfl⟩

theorem oneSeat_perform {call : Call} (ha : Allocated room.toSeating)
    (h : OneSeat cfg room.toSeating) (hok : GatesHold cfg room call) :
    OneSeat cfg (room.perform cfg call).toSeating := by
  cases call with
  | addPlayer request credential place => exact oneSeat_addPlayer h hok.1 hok.2
  | addSpectator name socket credential =>
    refine h.stay ?_ ?_ ?_
    · exact fun _ h => h
    · rfl
    intro c hc
    have hne : c ≠ room.nextClient := ha.player_ne hc
    simp [perform, Seating.addSpectator, hne]
  | removePlayer id =>
    refine h.stay ?_ ?_ ?_
    · exact fun _ hc => List.mem_of_mem_filter hc
    · rfl
    · exact fun _ _ => ⟨rfl, rfl, rfl⟩
  | removeSpectator id =>
    refine h.stay ?_ ?_ ?_
    · exact fun _ h => h
    · rfl
    · exact fun _ _ => ⟨rfl, rfl, rfl⟩
  | playerToSpectator c =>
    refine h.stay ?_ ?_ ?_
    · exact fun _ hc => List.mem_of_mem_filter hc
    · rfl
    intro p hp
    have hne : p ≠ c := by
      intro he
      subst he
      simp [perform, Seating.playerToSpectator, Seating.removePlayer, Seating.modify] at hp
    simp [perform, Seating.playerToSpectator, Seating.removePlayer, Seating.modify, hne]
  | spectatorToPlayer c place => exact oneSeat_spectatorToPlayer h hok.1 hok.2
  | movePlayerToAnotherCell c place =>
    refine h.stay ?_ ?_ ?_
    · exact fun _ h => h
    · rfl
    intro p _
    by_cases hp : p = c
    · subst hp
      simp [perform, Seating.movePlayerToAnotherCell, Seating.modify, YGOProClient.notReady,
        YGOProClient.playerPosition]
    · simp [perform, Seating.movePlayerToAnotherCell, Seating.modify, hp]
  | reconnect c socket => exact oneSeat_reconnect h hok
  | _ => exact h.sameSeats (perform_sameSeats rfl)

/-! ## Runs -/

/-- Seated names are unique, no reserved user has two live seats, and nobody sits without a
seat. -/
structure OneLiveSeat (cfg : RoomConfig) (room : YGOProRoom) : Prop where
  names : (room.players.map (fun c => (room.client c).name)).Nodup
  reserved : ∀ userId ∈ cfg.reservedUserIds, (room.players.filter (fun c =>
    (room.client c).isFor userId && room.isLive c)).length ≤ 1
  seats : room.players.length ≤ cfg.team0 + cfg.team1

theorem oneLiveSeat (hseats : SeatIntegrity cfg room.toSeating)
    (h : OneSeat cfg room.toSeating) : OneLiveSeat cfg room where
  names := hseats.nodup.map_on (fun a ha b hb hab => h a ha b hb (.inl hab))
  reserved := by
    intro userId huser
    have hsame : ∀ a ∈ room.players, (room.client a).isFor userId = true → room.isLive a = true →
        ∀ b ∈ room.players, (room.client b).isFor userId = true → room.isLive b = true →
        a = b := by
      intro a ha hfa hla b hb hfb hlb
      refine h a ha b hb (.inr ⟨?_, (isLive_eq room a).trans hla, (isLive_eq room b).trans hlb⟩)
      exact List.any_eq_true.mpr ⟨userId, huser, by rw [hfa, hfb]; rfl⟩
    have hnodup : (room.players.filter (fun c =>
        (room.client c).isFor userId && room.isLive c)).Nodup := hseats.nodup.filter _
    cases hl : room.players.filter (fun c =>
        (room.client c).isFor userId && room.isLive c) with
    | nil => simp
    | cons a rest =>
      have hmem : ∀ b ∈ a :: rest, b ∈ room.players ∧ (room.client b).isFor userId = true ∧
          room.isLive b = true := by
        intro b hb
        rw [← hl] at hb
        simpa using hb
      have hrest : rest = [] := by
        apply List.eq_nil_iff_forall_not_mem.mpr
        intro b hb
        obtain ⟨ha, hfa, hla⟩ := hmem a List.mem_cons_self
        obtain ⟨hb', hfb, hlb⟩ := hmem b (List.mem_cons_of_mem a hb)
        have hab := hsame a ha hfa hla b hb' hfb hlb
        rw [hl, List.nodup_cons] at hnodup
        exact hnodup.1 (hab ▸ hb)
      simp [hrest]
  seats := by
    have hle := length_filter_le hseats (p := fun _ => true)
      (List.range (cfg.team0 + cfg.team1))
      (fun c hc _ => List.mem_range.mpr (hseats.seated c hc).1)
    simpa using hle

instance (cfg : RoomConfig) (room : YGOProRoom) (call : Call) :
    Decidable (GatesHold cfg room call) := by
  apply Call.casesOn (motive := fun call => Decidable (GatesHold cfg room call)) call
  case addPlayer =>
    intro request credential place
    show Decidable (_ ∧ _)
    infer_instance
  case spectatorToPlayer =>
    intro c place
    show Decidable (_ ∧ _)
    infer_instance
  case reconnect =>
    intro c socket
    show Decidable (∀ p ∈ room.players, p ≠ c → _ → _)
    infer_instance
  case movePlayerToAnotherCell =>
    intro c place
    show Decidable (wrapsToSecondTeam cfg room _ = false)
    infer_instance
  all_goals
    intros
    exact instDecidableTrue

/-- Two joins under one name pass the gate before either of them sits down. -/
def bothJoining : List RoomInput :=
  [.join (guest 0 "A"), .join (guest 1 "A"), .grant, .answered none, .grant, .answered none]

end YGOProRoom

end EdoproServer.Room
