import EdoproServer.Room.Runs

namespace EdoproServer.Room
open Decks Lib

/-! ## What only changes how a client plays -/

/-- Who a client is, where it sits and over which connection, without how far it has come. -/
def YGOProClient.occupant (client : YGOProClient) : YGOProClient :=
  { client with
    reconnectionToken := none, isInternal := false, isCaptain := false, isReady := false,
    isReconnecting := false, deck := none }

/-- The same clients sit and watch in the same places. Connections may have closed. -/
structure SameSeats (s s' : Seating) : Prop where
  players : s'.players = s.players
  spectators : s'.spectators = s.spectators
  nextClient : s'.nextClient = s.nextClient
  closed : ∀ id ∈ s.closedSockets, id ∈ s'.closedSockets
  occupant : ∀ c, (s'.client c).occupant = (s.client c).occupant

namespace SameSeats

variable {s s' s'' : Seating}

theorem refl (s : Seating) : SameSeats s s := ⟨rfl, rfl, rfl, fun _ h => h, fun _ => rfl⟩

theorem trans (h : SameSeats s s') (h' : SameSeats s' s'') : SameSeats s s'' where
  players := h'.players.trans h.players
  spectators := h'.spectators.trans h.spectators
  nextClient := h'.nextClient.trans h.nextClient
  closed := fun id hid => h'.closed id (h.closed id hid)
  occupant := fun c => (h'.occupant c).trans (h.occupant c)

theorem position (h : SameSeats s s') (c : ClientRef) :
    (s'.client c).position = (s.client c).position := by
  simpa [YGOProClient.occupant] using congrArg YGOProClient.position (h.occupant c)

theorem team (h : SameSeats s s') (c : ClientRef) : (s'.client c).team = (s.client c).team := by
  simpa [YGOProClient.occupant] using congrArg YGOProClient.team (h.occupant c)

theorem name (h : SameSeats s s') (c : ClientRef) : (s'.client c).name = (s.client c).name := by
  simpa [YGOProClient.occupant] using congrArg YGOProClient.name (h.occupant c)

theorem id (h : SameSeats s s') (c : ClientRef) : (s'.client c).id = (s.client c).id := by
  simpa [YGOProClient.occupant] using congrArg YGOProClient.id (h.occupant c)

theorem credential (h : SameSeats s s') (c : ClientRef) :
    (s'.client c).credential = (s.client c).credential := by
  simpa [YGOProClient.occupant] using congrArg YGOProClient.credential (h.occupant c)

theorem socket (h : SameSeats s s') (c : ClientRef) :
    (s'.client c).socket = (s.client c).socket := by
  simpa [YGOProClient.occupant] using congrArg YGOProClient.socket (h.occupant c)

theorem clients (h : SameSeats s s') : s'.clients = s.clients := by
  rw [Seating.clients, Seating.clients, h.players, h.spectators]

theorem update (s : Seating) (c : ClientRef) (client : YGOProClient)
    (h : client.occupant = (s.client c).occupant) :
    SameSeats s { s with client := Function.update s.client c client } := by
  refine ⟨rfl, rfl, rfl, fun _ h => h, ?_⟩
  intro p
  by_cases hp : p = c
  · subst hp
    simp [h]
  · simp [hp]

theorem modify (s : Seating) (c : ClientRef) {f : YGOProClient → YGOProClient}
    (h : ∀ client, (f client).occupant = client.occupant) : SameSeats s (s.modify c f) :=
  update s c _ (h _)

theorem closeSocket (s : Seating) (id : Nat) : SameSeats s (s.closeSocket id) :=
  ⟨rfl, rfl, rfl, fun _ h => List.mem_append_left _ h, fun _ => rfl⟩

theorem issue (s : Seating) (roomId : Nat) (c : ClientRef) : SameSeats s (s.issue roomId c) := by
  obtain ⟨hp, hs, hn, hc, ho⟩ :=
    update s c ((s.client c).setReconnectionToken s.minted) rfl
  exact ⟨hp, hs, hn, hc, ho⟩

theorem revoke (s : Seating) (c : ClientRef) : SameSeats s (s.revoke c) := by
  unfold Seating.revoke
  split
  · exact refl s
  · obtain ⟨hp, hs, hn, hc, ho⟩ := update s c (s.client c).clearReconnectionToken rfl
    exact ⟨hp, hs, hn, hc, ho⟩

theorem destroy (s : Seating) (c : ClientRef) : SameSeats s (s.destroy c) := by
  unfold Seating.destroy
  split
  · exact refl s
  · exact closeSocket s _

theorem foldl {f : Seating → ClientRef → Seating} (h : ∀ s c, SameSeats s (f s c))
    (l : List ClientRef) (s : Seating) : SameSeats s (l.foldl f s) := by
  induction l generalizing s with
  | nil => exact refl s
  | cons c l ih => exact (h s c).trans (ih (f s c))

theorem teardown (s : Seating) : SameSeats s s.teardown :=
  foldl (fun s c => (revoke s c).trans (destroy _ c)) _ _

theorem unreadyPlayers (s : Seating) : SameSeats s s.unreadyPlayers :=
  foldl (fun s c => modify s c (f := YGOProClient.notReady) (fun _ => rfl)) _ _

end SameSeats

/-- Calls that seat, unseat, move or reconnect somebody. -/
def Call.movesSomebody : Call → Bool
  | .addPlayer _ _ _ | .addSpectator _ _ _ | .removePlayer _ | .removeSpectator _
  | .playerToSpectator _ | .spectatorToPlayer _ _ | .movePlayerToAnotherCell _ _
  | .reconnect _ _ => true
  | _ => false

namespace YGOProRoom

variable {cfg : RoomConfig} {room pre : YGOProRoom} {input : RoomInput}

theorem enterPhase_sameSeats (born : Nat) (target : DuelState) :
    SameSeats room.toSeating (room.enterPhase cfg born target).toSeating := by
  cases target with
  | waiting => exact SameSeats.unreadyPlayers room.toSeating
  | _ => exact SameSeats.refl _

theorem finalize_sameSeats (abandon : Option ReservedDuelAbandon) :
    SameSeats room.toSeating (room.finalize cfg abandon).toSeating := by
  unfold finalize
  split
  · exact SameSeats.refl _
  · unfold closeSession
    dsimp only
    split
    · exact SameSeats.teardown room.toSeating
    · exact SameSeats.teardown room.toSeating

/-- All other calls leave everybody in place. -/
theorem perform_sameSeats {call : Call} (h : call.movesSomebody = false) :
    SameSeats room.toSeating (room.perform cfg call).toSeating := by
  cases call with
  | closeSocket id => exact SameSeats.closeSocket _ id
  | flag c flag =>
    apply SameSeats.modify
    cases flag with
    | _ => exact fun _ => rfl
  | setDecks c deck =>
    exact SameSeats.modify _ c (f := fun client => client.ready.setDeck deck) (fun _ => rfl)
  | issue c => exact SameSeats.issue _ _ c
  | enter born target => exact enterPhase_sameSeats born target
  | clearTimer born position =>
    rw [perform]
    split
    · exact SameSeats.refl _
    · exact SameSeats.refl _
  | clearTimers born =>
    rw [perform]
    split
    · exact SameSeats.refl _
    · exact SameSeats.refl _
  | removeAllListener born =>
    rw [perform]
    split
    · exact SameSeats.refl _
    · exact SameSeats.refl _
  | leaveSideDecking born target =>
    exact @enterPhase_sameSeats cfg (room.note (.sided born)) born target
  | processDuelEnd duel winner engine => exact SameSeats.unreadyPlayers room.toSeating
  | endByAbandon born team =>
    rw [perform, matchForfeit]
    split
    · exact SameSeats.refl _
    · exact SameSeats.refl _
  | finalize abandon => exact finalize_sameSeats abandon
  | addPlayer request credential place => simp [Call.movesSomebody] at h
  | addSpectator name socket credential => simp [Call.movesSomebody] at h
  | removePlayer id => simp [Call.movesSomebody] at h
  | removeSpectator id => simp [Call.movesSomebody] at h
  | playerToSpectator c => simp [Call.movesSomebody] at h
  | spectatorToPlayer c place => simp [Call.movesSomebody] at h
  | movePlayerToAnotherCell c place => simp [Call.movesSomebody] at h
  | reconnect c socket => simp [Call.movesSomebody] at h
  | _ => exact SameSeats.refl _

end YGOProRoom

/-! ## New clients are new -/

/-- Nobody in the room is the client that is made next. -/
def Allocated (s : Seating) : Prop := ∀ c ∈ s.clients, c < s.nextClient

namespace Allocated

variable {s s' : Seating}

theorem sameSeats (h : Allocated s) (hs : SameSeats s s') : Allocated s' := by
  unfold Allocated
  rw [hs.clients, hs.nextClient]
  exact h

theorem player (h : Allocated s) {c : ClientRef} (hc : c ∈ s.players) : c < s.nextClient :=
  h c (List.mem_append_left _ hc)

theorem spectator (h : Allocated s) {c : ClientRef} (hc : c ∈ s.spectators) : c < s.nextClient :=
  h c (List.mem_append_right _ hc)

theorem player_ne (h : Allocated s) {c : ClientRef} (hc : c ∈ s.players) : c ≠ s.nextClient :=
  Nat.ne_of_lt (h.player hc)

/-- Only known clients sit and watch afterwards. -/
theorem of_lists (h : Allocated s) (hnext : s.nextClient ≤ s'.nextClient)
    (hp : ∀ c ∈ s'.players, c ∈ s.players ∨ c < s'.nextClient)
    (hs : ∀ c ∈ s'.spectators, c ∈ s.spectators ∨ c < s'.nextClient) : Allocated s' := by
  intro c hc
  cases List.mem_append.mp hc with
  | inl hc =>
    cases hp c hc with
    | inl hold => exact (h.player hold).trans_le hnext
    | inr hlt => exact hlt
  | inr hc =>
    cases hs c hc with
    | inl hold => exact (h.spectator hold).trans_le hnext
    | inr hlt => exact hlt

end Allocated

namespace YGOProRoom

variable {cfg : RoomConfig} {room pre : YGOProRoom} {input : RoomInput}

/-- The clients in the room and those that wait to be moved exist. -/
structure ClientsKnown (room : YGOProRoom) : Prop where
  allocated : Allocated room.toSeating
  movers : ∀ work ∈ room.queue, ∀ c ∈ work.work.mover, c < room.nextClient

theorem ClientsKnown.mover (h : ClientsKnown pre) {c : ClientRef} (hc : IsMover pre room c) :
    c < room.nextClient := by
  obtain ⟨work, hwork, hmover⟩ := hc.waited
  rw [hc.nextClient]
  exact h.movers work hwork c hmover

theorem mem_append_singleton {l : List ClientRef} {c p : ClientRef} {n : Nat} (hlt : c < n)
    (h : p ∈ l ++ [c]) : p ∈ l ∨ p < n := by
  cases List.mem_append.mp h with
  | inl h => exact .inl h
  | inr h => exact .inr (List.mem_singleton.mp h ▸ hlt)

theorem allocated_perform {call : Call} (hpre : ClientsKnown pre)
    (h : Allocated room.toSeating) (hguard : Guarded cfg pre input room call) :
    Allocated (room.perform cfg call).toSeating := by
  cases call with
  | addPlayer request credential place =>
    exact h.of_lists (Nat.le_succ _) (fun c hc => mem_append_singleton (Nat.lt_succ_self _) hc)
      (fun c hc => .inl hc)
  | addSpectator name socket credential =>
    exact h.of_lists (Nat.le_succ _) (fun c hc => .inl hc)
      (fun c hc => mem_append_singleton (Nat.lt_succ_self _) hc)
  | removePlayer id =>
    exact h.of_lists (le_refl _) (fun c hc => .inl (List.mem_of_mem_filter hc))
      (fun c hc => .inl hc)
  | removeSpectator id =>
    exact h.of_lists (le_refl _) (fun c hc => .inl hc)
      (fun c hc => .inl (List.mem_of_mem_filter hc))
  | playerToSpectator c =>
    have hlt : c < room.nextClient := hpre.mover hguard
    exact h.of_lists (le_refl _) (fun c hc => .inl (List.mem_of_mem_filter hc))
      (fun p hp => mem_append_singleton hlt hp)
  | spectatorToPlayer c place =>
    have hlt : c < room.nextClient := hpre.mover hguard.1
    exact h.of_lists (le_refl _) (fun p hp => mem_append_singleton hlt hp)
      (fun c hc => .inl (List.mem_of_mem_filter hc))
  | movePlayerToAnotherCell c place =>
    exact h.of_lists (le_refl _) (fun c hc => .inl hc) (fun c hc => .inl hc)
  | reconnect c socket =>
    exact h.of_lists (le_refl _) (fun c hc => .inl hc) (fun c hc => .inl hc)
  | _ => exact h.sameSeats (perform_sameSeats rfl)

/-- Clients are only ever added. -/
theorem nextClient_le (call : Call) : room.nextClient ≤ (room.perform cfg call).nextClient := by
  cases hcall : call.movesSomebody with
  | false => exact le_of_eq (perform_sameSeats hcall).nextClient.symm
  | true =>
    cases call with
    | addPlayer request credential place => exact Nat.le_succ _
    | addSpectator name socket credential => exact Nat.le_succ _
    | removePlayer id => exact le_refl _
    | removeSpectator id => exact le_refl _
    | playerToSpectator c => exact le_refl _
    | spectatorToPlayer c place => exact le_refl _
    | movePlayerToAnotherCell c place => exact le_refl _
    | reconnect c socket => exact le_refl _
    | _ => cases hcall

theorem clientsKnown_perform {call : Call} (hpre : ClientsKnown pre) (h : ClientsKnown room)
    (hguard : Guarded cfg pre input room call) : ClientsKnown (room.perform cfg call) where
  allocated := allocated_perform hpre h.allocated hguard
  movers := by
    intro work hwork c hc
    apply lt_of_lt_of_le _ (nextClient_le call)
    cases queue_perform call hwork with
    | inl hold => exact h.movers work hold c hc
    | inr hnew =>
      cases hnew with
      | inl hnew =>
        subst hnew
        exact hguard.2 c hc
      | inr hnew =>
        rw [hnew] at hc
        simp [Work.mover] at hc

theorem create_clientsKnown (outside : Outside) : ClientsKnown (create cfg outside) where
  allocated := by simp [create, Allocated, Seating.clients]
  movers := by simp [create]

end YGOProRoom

end EdoproServer.Room
