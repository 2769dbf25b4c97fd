import EdoproServer.Room.Server

namespace EdoproServer.Room
open Decks Lib

namespace YGOProRoom

variable {cfg : RoomConfig} {room pre : YGOProRoom} {input : RoomInput}

/-! ## Connections change by reconnecting only -/

theorem socket_perform {call : Call} {c : ClientRef} (hlt : c < room.nextClient)
    (h : ∀ socket, call ≠ .reconnect c socket) :
    ((room.perform cfg call).client c).socket = (room.client c).socket := by
  have hne : c ≠ room.nextClient := Nat.ne_of_lt hlt
  cases call with
  | addPlayer request credential place => simp [perform, Seating.addPlayer, hne]
  | addSpectator name socket credential => simp [perform, Seating.addSpectator, hne]
  | removePlayer id => rfl
  | removeSpectator id => rfl
  | playerToSpectator p =>
    by_cases hp : c = p
    · subst hp
      simp [perform, Seating.playerToSpectator, Seating.removePlayer, Seating.modify,
        YGOProClient.spectatorPosition, YGOProClient.notReady]
    · simp [perform, Seating.playerToSpectator, Seating.removePlayer, Seating.modify, hp]
  | spectatorToPlayer p place =>
    by_cases hp : c = p
    · subst hp
      simp [perform, Seating.spectatorToPlayer, Seating.removeSpectator, Seating.modify,
        YGOProClient.playerPosition, YGOProClient.notReady]
    · simp [perform, Seating.spectatorToPlayer, Seating.removeSpectator, Seating.modify, hp]
  | movePlayerToAnotherCell p place =>
    by_cases hp : c = p
    · subst hp
      simp [perform, Seating.movePlayerToAnotherCell, Seating.modify, YGOProClient.playerPosition,
        YGOProClient.notReady]
    · simp [perform, Seating.movePlayerToAnotherCell, Seating.modify, hp]
  | reconnect p socket =>
    have hp : c ≠ p := fun he => h socket (by rw [he])
    simp [perform, Seating.reconnect, Seating.modify, hp]
  | _ => exact (perform_sameSeats rfl).socket c

theorem socket_reconnect (c : ClientRef) (socket : Socket) :
    ((room.perform cfg (.reconnect c socket)).client c).socket = socket := by
  simp [perform, Seating.reconnect, Seating.modify, YGOProClient.setSocket,
    YGOProClient.reconnecting]

theorem socket_performAll {calls : List Call} {c : ClientRef} (hlt : c < room.nextClient)
    (h : ∀ call ∈ calls, ∀ socket, call ≠ .reconnect c socket) :
    ((performAll (perform cfg) room calls).client c).socket = (room.client c).socket := by
  induction calls generalizing room with
  | nil => rfl
  | cons call calls ih =>
    rw [performAll_cons, ih (hlt.trans_le (nextClient_le call))
      (fun call' hmem => h call' (List.mem_cons_of_mem call hmem))]
    exact socket_perform hlt (h call List.mem_cons_self)

/-- An input gives a known client no connection but that of the attempt it was given back to. -/
theorem socket_step {c : ClientRef} (hlt : c < room.nextClient)
    (h : ((room.step cfg input).client c).socket ≠ (room.client c).socket) :
    ∃ attempt, attemptOf room input = some attempt ∧
      attempt.socket = ((room.step cfg input).client c).socket ∧
      reclaimed cfg room attempt = some c := by
  have hcalls := (calls_guarded cfg room input).preserves
    (P := fun r => c < r.nextClient ∧ ((r.client c).socket = (room.client c).socket ∨
      ∃ attempt, attemptOf room input = some attempt ∧
        attempt.socket = (r.client c).socket ∧ reclaimed cfg room attempt = some c)) ?_
    ⟨hlt, .inl rfl⟩
  · cases hcalls.2 with
    | inl hsame => exact absurd hsame h
    | inr hattempt => exact hattempt
  · intro r call hr hguard
    obtain ⟨hrlt, hsocket⟩ := hr
    refine ⟨hrlt.trans_le (nextClient_le call), ?_⟩
    by_cases hcall : ∃ socket, call = .reconnect c socket
    · obtain ⟨socket, rfl⟩ := hcall
      rw [socket_reconnect]
      exact .inr hguard
    · rw [socket_perform hrlt (fun socket he => hcall ⟨socket, he⟩)]
      exact hsocket

/-! ## Who may get a seat back -/

/-- An attempt is made by the owner of a seat: it carries the token of the seat and, if the seat
is verified, its account; or it has the name of the seat and, in a ranked room, its external
account, or in a casual one its address while the old connection is closed. A watcher owns no
seat. -/
def OwnsSeat (cfg : RoomConfig) (room : YGOProRoom) (c : ClientRef) : ReconnectAttempt → Prop
  | .byName request joinerUserId =>
    request.socket.watchForRoomId ≠ some cfg.id ∧ (room.client c).name = request.name ∧
      (cfg.ranked = true ∧ (∃ userId, (room.client c).credential = some (.external userId) ∧
          joinerUserId = some userId) ∨
        cfg.ranked = false ∧
          (room.client c).socket.remoteAddress = request.socket.remoteAddress ∧
          room.isLive c = false)
  | .byToken token socket =>
    socket.watchForRoomId ≠ some cfg.id ∧ (room.client c).reconnectionToken = some token ∧
      ∀ userId, (room.client c).credential = some (.verified userId) →
        socket.resolvedUserId = some userId

/-- A player gets a new connection only from an attempt made by the owner of its seat. -/
def SeatsReturned (cfg : RoomConfig) (room : YGOProRoom) (input : RoomInput) : Prop :=
  ∀ c ∈ room.players, ((room.step cfg input).client c).socket ≠ (room.client c).socket →
    ∃ attempt, attemptOf room input = some attempt ∧
      attempt.socket = ((room.step cfg input).client c).socket ∧ OwnsSeat cfg room c attempt

/-- Whether a room hears a reconnect by token. -/
def hearsReconnect (room : YGOProRoom) : Bool :=
  !room.finalizing && room.listening && room.duelState ≠ .waiting

/-- A token that comes over a new connection is the current one of the player that the index has
for it, and does not come from a watcher. -/
def TokenIsCurrent (cfg : RoomConfig) (room : YGOProRoom) : RoomInput → Prop
  | .expressReconnect token socket => ∀ entry ∈ room.tokens.get token,
      entry.roomId = cfg.id → entry.client ∈ room.players → room.hearsReconnect = true →
      identityAgrees (room.client entry.client) socket = true →
      (room.client entry.client).socket ≠ socket →
      (room.client entry.client).reconnectionToken = some token ∧
        socket.watchForRoomId ≠ some cfg.id
  | _ => True

theorem identityAgrees_iff {client : YGOProClient} {socket : Socket} :
    identityAgrees client socket = true ↔ ∀ userId, client.credential = some (.verified userId) →
      socket.resolvedUserId = some userId := by
  unfold identityAgrees
  split
  · rename_i userId hc
    simp [hc]
  · rename_i hc
    simp only [true_iff]
    intro userId h
    exact absurd h (hc userId)

theorem forwarded_eq_some {token : ReconnectionToken} {socket : Socket} {c : ClientRef} :
    room.forwarded cfg token socket = some c ↔ room.finalizing = false ∧
      identityAgrees (room.client c) socket = true ∧
      ∃ entry ∈ room.tokens.get token, entry.roomId = cfg.id ∧ entry.client = c := by
  unfold forwarded
  split
  · rename_i h
    simp [h]
  · rename_i entry h
    split
    · rename_i hall
      simp only [Option.some.injEq, h, Option.mem_def, exists_eq_left']
      constructor
      · intro he
        subst he
        exact ⟨hall.2.2, hall.2.1, hall.1, rfl⟩
      · exact fun hc => hc.2.2.2
    · rename_i hnot
      simp only [reduceCtorEq, h, Option.mem_def, Option.some.injEq, exists_eq_left', false_iff]
      intro hc
      obtain ⟨hfinal, hid, hroom, rfl⟩ := hc
      exact hnot ⟨hroom, hid, hfinal⟩

/-- Players of a ranked room have authenticated. -/
structure PlayersAuthenticated (cfg : RoomConfig) (room : YGOProRoom) : Prop where
  known : ClientsKnown room
  ranked : cfg.ranked = true → ∀ c ∈ room.players, (room.client c).credential ≠ none

theorem PlayersAuthenticated.sameSeats (h : PlayersAuthenticated cfg pre)
    (hknown : ClientsKnown room) (hs : SameSeats pre.toSeating room.toSeating) :
    PlayersAuthenticated cfg room := by
  refine ⟨hknown, ?_⟩
  intro hranked c hc
  rw [hs.credential]
  exact h.ranked hranked c (hs.players ▸ hc)

theorem ranked_not_guest (h : cfg.ranked = true) : cfg.league.admitsAsPlayer .guest = false := by
  simp only [RoomConfig.ranked, RoomLeague.isRanked, decide_eq_true_eq] at h
  cases hl : cfg.league with
  | casual => exact absurd hl h
  | _ => rfl

theorem playersAuthenticated_perform {call : Call} (hpre : PlayersAuthenticated cfg pre)
    (h : PlayersAuthenticated cfg room) (hguard : Guarded cfg pre input room call) :
    PlayersAuthenticated cfg (room.perform cfg call) := by
  have hknown := clientsKnown_perform hpre.known h.known hguard
  cases call with
  | addPlayer request credential place =>
    refine ⟨hknown, ?_⟩
    intro hranked c hc
    by_cases hnew : c = room.nextClient
    · subst hnew
      simp [perform, Seating.addPlayer, Seating.buildPlayer]
    · have hold : c ∈ room.players := by
        simpa [perform, Seating.addPlayer, hnew] using hc
      simpa [perform, Seating.addPlayer, hnew] using h.ranked hranked c hold
  | addSpectator name socket credential =>
    refine ⟨hknown, ?_⟩
    intro hranked c hc
    have hne : c ≠ room.nextClient := h.known.allocated.player_ne hc
    simpa [perform, Seating.addSpectator, hne] using h.ranked hranked c hc
  | removePlayer id =>
    exact ⟨hknown, fun hranked c hc => h.ranked hranked c (List.mem_of_mem_filter hc)⟩
  | removeSpectator id => exact ⟨hknown, h.ranked⟩
  | playerToSpectator c =>
    refine ⟨hknown, ?_⟩
    intro hranked p hp
    have hold := h.ranked hranked p (List.mem_of_mem_filter hp)
    by_cases hpc : p = c
    · subst hpc
      simpa [perform, Seating.playerToSpectator, Seating.removePlayer, Seating.modify,
        YGOProClient.spectatorPosition, YGOProClient.notReady] using hold
    · simpa [perform, Seating.playerToSpectator, Seating.removePlayer, Seating.modify, hpc]
        using hold
  | spectatorToPlayer c place =>
    refine ⟨hknown, ?_⟩
    intro hranked p hp
    by_cases hpc : p = c
    · subst hpc
      have hadmits := hguard.2.2.2
      intro hnone
      have hcred : (room.client p).credential = none := by
        simpa [perform, Seating.spectatorToPlayer, Seating.removeSpectator, Seating.modify,
          YGOProClient.playerPosition, YGOProClient.notReady] using hnone
      rw [hcred, Option.getD_none, ranked_not_guest hranked] at hadmits
      cases hadmits
    · have hold : p ∈ room.players := by
        simpa [perform, Seating.spectatorToPlayer, Seating.removeSpectator, Seating.modify, hpc]
          using hp
      simpa [perform, Seating.spectatorToPlayer, Seating.removeSpectator, Seating.modify, hpc]
        using h.ranked hranked p hold
  | movePlayerToAnotherCell c place =>
    refine ⟨hknown, ?_⟩
    intro hranked p hp
    have hold := h.ranked hranked p hp
    by_cases hpc : p = c
    · subst hpc
      simpa [perform, Seating.movePlayerToAnotherCell, Seating.modify,
        YGOProClient.playerPosition, YGOProClient.notReady] using hold
    · simpa [perform, Seating.movePlayerToAnotherCell, Seating.modify, hpc] using hold
  | reconnect c socket =>
    refine ⟨hknown, ?_⟩
    intro hranked p hp
    have hold := h.ranked hranked p hp
    by_cases hpc : p = c
    · subst hpc
      simpa [perform, Seating.reconnect, Seating.modify, YGOProClient.setSocket,
        YGOProClient.reconnecting] using hold
    · simpa [perform, Seating.reconnect, Seating.modify, hpc] using hold
  | _ => exact h.sameSeats hknown (perform_sameSeats rfl)

/-- The name lookup gives a seat to its owner only. -/
theorem ownsSeat_byName (h : PlayersAuthenticated cfg room) {request : JoinRequest}
    {joinerUserId : Option UserId} {c : ClientRef}
    (hc : room.findMidDuelReconnectingPlayer cfg request joinerUserId = some c) :
    OwnsSeat cfg room c (.byName request joinerUserId) := by
  unfold findMidDuelReconnectingPlayer at hc
  split at hc
  · cases hc
  · rename_i hwatch
    have hmem : c ∈ room.players := List.mem_of_find?_eq_some hc
    have hfound := List.find?_some hc
    simp only [isReconnectEligibleSeat, Bool.and_eq_true, Bool.not_eq_eq_eq_not, Bool.not_true,
      Bool.or_eq_true, decide_eq_true_eq] at hfound
    obtain ⟨⟨⟨hweak, hname⟩, haddress⟩, haccount⟩ := hfound
    refine ⟨hwatch, hname, ?_⟩
    cases hranked : cfg.ranked with
    | true =>
      refine .inl ⟨rfl, ?_⟩
      rw [hranked] at haccount
      cases hcred : (room.client c).credential with
      | none => exact absurd hcred (h.ranked hranked c hmem)
      | some credential =>
        rw [hcred] at haccount
        cases credential with
        | external userId => exact ⟨userId, rfl, by simpa using haccount⟩
        | _ => simp at haccount
    | false =>
      rw [hranked] at haddress
      exact .inr ⟨rfl, by simpa using haddress⟩

theorem seatsReturned_iff (h : PlayersAuthenticated cfg room) (input : RoomInput) :
    SeatsReturned cfg room input ↔ TokenIsCurrent cfg room input := by
  constructor
  · intro hreturned
    cases input with
    | expressReconnect token socket =>
      intro entry hentry hroom hseated hhears hagrees hsocket
      simp only [hearsReconnect, Bool.and_eq_true, Bool.not_eq_eq_eq_not, Bool.not_true,
        decide_eq_true_eq] at hhears
      obtain ⟨⟨hfinal, hlistening⟩, hstate⟩ := hhears
      have hforwarded : room.forwarded cfg token socket = some entry.client :=
        forwarded_eq_some.mpr ⟨hfinal, hagrees, entry, hentry, hroom, rfl⟩
      have hstep : ((room.step cfg (.expressReconnect token socket)).client
          entry.client).socket = socket := by
        rw [step, calls, handleExpressReconnect, hforwarded]
        dsimp only
        rw [if_neg (by simp [hstate, hlistening]), expressReconnected, reconnectClient,
          List.cons_append, performAll_cons, socket_performAll, socket_reconnect]
        · exact (h.known.allocated.player hseated).trans_le (nextClient_le _)
        · intro call hcall other he
          subst he
          revert hcall
          unfold resendToken
          split_ifs
          all_goals cases room.duelState with
            | _ => simp
      obtain ⟨attempt, hattempt, _, howns⟩ :=
        hreturned entry.client hseated (by rw [hstep]; exact hsocket.symm)
      cases Option.some.inj hattempt
      exact ⟨howns.2.1, howns.1⟩
    | _ => trivial
  · intro hcurrent c hc hsocket
    obtain ⟨attempt, hattempt, hsame, hreclaimed⟩ :=
      socket_step (h.known.allocated.player hc) hsocket
    refine ⟨attempt, hattempt, hsame, ?_⟩
    cases attempt with
    | byName request joinerUserId => exact ownsSeat_byName h hreclaimed
    | byToken token socket =>
      have hinput : input = .expressReconnect token socket := by
        cases input with
        | expressReconnect token' socket' =>
          cases Option.some.inj hattempt
          rfl
        | grant =>
          rw [attemptOf] at hattempt
          split at hattempt
          · cases hattempt
          · cases hattempt
        | answered account =>
          rw [attemptOf] at hattempt
          split at hattempt
          · cases hattempt
          · cases hattempt
        | _ => cases hattempt
      subst hinput
      rw [reclaimed] at hreclaimed
      split at hreclaimed
      · cases hreclaimed
      · rename_i hheard
        obtain ⟨hfinal, hagrees, entry, hentry, hroom, rfl⟩ := forwarded_eq_some.mp hreclaimed
        have hhears : room.hearsReconnect = true := by
          simp only [not_or, Bool.not_eq_false] at hheard
          simp [hearsReconnect, hfinal, hheard]
        obtain ⟨htoken, hwatch⟩ := hcurrent entry hentry hroom hc hhears hagrees
          (by rw [← hsame] at hsocket; exact hsocket.symm)
        exact ⟨hwatch, htoken, identityAgrees_iff.mp hagrees⟩

/-! ## On a server -/

theorem create_playersAuthenticated (cfg : RoomConfig) (outside : Outside) :
    PlayersAuthenticated cfg (create cfg outside) :=
  ⟨create_clientsKnown outside, by simp [create]⟩

theorem PlayersAuthenticated.sharing (h : PlayersAuthenticated cfg room) (outside : Outside) :
    PlayersAuthenticated cfg { room with toOutside := outside } :=
  ⟨h.known.sharing outside, h.ranked⟩

theorem restarted_players : (after casualRoom restarted).players = [0, 1] := by decide +kernel

theorem restarted_moved : (((after casualRoom restarted).step casualRoom
    (.expressReconnect 0 (guestSocket 2))).client 0).socket ≠
      ((after casualRoom restarted).client 0).socket := by
  decide +kernel

theorem restarted_not_returned :
    ¬ SeatsReturned casualRoom (after casualRoom restarted)
      (.expressReconnect 0 (guestSocket 2)) := by
  intro h
  have hseated : 0 ∈ (after casualRoom restarted).players := by simp [restarted_players]
  obtain ⟨attempt, hattempt, _, howns⟩ := h 0 hseated restarted_moved
  rw [attemptOf, Option.some.injEq] at hattempt
  subst hattempt
  exact restarted_token howns.2.1

end YGOProRoom

end EdoproServer.Room
