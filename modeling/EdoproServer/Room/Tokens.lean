import EdoproServer.Room.Server

namespace EdoproServer.Room
open Decks Lib

/-! ## Calls that leave the tokens alone -/

/-- The same index, and every client with the token it had. -/
structure SameTokens (s s' : Seating) : Prop where
  tokens : s'.tokens = s.tokens
  token : ∀ c, (s'.client c).reconnectionToken = (s.client c).reconnectionToken

namespace SameTokens

variable {s s' s'' : Seating}

theorem refl (s : Seating) : SameTokens s s := ⟨rfl, fun _ => rfl⟩

theorem trans (h : SameTokens s s') (h' : SameTokens s' s'') : SameTokens s s'' :=
  ⟨h'.tokens.trans h.tokens, fun c => (h'.token c).trans (h.token c)⟩

theorem modify (s : Seating) (c : ClientRef) {f : YGOProClient → YGOProClient}
    (h : ∀ client, (f client).reconnectionToken = client.reconnectionToken) :
    SameTokens s (s.modify c f) := by
  refine ⟨rfl, ?_⟩
  intro p
  by_cases hp : p = c
  · subst hp
    simp [Seating.modify, h]
  · simp [Seating.modify, hp]

theorem unreadyPlayers (s : Seating) : SameTokens s s.unreadyPlayers := by
  unfold Seating.unreadyPlayers
  generalize s.players = l
  induction l generalizing s with
  | nil => exact refl s
  | cons c l ih =>
    exact (modify s c (f := YGOProClient.notReady) (fun _ => rfl)).trans (ih _)

end SameTokens

namespace Seating

variable {s : Seating} {t : ReconnectionToken} {entry : TokenEntry}

/-- The index after a revocation has no entry for the token of the client. -/
theorem get_revoke {c : ClientRef} (h : (s.revoke c).tokens.get t = some entry) :
    s.tokens.get t = some entry ∧ (s.client c).reconnectionToken ≠ some t := by
  unfold revoke at h
  split at h
  · rename_i hnone
    exact ⟨h, by simp [hnone]⟩
  · rename_i token hsome
    rw [InsertionMap.get_delete] at h
    split at h
    · cases h
    · rename_i hne
      refine ⟨h, ?_⟩
      rw [hsome]
      exact fun he => hne (Option.some.inj he).symm

theorem token_revoke {c p : ClientRef} (h : p ≠ c) :
    ((s.revoke c).client p).reconnectionToken = (s.client p).reconnectionToken := by
  unfold revoke
  split
  · rfl
  · simp [h]

theorem destroy_sameTokens (s : Seating) (c : ClientRef) : SameTokens s (s.destroy c) := by
  unfold destroy
  split
  · exact SameTokens.refl s
  · exact ⟨rfl, fun _ => rfl⟩

theorem get_foldl_revoke {l : List ClientRef}
    (h : (l.foldl (fun s c => (s.revoke c).destroy c) s).tokens.get t = some entry) :
    s.tokens.get t = some entry ∧ ∀ c ∈ l, (s.client c).reconnectionToken ≠ some t := by
  induction l generalizing s with
  | nil => exact ⟨h, by simp⟩
  | cons c l ih =>
    obtain ⟨hget, hrest⟩ := ih h
    have hsame := destroy_sameTokens (s.revoke c) c
    rw [hsame.tokens] at hget
    obtain ⟨hget, hc⟩ := get_revoke hget
    refine ⟨hget, ?_⟩
    intro p hp
    by_cases hpc : p = c
    · exact hpc ▸ hc
    · have hp' := hrest p ((List.mem_cons.mp hp).resolve_left hpc)
      rwa [hsame.token, token_revoke hpc] at hp'

/-- After a teardown the index has only tokens that no client of the room held. -/
theorem get_teardown (h : s.teardown.tokens.get t = some entry) :
    s.tokens.get t = some entry ∧ ∀ c ∈ s.clients, (s.client c).reconnectionToken ≠ some t :=
  get_foldl_revoke h

end Seating

/-- Calls that issue or revoke tokens. -/
def Call.touchesTokens : Call → Bool
  | .issue _ | .finalize _ => true
  | _ => false

namespace YGOProRoom

variable {cfg : RoomConfig} {room pre : YGOProRoom} {input : RoomInput}
  {t : ReconnectionToken} {entry : TokenEntry}

theorem perform_sameTokens {call : Call} (hmoves : call.movesSomebody = false)
    (h : call.touchesTokens = false) :
    SameTokens room.toSeating (room.perform cfg call).toSeating := by
  cases call with
  | closeSocket id => exact ⟨rfl, fun _ => rfl⟩
  | flag c flag =>
    apply SameTokens.modify
    cases flag with
    | _ => exact fun _ => rfl
  | setDecks c deck =>
    exact SameTokens.modify _ c (f := fun client => client.ready.setDeck deck) (fun _ => rfl)
  | enter born target =>
    cases target with
    | waiting => exact SameTokens.unreadyPlayers room.toSeating
    | _ => exact SameTokens.refl _
  | leaveSideDecking born target =>
    cases target with
    | waiting => exact SameTokens.unreadyPlayers room.toSeating
    | _ => exact SameTokens.refl _
  | clearTimer born position =>
    rw [perform]
    split
    · exact SameTokens.refl _
    · exact SameTokens.refl _
  | clearTimers born =>
    rw [perform]
    split
    · exact SameTokens.refl _
    · exact SameTokens.refl _
  | removeAllListener born =>
    rw [perform]
    split
    · exact SameTokens.refl _
    · exact SameTokens.refl _
  | processDuelEnd duel winner engine => exact SameTokens.unreadyPlayers room.toSeating
  | endByAbandon born team =>
    rw [perform, matchForfeit]
    split
    · exact SameTokens.refl _
    · exact SameTokens.refl _
  | issue c => simp [Call.touchesTokens] at h
  | finalize abandon => simp [Call.touchesTokens] at h
  | addPlayer request credential place => simp [Call.movesSomebody] at hmoves
  | addSpectator name socket credential => simp [Call.movesSomebody] at hmoves
  | removePlayer id => simp [Call.movesSomebody] at hmoves
  | removeSpectator id => simp [Call.movesSomebody] at hmoves
  | playerToSpectator c => simp [Call.movesSomebody] at hmoves
  | spectatorToPlayer c place => simp [Call.movesSomebody] at hmoves
  | movePlayerToAnotherCell c place => simp [Call.movesSomebody] at hmoves
  | reconnect c socket => simp [Call.movesSomebody] at hmoves
  | _ => exact SameTokens.refl _

/-! ## Who holds a token -/

/-- The entry of a token names an open room, in which its client sits and holds the token. -/
structure Holds (cfg : RoomConfig) (room : YGOProRoom) (t : ReconnectionToken)
    (entry : TokenEntry) : Prop where
  roomId : entry.roomId = cfg.id
  isOpen : room.finalizing = false
  seated : entry.client ∈ room.players
  token : (room.client entry.client).reconnectionToken = some t

/-- The token of a client is registered while it sits in an open room, once, and a client that
holds one keeps its seat. -/
def TokensKept (room : YGOProRoom) : Call → Prop
  | .issue c => room.finalizing = false ∧ c ∈ room.players ∧
      (room.client c).reconnectionToken = none
  | .removePlayer id => ∀ p ∈ room.players, (room.client p).socket.id = id →
      (room.client p).reconnectionToken = none
  | .playerToSpectator c => ∀ p ∈ room.players,
      (room.client p).socket.id = (room.client c).socket.id →
      (room.client p).reconnectionToken = none
  | _ => True

/-- An entry is there after a call because its token is held, or was there, not held, before. -/
def Tracked (cfg : RoomConfig) (pre room : YGOProRoom) (t : ReconnectionToken)
    (entry : TokenEntry) : Prop :=
  Holds cfg room t entry ∨ pre.tokens.get t = some entry ∧ ¬ Holds cfg pre t entry

theorem tracked_of_holds (h : room.tokens.get t = some entry)
    (hkeep : Holds cfg pre t entry → Holds cfg room t entry)
    (htokens : room.tokens = pre.tokens) : Tracked cfg pre room t entry := by
  by_cases hpre : Holds cfg pre t entry
  · exact .inl (hkeep hpre)
  · exact .inr ⟨htokens ▸ h, hpre⟩

/-- A holder stays a holder with its seat and its token. -/
theorem Holds.keep (h : Holds cfg pre t entry) (hopen : room.finalizing = pre.finalizing)
    (hseated : entry.client ∈ room.players) (htoken : (room.client entry.client).reconnectionToken =
      (pre.client entry.client).reconnectionToken) : Holds cfg room t entry :=
  ⟨h.roomId, hopen.trans h.isOpen, hseated, htoken.trans h.token⟩

theorem tracked_of_same {call : Call} (hmoves : call.movesSomebody = false)
    (htouches : call.touchesTokens = false)
    (h : (room.perform cfg call).tokens.get t = some entry) :
    Tracked cfg room (room.perform cfg call) t entry := by
  have hseats := @perform_sameSeats cfg room call hmoves
  have hsame := @perform_sameTokens cfg room call hmoves htouches
  refine tracked_of_holds h ?_ hsame.tokens
  intro hpre
  apply hpre.keep (perform_finalizing _) (hseats.players ▸ hpre.seated) (hsame.token _)
  intro abandon he
  subst he
  cases htouches

theorem tracked_issue {c : ClientRef} (hok : TokensKept room (.issue c))
    (h : (room.perform cfg (.issue c)).tokens.get t = some entry) :
    Tracked cfg room (room.perform cfg (.issue c)) t entry := by
  obtain ⟨hopen, hseated, hnone⟩ := hok
  simp only [perform, Seating.issue, InsertionMap.get_set] at h
  split at h
  · rename_i ht
    cases Option.some.inj h
    refine .inl ⟨rfl, hopen, hseated, ?_⟩
    simp [perform, Seating.issue, ht, YGOProClient.setReconnectionToken]
  · by_cases hpre : Holds cfg room t entry
    · refine .inl (hpre.keep rfl hpre.seated ?_)
      have hne : entry.client ≠ c := by
        intro he
        have htoken := hpre.token
        rw [he, hnone] at htoken
        cases htoken
      simp [perform, Seating.issue, hne]
    · exact .inr ⟨h, hpre⟩

theorem tracked_finalize {abandon : Option ReservedDuelAbandon}
    (h : (room.perform cfg (.finalize abandon)).tokens.get t = some entry) :
    Tracked cfg room (room.perform cfg (.finalize abandon)) t entry := by
  cases hfinal : room.finalizing with
  | true =>
    rw [perform, finalize_of_finalizing cfg abandon hfinal] at h
    refine .inr ⟨h, ?_⟩
    intro hpre
    have hopen := hpre.isOpen
    rw [hfinal] at hopen
    cases hopen
  | false =>
    change (room.finalize cfg abandon).toSeating.tokens.get t = some entry at h
    rw [finalize_toSeating cfg abandon hfinal] at h
    obtain ⟨hget, hnone⟩ := Seating.get_teardown h
    refine .inr ⟨hget, ?_⟩
    intro hpre
    exact hnone entry.client (List.mem_append_left _ hpre.seated) hpre.token

theorem tracked_perform {call : Call} (ha : Allocated room.toSeating) (hok : TokensKept room call)
    (h : (room.perform cfg call).tokens.get t = some entry) :
    Tracked cfg room (room.perform cfg call) t entry := by
  cases call with
  | addPlayer request credential place =>
    refine tracked_of_holds h ?_ rfl
    intro hpre
    have hne : entry.client ≠ room.nextClient := ha.player_ne hpre.seated
    exact hpre.keep rfl (List.mem_append_left _ hpre.seated)
      (by simp [perform, Seating.addPlayer, hne])
  | addSpectator name socket credential =>
    refine tracked_of_holds h ?_ rfl
    intro hpre
    have hne : entry.client ≠ room.nextClient := ha.player_ne hpre.seated
    exact hpre.keep rfl hpre.seated (by simp [perform, Seating.addSpectator, hne])
  | removePlayer id =>
    refine tracked_of_holds h ?_ rfl
    intro hpre
    refine hpre.keep rfl ?_ rfl
    apply List.mem_filter.mpr ⟨hpre.seated, ?_⟩
    simp only [decide_eq_true_eq]
    intro he
    have hnone := hok entry.client hpre.seated he
    rw [hpre.token] at hnone
    cases hnone
  | removeSpectator id => exact tracked_of_holds h (fun hpre => hpre.keep rfl hpre.seated rfl) rfl
  | playerToSpectator c =>
    refine tracked_of_holds h ?_ rfl
    intro hpre
    have hsocket : (room.client entry.client).socket.id ≠ (room.client c).socket.id := by
      intro he
      have hnone := hok entry.client hpre.seated he
      rw [hpre.token] at hnone
      cases hnone
    have hne : entry.client ≠ c := fun he => hsocket (by rw [he])
    refine hpre.keep rfl ?_ ?_
    · exact List.mem_filter.mpr ⟨hpre.seated, by simpa using hsocket⟩
    · simp [perform, Seating.playerToSpectator, Seating.removePlayer, Seating.modify, hne]
  | spectatorToPlayer c place =>
    refine tracked_of_holds h ?_ rfl
    intro hpre
    refine hpre.keep rfl (List.mem_append_left _ hpre.seated) ?_
    by_cases hc : entry.client = c
    · subst hc
      simp [perform, Seating.spectatorToPlayer, Seating.removeSpectator, Seating.modify,
        YGOProClient.playerPosition, YGOProClient.notReady]
    · simp [perform, Seating.spectatorToPlayer, Seating.removeSpectator, Seating.modify, hc]
  | movePlayerToAnotherCell c place =>
    have hsame := SameTokens.modify room.toSeating c
      (f := fun client => client.notReady.playerPosition place.1 place.2) (fun _ => rfl)
    exact tracked_of_holds h (fun hpre => hpre.keep rfl hpre.seated (hsame.token _)) rfl
  | reconnect c socket =>
    have hsame := SameTokens.modify room.toSeating c
      (f := fun client => (client.setSocket socket).reconnecting) (fun _ => rfl)
    exact tracked_of_holds h (fun hpre => hpre.keep rfl hpre.seated (hsame.token _)) rfl
  | issue c => exact tracked_issue hok h
  | finalize abandon => exact tracked_finalize h
  | _ => exact tracked_of_same rfl rfl h

theorem Tracked.trans {mid : YGOProRoom} (h : mid.tokens.get t = some entry →
    Tracked cfg pre mid t entry) (h' : Tracked cfg mid room t entry) :
    Tracked cfg pre room t entry := by
  cases h' with
  | inl hnow => exact .inl hnow
  | inr hbefore =>
    cases h hbefore.1 with
    | inl hmid => exact absurd hmid hbefore.2
    | inr hpre => exact .inr hpre

/-- Every entry after an input is held in its room, or was there before and not held in it. -/
theorem tracked_step (hknown : ClientsKnown room)
    (hok : Allows (perform cfg) TokensKept room (room.calls cfg input))
    (h : (room.step cfg input).tokens.get t = some entry) :
    Tracked cfg room (room.step cfg input) t entry := by
  have hcalls := ((calls_guarded cfg room input).and hok).preserves
    (P := fun r => ClientsKnown r ∧
      (r.tokens.get t = some entry → Tracked cfg room r t entry)) ?_
    ⟨hknown, fun hget => tracked_of_holds hget (fun hpre => hpre) rfl⟩
  · exact hcalls.2 h
  · intro r call hr hboth
    obtain ⟨hguard, hkept⟩ := hboth
    refine ⟨clientsKnown_perform hknown hr.1 hguard, ?_⟩
    intro hget
    exact Tracked.trans hr.2 (tracked_perform hr.1.allocated hkept hget)

end YGOProRoom

/-! ## The index of a server -/

namespace Server

open YGOProRoom

variable {server : Server}

/-- Every token in the index is held by somebody who sits in an open room. -/
def TokensHeld (server : Server) : Prop :=
  ∀ t entry, server.outside.tokens.get t = some entry →
    ∃ hosted ∈ server.hosted, Holds hosted.cfg hosted.room t entry

theorem tokensHeld_createRoom (h : TokensHeld server) (cfg : RoomConfig) :
    TokensHeld (server.createRoom cfg) := by
  intro t entry hget
  unfold createRoom at hget ⊢
  split at hget
  · rename_i hused
    rw [if_pos hused]
    exact h t entry hget
  · rename_i hfree
    rw [if_neg hfree]
    obtain ⟨hosted, hmem, hholds⟩ := h t entry hget
    exact ⟨hosted, List.mem_append_left _ hmem, hholds⟩

theorem Holds.sharing_iff {hosted : HostedRoom} {outside : Outside} {t : ReconnectionToken}
    {entry : TokenEntry} :
    Holds hosted.cfg (hosted.sharing outside) t entry ↔ Holds hosted.cfg hosted.room t entry :=
  ⟨fun h => ⟨h.roomId, h.isOpen, h.seated, h.token⟩,
    fun h => ⟨h.roomId, h.isOpen, h.seated, h.token⟩⟩

theorem tokensHeld_stepRoom (h : TokensHeld server) {index : Nat} {hosted : HostedRoom}
    {input : RoomInput} (hindex : server.hosted[index]? = some hosted)
    (hknown : ClientsKnown hosted.room)
    (hok : Allows (perform hosted.cfg) TokensKept (hosted.sharing server.outside)
      ((hosted.sharing server.outside).calls hosted.cfg input)) :
    TokensHeld (server.stepRoom index hosted input) := by
  intro t entry hget
  have hlt : index < server.hosted.length := (List.getElem?_eq_some_iff.mp hindex).1
  cases tracked_step (hknown.sharing server.outside) hok hget with
  | inl hholds =>
    refine ⟨{ hosted with room := (hosted.sharing server.outside).step hosted.cfg input },
      List.mem_of_getElem? (i := index) ?_, hholds⟩
    simp [stepRoom, hlt]
  | inr hbefore =>
    obtain ⟨hold, hnot⟩ := hbefore
    obtain ⟨other, hmem, hholds⟩ := h t entry hold
    obtain ⟨j, hj⟩ := List.mem_iff_getElem?.mp hmem
    have hne : index ≠ j := by
      intro he
      subst he
      rw [hindex] at hj
      cases Option.some.inj hj
      exact hnot (Holds.sharing_iff.mpr hholds)
    refine ⟨other, List.mem_of_getElem? (i := j) ?_, hholds⟩
    simpa [stepRoom, hne] using hj

/-- The index has tokens of open rooms only, each held by somebody who sits there. -/
structure TokenIndexIsSound (server : Server) : Prop where
  held : TokensHeld server
  finalized : ∀ hosted ∈ server.hosted, hosted.room.finalizing = true →
    server.usesId hosted.cfg.id = false →
    ∀ t entry, server.outside.tokens.get t = some entry → entry.roomId ≠ hosted.cfg.id

theorem TokensHeld.sound (h : TokensHeld server) : TokenIndexIsSound server := by
  refine ⟨h, ?_⟩
  intro hosted _ _ hunused t entry hget he
  obtain ⟨other, hmem, hholds⟩ := h t entry hget
  simp only [usesId, List.any_eq_false, Bool.and_eq_true, decide_eq_true_eq, not_and] at hunused
  apply hunused other hmem
  · simp [HostedRoom.isListed, hholds.isOpen]
  · exact hholds.roomId.symm.trans he

/-- In a run in which nobody who holds a token is unseated or gets another one, the index is
sound. -/
theorem tokenIndex_sound (server : Server)
    (h : server.Runs (fun _ room call => TokensKept room call)) : TokenIndexIsSound server := by
  apply TokensHeld.sound
  induction h with
  | start hnew =>
    intro t entry hget
    rw [hnew.2] at hget
    cases hget
  | step input hrun hok ih =>
    rename_i s
    cases input with
    | create cfg => exact tokensHeld_createRoom ih cfg
    | room index input =>
      rw [step]
      split
      · exact ih
      · rename_i hosted hindex
        exact tokensHeld_stepRoom ih hindex
          (Runs.clientsKnown hrun hosted (List.mem_of_getElem? hindex)) (hok hosted hindex)

instance (room : YGOProRoom) (call : Call) : Decidable (TokensKept room call) := by
  apply Call.casesOn (motive := fun call => Decidable (TokensKept room call)) call
  case issue =>
    intro c
    show Decidable (_ ∧ _ ∧ _)
    infer_instance
  case removePlayer =>
    intro id
    show Decidable (∀ p ∈ room.players, _ → _)
    infer_instance
  case playerToSpectator =>
    intro c
    show Decidable (∀ p ∈ room.players, _ → _)
    infer_instance
  all_goals
    intros
    exact instDecidableTrue

instance (ok : RoomConfig → YGOProRoom → Call → Prop)
    [∀ cfg room call, Decidable (ok cfg room call)] (server : Server) (input : ServerInput) :
    Decidable (Calls ok server input) := by
  cases input with
  | create cfg => exact inferInstanceAs (Decidable True)
  | room index input =>
    exact inferInstanceAs (Decidable (∀ h ∈ server.hosted[index]?, Allows _ _ _ _))

/-- A room is played in and closed, another one under its id is open. -/
def twoRooms : List ServerInput :=
  .create casualRoom :: (guestsReady ++ duelBegins ++ [RoomInput.closeRoom]).map (.room 0) ++
    .create casualRoom :: (guestsReady ++ duelBegins).map (.room 1)

theorem tokenIndex_sound_after_two : TokenIndexIsSound (after twoRooms) :=
  tokenIndex_sound _ (Runs.after (by decide +kernel))

theorem restarted_entry : (YGOProRoom.after casualRoom restarted).tokens.get 0 =
    some { client := 0, roomId := 1 } := by
  decide +kernel

/-- A second start of a match leaves the tokens of the first one in the index. -/
theorem tokenIndex_not_sound :
    ∃ server : Server, server.Runs (fun _ _ _ => True) ∧ ¬ TokenIndexIsSound server := by
  have hentry := restarted_entry
  have htoken := restarted_token
  have hruns := runs_hosting casualRoom restarted
  generalize YGOProRoom.after casualRoom restarted = room at hentry htoken hruns
  refine ⟨_, hruns, ?_⟩
  intro h
  obtain ⟨hosted, hmem, hholds⟩ := h.held 0 { client := 0, roomId := 1 } hentry
  rw [List.mem_singleton.mp hmem] at hholds
  exact htoken hholds.token

end Server

end EdoproServer.Room
