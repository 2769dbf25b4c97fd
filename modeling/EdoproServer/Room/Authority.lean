import EdoproServer.Room.Homes
import EdoproServer.Room.Settlement

namespace EdoproServer.Room
open Decks Lib

/-! ## Who is ready -/

/-- Calls that make a player ready. -/
def Call.readies : Call → Bool
  | .flag _ .ready | .setDecks _ _ => true
  | _ => false

/-- Nobody is a ready player who was not one before. -/
def NoneReadied (s s' : Seating) : Prop :=
  ∀ c ∈ s'.players, (s'.client c).isReady = true → c ∈ s.players ∧ (s.client c).isReady = true

namespace NoneReadied

variable {s s' s'' : Seating}

theorem refl (s : Seating) : NoneReadied s s := fun _ hc h => ⟨hc, h⟩

theorem trans (h : NoneReadied s s') (h' : NoneReadied s' s'') : NoneReadied s s'' := by
  intro c hc hready
  obtain ⟨hc', hready'⟩ := h' c hc hready
  exact h c hc' hready'

theorem of_update {p : ClientRef} {client : YGOProClient}
    (hclient : s'.client = Function.update s.client p client)
    (hready : client.isReady = true → (s.client p).isReady = true)
    (hplayers : ∀ c ∈ s'.players, c ∈ s.players ∨ c = p ∧ client.isReady = false) :
    NoneReadied s s' := by
  intro c hc h
  rw [hclient] at h
  by_cases hp : c = p
  · subst hp
    rw [Function.update_self] at h
    rcases hplayers c hc with hold | ⟨_, hnot⟩
    · exact ⟨hold, hready h⟩
    · exact absurd (hnot.symm.trans h) (by simp)
  · rw [Function.update_of_ne hp] at h
    rcases hplayers c hc with hold | ⟨he, _⟩
    · exact ⟨hold, h⟩
    · exact absurd he hp

theorem modify (s : Seating) (p : ClientRef) {f : YGOProClient → YGOProClient}
    (h : ∀ client, (f client).isReady = true → client.isReady = true) :
    NoneReadied s (s.modify p f) :=
  of_update (s := s) rfl (h _) (fun _ hc => .inl hc)

theorem foldl {f : Seating → ClientRef → Seating} (h : ∀ s c, NoneReadied s (f s c))
    (l : List ClientRef) (s : Seating) : NoneReadied s (l.foldl f s) := by
  induction l generalizing s with
  | nil => exact refl s
  | cons c l ih => exact (h s c).trans (ih (f s c))

theorem revoke (s : Seating) (p : ClientRef) : NoneReadied s (s.revoke p) := by
  unfold Seating.revoke
  split
  · exact refl s
  · exact of_update (s := s) rfl (fun h => h) (fun _ hc => .inl hc)

theorem destroy (s : Seating) (p : ClientRef) : NoneReadied s (s.destroy p) := by
  unfold Seating.destroy
  split
  · exact refl s
  · exact fun _ hc h => ⟨hc, h⟩

theorem teardown (s : Seating) : NoneReadied s s.teardown :=
  foldl (fun s c => (revoke s c).trans (destroy _ c)) _ _

theorem unreadyPlayers (s : Seating) : NoneReadied s s.unreadyPlayers :=
  foldl (fun s c => modify s c (f := YGOProClient.notReady) (fun _ h => by cases h)) _ _

end NoneReadied

/-- Whoever was seated is not ready, by induction on the players that are still to be unreadied. -/
theorem Seating.unreadyPlayers_notReady {s : Seating} {c : ClientRef} (hc : c ∈ s.players) :
    (s.unreadyPlayers.client c).isReady = false := by
  have hstep : ∀ (s : Seating) (p : ClientRef), c = p ∨ (s.client c).isReady = false →
      ((s.modify p YGOProClient.notReady).client c).isReady = false := by
    intro s p h
    by_cases hp : c = p
    · subst hp
      simp [Seating.modify, YGOProClient.notReady]
    · simpa [Seating.modify, hp] using h.resolve_left hp
  have hall : ∀ (l : List ClientRef) (s : Seating), c ∈ l ∨ (s.client c).isReady = false →
      ((l.foldl (fun s c => s.modify c YGOProClient.notReady) s).client c).isReady = false := by
    intro l
    induction l with
    | nil => exact fun _ h => h.resolve_left (by simp)
    | cons p l ih =>
      intro s h
      apply ih
      rw [List.mem_cons, or_assoc] at h
      rcases h with hp | htail | hnot
      · exact .inr (hstep s p (.inl hp))
      · exact .inl htail
      · exact .inr (hstep s p (.inr hnot))
  exact hall s.players s (.inl hc)

namespace YGOProRoom

variable {cfg : RoomConfig} {room pre : YGOProRoom} {input : RoomInput}

theorem enterPhase_noneReadied (born : Nat) (target : DuelState) :
    NoneReadied room.toSeating (room.enterPhase cfg born target).toSeating := by
  cases target with
  | waiting => exact NoneReadied.unreadyPlayers room.toSeating
  | _ => exact NoneReadied.refl _

/-- All other calls make nobody ready. -/
theorem perform_noneReadied {call : Call} (h : call.readies = false) :
    NoneReadied room.toSeating (room.perform cfg call).toSeating := by
  cases call with
  | flag p flag =>
    apply NoneReadied.modify
    cases flag with
    | ready => cases h
    | notReady => exact fun _ hready => by cases hready
    | _ => exact fun _ hready => hready
  | setDecks p deck => cases h
  | addPlayer request credential place =>
    apply NoneReadied.of_update (s := room.toSeating) rfl (fun hready => by cases hready)
    intro c hc
    rcases List.mem_append.mp hc with hold | hnew
    · exact .inl hold
    · exact .inr ⟨List.mem_singleton.mp hnew, rfl⟩
  | addSpectator name socket credential =>
    exact NoneReadied.of_update (s := room.toSeating) rfl (fun hready => by cases hready)
      (fun _ hc => .inl hc)
  | removePlayer id => exact fun _ hc hready => ⟨List.mem_of_mem_filter hc, hready⟩
  | playerToSpectator p =>
    exact NoneReadied.of_update (s := room.toSeating) rfl (fun hready => by cases hready)
      (fun _ hc => .inl (List.mem_of_mem_filter hc))
  | spectatorToPlayer p place =>
    apply NoneReadied.of_update (s := room.toSeating) rfl (fun hready => by cases hready)
    intro c hc
    rcases List.mem_append.mp hc with hold | hnew
    · exact .inl hold
    · exact .inr ⟨List.mem_singleton.mp hnew, rfl⟩
  | movePlayerToAnotherCell p place =>
    exact NoneReadied.modify _ p (fun _ hready => by cases hready)
  | reconnect p socket => exact NoneReadied.modify _ p (fun _ hready => hready)
  | issue p =>
    exact NoneReadied.of_update (s := room.toSeating) rfl (fun h => h) (fun _ hc => .inl hc)
  | enter born target => exact enterPhase_noneReadied born target
  | leaveSideDecking born target =>
    exact @enterPhase_noneReadied cfg (room.note (.sided born)) born target
  | clearTimer born position =>
    rw [perform]
    split
    · exact NoneReadied.refl _
    · exact NoneReadied.refl _
  | clearTimers born =>
    rw [perform]
    split
    · exact NoneReadied.refl _
    · exact NoneReadied.refl _
  | removeAllListener born =>
    rw [perform]
    split
    · exact NoneReadied.refl _
    · exact NoneReadied.refl _
  | processDuelEnd duel winner engine => exact NoneReadied.unreadyPlayers room.toSeating
  | endByAbandon born team =>
    rw [perform, matchForfeit]
    split
    · exact NoneReadied.refl _
    · exact NoneReadied.refl _
  | finalize abandon =>
    cases hfinal : room.finalizing with
    | true =>
      rw [perform, finalize_of_finalizing cfg abandon hfinal]
      exact NoneReadied.refl _
    | false =>
      rw [perform, finalize_toSeating cfg abandon hfinal]
      exact NoneReadied.teardown _
  | _ => exact NoneReadied.refl _

end YGOProRoom

/-! ## Who sits where -/

/-- Calls that change who plays where. -/
def Call.reseats : Call → Bool
  | .addPlayer _ _ _ | .removePlayer _ | .playerToSpectator _ | .spectatorToPlayer _ _
  | .movePlayerToAnotherCell _ _ => true
  | _ => false

/-- The same players at the same positions. -/
structure SamePositions (s s' : Seating) : Prop where
  players : s'.players = s.players
  position : ∀ c ∈ s.players, (s'.client c).position = (s.client c).position

namespace SamePositions

variable {s s' s'' : Seating}

theorem refl (s : Seating) : SamePositions s s := ⟨rfl, fun _ _ => rfl⟩

theorem trans (h : SamePositions s s') (h' : SamePositions s' s'') : SamePositions s s'' where
  players := h'.players.trans h.players
  position := fun c hc => (h'.position c (h.players ▸ hc)).trans (h.position c hc)

end SamePositions

namespace YGOProRoom

variable {cfg : RoomConfig} {room pre : YGOProRoom} {input : RoomInput}

theorem perform_samePositions {call : Call} (hroom : Allocated room.toSeating)
    (h : call.reseats = false) :
    SamePositions room.toSeating (room.perform cfg call).toSeating := by
  cases hmoves : call.movesSomebody with
  | false =>
    have hseats := @perform_sameSeats cfg room call hmoves
    exact ⟨hseats.players, fun c _ => hseats.position c⟩
  | true =>
    cases call with
    | addSpectator name socket credential =>
      refine ⟨rfl, ?_⟩
      intro c hc
      have hne : c ≠ room.nextClient := hroom.player_ne hc
      simp [perform, Seating.addSpectator, hne]
    | removeSpectator id => exact ⟨rfl, fun _ _ => rfl⟩
    | reconnect p socket =>
      refine ⟨rfl, ?_⟩
      intro c _
      by_cases hp : c = p
      · subst hp
        simp [perform, Seating.reconnect, Seating.modify, YGOProClient.setSocket,
          YGOProClient.reconnecting]
      · simp [perform, Seating.reconnect, Seating.modify, hp]
    | addPlayer request credential place => cases h
    | removePlayer id => cases h
    | playerToSpectator c => cases h
    | spectatorToPlayer c place => cases h
    | movePlayerToAnotherCell c place => cases h
    | _ => cases hmoves

/-- A deck that was accepted for a seat stays so until the room state ends. -/
theorem AcceptedFor.perform {call : Call} {c : ClientRef} (h : room.AcceptedFor c)
    (hc : c ∈ room.players)
    (hseats : SamePositions room.toSeating (room.perform cfg call).toSeating)
    (hepoch : (room.perform cfg call).epoch = room.epoch) :
    (room.perform cfg call).AcceptedFor c := by
  obtain ⟨p, hp, deck, hposition, haccepted⟩ := h
  refine ⟨p, hseats.players ▸ hp, deck, ?_, ?_⟩
  · rw [hseats.position p hp, hseats.position c hc]
    exact hposition
  · rw [hepoch]
    exact log_perform_sub call haccepted

/-! ## Who is ready, and why -/

/-- A duel of the present room state is scored, and what follows is still to come. -/
def ScoredHere (room : YGOProRoom) : Prop :=
  ∃ k ∈ room.suspended, k.work.isProcessing = true ∧ k.born = room.epoch

/-- In SIDE_DECKING only those are ready for whose seat a deck was accepted there, and nobody is
ready while a scored duel is still to be left. -/
structure ReadyHonest (room : YGOProRoom) : Prop where
  known : ClientsKnown room
  home : AtHome room
  sided : room.duelState = .sideDecking → ∀ c ∈ room.players,
    (room.client c).isReady = true → room.AcceptedFor c
  scored : ScoredHere room → ∀ c ∈ room.players, (room.client c).isReady = false

theorem ScoredHere.dueling (h : ScoredHere room) (hroom : AtHome room) :
    room.duelState = .dueling := by
  obtain ⟨k, hk, hprocessing, hborn⟩ := h
  have hhome : k.work.home = some .dueling := by
    cases hwork : k.work with
    | duelProcessed winner engine => rfl
    | _ => simp [hwork, Continuation.isProcessing] at hprocessing
  have hphase := hroom.suspended k hk .dueling hhome
  rw [hborn, hroom.phase] at hphase
  exact Option.some.inj hphase

/-- What is left for later was left in a room state that has begun. -/
theorem AtHome.born_le (h : AtHome room) {k : Deferred Continuation} (hk : k ∈ room.suspended)
    {phase : DuelState} (hhome : k.work.home = some phase) : k.born ≤ room.epoch := by
  obtain ⟨hlt, _⟩ := List.getElem?_eq_some_iff.mp (h.suspended k hk phase hhome)
  rw [h.length] at hlt
  omega

/-- What a handler needs for a call, if handlers that write are resumed on time. -/
structure Rightful (cfg : RoomConfig) (pre : YGOProRoom) (input : RoomInput) (room : YGOProRoom)
    (call : Call) : Prop where
  guarded : Guarded cfg pre input room call
  caused : Caused cfg pre input room call
  onTime : call.changesPhase = true → pre.invokedIn input = pre.epoch

theorem calls_rightful (h : OnTime room input) :
    Allows (perform cfg) (Rightful cfg room input) room (room.calls cfg input) := by
  have htime : Allows (perform cfg) (fun _ call => call.changesPhase = true →
      room.invokedIn input = room.epoch) room (room.calls cfg input) := by
    by_cases hwrites : Writes room input
    · exact .of_forall (fun _ _ _ _ => h hwrites)
    · apply Allows.of_forall
      intro call hcall _ hchanges
      exact absurd (hchanges.symm.trans (stays_of_not_writes hwrites call hcall)) (by simp)
  apply (((calls_guarded cfg room input).and (calls_caused cfg room input)).and htime).mono
  intro r call hall
  exact ⟨hall.1.1, hall.1.2, hall.2⟩

/-- A handler that belongs to a phase and is resumed on time makes its calls in that phase. -/
theorem StillIn.phase {phase : DuelState} (h : StillIn pre input room phase) (hpre : AtHome pre)
    (hontime : pre.invokedIn input = pre.epoch) : room.duelState = phase :=
  h.2.trans (homeOf_onTime hpre h.1 hontime)

/-- Nobody gets ready after a duel was scored, until its phase has ended. -/
theorem Rightful.not_readies {call : Call} (h : Rightful cfg pre input room call)
    (hpre : AtHome pre) (hdueling : room.duelState = .dueling ∨ pre.duelState = .dueling) :
    call.readies = false := by
  have hphase : ∀ phase, call.changesPhase = true → StillIn pre input room phase →
      phase = .dueling := by
    intro phase hchanges hstill
    rcases hdueling with hroom | hpre'
    · exact (hstill.phase hpre (h.onTime hchanges)).symm.trans hroom
    · exact (homeOf_onTime hpre hstill.1 (h.onTime hchanges)).symm.trans hpre'
  cases call with
  | flag c flag =>
    cases flag with
    | ready => exact absurd (hphase .sideDecking rfl h.caused.1) (by decide)
    | _ => rfl
  | setDecks p deck =>
    rcases h.caused.2 with hwaiting | ⟨hsiding, _⟩
    · exact absurd (hphase .waiting rfl hwaiting) (by decide)
    · exact absurd (hphase .sideDecking rfl hsiding) (by decide)
  | _ => rfl

/-! ## What leads a room on -/

/-- The side deck that was missing is accepted, and then one was for the seat of every player. -/
def AllSided (cfg : RoomConfig) (pre : YGOProRoom) (input : RoomInput) (room : YGOProRoom) : Prop :=
  SidingCompletes cfg pre input ∧ ∀ c ∈ pre.players, ∃ p ∈ pre.players, ∃ deck,
    (pre.client p).position = (pre.client c).position ∧ .deckAccepted pre.epoch p deck ∈ room.log

/-- What takes a room from its phase to the phase of `room`. -/
def LedOn (cfg : RoomConfig) (pre : YGOProRoom) (input : RoomInput) (room : YGOProRoom) : Prop :=
  match pre.duelState, room.duelState with
  | .waiting, .rps => HostStarts cfg pre input ∨ ReservationStarts cfg pre input
  | .rps, .choosingOrder => HandsDecide pre input
  | .choosingOrder, .dueling => ChoosesTurn pre input
  | .dueling, .sideDecking =>
    Resumes pre (fun k => ∃ winner engine, k = .duelProcessed winner engine) .done input
  | .dueling, .waiting => Resumes pre (· = .responded) .raised input
  | .sideDecking, .rps | .sideDecking, .choosingOrder => AllSided cfg pre input room
  | _, _ => False

theorem AllSided.mono {room' : YGOProRoom} (h : AllSided cfg pre input room)
    (hlog : room.log <+: room'.log) : AllSided cfg pre input room' := by
  refine ⟨h.1, ?_⟩
  intro c hc
  obtain ⟨p, hp, deck, hposition, haccepted⟩ := h.2 c hc
  exact ⟨p, hp, deck, hposition, hlog.subset haccepted⟩

theorem LedOn.mono {room' : YGOProRoom} (h : LedOn cfg pre input room)
    (hphase : room'.duelState = room.duelState) (hlog : room.log <+: room'.log) :
    LedOn cfg pre input room' := by
  unfold LedOn at h ⊢
  rw [hphase]
  split
  all_goals simp_all only
  · exact h.mono hlog
  · exact h.mono hlog

theorem Resumes.home {kind : Continuation → Prop} {result : Settled} {phase : DuelState}
    (h : Resumes pre kind result input) (hkind : ∀ k, kind k → k.home = some phase) :
    pre.homeOf input = some phase := by
  obtain ⟨index, rfl, k, hk, hwork⟩ := h
  rw [homeOf, Option.mem_def.mp hk]
  exact hkind _ hwork

theorem ReservationStarts.home (h : ReservationStarts cfg pre input) :
    pre.homeOf input = some .waiting := by
  obtain ⟨rfl, _, work, hhead, c, deck, hwork, _⟩ := h
  rw [homeOf, Option.mem_def.mp hhead, Option.bind_some, hwork]
  rfl

theorem SidingCompletes.home (h : SidingCompletes cfg pre input) :
    pre.homeOf input = some .sideDecking := by
  obtain ⟨index, c, deck, rfl, k, hk, hwork, _⟩ := h
  rw [homeOf, Option.mem_def.mp hk, Option.bind_some, hwork]
  rfl

/-- A call that enters a phase is made by what leads there. -/
theorem ledOn_perform {call : Call} (hpre : AtHome pre) (hroom : ReadyHonest room)
    (h : Rightful cfg pre input room call) (henters : call.enters = true)
    (hphase : room.duelState = pre.duelState)
    (hseats : pre.duelState = .sideDecking → SamePositions pre.toSeating room.toSeating) :
    LedOn cfg pre input (room.perform cfg call) := by
  have hhome : ∀ {phase}, call.changesPhase = true → pre.homeOf input = some phase →
      pre.duelState = phase :=
    fun hchanges hphase => homeOf_onTime hpre hphase (h.onTime hchanges)
  cases call with
  | enter born target =>
    have htarget : (room.perform cfg (.enter born target)).duelState = target :=
      enterPhase_duelState room cfg born target
    rcases h.caused with ⟨rfl, hhands⟩ | ⟨rfl, hraised⟩ | ⟨rfl, hdone⟩
    · obtain ⟨sender, result, hshows, _⟩ := id hhands
      rw [LedOn, htarget, hshows.2.2.1]
      exact hhands
    · rw [LedOn, htarget, hhome rfl (hraised.home (by rintro _ rfl; rfl))]
      exact hraised
    · rw [LedOn, htarget, hhome rfl (hdone.home (by rintro _ ⟨_, _, rfl⟩; rfl))]
      exact hdone
  | startMatch born =>
    have htarget : (room.perform cfg (.startMatch born)).duelState = .rps := rfl
    have hwaiting : pre.duelState = .waiting := by
      rcases h.caused with ⟨_, _, _, hwaiting, _⟩ | hreserved
      · exact hwaiting
      · exact hhome rfl hreserved.home
    rw [LedOn, htarget, hwaiting]
    exact h.caused
  | leaveSideDecking born target =>
    have htarget : (room.perform cfg (.leaveSideDecking born target)).duelState = target :=
      enterPhase_duelState (room.note (.sided born)) cfg born target
    obtain ⟨hchoice, hcompletes, hready⟩ := h.caused
    have hsiding : pre.duelState = .sideDecking := hhome rfl hcompletes.home
    have hsame := hseats hsiding
    have hall : AllSided cfg pre input (room.perform cfg (.leaveSideDecking born target)) := by
      refine ⟨hcompletes, ?_⟩
      intro c hc
      have hc' : c ∈ room.players := hsame.players ▸ hc
      obtain ⟨p, hp, deck, hposition, haccepted⟩ :=
        hroom.sided (hphase.trans hsiding) c hc' (List.all_eq_true.mp hready c hc')
      have hp' : p ∈ pre.players := hsame.players ▸ hp
      refine ⟨p, hp', deck, ?_, ?_⟩
      · rw [← hsame.position p hp', ← hsame.position c hc]
        exact hposition
      · rw [← h.guarded.1]
        exact log_perform_sub _ haccepted
    rw [LedOn, htarget, hsiding]
    rcases hchoice with rfl | rfl
    · exact hall
    · exact hall
  | dueling born =>
    have htarget : (room.perform cfg (.dueling born)).duelState = .dueling := rfl
    obtain ⟨sender, first, _, _, hchoosing⟩ := id h.caused
    rw [LedOn, htarget, hchoosing]
    exact h.caused
  | _ => cases henters

/-! ## What every call keeps -/

theorem reseats_caused {call : Call} (h : Caused cfg pre input room call)
    (hreseats : call.reseats = true) : StillIn pre input room .waiting := by
  cases call with
  | addPlayer request credential place => exact h
  | removePlayer id => exact h
  | playerToSpectator c => exact h
  | spectatorToPlayer c place => exact h
  | movePlayerToAnotherCell c place => exact h
  | _ => cases hreseats

theorem reseats_changesPhase {call : Call} (h : call.reseats = true) :
    call.changesPhase = true := by
  cases call with
  | addPlayer request credential place => rfl
  | removePlayer id => rfl
  | playerToSpectator c => rfl
  | spectatorToPlayer c place => rfl
  | movePlayerToAnotherCell c place => rfl
  | _ => cases h

theorem enters_changesPhase {call : Call} (h : call.enters = true) : call.changesPhase = true := by
  cases call with
  | enter born target => rfl
  | startMatch born => rfl
  | leaveSideDecking born target => rfl
  | dueling born => rfl
  | _ => cases h

/-- Nobody moves in SIDE_DECKING. -/
theorem Rightful.seats {call : Call} (h : Rightful cfg pre input room call) (hpre : AtHome pre)
    (hroom : Allocated room.toSeating)
    (hsiding : room.duelState = .sideDecking ∨ pre.duelState = .sideDecking) :
    SamePositions room.toSeating (room.perform cfg call).toSeating := by
  apply perform_samePositions hroom
  cases hreseats : call.reseats with
  | false => rfl
  | true =>
    have hstill := reseats_caused h.caused hreseats
    have hontime := h.onTime (reseats_changesPhase hreseats)
    rcases hsiding with hroom | hpre'
    · exact absurd (hroom.symm.trans (hstill.phase hpre hontime)) (by decide)
    · exact absurd (hpre'.symm.trans (homeOf_onTime hpre hstill.1 hontime)) (by decide)

/-- Whoever is ready in SIDE_DECKING after a call that stays there has an accepted deck. -/
theorem sided_perform {call : Call} (hpre : AtHome pre) (hroom : ReadyHonest room)
    (h : Rightful cfg pre input room call) (hstays : call.enters = false)
    (hsiding : room.duelState = .sideDecking) :
    ∀ c ∈ (room.perform cfg call).players, ((room.perform cfg call).client c).isReady = true →
      (room.perform cfg call).AcceptedFor c := by
  have hepoch := (@perform_stays cfg room call hstays).1
  have hseats := h.seats hpre hroom.known.allocated (.inl hsiding)
  intro c hc hready
  have hc' : c ∈ room.players := hseats.players ▸ hc
  cases hreadies : call.readies with
  | false =>
    have hold := perform_noneReadied hreadies c hc hready
    exact (hroom.sided hsiding c hold.1 hold.2).perform hc' hseats hepoch
  | true =>
    cases call with
    | flag p flag =>
      by_cases hp : c = p
      · subst hp
        cases flag with
        | ready => exact (h.caused.2 hc').perform hc' hseats hepoch
        | _ => cases hreadies
      · apply (hroom.sided hsiding c hc' _).perform hc' hseats hepoch
        simpa [perform, Seating.modify, hp] using hready
    | setDecks p deck =>
      by_cases hp : c = p
      · subst hp
        exact ⟨c, hc, deck, rfl, by simp [perform, setDecks]⟩
      · apply (hroom.sided hsiding c hc' _).perform hc' hseats hepoch
        simpa [perform, setDecks, Seating.modify, hp] using hready
    | _ => cases hreadies

/-- Nobody is ready in a duel that was scored, until its phase has ended. -/
theorem notReady_perform {call : Call} (hpre : AtHome pre)
    (h : Rightful cfg pre input room call)
    (hdueling : room.duelState = .dueling ∨ pre.duelState = .dueling)
    (hnobody : ∀ c ∈ room.players, (room.client c).isReady = false) :
    ∀ c ∈ (room.perform cfg call).players,
      ((room.perform cfg call).client c).isReady = false := by
  intro c hc
  by_contra hready
  simp only [Bool.not_eq_false] at hready
  obtain ⟨hold, hwas⟩ := perform_noneReadied (h.not_readies hpre hdueling) c hc hready
  exact absurd ((hnobody c hold).symm.trans hwas) (by simp)

theorem Resumes.scoredHere {result : Settled}
    (h : Resumes pre (fun k => ∃ winner engine, k = .duelProcessed winner engine) result input)
    (hontime : pre.invokedIn input = pre.epoch) : ScoredHere pre := by
  obtain ⟨index, rfl, k, hk, winner, engine, hwork⟩ := h
  have hsuspended := Option.mem_def.mp hk
  refine ⟨k, List.mem_of_getElem? hsuspended, by rw [hwork]; rfl, ?_⟩
  simpa [invokedIn, hsuspended] using hontime

/-- Nobody is ready when SIDE_DECKING begins. -/
theorem sided_enters {call : Call} (h : Rightful cfg pre input room call)
    (henters : call.enters = true)
    (hscored : ScoredHere pre → ∀ c ∈ room.players, (room.client c).isReady = false)
    (hsiding : (room.perform cfg call).duelState = .sideDecking) :
    ∀ c ∈ (room.perform cfg call).players,
      ((room.perform cfg call).client c).isReady = false := by
  have hontime := h.onTime (enters_changesPhase henters)
  cases call with
  | enter born target =>
    rw [perform, enterPhase_duelState] at hsiding
    subst hsiding
    rcases h.caused with ⟨htarget, _⟩ | ⟨htarget, _⟩ | ⟨_, hdone⟩
    · cases htarget
    · cases htarget
    · exact hscored (hdone.scoredHere hontime)
  | startMatch born => cases hsiding
  | leaveSideDecking born target =>
    rw [perform, enterPhase_duelState] at hsiding
    subst hsiding
    rcases h.caused.1 with htarget | htarget
    · cases htarget
    · cases htarget
  | dueling born => cases hsiding
  | _ => cases henters

/-- A duel that is scored after a call was scored before it, or is by the call. -/
theorem scoredHere_perform {call : Call} (hpre : AtHome pre) (hroom : ReadyHonest room)
    (h : Rightful cfg pre input room call) (hhere : ScoredHere (room.perform cfg call)) :
    ∀ c ∈ (room.perform cfg call).players,
      ((room.perform cfg call).client c).isReady = false := by
  obtain ⟨k, hk, hprocessing, hborn⟩ := hhere
  have hhome : k.work.home = some .dueling := by
    cases hwork : k.work with
    | duelProcessed winner engine => rfl
    | _ => simp [hwork, Continuation.isProcessing] at hprocessing
  rcases suspended_home hk with hold | rfl | hnone | ⟨duel, winner, engine, rfl, _⟩
  · cases henters : call.enters with
    | true =>
      have hle := hroom.home.born_le hold hhome
      rw [hborn, enters_epoch henters] at hle
      omega
    | false =>
      rw [(perform_stays henters).1] at hborn
      have hthere : ScoredHere room := ⟨k, hold, hprocessing, hborn⟩
      exact notReady_perform hpre h (.inl (hthere.dueling hroom.home)) (hroom.scored hthere)
  · exact absurd (h.guarded.1.symm.trans hprocessing) (by simp)
  · rw [hnone] at hhome
    cases hhome
  · intro c hc
    have hplayers := (SameSeats.unreadyPlayers room.toSeating).players
    exact Seating.unreadyPlayers_notReady (hplayers ▸ hc)

/-- A room while a handler that is on time makes its calls. -/
structure Underway (cfg : RoomConfig) (pre : YGOProRoom) (input : RoomInput) (room : YGOProRoom) :
    Prop where
  honest : ReadyHonest room
  log : pre.log <+: room.log
  scored : ScoredHere pre → ∀ c ∈ room.players, (room.client c).isReady = false
  leads : room.epoch = pre.epoch ∧ room.duelState = pre.duelState ∧
      (pre.duelState = .sideDecking → SamePositions pre.toSeating room.toSeating) ∨
    pre.epoch < room.epoch ∧ LedOn cfg pre input room

theorem Underway.here {call : Call} (hroom : Underway cfg pre input room)
    (h : Rightful cfg pre input room call) (henters : call.enters = true) :
    room.epoch = pre.epoch ∧ room.duelState = pre.duelState ∧
      (pre.duelState = .sideDecking → SamePositions pre.toSeating room.toSeating) := by
  have hepoch : room.epoch = pre.epoch := by
    cases call with
    | enter born target => exact h.guarded.1
    | startMatch born => exact h.guarded.1
    | leaveSideDecking born target => exact h.guarded.1
    | dueling born => exact h.guarded.1
    | _ => cases henters
  rcases hroom.leads with hsame | ⟨hlater, _⟩
  · exact hsame
  · omega

theorem underway_perform {call : Call} (hpre : ReadyHonest pre)
    (hroom : Underway cfg pre input room) (h : Rightful cfg pre input room call) :
    Underway cfg pre input (room.perform cfg call) where
  honest := by
    constructor
    · exact clientsKnown_perform hpre.known hroom.honest.known h.guarded
    · exact atHome_perform hpre.home hroom.log hroom.honest.home h.guarded h.caused
    · intro hsiding
      cases henters : call.enters with
      | false =>
        rw [(perform_stays henters).2] at hsiding
        exact sided_perform hpre.home hroom.honest h henters hsiding
      | true =>
        intro c hc hready
        have hnot := sided_enters h henters hroom.scored hsiding c hc
        exact absurd (hnot.symm.trans hready) (by simp)
    · exact scoredHere_perform hpre.home hroom.honest h
  log := hroom.log.trans (log_prefix_perform call)
  scored := by
    intro hhere
    exact notReady_perform hpre.home h (.inr (hhere.dueling hpre.home)) (hroom.scored hhere)
  leads := by
    cases henters : call.enters with
    | true =>
      obtain ⟨hepoch, hphase, hseats⟩ := hroom.here h henters
      refine .inr ⟨?_, ledOn_perform hpre.home hroom.honest h henters hphase hseats⟩
      rw [enters_epoch henters]
      omega
    | false =>
      obtain ⟨hepoch, hphase⟩ := @perform_stays cfg room call henters
      rw [hepoch, hphase]
      rcases hroom.leads with ⟨hsame, hstays, hseats⟩ | ⟨hlater, hled⟩
      · refine .inl ⟨hsame, hstays, fun hsiding => (hseats hsiding).trans ?_⟩
        exact h.seats hpre.home hroom.honest.known.allocated (.inr hsiding)
      · exact .inr ⟨hlater, hled.mono hphase (log_prefix_perform call)⟩

theorem underway_step (cfg : RoomConfig) (h : ReadyHonest room) (hok : OnTime room input) :
    Underway cfg room input (room.step cfg input) := by
  apply (calls_rightful hok).preserves (P := Underway cfg room input)
    (fun _ _ hr hcall => underway_perform h hr hcall)
  exact ⟨h, List.prefix_rfl, h.scored, .inl ⟨rfl, rfl, fun _ => SamePositions.refl _⟩⟩

theorem create_readyHonest (outside : Outside) : ReadyHonest (create cfg outside) where
  known := create_clientsKnown outside
  home := create_atHome outside
  sided := by simp [create]
  scored := by simp [create]

theorem OnTimeRuns.readyHonest (h : OnTimeRuns cfg room) : ReadyHonest room := by
  apply Reached.invariant (P := ReadyHonest) _ _ h
  · intro s hs
    obtain ⟨outside, rfl⟩ := hs
    exact create_readyHonest outside
  · exact fun _ _ hs hok => (underway_step cfg hs hok).honest

/-! ## Hands -/

/-- Calls that stay in the phase and show no hand leave the hands alone. -/
theorem perform_handResult {call : Call} (hstays : call.enters = false)
    (hcall : ∀ hands, call ≠ .setHandResult hands) :
    (room.perform cfg call).handResult = room.handResult := by
  cases call with
  | setHandResult hands => exact absurd rfl (hcall hands)
  | clearTimer born position =>
    rw [perform]
    split
    · rfl
    · rfl
  | clearTimers born =>
    rw [perform]
    split
    · rfl
    · rfl
  | removeAllListener born =>
    rw [perform]
    split
    · rfl
    · rfl
  | endByAbandon born team => exact congrArg Phase.handResult (matchForfeit_toPhase room team.other)
  | finalize abandon => exact congrArg Phase.handResult (finalize_toPhase room cfg abandon)
  | enter born target => cases hstays
  | startMatch born => cases hstays
  | leaveSideDecking born target => cases hstays
  | dueling born => cases hstays
  | _ => rfl

theorem enters_handResult {call : Call} (h : call.enters = true) :
    (room.perform cfg call).handResult = (0, 0) := by
  cases call with
  | enter born target =>
    cases target with
    | _ => rfl
  | startMatch born => rfl
  | leaveSideDecking born target =>
    cases target with
    | _ => rfl
  | dueling born => rfl
  | _ => cases h

/-- What a captain's message makes a room do. -/
theorem ShowsHand.calls {sender : ClientRef} {result : Nat}
    (h : ShowsHand room sender result input) :
    room.calls cfg input = room.handleRPSChoice sender result := by
  obtain ⟨rfl, hreceives, hphase, _⟩ := h
  simp [YGOProRoom.calls, handleMessage, hreceives, hphase, rpsMessage]

/-- A hand that a captain shows counts from then on, until the hands are put away. -/
theorem ShowsHand.handResult (cfg : RoomConfig) {sender : ClientRef} {result : Nat}
    (h : ShowsHand room sender result input) :
    (room.step cfg input).handResult = room.handsWith sender result ∨
      (room.step cfg input).handResult = (0, 0) := by
  rw [step, h.calls]
  obtain ⟨rfl, _, _, hcaptain, hplayer⟩ := h
  simp only [handleRPSChoice, hcaptain, hplayer, Bool.not_true, Bool.or_self, Bool.false_eq_true,
    if_false]
  split
  · exact .inl rfl
  · split
    · right
      rw [performAll_cons]
      unfold toRPS
      split
      · rfl
      · rfl
    · split
      · exact .inl rfl
      · exact .inr rfl

/-- Nothing else changes the hands, except that they are put away. -/
theorem handResult_of_not_shows (cfg : RoomConfig)
    (h : ¬ ∃ sender result, ShowsHand room sender result input) :
    (room.step cfg input).handResult = room.handResult ∨
      (room.step cfg input).handResult = (0, 0) := by
  apply (calls_caused cfg room input).preserves
    (P := fun r : YGOProRoom => r.handResult = room.handResult ∨ r.handResult = (0, 0))
  · intro r call hr hcaused
    cases henters : call.enters with
    | true => exact .inr (enters_handResult henters)
    | false =>
      rw [perform_handResult henters]
      · exact hr
      · rintro hands rfl
        obtain ⟨sender, result, hshows, _⟩ := hcaused
        exact h ⟨sender, result, hshows⟩
  · exact .inl rfl

/-- The hands decide who chooses. -/
theorem decided_chooser {sender : ClientRef} {result : Nat}
    (hshows : ShowsHand room sender result input) (hfirst : (room.handsWith sender result).1 ≠ 0)
    (hsecond : (room.handsWith sender result).2 ≠ 0)
    (hdiffer : (room.handsWith sender result).1 ≠ (room.handsWith sender result).2)
    (hleaves : (room.step cfg input).duelState ≠ .rps) :
    (room.step cfg input).clientWhoChoosesTurn =
      (room.getTeamPlayers (getRPSWinner (room.handsWith sender result))).head? := by
  rw [step, hshows.calls] at hleaves ⊢
  obtain ⟨rfl, _, hphase, hcaptain, hplayer⟩ := hshows
  simp only [handleRPSChoice, hcaptain, hplayer, Bool.not_true, Bool.or_self, Bool.false_eq_true,
    if_false, hfirst, hsecond, or_self, hdiffer] at hleaves ⊢
  cases hteam : room.getTeamPlayers (getRPSWinner (room.handsWith sender result)) with
  | nil =>
    rw [hteam] at hleaves
    exact absurd hphase hleaves
  | cons winner others => rfl

/-- A deck that is accepted in SIDE_DECKING is a side deck. -/
theorem sideDecks_step (hroom : AtHome room) (hok : OnTime room input)
    (hsiding : room.duelState = .sideDecking) {now : Nat} {c : ClientRef} {deck : Deck}
    (h : .deckAccepted now c deck ∈ (room.step cfg input).log) :
    .deckAccepted now c deck ∈ room.log ∨ SidesWith room deck input := by
  revert h
  apply (calls_rightful hok).preserves (P := fun r : YGOProRoom =>
    .deckAccepted now c deck ∈ r.log → .deckAccepted now c deck ∈ room.log ∨
      SidesWith room deck input)
  · intro r call hr hcall hevent
    rw [perform_log] at hevent
    rcases List.mem_append.mp hevent with hold | hnew
    · exact hr hold
    · cases call with
      | setDecks p other =>
        simp only [logged, List.mem_singleton, RoomEvent.deckAccepted.injEq] at hnew
        obtain ⟨_, _, rfl⟩ := hnew
        rcases hcall.caused.2 with hwaiting | ⟨_, hside⟩
        · have hphase := homeOf_onTime hroom hwaiting.1 (hcall.onTime rfl)
          exact absurd (hsiding.symm.trans hphase) (by decide)
        · exact .inr hside
      | finalize abandon =>
        unfold logged abandons at hnew
        dsimp only at hnew
        split_ifs at hnew
        all_goals simp at hnew
      | _ => simp [logged] at hnew
  · exact .inl

end YGOProRoom

/-! ## Whose phases are left by whom -/

/-- A hand, by whom it was shown and for which team. -/
structure Hand where
  captain : ClientRef
  team : Team
  result : Nat
  deriving DecidableEq, Repr

/-- A room with the hands that count in it, that of the first team and that of the second. -/
structure Table where
  room : YGOProRoom
  hands : Option Hand × Option Hand

namespace Table

/-- The hands once an input has come. Only a connected captain who plays shows one. -/
def shown (t : Table) : RoomInput → Option Hand × Option Hand
  | .message sender (.rpsChoice result) =>
    let client := t.room.client sender
    let hand : Hand := { captain := sender, team := client.team, result := result }
    if t.room.receives sender && t.room.duelState = .rps && client.isCaptain &&
        !client.isSpectator then
      if client.team = .player then (some hand, t.hands.2) else (t.hands.1, some hand)
    else t.hands
  | _ => t.hands

/-- No hand counts once the room has put them away. -/
def step (cfg : RoomConfig) (t : Table) (input : RoomInput) : Table where
  room := t.room.step cfg input
  hands := if (t.room.step cfg input).handResult = (0, 0) then (none, none) else t.shown input

def create (cfg : RoomConfig) (outside : Outside) : Table where
  room := .create cfg outside
  hands := (none, none)

/-- Runs in which handlers that write are resumed on time. -/
def OnTimeRuns (cfg : RoomConfig) : Table → Prop :=
  Reached (fun t => ∃ outside, t = create cfg outside) (step cfg)
    (fun t input => t.room.OnTime input)

variable {cfg : RoomConfig} {t : Table} {input : RoomInput}

theorem OnTimeRuns.room (h : OnTimeRuns cfg t) : YGOProRoom.OnTimeRuns cfg t.room := by
  apply Reached.map Table.room _ (fun _ _ => rfl) h
  rintro t ⟨outside, rfl⟩
  exact ⟨outside, rfl⟩

/-- What a room holds for the hands was shown for the teams. -/
def HandsShown (hands : Nat × Nat) (shown : Option Hand × Option Hand) : Prop :=
  (hands.1 ≠ 0 → ∃ hand ∈ shown.1, hand.team = .player ∧ hand.result = hands.1) ∧
    (hands.2 ≠ 0 → ∃ hand ∈ shown.2, hand.team = .opponent ∧ hand.result = hands.2)

theorem handsShown_with (h : HandsShown t.room.handResult t.hands) {sender : ClientRef}
    {result : Nat} (hshows : t.room.ShowsHand sender result input) :
    HandsShown (t.room.handsWith sender result) (t.shown input) := by
  obtain ⟨rfl, hreceives, hphase, hcaptain, hplayer⟩ := hshows
  unfold shown YGOProRoom.handsWith
  simp only [hreceives, hphase, hcaptain, hplayer, decide_true, Bool.and_self, Bool.not_false,
    if_true]
  cases hteam : (t.room.client sender).team with
  | player => exact ⟨fun _ => ⟨_, rfl, rfl, rfl⟩, h.2⟩
  | opponent => exact ⟨h.1, fun _ => ⟨_, rfl, rfl, rfl⟩⟩
  | spectator => simp [YGOProClient.isSpectator, hteam] at hplayer

theorem shown_of_not_shows (h : ¬ ∃ sender result, t.room.ShowsHand sender result input) :
    t.shown input = t.hands := by
  cases input with
  | message sender message =>
    cases message with
    | rpsChoice result =>
      unfold shown
      dsimp only
      split
      · rename_i hshows
        simp only [Bool.and_eq_true, decide_eq_true_eq, Bool.not_eq_true'] at hshows
        obtain ⟨⟨⟨hreceives, hphase⟩, hcaptain⟩, hplayer⟩ := hshows
        exact absurd ⟨sender, result, rfl, hreceives, hphase, hcaptain, hplayer⟩ h
      · rfl
    | _ => rfl
  | _ => rfl

/-- The hands that count in a room were shown for the teams. -/
theorem handsShown_step (cfg : RoomConfig) (input : RoomInput)
    (h : HandsShown t.room.handResult t.hands) :
    HandsShown (t.step cfg input).room.handResult (t.step cfg input).hands := by
  by_cases hnone : (t.room.step cfg input).handResult = (0, 0)
  · simp [step, hnone, HandsShown]
  · simp only [step, hnone, if_false]
    by_cases hshows : ∃ sender result, t.room.ShowsHand sender result input
    · obtain ⟨sender, result, hshows⟩ := hshows
      rw [(hshows.handResult cfg).resolve_right hnone]
      exact handsShown_with h hshows
    · rw [(YGOProRoom.handResult_of_not_shows cfg hshows).resolve_right hnone,
        shown_of_not_shows hshows]
      exact h

theorem OnTimeRuns.handsShown (h : OnTimeRuns cfg t) :
    HandsShown t.room.handResult t.hands := by
  apply Reached.invariant (P := fun t : Table => HandsShown t.room.handResult t.hands) _ _ h
  · rintro _ ⟨outside, rfl⟩
    simp [create, YGOProRoom.create, HandsShown]
  · exact fun t input ht _ => handsShown_step cfg input ht

/-- The two hands that decide, and who chooses by them. -/
def Decided (cfg : RoomConfig) (t : Table) (input : RoomInput) : Prop :=
  ∃ first ∈ (t.shown input).1, ∃ second ∈ (t.shown input).2,
    first.team = .player ∧ second.team = .opponent ∧ first.result ≠ second.result ∧
    (t.step cfg input).room.clientWhoChoosesTurn =
      (t.room.getTeamPlayers (YGOProRoom.getRPSWinner (first.result, second.result))).head?

/-- A step of a room leads on only by what may lead on. The hands that decide are those of two
captains, and the decks accepted in SIDE_DECKING are side decks. -/
structure Authorised (cfg : RoomConfig) (t : Table) (input : RoomInput) : Prop where
  leads : (t.step cfg input).room.epoch = t.room.epoch ∧
      (t.step cfg input).room.duelState = t.room.duelState ∨
    t.room.LedOn cfg input (t.step cfg input).room
  hands : t.room.duelState = .rps → (t.step cfg input).room.duelState = .choosingOrder →
    Decided cfg t input
  sideDecks : t.room.duelState = .sideDecking → ∀ now c deck,
    .deckAccepted now c deck ∈ (t.step cfg input).room.log →
      .deckAccepted now c deck ∈ t.room.log ∨ t.room.SidesWith deck input

/-- The hands that end the phase were shown by captains of both teams. -/
theorem decided_of_hands (h : HandsShown t.room.handResult t.hands)
    (hhands : t.room.HandsDecide input)
    (hleaves : (t.step cfg input).room.duelState ≠ .rps) : Decided cfg t input := by
  obtain ⟨sender, result, hshows, hfirst, hsecond, hdiffer⟩ := hhands
  obtain ⟨hmine, htheirs⟩ := handsShown_with h hshows
  obtain ⟨first, hmem, hteam, hresult⟩ := hmine hfirst
  obtain ⟨second, hmem', hteam', hresult'⟩ := htheirs hsecond
  refine ⟨first, hmem, second, hmem', hteam, hteam', ?_, ?_⟩
  · rw [hresult, hresult']
    exact hdiffer
  · rw [hresult, hresult']
    exact YGOProRoom.decided_chooser hshows hfirst hsecond hdiffer hleaves

/-- While handlers that write are resumed on time, a room is led from phase to phase by those who
may. -/
theorem phases_authorised (cfg : RoomConfig) (t : Table) (h : OnTimeRuns cfg t) (input : RoomInput)
    (hinput : t.room.OnTime input) : Authorised cfg t input := by
  have hhonest := h.room.readyHonest
  have hstep := YGOProRoom.underway_step cfg hhonest hinput
  constructor
  · rcases hstep.leads with ⟨hepoch, hphase, _⟩ | ⟨_, hled⟩
    · exact .inl ⟨hepoch, hphase⟩
    · exact .inr hled
  · intro hrps hchoosing
    have hleaves : (t.step cfg input).room.duelState ≠ .rps := by
      rw [hchoosing]
      decide
    rcases hstep.leads with ⟨_, hphase, _⟩ | ⟨_, hled⟩
    · exact absurd (hphase.trans hrps) hleaves
    · rw [YGOProRoom.LedOn, hrps, show (t.room.step cfg input).duelState = .choosingOrder from
        hchoosing] at hled
      exact decided_of_hands h.handsShown hled hleaves
  · exact fun hsiding _ _ _ hevent =>
      YGOProRoom.sideDecks_step hhonest.home hinput hsiding hevent

def after (cfg : RoomConfig) (inputs : List RoomInput) : Table :=
  inputs.foldl (step cfg) (create cfg { closedSockets := [], tokens := .empty, minted := 0 })

theorem onTimeRuns_after {inputs : List RoomInput}
    (h : Allows (fun input t => step cfg t input) (fun t input => t.room.OnTime input)
      (create cfg { closedSockets := [], tokens := .empty, minted := 0 }) inputs) :
    OnTimeRuns cfg (after cfg inputs) :=
  Reached.inputs (.start ⟨_, rfl⟩) h

/-- A duel is surrendered, and both players side. -/
def bothSide : List RoomInput :=
  YGOProRoom.guestsReady ++ YGOProRoom.duelBegins ++
    [.message 0 .surrender, .settled 0 .done, .message 0 (.updateDeck [] []),
      .message 1 (.updateDeck [] []), .settled 0 (.built (some YGOProRoom.emptyDeck))]

/-- The second hand ends the phase of hands, and the second side deck ends SIDE_DECKING. -/
theorem phases_authorised_played :
    Decided YGOProRoom.casualRoom
        (after YGOProRoom.casualRoom (YGOProRoom.guestsReady ++ YGOProRoom.duelBegins.take 2))
        (.message 1 (.rpsChoice 2)) ∧
      Authorised YGOProRoom.casualRoom (after YGOProRoom.casualRoom bothSide)
        (.settled 0 (.built (some YGOProRoom.emptyDeck))) ∧
      ((after YGOProRoom.casualRoom bothSide).step YGOProRoom.casualRoom
        (.settled 0 (.built (some YGOProRoom.emptyDeck)))).room.duelState = .choosingOrder := by
  have hhands := phases_authorised YGOProRoom.casualRoom
    (after YGOProRoom.casualRoom (YGOProRoom.guestsReady ++ YGOProRoom.duelBegins.take 2))
    (onTimeRuns_after (by decide +kernel)) (.message 1 (.rpsChoice 2)) (by decide +kernel)
  have hsides := phases_authorised YGOProRoom.casualRoom (after YGOProRoom.casualRoom bothSide)
    (onTimeRuns_after (by decide +kernel)) (.settled 0 (.built (some YGOProRoom.emptyDeck)))
    (by decide +kernel)
  exact ⟨hhands.hands (by decide +kernel) (by decide +kernel), hsides, by decide +kernel⟩

end Table

namespace YGOProRoom

/-- A second deck of a player is still being built when the match starts. -/
def deckKept : List RoomInput :=
  guestsReady ++
    [.message 1 (.updateDeck [] []), .message 0 .tryStart, .message 0 (.rpsChoice 1),
      .message 1 (.rpsChoice 2), .message 1 (.turnChoice true), .grant, .settled 1 .done,
      .settled 1 .done]

/-- It is built in SIDE_DECKING, where the player sends none. -/
def deckLate : List RoomInput :=
  [.message 0 .surrender, .settled 1 .done, .settled 0 (.built (some emptyDeck)), .grant,
    .message 0 (.updateDeck [] []), .settled 0 (.built (some emptyDeck))]

/-- A reserved duel starts without its host, the client that may not choose chooses, and a deck
from the lobby passes for a side deck. -/
theorem phases_not_authorised :
    (∃ room input, Runs reservedRoom (fun _ _ => True) room ∧ room.duelState = .waiting ∧
        (room.step reservedRoom input).duelState = .rps ∧ ¬ HostStarts reservedRoom room input) ∧
      (∃ room sender, Runs casualRoom (fun _ _ => True) room ∧ room.duelState = .choosingOrder ∧
        room.clientWhoChoosesTurn ≠ some sender ∧
        (room.step casualRoom (.message sender (.turnChoice true))).duelState = .dueling) ∧
      (after casualRoom deckKept).duelState = .dueling ∧
      (after casualRoom (deckKept ++ deckLate)).duelState = .choosingOrder ∧
      ∀ main side, .message 1 (.updateDeck main side) ∉ deckLate := by
  refine ⟨⟨after reservedRoom (reservedBegins.take 11), .grant, runs_after _ _, by decide +kernel,
    by decide +kernel, ?_⟩, ⟨after casualRoom (guestsReady ++ duelBegins.take 3), 0,
    runs_after _ _, by decide +kernel, by decide +kernel, by decide +kernel⟩, by decide +kernel,
    by decide +kernel, ?_⟩
  · rintro ⟨sender, hinput, _⟩
    cases hinput
  · intro main side
    simp [deckLate]

end YGOProRoom

end EdoproServer.Room
