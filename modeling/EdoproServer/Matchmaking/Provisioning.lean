import EdoproServer.Matchmaking.Queue
import EdoproServer.Matchmaking.Guarantees

namespace EdoproServer.Matchmaking
open Lib MatchmakingPool

/-! ## Rooms for matches -/

/-- A listed room, as matchmaking builds it. -/
structure MatchmakingRoom where
  id : Nat
  name : String
  password : String
  bestOf : Nat
  ranked : Bool
  reservedUserIds : List UserId
  deriving DecidableEq, Repr

/-- What provisioning changes: the lobby, the room list, and who was told FOUND, admitted to a
room or promised a bot. -/
structure Venue where
  lobby : Lobby
  rooms : List MatchmakingRoom
  found : List (Participant × MatchFoundNotice)
  admitted : List (Nat × Participant)
  bots : List (Nat × MatchmakingFormat)

def FORMAT_ROOM_TOKEN : MatchmakingFormat → String
  | .tcg => "tt"
  | .jtp => "jtp"
  | .edison => "ed"

/-- The tokens of a best-of-three room. -/
def FORMAT_ROOM_TOKEN_MATCH : MatchmakingFormat → String
  | .tcg => "tmr"
  | .jtp => "jm"
  | .edison => "edm"

/-- The calls provisioning makes that may raise. -/
inductive ProvisionStep where
  | create
  | register
  | found (participantId : String)
  | recordUpdate (participantId : String)
  | matchAdmit (participantId : String)
  | spawnBot
  deriving DecidableEq, Repr

structure ProvisionError where
  message : String
  deriving DecidableEq, Repr

/-- What provisioning is given. `unusedName` draws names until one is not taken; `raises` says
which calls raise for a match, and what. -/
structure ProvisionMatchRoomDeps where
  now : Nat → Int
  newMatchId : Nat → String
  nextRoomId : List MatchmakingRoom → Nat
  unusedName : (String → Bool) → String
  newPassword : Match → String
  raises : Match → ProvisionStep → Option ProvisionError

abbrev ProvisionM := EStateM ProvisionError Venue

namespace Provisioning

variable (deps : ProvisionMatchRoomDeps) (m : Match)

/-- A call that may raise. -/
def perform (step : ProvisionStep) : ProvisionM Unit :=
  match deps.raises m step with
  | none => pure ()
  | some error => throw error

def isHumanMatch : Bool := m.opponentKind = .human

def newRoom (rooms : List MatchmakingRoom) : MatchmakingRoom :=
  let token :=
    if isHumanMatch m then FORMAT_ROOM_TOKEN_MATCH m.format else FORMAT_ROOM_TOKEN m.format
  let unique :=
    deps.unusedName (fun unique => rooms.any (fun room => room.name = token ++ "," ++ unique))
  { id := deps.nextRoomId rooms
    name := token ++ "," ++ unique
    password := deps.newPassword m
    bestOf := if isHumanMatch m then 3 else 1
    ranked := isHumanMatch m
    reservedUserIds := m.userIds }

/-- Lists a room with its reservation, opens its lobby and registers it with the reaper. -/
def createMatchmakingRoom : ProvisionM MatchmakingRoom := do
  if m.participants = [] then
    throw ⟨"createMatchmakingRoom requires at least one reserved userId"⟩
  perform deps m .create
  let room ← modifyGet fun venue =>
    (newRoom deps m venue.rooms,
      { venue with rooms := venue.rooms ++ [newRoom deps m venue.rooms] })
  perform deps m .register
  return room

def noticeOf (room : MatchmakingRoom) (p : Participant) : MatchFoundNotice :=
  { roomId := room.id
    roomPassword := room.name ++ "#" ++ room.password
    opponentType := m.opponentKind
    rated := m.rated
    opponentName := (m.participants.find? (fun q => q.id ≠ p.id)).bind Participant.displayName }

/-- A poll record is marked as matched before the rest of it is filled in. -/
def mark (p : Participant) (lobby : Lobby) : Lobby :=
  match p.presence, lobby.entries.get p.id with
  | .poll, some entry =>
    { lobby with entries := lobby.entries.set p.id { entry with state := .matched } }
  | _, _ => lobby

/-- FOUND, over the channel of one participant. -/
def tellFound (room : MatchmakingRoom) (p : Participant) : ProvisionM Unit := do
  perform deps m (.found p.id)
  if p.presence = .poll then
    modify fun venue => { venue with lobby := mark p venue.lobby }
    perform deps m (.recordUpdate p.id)
  modify fun venue => { venue with
    lobby := found (noticeOf m room p) venue.lobby p
    found := venue.found ++ [(p, noticeOf m room p)] }

/-- MATCH_ADMIT, for a participant whose socket was captured. -/
def emitAdmission (room : MatchmakingRoom) (p : Participant) : ProvisionM Unit := do
  if p.admission then
    perform deps m (.matchAdmit p.id)
    modify fun venue => { venue with admitted := venue.admitted ++ [(room.id, p)] }

def spawnBot (room : MatchmakingRoom) : ProvisionM Unit := do
  perform deps m .spawnBot
  modify fun venue => { venue with bots := venue.bots ++ [(room.id, m.format)] }

/-- Everyone is told before anyone is admitted. -/
def announce (room : MatchmakingRoom) : ProvisionM Unit := do
  forM m.participants (tellFound deps m room)
  forM m.participants (emitAdmission deps m room)
  if m.opponentKind = OpponentType.bot then
    spawnBot deps m room

def provisionRoom : ProvisionM Unit := do
  let room ← createMatchmakingRoom deps m
  announce deps m room

def rejectMissingPlayerInfo (venue : Venue) : Venue × List Participant :=
  ({ venue with
      lobby := (ProvisionMatchRoom.missing m).foldl
        (fun lobby p => lobby.call p (.close .missingPlayerInfo)) venue.lobby },
    m.participants.filter (fun p => p ∉ ProvisionMatchRoom.missing m))

/-- Whatever raises, everyone goes back to the pool. -/
def handle (venue : Venue) : Venue × List Participant :=
  if ProvisionMatchRoom.missing m ≠ [] then rejectMissingPlayerInfo m venue
  else
    match provisionRoom deps m venue with
    | .ok _ venue' => (venue', [])
    | .error _ venue' => (venue', m.participants)

end Provisioning

/-- The pool in front of the rooms. -/
def ProvisionMatchRoomDeps.pool (deps : ProvisionMatchRoomDeps) : MatchmakingPoolDeps Venue :=
  { now := deps.now
    newMatchId := deps.newMatchId
    botAvailable := fun venue => venue.lobby.botUp
    isAlive := fun venue p time => venue.lobby.isAlive p time
    call := fun p message venue => { venue with lobby := venue.lobby.call p message }
    handle := Provisioning.handle deps }

namespace Provisioning

variable {deps : ProvisionMatchRoomDeps} {m : Match}

/-! ## What raises -/

def RaisesFirst (deps : ProvisionMatchRoomDeps) (m : Match) : Prop :=
  m.participants = [] ∨ (deps.raises m .create).isSome

/-- Telling a participant FOUND raises. -/
def RaisesFound (deps : ProvisionMatchRoomDeps) (m : Match) (p : Participant) : Prop :=
  (deps.raises m (.found p.id)).isSome ∨
    (p.presence = .poll ∧ (deps.raises m (.recordUpdate p.id)).isSome)

def RaisesAdmission (deps : ProvisionMatchRoomDeps) (m : Match) (p : Participant) : Prop :=
  p.admission = true ∧ (deps.raises m (.matchAdmit p.id)).isSome

/-- Some call raises once the room is listed. -/
def RaisesLater (deps : ProvisionMatchRoomDeps) (m : Match) : Prop :=
  (deps.raises m .register).isSome ∨ (∃ p ∈ m.participants, RaisesFound deps m p) ∨
    (∃ p ∈ m.participants, RaisesAdmission deps m p) ∨
    (m.opponentKind = .bot ∧ (deps.raises m .spawnBot).isSome)

/-- A stretch that leaves the room list alone ends exactly when it does not raise, and then has
told the given participants. -/
def Ends (venue : Venue) (raises : Prop) (told : List (Participant × MatchFoundNotice)) :
    EStateM.Result ProvisionError Venue PUnit → Prop
  | .ok _ venue' => ¬ raises ∧ venue'.rooms = venue.rooms ∧ venue'.found = venue.found ++ told
  | .error _ venue' => raises ∧ venue'.rooms = venue.rooms

namespace Ends

theorem bind {x y : ProvisionM PUnit} {venue : Venue} {raises raises' : Prop}
    {told told' : List (Participant × MatchFoundNotice)} (hx : Ends venue raises told (x venue))
    (hy : ∀ venue', Ends venue' raises' told' (y venue')) :
    Ends venue (raises ∨ raises') (told ++ told') ((x >>= fun _ => y) venue) := by
  cases hrun : x venue with
  | error e venue' =>
    rw [hrun] at hx
    rw [bind_raises hrun]
    exact ⟨Or.inl hx.1, hx.2⟩
  | ok a venue' =>
    rw [hrun] at hx
    obtain ⟨hno, hrooms, hfound⟩ := hx
    have hbind : (x >>= fun _ => y) venue = y venue' := by
      simp only [Bind.bind, EStateM.bind, hrun]
    rw [hbind]
    have hlast := hy venue'
    cases hrun' : y venue' with
    | error e venue'' =>
      rw [hrun'] at hlast
      exact ⟨Or.inr hlast.1, hlast.2.trans hrooms⟩
    | ok b venue'' =>
      rw [hrun'] at hlast
      obtain ⟨hno', hrooms', hfound'⟩ := hlast
      refine ⟨?_, hrooms'.trans hrooms, ?_⟩
      · intro h
        cases h with
        | inl h => exact hno h
        | inr h => exact hno' h
      · rw [hfound', hfound, List.append_assoc]

theorem congr {venue : Venue} {raises raises' : Prop}
    {told told' : List (Participant × MatchFoundNotice)}
    {r : EStateM.Result ProvisionError Venue PUnit} (h : Ends venue raises told r)
    (hraises : raises ↔ raises') (htold : told = told') : Ends venue raises' told' r := by
  subst htold
  rwa [propext hraises] at h

/-- A loop raises when one of its turns does. -/
theorem loop {f : Participant → ProvisionM PUnit} {raises : Participant → Prop}
    {told : Participant → List (Participant × MatchFoundNotice)}
    (turn : ∀ p venue, Ends venue (raises p) (told p) (f p venue)) (l : List Participant)
    (venue : Venue) : Ends venue (∃ p ∈ l, raises p) (l.flatMap told) (forM l f venue) := by
  induction l generalizing venue with
  | nil =>
    have hnone : Ends venue (∃ p ∈ ([] : List Participant), raises p) [] (.ok ⟨⟩ venue) :=
      ⟨by simp, rfl, by simp⟩
    exact hnone
  | cons p rest ih =>
    rw [List.forM_cons]
    apply (Ends.bind (turn p venue) ih).congr
    · simp
    · rfl

end Ends

variable (deps m) in
theorem perform_ends (step : ProvisionStep) (venue : Venue) :
    Ends venue ((deps.raises m step).isSome) [] (perform deps m step venue) := by
  unfold perform
  cases hr : deps.raises m step with
  | none => exact ⟨by simp, rfl, by simp⟩
  | some e => exact ⟨by simp, rfl⟩

theorem update_ends {f : Venue → Venue} (told : List (Participant × MatchFoundNotice))
    (hrooms : ∀ venue, (f venue).rooms = venue.rooms)
    (hfound : ∀ venue, (f venue).found = venue.found ++ told) (venue : Venue) :
    Ends venue False told ((modify f : ProvisionM PUnit) venue) :=
  ⟨id, hrooms venue, hfound venue⟩

variable (deps m) in
theorem tellFound_ends (room : MatchmakingRoom) (p : Participant) (venue : Venue) :
    Ends venue (RaisesFound deps m p) [(p, noticeOf m room p)]
      (tellFound deps m room p venue) := by
  unfold tellFound
  cases hp : p.presence with
  | socket =>
    have hrun := (perform_ends deps m (.found p.id) venue).bind
      (update_ends [(p, noticeOf m room p)] (f := fun venue => { venue with
        lobby := found (noticeOf m room p) venue.lobby p
        found := venue.found ++ [(p, noticeOf m room p)] }) (fun _ => rfl) (fun _ => rfl))
    apply hrun.congr
    · simp [RaisesFound, hp]
    · rfl
  | poll =>
    have hrun := (perform_ends deps m (.found p.id) venue).bind (fun venue =>
      (update_ends [] (f := fun venue => { venue with lobby := mark p venue.lobby })
        (fun _ => rfl) (fun _ => (List.append_nil _).symm) venue).bind (fun venue =>
        (perform_ends deps m (.recordUpdate p.id) venue).bind
          (update_ends [(p, noticeOf m room p)] (f := fun venue => { venue with
            lobby := found (noticeOf m room p) venue.lobby p
            found := venue.found ++ [(p, noticeOf m room p)] }) (fun _ => rfl) (fun _ => rfl))))
    apply hrun.congr
    · simp [RaisesFound, hp]
    · rfl

variable (deps m) in
theorem emitAdmission_ends (room : MatchmakingRoom) (p : Participant) (venue : Venue) :
    Ends venue (RaisesAdmission deps m p) [] (emitAdmission deps m room p venue) := by
  unfold emitAdmission
  cases hp : p.admission with
  | false => exact ⟨by simp [RaisesAdmission, hp], rfl, (List.append_nil _).symm⟩
  | true =>
    have hrun := (perform_ends deps m (.matchAdmit p.id) venue).bind
      (update_ends [] (f := fun venue => { venue with
        admitted := venue.admitted ++ [(room.id, p)] }) (fun _ => rfl)
        (fun _ => (List.append_nil _).symm))
    apply hrun.congr
    · simp [RaisesAdmission, hp]
    · rfl

theorem spawnBot_ends (room : MatchmakingRoom) (venue : Venue) :
    Ends venue ((deps.raises m .spawnBot).isSome) [] (spawnBot deps m room venue) := by
  have hrun := (perform_ends deps m .spawnBot venue).bind
    (update_ends [] (f := fun venue => { venue with
      bots := venue.bots ++ [(room.id, m.format)] }) (fun _ => rfl)
      (fun _ => (List.append_nil _).symm))
  apply hrun.congr
  · simp
  · rfl

variable (deps m) in
/-- What is left of provisioning once the room is listed. -/
theorem announce_ends (room : MatchmakingRoom) (venue : Venue) :
    Ends venue ((∃ p ∈ m.participants, RaisesFound deps m p) ∨
        (∃ p ∈ m.participants, RaisesAdmission deps m p) ∨
        (m.opponentKind = .bot ∧ (deps.raises m .spawnBot).isSome))
      (m.participants.map (fun p => (p, noticeOf m room p)))
      (announce deps m room venue) := by
  have hbot : ∀ venue, Ends venue (m.opponentKind = .bot ∧ (deps.raises m .spawnBot).isSome) []
      ((if m.opponentKind = .bot then spawnBot deps m room else pure ⟨⟩) venue) := by
    intro venue
    cases hk : m.opponentKind with
    | human => exact ⟨by simp, rfl, (List.append_nil _).symm⟩
    | bot => simpa using spawnBot_ends room venue
  have htold := Ends.loop (tellFound_ends deps m room) m.participants venue
  apply (htold.bind (fun venue =>
    (Ends.loop (emitAdmission_ends deps m room) m.participants venue).bind
      hbot)).congr
  · rfl
  · have hnone : m.participants.flatMap
        (fun _ => ([] : List (Participant × MatchFoundNotice))) = [] :=
      List.flatMap_eq_nil_iff.mpr (fun _ _ => rfl)
    simp only [hnone, List.append_nil, List.map_eq_flatMap]

def withRoom (deps : ProvisionMatchRoomDeps) (m : Match) (venue : Venue) : Venue :=
  { venue with rooms := venue.rooms ++ [newRoom deps m venue.rooms] }

theorem createMatchmakingRoom_cases (deps : ProvisionMatchRoomDeps) (m : Match) (venue : Venue) :
    (RaisesFirst deps m ∧ ∃ e, createMatchmakingRoom deps m venue = .error e venue) ∨
    (¬ RaisesFirst deps m ∧ (deps.raises m .register).isSome ∧
      ∃ e, createMatchmakingRoom deps m venue = .error e (withRoom deps m venue)) ∨
    (¬ RaisesFirst deps m ∧ (deps.raises m .register).isSome = false ∧
      createMatchmakingRoom deps m venue =
        .ok (newRoom deps m venue.rooms) (withRoom deps m venue)) := by
  by_cases hnone : m.participants = []
  · left
    refine ⟨Or.inl hnone, ⟨"createMatchmakingRoom requires at least one reserved userId"⟩, ?_⟩
    simp only [createMatchmakingRoom, hnone]
    rfl
  · cases hcreate : deps.raises m .create with
    | some e =>
      left
      refine ⟨Or.inr (by simp [hcreate]), e, ?_⟩
      simp only [createMatchmakingRoom, hnone, perform, hcreate]
      rfl
    | none =>
      right
      have hfirst : ¬ RaisesFirst deps m := by simp [RaisesFirst, hnone, hcreate]
      cases hregister : deps.raises m .register with
      | some e =>
        left
        refine ⟨hfirst, rfl, e, ?_⟩
        simp only [createMatchmakingRoom, hnone, perform, hcreate, hregister]
        rfl
      | none =>
        right
        refine ⟨hfirst, rfl, ?_⟩
        simp only [createMatchmakingRoom, hnone, perform, hcreate, hregister]
        rfl

theorem provisionRoom_of_room {venue venue' : Venue} {room : MatchmakingRoom}
    (h : createMatchmakingRoom deps m venue = .ok room venue') :
    provisionRoom deps m venue = announce deps m room venue' := by
  unfold provisionRoom
  simp only [Bind.bind, EStateM.bind, h]

/-- Provisioning raises before the room is listed, or after, or lists it and tells everyone. -/
theorem provisionRoom_cases (deps : ProvisionMatchRoomDeps) (m : Match) (venue : Venue) :
    (RaisesFirst deps m ∧ ∃ e, provisionRoom deps m venue = .error e venue) ∨
    (¬ RaisesFirst deps m ∧ RaisesLater deps m ∧ ∃ e venue',
      provisionRoom deps m venue = .error e venue' ∧
        venue'.rooms = venue.rooms ++ [newRoom deps m venue.rooms]) ∨
    (¬ RaisesFirst deps m ∧ ¬ RaisesLater deps m ∧ ∃ venue',
      provisionRoom deps m venue = .ok ⟨⟩ venue' ∧
        venue'.rooms = venue.rooms ++ [newRoom deps m venue.rooms] ∧
        venue'.found = venue.found ++
          m.participants.map (fun p => (p, noticeOf m (newRoom deps m venue.rooms) p))) := by
  cases createMatchmakingRoom_cases deps m venue with
  | inl hcreate =>
    obtain ⟨hfirst, e, hrun⟩ := hcreate
    exact Or.inl ⟨hfirst, e, bind_raises hrun⟩
  | inr hlisted =>
    right
    cases hlisted with
    | inl hregister =>
      obtain ⟨hfirst, hraises, e, hrun⟩ := hregister
      exact Or.inl ⟨hfirst, Or.inl hraises, e, _, bind_raises hrun, rfl⟩
    | inr hroom =>
      obtain ⟨hfirst, hregister, hrun⟩ := hroom
      have hrest := announce_ends deps m (newRoom deps m venue.rooms)
        (withRoom deps m venue)
      rw [← provisionRoom_of_room hrun] at hrest
      cases hr : provisionRoom deps m venue with
      | error e venue' =>
        left
        rw [hr] at hrest
        exact ⟨hfirst, Or.inr hrest.1, e, venue', rfl, hrest.2⟩
      | ok a venue' =>
        right
        rw [hr] at hrest
        refine ⟨hfirst, ?_, venue', rfl, hrest.2.1, hrest.2.2⟩
        intro hl
        cases hl with
        | inl hl => simp [hregister] at hl
        | inr hl => exact hrest.1 hl

/-! ## What the lobby sees -/

def tellAll (told : List (Participant × MatchFoundNotice)) (lobby : Lobby) : Lobby :=
  told.foldl (fun lobby e => found e.2 lobby e.1) lobby

/-- A stretch tells some participants FOUND, the first of them only when it raises. -/
def Tells (venue : Venue) (told : List (Participant × MatchFoundNotice)) :
    EStateM.Result ProvisionError Venue PUnit → Prop
  | .ok _ venue' => venue'.lobby = tellAll told venue.lobby
  | .error _ venue' => ∃ first, first <+: told ∧ venue'.lobby = tellAll first venue.lobby

namespace Tells

theorem bind {x y : ProvisionM PUnit} {venue : Venue}
    {told told' : List (Participant × MatchFoundNotice)} (hx : Tells venue told (x venue))
    (hy : ∀ venue', Tells venue' told' (y venue')) :
    Tells venue (told ++ told') ((x >>= fun _ => y) venue) := by
  cases hrun : x venue with
  | error e venue' =>
    rw [hrun] at hx
    rw [bind_raises hrun]
    obtain ⟨first, hfirst, hlobby⟩ := hx
    exact ⟨first, hfirst.trans (List.prefix_append _ _), hlobby⟩
  | ok a venue' =>
    rw [hrun] at hx
    have hbind : (x >>= fun _ => y) venue = y venue' := by
      simp only [Bind.bind, EStateM.bind, hrun]
    rw [hbind]
    have hlast := hy venue'
    have hjoin : ∀ later, tellAll later venue'.lobby = tellAll (told ++ later) venue.lobby := by
      intro later
      rw [hx, tellAll, tellAll, tellAll, List.foldl_append]
    cases hrun' : y venue' with
    | error e venue'' =>
      rw [hrun'] at hlast
      obtain ⟨first, hfirst, hlobby⟩ := hlast
      exact ⟨told ++ first, (List.prefix_append_right_inj told).mpr hfirst,
        hlobby.trans (hjoin first)⟩
    | ok b venue'' =>
      rw [hrun'] at hlast
      exact Eq.trans hlast (hjoin told')

theorem loop {f : Participant → ProvisionM PUnit}
    {told : Participant → List (Participant × MatchFoundNotice)}
    (turn : ∀ p venue, Tells venue (told p) (f p venue)) (l : List Participant) (venue : Venue) :
    Tells venue (l.flatMap told) (forM l f venue) := by
  induction l generalizing venue with
  | nil => exact (rfl : venue.lobby = tellAll [] venue.lobby)
  | cons p rest ih =>
    rw [List.forM_cons]
    exact Tells.bind (turn p venue) ih

end Tells

theorem perform_tells (step : ProvisionStep) (venue : Venue) :
    Tells venue [] (perform deps m step venue) := by
  unfold perform
  cases deps.raises m step with
  | none => exact (rfl : venue.lobby = tellAll [] venue.lobby)
  | some e => exact ⟨[], List.prefix_refl [], rfl⟩

/-- Marking a record before filling it in makes no difference once it is filled in. -/
theorem found_mark {p : Participant} (hp : p.presence = .poll) (notice : MatchFoundNotice)
    (lobby : Lobby) : found notice (mark p lobby) p = found notice lobby p := by
  unfold mark found
  rw [hp]
  cases he : lobby.entries.get p.id with
  | none => simp [he]
  | some entry => simp [InsertionMap.set_set]

theorem tellFound_tells (whole : ∀ id, deps.raises m (.recordUpdate id) = none)
    (room : MatchmakingRoom) (p : Participant) (venue : Venue) :
    Tells venue [(p, noticeOf m room p)] (tellFound deps m room p venue) := by
  unfold tellFound
  cases hp : p.presence with
  | socket =>
    apply Tells.bind (perform_tells (.found p.id) venue)
    intro venue'
    exact (rfl : found (noticeOf m room p) venue'.lobby p =
      tellAll [(p, noticeOf m room p)] venue'.lobby)
  | poll =>
    apply Tells.bind (perform_tells (.found p.id) venue)
    intro venue'
    simp only [if_true, perform, whole]
    exact found_mark hp (noticeOf m room p) venue'.lobby

variable (deps m) in
theorem emitAdmission_tells (room : MatchmakingRoom) (p : Participant) (venue : Venue) :
    Tells venue [] (emitAdmission deps m room p venue) := by
  unfold emitAdmission
  cases p.admission with
  | false => exact (rfl : venue.lobby = tellAll [] venue.lobby)
  | true =>
    apply Tells.bind (perform_tells (.matchAdmit p.id) venue)
    intro venue'
    exact (rfl : venue'.lobby = tellAll [] venue'.lobby)

theorem spawnBot_tells (room : MatchmakingRoom) (venue : Venue) :
    Tells venue [] (spawnBot deps m room venue) := by
  unfold spawnBot
  apply Tells.bind (perform_tells .spawnBot venue)
  intro venue'
  exact (rfl : venue'.lobby = tellAll [] venue'.lobby)

theorem announce_tells (whole : ∀ id, deps.raises m (.recordUpdate id) = none)
    (room : MatchmakingRoom) (venue : Venue) :
    Tells venue (m.participants.map (fun p => (p, noticeOf m room p)))
      (announce deps m room venue) := by
  have hbot : ∀ venue, Tells venue []
      ((if m.opponentKind = .bot then spawnBot deps m room else pure ⟨⟩) venue) := by
    intro venue
    split
    · exact spawnBot_tells room venue
    · exact (rfl : venue.lobby = tellAll [] venue.lobby)
  have htold := Tells.loop (tellFound_tells whole room) m.participants venue
  have hrun := htold.bind (fun venue =>
    (Tells.loop (emitAdmission_tells deps m room) m.participants venue).bind hbot)
  have hnone : m.participants.flatMap
      (fun _ => ([] : List (Participant × MatchFoundNotice))) = [] :=
    List.flatMap_eq_nil_iff.mpr (fun _ _ => rfl)
  simp only [hnone, List.append_nil, ← List.map_eq_flatMap] at hrun
  exact hrun

theorem provisionRoom_tells (whole : ∀ id, deps.raises m (.recordUpdate id) = none)
    (venue : Venue) :
    Tells venue (m.participants.map (fun p => (p, noticeOf m (newRoom deps m venue.rooms) p)))
      (provisionRoom deps m venue) := by
  cases createMatchmakingRoom_cases deps m venue with
  | inl hcreate =>
    obtain ⟨-, e, hrun⟩ := hcreate
    rw [provisionRoom, bind_raises hrun]
    exact ⟨[], List.nil_prefix, rfl⟩
  | inr hlisted =>
    cases hlisted with
    | inl hregister =>
      obtain ⟨-, -, e, hrun⟩ := hregister
      rw [provisionRoom, bind_raises hrun]
      exact ⟨[], List.nil_prefix, rfl⟩
    | inr hroom =>
      obtain ⟨-, -, hrun⟩ := hroom
      rw [provisionRoom_of_room hrun]
      exact announce_tells whole (newRoom deps m venue.rooms) (withRoom deps m venue)

/-- The queue's account of an attempt: the room, and after how many FOUND something raised. -/
def accountOf (deps : ProvisionMatchRoomDeps) (room : MatchmakingRoom)
    (raisesAfter : Option Nat) : MatchmakingQueueDeps where
  now := deps.now
  newMatchId := deps.newMatchId
  version := 0
  room _ := (room.id, room.name ++ "#" ++ room.password)
  raisesAfter _ := raisesAfter

theorem tell_accountOf (room : MatchmakingRoom) (raisesAfter : Option Nat)
    (told : List Participant) (lobby : Lobby) :
    ProvisionMatchRoom.tell (accountOf deps room raisesAfter) m told lobby =
      tellAll (told.map (fun p => (p, noticeOf m room p))) lobby := by
  rw [tellAll, List.foldl_map]
  rfl

/-- While no record update raises, the lobby and the participants handed back are as in the
queue's account of the attempt. -/
theorem handle_refines (whole : ∀ id, deps.raises m (.recordUpdate id) = none) (venue : Venue) :
    ∃ room raisesAfter, ((handle deps m venue).1.lobby, (handle deps m venue).2) =
      ProvisionMatchRoom.handle (accountOf deps room raisesAfter) m venue.lobby := by
  by_cases hmissing : ProvisionMatchRoom.missing m = []
  · have htells := provisionRoom_tells whole venue
    cases hrun : provisionRoom deps m venue with
    | ok a venue' =>
      rw [hrun] at htells
      refine ⟨newRoom deps m venue.rooms, none, ?_⟩
      rw [handle, if_neg (fun h => h hmissing), hrun, ProvisionMatchRoom.handle,
        if_neg (fun h => h hmissing)]
      simp only [accountOf]
      rw [← accountOf, tell_accountOf]
      exact Prod.ext htells rfl
    | error e venue' =>
      rw [hrun] at htells
      obtain ⟨first, hfirst, hlobby⟩ := htells
      refine ⟨newRoom deps m venue.rooms, some first.length, ?_⟩
      rw [handle, if_neg (fun h => h hmissing), hrun, ProvisionMatchRoom.handle,
        if_neg (fun h => h hmissing)]
      simp only [accountOf]
      rw [← accountOf, tell_accountOf, List.map_take]
      rw [List.prefix_iff_eq_take.mp hfirst] at hlobby
      exact Prod.ext hlobby rfl
  · refine ⟨newRoom deps m venue.rooms, none, ?_⟩
    rw [handle, if_pos hmissing, ProvisionMatchRoom.handle, if_pos hmissing]
    rfl

/-! ## One attempt -/

/-- A participant's own store says that it searches. -/
def Queued (lobby : Lobby) (p : Participant) : Prop :=
  match p.presence with
  | .socket => (lobby.session p.id).queueState = .queued
  | .poll => ∃ entry, lobby.entries.get p.id = some entry ∧ entry.state = .searching

/-- FOUND was told between two moments. -/
def ToldFound (before after : Venue) (p : Participant) (notice : MatchFoundNotice) : Prop :=
  (p, notice) ∈ after.found.drop before.found.length

/-- FOUND was told, for a listed room that holds the participant's reservation. -/
def Seated (before after : Venue) (p : Participant) : Prop :=
  ∃ notice, ToldFound before after p notice ∧
    ∃ room ∈ after.rooms, room.id = notice.roomId ∧ p.userId ∈ room.reservedUserIds

/-- Back in the pool as the same participant, with the arrival time it had, and searching. -/
def BackInPool (s : PoolState Venue) (p : Participant) : Prop :=
  p ∈ s.store.participants ∧ Queued s.world.lobby p

def Failed (deps : ProvisionMatchRoomDeps) (m : Match) (venue : Venue) : Prop :=
  ∃ e venue', provisionRoom deps m venue = .error e venue'

/-- What an attempt to provision a match promises: everyone has a room or is back, nobody both,
and a failed attempt leaves no room behind. -/
structure Atomic (deps : ProvisionMatchRoomDeps) (m : Match) (s s' : PoolState Venue) : Prop where
  placed : ∀ p ∈ m.participants, Seated s.world s'.world p ∨ BackInPool s' p
  once : ∀ p ∈ m.participants, ∀ notice, ToldFound s.world s'.world p notice →
    p ∉ s'.store.participants
  unlisted : Failed deps m s.world → s'.world.rooms = s.world.rooms

/-- Nobody is rejected, nothing raises once the room is listed, and when something raises before,
everyone searched. -/
def Clean (deps : ProvisionMatchRoomDeps) (m : Match) (venue : Venue) : Prop :=
  ProvisionMatchRoom.missing m = [] ∧
    ((RaisesFirst deps m ∧ ∀ p ∈ m.participants, Queued venue.lobby p) ∨
      (¬ RaisesFirst deps m ∧ ¬ RaisesLater deps m))

/-- The pool after a match was handed over. -/
theorem handle_after {s : PoolState Venue} {m : Match}
    (h : Returning s (handle deps m s.world).2) :
    (stateAfter (MatchmakingPool.handle deps.pool m s)).world = (handle deps m s.world).1 ∧
      (stateAfter (MatchmakingPool.handle deps.pool m s)).store.participants =
        s.store.participants ++ (handle deps m s.world).2 := by
  have hrun := @handle_runs _ deps.pool m s h
  apply hrun.after (fun s' => s'.world = (handle deps m s.world).1 ∧
    s'.store.participants = s.store.participants ++ (handle deps m s.world).2)
  intro _ s' hs'
  obtain ⟨store, rfl, -, hparts⟩ := hs'
  exact ⟨rfl, hparts⟩

theorem handle_sublist (m : Match) (venue : Venue) :
    (handle deps m venue).2.Sublist m.participants := by
  unfold handle
  split
  · exact List.filter_sublist
  · split
    · exact List.nil_sublist _
    · exact List.Sublist.refl _

theorem returning_sublist {s : PoolState Venue} {back some : List Participant}
    (h : Returning s back) (hsub : some.Sublist back) : Returning s some where
  store := h.store
  ids := h.ids.sublist (((List.Sublist.refl _).append hsub).map _)
  users := h.users.sublist (((List.Sublist.refl _).append hsub).map _)
  waiting := fun p hp => h.waiting p (hsub.subset hp)

theorem returning_absent {s : PoolState Venue} {back : List Participant} (h : Returning s back)
    {p : Participant} (hp : p ∈ back) : p ∉ s.store.participants := by
  intro hs
  have hids := h.ids
  rw [List.map_append] at hids
  exact (List.nodup_append.mp hids).2.2 _ (List.mem_map_of_mem hs) _ (List.mem_map_of_mem hp) rfl

theorem seated_of_told {before after : Venue} {room : MatchmakingRoom}
    (hfound : after.found = before.found ++ m.participants.map (fun p => (p, noticeOf m room p)))
    (hroom : room ∈ after.rooms) (hreserved : room.reservedUserIds = m.userIds) {p : Participant}
    (hp : p ∈ m.participants) : Seated before after p := by
  refine ⟨noticeOf m room p, ?_, room, hroom, rfl, ?_⟩
  · rw [ToldFound, hfound, List.drop_left]
    exact List.mem_map.mpr ⟨p, hp, rfl⟩
  · rw [hreserved]
    exact List.mem_map_of_mem hp

theorem not_told {before after : Venue} (hfound : after.found = before.found) {p : Participant}
    {notice : MatchFoundNotice} : ¬ ToldFound before after p notice := by
  intro h
  rw [ToldFound, hfound, List.drop_length] at h
  cases h

theorem handle_rejects {venue : Venue} (hmissing : ProvisionMatchRoom.missing m ≠ []) :
    handle deps m venue = rejectMissingPlayerInfo m venue := by
  rw [handle, if_pos hmissing]

theorem handle_raises {venue venue' : Venue} {e : ProvisionError}
    (hmissing : ProvisionMatchRoom.missing m = [])
    (hrun : provisionRoom deps m venue = .error e venue') :
    handle deps m venue = (venue', m.participants) := by
  rw [handle, if_neg (fun h => h hmissing), hrun]

theorem handle_succeeds {venue venue' : Venue}
    (hmissing : ProvisionMatchRoom.missing m = [])
    (hrun : provisionRoom deps m venue = .ok ⟨⟩ venue') :
    handle deps m venue = (venue', []) := by
  rw [handle, if_neg (fun h => h hmissing), hrun]

section Attempt

variable {s : PoolState Venue} (h : Returning s m.participants)
include h

theorem handled :
    (stateAfter (MatchmakingPool.handle deps.pool m s)).world = (handle deps m s.world).1 ∧
      (stateAfter (MatchmakingPool.handle deps.pool m s)).store.participants =
        s.store.participants ++ (handle deps m s.world).2 :=
  handle_after (returning_sublist h (handle_sublist m s.world))

theorem not_atomic_of_missing (hmissing : ProvisionMatchRoom.missing m ≠ []) :
    ¬ Atomic deps m s (stateAfter (MatchmakingPool.handle deps.pool m s)) := by
  intro ha
  obtain ⟨hworld, hstore⟩ := @handled deps _ _ h
  rw [handle_rejects hmissing] at hworld hstore
  obtain ⟨p, hp⟩ := List.exists_mem_of_ne_nil _ hmissing
  have hin : p ∈ m.participants := (List.mem_filter.mp hp).1
  cases ha.placed p hin with
  | inl hseated =>
    obtain ⟨notice, htold, -⟩ := hseated
    apply not_told _ htold
    rw [hworld]
    rfl
  | inr hback =>
    have hmem := hback.1
    rw [hstore] at hmem
    cases List.mem_append.mp hmem with
    | inl hold => exact returning_absent h hin hold
    | inr hnew => exact absurd hp (of_decide_eq_true (List.mem_filter.mp hnew).2)

/-- A call that raises before the room is listed leaves everything as it was. -/
theorem atomic_of_first (hmissing : ProvisionMatchRoom.missing m = [])
    {e : ProvisionError} (hrun : provisionRoom deps m s.world = .error e s.world) :
    Atomic deps m s (stateAfter (MatchmakingPool.handle deps.pool m s)) ↔
      ∀ p ∈ m.participants, Queued s.world.lobby p := by
  obtain ⟨hworld, hstore⟩ := @handled deps _ _ h
  rw [handle_raises hmissing hrun] at hworld hstore
  constructor
  · intro ha p hp
    cases ha.placed p hp with
    | inl hseated =>
      obtain ⟨notice, htold, -⟩ := hseated
      exact absurd htold (not_told (by rw [hworld]))
    | inr hback =>
      have hq := hback.2
      rwa [hworld] at hq
  · intro hq
    constructor
    · intro p hp
      right
      constructor
      · rw [hstore]
        exact List.mem_append_right _ hp
      · rw [hworld]
        exact hq p hp
    · intro p hp notice htold
      exact absurd htold (not_told (by rw [hworld]))
    · intro _
      rw [hworld]

/-- A call that raises once the room is listed leaves it listed. -/
theorem not_atomic_of_later (hmissing : ProvisionMatchRoom.missing m = [])
    {e : ProvisionError} {venue' : Venue}
    (hrun : provisionRoom deps m s.world = .error e venue')
    (hrooms : venue'.rooms = s.world.rooms ++ [newRoom deps m s.world.rooms]) :
    ¬ Atomic deps m s (stateAfter (MatchmakingPool.handle deps.pool m s)) := by
  intro ha
  obtain ⟨hworld, -⟩ := @handled deps _ _ h
  rw [handle_raises hmissing hrun] at hworld
  have hsame := ha.unlisted ⟨e, venue', hrun⟩
  rw [hworld, hrooms] at hsame
  simp at hsame

theorem atomic_of_success (hmissing : ProvisionMatchRoom.missing m = []) {venue' : Venue}
    (hrun : provisionRoom deps m s.world = .ok ⟨⟩ venue')
    (hrooms : venue'.rooms = s.world.rooms ++ [newRoom deps m s.world.rooms])
    (hfound : venue'.found = s.world.found ++
      m.participants.map (fun p => (p, noticeOf m (newRoom deps m s.world.rooms) p))) :
    Atomic deps m s (stateAfter (MatchmakingPool.handle deps.pool m s)) := by
  obtain ⟨hworld, hstore⟩ := @handled deps _ _ h
  rw [handle_succeeds hmissing hrun] at hworld hstore
  constructor
  · intro p hp
    left
    rw [hworld]
    apply seated_of_told hfound _ rfl hp
    rw [hrooms]
    exact List.mem_append_right _ (List.mem_singleton.mpr rfl)
  · intro p hp notice _
    rw [hstore, List.append_nil]
    exact returning_absent h hp
  · intro hfailed
    obtain ⟨e, venue'', hfail⟩ := hfailed
    rw [hrun] at hfail
    cases hfail

/-- An attempt to provision a match keeps its promise exactly when nobody had to be rejected and
nothing raised after the room was listed. The pool hands a match over only once nobody it holds
shares an id or a user with its participants (`returning_of_store`, `returning_of_pending`). -/
theorem provisioning_atomic_iff :
    Atomic deps m s (stateAfter (MatchmakingPool.handle deps.pool m s)) ↔
      Clean deps m s.world := by
  by_cases hmissing : ProvisionMatchRoom.missing m = []
  · cases provisionRoom_cases deps m s.world with
    | inl hfirst =>
      obtain ⟨hraises, e, hrun⟩ := hfirst
      rw [atomic_of_first h hmissing hrun]
      simp [Clean, hmissing, hraises]
    | inr hrest =>
      cases hrest with
      | inl hlater =>
        obtain ⟨hfirst, hraises, e, venue', hrun, hrooms⟩ := hlater
        have hno := not_atomic_of_later h hmissing hrun hrooms
        simp [Clean, hno, hfirst, hraises]
      | inr hclean =>
        obtain ⟨hfirst, hlater, venue', hrun, hrooms, hfound⟩ := hclean
        have hyes := atomic_of_success h hmissing hrun hrooms hfound
        simp [Clean, hyes, hmissing, hfirst, hlater]
  · have hno := @not_atomic_of_missing deps _ _ h hmissing
    simp [Clean, hno, hmissing]

end Attempt

/-- Rooms whose provisioning raises at one call, the same for every match. -/
def raisingAt (step : ProvisionStep) : ProvisionMatchRoomDeps where
  now n := 1000 * n
  newMatchId n := String.ofList (List.replicate n 'm')
  nextRoomId rooms := rooms.length + 1
  unusedName taken := if taken "mm00000" then "mm00001" else "mm00000"
  newPassword _ := "0000000"
  raises _ step' := if step' = step then some ⟨"socket closed"⟩ else none

/-- Two visitors whose sessions say that they search. -/
def paired : Match where
  id := "m"
  format := .tcg
  mode := .ranked
  rated := true
  opponentKind := .human
  participants := [visitor 0 "alice" none, visitor 1 "bob" none]

def waitingRoom : Venue where
  lobby := (Lobby.empty.setSession "alice" { Session.fresh with queueState := .queued }).setSession
    "bob" { Session.fresh with queueState := .queued }
  rooms := []
  found := []
  admitted := []
  bots := []

theorem paired_returning : Returning (PoolState.initial waitingRoom) paired.participants where
  store := InMemoryPoolStore.empty_valid
  ids := by decide +kernel
  users := by decide +kernel
  waiting := by
    intro p _ pending hpending
    cases hpending

/-- A room that cannot be created sends both back to the pool. -/
theorem provisioning_atomic_iff_create :
    Atomic (raisingAt .create) paired (PoolState.initial waitingRoom)
      (stateAfter (MatchmakingPool.handle (raisingAt .create).pool paired
        (PoolState.initial waitingRoom))) := by
  apply (provisioning_atomic_iff paired_returning).mpr
  refine ⟨by decide +kernel, Or.inl ⟨Or.inr rfl, ?_⟩⟩
  intro p hp
  cases List.mem_pair.mp hp with
  | inl hp =>
    rw [hp]
    change (waitingRoom.lobby.session "alice").queueState = .queued
    decide +kernel
  | inr hp =>
    rw [hp]
    change (waitingRoom.lobby.session "bob").queueState = .queued
    decide +kernel

/-- When the second FOUND raises, the room stays listed. -/
theorem provisioning_not_atomic :
    ¬ Atomic (raisingAt (.found "bob")) paired (PoolState.initial waitingRoom)
      (stateAfter (MatchmakingPool.handle (raisingAt (.found "bob")).pool paired
        (PoolState.initial waitingRoom))) := by
  intro h
  exact absurd (h.unlisted ⟨_, _, rfl⟩) (by decide +kernel)

end Provisioning

end EdoproServer.Matchmaking
