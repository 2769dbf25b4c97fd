import EdoproServer.Room.Seats

namespace EdoproServer.Room
open Decks Lib

/-! ## The rooms of a server -/

/-- A room that was created once. It is in the room list until its teardown. -/
structure HostedRoom where
  cfg : RoomConfig
  room : YGOProRoom

/-- All rooms, and what they share. -/
structure Server where
  outside : Outside
  hosted : List HostedRoom

inductive ServerInput where
  | create (cfg : RoomConfig)
  | room (index : Nat) (input : RoomInput)

theorem YGOProRoom.ClientsKnown.sharing {room : YGOProRoom} (h : room.ClientsKnown)
    (outside : Outside) : YGOProRoom.ClientsKnown { room with toOutside := outside } :=
  ⟨h.allocated, h.movers⟩

namespace HostedRoom

def isListed (hosted : HostedRoom) : Bool := !hosted.room.finalizing

/-- The room with what all rooms share as it is now. -/
def sharing (hosted : HostedRoom) (outside : Outside) : YGOProRoom :=
  { hosted.room with toOutside := outside }

end HostedRoom

namespace Server

variable (server : Server)

/-- Whether a room in the room list has the id. -/
def usesId (id : Nat) : Bool := server.hosted.any (fun h => h.isListed && h.cfg.id = id)

def createRoom (cfg : RoomConfig) : Server :=
  if server.usesId cfg.id then server
  else
    { server with
      hosted := server.hosted ++ [{ cfg := cfg, room := YGOProRoom.create cfg server.outside }] }

/-- An input changes its room and what all rooms share. -/
def stepRoom (index : Nat) (hosted : HostedRoom) (input : RoomInput) : Server :=
  let room := (hosted.sharing server.outside).step hosted.cfg input
  { outside := room.toOutside, hosted := server.hosted.set index { hosted with room := room } }

def step (server : Server) : ServerInput → Server
  | .create cfg => server.createRoom cfg
  | .room index input =>
    match server.hosted[index]? with
    | none => server
    | some hosted => server.stepRoom index hosted input

/-- The calls of an input all meet `ok` in its room. -/
def Calls (ok : RoomConfig → YGOProRoom → Call → Prop) (server : Server) : ServerInput → Prop
  | .create _ => True
  | .room index input => ∀ h ∈ server.hosted[index]?,
      Allows (YGOProRoom.perform h.cfg) (ok h.cfg) (h.sharing server.outside)
        ((h.sharing server.outside).calls h.cfg input)

/-- A server that starts without rooms. -/
def IsNew (server : Server) : Prop :=
  server.hosted = [] ∧ server.outside.tokens = .empty

/-- The servers that a new one becomes by inputs whose calls all meet `ok`. -/
def Runs (ok : RoomConfig → YGOProRoom → Call → Prop) : Server → Prop :=
  Reached IsNew step (Calls ok)

def new : Server :=
  { outside := { closedSockets := [], tokens := .empty, minted := 0 }, hosted := [] }

def after (inputs : List ServerInput) : Server := inputs.foldl step new

theorem Runs.after {ok : RoomConfig → YGOProRoom → Call → Prop} {inputs : List ServerInput}
    (h : Allows (fun input server => step server input) (Calls ok) new inputs) :
    Runs ok (after inputs) :=
  Reached.inputs (.start ⟨rfl, rfl⟩) h

theorem runs_after (inputs : List ServerInput) : Runs (fun _ _ _ => True) (after inputs) := by
  apply Runs.after
  apply Allows.of_forall
  intro input _ server
  cases input with
  | create cfg => trivial
  | room index input => exact fun _ _ => .of_forall (fun _ _ _ => trivial)

/-! ## What holds of every room -/

variable {ok : RoomConfig → YGOProRoom → Call → Prop} {P : RoomConfig → YGOProRoom → Prop}
  {server}

theorem mem_stepRoom {index : Nat} {hosted h : HostedRoom} {input : RoomInput}
    (hmem : h ∈ (server.stepRoom index hosted input).hosted) :
    h ∈ server.hosted ∨
      h = { hosted with room := (hosted.sharing server.outside).step hosted.cfg input } :=
  List.mem_or_eq_of_mem_set hmem

theorem mem_createRoom {cfg : RoomConfig} {h : HostedRoom}
    (hmem : h ∈ (server.createRoom cfg).hosted) :
    h ∈ server.hosted ∨ h = { cfg := cfg, room := YGOProRoom.create cfg server.outside } := by
  unfold createRoom at hmem
  split at hmem
  · exact .inl hmem
  · simpa using hmem

/-- What holds of a created room, does not depend on what rooms share and is kept by every
guarded call holds of every room of a server. -/
theorem Runs.rooms (hstart : ∀ cfg outside, P cfg (YGOProRoom.create cfg outside))
    (hshare : ∀ cfg (room : YGOProRoom) outside, P cfg room →
      P cfg { room with toOutside := outside })
    (hcall : ∀ cfg pre input room call, P cfg pre → P cfg room →
      YGOProRoom.Guarded cfg pre input room call → ok cfg room call →
      P cfg (room.perform cfg call))
    (h : Runs ok server) : ∀ hosted ∈ server.hosted, P hosted.cfg hosted.room := by
  apply Reached.invariant (P := fun server => ∀ hosted ∈ server.hosted, P hosted.cfg hosted.room)
    _ _ h
  · intro s hs hosted hmem
    rw [hs.1] at hmem
    cases hmem
  · intro s input ih hok hosted hmem
    cases input with
    | create cfg =>
      cases mem_createRoom hmem with
      | inl hold => exact ih hosted hold
      | inr hnew =>
        subst hnew
        exact hstart cfg s.outside
    | room index input =>
      rw [step] at hmem
      split at hmem
      · exact ih hosted hmem
      · rename_i old hold
        cases mem_stepRoom hmem with
        | inl hsame => exact ih hosted hsame
        | inr hnew =>
          subst hnew
          have hold' := hshare _ _ s.outside (ih old (List.mem_of_getElem? hold))
          exact YGOProRoom.step_preserves (hcall old.cfg) (hok old hold) hold'

theorem Runs.clientsKnown {ok : RoomConfig → YGOProRoom → Call → Prop} (h : Runs ok server) :
    ∀ hosted ∈ server.hosted, YGOProRoom.ClientsKnown hosted.room := by
  apply Runs.rooms (P := fun _ room => YGOProRoom.ClientsKnown room) _ _ _ h
  · exact fun _ outside => YGOProRoom.create_clientsKnown outside
  · exact fun _ _ outside h => h.sharing outside
  · exact fun _ _ _ _ _ hpre hroom hguard _ =>
      YGOProRoom.clientsKnown_perform hpre hroom hguard

/-! ## A server with one room -/

/-- A server whose only room shares with nobody. -/
def hosting (cfg : RoomConfig) (room : YGOProRoom) : Server :=
  { outside := room.toOutside, hosted := [{ cfg := cfg, room := room }] }

@[simp] theorem sharing_hosting (cfg : RoomConfig) (room : YGOProRoom) :
    HostedRoom.sharing { cfg := cfg, room := room } (hosting cfg room).outside = room := rfl

theorem foldl_hosting (cfg : RoomConfig) (inputs : List RoomInput) (room : YGOProRoom) :
    (inputs.map (ServerInput.room 0)).foldl step (hosting cfg room) =
      hosting cfg (inputs.foldl (YGOProRoom.step cfg) room) := by
  induction inputs generalizing room with
  | nil => rfl
  | cons input inputs ih => exact ih (room.step cfg input)

theorem runs_hosting (cfg : RoomConfig) (inputs : List RoomInput) :
    Runs (fun _ _ _ => True) (hosting cfg (YGOProRoom.after cfg inputs)) := by
  have h := runs_after (.create cfg :: inputs.map (.room 0))
  rw [Server.after, List.foldl_cons] at h
  exact foldl_hosting cfg inputs _ ▸ h

end Server

end EdoproServer.Room
