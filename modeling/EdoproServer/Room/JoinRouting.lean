import EdoproServer.Room.Reconnection

namespace EdoproServer.Room
open Lib

/-! ## What a join asks for -/

/-- What the server knows of the tokens of a command. -/
structure TokenRules where
  toLowerCase : List Char → List Char
  isRecognizedToken : List Char → Bool

/-- What a join says before any room is chosen: the two segments of its password field, its player
info and its connection. -/
structure JoinContext where
  command : String
  password : String
  request : JoinRequest

/-- The characters that `trim` removes. -/
def isWhitespace (c : Char) : Bool :=
  c.toNat ∈ [0x9, 0xA, 0xB, 0xC, 0xD, 0x20, 0xA0, 0x1680, 0x2000, 0x2001, 0x2002, 0x2003, 0x2004,
    0x2005, 0x2006, 0x2007, 0x2008, 0x2009, 0x200A, 0x2028, 0x2029, 0x202F, 0x205F, 0x3000, 0xFEFF]

def trim (token : List Char) : List Char :=
  ((token.dropWhile isWhitespace).reverse.dropWhile isWhitespace).reverse

namespace JoinContext

variable (rules : TokenRules) (ctx : JoinContext)

/-- The tokens of the command, the empty ones left out. -/
def tokens : List (List Char) :=
  ((ctx.command.toList.splitOn ',').map (fun token => rules.toLowerCase (trim token))).filter
    (· ≠ [])

/-- A bare command whose tokens are all known. -/
def isPairingJoin : Bool :=
  ctx.password = "" && ctx.command ≠ "" && ctx.tokens rules ≠ [] &&
    (ctx.tokens rules).all (fun token => rules.isRecognizedToken token || token = "casual".toList)

/-- Neither a ticket nor a PIN came with the join. -/
def isGuestJoiner : Bool := ctx.request.socket.resolvedUserId.isNone && !ctx.request.hasPin

end JoinContext

/-! ## The rooms a join may be routed to -/

/-- A room of the room list, by the name and the password it was created under. -/
structure ListedRoom extends HostedRoom where
  name : String
  password : String

namespace ListedRoom

variable (listed : ListedRoom) (ctx : JoinContext)

def hasFreeSeat : Bool := (listed.room.calculatePlace listed.cfg).isSome

/-- Whether some seat may be reclaimed under the name of the joiner, its identity apart. -/
def isPairingReconnectRoutingEligible : Bool :=
  listed.room.players.any (listed.room.isReconnectEligibleSeat listed.cfg ctx.request)

/-- What `findPairingReconnectTarget` looks for. -/
def isReconnectTarget : Bool :=
  listed.name = ctx.command && listed.password = "" && listed.room.duelState ≠ .waiting &&
    listed.isPairingReconnectRoutingEligible ctx

/-- What `findJoinableByName` looks for, with the options of a pairing join. -/
def isJoinable : Bool :=
  listed.name = ctx.command && listed.room.duelState = .waiting && listed.hasFreeSeat &&
    listed.password = "" && !(ctx.isGuestJoiner && listed.cfg.league.isRanked)

end ListedRoom

/-- Which league a room is born into, from how its host created it. -/
def RoomLeague.determine (casual : Bool) (rankedOverride : Option Bool) (hasPin : Bool) :
    RoomLeague :=
  if casual then .casual
  else
    match rankedOverride with
    | some true => .verified
    | some false => .casual
    | none => if hasPin then .external else .casual

/-- What a new room takes from elsewhere: an unused id, if one was found, the configuration that
its options stand for, unless two rules match one option, and what rooms share. -/
structure RoomHost where
  unusedId : Option Nat
  configure : List (List Char) → Option RoomConfig
  outside : Outside

/-- Where a join is routed to. -/
inductive Routed where
  | existing (listed : ListedRoom)
  | created (listed : ListedRoom)

/-- The room list after a join was routed. -/
def Routed.roomList (rooms : List ListedRoom) : Routed → List ListedRoom
  | .existing _ => rooms
  | .created listed => rooms ++ [listed]

namespace JoinContext

variable (rules : TokenRules) (host : RoomHost) (rooms : List ListedRoom) (ctx : JoinContext)
  (rankedOverride : Option Bool)

/-- The options that a room is created with. -/
def options : List (List Char) :=
  ((rules.toLowerCase ctx.command.toList).splitOn ',').map trim

/-- The configuration of an ordinary room. -/
def configured (id : Nat) (hostInfo : RoomConfig) : RoomConfig :=
  { hostInfo with
    id := id
    createdBySocketId := ctx.request.socket.id
    league := .determine ("casual".toList ∈ ctx.options rules) rankedOverride ctx.request.hasPin
    hasPassword := ctx.password ≠ ""
    isMatchmaking := false
    reservedUserIds := []
    reservedDuel := none }

/-- Raises without an unused id or with options that match two rules. -/
def createRoom : Option ListedRoom := do
  let id ← host.unusedId
  let hostInfo ← host.configure (ctx.options rules)
  let cfg := ctx.configured rules rankedOverride id hostInfo
  return { cfg := cfg, room := YGOProRoom.create cfg host.outside, name := ctx.command,
           password := ctx.password }

/-- A pairing join goes back to a running room first, then to a waiting one, and creates its own
otherwise. Any other join takes the room of its name and password. -/
def findOrCreateRoom : Option Routed :=
  if ctx.isPairingJoin rules then
    match rooms.find? (fun listed => listed.isReconnectTarget ctx) with
    | some listed => some (.existing listed)
    | none =>
      match rooms.find? (fun listed => listed.isJoinable ctx) with
      | some listed => some (.existing listed)
      | none => (ctx.createRoom rules host rankedOverride).map .created
  else
    match rooms.find? (fun listed =>
        listed.name = ctx.command && listed.password = ctx.password) with
    | some listed => some (.existing listed)
    | none => (ctx.createRoom rules host rankedOverride).map .created

/-- The room of an answered join is in the room list from then on. -/
theorem routed_mem {routed : Routed}
    (h : ctx.findOrCreateRoom rules host rooms rankedOverride = some routed) :
    ∃ listed ∈ routed.roomList rooms, routed = .existing listed ∨ routed = .created listed := by
  unfold findOrCreateRoom at h
  split at h
  · split at h
    · rename_i listed hfind
      cases h
      exact ⟨listed, List.mem_of_find?_eq_some hfind, .inl rfl⟩
    · split at h
      · rename_i listed hfind
        cases h
        exact ⟨listed, List.mem_of_find?_eq_some hfind, .inl rfl⟩
      · obtain ⟨listed, _, rfl⟩ := Option.map_eq_some_iff.mp h
        exact ⟨listed, by simp [Routed.roomList], .inr rfl⟩
  · split at h
    · rename_i listed hfind
      cases h
      exact ⟨listed, List.mem_of_find?_eq_some hfind, .inl rfl⟩
    · obtain ⟨listed, _, rfl⟩ := Option.map_eq_some_iff.mp h
      exact ⟨listed, by simp [Routed.roomList], .inr rfl⟩

end JoinContext

namespace YGOProRoom

variable {cfg : RoomConfig} {room : YGOProRoom} {request : JoinRequest} {account : Option UserId}

/-! ## The door of a running room -/

/-- The identity that the door binds a seat to. A casual room asks for none. -/
def joinerUserId (cfg : RoomConfig) (request : JoinRequest) (account : Option UserId) :
    Option UserId :=
  if cfg.ranked then (resolveCredential request account).userId else none

/-- The seat that the door of a running room gives back to a joiner, once its identity is known. -/
def reseat (cfg : RoomConfig) (room : YGOProRoom) (request : JoinRequest)
    (account : Option UserId) : Option ClientRef :=
  if room.joinable && room.reservationAdmits cfg request.socket then
    room.findMidDuelReconnectingPlayer cfg request (joinerUserId cfg request account)
  else none

/-- A join that meets nobody at the mutex. -/
def joinInputs (cfg : RoomConfig) (request : JoinRequest) (account : Option UserId) :
    List RoomInput :=
  if cfg.ranked then [.join request, .grant, .answered account] else [.join request, .grant]

theorem step_join (hdoor : (room.joinable && room.reservationAdmits cfg request.socket) = true)
    (hrunning : room.duelState ≠ .waiting) :
    room.step cfg (.join request) =
      room.enqueue { born := room.epoch, work := .reconnect room.duelState request } := by
  rw [Bool.and_eq_true] at hdoor
  simp [step, calls, hdoor.1, handleJoin, hdoor.2, hrunning, performAll, perform]

theorem dequeue_enqueue (hqueue : room.queue = []) (work : Deferred Work) :
    (room.enqueue work).perform cfg .dequeue = room := by
  have hsame : { room with queue := [] } = room := by rw [← hqueue]
  simpa [perform, enqueue, hqueue] using hsame

theorem release_hold (hheld : room.held = none) (lookup : Deferred Lookup) :
    (room.perform cfg (.hold lookup)).perform cfg .release = room := by
  have hsame : { room with held := none } = room := by rw [← hheld]
  simpa [perform] using hsame

/-- The granted section of a join looks at the room as it was before it was queued. -/
theorem step_grant (phase : DuelState) (hqueue : room.queue = []) (hheld : room.held = none) :
    (room.enqueue { born := room.epoch, work := .reconnect phase request }).step cfg .grant =
      performAll (perform cfg) room
        (room.runExclusive cfg room.epoch (.reconnect phase request)) := by
  have hcalls : (room.enqueue { born := room.epoch, work := .reconnect phase request }).calls cfg
      .grant = .dequeue :: room.runExclusive cfg room.epoch (.reconnect phase request) := by
    simp only [calls, enqueue, hheld, hqueue, Option.isSome_none, Bool.false_eq_true, if_false,
      List.nil_append, grant]
    rfl
  rw [step, hcalls, performAll_cons, dequeue_enqueue hqueue]

/-- Behind the mutex the door gives back the seat it finds and puts everyone else in the stands. -/
theorem joined_eq (hdoor : (room.joinable && room.reservationAdmits cfg request.socket) = true)
    (hrunning : room.duelState ≠ .waiting) (hqueue : room.queue = []) (hheld : room.held = none) :
    (joinInputs cfg request account).foldl (step cfg) room =
      performAll (perform cfg) room (room.reconnectJoiner cfg room.duelState request
        (joinerUserId cfg request account)) := by
  unfold joinInputs joinerUserId
  split
  · rename_i hranked
    rw [List.foldl_cons, step_join hdoor hrunning, List.foldl_cons, step_grant _ hqueue hheld,
      List.foldl_cons, List.foldl_nil, runExclusive, if_pos hranked, performAll_cons,
      performAll_nil]
    change performAll (perform cfg) ((room.perform cfg (.hold _)).perform cfg .release) _ = _
    rw [release_hold hheld]
    rfl
  · rename_i hcasual
    rw [List.foldl_cons, step_join hdoor hrunning, List.foldl_cons, step_grant _ hqueue hheld,
      List.foldl_nil, runExclusive, if_neg hcasual]

/-- A closed door leaves everyone's connection alone. -/
theorem joined_closed {c : ClientRef} (hlt : c < room.nextClient)
    (hdoor : (room.joinable && room.reservationAdmits cfg request.socket) = false)
    (hqueue : room.queue = []) (hheld : room.held = none) :
    (((joinInputs cfg request account).foldl (step cfg) room).client c).socket =
      (room.client c).socket := by
  have hjoin : ∀ room' : YGOProRoom, room'.queue = [] → room'.held = none →
      (∀ account, room'.step cfg (.answered account) = room') ∧ room'.step cfg .grant = room' := by
    intro room' hqueue' hheld'
    constructor
    · intro account'
      simp [step, calls, hheld']
    · simp [step, calls, hheld', hqueue']
  have hcalls : room.calls cfg (.join request) = [] ∨
      room.calls cfg (.join request) = [.closeSocket request.socket.id] := by
    cases hjoinable : room.joinable with
    | false => exact .inl (by simp [calls, hjoinable])
    | true =>
      rw [hjoinable, Bool.true_and] at hdoor
      exact .inr (by simp [calls, hjoinable, handleJoin, hdoor])
  have hstep : (room.step cfg (.join request)).queue = [] ∧
      (room.step cfg (.join request)).held = none ∧
      ((room.step cfg (.join request)).client c).socket = (room.client c).socket := by
    rw [step]
    cases hcalls with
    | inl hnone => simp [hnone, hqueue, hheld]
    | inr hclose =>
      rw [hclose]
      exact ⟨hqueue, hheld, socket_performAll hlt (by simp)⟩
  obtain ⟨hqueue', hheld', hsocket⟩ := hstep
  obtain ⟨hanswered, hgrant⟩ := hjoin _ hqueue' hheld'
  unfold joinInputs
  split
  · simpa [hgrant, hanswered] using hsocket
  · simpa [hgrant] using hsocket

theorem socket_reconnectClient {c : ClientRef} (hlt : c < room.nextClient) (socket : Socket)
    {calls : List Call} (h : ∀ call ∈ calls, ∀ other, call ≠ .reconnect c other) :
    ((performAll (perform cfg) room (room.reconnectClient c socket ++ calls)).client c).socket =
      socket := by
  rw [reconnectClient, List.cons_append, performAll_cons, socket_performAll, socket_reconnect]
  · exact hlt.trans_le (nextClient_le _)
  · intro call hcall other he
    cases List.mem_append.mp hcall with
    | inl hold =>
      subst he
      revert hold
      split_ifs
      · simp
      · simp
    | inr hrest => exact h call hrest other he

/-- A joiner who meets nobody at the mutex of a running room ends up on the connection of exactly
the seat that the door gives back. -/
theorem joined_socket (hknown : ClientsKnown room) (hrunning : room.duelState ≠ .waiting)
    (hqueue : room.queue = []) (hheld : room.held = none) {c : ClientRef} (hc : c ∈ room.players)
    (hnew : (room.client c).socket ≠ request.socket) :
    (((joinInputs cfg request account).foldl (step cfg) room).client c).socket = request.socket ↔
      room.reseat cfg request account = some c := by
  have hlt : c < room.nextClient := hknown.allocated.player hc
  cases hdoor : room.joinable && room.reservationAdmits cfg request.socket with
  | false =>
    rw [joined_closed hlt hdoor hqueue hheld, reseat, hdoor]
    simp [hnew]
  | true =>
    rw [joined_eq hdoor hrunning hqueue hheld, reseat, if_pos hdoor, reconnectJoiner]
    cases hfind : room.findMidDuelReconnectingPlayer cfg request
        (joinerUserId cfg request account) with
    | none =>
      dsimp only
      rw [socket_performAll hlt (by simp)]
      simp [hnew]
    | some p =>
      dsimp only
      constructor
      · intro hsocket
        by_cases hp : p = c
        · rw [hp]
        · have hsame : ((performAll (perform cfg) room (room.reconnectClient p request.socket ++
              if room.duelState = .sideDecking then [.flag p .reconnected] else [])).client
                c).socket = (room.client c).socket := by
            apply socket_performAll hlt
            intro call hcall socket he
            subst he
            revert hcall
            unfold reconnectClient
            split_ifs
            all_goals simp [Ne.symm hp]
          exact absurd (hsame.symm.trans hsocket) hnew
      · intro he
        cases he
        apply socket_reconnectClient hlt
        split_ifs
        · simp
        · simp

end YGOProRoom

/-! ## Where a pairing join may end -/

namespace ListedRoom

/-- A running room without a password whose door gives the joiner a seat back. -/
def HoldsSeat (listed : ListedRoom) (ctx : JoinContext) (account : Option UserId) : Prop :=
  listed.name = ctx.command ∧ listed.password = "" ∧ listed.room.duelState ≠ .waiting ∧
    (listed.room.reseat listed.cfg ctx.request account).isSome = true

/-- A ranked league rejects guests, and everyone whose ticket or PIN was not accepted is one. -/
def rejects (listed : ListedRoom) (ctx : JoinContext) (account : Option UserId) : Bool :=
  listed.cfg.league.isRanked &&
    decide (YGOProRoom.resolveCredential ctx.request account = .guest)

/-- A waiting room without a password that has a seat for the joiner and does not reject it. -/
def TakesJoiner (listed : ListedRoom) (ctx : JoinContext) (account : Option UserId) : Prop :=
  listed.name = ctx.command ∧ listed.password = "" ∧ listed.room.duelState = .waiting ∧
    listed.hasFreeSeat = true ∧ listed.rejects ctx account = false

/-- A waiting room of the same command without clients. -/
def IsNewFor (listed : ListedRoom) (ctx : JoinContext) : Prop :=
  listed.name = ctx.command ∧ listed.password = ctx.password ∧
    ∃ outside, listed.room = YGOProRoom.create listed.cfg outside

end ListedRoom

/-- A joiner comes back to a listed room that holds its seat. If there is none, it waits in a
listed room that takes it. If there is none either, it gets a room of its own. -/
def WellRouted (rooms : List ListedRoom) (ctx : JoinContext) (account : Option UserId) :
    Option Routed → Prop
  | none => False
  | some (.existing listed) => listed ∈ rooms ∧ (listed.HoldsSeat ctx account ∨
      (∀ other ∈ rooms, ¬ other.HoldsSeat ctx account) ∧ listed.TakesJoiner ctx account)
  | some (.created listed) => (∀ other ∈ rooms, ¬ other.HoldsSeat ctx account) ∧
      (∀ other ∈ rooms, ¬ other.TakesJoiner ctx account) ∧ listed.IsNewFor ctx

/-- The first running room with a seat under the name of the joiner gives one back. Where no room
has such a seat, the first room it would wait in does not reject it, and where it would wait in
none, a room can be created. -/
def RouteHolds (rules : TokenRules) (host : RoomHost) (rooms : List ListedRoom) (ctx : JoinContext)
    (rankedOverride : Option Bool) (account : Option UserId) : Prop :=
  match rooms.find? (fun listed => listed.isReconnectTarget ctx) with
  | some listed => (listed.room.reseat listed.cfg ctx.request account).isSome = true
  | none =>
    match rooms.find? (fun listed => listed.isJoinable ctx) with
    | some listed => listed.rejects ctx account = false
    | none => (ctx.createRoom rules host rankedOverride).isSome = true

namespace ListedRoom

variable {listed : ListedRoom} {ctx : JoinContext} {account : Option UserId}

theorem isReconnectTarget_iff : listed.isReconnectTarget ctx = true ↔
    listed.name = ctx.command ∧ listed.password = "" ∧ listed.room.duelState ≠ .waiting ∧
      listed.isPairingReconnectRoutingEligible ctx = true := by
  simp [isReconnectTarget, and_assoc]

theorem isJoinable_iff : listed.isJoinable ctx = true ↔
    listed.name = ctx.command ∧ listed.password = "" ∧ listed.room.duelState = .waiting ∧
      listed.hasFreeSeat = true ∧ (ctx.isGuestJoiner && listed.cfg.league.isRanked) = false := by
  simp only [isJoinable, Bool.and_eq_true, decide_eq_true_eq, Bool.not_eq_true']
  constructor
  · intro h
    obtain ⟨⟨⟨⟨hname, hwaiting⟩, hseat⟩, hpassword⟩, hleague⟩ := h
    exact ⟨hname, hpassword, hwaiting, hseat, hleague⟩
  · intro h
    obtain ⟨hname, hpassword, hwaiting, hseat, hleague⟩ := h
    exact ⟨⟨⟨⟨hname, hwaiting⟩, hseat⟩, hpassword⟩, hleague⟩

/-- The door only gives back seats that the routing predicate sees. -/
theorem HoldsSeat.isReconnectTarget (h : listed.HoldsSeat ctx account) :
    listed.isReconnectTarget ctx = true := by
  obtain ⟨hname, hpassword, hrunning, hseat⟩ := h
  obtain ⟨c, hc⟩ := Option.isSome_iff_exists.mp hseat
  refine isReconnectTarget_iff.mpr ⟨hname, hpassword, hrunning, ?_⟩
  unfold YGOProRoom.reseat YGOProRoom.findMidDuelReconnectingPlayer at hc
  split at hc
  · split at hc
    · cases hc
    · have hfound := List.find?_some hc
      rw [Bool.and_eq_true] at hfound
      exact List.any_eq_true.mpr ⟨c, List.mem_of_find?_eq_some hc, hfound.1⟩
  · cases hc

/-- In a casual room that lets the joiner in, the routing predicate and the door agree. -/
theorem reseat_isSome_of_casual (hcasual : listed.cfg.ranked = false)
    (hdoor : (listed.room.joinable &&
      listed.room.reservationAdmits listed.cfg ctx.request.socket) = true)
    (hwatch : ctx.request.socket.watchForRoomId ≠ some listed.cfg.id) :
    (listed.room.reseat listed.cfg ctx.request account).isSome =
      listed.isPairingReconnectRoutingEligible ctx := by
  rw [YGOProRoom.reseat, if_pos hdoor, YGOProRoom.findMidDuelReconnectingPlayer, if_neg hwatch,
    YGOProRoom.findReconnectingPlayer, List.isSome_find?, isPairingReconnectRoutingEligible]
  simp only [hcasual, Bool.not_false, Bool.true_or, Bool.and_true]

/-- Who carries neither ticket nor PIN is a guest, whatever is looked up. -/
theorem resolveCredential_guest (h : ctx.isGuestJoiner = true) :
    YGOProRoom.resolveCredential ctx.request account = .guest := by
  simp only [JoinContext.isGuestJoiner, Bool.and_eq_true, Option.isNone_iff_eq_none,
    Bool.not_eq_true'] at h
  simp [YGOProRoom.resolveCredential, h.1, h.2]

theorem TakesJoiner.isJoinable (h : listed.TakesJoiner ctx account) :
    listed.isJoinable ctx = true := by
  obtain ⟨hname, hpassword, hwaiting, hseat, hleague⟩ := h
  refine isJoinable_iff.mpr ⟨hname, hpassword, hwaiting, hseat, ?_⟩
  cases hguest : ctx.isGuestJoiner with
  | false => rfl
  | true =>
    simpa [rejects, resolveCredential_guest hguest] using hleague

end ListedRoom

namespace JoinContext

variable {rules : TokenRules} {host : RoomHost} {rooms : List ListedRoom} {ctx : JoinContext}
  {rankedOverride : Option Bool} {account : Option UserId}

theorem createRoom_isNewFor {listed : ListedRoom}
    (h : ctx.createRoom rules host rankedOverride = some listed) : listed.IsNewFor ctx := by
  simp only [createRoom, Option.bind_eq_bind, Option.bind_eq_some_iff, Option.pure_def,
    Option.some.injEq] at h
  obtain ⟨id, _, hostInfo, _, rfl⟩ := h
  exact ⟨rfl, rfl, host.outside, rfl⟩

/-- Who is sent to a running room gets a seat back there. -/
theorem wellRouted_running {listed : ListedRoom}
    (h : WellRouted rooms ctx account (some (.existing listed)))
    (hrunning : listed.room.duelState ≠ .waiting) :
    (listed.room.reseat listed.cfg ctx.request account).isSome = true := by
  cases h.2 with
  | inl hholds => exact hholds.2.2.2
  | inr htakes => exact absurd htakes.2.2.2.1 hrunning

theorem not_wellRouted_of_running {routed : Option Routed} {listed : ListedRoom}
    (hrouted : routed = some (.existing listed)) (hrunning : listed.room.duelState ≠ .waiting)
    (hreseat : (listed.room.reseat listed.cfg ctx.request account).isSome = false) :
    ¬ WellRouted rooms ctx account routed := by
  intro h
  rw [hrouted] at h
  exact Bool.false_ne_true (hreseat.symm.trans (wellRouted_running h hrunning))

/-- Who is sent to a waiting room is not rejected there. -/
theorem wellRouted_waiting {listed : ListedRoom}
    (h : WellRouted rooms ctx account (some (.existing listed)))
    (hwaiting : listed.room.duelState = .waiting) : listed.rejects ctx account = false := by
  cases h.2 with
  | inl hholds => exact absurd hwaiting hholds.2.2.1
  | inr htakes => exact htakes.2.2.2.2.2

/-- A pairing join is routed well exactly when the door of the running room it is sent to gives a
seat back, and the waiting room it is sent to otherwise does not reject it. -/
theorem well_routed_iff (rules : TokenRules) (host : RoomHost) (rooms : List ListedRoom)
    (ctx : JoinContext) (rankedOverride : Option Bool) (account : Option UserId)
    (hpairing : ctx.isPairingJoin rules = true) :
    WellRouted rooms ctx account (ctx.findOrCreateRoom rules host rooms rankedOverride) ↔
      RouteHolds rules host rooms ctx rankedOverride account := by
  rw [findOrCreateRoom, if_pos hpairing, RouteHolds]
  cases htarget : rooms.find? (fun listed => listed.isReconnectTarget ctx) with
  | some listed =>
    have hmem := List.mem_of_find?_eq_some htarget
    have hfound : listed.isReconnectTarget ctx = true := by simpa using List.find?_some htarget
    obtain ⟨hname, hpassword, hrunning, _⟩ := ListedRoom.isReconnectTarget_iff.mp hfound
    constructor
    · exact fun h => wellRouted_running h hrunning
    · intro hseat
      exact ⟨hmem, .inl ⟨hname, hpassword, hrunning, hseat⟩⟩
  | none =>
    have hnone : ∀ other ∈ rooms, ¬ other.HoldsSeat ctx account := by
      intro other hother hholds
      exact List.find?_eq_none.mp htarget other hother hholds.isReconnectTarget
    cases hjoinable : rooms.find? (fun listed => listed.isJoinable ctx) with
    | some listed =>
      have hmem := List.mem_of_find?_eq_some hjoinable
      have hfound : listed.isJoinable ctx = true := by simpa using List.find?_some hjoinable
      obtain ⟨hname, hpassword, hwaiting, hseat, _⟩ := ListedRoom.isJoinable_iff.mp hfound
      constructor
      · exact fun h => wellRouted_waiting h hwaiting
      · intro hleague
        exact ⟨hmem, .inr ⟨hnone, hname, hpassword, hwaiting, hseat, hleague⟩⟩
    | none =>
      have hfull : ∀ other ∈ rooms, ¬ other.TakesJoiner ctx account := by
        intro other hother htakes
        exact List.find?_eq_none.mp hjoinable other hother htakes.isJoinable
      dsimp only
      cases hcreated : ctx.createRoom rules host rankedOverride with
      | none => simp [WellRouted]
      | some listed =>
        simp only [Option.map_some, Option.isSome_some, iff_true]
        exact ⟨hnone, hfull, createRoom_isNewFor hcreated⟩

/-! ## A stranger with the name of a player -/

/-- Rules that know one token. -/
def onlyTcg : TokenRules :=
  { toLowerCase := List.map Char.toLower, isRecognizedToken := fun token => token = "tcg".toList }

def noHosting : RoomHost :=
  { unusedId := none, configure := fun _ => none,
    outside := { closedSockets := [], tokens := .empty, minted := 0 } }

/-- A ranked room in its first duel. -/
def rankedDuel : ListedRoom :=
  { cfg := YGOProRoom.rankedRoom
    room := YGOProRoom.after YGOProRoom.rankedRoom
      (YGOProRoom.membersReady ++ YGOProRoom.duelBegins)
    name := "tcg"
    password := "" }

/-- Someone without an account joins under the name of a player. -/
def namesake : JoinContext :=
  { command := "tcg", password := "", request := YGOProRoom.guest 9 "A" }

theorem namesake_pairs : namesake.isPairingJoin onlyTcg = true := by decide +kernel

theorem well_routed_iff_namesake :
    WellRouted [rankedDuel] namesake none
        (namesake.findOrCreateRoom onlyTcg noHosting [rankedDuel] none) ↔
      RouteHolds onlyTcg noHosting [rankedDuel] namesake none none :=
  well_routed_iff onlyTcg noHosting [rankedDuel] namesake none none (by decide +kernel)

theorem namesake_routed : namesake.findOrCreateRoom onlyTcg noHosting [rankedDuel] none =
    some (.existing rankedDuel) := by
  have htarget : rankedDuel.isReconnectTarget namesake = true := by decide +kernel
  have hfind : [rankedDuel].find? (fun listed => listed.isReconnectTarget namesake) =
      some rankedDuel := List.find?_cons_of_pos htarget
  rw [findOrCreateRoom, if_pos namesake_pairs, hfind]

/-- The stranger is sent into the running duel, whose door has no seat for it. -/
theorem namesake_spectates :
    ¬ ∀ (rules : TokenRules) (host : RoomHost) (rooms : List ListedRoom) (ctx : JoinContext)
      (rankedOverride : Option Bool) (account : Option UserId),
      ctx.isPairingJoin rules = true →
        WellRouted rooms ctx account (ctx.findOrCreateRoom rules host rooms rankedOverride) := by
  intro h
  have hreseat : (rankedDuel.room.reseat rankedDuel.cfg namesake.request none).isSome = false := by
    decide +kernel
  apply not_wellRouted_of_running namesake_routed (by decide +kernel) hreseat
  exact h onlyTcg noHosting [rankedDuel] namesake none none namesake_pairs

end JoinContext

end EdoproServer.Room
