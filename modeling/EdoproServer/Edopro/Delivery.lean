import EdoproServer.Edopro.TurnOrder
import Mathlib

namespace EdoproServer.Edopro

/-! ## Messages of the core -/

abbrev Payload := List UInt8

/-- A MESSAGE event of the core, with its data as bytes. -/
structure CoreMessage where
  data : List UInt8
  receiver : Team
  all : Bool
  cacheable : Bool
  position : Option Nat
  except : Option Team
  deriving DecidableEq, Repr

/-- A number in little-endian bytes. A number that does not fit raises a RangeError. -/
def decimalToBytesBuffer (decimal numBytes : Nat) : Option (List UInt8) :=
  if decimal < 256 ^ numBytes then
    some ((List.range numBytes).map (fun i => UInt8.ofNat (decimal / 256 ^ i)))
  else none

namespace CoreMessage

variable (message : CoreMessage)

def payload : Option Payload :=
  (decimalToBytesBuffer message.data.length 2).map (fun length => length ++ message.data)

/-- Whether the length of the data fits the two bytes it is sent in. -/
def Fits : Prop := message.data.length < 65536

/-- The data behind its length, low byte first. -/
def frame : Payload :=
  [UInt8.ofNat message.data.length, UInt8.ofNat (message.data.length / 256)] ++ message.data

theorem payload_of_fits (h : message.Fits) : message.payload = some message.frame := by
  have hlt : message.data.length < 256 ^ 2 := h
  rw [payload, decimalToBytesBuffer, if_pos hlt]
  simp [frame, List.range_succ]

theorem payload_of_not_fits (h : ¬message.Fits) : message.payload = none := by
  have hge : ¬message.data.length < 256 ^ 2 := h
  rw [payload, decimalToBytesBuffer, if_neg hge, Option.map_none]

theorem frame_header : message.frame[2]? = message.data.head? := by
  simp [frame, List.head?_eq_getElem?]

end CoreMessage

/-- What the handler of a core message does to the clients and their caches. -/
inductive DeliveryEffect where
  | sendMessage (player : Duelist) (payload : Payload)
  | setLastMessage (player : Duelist) (payload : Payload)
  | pushSpectatorCache (payload : Payload)
  deriving DecidableEq, Repr

namespace DuelRoom

section

variable (room : DuelRoom) (message : CoreMessage)

def clients : List Duelist := room.players ++ room.spectators

/-- Only game messages are cached for a player. -/
def cacheTeamMessage (team : Team) (payload : Payload) (all : Bool) (position : Option Nat) :
    List DeliveryEffect :=
  if team = .spectator then [.pushSpectatorCache payload]
  else if payload[2]? ≠ some 1 then []
  else
    match position with
    | some position =>
      (room.players.find? (fun p => p.position = position)).toList.map
        (fun p => .setLastMessage p payload)
    | none =>
      if !all then
        (room.players.find? (fun p => p.team = team && p.inTurn)).toList.map
          (fun p => .setLastMessage p payload)
      else
        (room.players.filter (fun p => p.team = team)).map (fun p => .setLastMessage p payload)

/-- The clients a message is sent to. A position of 0 counts as no position. -/
def receivers : List Duelist :=
  match message.position with
  | some (position + 1) =>
    (room.clients.find? (fun p => p.position = position + 1)).toList
  | _ =>
    match message.except with
    | some except => room.players.filter (fun p => !(p.team = except && p.inTurn))
    | none =>
      if message.all then room.clients.filter (fun p => p.team = message.receiver)
      else (room.clients.find? (fun p => p.inTurn && p.team = message.receiver)).toList

def handleCoreMessage : List DeliveryEffect :=
  match message.payload with
  | none => []
  | some payload =>
    (if message.cacheable then
      room.cacheTeamMessage message.receiver payload message.all message.position
    else []) ++
      (room.receivers message).map (fun p => .sendMessage p payload)

end

/-! ## Private messages -/

/-- A client that a message with a team and a position is addressed to. -/
def Addressed (message : CoreMessage) (position : Nat) (client : Duelist) : Prop :=
  client.team = message.receiver ∧ client.position = position

/-- A message to a position reaches the client of that team at that position and nobody else. If it
is to be cached and is a game message, it is cached for that client and for nobody else. -/
structure Private (room : DuelRoom) (message : CoreMessage) (position : Nat) : Prop where
  sent : ∀ client ∈ room.clients,
    DeliveryEffect.sendMessage client message.frame ∈ room.handleCoreMessage message ↔
      Addressed message position client
  cached : ∀ client ∈ room.clients,
    DeliveryEffect.setLastMessage client message.frame ∈ room.handleCoreMessage message ↔
      message.cacheable = true ∧ message.data.head? = some 1 ∧ Addressed message position client
  shared : DeliveryEffect.pushSpectatorCache message.frame ∉ room.handleCoreMessage message

/-- The client a message without a position, an exception or a flag for all goes to. -/
def firstInTurn (room : DuelRoom) (team : Team) : Option Duelist :=
  room.clients.find? (fun p => p.inTurn && p.team = team)

/-- Whoever sits at a position other than 0 is of the receiving team. Position 0 is not looked at,
so the other fields have to lead to that seat. -/
def SentTo (room : DuelRoom) (message : CoreMessage) : Nat → Prop
  | position + 1 =>
    ∀ client, room.clients.find? (fun p => p.position = position + 1) = some client →
      client.team = message.receiver
  | 0 =>
    match message.except with
    | some except =>
      ∀ client ∈ room.clients,
        (client ∈ room.players ∧ ¬(client.team = except ∧ client.inTurn = true)) ↔
          Addressed message 0 client
    | none =>
      ∀ client ∈ room.clients, client.team = message.receiver →
        ((message.all = true ∨ room.firstInTurn message.receiver = some client) ↔
          client.position = 0)

/-- A cached message is for a player, and whoever plays at the position is of the receiving
team. -/
def CachedFor (room : DuelRoom) (message : CoreMessage) (position : Nat) : Prop :=
  message.cacheable = true →
    message.receiver ≠ .spectator ∧
      (message.data.head? = some 1 → ∀ client ∈ room.players, client.position = position →
        client.team = message.receiver)

variable {room : DuelRoom} {message : CoreMessage} {position : Nat}

theorem mem_clients {client : Duelist} :
    client ∈ room.clients ↔ client ∈ room.players ∨ client ∈ room.spectators :=
  List.mem_append

/-- A client of a room is known by its team and position. -/
theorem eq_of_addressed {client other : Duelist} (hc : client ∈ room.clients)
    (ho : other ∈ room.clients) (hteam : client.team = other.team)
    (hposition : client.position = other.position) : client = other := by
  cases mem_clients.mp hc with
  | inl hcp =>
    cases mem_clients.mp ho with
    | inl hop => exact List.inj_on_of_nodup_map room.seats hcp hop hposition
    | inr hos => exact absurd (hteam.trans (room.watching other hos)) (room.playing client hcp)
  | inr hcs =>
    cases mem_clients.mp ho with
    | inl hop =>
      exact absurd (hteam.symm.trans (room.watching client hcs)) (room.playing other hop)
    | inr hos => exact List.inj_on_of_nodup_map room.places hcs hos hposition

theorem player_of_team {client : Duelist} (hc : client ∈ room.clients)
    (hteam : client.team ≠ .spectator) : client ∈ room.players := by
  cases mem_clients.mp hc with
  | inl hcp => exact hcp
  | inr hcs => exact absurd (room.watching client hcs) hteam

/-- A seat holds one player. -/
theorem find_seat {client : Duelist} (hc : client ∈ room.players)
    (hp : client.position = position) :
    room.players.find? (fun p => p.position = position) = some client := by
  cases hfind : room.players.find? (fun p => p.position = position) with
  | none =>
    have hno := List.find?_eq_none.mp hfind client hc
    simp [hp] at hno
  | some other =>
    have ho : other.position = position := by simpa using List.find?_some hfind
    rw [List.inj_on_of_nodup_map room.seats (List.mem_of_find?_eq_some hfind) hc
      (ho.trans hp.symm)]

/-! ### What is sent -/

theorem sendMessage_notMem_cacheTeamMessage (team : Team) (payload : Payload) (all : Bool)
    (position : Option Nat) (client : Duelist) (payload' : Payload) :
    DeliveryEffect.sendMessage client payload' ∉
      room.cacheTeamMessage team payload all position := by
  unfold cacheTeamMessage
  split
  · simp
  · split
    · simp
    · split
      · simp
      · split
        · simp
        · simp

theorem sendMessage_mem (hfits : message.Fits) (client : Duelist) :
    DeliveryEffect.sendMessage client message.frame ∈ room.handleCoreMessage message ↔
      client ∈ room.receivers message := by
  have hcache := @sendMessage_notMem_cacheTeamMessage room message.receiver message.frame
    message.all message.position client message.frame
  unfold handleCoreMessage
  rw [message.payload_of_fits hfits]
  dsimp only
  split
  · simp [hcache]
  · simp

theorem receivers_iff (hposition : message.position = some position) :
    (∀ client ∈ room.clients, client ∈ room.receivers message ↔
      Addressed message position client) ↔ room.SentTo message position := by
  cases position with
  | succ position =>
    simp only [receivers, hposition, SentTo, Option.mem_toList]
    constructor
    · intro h client hfind
      exact ((h client (List.mem_of_find?_eq_some hfind)).mp hfind).1
    · intro h client hc
      constructor
      · intro hfind
        have hp := List.find?_some hfind
        exact ⟨h client hfind, by simpa using hp⟩
      · intro haddressed
        cases hfind : room.clients.find? (fun p => p.position = position + 1) with
        | none =>
          have hno := List.find?_eq_none.mp hfind client hc
          simp [haddressed.2] at hno
        | some other =>
          have hp : other.position = position + 1 := by simpa using List.find?_some hfind
          rw [eq_of_addressed hc (List.mem_of_find?_eq_some hfind)
            (haddressed.1.trans (h other hfind).symm) (haddressed.2.trans hp.symm)]
  | zero =>
    simp only [receivers, hposition, SentTo]
    cases message.except with
    | some except => simp [imp_iff_not_or]
    | none =>
      cases hall : message.all with
      | true =>
        simp only [if_true, List.mem_filter, decide_eq_true_eq, true_or, true_iff]
        constructor
        · intro h client hc hteam
          exact ((h client hc).mp ⟨hc, hteam⟩).2
        · intro h client hc
          exact ⟨fun hsent => ⟨hsent.2, h client hc hsent.2⟩, fun ha => ⟨hc, ha.1⟩⟩
      | false =>
        simp only [Bool.false_eq_true, if_false, Option.mem_toList, false_or]
        constructor
        · intro h client hc hteam
          refine (h client hc).trans ⟨fun ha => ha.2, fun hp => ⟨hteam, hp⟩⟩
        · intro h client hc
          constructor
          · intro hfind
            have hp := List.find?_some hfind
            simp only [Bool.and_eq_true, decide_eq_true_eq] at hp
            exact ⟨hp.2, (h client hc hp.2).mp hfind⟩
          · exact fun ha => (h client hc ha.1).mpr ha.2

/-! ### What is cached -/

theorem mem_cacheTeamMessage (hfits : message.Fits) {effect : DeliveryEffect}
    (heffect : ∀ client, effect ≠ .sendMessage client message.frame) :
    effect ∈ room.handleCoreMessage message ↔
      message.cacheable = true ∧
        effect ∈ room.cacheTeamMessage message.receiver message.frame message.all
          message.position := by
  unfold handleCoreMessage
  rw [message.payload_of_fits hfits]
  have hsent : effect ∉ (room.receivers message).map
      (fun p => DeliveryEffect.sendMessage p message.frame) := by
    intro hmem
    obtain ⟨client, -, hc⟩ := List.mem_map.mp hmem
    exact heffect client hc.symm
  dsimp only
  split
  · rename_i hcacheable
    simp [hsent, hcacheable]
  · rename_i hcacheable
    simp [hsent, hcacheable]

theorem shared_iff (hfits : message.Fits) :
    DeliveryEffect.pushSpectatorCache message.frame ∉ room.handleCoreMessage message ↔
      (message.cacheable = true → message.receiver ≠ .spectator) := by
  rw [mem_cacheTeamMessage hfits (by simp), not_and]
  apply imp_congr_right
  intro _
  unfold cacheTeamMessage
  by_cases hreceiver : message.receiver = .spectator
  · simp [hreceiver]
  · rw [if_neg hreceiver]
    have hnone : ∀ players : List Duelist, DeliveryEffect.pushSpectatorCache message.frame ∉
        players.map (fun p => DeliveryEffect.setLastMessage p message.frame) := by
      simp
    constructor
    · exact fun _ => hreceiver
    · intro _
      split
      · simp
      · split
        · exact hnone _
        · split
          · exact hnone _
          · exact hnone _

theorem setLastMessage_mem (hfits : message.Fits) (hposition : message.position = some position)
    (hreceiver : message.cacheable = true → message.receiver ≠ .spectator) (client : Duelist) :
    DeliveryEffect.setLastMessage client message.frame ∈ room.handleCoreMessage message ↔
      message.cacheable = true ∧ message.data.head? = some 1 ∧
        room.players.find? (fun p => p.position = position) = some client := by
  rw [mem_cacheTeamMessage hfits (by simp)]
  apply and_congr_right
  intro hcacheable
  unfold cacheTeamMessage
  rw [if_neg (hreceiver hcacheable), message.frame_header, hposition]
  by_cases hgame : message.data.head? = some 1
  · simp [hgame]
  · simp [hgame]

theorem cached_iff (hfits : message.Fits) (hposition : message.position = some position)
    (hreceiver : message.cacheable = true → message.receiver ≠ .spectator) :
    (∀ client ∈ room.clients,
      DeliveryEffect.setLastMessage client message.frame ∈ room.handleCoreMessage message ↔
        message.cacheable = true ∧ message.data.head? = some 1 ∧
          Addressed message position client) ↔ room.CachedFor message position := by
  simp only [setLastMessage_mem hfits hposition hreceiver]
  constructor
  · intro h hcacheable
    refine ⟨hreceiver hcacheable, ?_⟩
    intro hgame client hc hp
    have hclient := h client (mem_clients.mpr (Or.inl hc))
    exact (hclient.mp ⟨hcacheable, hgame, find_seat hc hp⟩).2.2.1
  · intro h client hc
    apply and_congr_right
    intro hcacheable
    apply and_congr_right
    intro hgame
    obtain ⟨hplayers, hteam⟩ := h hcacheable
    constructor
    · intro hfind
      have hp : client.position = position := by simpa using List.find?_some hfind
      exact ⟨hteam hgame client (List.mem_of_find?_eq_some hfind) hp, hp⟩
    · intro ha
      exact find_seat (player_of_team hc (by rw [ha.1]; exact hplayers)) ha.2

theorem private_iff_of_fits (hfits : message.Fits) (hposition : message.position = some position) :
    room.Private message position ↔
      room.SentTo message position ∧ room.CachedFor message position := by
  constructor
  · intro h
    have hsent := receivers_iff hposition |>.mp fun client hc =>
      (sendMessage_mem hfits client).symm.trans (h.sent client hc)
    have hreceiver := (shared_iff hfits).mp h.shared
    exact ⟨hsent, (cached_iff hfits hposition hreceiver).mp h.cached⟩
  · intro h
    obtain ⟨hsent, hcached⟩ := h
    have hreceiver : message.cacheable = true → message.receiver ≠ .spectator :=
      fun hc => (hcached hc).1
    constructor
    · intro client hc
      exact (sendMessage_mem hfits client).trans ((receivers_iff hposition).mpr hsent client hc)
    · exact (cached_iff hfits hposition hreceiver).mpr hcached
    · exact (shared_iff hfits).mpr hreceiver

/-- A message that does not fit its length is not handled at all. -/
theorem private_iff_of_not_fits (hfits : ¬message.Fits) :
    room.Private message position ↔
      ∀ client ∈ room.clients, ¬Addressed message position client := by
  have hnothing : room.handleCoreMessage message = [] := by
    simp [handleCoreMessage, message.payload_of_not_fits hfits]
  constructor
  · intro h client hc ha
    have hsent := (h.sent client hc).mpr ha
    simp [hnothing] at hsent
  · intro h
    constructor
    · intro client hc
      simp [hnothing, h client hc]
    · intro client hc
      simp [hnothing, h client hc]
    · simp [hnothing]

/-- A message with a team and a position reaches, and is cached for, exactly the client of that team
at that position if and only if its fields lead to that client. -/
theorem private_iff (room : DuelRoom) (message : CoreMessage) (position : Nat)
    (hposition : message.position = some position) :
    room.Private message position ↔
      (message.Fits → room.SentTo message position ∧ room.CachedFor message position) ∧
        (¬message.Fits → ∀ client ∈ room.clients, ¬Addressed message position client) := by
  by_cases hfits : message.Fits
  · rw [private_iff_of_fits hfits hposition]
    simp [hfits]
  · rw [private_iff_of_not_fits hfits]
    simp [hfits]

/-! ### Refreshed fields -/

/-- The messages that show a returning player the field: the core names the seat the server asked
for. -/
def refreshMessage (player : Duelist) (data : List UInt8) : CoreMessage :=
  { data := data, receiver := player.team, all := false, cacheable := false,
    position := some player.position, except := none }

/-- The seat of a player comes before any place in the stands with its number. -/
theorem find_client {player : Duelist} (hp : player ∈ room.players) :
    room.clients.find? (fun p => p.position = player.position) = some player := by
  rw [clients, List.find?_append, find_seat hp rfl]
  rfl

theorem firstInTurn_eq (hd : (room.players.map Duelist.client).Nodup) {player : Duelist}
    (hp : player ∈ room.players) (hturn : OneInTurn room.players player.team)
    (hin : player.inTurn = true) : room.firstInTurn player.team = some player := by
  unfold firstInTurn
  cases hfind : room.clients.find? (fun p => p.inTurn && p.team = player.team) with
  | none =>
    have hno := List.find?_eq_none.mp hfind player (mem_clients.mpr (Or.inl hp))
    simp [hin] at hno
  | some first =>
    have hfirst := List.find?_some hfind
    simp only [Bool.and_eq_true, decide_eq_true_eq] at hfirst
    have hplayer : first ∈ room.players :=
      player_of_team (List.mem_of_find?_eq_some hfind)
        (by rw [hfirst.2]; exact room.playing player hp)
    have hclient := hturn first hplayer player hp hfirst.2 rfl hfirst.1 hin
    rw [List.inj_on_of_nodup_map hd hplayer hp hclient]

/-- A returning player's field is private unless the player sits on position 0 and a teammate is in
turn. -/
theorem refresh_private_iff (hd : (room.players.map Duelist.client).Nodup) {player : Duelist}
    (hp : player ∈ room.players) (hturn : OneInTurn room.players player.team) {data : List UInt8}
    (hfits : data.length < 65536) :
    room.Private (refreshMessage player data) player.position ↔
      player.position ≠ 0 ∨ player.inTurn = true := by
  have hclient := mem_clients.mpr (Or.inl hp)
  have hcached : room.CachedFor (refreshMessage player data) player.position := by
    intro hcacheable
    cases hcacheable
  have hsent : room.SentTo (refreshMessage player data) player.position ↔
      player.position ≠ 0 ∨ player.inTurn = true := by
    cases hposition : player.position with
    | succ position =>
      refine iff_of_true ?_ (Or.inl (Nat.succ_ne_zero position))
      intro client hfind
      rw [← hposition, find_client hp, Option.some.injEq] at hfind
      rw [← hfind]
      rfl
    | zero =>
      simp only [SentTo, refreshMessage, Bool.false_eq_true, false_or, ne_eq, not_true_eq_false]
      constructor
      · intro h
        have hfirst := List.find?_some ((h player hclient rfl).mpr hposition)
        simp only [Bool.and_eq_true] at hfirst
        exact hfirst.1
      · intro hin client hc hteam
        rw [firstInTurn_eq hd hp hturn hin, Option.some.injEq]
        constructor
        · intro hsame
          rw [← hsame, hposition]
        · intro hzero
          exact eq_of_addressed hclient hc hteam.symm (hposition.trans hzero.symm)
  have hfits : (refreshMessage player data).Fits := hfits
  rw [private_iff_of_fits hfits rfl, hsent]
  exact and_iff_left hcached

/-! ### Two against two -/

/-- The second player of the first team is in turn. -/
def tagRoom : DuelRoom :=
  { players := [⟨0, .player, 0, 1, false⟩, ⟨1, .player, 1, 0, true⟩, ⟨2, .opponent, 2, 0, true⟩,
      ⟨3, .opponent, 3, 1, false⟩]
    spectators := []
    playing := by decide
    watching := nobody_watching
    seats := by decide
    places := no_places }

/-- The field of the player who returns to position 1. -/
theorem private_iff_tagRoom :
    tagRoom.Private (refreshMessage ⟨1, .player, 1, 0, true⟩ [1, 6]) 1 := by
  apply (private_iff tagRoom (refreshMessage ⟨1, .player, 1, 0, true⟩ [1, 6]) 1 rfl).mpr
  have hfits : (refreshMessage ⟨1, .player, 1, 0, true⟩ [1, 6]).Fits := by
    unfold CoreMessage.Fits
    decide
  refine ⟨fun _ => ⟨?_, ?_⟩, fun hlong => absurd hfits hlong⟩
  · intro client hfind
    have hclient : client = ⟨1, .player, 1, 0, true⟩ := Option.some.inj (hfind.symm.trans rfl)
    rw [hclient]
    rfl
  · intro hcacheable
    cases hcacheable

/-- The field of the player who returns to position 0 is shown to the teammate in turn. -/
theorem position0_shown_to_teammate :
    DeliveryEffect.sendMessage ⟨1, .player, 1, 0, true⟩
        (refreshMessage ⟨0, .player, 0, 1, false⟩ [1, 6]).frame ∈
      tagRoom.handleCoreMessage (refreshMessage ⟨0, .player, 0, 1, false⟩ [1, 6]) ∧
    ¬tagRoom.Private (refreshMessage ⟨0, .player, 0, 1, false⟩ [1, 6]) 0 := by
  have hshown : DeliveryEffect.sendMessage ⟨1, .player, 1, 0, true⟩
      (refreshMessage ⟨0, .player, 0, 1, false⟩ [1, 6]).frame ∈
        tagRoom.handleCoreMessage (refreshMessage ⟨0, .player, 0, 1, false⟩ [1, 6]) := by
    decide
  refine ⟨hshown, ?_⟩
  intro h
  have haddressed := (h.sent ⟨1, .player, 1, 0, true⟩ (by decide)).mp hshown
  exact absurd haddressed.2 (by decide)

end DuelRoom

end EdoproServer.Edopro
