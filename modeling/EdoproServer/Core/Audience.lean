import EdoproServer.Core.Duel
import EdoproServer.Lib.Lockstep

namespace EdoproServer.Core
open Lib

/-! ## What an audience sees -/

inductive Audience where
  | TEAM0
  | TEAM1
  | SPECTATORS
  deriving DecidableEq, Repr

namespace Audience

def number : Audience → UInt8
  | TEAM0 => 0
  | TEAM1 => 1
  | SPECTATORS => Core.SPECTATORS

/-- The raw messages and the replay go no further than the server. -/
def sees (a : Audience) : CoreLine → Bool
  | .CORE _ _ _ => false
  | .REPLAY _ => false
  | .MESSAGE line => line.except.isSome || line.receiver = some a.number
  | _ => true

def view (a : Audience) (lines : List CoreLine) : List CoreLine := lines.filter a.sees

end Audience

/-! ## What an audience may not tell apart -/

/-- Queries of cards whose public bytes are the same: the same query, or two cards that are not
revealed. -/
def PublicAlike (query query' : Option Query) : Prop :=
  query = query' ∨ Option.Rel QuerySerializer.Unrevealed query query'

/-- The types whose cards are stripped for everybody. -/
def everyoneStripped : List UInt8 :=
  [MSG_SHUFFLE_HAND, MSG_SHUFFLE_EXTRA, MSG_SET, MSG_MOVE, MSG_SPSUMMONING, MSG_DRAW, MSG_TAG_SWAP]

open MessageTargets in
/-- What goes to one team only. -/
def toOneTeam : List MessageTargets :=
  [MSG_DIST_TYPE_SPECIFIC_TEAM_DUELIST_STRIPPED, MSG_DIST_TYPE_SPECIFIC_TEAM_DUELIST,
    MSG_DIST_TYPE_SPECIFIC_TEAM]

section

variable (config : Config) (a : Audience)

/-- The masked message, as the audience gets it. -/
def maskForAudience (message : CardMessage) : CardMessage :=
  match a with
  | .SPECTATORS => (message.maskFor 0).maskFor 1
  | _ => message.maskFor (get_swapped_team config a.number)

/-- A prompt asks one of the two players. -/
def AsksPlayer (message : Bytes) : Prop :=
  ∀ type receptor, message[0]? = some type → does_message_required_answer type = true →
    get_team_message_receptor message = some receptor → receptor ≤ 1

/-- Two messages of one kind for one team, which is not the audience's. A team may learn every hint
about its next selection, for a retry shows it the last one whoever that was for. -/
structure ForOthers (message message' : Bytes) (type : UInt8) (target : MessageTargets)
    (receptor : UInt8) : Prop where
  type_eq : message[0]? = some type
  type_eq' : message'[0]? = some type
  target_eq : get_message_target message = some target
  target_eq' : get_message_target message' = some target
  one : target ∈ toOneTeam
  receptor_eq : get_team_message_receptor message = some receptor
  receptor_eq' : get_team_message_receptor message' = some receptor
  other : get_swapped_team config receptor ≠ a.number
  hint : type = MSG_HINT → message[1]? = message'[1]?
  selection : type = MSG_HINT → message[1]? = some 3 → a = .SPECTATORS

/-- Messages the audience may not tell apart: the same message; messages for everybody that are the
same once the cards are masked; or messages of one kind for one other team. -/
inductive SameMessage : Bytes → Bytes → Prop
  | same {message : Bytes} (asks : AsksPlayer message) : SameMessage message message
  | masked {message message' : CardMessage} (kind : message.type ∈ everyoneStripped)
      (same : maskForAudience config a message = maskForAudience config a message') :
      SameMessage message.encode message'.encode
  | forOthers {message message' : Bytes} {type receptor : UInt8} {target : MessageTargets}
      (others : ForOthers config a message message' type target receptor)
      (asks : AsksPlayer message)
      (choice : target = .MSG_DIST_TYPE_SPECIFIC_TEAM_DUELIST_STRIPPED →
        ∃ card : CardMessage, message' = card.encode) :
      SameMessage message message'

/-- Answers about the cards of a player: whoever sees all of them gets the same bytes, and the others
the same public queries. -/
structure SameAnswer {α : Type} (con : UInt8) (read : Bytes → Option α) (publicly : α → α → Prop)
    (buffer buffer' : Bytes) : Prop where
  reads : ∀ value, read buffer = some value →
    ∃ value', read buffer' = some value' ∧ publicly value value'
  own : get_swapped_team config con = a.number → buffer = buffer'

variable {σ : Type} (order : QueryDeserializer.OperandOrder) (api : OCGApi σ)

/-- States of the engine that the audience may not tell apart, whatever the engine does next. -/
structure Unwinding (same : σ → σ → Prop) : Prop where
  startDuel : ∀ {s s'}, same s s' → same (api.startDuel s) (api.startDuel s')
  process : ∀ {s s'}, same s s' →
    (api.process s).1 = (api.process s').1 ∧ same (api.process s).2 (api.process s').2
  getMessage : ∀ {s s'}, same s s' → same (api.getMessage s).2 (api.getMessage s').2 ∧
    ∀ messages, parseMessages (api.getMessage s).1 = some messages →
      ∃ messages', parseMessages (api.getMessage s').1 = some messages' ∧
        List.Forall₂ (SameMessage config a) messages messages'
  duelQueryCount : ∀ {s s'}, same s s' → api.duelQueryCount s = api.duelQueryCount s'
  duelQuery : ∀ {s s'}, same s s' → ∀ query, SameAnswer config a query.con
    QueryDeserializer.deserialize PublicAlike (api.duelQuery s query) (api.duelQuery s' query)
  duelQueryLocation : ∀ {s s'}, same s s' → ∀ query, SameAnswer config a query.con
    (QueryDeserializer.deserializeLocationQuery order) (List.Forall₂ PublicAlike)
    (api.duelQueryLocation s query) (api.duelQueryLocation s' query)
  duelQueryField : ∀ {s s'}, same s s' → api.duelQueryField s = api.duelQueryField s'

/-- The same command, or responses after which the engine's states are still the same. -/
def SameCommand (same : σ → σ → Prop) : CoreCommand → CoreCommand → Prop
  | .RESPONSE replier message, .RESPONSE replier' message' =>
    replier = replier' ∧
      ∀ s s', same s s' → same (api.setResponse s message) (api.setResponse s' message')
  | command, command' => command = command'

/-- What the audience may not tell apart of the core: it has seen the same lines, and what a retry
would show it is the same. -/
structure Alike (same : σ → σ → Prop) (d d' : Duel σ) : Prop where
  duel : same d.duel d'.duel
  replier : d.replier = d'.replier
  player : d.replier ≠ SPECTATORS
  request : d.replier = a.number → d.lastRequest = d'.lastRequest
  hint : a ≠ .SPECTATORS → d.lastHint = d'.lastHint
  timer : d.timer = d'.timer
  readings : d.readings = d'.readings
  written : a.view d.written = a.view d'.written

end

/-! ## Messages that look alike are handled alike -/

/-- The types after which something is asked for. -/
def queriedTypes : List UInt8 :=
  [MSG_DRAW, MSG_SHUFFLE_HAND, MSG_SWAP, MSG_NEW_PHASE, MSG_CHAINED, MSG_SPSUMMONED, MSG_SUMMONED,
    MSG_FLIPSUMMONED, MSG_DAMAGE_STEP_START, MSG_DAMAGE_STEP_END, MSG_CHAIN_END, MSG_MOVE,
    MSG_TAG_SWAP, MSG_RELOAD_FIELD, MSG_SHUFFLE_EXTRA, MSG_SWAP_GRAVE_DECK, MSG_REVERSE_DECK,
    MSG_SHUFFLE_SET_CARD, MSG_POS_CHANGE]

theorem post_queries_nil {message : Bytes} {type : UInt8} (htype : message[0]? = some type)
    (h : type ∉ queriedTypes) : post_queries message = some [] := by
  simp only [queriedTypes, List.mem_cons, List.not_mem_nil, or_false, not_or] at h
  simp [post_queries, htype, h]

/-- The types of messages that begin with a player and name cards of that player. -/
def playerTypes : List UInt8 := [MSG_SHUFFLE_HAND, MSG_SHUFFLE_EXTRA, MSG_DRAW, MSG_TAG_SWAP]

theorem post_queries_player {message message' : Bytes} {type : UInt8}
    (htype : message[0]? = some type) (htype' : message'[0]? = some type)
    (hplayer : message[1]? = message'[1]?) (h : type ∈ playerTypes) :
    post_queries message = post_queries message' := by
  have hnot : ∀ type ∈ playerTypes, type ≠ MSG_SWAP ∧ type ≠ MSG_MOVE ∧ type ≠ MSG_POS_CHANGE := by
    decide +kernel
  obtain ⟨hswap, hmove, hpos⟩ := hnot type h
  simp only [post_queries, htype, htype', hplayer, Option.bind_eq_bind, Option.bind_some, hswap,
    hmove, hpos, if_false]

/-- The code of a card that moved is not read. -/
theorem post_queries_move {body body' : Bytes} (h : body.drop 4 = body'.drop 4) :
    post_queries (MSG_MOVE :: body) = post_queries (MSG_MOVE :: body') := by
  simp +decide only [post_queries, List.getElem?_cons_zero, Option.bind_eq_bind, Option.bind_some,
    if_false, if_true, List.drop_succ_cons, h]

theorem player_maskFor (message : CardMessage) (team : UInt8) (h : message.type ∈ playerTypes) :
    (message.maskFor team).encode[1]? = message.encode[1]? := by
  cases message with
  | shuffle extra player cards rest => rfl
  | draw player cards rest => rfl
  | tagSwap player incoming rest => rfl
  | other type body hnot => rfl
  | _ => simp +decide [CardMessage.type] at h

/-- What is asked for depends on where cards are, and not on their codes. -/
theorem post_queries_maskFor (message : CardMessage) (team : UInt8) :
    post_queries (message.maskFor team).encode = post_queries message.encode := by
  have htype : (message.maskFor team).encode[0]? = some message.type :=
    congrArg some (DrawCardHandler.maskFor_type message team)
  by_cases hplayer : message.type ∈ playerTypes
  · exact post_queries_player htype rfl (player_maskFor message team hplayer) hplayer
  by_cases hqueried : message.type ∈ queriedTypes
  · cases message with
    | move card rest =>
      refine post_queries_move ?_
      change ((card.hide _).encode Path.encode ++ rest).drop 4 =
        (card.encode Path.encode ++ rest).drop 4
      rw [Entry.encode_hide, Entry.encode]
      rfl
    | other type body h => rfl
    | shuffle extra player cards rest =>
      cases extra <;> simp +decide [CardMessage.type] at hplayer
    | _ => simp +decide [CardMessage.type] at hqueried hplayer
  · rw [post_queries_nil htype hqueried]
    exact (post_queries_nil rfl hqueried).symm

theorem pre_queries_eq {message message' : Bytes} {type : UInt8} (htype : message[0]? = some type)
    (htype' : message'[0]? = some type) (h : type ≠ MSG_FLIPSUMMONING) :
    pre_queries message = pre_queries message' := by
  simp [pre_queries, htype, htype', h]

theorem get_swapped_team_get_swapped_team (config : Config) (team : UInt8) :
    get_swapped_team config (get_swapped_team config team) = team := by
  simp [get_swapped_team]

/-- The types of what goes to one team. -/
def specificTypes : List UInt8 :=
  cardChoices ++ plainPrompts ++
    [MSG_ANNOUNCE_CARD_FILTER, MSG_MISSED_EFFECT, MSG_HINT, MSG_CONFIRM_CARDS]

open MessageTargets in
theorem type_of_oneTeam {message : Bytes} {type : UInt8} {target : MessageTargets}
    (htype : message[0]? = some type) (htarget : get_message_target message = some target)
    (one : target ∈ toOneTeam) : type ∈ specificTypes := by
  by_contra hnot
  simp only [specificTypes, List.mem_append, List.mem_cons, List.not_mem_nil, or_false,
    not_or] at hnot
  obtain ⟨⟨hcard, hplain⟩, hfilter, hmissed, hhint, hconfirm⟩ := hnot
  simp only [get_message_target, htype, Option.bind_eq_bind, Option.bind_some, hcard, if_false,
    List.mem_append, hplain, List.mem_cons, hfilter, hmissed, List.not_mem_nil, or_false,
    hhint, hconfirm] at htarget
  split at htarget
  · cases htarget
    simp [toOneTeam] at one
  · cases htarget
    simp [toOneTeam] at one

section

variable {config : Config} {a : Audience}

/-- What two messages agree on that look alike, but for what goes out. -/
structure Agree (config : Config) (a : Audience) (message message' : Bytes) : Prop where
  type_eq : message[0]? = message'[0]?
  player_eq : ∀ type ∈ [MSG_WIN, MSG_TAG_SWAP, MSG_HINT], message[0]? = some type →
    message[1]? = message'[1]?
  receptor_eq : ∀ type, message[0]? = some type → does_message_required_answer type = true →
    get_team_message_receptor message = get_team_message_receptor message'
  asks : AsksPlayer message
  own : ∀ type receptor, message[0]? = some type → does_message_required_answer type = true →
    get_team_message_receptor message = some receptor →
      get_swapped_team config receptor = a.number → message = message'
  selection : message[0]? = some MSG_HINT → message[1]? = some 3 → a ≠ .SPECTATORS →
    message = message'
  pre_eq : pre_queries message = pre_queries message'
  post_eq : post_queries message = post_queries message'

theorem Agree.refl {message : Bytes} (asks : AsksPlayer message) :
    Agree config a message message where
  type_eq := rfl
  player_eq := fun _ _ _ => rfl
  receptor_eq := fun _ _ _ => rfl
  asks := asks
  own := fun _ _ _ _ _ _ => rfl
  selection := fun _ _ _ => rfl
  pre_eq := rfl
  post_eq := rfl

theorem maskForAudience_type (message : CardMessage) :
    (maskForAudience config a message).type = message.type := by
  cases a with
  | SPECTATORS => exact (DrawCardHandler.maskFor_type _ _).trans (DrawCardHandler.maskFor_type _ _)
  | _ => exact DrawCardHandler.maskFor_type _ _

theorem post_queries_maskForAudience (message : CardMessage) :
    post_queries (maskForAudience config a message).encode = post_queries message.encode := by
  cases a with
  | SPECTATORS => exact (post_queries_maskFor _ _).trans (post_queries_maskFor _ _)
  | _ => exact post_queries_maskFor _ _

theorem player_maskForAudience (message : CardMessage) (h : message.type ∈ playerTypes) :
    (maskForAudience config a message).encode[1]? = message.encode[1]? := by
  cases a with
  | SPECTATORS =>
    have htype : (message.maskFor 0).type ∈ playerTypes :=
      (DrawCardHandler.maskFor_type message 0).symm ▸ h
    exact (player_maskFor _ _ htype).trans (player_maskFor _ _ h)
  | _ => exact player_maskFor _ _ h

/-- The types whose cards are stripped for everybody are no prompts, hints or wins. -/
theorem everyoneStripped_plain : ∀ type ∈ everyoneStripped,
    does_message_required_answer type = false ∧ type ≠ MSG_WIN ∧ type ≠ MSG_HINT ∧
      type ≠ MSG_FLIPSUMMONING := by
  decide +kernel

theorem Agree.masked {message message' : CardMessage} (kind : message.type ∈ everyoneStripped)
    (same : maskForAudience config a message = maskForAudience config a message') :
    Agree config a message.encode message'.encode := by
  have htype : message.type = message'.type := by
    rw [← maskForAudience_type message, same, maskForAudience_type]
  obtain ⟨hanswer, hwin, hhint, hflip⟩ := everyoneStripped_plain _ kind
  have hasks : ∀ type, message.encode[0]? = some type → does_message_required_answer type ≠ true := by
    intro type htype'
    cases htype'
    simp [hanswer]
  refine
    { type_eq := congrArg some htype
      player_eq := ?_
      receptor_eq := fun type h required => absurd required (hasks type h)
      asks := fun type _ h required => absurd required (hasks type h)
      own := fun type _ h required => absurd required (hasks type h)
      selection := fun h => absurd (Option.some.inj h) hhint
      pre_eq := pre_queries_eq rfl (congrArg some htype.symm) hflip
      post_eq := ?_ }
  · intro type hmem h
    have hplayer : message.type ∈ playerTypes := by
      simp only [List.mem_cons, List.not_mem_nil, or_false] at hmem
      cases h
      rcases hmem with hcase | hcase | hcase
      · exact absurd hcase hwin
      · rw [hcase]
        decide
      · exact absurd hcase hhint
    rw [← player_maskForAudience message hplayer, same,
      player_maskForAudience message' (htype ▸ hplayer)]
  · rw [← post_queries_maskForAudience message, same, post_queries_maskForAudience]

theorem specificTypes_plain : ∀ type ∈ specificTypes,
    type ≠ MSG_WIN ∧ type ≠ MSG_TAG_SWAP ∧ type ≠ MSG_FLIPSUMMONING ∧ type ∉ queriedTypes := by
  decide +kernel

theorem Agree.forOthers {message message' : Bytes} {type receptor : UInt8}
    {target : MessageTargets} (others : ForOthers config a message message' type target receptor)
    (asks : AsksPlayer message) : Agree config a message message' := by
  obtain ⟨hwin, hswap, hflip, hqueried⟩ := specificTypes_plain type
    (type_of_oneTeam others.type_eq others.target_eq others.one)
  refine
    { type_eq := others.type_eq.trans others.type_eq'.symm
      player_eq := ?_
      receptor_eq := fun _ _ _ => others.receptor_eq.trans others.receptor_eq'.symm
      asks := asks
      own := ?_
      selection := ?_
      pre_eq := pre_queries_eq others.type_eq others.type_eq' hflip
      post_eq := (post_queries_nil others.type_eq hqueried).trans
        (post_queries_nil others.type_eq' hqueried).symm }
  · intro type' hmem h
    obtain rfl : type = type' := Option.some.inj (others.type_eq.symm.trans h)
    simp only [List.mem_cons, List.not_mem_nil, or_false, hwin, hswap, false_or] at hmem
    exact others.hint hmem
  · intro _ receptor' _ _ h hown
    obtain rfl : receptor = receptor' := Option.some.inj (others.receptor_eq.symm.trans h)
    exact absurd hown others.other
  · intro h hthree hplayer
    obtain rfl : type = MSG_HINT := Option.some.inj (others.type_eq.symm.trans h)
    exact absurd (others.selection rfl hthree) hplayer

theorem SameMessage.agree {message message' : Bytes} (h : SameMessage config a message message') :
    Agree config a message message' := by
  cases h with
  | same asks => exact .refl asks
  | masked kind same => exact .masked kind same
  | forOthers others asks choice => exact .forOthers others asks

end

/-! ## Lines an audience does and does not see -/

section

variable {config : Config} {a : Audience} {σ : Type} {same : σ → σ → Prop}

theorem Alike.append {d d' : Duel σ} (h : Alike a same d d') {lines lines' : List CoreLine}
    (hview : a.view lines = a.view lines') :
    Alike a same { d with written := d.written ++ lines }
      { d' with written := d'.written ++ lines' } :=
  { h with
    written := by
      have hwritten := h.written
      unfold Audience.view at hview hwritten ⊢
      rw [List.filter_append, List.filter_append, hwritten, hview] }

theorem send_alike {line line' : CoreLine} (h : a.view [line] = a.view [line']) :
    Lockstep (Alike a same) Eq (send_message line) (send_message line') :=
  .update fun _ _ hR => hR.append h

theorem send_same (line : CoreLine) :
    Lockstep (Alike a same) Eq (send_message line) (send_message line) :=
  send_alike rfl

theorem view_unseen {line : CoreLine} (h : a.sees line = false) : a.view [line] = [] := by
  simp [Audience.view, h]

theorem send_unseen {line line' : CoreLine} (h : a.sees line = false) (h' : a.sees line' = false) :
    Lockstep (Alike a same) Eq (send_message line) (send_message line') :=
  send_alike ((view_unseen h).trans (view_unseen h').symm)

/-- Nothing happens but that lines are written which the audience does not see. -/
def Unseen (a : Audience) (x : CoreM σ PUnit) : Prop :=
  ∀ d : Duel σ, ∃ lines,
    a.view lines = [] ∧ x d = some (⟨⟩, { d with written := d.written ++ lines })

theorem Unseen.send {line : CoreLine} (h : a.sees line = false) :
    Unseen a (send_message line : CoreM σ PUnit) :=
  fun _ => ⟨[line], view_unseen h, rfl⟩

theorem Unseen.nothing : Unseen a (pure ⟨⟩ : CoreM σ PUnit) :=
  fun d => ⟨[], rfl, by rw [List.append_nil]; rfl⟩

theorem Unseen.ite {p : Prop} [Decidable p] {x y : CoreM σ PUnit} (h : Unseen a x)
    (h' : Unseen a y) : Unseen a (if p then x else y) := by
  split
  · exact h
  · exact h'

theorem Unseen.alike {x y : CoreM σ PUnit} (hx : Unseen a x) (hy : Unseen a y) :
    Lockstep (Alike a same) Eq x y := by
  intro d d' hR u t h
  obtain ⟨lines, hview, hrun⟩ := hx d
  obtain ⟨lines', hview', hrun'⟩ := hy d'
  rw [hrun] at h
  cases h
  exact ⟨⟨⟩, _, hrun', rfl, hR.append (hview.trans hview'.symm)⟩

theorem replay_alike (data data' : Bytes) :
    Lockstep (Alike a same) Eq (send_replay_message data) (send_replay_message data') :=
  send_unseen rfl rfl

theorem sees_message {line : MessageLine} (hexcept : line.except = none)
    (h : line.receiver ≠ some a.number) : a.sees (.MESSAGE line) = false := by
  simp [Audience.sees, hexcept, h]

/-- What goes to one team is either the same or not for the audience. -/
theorem message_alike {line line' : MessageLine} {team : UInt8} (hexcept : line.except = none)
    (hexcept' : line'.except = none) (hto : line.receiver = some team)
    (hto' : line'.receiver = some team) (h : team = a.number → line = line') :
    Lockstep (Alike a same) Eq (send_message (.MESSAGE line)) (send_message (.MESSAGE line')) := by
  by_cases hteam : team = a.number
  · rw [h hteam]
    exact send_same _
  · have hne : some team ≠ some a.number := fun hsome => hteam (Option.some.inj hsome)
    exact send_unseen (sees_message hexcept (hto ▸ hne)) (sees_message hexcept' (hto' ▸ hne))

theorem send_message_to_alike {team : UInt8} {cacheable all : Bool} {data data' : Bytes}
    (h : team = a.number → data = data') :
    Lockstep (Alike a same) Eq (send_message_to team cacheable all data)
      (send_message_to team cacheable all data') :=
  message_alike rfl rfl rfl rfl fun hteam => by rw [h hteam]

theorem known {α : Type} {o o' : Option α} (h : o = o') :
    Lockstep (Alike a same) (fun x y => x = y ∧ o = some x) (liftM o : CoreM σ α)
      (liftM o') :=
  .ofOption fun x hx => ⟨x, h ▸ hx, rfl, hx⟩

theorem raw_alike {message message' : Bytes} (h : message[0]? = message'[0]?) (status : Int) :
    Lockstep (Alike a same) Eq (send_raw_message message status)
      (send_raw_message message' status) :=
  (Lockstep.ofOption_eq h).bind fun _ _ _ => send_unseen rfl rfl

theorem core_replay_alike {message message' : Bytes} (h : message[0]? = message'[0]?)
    (hhint : message[0]? = some MSG_HINT → message[1]? = message'[1]?) :
    Lockstep (Alike a same) Eq (send_core_replay_message message)
      (send_core_replay_message message') := by
  refine (known h).bind ?_
  rintro type _ ⟨rfl, htype⟩
  refine .ite Iff.rfl (fun hcase => ?_) fun _ => ?_
  · refine (Lockstep.ofOption_eq (hhint (hcase ▸ htype))).bind ?_
    rintro hint _ rfl
    exact .ite Iff.rfl (fun _ => .pure rfl) fun _ => replay_alike _ _
  · exact .ite Iff.rfl (fun _ => .pure rfl) fun _ => replay_alike _ _

theorem reset_alike (limit : UInt16) :
    Lockstep (Alike a same) Eq (resetTimers limit : CoreM σ PUnit) (resetTimers limit) :=
  .update fun _ _ hR => { hR with timer := by rw [hR.timer] }

theorem now_alike (clock : Clock) :
    Lockstep (Alike a same) Eq (now clock : CoreM σ Int) (now clock) :=
  .updateGet fun _ _ hR =>
    ⟨congrArg clock hR.readings, { hR with readings := congrArg (· + 1) hR.readings }⟩

theorem expiresAfter_alike (clock : Clock) (team : UInt8) (seconds : Int) :
    Lockstep (Alike a same) Eq (expiresAfter clock team seconds : CoreM σ PUnit)
      (expiresAfter clock team seconds) := by
  refine (now_alike clock).bind ?_
  rintro time _ rfl
  exact .update fun _ _ hR => { hR with timer := by rw [hR.timer] }

theorem calculate_alike (clock : Clock) (team : UInt8) :
    Lockstep (Alike a same) Eq (calculate clock team : CoreM σ UInt16) (calculate clock team) := by
  refine .read fun d d' hR => .ite Iff.rfl (fun _ => ?_) fun _ => .undefined
  rw [hR.timer]
  exact (expiresAfter_alike clock team _).andThen (.pure rfl)

theorem reduce_alike (clock : Clock) (team : UInt8) :
    Lockstep (Alike a same) Eq (reduce clock team : CoreM σ PUnit) (reduce clock team) := by
  refine (now_alike clock).bind ?_
  rintro time _ rfl
  refine .ite Iff.rfl (fun _ => ?_) fun _ => .undefined
  exact .update fun _ _ hR => { hR with timer := by rw [hR.timer] }

/-- A retry shows the last hint and the last request to nobody but the player asked. -/
theorem ask_again_alike : Lockstep (Alike a same) Eq (ask_again : CoreM σ PUnit) ask_again := by
  refine .read fun d d' hR => ?_
  rw [← hR.replier]
  refine Lockstep.andThen ?_ (send_message_to_alike hR.request)
  by_cases hown : d.replier = a.number
  · have hplayer : a ≠ .SPECTATORS := by
      rintro rfl
      exact hR.player hown
    rw [← hR.hint hplayer]
    exact .ite Iff.rfl (fun _ => send_same _) fun _ => .pure rfl
  · have hne : some d.replier ≠ some a.number := fun hsome => hown (Option.some.inj hsome)
    exact (Unseen.ite (.send (sees_message rfl hne)) .nothing).alike
      (Unseen.ite (.send (sees_message rfl hne)) .nothing)

theorem swapped_le (hfirst : config.firstToPlay ≤ 1) {team : UInt8} (h : team ≤ 1) :
    get_swapped_team config team ≤ 1 := by
  have hcases : ∀ x : UInt8, x ≤ 1 → x = 0 ∨ x = 1 := by
    intro x hx
    rcases Nat.le_one_iff_eq_zero_or_eq_one.mp (UInt8.le_iff_toNat_le.mp hx) with hzero | hone
    · exact Or.inl (UInt8.toNat.inj hzero)
    · exact Or.inr (UInt8.toNat.inj hone)
  rw [get_swapped_team]
  rcases hcases _ hfirst with hf | hf
  · rcases hcases _ h with ht | ht <;> rw [hf, ht] <;> decide
  · rcases hcases _ h with ht | ht <;> rw [hf, ht] <;> decide

theorem swapped_ne_spectators (hfirst : config.firstToPlay ≤ 1) {team : UInt8} (h : team ≤ 1) :
    get_swapped_team config team ≠ SPECTATORS := by
  intro heq
  have hle := swapped_le hfirst h
  rw [heq] at hle
  exact absurd hle (by decide)

theorem pre_processing_alike (hfirst : config.firstToPlay ≤ 1) {message message' : Bytes}
    (h : Agree config a message message') :
    Lockstep (Alike a same) Eq (pre_processing config message : CoreM σ Bool)
      (pre_processing config message') := by
  refine (known h.type_eq).bind ?_
  rintro type _ ⟨rfl, htype⟩
  refine .ite Iff.rfl (fun _ => ask_again_alike.andThen (.pure rfl)) fun _ => ?_
  refine Lockstep.andThen ?swap (Lockstep.andThen ?hint (Lockstep.andThen ?turn
    (Lockstep.andThen ?prompt (.pure rfl))))
  case swap =>
    refine .ite Iff.rfl (fun hcase => ?_) fun _ => .pure rfl
    subst hcase
    refine (Lockstep.ofOption_eq (h.player_eq _ (by decide) htype)).bind ?_
    rintro player _ rfl
    exact send_same _
  case hint =>
    refine .ite Iff.rfl (fun hcase => ?_) fun _ => .pure rfl
    subst hcase
    refine (known (h.player_eq _ (by decide) htype)).bind ?_
    rintro hint _ ⟨rfl, hhint⟩
    refine .ite Iff.rfl (fun hthree => ?_) fun _ => .pure rfl
    subst hthree
    exact .update fun _ _ hR => { hR with hint := h.selection htype hhint }
  case turn => exact .ite Iff.rfl (fun _ => reset_alike _) fun _ => .pure rfl
  case prompt =>
    refine .ite Iff.rfl (fun hrequired => ?_) fun _ => .pure rfl
    refine (known (h.receptor_eq type htype hrequired)).bind ?_
    rintro receptor _ ⟨rfl, hreceptor⟩
    refine .update fun _ _ hR => { hR with replier := rfl, player := ?_, request := ?_ }
    · exact swapped_ne_spectators hfirst (h.asks type receptor htype hrequired hreceptor)
    · exact h.own type receptor htype hrequired hreceptor

theorem post_processing_alike (clock : Clock) {message message' : Bytes}
    (h : Agree config a message message') :
    Lockstep (Alike a same) Eq (post_processing config clock message : CoreM σ PUnit)
      (post_processing config clock message') := by
  refine (known h.type_eq).bind ?_
  rintro type _ ⟨rfl, htype⟩
  refine .ite Iff.rfl (fun hrequired => ?_) fun _ => .pure rfl
  refine .read fun d d' hR => ?_
  rw [hR.replier]
  refine (send_same _).andThen (.ite Iff.rfl (fun _ => ?_) fun _ => .pure rfl)
  refine (Lockstep.ofOption_eq (h.receptor_eq type htype hrequired)).bind ?_
  rintro receptor _ rfl
  refine (calculate_alike clock _).bind ?_
  rintro ticks _ rfl
  exact send_same _

theorem is_duel_finished_alike {message message' : Bytes} (h : Agree config a message message') :
    Lockstep (Alike a same) Eq (is_duel_finished config message : CoreM σ Bool)
      (is_duel_finished config message') := by
  refine (known h.type_eq).bind ?_
  rintro type _ ⟨rfl, htype⟩
  refine .ite Iff.rfl (fun _ => .pure rfl) fun hwin => ?_
  obtain rfl := not_not.mp hwin
  refine (Lockstep.ofOption_eq (h.player_eq _ (by decide) htype)).bind ?_
  rintro player _ rfl
  exact (send_same _).andThen (.pure rfl)

/-! ## Queries -/

theorem serialize_public {query query' : Option Query} (h : PublicAlike query query') :
    QuerySerializer.serialize query true = QuerySerializer.serialize query' true := by
  rcases h with rfl | hunrevealed
  · rfl
  · cases hunrevealed with
    | some hpair => exact QuerySerializer.serialize_congr hpair.1 hpair.2 (Or.inl rfl)
    | none => rfl

theorem serializeLocationQuery_public {queries queries' : List (Option Query)}
    (h : List.Forall₂ PublicAlike queries queries') :
    QuerySerializer.serializeLocationQuery queries true =
      QuerySerializer.serializeLocationQuery queries' true := by
  have hbytes : queries.flatMap (fun query => QuerySerializer.serialize query true) =
      queries'.flatMap (fun query => QuerySerializer.serialize query true) := by
    induction h with
    | nil => rfl
    | cons hhead _ ih => rw [List.flatMap_cons, List.flatMap_cons, serialize_public hhead, ih]
  rw [QuerySerializer.serializeLocationQuery, QuerySerializer.serializeLocationQuery, hbytes]

theorem SameAnswer.read_alike {α : Type} {con : UInt8} {read : Bytes → Option α}
    {publicly : α → α → Prop} {buffer buffer' : Bytes}
    (h : SameAnswer config a con read publicly buffer buffer') :
    Lockstep (Alike a same)
      (fun value value' =>
        publicly value value' ∧ (get_swapped_team config con = a.number → value = value'))
      (liftM (read buffer) : CoreM σ α) (liftM (read buffer')) := by
  refine .ofOption fun value hvalue => ?_
  obtain ⟨value', hvalue', hpublic⟩ := h.reads value hvalue
  refine ⟨value', hvalue', hpublic, fun hown => ?_⟩
  rw [h.own hown, hvalue'] at hvalue
  exact (Option.some.inj hvalue).symm

variable {order : QueryDeserializer.OperandOrder} {api : OCGApi σ}

theorem process_query_alike (unwinding : Unwinding config a order api same)
    (request : QueryRequest) :
    Lockstep (Alike a same) Eq (process_query config api order request)
      (process_query config api order request) := by
  cases request with
  | single query =>
    refine .read fun d d' hR => ?_
    refine (unwinding.duelQuery hR.duel query).read_alike.bind ?_
    rintro value value' ⟨hpublic, hown⟩
    have hstripped := serialize_public hpublic
    refine (replay_alike _ _).andThen ?_
    refine (message_alike rfl rfl rfl rfl fun h => by rw [hown h]).andThen ?_
    refine (message_alike rfl rfl rfl rfl fun _ => by rw [hstripped]).andThen ?_
    exact message_alike rfl rfl rfl rfl fun _ => by rw [hstripped]
  | location query =>
    refine .read fun d d' hR => ?_
    have hanswer := unwinding.duelQueryLocation hR.duel query
    refine (replay_alike _ _).andThen ?_
    refine .ite Iff.rfl (fun _ => .pure rfl) fun _ => .ite Iff.rfl (fun _ => ?_) fun _ => ?_
    · exact message_alike rfl rfl rfl rfl fun h => by rw [hanswer.own h]
    · refine hanswer.read_alike.bind ?_
      rintro queries queries' ⟨hpublic, hown⟩
      have hstripped := serializeLocationQuery_public hpublic
      refine (message_alike rfl rfl rfl rfl fun h => by rw [hown h]).andThen ?_
      refine (message_alike rfl rfl rfl rfl fun _ => by rw [hstripped]).andThen ?_
      exact message_alike rfl rfl rfl rfl fun _ => by rw [hstripped]

theorem process_queries_alike (unwinding : Unwinding config a order api same)
    (requests : List QueryRequest) :
    Lockstep (Alike a same) Eq (process_queries config api order requests)
      (process_queries config api order requests) := by
  refine .forM (List.forall₂_same.mpr fun _ _ => rfl) ?_
  rintro request _ rfl
  exact process_query_alike unwinding request

theorem refresh_query_alike (unwinding : Unwinding config a order api same)
    (position team : UInt8) (request : QueryRequest) :
    Lockstep (Alike a same) Eq (refresh_query config api order position team request)
      (refresh_query config api order position team request) := by
  cases request with
  | single query => exact .undefined
  | location query =>
    refine .read fun d d' hR => ?_
    refine (unwinding.duelQueryLocation hR.duel query).read_alike.bind ?_
    rintro queries queries' ⟨hpublic, hown⟩
    refine message_alike rfl rfl rfl rfl fun h => ?_
    by_cases hteam : team = get_swapped_team config query.con
    · rw [hown (hteam ▸ h)]
    · simp only [hteam, ne_eq, not_false_eq_true, decide_true,
        serializeLocationQuery_public hpublic]

theorem refresh_board_alike (unwinding : Unwinding config a order api same)
    (position team : UInt8) :
    Lockstep (Alike a same) Eq (refresh_board config api order position team)
      (refresh_board config api order position team) := by
  refine Lockstep.andThen ?_ (send_same _)
  refine .forM (List.forall₂_same.mpr fun _ _ => rfl) ?_
  rintro request _ rfl
  exact refresh_query_alike unwinding position team request

/-! ## Distribution -/

theorem everyoneStripped_target {message : Bytes} {type : UInt8} (htype : message[0]? = some type)
    (h : type ∈ everyoneStripped) :
    get_message_target message = some .MSG_DIST_TYPE_EVERYONE_STRIPPED := by
  have hnot : ∀ type ∈ everyoneStripped, type ∉ cardChoices ∧
      type ∉ plainPrompts ++ [MSG_ANNOUNCE_CARD_FILTER, MSG_MISSED_EFFECT] ∧ type ≠ MSG_HINT ∧
        type ≠ MSG_CONFIRM_CARDS ∧ type ∈ [MSG_SHUFFLE_HAND, MSG_SHUFFLE_EXTRA, MSG_SET, MSG_MOVE,
          MSG_SPSUMMONING, MSG_DRAW, MSG_TAG_SWAP] := by
    decide +kernel
  obtain ⟨hcard, hplain, hhint, hconfirm, hmem⟩ := hnot type h
  simp only [get_message_target, htype, Option.bind_eq_bind, Option.bind_some, if_neg hcard,
    if_neg hplain, if_neg hhint, if_neg hconfirm, if_pos hmem]
  rfl

/-- The team that the audience is gets the message as it is masked for it. -/
theorem masked_for_own {team : UInt8} (hteam : team ≤ 1) (hfirst : config.firstToPlay ≤ 1)
    {message message' : CardMessage}
    (h : maskForAudience config a message = maskForAudience config a message')
    (hown : get_swapped_team config team = a.number) :
    message.maskFor team = message'.maskFor team := by
  cases a with
  | SPECTATORS => exact absurd hown (swapped_ne_spectators hfirst hteam)
  | _ =>
    unfold maskForAudience at h
    rwa [← hown, get_swapped_team_get_swapped_team] at h

theorem handle_alike (team : UInt8) (message message' : CardMessage) :
    Lockstep (Alike a same)
      (fun data data' => data = (message.maskFor team).encode ∧
        data' = (message'.maskFor team).encode)
      (liftM (DrawCardHandler.handle team message.encode) : CoreM σ Bytes)
      (liftM (DrawCardHandler.handle team message'.encode)) := by
  refine .ofOption fun data hdata => ?_
  rw [DrawCardHandler.handle_encode] at hdata
  exact ⟨_, DrawCardHandler.handle_encode message' team, (Option.some.inj hdata).symm, rfl⟩

theorem distribute_stripped_alike (hfirst : config.firstToPlay ≤ 1)
    {message message' : CardMessage}
    (hmask : maskForAudience config a message = maskForAudience config a message') :
    Lockstep (Alike a same) Eq
      (distribute_stripped_to_everyone config message.encode : CoreM σ PUnit)
      (distribute_stripped_to_everyone config message'.encode) := by
  refine (handle_alike 0 message message').bind ?_
  rintro messageA messageA' ⟨rfl, rfl⟩
  refine (handle_alike 1 message message').bind ?_
  rintro messageB messageB' ⟨rfl, rfl⟩
  have hown : ∀ team : UInt8, team ≤ 1 → get_swapped_team config team = a.number →
      (message.maskFor team).encode = (message'.maskFor team).encode :=
    fun team hteam hown => congrArg CardMessage.encode (masked_for_own hteam hfirst hmask hown)
  refine (send_message_to_alike (hown 0 (by decide))).andThen ?_
  refine (send_message_to_alike (hown 1 (by decide))).andThen ?_
  refine (handle_alike 1 (message.maskFor 0) (message'.maskFor 0)).bind ?_
  rintro stripped stripped' ⟨rfl, rfl⟩
  refine send_message_to_alike fun h => congrArg CardMessage.encode ?_
  cases a with
  | SPECTATORS => exact hmask
  | _ => exact absurd h (by decide)

/-- What goes to another team goes there on both sides. -/
theorem ForOthers.receptor_alike {message message' : Bytes} {type receptor : UInt8}
    {target : MessageTargets} (others : ForOthers config a message message' type target receptor) :
    Lockstep (Alike a same) (fun team team' => team = receptor ∧ team' = receptor)
      (liftM (get_team_message_receptor message) : CoreM σ UInt8)
      (liftM (get_team_message_receptor message')) := by
  rw [others.receptor_eq, others.receptor_eq']
  exact .ofOption fun _ hteam => ⟨receptor, rfl, (Option.some.inj hteam).symm, rfl⟩

theorem distribute_others_alike {message message' : Bytes} {type receptor : UInt8}
    {target : MessageTargets} (others : ForOthers config a message message' type target receptor)
    (choice : target = .MSG_DIST_TYPE_SPECIFIC_TEAM_DUELIST_STRIPPED →
      ∃ card : CardMessage, message' = card.encode) :
    Lockstep (Alike a same) Eq
      (liftM (get_message_target message) >>= distribute_to config message : CoreM σ PUnit)
      (liftM (get_message_target message') >>= distribute_to config message') := by
  have hsend : ∀ (cacheable all : Bool) (data data' : Bytes), Lockstep (Alike a same) Eq
      (send_message_to (get_swapped_team config receptor) cacheable all data : CoreM σ PUnit)
      (send_message_to (get_swapped_team config receptor) cacheable all data') :=
    fun _ _ _ _ => send_message_to_alike fun hown => absurd hown others.other
  have hone := others.one
  rw [others.target_eq, others.target_eq']
  refine (known rfl).bind ?_
  rintro found _ ⟨rfl, hfound⟩
  obtain rfl := Option.some.inj hfound
  cases target with
  | MSG_DIST_TYPE_SPECIFIC_TEAM_DUELIST_STRIPPED =>
    obtain ⟨card, rfl⟩ := choice rfl
    refine others.receptor_alike.bind ?_
    rintro team team' ⟨rfl, rfl⟩
    have hstripped : Lockstep (Alike a same) (fun _ _ => True)
        (liftM (DrawCardHandler.handle team' message) : CoreM σ Bytes)
        (liftM (DrawCardHandler.handle team' card.encode)) :=
      .ofOption fun _ _ => ⟨_, DrawCardHandler.handle_encode card team', trivial⟩
    exact hstripped.bind fun stripped stripped' _ => hsend _ _ stripped stripped'
  | MSG_DIST_TYPE_SPECIFIC_TEAM_DUELIST =>
    refine others.receptor_alike.bind ?_
    rintro team team' ⟨rfl, rfl⟩
    exact hsend _ _ _ _
  | MSG_DIST_TYPE_SPECIFIC_TEAM =>
    refine others.receptor_alike.bind ?_
    rintro team team' ⟨rfl, rfl⟩
    exact hsend _ _ _ _
  | MSG_DIST_TYPE_EVERYONE_EXCEPT_TEAM_DUELIST => simp [toOneTeam] at hone
  | MSG_DIST_TYPE_EVERYONE_STRIPPED => simp [toOneTeam] at hone
  | MSG_DIST_TYPE_EVERYONE => simp [toOneTeam] at hone

theorem distribute_alike (hfirst : config.firstToPlay ≤ 1) {message message' : Bytes}
    (h : SameMessage config a message message') :
    Lockstep (Alike a same) Eq (distribute_message config message : CoreM σ PUnit)
      (distribute_message config message') := by
  refine (core_replay_alike h.agree.type_eq (h.agree.player_eq _ (by decide))).andThen ?_
  cases h with
  | masked kind hmask =>
    have htype := (Agree.masked kind hmask).type_eq.symm
    rw [everyoneStripped_target rfl kind, everyoneStripped_target htype kind]
    exact distribute_stripped_alike hfirst hmask
  | same asks =>
    refine (known rfl).bind ?_
    rintro target _ ⟨rfl, _⟩
    cases target with
    | MSG_DIST_TYPE_EVERYONE => exact send_same _
    | MSG_DIST_TYPE_EVERYONE_STRIPPED =>
      refine (Lockstep.ofOption_eq rfl).bind ?_
      rintro messageA _ rfl
      refine (Lockstep.ofOption_eq rfl).bind ?_
      rintro messageB _ rfl
      refine (send_same _).andThen ((send_same _).andThen ((Lockstep.ofOption_eq rfl).bind ?_))
      rintro stripped _ rfl
      exact send_same _
    | MSG_DIST_TYPE_SPECIFIC_TEAM_DUELIST_STRIPPED =>
      refine (Lockstep.ofOption_eq rfl).bind ?_
      rintro team _ rfl
      refine (Lockstep.ofOption_eq rfl).bind ?_
      rintro stripped _ rfl
      exact send_same _
    | _ =>
      refine (Lockstep.ofOption_eq rfl).bind ?_
      rintro team _ rfl
      exact send_same _
  | forOthers others asks choice =>
    rename_i type receptor target
    exact distribute_others_alike others choice

/-! ## The loop -/

theorem messages_alike (unwinding : Unwinding config a order api same) :
    Lockstep (Alike a same) (List.Forall₂ (SameMessage config a)) (messages api)
      (messages api) := by
  have hget : Lockstep (Alike a same)
      (fun buffer buffer' => ∀ messages, parseMessages buffer = some messages →
        ∃ messages', parseMessages buffer' = some messages' ∧
          List.Forall₂ (SameMessage config a) messages messages')
      (modifyGet fun d : Duel σ => ((api.getMessage d.duel).1,
        { d with duel := (api.getMessage d.duel).2 }))
      (modifyGet fun d : Duel σ => ((api.getMessage d.duel).1,
        { d with duel := (api.getMessage d.duel).2 })) :=
    .updateGet fun d d' hR => by
      obtain ⟨hsame, hmessages⟩ := unwinding.getMessage hR.duel
      exact ⟨hmessages, { hR with duel := hsame }⟩
  exact hget.bind fun buffer buffer' hbuffers => .ofOption hbuffers

theorem status_alike (unwinding : Unwinding config a order api same) :
    Lockstep (Alike a same) Eq (status api) (status api) :=
  .updateGet fun d d' hR => by
    obtain ⟨hstatus, hsame⟩ := unwinding.process hR.duel
    exact ⟨hstatus, { hR with duel := hsame }⟩

theorem handle_messages_alike (hfirst : config.firstToPlay ≤ 1)
    (unwinding : Unwinding config a order api same) (clock : Clock) (status : Int)
    {core_messages core_messages' : List Bytes}
    (h : List.Forall₂ (SameMessage config a) core_messages core_messages') (finished : Bool) :
    Lockstep (Alike a same) Eq
      (handle_messages config api order clock status core_messages finished)
      (handle_messages config api order clock status core_messages' finished) := by
  induction h generalizing finished with
  | nil => exact .pure rfl
  | @cons message message' rest rest' hmessage hrest ih =>
    have hagree := hmessage.agree
    refine (raw_alike hagree.type_eq status).andThen ?_
    refine (pre_processing_alike hfirst hagree).bind ?_
    rintro proceed _ rfl
    refine .ite Iff.rfl (fun _ => ?_) fun _ => ?_
    · refine (Lockstep.ofOption_eq hagree.pre_eq).bind ?_
      rintro before _ rfl
      refine (process_queries_alike unwinding before).andThen ?_
      refine (distribute_alike hfirst hmessage).andThen ?_
      refine (Lockstep.ofOption_eq hagree.post_eq).bind ?_
      rintro after _ rfl
      refine (process_queries_alike unwinding after).andThen ?_
      refine (is_duel_finished_alike hagree).bind ?_
      rintro finished _ rfl
      exact (post_processing_alike clock hagree).andThen (ih finished)
    · refine (messages_alike unwinding).bind fun _ _ _ => ?_
      refine .ite ?_ (fun _ => .pure rfl) fun _ => .undefined
      rw [← List.length_eq_zero_iff, ← List.length_eq_zero_iff, hrest.length_eq]

theorem process_alike (hfirst : config.firstToPlay ≤ 1)
    (unwinding : Unwinding config a order api same) (clock : Clock) (fuel : Nat)
    (finished : Bool) :
    Lockstep (Alike a same) Eq (process config api order clock fuel finished)
      (process config api order clock fuel finished) := by
  induction fuel generalizing finished with
  | zero => exact .undefined
  | succ fuel ih =>
    refine (status_alike unwinding).bind ?_
    rintro status _ rfl
    refine (messages_alike unwinding).bind fun core_messages core_messages' hmessages => ?_
    refine (handle_messages_alike hfirst unwinding clock status hmessages finished).bind ?_
    rintro finished _ rfl
    exact .ite Iff.rfl (fun _ => .pure rfl) fun _ => ih finished

/-! ## Commands -/

theorem set_decks_alike (unwinding : Unwinding config a order api same) :
    Lockstep (Alike a same) Eq (set_decks config api) (set_decks config api) := by
  have hmain : ∀ team, Lockstep (Alike a same) Eq (set_main_deck api team)
      (set_main_deck api team) :=
    fun _ => .read fun _ _ _ => replay_alike _ _
  have hextra : ∀ team, Lockstep (Alike a same) Eq (set_extra_deck config api team)
      (set_extra_deck config api team) := by
    refine fun team => .read fun d d' hR => (replay_alike _ _).andThen ?_
    refine message_alike rfl rfl rfl rfl fun hown => ?_
    rw [(unwinding.duelQueryLocation hR.duel _).own hown]
  exact (hmain 0).andThen ((hmain 1).andThen ((hextra 0).andThen (hextra 1)))

theorem start_alike (unwinding : Unwinding config a order api same) :
    Lockstep (Alike a same) Eq (start config api) (start config api) := by
  have hstart : Lockstep (Alike a same) Eq
      (modify fun d : Duel σ => { d with duel := api.startDuel d.duel } : CoreM σ PUnit)
      (modify fun d : Duel σ => { d with duel := api.startDuel d.duel }) :=
    .update fun _ _ hR => { hR with duel := unwinding.startDuel hR.duel }
  refine hstart.andThen ((reset_alike _).andThen (.read fun d d' hR => ?_))
  rw [unwinding.duelQueryCount hR.duel]
  exact send_same _

theorem execute_alike (hfirst : config.firstToPlay ≤ 1)
    (unwinding : Unwinding config a order api same) (clock : Clock) (fuel : Nat)
    {command command' : CoreCommand} (h : SameCommand api same command command') :
    Lockstep (Alike a same) Eq (execute config api order clock fuel command)
      (execute config api order clock fuel command') := by
  have hprocess := process_alike hfirst unwinding clock fuel false
  cases command with
  | RESPONSE replier message =>
    cases command' with
    | RESPONSE replier' message' =>
      obtain ⟨rfl, hresponse⟩ := h
      refine Lockstep.andThen ?_ hprocess
      refine (reduce_alike clock replier).andThen ?_
      exact .update fun _ _ hR => { hR with duel := hresponse _ _ hR.duel }
    | _ => exact CoreCommand.noConfusion h
  | REFRESH_FIELD position team =>
    obtain rfl : CoreCommand.REFRESH_FIELD position team = command' := h
    exact refresh_board_alike unwinding position team
  | GET_FIELD position =>
    obtain rfl : CoreCommand.GET_FIELD position = command' := h
    refine .read fun d d' hR => ?_
    rw [unwinding.duelQueryField hR.duel]
    exact send_same _
  | SET_DECKS =>
    obtain rfl : CoreCommand.SET_DECKS = command' := h
    exact (set_decks_alike unwinding).andThen hprocess
  | PROCESS =>
    obtain rfl : CoreCommand.PROCESS = command' := h
    exact hprocess

theorem main_alike (hfirst : config.firstToPlay ≤ 1)
    (unwinding : Unwinding config a order api same) (clock : Clock) (fuel : Nat)
    {commands commands' : List CoreCommand}
    (h : List.Forall₂ (SameCommand api same) commands commands') :
    Lockstep (Alike a same) Eq (main config api order clock fuel commands)
      (main config api order clock fuel commands') :=
  (start_alike unwinding).andThen
    (.forM h fun _ _ hcommand => execute_alike hfirst unwinding clock fuel hcommand)

end

/-- What an audience sees of a whole duel does not depend on what it may not tell apart: on the
cards of others that lie face-down, on what others are asked, and on how they answer. -/
theorem core_reveals_nothing {σ : Type} (config : Config) (hfirst : config.firstToPlay ≤ 1)
    (a : Audience) (order : QueryDeserializer.OperandOrder) (api : OCGApi σ) (same : σ → σ → Prop)
    (unwinding : Unwinding config a order api same) (clock : Clock) (fuel : Nat)
    (commands commands' : List CoreCommand)
    (hcommands : List.Forall₂ (SameCommand api same) commands commands')
    (d d' e : Duel σ) (alike : Alike a same d d')
    (hrun : main config api order clock fuel commands d = some (⟨⟩, e)) :
    ∃ e', main config api order clock fuel commands' d' = some (⟨⟩, e') ∧
      a.view e.written = a.view e'.written := by
  obtain ⟨_, e', hrun', _, halike⟩ :=
    main_alike hfirst unwinding clock fuel hcommands d d' alike ⟨⟩ e hrun
  exact ⟨e', hrun', halike.written⟩

def dealtCode (other : Bool) : UInt32 := if other then 89631139 else 46986414

def dealtDraw (other : Bool) : CardMessage :=
  .draw 1 ⟨[{ code := dealtCode other, info := 0x8 }], Nat.one_lt_two_pow (by decide)⟩ []

def dealtCard (other : Bool) : Query := { flags := 0x80000003, code := dealtCode other, pos := 0x8 }

/-- An engine that deals the second player one of two cards, and then waits. -/
def dealing : OCGApi Bool where
  startDuel := id
  process := fun other => (1, other)
  getMessage := fun other =>
    let message := (dealtDraw other).encode
    (writeUInt32 (UInt32.ofNat message.length) ++ message, other)
  duelQueryCount := fun _ _ _ => 40
  duelQuery := fun _ _ => []
  duelQueryLocation := fun other query =>
    if query.con = 1 then QuerySerializer.serializeLocationQuery [some (dealtCard other)] false
    else []
  duelQueryField := fun _ => []
  setResponse := fun other _ => other

def dealtDuel (other : Bool) : Duel Bool where
  duel := other
  replier := 0
  lastHint := []
  lastRequest := []
  timer := { timeRemaining := fun _ => 0, expiry := fun _ => 0 }
  readings := 0
  written := []

def dealtConfig : Config := { lp := 8000, firstToPlay := 0, timeLimit := 450 }

def dealtRun (other : Bool) : Option (PUnit × Duel Bool) :=
  main dealtConfig dealing .callFirst (fun _ => 0) 1 [.PROCESS] (dealtDuel other)

theorem dealt_messages : ∀ other,
    parseMessages (dealing.getMessage other).1 = some [(dealtDraw other).encode] := by
  decide +kernel

theorem dealt_masked : ∀ other other',
    maskForAudience dealtConfig .TEAM0 (dealtDraw other) =
      maskForAudience dealtConfig .TEAM0 (dealtDraw other') := by
  decide +kernel

theorem dealt_cards : ∀ other, QueryDeserializer.deserializeLocationQuery .callFirst
    (QuerySerializer.serializeLocationQuery [some (dealtCard other)] false) =
      some [some (dealtCard other)] := by
  decide +kernel

theorem dealing_unwinding :
    Unwinding dealtConfig .TEAM0 .callFirst dealing fun _ _ => True := by
  have hunrevealed : ∀ other other', PublicAlike (some (dealtCard other)) (some (dealtCard other')) :=
    fun other other' => Or.inr (.some
      ⟨⟨rfl, rfl, rfl, rfl, rfl, rfl, rfl, rfl, rfl, rfl, rfl, rfl⟩, by cases other <;> decide⟩)
  refine
    { startDuel := fun _ => trivial
      process := fun _ => ⟨rfl, trivial⟩
      getMessage := fun {s s'} _ => ⟨trivial, fun messages h => ?_⟩
      duelQueryCount := fun _ => rfl
      duelQuery := fun _ _ => ⟨fun value h => (nomatch h), fun _ => rfl⟩
      duelQueryLocation := fun {s s'} _ query => ⟨fun value h => ?_, fun hown => ?_⟩
      duelQueryField := fun _ => rfl }
  · rw [dealt_messages] at h
    cases h
    have hdraw : MSG_DRAW ∈ everyoneStripped := by decide
    exact ⟨_, dealt_messages s', .cons (.masked hdraw (dealt_masked s s')) .nil⟩
  · by_cases hcon : query.con = 1
    · simp only [dealing, if_pos hcon] at h ⊢
      rw [dealt_cards] at h
      cases h
      exact ⟨_, dealt_cards s', .cons (hunrevealed s s') .nil⟩
    · simp only [dealing, if_neg hcon] at h ⊢
      cases h
  · have hcon : query.con ≠ 1 := by
      rintro hcon
      rw [hcon] at hown
      exact absurd hown (by decide)
    simp only [dealing, if_neg hcon]

/-- The first player sees the same draw whichever card the second player is dealt, who does not. -/
theorem core_reveals_nothing_draw : ∃ e e',
    dealtRun true = some (⟨⟩, e) ∧ dealtRun false = some (⟨⟩, e') ∧
      Audience.TEAM0.view e.written = Audience.TEAM0.view e'.written ∧
      Audience.TEAM1.view e.written ≠ Audience.TEAM1.view e'.written := by
  have hends : (dealtRun true).isSome := by decide +kernel
  have hdiffer : (dealtRun true).map (fun r => Audience.TEAM1.view r.2.written) ≠
      (dealtRun false).map (fun r => Audience.TEAM1.view r.2.written) := by
    decide +kernel
  obtain ⟨⟨_, e⟩, hrun⟩ := Option.isSome_iff_exists.mp hends
  have halike : Alike .TEAM0 (fun _ _ => True) (dealtDuel true) (dealtDuel false) :=
    ⟨trivial, rfl, by decide, fun _ => rfl, fun _ => rfl, rfl, rfl, rfl⟩
  obtain ⟨e', hrun', hview⟩ := core_reveals_nothing dealtConfig (by decide) .TEAM0 .callFirst dealing
    (fun _ _ => True) dealing_unwinding (fun _ => 0) 1 [.PROCESS] [.PROCESS] (.cons rfl .nil)
    (dealtDuel true) (dealtDuel false) e halike hrun
  refine ⟨e, e', hrun, hrun', hview, fun h => hdiffer ?_⟩
  rw [show dealtRun true = _ from hrun, show dealtRun false = _ from hrun', Option.map_some,
    Option.map_some, h]

end EdoproServer.Core
