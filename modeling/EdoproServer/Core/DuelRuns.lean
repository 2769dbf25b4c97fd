import EdoproServer.Core.Duel
import EdoproServer.Lib.Framed
import EdoproServer.Lib.Lockstep

namespace EdoproServer.Core
open Lib

/-! ## Parts of the core that only write -/

/-- Lines that neither record a message nor show the time. -/
def Ordinary : CoreLine → Prop
  | .CORE _ _ _ => False
  | .TIME _ _ => False
  | _ => True

section

variable {σ : Type}

/-- Nothing happens but that ordinary lines are written and that the engine goes on. -/
def Sends (d e : Duel σ) : Prop :=
  ∃ lines, (∀ line ∈ lines, Ordinary line) ∧
    e = { d with duel := e.duel, written := d.written ++ lines }

instance : IsPreorder (Duel σ) Sends where
  refl d := ⟨[], by simp, by rw [List.append_nil]⟩
  trans d e f := by
    rintro ⟨lines, hlines, he⟩ ⟨lines', hlines', hf⟩
    refine ⟨lines ++ lines', fun line hmem => ?_, ?_⟩
    · rcases List.mem_append.mp hmem with h | h
      · exact hlines line h
      · exact hlines' line h
    · rw [hf, he]
      simp

theorem within_send {line : CoreLine} (h : Ordinary line) :
    Within Sends (send_message line : CoreM σ PUnit) :=
  .update fun _ => ⟨[line], by simpa using h, rfl⟩

theorem within_message (line : MessageLine) :
    Within Sends (send_message (.MESSAGE line) : CoreM σ PUnit) :=
  within_send trivial

theorem within_replay (data : Bytes) : Within Sends (send_replay_message data : CoreM σ PUnit) :=
  within_send trivial

theorem within_core_replay (message : Bytes) :
    Within Sends (send_core_replay_message message : CoreM σ PUnit) := by
  refine (Within.ofOption _).bind fun type => .ite (fun _ => ?_) fun _ => ?_
  · exact (Within.ofOption _).bind fun hint => .ite (fun _ => .pure _) fun _ => within_send trivial
  · exact .ite (fun _ => .pure _) fun _ => within_send trivial

variable (config : Config) (api : OCGApi σ) (order : QueryDeserializer.OperandOrder)

theorem within_distribute (message : Bytes) :
    Within Sends (distribute_message config message : CoreM σ PUnit) := by
  refine (within_core_replay message).andThen ((Within.ofOption _).bind fun target => ?_)
  cases target with
  | MSG_DIST_TYPE_EVERYONE => exact within_send trivial
  | MSG_DIST_TYPE_EVERYONE_STRIPPED =>
    refine (Within.ofOption _).bind fun messageA => (Within.ofOption _).bind fun messageB => ?_
    refine (within_message _).andThen ((within_message _).andThen ?_)
    exact (Within.ofOption _).bind fun _ => within_message _
  | MSG_DIST_TYPE_SPECIFIC_TEAM_DUELIST_STRIPPED =>
    refine (Within.ofOption _).bind fun team => ?_
    exact (Within.ofOption _).bind fun _ => within_send trivial
  | _ => exact (Within.ofOption _).bind fun _ => within_send trivial

theorem within_query (request : QueryRequest) :
    Within Sends (process_query config api order request) := by
  cases request with
  | single query =>
    refine .read fun d => (Within.ofOption _).bind fun duel_query => ?_
    exact (within_replay _).andThen ((within_message _).andThen
      ((within_message _).andThen (within_message _)))
  | location query =>
    refine .read fun d => (within_replay _).andThen ?_
    refine .ite (fun _ => .pure _) fun _ => .ite (fun _ => within_message _) fun _ => ?_
    refine (Within.ofOption _).bind fun queries => ?_
    exact (within_message _).andThen ((within_message _).andThen (within_message _))

theorem within_queries (requests : List QueryRequest) :
    Within Sends (process_queries config api order requests) :=
  .forM fun request _ => within_query config api order request

theorem within_finished (message : Bytes) :
    Within Sends (is_duel_finished config message : CoreM σ Bool) := by
  refine (Within.ofOption _).bind fun type => .ite (fun _ => .pure _) fun _ => ?_
  exact (Within.ofOption _).bind fun player => (within_send (by trivial)).andThen (.pure _)

theorem within_messages : Within Sends (messages api) :=
  (Within.updateGet fun _ => ⟨[], by simp, by rw [List.append_nil]⟩).bind fun _ => .ofOption _

theorem within_status : Within Sends (status api) :=
  .updateGet fun _ => ⟨[], by simp, by rw [List.append_nil]⟩

theorem within_set_decks : Within Sends (set_decks config api) := by
  have hmain : ∀ team, Within Sends (set_main_deck api team) :=
    fun _ => .read fun _ => within_send trivial
  have hextra : ∀ team, Within Sends (set_extra_deck config api team) :=
    fun _ => .read fun _ => (within_replay _).andThen (within_message _)
  exact (hmain 0).andThen ((hmain 1).andThen ((hextra 0).andThen (hextra 1)))

theorem within_refresh (position team : UInt8) :
    Within Sends (refresh_board config api order position team) := by
  refine Within.andThen (.forM fun request _ => ?_) (within_send trivial)
  cases request with
  | single query => exact .undefined
  | location query =>
    exact .read fun d => (Within.ofOption _).bind fun queries => within_message _

/-! ## What one message does -/

def receive (status : Int) (message : Bytes) : CoreM σ Bool := do
  send_raw_message message status
  pre_processing config message

/-- A relation that every part of the core stays within holds of whole runs. -/
theorem within_main {R : Duel σ → Duel σ → Prop} [IsPreorder (Duel σ) R] {clock : Clock}
    (sends : ∀ d e, Sends d e → R d e)
    (reset : Within R (resetTimers config.timeLimit : CoreM σ PUnit))
    (received : ∀ status message, Within R (receive config status message : CoreM σ Bool))
    (post : ∀ message, Within R (post_processing config clock message : CoreM σ PUnit))
    (reduced : ∀ team, Within R (reduce clock team : CoreM σ PUnit)) (fuel : Nat)
    (commands : List CoreCommand) : Within R (main config api order clock fuel commands) := by
  have hhandle : ∀ status core_messages finished,
      Within R (handle_messages config api order clock status core_messages finished) := by
    intro status core_messages
    induction core_messages with
    | nil => exact fun _ => .pure _
    | cons message rest ih =>
      intro finished
      rw [handle_messages, ← bind_assoc]
      refine (received status message).bind fun proceed => .ite (fun _ => ?_) fun _ => ?_
      · refine (Within.ofOption _).bind fun before => ?_
        refine ((within_queries config api order before).mono sends).andThen ?_
        refine ((within_distribute config message).mono sends).andThen ?_
        refine (Within.ofOption _).bind fun after => ?_
        refine ((within_queries config api order after).mono sends).andThen ?_
        refine ((within_finished config message).mono sends).bind fun finished => ?_
        exact (post message).andThen (ih finished)
      · refine ((within_messages api).mono sends).bind fun _ => ?_
        exact .ite (fun _ => .pure _) fun _ => .undefined
  have hprocess : ∀ fuel finished, Within R (process config api order clock fuel finished) := by
    intro fuel
    induction fuel with
    | zero => exact fun _ => .undefined
    | succ fuel ih =>
      intro finished
      refine ((within_status api).mono sends).bind fun status => ?_
      refine ((within_messages api).mono sends).bind fun core_messages => ?_
      refine (hhandle status core_messages finished).bind fun finished => ?_
      exact .ite (fun _ => .pure _) fun _ => ih finished
  have hengine : ∀ f : σ → σ,
      Within R (modify fun d : Duel σ => { d with duel := f d.duel } : CoreM σ PUnit) :=
    fun f => .update fun _ => sends _ _ ⟨[], by simp, by rw [List.append_nil]⟩
  refine Within.andThen ?_ (.forM fun command _ => ?_)
  · refine (hengine api.startDuel).andThen (reset.andThen (.read fun d => ?_))
    exact (within_send (by trivial)).mono sends
  · cases command with
    | REFRESH_FIELD position team => exact (within_refresh config api order position team).mono sends
    | GET_FIELD position => exact .read fun d => (within_send (by trivial)).mono sends
    | RESPONSE replier message =>
      exact ((reduced replier).andThen (hengine fun s => api.setResponse s message)).andThen
        (hprocess fuel false)
    | SET_DECKS => exact ((within_set_decks config api).mono sends).andThen (hprocess fuel false)
    | PROCESS => exact hprocess fuel false

end

/-! ## What a retry shows -/

/-- Whom the core asked last and what, and the last hint about a selection. -/
structure Memory where
  replier : UInt8
  hint : Bytes
  request : Bytes
  deriving DecidableEq, Repr

def Duel.memory {σ : Type} (d : Duel σ) : Memory :=
  { replier := d.replier, hint := d.lastHint, request := d.lastRequest }

namespace Memory

variable (config : Config)

/-- A hint about a selection is remembered, and who is asked what. -/
def after (memory : Memory) (type : UInt8) (message : Bytes) : Memory where
  replier :=
    if does_message_required_answer type then
      ((get_team_message_receptor message).map (get_swapped_team config)).getD memory.replier
    else memory.replier
  hint := if type = MSG_HINT ∧ message[1]? = some 3 then message else memory.hint
  request := if does_message_required_answer type then message else memory.request

def afterLine (memory : Memory) : CoreLine → Memory
  | .CORE type message _ => memory.after config type message
  | _ => memory

/-- What is remembered once the lines are written. -/
def afterLines (memory : Memory) (lines : List CoreLine) : Memory :=
  lines.foldl (afterLine config) memory

/-- The lines that ask again: the player asked last gets the last hint about a selection, whoever
that was for, and the last request as the engine wrote it. -/
def askedAgain (memory : Memory) : List CoreLine :=
  (if memory.hint ≠ [] then
    [.MESSAGE
      { data := 0x01 :: memory.hint, receiver := memory.replier, cacheable := false, all := false }]
  else []) ++
    [.MESSAGE
      { data := 0x01 :: memory.request, receiver := memory.replier, cacheable := false
        all := false }]

end Memory

section

variable {σ : Type} {config : Config}

theorem ask_again_eq (d : Duel σ) : (ask_again : CoreM σ PUnit) d =
    some (⟨⟩, { d with written := d.written ++ d.memory.askedAgain }) := by
  by_cases h : d.lastHint ≠ []
  · change (do
      (if d.lastHint ≠ [] then send_message_to d.replier false false d.lastHint else pure ⟨⟩)
      send_message_to d.replier false false d.lastRequest : CoreM σ PUnit) d = _
    rw [if_pos h, Memory.askedAgain, if_pos (show d.memory.hint ≠ [] from h)]
    change some (_, { d with written := (d.written ++ [_]) ++ [_] }) = _
    rw [List.append_assoc]
    rfl
  · change (do
      (if d.lastHint ≠ [] then send_message_to d.replier false false d.lastHint else pure ⟨⟩)
      send_message_to d.replier false false d.lastRequest : CoreM σ PUnit) d = _
    rw [if_neg h, Memory.askedAgain, if_neg (show ¬d.memory.hint ≠ [] from h)]
    rfl

theorem swap_cases {type : UInt8} {message : Bytes} {d e : Duel σ} {u : PUnit}
    (h : (if type = MSG_TAG_SWAP then do
        let player ← liftM message[1]?
        send_message (.SWAP (get_swapped_team config player))
      else pure ⟨⟩ : CoreM σ PUnit) d = some (u, e)) :
    ∃ lines, (∀ line ∈ lines, Ordinary line) ∧ e = { d with written := d.written ++ lines } := by
  by_cases htag : type = MSG_TAG_SWAP
  · rw [if_pos htag] at h
    obtain ⟨player, d₁, hread, hsend⟩ := bind_eq_some.mp h
    obtain ⟨-, rfl⟩ := liftM_eq_some.mp hread
    cases hsend
    exact ⟨[.SWAP (get_swapped_team config player)], by simp [Ordinary], rfl⟩
  · rw [if_neg htag] at h
    cases h
    exact ⟨[], by simp, by rw [List.append_nil]⟩

theorem hint_cases {type : UInt8} {message : Bytes} {d e : Duel σ} {u : PUnit}
    (h : (if type = MSG_HINT then do
        let hint ← liftM message[1]?
        if hint = 3 then modify fun d => { d with lastHint := message } else pure ⟨⟩
      else pure ⟨⟩ : CoreM σ PUnit) d = some (u, e)) :
    e = { d with
      lastHint := if type = MSG_HINT ∧ message[1]? = some 3 then message else d.lastHint } := by
  by_cases hcase : type = MSG_HINT
  · rw [if_pos hcase] at h
    obtain ⟨hint, d₁, hread, hset⟩ := bind_eq_some.mp h
    obtain ⟨hone, rfl⟩ := liftM_eq_some.mp hread
    by_cases hthree : hint = 3
    · rw [if_pos hthree] at hset
      cases hset
      rw [if_pos ⟨hcase, hthree ▸ hone⟩]
    · rw [if_neg hthree] at hset
      cases hset
      rw [if_neg]
      rintro ⟨-, hsome⟩
      exact hthree (Option.some.inj (hone.symm.trans hsome))
  · rw [if_neg hcase] at h
    cases h
    rw [if_neg fun hboth => hcase hboth.1]

theorem newTurn_cases {type : UInt8} {d e : Duel σ} {u : PUnit}
    (h : (if type = MSG_NEW_TURN then resetTimers config.timeLimit else pure ⟨⟩ :
      CoreM σ PUnit) d = some (u, e)) :
    ∃ timeRemaining, e = { d with timer := { d.timer with timeRemaining := timeRemaining } } ∧
      (timeRemaining = d.timer.timeRemaining ∨
        ∀ team, timeRemaining team = (config.timeLimit.toNat + GRACE_PERIOD) * 1000) := by
  by_cases hcase : type = MSG_NEW_TURN
  · rw [if_pos hcase] at h
    cases h
    exact ⟨_, rfl, Or.inr fun _ => rfl⟩
  · rw [if_neg hcase] at h
    cases h
    exact ⟨_, rfl, Or.inl rfl⟩

/-- A message that is no retry is remembered, and may start the clocks anew. -/
theorem receive_cases {status : Int} {message : Bytes} {d e : Duel σ} {proceed : Bool}
    (h : receive config status message d = some (proceed, e)) :
    ∃ type, message[0]? = some type ∧
      ((type = MSG_RETRY ∧ proceed = false ∧
        e = { d with
          written := d.written ++ .CORE type message status :: d.memory.askedAgain }) ∨
      (type ≠ MSG_RETRY ∧ proceed = true ∧ e.memory = d.memory.after config type message ∧
        e.readings = d.readings ∧ e.timer.expiry = d.timer.expiry ∧
        (e.timer.timeRemaining = d.timer.timeRemaining ∨
          ∀ team, e.timer.timeRemaining team = (config.timeLimit.toNat + GRACE_PERIOD) * 1000) ∧
        ∃ lines, (∀ line ∈ lines, Ordinary line) ∧
          e.written = d.written ++ .CORE type message status :: lines)) := by
  obtain ⟨_, d₁, hraw, hpre⟩ := bind_eq_some.mp h
  obtain ⟨type, d₀, hread, hsend⟩ := bind_eq_some.mp hraw
  obtain ⟨htype, rfl⟩ := liftM_eq_some.mp hread
  cases hsend
  obtain ⟨type', d₁, hread', hpre⟩ := bind_eq_some.mp hpre
  obtain ⟨htype', rfl⟩ := liftM_eq_some.mp hread'
  obtain rfl : type = type' := Option.some.inj (htype.symm.trans htype')
  refine ⟨type, htype, ?_⟩
  by_cases hretry : type = MSG_RETRY
  · left
    rw [if_pos hretry] at hpre
    obtain ⟨_, d₂, hask, hreturn⟩ := bind_eq_some.mp hpre
    rw [ask_again_eq] at hask
    cases hask
    cases hreturn
    refine ⟨hretry, rfl, ?_⟩
    rw [List.append_assoc]
    rfl
  · right
    rw [if_neg hretry] at hpre
    obtain ⟨_, d₂, hswap, hpre⟩ := bind_eq_some.mp hpre
    obtain ⟨_, d₃, hhint, hpre⟩ := bind_eq_some.mp hpre
    obtain ⟨_, d₄, hturn, hpre⟩ := bind_eq_some.mp hpre
    obtain ⟨_, d₅, hprompt, hreturn⟩ := bind_eq_some.mp hpre
    cases hreturn
    obtain ⟨lines, hlines, rfl⟩ := swap_cases hswap
    obtain rfl := hint_cases hhint
    obtain ⟨timeRemaining, rfl, hremaining⟩ := newTurn_cases hturn
    have hwritten : d.written ++ [.CORE type message status] ++ lines =
        d.written ++ .CORE type message status :: lines := List.append_assoc _ _ _
    by_cases hcase : does_message_required_answer type = true
    · rw [if_pos hcase] at hprompt
      obtain ⟨receptor, d₁, hread, hset⟩ := bind_eq_some.mp hprompt
      obtain ⟨hreceptor, rfl⟩ := liftM_eq_some.mp hread
      cases hset
      refine ⟨hretry, rfl, ?_, rfl, rfl, hremaining, lines, hlines, hwritten⟩
      simp [Duel.memory, Memory.after, hcase, hreceptor]
    · rw [if_neg hcase] at hprompt
      cases hprompt
      refine ⟨hretry, rfl, ?_, rfl, rfl, hremaining, lines, hlines, hwritten⟩
      simp [Duel.memory, Memory.after, hcase]

/-! ### Along a run -/

variable {first : Memory}

theorem after_retry (memory : Memory) (message : Bytes) :
    memory.after config MSG_RETRY message = memory := by
  have hplain : does_message_required_answer MSG_RETRY = false ∧ MSG_RETRY ≠ MSG_HINT := by
    decide +kernel
  simp [Memory.after, hplain]

theorem afterLines_append (l l' : List CoreLine) :
    first.afterLines config (l ++ l') = (first.afterLines config l).afterLines config l' :=
  List.foldl_append

/-- Only recorded messages are remembered. -/
theorem afterLines_unrecorded {lines : List CoreLine}
    (h : ∀ line ∈ lines, ∀ type message status, line ≠ .CORE type message status) :
    first.afterLines config lines = first := by
  induction lines with
  | nil => rfl
  | cons line lines ih =>
    have hline : first.afterLine config line = first := by
      cases line with
      | CORE type message status => exact absurd rfl (h _ List.mem_cons_self type message status)
      | _ => rfl
    change (first.afterLine config line).afterLines config lines = first
    rw [hline]
    exact ih fun line hmem => h line (List.mem_cons_of_mem _ hmem)

theorem unrecorded_of_ordinary {lines : List CoreLine} (h : ∀ line ∈ lines, Ordinary line) :
    ∀ line ∈ lines, ∀ type message status, line ≠ .CORE type message status := by
  rintro line hmem type message status rfl
  exact h _ hmem

theorem askedAgain_ordinary (memory : Memory) : ∀ line ∈ memory.askedAgain, Ordinary line := by
  intro line hmem
  unfold Memory.askedAgain at hmem
  split at hmem
  · simp only [List.mem_append, List.mem_singleton] at hmem
    rcases hmem with rfl | rfl <;> trivial
  · simp only [List.nil_append, List.mem_singleton] at hmem
    subst hmem
    trivial

theorem askedAgain_unrecorded (memory : Memory) :
    ∀ line ∈ memory.askedAgain, ∀ type message status, line ≠ .CORE type message status :=
  unrecorded_of_ordinary (askedAgain_ordinary memory)

/-- Every retry is followed by the lines that ask again. -/
def Answers (config : Config) (first : Memory) (lines : List CoreLine) : Prop :=
  ∀ before data status after, lines = before ++ .CORE MSG_RETRY data status :: after →
    (first.afterLines config before).askedAgain <+: after

theorem Answers.append {l block : List CoreLine} (h : Answers config first l)
    (hblock : ∀ before data status after,
      block = before ++ .CORE MSG_RETRY data status :: after →
        (first.afterLines config (l ++ before)).askedAgain <+: after) :
    Answers config first (l ++ block) := by
  intro before data status after heq
  rcases List.append_eq_append_iff.mp heq with ⟨more, rfl, hrest⟩ | ⟨more, hl, hrest⟩
  · exact hblock more data status after hrest
  · cases more with
    | nil =>
      rw [List.append_nil] at hl
      subst hl
      simpa using hblock [] data status after hrest.symm
    | cons line more =>
      obtain ⟨rfl, rfl⟩ := List.cons.inj hrest
      exact (h before data status more hl).trans (List.prefix_append more block)

theorem Answers.append_unrecorded {l block : List CoreLine} (h : Answers config first l)
    (hblock : ∀ line ∈ block, ∀ type message status, line ≠ .CORE type message status) :
    Answers config first (l ++ block) := by
  refine h.append fun before data status after heq => ?_
  have hmem : CoreLine.CORE MSG_RETRY data status ∈ block := by simp [heq]
  exact absurd rfl (hblock _ hmem MSG_RETRY data status)

/-- What the core remembers is what the recorded messages say. -/
structure Recalls (config : Config) (first : Memory) (d : Duel σ) : Prop where
  memory : d.memory = first.afterLines config d.written
  answers : Answers config first d.written

theorem Recalls.write {d e : Duel σ} (h : Recalls config first d) {lines : List CoreLine}
    (hlines : ∀ line ∈ lines, ∀ type message status, line ≠ .CORE type message status)
    (hmemory : e.memory = d.memory) (hwritten : e.written = d.written ++ lines) :
    Recalls config first e where
  memory := by rw [hmemory, h.memory, hwritten, afterLines_append, afterLines_unrecorded hlines]
  answers := by
    rw [hwritten]
    exact h.answers.append_unrecorded hlines

theorem recalls_sends {d e : Duel σ} (h : Sends d e) : Kept (Recalls config first) d e := by
  intro hrecalls
  obtain ⟨lines, hlines, he⟩ := h
  rw [he]
  exact hrecalls.write (unrecorded_of_ordinary hlines) rfl rfl

theorem recalls_receive (status : Int) (message : Bytes) :
    Within (Kept (Recalls config first)) (receive config status message : CoreM σ Bool) := by
  intro d proceed e hrun hrecalls
  obtain ⟨type, htype, ⟨rfl, -, rfl⟩ | ⟨hretry, -, hmemory, -, -, -, lines, hlines, hwritten⟩⟩ :=
    receive_cases hrun
  · constructor
    · change d.memory = first.afterLines config (d.written ++ _ :: d.memory.askedAgain)
      rw [afterLines_append, ← hrecalls.memory]
      change d.memory =
        (d.memory.after config MSG_RETRY message).afterLines config d.memory.askedAgain
      rw [after_retry, afterLines_unrecorded (askedAgain_unrecorded d.memory)]
    · refine hrecalls.answers.append fun before data status' after heq => ?_
      cases before with
      | nil =>
        obtain ⟨-, rfl⟩ := List.cons.inj heq
        rw [List.append_nil, ← hrecalls.memory]
      | cons line before =>
        obtain ⟨-, hrest⟩ := List.cons.inj heq
        have hmem : CoreLine.CORE MSG_RETRY data status' ∈ d.memory.askedAgain := by simp [hrest]
        exact absurd rfl (askedAgain_unrecorded d.memory _ hmem MSG_RETRY data status')
  · have hunrecorded := unrecorded_of_ordinary hlines
    constructor
    · rw [hwritten, afterLines_append, ← hrecalls.memory, hmemory]
      exact (afterLines_unrecorded hunrecorded).symm
    · rw [hwritten]
      refine hrecalls.answers.append fun before data status' after heq => ?_
      cases before with
      | nil =>
        obtain ⟨hline, -⟩ := List.cons.inj heq
        cases hline
        exact absurd rfl hretry
      | cons line before =>
        obtain ⟨-, hrest⟩ := List.cons.inj heq
        have hmem : CoreLine.CORE MSG_RETRY data status' ∈ lines := by simp [hrest]
        exact absurd rfl (hunrecorded _ hmem MSG_RETRY data status')

theorem recalls_post (clock : Clock) (message : Bytes) :
    Within (Kept (Recalls config first)) (post_processing config clock message : CoreM σ PUnit) := by
  have hwrite : ∀ line : CoreLine, (∀ type message status, line ≠ .CORE type message status) →
      Within (Kept (Recalls config first)) (send_message line : CoreM σ PUnit) :=
    fun line hline => .update fun d h =>
      h.write (by simpa using hline) rfl rfl
  refine (Within.ofOption _).bind fun type => .ite (fun _ => .read fun d => ?_) fun _ => .pure _
  refine (hwrite _ (by simp)).andThen (.ite (fun _ => ?_) fun _ => .pure _)
  refine (Within.ofOption _).bind fun receptor => Within.bind ?_ fun ticks => hwrite _ (by simp)
  refine .read fun d => .ite (fun _ => ?_) fun _ => .undefined
  refine Within.andThen ?_ (.pure _)
  refine (Within.updateGet fun _ h => ⟨h.memory, h.answers⟩).bind fun time => ?_
  exact .update fun _ h => ⟨h.memory, h.answers⟩

end

/-- Over a whole duel, each retry of the engine is followed at once by what asks the last player
again: the last hint about a selection and the last request recorded before. -/
theorem retry_asks_again {σ : Type} (config : Config) (api : OCGApi σ)
    (order : QueryDeserializer.OperandOrder) (clock : Clock) (fuel : Nat)
    (commands : List CoreCommand) (d e : Duel σ) (fresh : d.written = [])
    (hrun : main config api order clock fuel commands d = some (⟨⟩, e)) :
    ∀ before data status after, e.written = before ++ .CORE MSG_RETRY data status :: after →
      (d.memory.afterLines config before).askedAgain <+: after := by
  have hfirst : Recalls config d.memory d := by
    constructor
    · rw [fresh]
      rfl
    · intro before data status after heq
      simp [fresh] at heq
  have hrecalls := within_main (R := Kept (Recalls config d.memory)) config api order
    (fun _ _ => recalls_sends) (.update fun _ h => ⟨h.memory, h.answers⟩) recalls_receive
    (recalls_post clock)
    (fun team => (Within.updateGet fun _ h => ⟨h.memory, h.answers⟩).bind fun time =>
      .ite (fun _ => .update fun _ h => ⟨h.memory, h.answers⟩) fun _ => .undefined)
    fuel commands d ⟨⟩ e hrun hfirst
  exact hrecalls.answers

/-- An engine that asks the second player a question, and asks again after the answer. -/
def asking : OCGApi Nat where
  startDuel := id
  process := fun asked => (1, asked + 1)
  getMessage := fun asked =>
    let messages : List Bytes :=
      if asked = 1 then [[MSG_HINT, 3, 1, 0x30], [MSG_SELECT_YESNO, 1, 0x5f]] else [[MSG_RETRY]]
    (messages.flatMap fun message => writeUInt32 (UInt32.ofNat message.length) ++ message, asked)
  duelQueryCount := fun _ _ _ => 40
  duelQuery := fun _ _ => []
  duelQueryLocation := fun _ _ => []
  duelQueryField := fun _ => []
  setResponse := fun asked _ => asked

def askedDuel : Duel Nat where
  duel := 0
  replier := 0
  lastHint := []
  lastRequest := []
  timer := { timeRemaining := fun _ => 0, expiry := fun _ => 0 }
  readings := 0
  written := []

def askedConfig : Config := { lp := 8000, firstToPlay := 1, timeLimit := 450 }

/-- The lines up to the answer. -/
def askedLines : List CoreLine :=
  [.START
      { lp := 8000, playerDeckSize := 40, playerExtraDeckSize := 40, opponentDeckSize := 40
        opponentExtraDeckSize := 40 },
    .CORE MSG_HINT [MSG_HINT, 3, 1, 0x30] 1,
    .MESSAGE
      { data := [1, MSG_HINT, 3, 1, 0x30], receiver := some 0, cacheable := some true
        all := some false },
    .CORE MSG_SELECT_YESNO [MSG_SELECT_YESNO, 1, 0x5f] 1,
    .MESSAGE
      { data := [1, MSG_SELECT_YESNO, 1, 0x5f], receiver := some 0, cacheable := some true
        all := some false },
    .MESSAGE { data := [1, 3], except := some 0 },
    .TIME 0 450]

theorem retry_asks_again_question : ∃ e after,
    main askedConfig asking .callFirst (fun _ => 0) 1 [.PROCESS, .RESPONSE 0 [2]] askedDuel =
        some (⟨⟩, e) ∧
      e.written = askedLines ++ .CORE MSG_RETRY [MSG_RETRY] 1 :: after ∧
      (askedDuel.memory.afterLines askedConfig askedLines).askedAgain <+: after ∧
      askedDuel.memory.afterLines askedConfig askedLines =
        { replier := 0, hint := [MSG_HINT, 3, 1, 0x30], request := [MSG_SELECT_YESNO, 1, 0x5f] } := by
  have hends : (main askedConfig asking .callFirst (fun _ => 0) 1 [.PROCESS, .RESPONSE 0 [2]]
      askedDuel).map (fun r => (r.2.written.take 8, r.2.written.drop 8)) =
        some (askedLines ++ [.CORE MSG_RETRY [MSG_RETRY] 1],
          (askedDuel.memory.afterLines askedConfig askedLines).askedAgain) := by
    decide +kernel
  obtain ⟨⟨_, e⟩, hrun, hwritten⟩ := Option.map_eq_some_iff.mp hends
  have hsplit : e.written = askedLines ++ .CORE MSG_RETRY [MSG_RETRY] 1 :: e.written.drop 8 := by
    have htake : e.written.take 8 = askedLines ++ [.CORE MSG_RETRY [MSG_RETRY] 1] :=
      congrArg Prod.fst hwritten
    rw [List.append_cons, ← htake, List.take_append_drop]
  refine ⟨e, e.written.drop 8, hrun, hsplit, ?_, by decide +kernel⟩
  exact retry_asks_again askedConfig asking .callFirst (fun _ => 0) 1 [.PROCESS, .RESPONSE 0 [2]]
    askedDuel e rfl hrun askedLines [MSG_RETRY] 1 (e.written.drop 8) hsplit

/-! ## Time -/

section

variable {σ : Type} (config : Config) (clock : Clock)

/-- No team has more time left than the limit and the grace period. -/
structure InTime (d : Duel σ) : Prop where
  remaining : ∀ team,
    d.timer.timeRemaining team ≤ (config.timeLimit.toNat + GRACE_PERIOD) * 1000
  expiry : ∀ team, d.timer.expiry team ≤
    clock d.readings + (config.timeLimit.toNat + GRACE_PERIOD) * 1000000000
  shown : ∀ team time, CoreLine.TIME team time ∈ d.written →
    team ≤ 1 ∧ time.toNat ≤ config.timeLimit.toNat

variable {config clock} {d e : Duel σ}

theorem InTime.write (h : InTime config clock d) {lines : List CoreLine}
    (hlines : ∀ team time, CoreLine.TIME team time ∈ lines →
      team ≤ 1 ∧ time.toNat ≤ config.timeLimit.toNat)
    (htimer : e.timer = d.timer) (hreadings : e.readings = d.readings)
    (hwritten : e.written = d.written ++ lines) : InTime config clock e where
  remaining := htimer ▸ h.remaining
  expiry := by
    rw [htimer, hreadings]
    exact h.expiry
  shown := by
    intro team time hmem
    rw [hwritten, List.mem_append] at hmem
    rcases hmem with hmem | hmem
    · exact h.shown team time hmem
    · exact hlines team time hmem

theorem timeless_of_ordinary {lines : List CoreLine} (h : ∀ line ∈ lines, Ordinary line) :
    ∀ team time, CoreLine.TIME team time ∈ lines →
      team ≤ 1 ∧ time.toNat ≤ config.timeLimit.toNat :=
  fun _ _ hmem => (h _ hmem).elim

theorem inTime_sends (h : Sends d e) : Kept (InTime config clock) d e := by
  intro hintime
  obtain ⟨lines, hlines, he⟩ := h
  rw [he]
  exact hintime.write (timeless_of_ordinary hlines) rfl rfl rfl

theorem inTime_reset :
    Within (Kept (InTime config clock)) (resetTimers config.timeLimit : CoreM σ PUnit) :=
  .update fun _ h => ⟨fun _ => le_refl _, h.expiry, h.shown⟩

theorem inTime_receive (status : Int) (message : Bytes) :
    Within (Kept (InTime config clock)) (receive config status message : CoreM σ Bool) := by
  intro d proceed e hrun hintime
  have htimeless : ∀ type data lines, (∀ line ∈ lines, Ordinary line) →
      ∀ team time, CoreLine.TIME team time ∈ CoreLine.CORE type data status :: lines →
        team ≤ 1 ∧ time.toNat ≤ config.timeLimit.toNat := by
    intro type data lines hlines team time hmem
    rcases List.mem_cons.mp hmem with h | h
    · cases h
    · exact timeless_of_ordinary hlines team time h
  obtain ⟨type, htype, ⟨-, -, rfl⟩ |
    ⟨-, -, -, hreadings, hexpiry, hremaining, lines, hlines, hwritten⟩⟩ := receive_cases hrun
  · exact hintime.write (htimeless _ _ _ (askedAgain_ordinary d.memory)) rfl rfl rfl
  · constructor
    · intro team
      rcases hremaining with hsame | hreset
      · rw [hsame]
        exact hintime.remaining team
      · rw [hreset]
    · rw [hexpiry, hreadings]
      exact hintime.expiry
    · intro team time hmem
      rw [hwritten, List.mem_append] at hmem
      rcases hmem with hmem | hmem
      · exact hintime.shown team time hmem
      · exact htimeless _ _ _ hlines team time hmem

theorem calculate_cases {team : UInt8} {ticks : UInt16}
    (h : calculate clock team d = some (ticks, e)) :
    team ≤ 1 ∧
      ticks =
        UInt16.ofInt (max ((d.timer.timeRemaining team).tdiv 1000 - GRACE_PERIOD) 0) ∧
      e = { d with
        readings := d.readings + 1
        timer := { d.timer with
          expiry := Function.update d.timer.expiry team
            (clock d.readings + (d.timer.timeRemaining team).tdiv 1000 * 1000000000) } } := by
  obtain ⟨_, _, hget, hrest⟩ := bind_eq_some.mp h
  cases hget
  by_cases hteam : team ≤ 1
  · rw [if_pos hteam] at hrest
    cases hrest
    exact ⟨hteam, rfl, rfl⟩
  · rw [if_neg hteam] at hrest
    cases hrest

theorem reduce_cases {team : UInt8} {u : PUnit} (h : reduce clock team d = some (u, e)) :
    team ≤ 1 ∧
      e = { d with
        readings := d.readings + 1
        timer := { d.timer with
          timeRemaining := Function.update d.timer.timeRemaining team
            (1000 * -((-(d.timer.expiry team - clock d.readings)) / 1000000000)) } } := by
  obtain ⟨_, _, hnow, hrest⟩ := bind_eq_some.mp h
  cases hnow
  by_cases hteam : team ≤ 1
  · rw [if_pos hteam] at hrest
    cases hrest
    exact ⟨hteam, rfl⟩
  · rw [if_neg hteam] at hrest
    cases hrest

/-- A later reading of the clock leaves no timer further in the future. -/
theorem InTime.later (hclock : Monotone clock) (h : InTime config clock d) (team : UInt8) :
    d.timer.expiry team ≤ clock (d.readings + 1) +
      (config.timeLimit.toNat + GRACE_PERIOD) * 1000000000 := by
  have hlater : clock d.readings ≤ clock (d.readings + 1) := hclock (Nat.le_succ _)
  have hexpiry := h.expiry team
  omega

theorem inTime_reduce (hclock : Monotone clock) (team : UInt8) :
    Within (Kept (InTime config clock)) (reduce clock team : CoreM σ PUnit) := by
  intro d u e hrun hintime
  obtain ⟨-, rfl⟩ := reduce_cases hrun
  refine ⟨fun other => ?_, fun other => hintime.later hclock other, hintime.shown⟩
  by_cases hother : other = team
  · subst hother
    have hexpiry := hintime.expiry other
    simp only [Function.update_self]
    omega
  · simp only [Function.update_of_ne hother]
    exact hintime.remaining other

theorem toNat_ofInt_le {value : Int} {n : Nat} (hn : n < 2 ^ 16) (hvalue : 0 ≤ value)
    (h : value ≤ n) : (UInt16.ofInt value).toNat ≤ n := by
  have hnat : (UInt16.ofInt value).toNat = (value % 2 ^ 16).toNat % 2 ^ 16 := by
    rw [UInt16.ofInt, UInt16.toNat_ofNat']
  omega

theorem inTime_shown (hclock : Monotone clock) (team : UInt8) :
    Within (Kept (InTime config clock))
      (do
        let ticks ← calculate clock team
        send_message (.TIME team ticks) : CoreM σ PUnit) := by
  intro d u e hrun hintime
  obtain ⟨ticks, d₁, hcalculate, hsend⟩ := bind_eq_some.mp hrun
  obtain ⟨hteam, hticks, rfl⟩ := calculate_cases hcalculate
  cases hsend
  have hremaining := hintime.remaining team
  have hlimit := config.timeLimit.toNat_lt
  have hseconds : (d.timer.timeRemaining team).tdiv 1000 ≤
      config.timeLimit.toNat + GRACE_PERIOD :=
    (Int.tdiv_le_tdiv (by norm_num) hremaining).trans_eq (Int.mul_tdiv_cancel _ (by norm_num))
  constructor
  · exact hintime.remaining
  · intro other
    by_cases hother : other = team
    · subst hother
      have hlater : clock d.readings ≤ clock (d.readings + 1) := hclock (Nat.le_succ _)
      simp only [Function.update_self]
      omega
    · simp only [Function.update_of_ne hother]
      exact hintime.later hclock other
  · intro other time hmem
    rcases List.mem_append.mp hmem with hmem | hmem
    · exact hintime.shown other time hmem
    · cases List.mem_singleton.mp hmem
      refine ⟨hteam, ?_⟩
      rw [hticks]
      exact toNat_ofInt_le hlimit (le_max_right _ _) (max_le (by omega) (Int.natCast_nonneg _))

theorem inTime_post (hclock : Monotone clock) (message : Bytes) :
    Within (Kept (InTime config clock)) (post_processing config clock message : CoreM σ PUnit) := by
  refine (Within.ofOption _).bind fun type => .ite (fun _ => .read fun d => ?_) fun _ => .pure _
  refine ((within_message _).mono fun _ _ => inTime_sends).andThen ?_
  refine .ite (fun _ => ?_) fun _ => .pure _
  exact (Within.ofOption _).bind fun receptor => inTime_shown hclock _

end

section

variable {σ : Type} {clock : Clock}

/-- A team is asked and answers, again and again. -/
def think (clock : Clock) (teams : List UInt8) : CoreM σ PUnit :=
  teams.forM fun team => do
    let _ ← calculate clock team
    reduce clock team

/-- The whole seconds that a team thought, from a reading of the clock on. -/
def thought (clock : Clock) (team : UInt8) : Nat → List UInt8 → Int
  | _, [] => 0
  | reading, asked :: teams =>
    (if asked = team then (clock (reading + 1) - clock reading) / 1000000000 else 0) +
      thought clock team (reading + 2) teams

end

def thinkingDuel : Duel Nat :=
  { askedDuel with timer := { askedDuel.timer with timeRemaining := fun _ => 455000 } }

/-- A message with its length in front, in four bytes. -/
def framed (message : Bytes) : Bytes := littleEndian 4 message.length ++ message

theorem reads_framed {message : Bytes} (h : message.length < 2 ^ 32) :
    Reads (do
      let length ← number 4
      takeBytes length) (framed message) message :=
  (Reads.number h).bind (Reads.takeBytes rfl)

theorem readsOnly_framed : ReadsOnly (do
    let length ← number 4
    takeBytes length) (fun message => message.length < 2 ^ 32) framed := by
  intro bytes message rest h
  obtain ⟨length, rest', hnumber, htake⟩ := bind_eq_some.mp h
  obtain ⟨rfl, hlength⟩ := number_eq_some hnumber
  obtain ⟨rfl, rfl⟩ := takeBytes_eq_some htake
  exact ⟨(List.append_assoc _ _ _).symm, hlength⟩

/-- The buffer of the engine is read as messages if and only if it is made of them, each with its
length in front. -/
theorem parseMessages_iff (buffer : Bytes) (messages : List Bytes) :
    parseMessages buffer = some messages ↔
      buffer = messages.flatMap framed ∧ ∀ message ∈ messages, message.length < 2 ^ 32 :=
  readsOnly_framed.untilEnd_iff (fun _ => reads_framed) (fun _ => by simp [framed, littleEndian])

/-! ## Cards that a retry shows -/

namespace CardMessage

/-- The cards a player chooses from, by their controllers and codes. -/
def choices : CardMessage → List (UInt8 × UInt32)
  | selectCard _ cards _ => cards.val.map fun card => (card.info.con, card.code)
  | selectTribute _ cards _ => cards.val.map fun card => (card.info.con, card.code)
  | selectUnselect _ _ select unselect _ =>
    (select.val ++ unselect.val).map fun card => (card.info.con, card.code)
  | _ => []

end CardMessage

theorem Entry.hide_eq_self_iff {β : Type} {hidden : β → Bool} {card : Entry β} :
    card.hide hidden = card ↔ (hidden card.info = true → card.code = 0) := by
  obtain ⟨code, info⟩ := card
  cases hshown : hidden info with
  | false => simp [Entry.hide, hshown]
  | true => simp [Entry.hide, hshown, eq_comm]

theorem Counted.hide_eq_self_iff {β : Type} {hidden : β → Bool} {cards : Counted (Entry β)} :
    cards.map (Entry.hide hidden) = cards ↔
      ∀ card ∈ cards.val, hidden card.info = true → card.code = 0 := by
  have hmap : ∀ l : List (Entry β), l.map (Entry.hide hidden) = l ↔
      ∀ card ∈ l, hidden card.info = true → card.code = 0 := by
    intro l
    induction l with
    | nil => simp
    | cons card l ih =>
      rw [List.map_cons, List.cons.injEq, ih, Entry.hide_eq_self_iff, List.forall_mem_cons]
  rw [Subtype.ext_iff, Counted.map_val]
  exact hmap cards.val

/-- A choice stays as it is if it names no card of others by its code. -/
theorem maskFor_eq_self_iff {message : CardMessage} (h : message.type ∈ cardChoices)
    (team : UInt8) : message.maskFor team = message ↔
      ∀ card ∈ message.choices, card.1 = team ∨ card.2 = 0 := by
  have hstripped : ∀ type ∈ cardChoices, type ∈ strippedTypes := by
    decide +kernel
  cases message with
  | selectCard choice cards rest =>
    simp only [CardMessage.maskFor, CardMessage.selectCard.injEq, Counted.hide_eq_self_iff,
      CardMessage.choices, List.forall_mem_map]
    grind
  | selectTribute choice cards rest =>
    simp only [CardMessage.maskFor, CardMessage.selectTribute.injEq, Counted.hide_eq_self_iff,
      CardMessage.choices, List.forall_mem_map]
    grind
  | selectUnselect finishable choice select unselect rest =>
    simp only [CardMessage.maskFor, CardMessage.selectUnselect.injEq, Counted.hide_eq_self_iff,
      CardMessage.choices, List.forall_mem_map, List.forall_mem_append]
    grind
  | other type body hnot => exact absurd (hstripped type h) hnot
  | shuffle extra player cards rest => cases extra <;> simp +decide [CardMessage.type] at h
  | _ => simp +decide [CardMessage.type] at h

theorem choice_receptor {message : CardMessage} (h : message.type ∈ cardChoices) :
    ∃ receptor, get_team_message_receptor message.encode = some receptor := by
  have hhint : ∀ type ∈ cardChoices, type ≠ MSG_HINT ∧ type ∈ strippedTypes := by
    decide +kernel
  have hreceptor : get_team_message_receptor message.encode = message.encode[1]? := by
    have hne : message.encode[0]? ≠ some MSG_HINT := fun hsome =>
      (hhint _ h).1 (Option.some.inj hsome)
    rw [get_team_message_receptor, if_neg hne]
  rw [hreceptor]
  cases message with
  | selectCard choice cards rest => exact ⟨_, rfl⟩
  | selectTribute choice cards rest => exact ⟨_, rfl⟩
  | selectUnselect finishable choice select unselect rest => exact ⟨_, rfl⟩
  | other type body hnot => exact absurd (hhint type h).2 hnot
  | shuffle extra player cards rest => cases extra <;> simp +decide [CardMessage.type] at h
  | _ => simp +decide [CardMessage.type] at h

/-- A choice goes out with the cards of others masked, and a retry repeats it with all their codes:
the bytes differ exactly when it names a card by its code that somebody else controls. -/
theorem retry_unmasks {σ : Type} (config : Config) (message : CardMessage)
    (h : message.type ∈ cardChoices) :
    ∃ receptor, get_team_message_receptor message.encode = some receptor ∧
      (∀ d : Duel σ, (distribute_message config message.encode : CoreM σ PUnit) d = some (⟨⟩,
        { d with
          written := d.written ++ [.MESSAGE
            { data := 0x01 :: (message.maskFor receptor).encode
              receiver := get_swapped_team config receptor, cacheable := true, all := false }] })) ∧
      (∀ memory : Memory,
        (memory.after config message.type message.encode).askedAgain.getLast? = some (.MESSAGE
          { data := 0x01 :: message.encode, receiver := get_swapped_team config receptor
            cacheable := false, all := false })) ∧
      ((message.maskFor receptor).encode = message.encode ↔
        ∀ card ∈ message.choices, card.1 = receptor ∨ card.2 = 0) := by
  obtain ⟨receptor, hreceptor⟩ := choice_receptor h
  have hrequired : ∀ type ∈ cardChoices, does_message_required_answer type = true := by
    decide +kernel
  refine ⟨receptor, hreceptor, fun d => ?_, fun memory => ?_, ?_⟩
  · have hrecorded : (send_core_replay_message message.encode : CoreM σ PUnit) d =
        some (⟨⟩, d) := by
      have hhint : message.type ≠ MSG_HINT := by
        intro heq
        rw [heq] at h
        exact absurd h (by decide +kernel)
      refine bind_eq_some.mpr ⟨message.type, d, rfl, ?_⟩
      rw [if_neg hhint, if_pos (List.mem_append_left _ h)]
      rfl
    have htarget : get_message_target message.encode =
        some .MSG_DIST_TYPE_SPECIFIC_TEAM_DUELIST_STRIPPED := by
      have htype : message.encode[0]? = some message.type := rfl
      simp only [get_message_target, htype, Option.bind_eq_bind, Option.bind_some, if_pos h]
      rfl
    refine bind_eq_some.mpr ⟨⟨⟩, d, hrecorded, ?_⟩
    refine bind_eq_some.mpr ⟨_, d, liftM_eq_some.mpr ⟨htarget, rfl⟩, ?_⟩
    refine bind_eq_some.mpr ⟨_, d, liftM_eq_some.mpr ⟨hreceptor, rfl⟩, ?_⟩
    exact bind_eq_some.mpr
      ⟨_, d, liftM_eq_some.mpr ⟨DrawCardHandler.handle_encode message receptor, rfl⟩, rfl⟩
  · have hasked := hrequired _ h
    rw [Memory.askedAgain, List.getLast?_append]
    simp [Memory.after, hasked, hreceptor]
  · rw [CardMessage.encode_injective.eq_iff]
    exact maskFor_eq_self_iff h receptor

def tribute : Entry Tribute :=
  { code := 46986414, info := { con := 1, loc := 4, seq := 0, releaseParam := 1 } }

theorem tribute_counted : [tribute].length < 2 ^ 32 := Nat.one_lt_two_pow (by decide)

def tributes : CardMessage :=
  .selectTribute { player := 0, cancelable := 1, min := 1, max := 1 } ⟨[tribute], tribute_counted⟩ []

/-- A tribute that the opponent controls. -/
theorem retry_unmasks_tribute : ∃ receptor,
    get_team_message_receptor tributes.encode = some receptor ∧
      (tributes.maskFor receptor).encode ≠ tributes.encode := by
  obtain ⟨receptor, hreceptor, -, -, hiff⟩ :=
    @retry_unmasks Nat askedConfig tributes (by decide +kernel)
  refine ⟨receptor, hreceptor, fun heq => ?_⟩
  obtain rfl : receptor = 0 := Option.some.inj (hreceptor.symm.trans rfl)
  exact absurd (hiff.mp heq) (by simp [tributes, tribute, CardMessage.choices])

end EdoproServer.Core
