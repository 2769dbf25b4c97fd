import EdoproServer.Engine.Responses

namespace EdoproServer.Engine
namespace OCGCore

/-- What a reconnecting player gets last: the request, a reminder to wait, or nothing. -/
inductive ReconnectState where
  | request (side : Side)
  | nothing
  | waiting
  deriving DecidableEq, Repr

def sendReconnectTimeLimitAndResponseState (table : DuelTable) (core : OCGCore)
    (client : ClientRef) : ReconnectState :=
  if core.responsePlayer table = some client then
    match core.lastResponseRequestMsg with
    | some side => .request side
    | none => .nothing
  else .waiting

/-- Whether a loop is routing a prompt. -/
def routesPrompt (loop : Option EngineMessage) : Bool := loop.any stops

/-- No response has been handed over for the last prompt. -/
def Unanswered (core : OCGCore) : Prop :=
  core.prompts ≠ [] ∧ ∀ f ∈ core.forwarded, f.prompt + 1 < core.prompts.length

/-- The engine waits for a response of a side: it prompted the side last, the prompt has been
routed, and nothing was handed over since. -/
def Waits (core : OCGCore) (side : Side) : Prop :=
  core.hasOcgcore = true ∧ core.asked = some side ∧ core.Unanswered ∧
    ∀ loop ∈ core.advancing, routesPrompt loop = false

/-- A RETRY is open or on its way to the players. -/
def RetryPending (core : OCGCore) : Prop :=
  core.isRetrying = true ∨ some .retry ∈ core.advancing

/-- The steps that keep the prompt: one prompt is routed at a time, a RETRY comes while the side it
is for is still set, nothing is routed and nobody reconnects while a RETRY is pending, and no timer
runs out. -/
def Tracked (core : OCGCore) : CoreInput → Prop
  | .message _ message => stops message = true →
      (∀ loop ∈ core.advancing, routesPrompt loop = false) ∧
        (message = .retry → core.responseSide.isSome = true)
  | .routed loop _ => ∀ message, core.advancing[loop]? = some (some message) →
      stops message = false → ¬ core.RetryPending
  | .refreshed _ => ¬ core.RetryPending
  | .refreshZones => ¬ core.RetryPending
  | .resend _ _ => ¬ core.RetryPending
  | .responseTimeout => core.timerRunning = false
  | _ => True

/-- The side the engine waits for is the side that is set, and its player is sent the request when
he comes back. -/
structure PromptKept (table : DuelTable) (core : OCGCore) : Prop where
  sided : ∀ side, core.Waits side → core.responseSide = some side
  resent : ∀ side client timeLeft, core.Waits side → core.Tracked (.resend client timeLeft) →
    table.getActivePlayer side core.turn = some client →
      core.sendReconnectTimeLimitAndResponseState table client = .request side

/-! ## The invariant -/

structure PromptInvariant (core : OCGCore) : Prop where
  single : (core.advancing.filter routesPrompt).length ≤ 1
  requests : ∀ side, some (.request side) ∈ core.advancing → core.asked = some side
  sided : core.hasOcgcore = true → ∀ side, core.responseSide = some side →
    core.asked = some side ∨ ∃ side', some (.request side') ∈ core.advancing
  retrying : core.hasOcgcore = true → some .retry ∈ core.advancing →
    core.responseSide.isSome = true
  recorded : ∀ side, core.lastResponseRequestMsg = some side → core.responseSide = some side
  waiting : core.hasOcgcore = true → core.Unanswered →
    (∀ loop ∈ core.advancing, routesPrompt loop = false) →
      core.lastResponseRequestMsg.isSome = true ∨
        (core.isRetrying = true ∧ core.responseSide.isSome = true)

variable {table : DuelTable} {core : OCGCore}

/-- A message that is no prompt drops the side when no request is recorded for it. -/
theorem handleResponseOrRetry_forgets {message : EngineMessage} (hm : stops message = false)
    (timeLeft : Bool) :
    core.handleResponseOrRetry table message timeLeft =
      if core.responseSide.isSome && core.lastResponseRequestMsg.isNone then
        { core with responseSide := none }
      else core := by
  cases message with
  | request side => cases hm
  | retry => cases hm
  | _ => rfl

namespace PromptInvariant

theorem promptKept (h : PromptInvariant core) : PromptKept table core := by
  have hset : ∀ side, core.Waits side → core.responseSide = some side := by
    intro side hwaits
    obtain ⟨hengine, hasked, hopen, hrouted⟩ := hwaits
    have hsome : core.responseSide.isSome = true := by
      rcases h.waiting hengine hopen hrouted with hlast | ⟨-, hside⟩
      · obtain ⟨last, hlast⟩ := Option.isSome_iff_exists.mp hlast
        rw [h.recorded last hlast]
        rfl
      · exact hside
    obtain ⟨set, hset⟩ := Option.isSome_iff_exists.mp hsome
    rcases h.sided hengine set hset with heq | ⟨other, hin⟩
    · rw [hset, ← heq, hasked]
    · exact absurd (hrouted _ hin) (by simp [routesPrompt, stops])
  refine ⟨hset, ?_⟩
  intro side client timeLeft hwaits hnot hactive
  have hside := hset side hwaits
  obtain ⟨hengine, -, hopen, hrouted⟩ := hwaits
  have hplayer : core.responsePlayer table = some client := by
    simp [responsePlayer, hside, hactive]
  rcases h.waiting hengine hopen hrouted with hlast | ⟨hretry, -⟩
  · obtain ⟨last, hlast⟩ := Option.isSome_iff_exists.mp hlast
    have heq := h.recorded last hlast
    rw [hside] at heq
    obtain rfl := Option.some.inj heq
    simp [sendReconnectTimeLimitAndResponseState, hplayer, hlast]
  · exact absurd (Or.inl hretry) hnot

/-- A step that drops at most the loops that route no prompt. -/
theorem carry {core' : OCGCore} (h : PromptInvariant core)
    (hside : core'.responseSide = core.responseSide)
    (hlast : core'.lastResponseRequestMsg = core.lastResponseRequestMsg)
    (hretry : core'.isRetrying = core.isRetrying) (hasked : core'.asked = core.asked)
    (hprompts : core'.prompts = core.prompts) (hforwarded : core'.forwarded = core.forwarded)
    (hengine : core'.hasOcgcore = true → core.hasOcgcore = true)
    (hloops : core'.advancing.filter routesPrompt = core.advancing.filter routesPrompt) :
    PromptInvariant core' := by
  have hmem : ∀ loop, routesPrompt loop = true →
      (loop ∈ core'.advancing ↔ loop ∈ core.advancing) := by
    intro loop hloop
    have hfilter : loop ∈ core'.advancing.filter routesPrompt ↔
        loop ∈ core.advancing.filter routesPrompt := by rw [hloops]
    simpa [hloop] using hfilter
  have hrequest : ∀ side, some (.request side) ∈ core'.advancing ↔
      some (.request side) ∈ core.advancing := fun side => hmem _ rfl
  constructor
  · rw [hloops]
    exact h.single
  · intro side hin
    rw [hasked]
    exact h.requests side ((hrequest side).mp hin)
  · intro hc side hs
    simp only [hrequest, hasked]
    exact h.sided (hengine hc) side (hside ▸ hs)
  · intro hc hin
    rw [hside]
    exact h.retrying (hengine hc) ((hmem _ rfl).mp hin)
  · intro side hs
    rw [hside]
    exact h.recorded side (hlast ▸ hs)
  · intro hc hopen hrouted
    have hbefore : ∀ loop ∈ core.advancing, routesPrompt loop = false := by
      intro loop hin
      cases hloop : routesPrompt loop with
      | false => rfl
      | true => exact absurd (hrouted loop ((hmem loop hloop).mpr hin)) (by simp [hloop])
    have hopen' : core.Unanswered := by
      unfold Unanswered at hopen ⊢
      rwa [hprompts, hforwarded] at hopen
    rw [hlast, hretry, hside]
    exact h.waiting (hengine hc) hopen' hbefore

/-- A dropped side: the engine waits for nobody without a recorded request then. -/
theorem forget (h : PromptInvariant core) (hnot : ¬ core.RetryPending) :
    PromptInvariant
      (if core.responseSide.isSome && core.lastResponseRequestMsg.isNone then
        { core with responseSide := none }
      else core) := by
  split
  · rename_i hforget
    have hlast : core.lastResponseRequestMsg = none := by simp_all
    have hretry : core.isRetrying = false := by
      cases hr : core.isRetrying with
      | false => rfl
      | true => exact absurd (Or.inl hr) hnot
    constructor
    · exact h.single
    · exact h.requests
    · simp
    · intro _ hin
      exact absurd (Or.inr hin) hnot
    · simp [hlast]
    · intro hengine hopen hrouted
      rcases h.waiting hengine hopen hrouted with hsome | ⟨hr, -⟩
      · simp [hlast] at hsome
      · simp [hretry] at hr
  · exact h

/-! ## Loops -/

theorem filter_eraseIdx_of_not {α : Type} {p : α → Bool} {xs : List α} {n : Nat} {x : α}
    (hx : xs[n]? = some x) (hp : p x = false) : (xs.eraseIdx n).filter p = xs.filter p := by
  induction xs generalizing n with
  | nil => simp at hx
  | cons y ys ih =>
    cases n with
    | zero =>
      obtain rfl : y = x := by simpa using hx
      simp [hp]
    | succ n => simp [List.filter_cons, ih (by simpa using hx)]

theorem filter_set_of_not {α : Type} {p : α → Bool} {xs : List α} {n : Nat} {x y : α}
    (hx : xs[n]? = some x) (hp : p x = false) (hy : p y = false) :
    (xs.set n y).filter p = xs.filter p := by
  induction xs generalizing n with
  | nil => simp at hx
  | cons z zs ih =>
    cases n with
    | zero =>
      obtain rfl : z = x := by simpa using hx
      simp [hp, hy]
    | succ n => simp [List.filter_cons, ih (by simpa using hx)]

/-- The first prompt to be routed is the only one. -/
theorem filter_set_length_le {α : Type} {p : α → Bool} {xs : List α} (n : Nat) (y : α)
    (hnone : ∀ x ∈ xs, p x = false) : ((xs.set n y).filter p).length ≤ 1 := by
  induction xs generalizing n with
  | nil => simp
  | cons z zs ih =>
    obtain ⟨hz, hzs⟩ := List.forall_mem_cons.mp hnone
    cases n with
    | zero =>
      have hempty : zs.filter p = [] := by simpa [List.filter_eq_nil_iff] using hzs
      rw [List.set_cons_zero, List.filter_cons, hempty]
      split <;> simp
    | succ n =>
      rw [List.set_cons_succ, List.filter_cons_of_neg (by simp [hz])]
      exact ih n hzs

/-- A loop that routes a RETRY and one that routes a request are two. -/
theorem no_request_beside_retry (h : PromptInvariant core)
    (hretry : some .retry ∈ core.advancing) (side : Side) :
    some (.request side) ∉ core.advancing := by
  intro hrequest
  have hboth : ∀ loop, loop ∈ core.advancing → routesPrompt loop = true →
      loop ∈ core.advancing.filter routesPrompt := fun loop hin hp => List.mem_filter.mpr ⟨hin, hp⟩
  have hr := hboth _ hretry rfl
  have hq := hboth _ hrequest rfl
  have hsingle := h.single
  match hfilter : core.advancing.filter routesPrompt with
  | [] => simp [hfilter] at hr
  | [loop] =>
    rw [hfilter, List.mem_singleton] at hr hq
    rw [← hr] at hq
    cases hq
  | _ :: _ :: _ =>
    rw [hfilter] at hsingle
    simp at hsingle

/-! ## Steps -/

theorem response (h : PromptInvariant core) (client : ClientRef) (response : Response) :
    PromptInvariant (core.handleResponse table client response) := by
  unfold handleResponse
  split
  · refine ⟨h.single, h.requests, h.sided, h.retrying, by simp, ?_⟩
    intro _ hopen
    obtain ⟨hne, hfresh⟩ := hopen
    have hlast := hfresh ⟨core.prompts.length - 1, client, response⟩ (by simp)
    have hpos := List.length_pos_of_ne_nil hne
    dsimp only at hlast
    omega
  · exact h

theorem answered (h : PromptInvariant core) (taken : Bool) :
    PromptInvariant (core.answered taken) := by
  unfold OCGCore.answered
  split
  · exact h
  · refine h.carry rfl rfl rfl rfl rfl rfl (by simp +contextual) ?_
    dsimp only
    split
    · simp [routesPrompt]
    · rfl

theorem advance (h : PromptInvariant core) (loop : Nat) (message : EngineMessage)
    (ht : core.Tracked (.message loop message)) :
    PromptInvariant (core.advance table loop message) := by
  unfold OCGCore.advance
  split
  · rename_i hl
    have hlt : loop < core.advancing.length := (List.getElem?_eq_some_iff.mp hl).1
    split
    · rename_i hengine
      cases message with
      | request side =>
        obtain ⟨hnone, -⟩ := ht rfl
        have hin : some (.request side) ∈ core.advancing.set loop (some (.request side)) :=
          List.mem_set hlt _
        have hold : ∀ {m}, routesPrompt m = true →
            m ∈ core.advancing.set loop (some (.request side)) → m = some (.request side) := by
          intro m hm hmem
          rcases List.mem_or_eq_of_mem_set hmem with hbefore | heq
          · exact absurd (hnone m hbefore) (by simp [hm])
          · exact heq
        constructor
        · exact filter_set_length_le loop _ hnone
        · intro side' hmem
          have heq := hold rfl hmem
          simp only [Option.some.injEq, EngineMessage.request.injEq] at heq
          simp [judge, heq]
        · intro _ side' _
          exact Or.inr ⟨side, by simpa using hin⟩
        · intro _ hmem
          exact absurd (hold rfl hmem) (by simp)
        · exact h.recorded
        · intro _ _ hrouted
          exact absurd (hrouted _ (by simpa using hin)) (by simp [routesPrompt, stops])
      | retry =>
        obtain ⟨hnone, hside⟩ := ht rfl
        have hin : some .retry ∈ core.advancing.set loop (some .retry) := List.mem_set hlt _
        have hold : ∀ {m}, routesPrompt m = true →
            m ∈ core.advancing.set loop (some .retry) → m = some .retry := by
          intro m hm hmem
          rcases List.mem_or_eq_of_mem_set hmem with hbefore | heq
          · exact absurd (hnone m hbefore) (by simp [hm])
          · exact heq
        constructor
        · exact filter_set_length_le loop _ hnone
        · intro side' hmem
          exact absurd (hold rfl hmem) (by simp)
        · intro _ side' hs
          rcases h.sided hengine side' hs with hasked | ⟨other, hother⟩
          · exact Or.inl hasked
          · exact absurd (hnone _ hother) (by simp [routesPrompt, stops])
        · intro _ _
          exact hside rfl
        · exact h.recorded
        · intro _ _ hrouted
          exact absurd (hrouted _ (by simpa using hin)) (by simp [routesPrompt, stops])
      | win =>
        exact h.carry rfl rfl rfl rfl rfl rfl id (filter_eraseIdx_of_not hl rfl)
      | newTurn | other =>
        exact h.carry rfl rfl rfl rfl rfl rfl id (filter_set_of_not hl rfl rfl)
    · exact h.carry rfl rfl rfl rfl rfl rfl id (filter_eraseIdx_of_not hl rfl)
  · exact h

theorem routed (h : PromptInvariant core) (loop : Nat) (timeLeft : Bool)
    (ht : core.Tracked (.routed loop timeLeft)) :
    PromptInvariant (core.routed table loop timeLeft) := by
  unfold OCGCore.routed
  split
  · rename_i message hl
    have hin : some message ∈ core.advancing := List.mem_of_getElem? hl
    have hsubset : ∀ m ∈ core.advancing.eraseIdx loop, m ∈ core.advancing :=
      fun m hm => List.mem_of_mem_eraseIdx hm
    have hsingle : ((core.advancing.eraseIdx loop).filter routesPrompt).length ≤ 1 :=
      Nat.le_trans ((List.eraseIdx_sublist _ _).filter routesPrompt).length_le h.single
    cases hm : stops message with
    | false =>
      rw [handleResponseOrRetry_forgets hm]
      refine (h.forget (ht message hl hm)).carry rfl rfl rfl rfl rfl rfl id ?_
      simp only [Bool.false_eq_true, if_false]
      rw [filter_set_of_not hl (by simpa [routesPrompt] using hm) rfl]
      split <;> rfl
    | true =>
      cases message with
      | request side =>
        have hasked := h.requests side hin
        constructor
        · exact hsingle
        · intro side' hmem
          exact h.requests side' (hsubset _ hmem)
        · intro _ side' hs
          obtain rfl : side = side' := by
            simpa [handleResponseOrRetry, setLastResponseRequestMsg, setResponseTimer] using hs
          exact Or.inl hasked
        · intro _ _
          rfl
        · intro side' hs
          exact hs
        · intro _ _ _
          exact Or.inl rfl
      | retry =>
        have hnorequest := h.no_request_beside_retry hin
        have hsided : core.hasOcgcore = true → ∀ side, core.responseSide = some side →
            core.asked = some side := by
          intro hengine side hs
          rcases h.sided hengine side hs with hasked | ⟨other, hother⟩
          · exact hasked
          · exact absurd hother (hnorequest other)
        cases hside : core.responseSide with
        | none =>
          have hstuck : core.hasOcgcore = false := by
            cases hengine : core.hasOcgcore with
            | false => rfl
            | true => simpa [hside] using h.retrying hengine hin
          simp only [handleResponseOrRetry, hside, Option.isSome_none, Bool.false_eq_true, if_false]
          refine ⟨hsingle, fun side hmem => h.requests side (hsubset _ hmem), ?_, ?_, ?_, ?_⟩
          · simp [hstuck]
          · simp [hstuck]
          · intro side hs
            rw [← hside]
            exact h.recorded side hs
          · simp [hstuck]
        | some side =>
          simp only [handleResponseOrRetry, hside, Option.isSome_some, if_true]
          refine ⟨hsingle, fun side hmem => h.requests side (hsubset _ hmem), ?_, ?_, ?_, ?_⟩
          · intro hengine side' hs
            exact Or.inl (hsided hengine side' (hside.trans hs))
          · intro _ _
            rfl
          · intro side' hs
            rw [← hside]
            exact h.recorded side' hs
          · intro _ _ _
            exact Or.inr ⟨rfl, rfl⟩
      | newTurn | win | other => cases hm
  · exact h

theorem refreshed (h : PromptInvariant core) (loop : Nat) (ht : core.Tracked (.refreshed loop)) :
    PromptInvariant (core.refreshed table loop) := by
  unfold OCGCore.refreshed
  split
  · split
    · exact h
    · rw [handleResponseOrRetry_forgets rfl]
      exact h.forget ht
  · exact h

theorem advanceEnds (h : PromptInvariant core) (loop : Nat) :
    PromptInvariant (core.advanceEnds loop) := by
  unfold OCGCore.advanceEnds
  split
  · rename_i hl
    exact h.carry rfl rfl rfl rfl rfl rfl id (filter_eraseIdx_of_not hl rfl)
  · exact h

/-- An engine that failed waits for nobody. -/
theorem advanceFails (h : PromptInvariant core) (loop : Nat) :
    PromptInvariant (core.handleAdvanceError table loop) := by
  unfold handleAdvanceError
  split
  · exact h
  · split
    · exact h
    · rw [handleResponseOrRetry_forgets rfl]
      have hsingle : ((core.advancing.eraseIdx loop).filter routesPrompt).length ≤ 1 :=
        Nat.le_trans ((List.eraseIdx_sublist _ _).filter routesPrompt).length_le h.single
      have hrequests : ∀ side, some (.request side) ∈ core.advancing.eraseIdx loop →
          core.asked = some side :=
        fun side hmem => h.requests side (List.mem_of_mem_eraseIdx hmem)
      split
      · rename_i hforget
        have hlast : core.lastResponseRequestMsg = none := by
          simp [OCGCore.dispose] at hforget
          exact hforget.2
        refine ⟨hsingle, hrequests, ?_, ?_, ?_, ?_⟩
        · simp [OCGCore.dispose]
        · simp [OCGCore.dispose]
        · simp [OCGCore.dispose, hlast]
        · simp [OCGCore.dispose]
      · refine ⟨hsingle, hrequests, ?_, ?_, h.recorded, ?_⟩
        · simp [OCGCore.dispose]
        · simp [OCGCore.dispose]
        · simp [OCGCore.dispose]

theorem refreshZones (table : DuelTable) (h : PromptInvariant core)
    (ht : core.Tracked .refreshZones) :
    PromptInvariant (core.handleResponseOrRetry table .other false) := by
  rw [handleResponseOrRetry_forgets rfl]
  exact h.forget ht

theorem resend (h : PromptInvariant core) (client : ClientRef) (timeLeft : Bool) :
    PromptInvariant (core.resendResponseRequestToClient table client timeLeft) := by
  unfold resendResponseRequestToClient
  split
  · exact h.carry rfl rfl rfl rfl rfl rfl id rfl
  · exact h

theorem dispose (h : PromptInvariant core) : PromptInvariant core.dispose :=
  h.carry rfl rfl rfl rfl rfl rfl (by simp [OCGCore.dispose]) rfl

theorem step (h : PromptInvariant core) {input : CoreInput} (ht : core.Tracked input) :
    PromptInvariant (OCGCore.step table core input) := by
  cases input with
  | response client response => exact h.response client response
  | answered taken => exact h.answered taken
  | message loop message => exact h.advance loop message ht
  | refreshed loop => exact h.refreshed loop ht
  | routed loop timeLeft => exact h.routed loop timeLeft ht
  | advanceEnds loop => exact h.advanceEnds loop
  | advanceFails loop => exact h.advanceFails loop
  | refreshZones => exact h.refreshZones table ht
  | resend client timeLeft => exact h.resend client timeLeft
  | responseTimeout =>
    have hstopped : core.timerRunning = false := ht
    simpa [OCGCore.step, handleResponseTimeout, hstopped] using h
  | dispose => exact h.dispose

theorem started : PromptInvariant started := by
  constructor <;> simp [OCGCore.started, routesPrompt, Unanswered]

end PromptInvariant

/-! ## Runs -/

/-- The states of a duel whose steps all keep the prompt. -/
inductive TrackedRun (table : DuelTable) : OCGCore → Prop where
  | start : TrackedRun table started
  | step {core : OCGCore} {input : CoreInput} (h : TrackedRun table core)
      (ht : core.Tracked input) : TrackedRun table (OCGCore.step table core input)

theorem TrackedRun.invariant (h : TrackedRun table core) : PromptInvariant core := by
  induction h with
  | start => exact PromptInvariant.started
  | step _ ht ih => exact ih.step ht

/-- In a run that keeps the prompt, the side the engine waits for is set, and its player is sent
the request when he comes back. -/
theorem prompt_kept (h : TrackedRun table core) : PromptKept table core :=
  h.invariant.promptKept

instance (core : OCGCore) : Decidable core.RetryPending := by
  unfold RetryPending
  infer_instance

/-- The first player is asked, his opponent reconnects, and so does he. -/
theorem prompt_kept_reconnected :
    PromptKept pair (([.message 0 (.request 0), .routed 0 true, .refreshZones, .resend 1 true,
      .refreshZones, .resend 0 true] : List CoreInput).foldl (OCGCore.step pair) started) := by
  apply prompt_kept
  simp only [List.foldl_cons, List.foldl_nil]
  have hprompted : TrackedRun pair (OCGCore.step pair started (.message 0 (.request 0))) := by
    refine TrackedRun.start.step ?_
    intro _
    simp [started, routesPrompt]
  have hasked : TrackedRun pair (OCGCore.step pair
      (OCGCore.step pair started (.message 0 (.request 0))) (.routed 0 true)) := by
    refine hprompted.step ?_
    intro message hmessage hstops
    obtain rfl : EngineMessage.request 0 = message :=
      Option.some.inj (Option.some.inj hmessage)
    cases hstops
  apply TrackedRun.step
  · apply TrackedRun.step
    · apply TrackedRun.step
      · apply TrackedRun.step
        · exact hasked
        · exact show ¬ RetryPending _ by decide
      · exact show ¬ RetryPending _ by decide
    · exact show ¬ RetryPending _ by decide
  · exact show ¬ RetryPending _ by decide

/-- The first player answers, the engine rejects the answer, and the opponent reconnects: the
engine waits for the first player, and nobody's side is set. -/
theorem prompt_lost_on_reconnect :
    ¬ PromptKept pair (([.message 0 (.request 0), .routed 0 true, .response 0 [1], .answered true,
      .message 0 .retry, .routed 0 true, .refreshZones, .resend 1 true] :
        List CoreInput).foldl (OCGCore.step pair) started) := by
  intro h
  have hset := h.sided 0 ⟨by decide, by decide, ⟨by decide, by decide⟩, by decide⟩
  exact absurd hset (by decide)

end OCGCore
end EdoproServer.Engine
