import EdoproServer.Engine.OCGCore

namespace EdoproServer.Engine
namespace OCGCore

variable {table : DuelTable} {core : OCGCore}

/-- Whether a prompt is open or on its way to the players. -/
def Prompting (core : OCGCore) : Prop :=
  core.asking = true ∨ ∃ message, core.advancing = [some message] ∧ stops message = true

/-- One exchange at a time: an advance loop, a response the engine is taking, or an open prompt. -/
structure Exchange (table : DuelTable) (core : OCGCore) : Prop where
  single : core.advancing.length + core.answering ≤ 1
  recorded : core.responses = core.accepted ++ (core.rejected ++ core.outstanding)
  few : core.rejected.length + core.outstanding.length ≤ 1
  opened : core.asking = true →
    core.advancing = [] ∧ core.answering = 0 ∧ core.rejected = [] ∧ core.outstanding = []
  rejecting : core.rejected ≠ [] → core.advancing = [some .retry]
  routing : ∀ message, core.advancing = [some message] → core.outstanding = []
  retrying : core.advancing = [some .retry] →
    (core.responseSide.isSome = true ↔ core.rejected ≠ [])
  waiting : core.advancing = [none] ∨ core.answering = 1 →
    (core.responseSide.isSome = true ↔ core.outstanding ≠ [])
  timed : core.timerRunning = true → core.asking = true ∧ table.hasTimeLimit = true

/-- The steps that keep to one response a prompt: a response is taken only while a prompt is open,
the engine takes what it is handed, and nothing is routed besides the advance loop while the engine
has a response to judge. -/
def Disciplined (table : DuelTable) (core : OCGCore) : CoreInput → Prop
  | .response client _ => core.takes table client = true → core.asking = true
  | .answered taken => taken = true ∨ core.answering = 0
  | .refreshZones => core.asking = true ∨ (core.outstanding = [] ∧ core.rejected = [])
  | _ => True

namespace Exchange

theorem loops (h : Exchange table core) :
    core.advancing = [] ∨ ∃ loop, core.advancing = [loop] ∧ core.answering = 0 := by
  have hs := h.single
  match hl : core.advancing with
  | [] => exact Or.inl rfl
  | [loop] =>
    rw [hl] at hs
    simp only [List.length_cons, List.length_nil] at hs
    exact Or.inr ⟨loop, rfl, by omega⟩
  | _ :: _ :: _ =>
    rw [hl] at hs
    simp only [List.length_cons] at hs
    omega

/-- The loop of a step is the only one. -/
theorem loop (h : Exchange table core) {loop : Nat} {message : Option EngineMessage}
    (hl : core.advancing[loop]? = some message) :
    core.advancing = [message] ∧ loop = 0 ∧ core.answering = 0 ∧ core.asking = false := by
  cases h.loops with
  | inl hnone => simp [hnone] at hl
  | inr hone =>
    obtain ⟨other, ho, hn⟩ := hone
    rw [ho] at hl
    cases loop with
    | succ n => simp at hl
    | zero =>
      simp only [List.getElem?_cons_zero, Option.some.injEq] at hl
      subst hl
      refine ⟨ho, rfl, hn, ?_⟩
      cases hask : core.asking with
      | false => rfl
      | true =>
        have hno := (h.opened hask).1
        simp [hno] at ho

theorem response (h : Exchange table core) (client : ClientRef) (response : Response)
    (hd : core.takes table client = true → core.asking = true) :
    Exchange table (core.handleResponse table client response) := by
  unfold handleResponse
  split
  · rename_i ht
    obtain ⟨ha, hn, hr, ho⟩ := h.opened (hd ht)
    have htime := h.timed
    have hside : core.responseSide.isSome = true := by
      simp only [takes, Bool.and_eq_true] at ht
      exact ht.1.1
    constructor
    all_goals simp_all [OCGCore.asking, h.recorded]
  · exact h

theorem answered (h : Exchange table core) (taken : Bool)
    (hd : taken = true ∨ core.answering = 0) : Exchange table (core.answered taken) := by
  unfold OCGCore.answered
  split
  · exact h
  · rename_i hn
    have hs := h.single
    have hone : core.answering = 1 := by omega
    have hnone : core.advancing = [] := by
      apply List.length_eq_zero_iff.mp
      omega
    have hask : core.asking = false := by
      cases hask : core.asking with
      | false => rfl
      | true => exact absurd (h.opened hask).2.1 (by omega)
    obtain ⟨-, hrec, hfew, -, hrej, -, -, hwait, htime⟩ := h
    cases hc : core.hasOcgcore with
    | false =>
      constructor
      all_goals simp_all [OCGCore.asking]
    | true =>
      constructor
      all_goals simp_all [OCGCore.asking]

/-- What a loop that waits for the engine leaves of the exchange. -/
theorem idle (h : Exchange table core) {loop : Nat}
    (hl : core.advancing[loop]? = some none) :
    core.rejected = [] ∧ core.timerRunning = false ∧
      (core.responseSide.isSome = true ↔ core.outstanding ≠ []) := by
  obtain ⟨ha, -, -, hask⟩ := h.loop hl
  refine ⟨?_, ?_, h.waiting (Or.inl ha)⟩
  · by_contra hne
    have hretry := h.rejecting hne
    simp [ha] at hretry
  · cases ht : core.timerRunning with
    | false => rfl
    | true => simp [(h.timed ht).1] at hask

theorem advance (h : Exchange table core) (loop : Nat) (message : EngineMessage) :
    Exchange table (core.advance table loop message) := by
  unfold OCGCore.advance
  split
  · rename_i hl
    obtain ⟨ha, hz, hn, hask⟩ := h.loop hl
    obtain ⟨hrej, htime, hwait⟩ := h.idle hl
    have hrec := h.recorded
    have hfew := h.few
    split
    · cases message with
      | request side =>
        constructor
        all_goals simp_all [judge, OCGCore.asking]
      | retry =>
        constructor
        all_goals simp_all [judge, OCGCore.asking]
      | newTurn =>
        constructor
        all_goals simp_all [judge, OCGCore.asking]
      | win =>
        constructor
        all_goals simp_all [judge, OCGCore.asking]
      | other =>
        constructor
        all_goals simp_all [judge, OCGCore.asking]
    · constructor
      all_goals simp_all [OCGCore.asking]
  · exact h

/-- A message that is no prompt, routed while no prompt is open, takes the side back. -/
theorem handle_other (hask : core.asking = false) {message : EngineMessage}
    (hm : stops message = false) (timeLeft : Bool) :
    core.handleResponseOrRetry table message timeLeft = { core with responseSide := none } := by
  simp only [OCGCore.asking, Bool.or_eq_false_iff, Option.isSome_eq_false_iff] at hask
  unfold handleResponseOrRetry
  cases message with
  | request side => simp [stops] at hm
  | retry => simp [stops] at hm
  | newTurn | win | other =>
    cases hs : core.responseSide with
    | none => simp [← hs]
    | some side => simp [hask.1]

/-- Only a RETRY on its way keeps a rejected response in the record. -/
theorem not_rejecting (h : Exchange table core) {message : EngineMessage}
    (ha : core.advancing = [some message]) (hm : message ≠ .retry) : core.rejected = [] := by
  by_contra hne
  have hretry := h.rejecting hne
  rw [ha] at hretry
  simp only [List.cons.injEq, Option.some.injEq, and_true] at hretry
  exact hm hretry

theorem routed (h : Exchange table core) (loop : Nat) (timeLeft : Bool) :
    Exchange table (core.routed table loop timeLeft) := by
  unfold OCGCore.routed
  split
  · rename_i message hl
    obtain ⟨ha, hz, hn, hask⟩ := h.loop hl
    have hout := h.routing message ha
    have hrec := h.recorded
    have hfew := h.few
    have htime := h.timed
    cases hm : stops message with
    | false =>
      have hrej := h.not_rejecting ha (by rintro rfl; simp [stops] at hm)
      rw [handle_other hask hm]
      constructor
      all_goals simp_all [OCGCore.asking]
    | true =>
      cases message with
      | request side =>
        have hrej := h.not_rejecting ha (by simp)
        constructor
        all_goals simp_all [handleResponseOrRetry, setLastResponseRequestMsg, setResponseTimer,
          OCGCore.asking]
      | retry =>
        have hretry := h.retrying ha
        cases hs : core.responseSide with
        | none =>
          constructor
          all_goals simp_all [handleResponseOrRetry, OCGCore.asking]
        | some side =>
          obtain ⟨r, hr⟩ : ∃ r, core.rejected = [r] := by
            apply List.length_eq_one_iff.mp
            have hne := hretry.mp (by simp [hs])
            have hpos := List.length_pos_of_ne_nil hne
            omega
          constructor
          all_goals simp_all [handleResponseOrRetry, setResponseTimer, OCGCore.asking]
      | newTurn | win | other => simp [stops] at hm
  · exact h

theorem refreshed (h : Exchange table core) (loop : Nat) :
    Exchange table (core.refreshed table loop) := by
  unfold OCGCore.refreshed
  split
  · rename_i message hl
    split
    · exact h
    · rename_i hm
      obtain ⟨ha, hz, hn, hask⟩ := h.loop hl
      have hout := h.routing message ha
      have hrej := h.not_rejecting ha hm
      have hrec := h.recorded
      have htime := h.timed
      rw [handle_other hask rfl]
      constructor
      all_goals simp_all [OCGCore.asking]
  · exact h

theorem advanceEnds (h : Exchange table core) (loop : Nat) :
    Exchange table (core.advanceEnds loop) := by
  unfold OCGCore.advanceEnds
  split
  · rename_i hl
    obtain ⟨ha, hz, hn, hask⟩ := h.loop hl
    obtain ⟨hrej, htime, -⟩ := h.idle hl
    have hrec := h.recorded
    have hfew := h.few
    constructor
    all_goals simp_all [OCGCore.asking]
  · exact h

theorem dispose (h : Exchange table core) : Exchange table core.dispose := by
  obtain ⟨hone, hrec, hfew, hopen, hrej, hrout, hretry, hwait, -⟩ := h
  exact ⟨hone, hrec, hfew, hopen, hrej, hrout, hretry, hwait, by simp [OCGCore.dispose]⟩

theorem advanceFails (h : Exchange table core) (loop : Nat) :
    Exchange table (core.handleAdvanceError table loop) := by
  unfold handleAdvanceError
  split
  · exact h
  · rename_i message hl
    split
    · exact h
    · rename_i hm
      obtain ⟨ha, hz, hn, hask⟩ := h.loop hl
      have hrej : core.rejected = [] := by
        by_contra hne
        have hretry := h.rejecting hne
        rw [ha] at hretry
        simp only [List.cons.injEq, and_true] at hretry
        exact hm hretry
      have hrec := h.recorded
      have hfew := h.few
      rw [handle_other (by simpa [OCGCore.dispose, OCGCore.asking] using hask) rfl]
      constructor
      all_goals simp_all [OCGCore.dispose, OCGCore.asking]

theorem refreshZones (h : Exchange table core)
    (hd : core.asking = true ∨ (core.outstanding = [] ∧ core.rejected = [])) :
    Exchange table (core.handleResponseOrRetry table .other false) := by
  obtain ⟨hone, hrec, hfew, hopen, hrej, hrout, hretry, hwait, htime⟩ := h
  unfold handleResponseOrRetry
  dsimp only
  split
  · cases hd with
    | inl hask =>
      obtain ⟨ha, hn, hr, ho⟩ := hopen hask
      constructor
      all_goals simp_all [OCGCore.asking]
    | inr hnone =>
      constructor
      all_goals simp_all [OCGCore.asking]
  · exact ⟨hone, hrec, hfew, hopen, hrej, hrout, hretry, hwait, htime⟩

theorem responseTimeout (h : Exchange table core) :
    Exchange table core.handleResponseTimeout := by
  unfold handleResponseTimeout
  split
  · rename_i hrun
    have hask := (h.timed hrun).1
    obtain ⟨ha, hn, hr, ho⟩ := h.opened hask
    have hrec := h.recorded
    constructor
    all_goals simp_all [OCGCore.asking]
  · exact h

theorem resend (h : Exchange table core) (client : ClientRef) (timeLeft : Bool) :
    Exchange table (core.resendResponseRequestToClient table client timeLeft) := by
  unfold resendResponseRequestToClient
  split
  · rename_i hr
    simp only [Bool.and_eq_true] at hr
    have hask : core.asking = true := by simp [OCGCore.asking, hr.2]
    obtain ⟨hone, hrec, hfew, hopen, hrej, hrout, hretry, hwait, -⟩ := h
    refine ⟨hone, hrec, hfew, hopen, hrej, hrout, hretry, hwait, ?_⟩
    intro hrun
    simp only [setResponseTimer, Bool.and_eq_true] at hrun
    exact ⟨hask, hrun.1⟩
  · exact h

/-- A disciplined step keeps to one exchange at a time. -/
theorem step (h : Exchange table core) {input : CoreInput} (hd : Disciplined table core input) :
    Exchange table (OCGCore.step table core input) := by
  cases input with
  | response client response => exact h.response client response hd
  | answered taken => exact h.answered taken hd
  | message loop message => exact h.advance loop message
  | refreshed loop => exact h.refreshed loop
  | routed loop timeLeft => exact h.routed loop timeLeft
  | advanceEnds loop => exact h.advanceEnds loop
  | advanceFails loop => exact h.advanceFails loop
  | refreshZones => exact h.refreshZones hd
  | resend client timeLeft => exact h.resend client timeLeft
  | responseTimeout => exact h.responseTimeout
  | dispose => exact h.dispose

end Exchange

/-! ## Whom a response comes from -/

/-- Every response that was handed over is the only one to its prompt and comes from the player the
prompt was addressed to. -/
structure Prompted (table : DuelTable) (core : OCGCore) : Prop where
  sided : ∀ side, core.responseSide = some side →
    core.asked = some side ∨ ∃ side', core.advancing = [some (.request side')]
  current : core.asking = true ∨ core.advancing = [some .retry] →
    ∀ side, core.responseSide = some side →
      core.prompts.getLast? = some (table.getActivePlayer side core.turn)
  requested : ∀ side, core.advancing = [some (.request side)] →
    core.asked = some side ∧
      core.prompts.getLast? = some (table.getActivePlayer side core.turn)
  known : ∀ f ∈ core.forwarded, f.prompt < core.prompts.length
  fresh : core.Prompting → ∀ f ∈ core.forwarded, f.prompt + 1 < core.prompts.length
  distinct : (core.forwarded.map Forwarded.prompt).Nodup
  addressed : ∀ f ∈ core.forwarded, core.prompts[f.prompt]? = some (some f.client)

namespace Prompted

theorem response (h : Prompted table core) (he : Exchange table core) (client : ClientRef)
    (response : Response) (hd : core.takes table client = true → core.asking = true) :
    Prompted table (core.handleResponse table client response) := by
  unfold handleResponse
  split
  · rename_i ht
    have hask := hd ht
    obtain ⟨ha, -⟩ := he.opened hask
    simp only [takes, responsePlayer, Bool.and_eq_true] at ht
    obtain ⟨⟨hside, hplayer⟩, -⟩ := ht
    obtain ⟨side, hs⟩ := Option.isSome_iff_exists.mp hside
    have hlast := h.current (Or.inl hask) side hs
    simp only [hs, Option.bind_some, decide_eq_true_eq] at hplayer
    rw [hplayer, List.getLast?_eq_getElem?] at hlast
    have hlt := (List.getElem?_eq_some_iff.mp hlast).1
    have hfresh := h.fresh (Or.inl hask)
    constructor
    · exact h.sided
    · simp [OCGCore.asking, ha]
    · simp [ha]
    · intro f hf
      cases List.mem_append.mp hf with
      | inl hold => exact h.known f hold
      | inr hnew =>
        simp only [List.mem_singleton] at hnew
        subst hnew
        exact hlt
    · simp [Prompting, OCGCore.asking, ha]
    · simp only [List.map_append, List.map_cons, List.map_nil]
      apply List.nodup_append.mpr
      refine ⟨h.distinct, List.nodup_singleton _, ?_⟩
      intro n hn m hm
      obtain ⟨f, hf, hfn⟩ := List.mem_map.mp hn
      simp only [List.mem_singleton] at hm
      have hold := hfresh f hf
      omega
    · intro f hf
      cases List.mem_append.mp hf with
      | inl hold => exact h.addressed f hold
      | inr hnew =>
        simp only [List.mem_singleton] at hnew
        subst hnew
        exact hlast
  · exact h

/-- Steps that leave the prompts, the responses handed over and the turn as they are. -/
theorem carry {core' : OCGCore} (h : Prompted table core) (hp : core'.prompts = core.prompts)
    (hf : core'.forwarded = core.forwarded)
    (hs : ∀ side, core'.responseSide = some side → core'.asked = some side ∨
      ∃ side', core'.advancing = [some (.request side')])
    (hc : core'.asking = true ∨ core'.advancing = [some .retry] →
      ∀ side, core'.responseSide = some side →
        core'.prompts.getLast? = some (table.getActivePlayer side core'.turn))
    (hr : ∀ side, core'.advancing = [some (.request side)] → core'.asked = some side ∧
      core'.prompts.getLast? = some (table.getActivePlayer side core'.turn))
    (hn : core'.Prompting → core.Prompting) : Prompted table core' where
  sided := hs
  current := hc
  requested := hr
  known := by
    rw [hp, hf]
    exact h.known
  fresh hprompting := by
    rw [hp, hf]
    exact h.fresh (hn hprompting)
  distinct := by
    rw [hf]
    exact h.distinct
  addressed := by
    rw [hp, hf]
    exact h.addressed

/-- A prompt of the engine is new: nothing has been handed over for it. -/
theorem prompted (h : Prompted table core) (player : Option ClientRef) :
    (∀ f ∈ core.forwarded, f.prompt + 1 < (core.prompts ++ [player]).length) ∧
      ∀ f ∈ core.forwarded, (core.prompts ++ [player])[f.prompt]? = some (some f.client) := by
  constructor
  · intro f hf
    have hlt := h.known f hf
    simp only [List.length_append, List.length_cons, List.length_nil]
    omega
  · intro f hf
    rw [List.getElem?_append_left (h.known f hf)]
    exact h.addressed f hf

theorem advance (h : Prompted table core) (he : Exchange table core) (loop : Nat)
    (message : EngineMessage) : Prompted table (core.advance table loop message) := by
  unfold OCGCore.advance
  split
  · rename_i hl
    obtain ⟨ha, hz, hn, hask⟩ := he.loop hl
    subst hz
    have hsided := h.sided
    simp only [ha, List.cons.injEq, reduceCtorEq, false_and, exists_false, or_false] at hsided
    have hopen : core.lastResponseRequestMsg.isSome = false ∧ core.isRetrying = false := by
      simpa [OCGCore.asking] using hask
    split
    · cases message with
      | request side =>
        obtain ⟨hnew, hadd⟩ := h.prompted (table.getActivePlayer side core.turn)
        have hknown : ∀ f ∈ core.forwarded, f.prompt < core.prompts.length + 1 :=
          fun f hf => Nat.lt_succ_of_lt (h.known f hf)
        have hdistinct := h.distinct
        constructor
        all_goals simp_all [judge, OCGCore.asking]
      | retry =>
        obtain ⟨hnew, hadd⟩ :=
          h.prompted (core.asked.bind (fun side => table.getActivePlayer side core.turn))
        have hknown : ∀ f ∈ core.forwarded, f.prompt < core.prompts.length + 1 :=
          fun f hf => Nat.lt_succ_of_lt (h.known f hf)
        have hdistinct := h.distinct
        constructor
        all_goals simp_all [judge, OCGCore.asking]
      | newTurn | win | other =>
        apply h.carry
        all_goals simp_all [judge, OCGCore.asking, Prompting, stops]
    · apply h.carry
      all_goals simp_all [OCGCore.asking, Prompting]
  · exact h

theorem routed (h : Prompted table core) (he : Exchange table core) (loop : Nat)
    (timeLeft : Bool) : Prompted table (core.routed table loop timeLeft) := by
  unfold OCGCore.routed
  split
  · rename_i message hl
    obtain ⟨ha, hz, hn, hask⟩ := he.loop hl
    subst hz
    cases hm : stops message with
    | false =>
      rw [Exchange.handle_other hask hm]
      apply h.carry
      all_goals simp_all [OCGCore.asking, Prompting]
    | true =>
      cases message with
      | request side =>
        have hreq := h.requested side ha
        apply h.carry
        all_goals simp_all [handleResponseOrRetry, setLastResponseRequestMsg, setResponseTimer,
          OCGCore.asking, Prompting]
      | retry =>
        have hcur := h.current (Or.inr ha)
        have hsided := h.sided
        cases hs : core.responseSide with
        | none =>
          apply h.carry
          all_goals simp_all [handleResponseOrRetry, OCGCore.asking, Prompting]
        | some side =>
          apply h.carry
          all_goals simp_all [handleResponseOrRetry, setResponseTimer, OCGCore.asking, Prompting]
      | newTurn | win | other => simp [stops] at hm
  · exact h

theorem refreshed (h : Prompted table core) (he : Exchange table core) (loop : Nat) :
    Prompted table (core.refreshed table loop) := by
  unfold OCGCore.refreshed
  split
  · rename_i message hl
    split
    · exact h
    · obtain ⟨ha, hz, hn, hask⟩ := he.loop hl
      have hreq := h.requested
      rw [Exchange.handle_other hask rfl]
      apply h.carry
      all_goals simp_all [OCGCore.asking, Prompting]
  · exact h

theorem advanceEnds (h : Prompted table core) (he : Exchange table core) (loop : Nat) :
    Prompted table (core.advanceEnds loop) := by
  unfold OCGCore.advanceEnds
  split
  · rename_i hl
    obtain ⟨ha, hz, hn, hask⟩ := he.loop hl
    have hsided := h.sided
    apply h.carry
    all_goals simp_all [OCGCore.asking, Prompting]
  · exact h

theorem advanceFails (h : Prompted table core) (he : Exchange table core) (loop : Nat) :
    Prompted table (core.handleAdvanceError table loop) := by
  unfold handleAdvanceError
  split
  · exact h
  · rename_i message hl
    split
    · exact h
    · obtain ⟨ha, hz, hn, hask⟩ := he.loop hl
      rw [Exchange.handle_other (by simpa [OCGCore.dispose, OCGCore.asking] using hask) rfl]
      apply h.carry
      all_goals simp_all [OCGCore.dispose, OCGCore.asking, Prompting]

theorem answered (h : Prompted table core) (he : Exchange table core) (taken : Bool) :
    Prompted table (core.answered taken) := by
  unfold OCGCore.answered
  split
  · exact h
  · rename_i hn
    have hone := he.single
    have hnone : core.advancing = [] := by
      apply List.length_eq_zero_iff.mp
      omega
    have hask : core.asking = false := by
      cases hask : core.asking with
      | false => rfl
      | true => exact absurd (he.opened hask).2.1 hn
    have hsided := h.sided
    cases hgo : (core.hasOcgcore && taken) with
    | false =>
      apply h.carry
      all_goals simp_all [OCGCore.asking, Prompting]
    | true =>
      apply h.carry
      all_goals simp_all [OCGCore.asking, Prompting]

/-- A message routed besides the advance loop at most takes the side back. -/
theorem refreshZones (h : Prompted table core) :
    Prompted table (core.handleResponseOrRetry table .other false) := by
  unfold handleResponseOrRetry
  dsimp only
  split
  · apply h.carry
    · rfl
    · rfl
    · simp
    · simp
    · exact h.requested
    · exact id
  · exact h

theorem responseTimeout (h : Prompted table core) :
    Prompted table core.handleResponseTimeout := by
  unfold handleResponseTimeout
  split
  · apply h.carry
    · rfl
    · rfl
    · simp
    · simp
    · exact h.requested
    · exact id
  · exact h

theorem dispose (h : Prompted table core) : Prompted table core.dispose :=
  h.carry rfl rfl h.sided h.current h.requested id

theorem resend (h : Prompted table core) (client : ClientRef) (timeLeft : Bool) :
    Prompted table (core.resendResponseRequestToClient table client timeLeft) := by
  unfold resendResponseRequestToClient
  split
  · exact h.carry rfl rfl h.sided h.current h.requested id
  · exact h

theorem step (h : Prompted table core) (he : Exchange table core) {input : CoreInput}
    (hd : Disciplined table core input) : Prompted table (OCGCore.step table core input) := by
  cases input with
  | response client response => exact h.response he client response hd
  | answered taken => exact h.answered he taken
  | message loop message => exact h.advance he loop message
  | refreshed loop => exact h.refreshed he loop
  | routed loop timeLeft => exact h.routed he loop timeLeft
  | advanceEnds loop => exact h.advanceEnds he loop
  | advanceFails loop => exact h.advanceFails he loop
  | refreshZones => exact h.refreshZones
  | resend client timeLeft => exact h.resend client timeLeft
  | responseTimeout => exact h.responseTimeout
  | dispose => exact h.dispose

end Prompted

/-! ## Runs -/

/-- The states of a duel whose steps all keep to one response a prompt. -/
inductive DisciplinedRun (table : DuelTable) : OCGCore → Prop where
  | start : DisciplinedRun table started
  | step {core : OCGCore} {input : CoreInput} (h : DisciplinedRun table core)
      (hd : Disciplined table core input) : DisciplinedRun table (OCGCore.step table core input)

/-- At most one response a prompt, from the player the prompt is addressed to, and a record that
holds the accepted responses, then the one the engine has not judged or whose RETRY has not been
handled. -/
structure ResponseDiscipline (core : OCGCore) : Prop where
  onePerPrompt : (core.forwarded.map Forwarded.prompt).Nodup
  addressed : ∀ f ∈ core.forwarded, core.prompts[f.prompt]? = some (some f.client)
  recorded : core.responses = core.accepted ++ (core.rejected ++ core.outstanding)
  open_ : core.rejected ≠ [] → some EngineMessage.retry ∈ core.advancing
  atMostOne : core.rejected.length + core.outstanding.length ≤ 1

theorem DisciplinedRun.invariants (h : DisciplinedRun table core) :
    Exchange table core ∧ Prompted table core := by
  induction h with
  | start =>
    constructor
    · constructor
      all_goals simp [started, OCGCore.asking]
    · constructor
      all_goals simp [started, OCGCore.asking]
  | step h hd ih => exact ⟨ih.1.step hd, ih.2.step ih.1 hd⟩

theorem response_discipline (h : DisciplinedRun table core) : ResponseDiscipline core := by
  obtain ⟨he, hp⟩ := h.invariants
  refine ⟨hp.distinct, hp.addressed, he.recorded, ?_, he.few⟩
  intro hne
  rw [he.rejecting hne]
  exact List.mem_singleton.mpr rfl

/-- Two players and no tag team. -/
def pair : DuelTable :=
  { players := [⟨0, .player, 0⟩, ⟨1, .opponent, 1⟩], isTag := false, isPositionSwapped := false,
    hasTimeLimit := true }

/-- The engine asks the first side, its player answers and the engine goes on. -/
theorem response_discipline_answered :
    ResponseDiscipline (([.message 0 (.request 0), .routed 0 true, .response 0 [1],
      .answered true, .message 0 .other] : List CoreInput).foldl (OCGCore.step pair) started) := by
  have hrun : DisciplinedRun pair (([.message 0 (.request 0), .routed 0 true, .response 0 [1],
      .answered true, .message 0 .other] : List CoreInput).foldl (OCGCore.step pair) started) := by
    simp only [List.foldl_cons, List.foldl_nil]
    apply DisciplinedRun.step
    · apply DisciplinedRun.step
      · apply DisciplinedRun.step
        · apply DisciplinedRun.step
          · exact DisciplinedRun.step DisciplinedRun.start trivial
          · exact trivial
        · intro _
          decide
      · exact Or.inl rfl
    · exact trivial
  exact response_discipline hrun

/-- A second RESPONSE before the engine's next message is recorded and handed over too, for the
prompt that was answered already. -/
theorem response_twice :
    ¬ ResponseDiscipline (([.message 0 (.request 0), .routed 0 true, .response 0 [1],
      .response 0 [2]] : List CoreInput).foldl (OCGCore.step pair) started) := by
  intro h
  exact absurd h.onePerPrompt (by decide)

end OCGCore
end EdoproServer.Engine
