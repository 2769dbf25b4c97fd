import EdoproServer.Engine.TimerState

namespace EdoproServer.Engine

/-! ## Bounds of one bank -/

namespace Bank

/-- What holds of a bank at all times. -/
structure Sound (timeLimit : Nat) (bank : Bank) : Prop where
  left : 0 ≤ bank.leftMs ∧ bank.leftMs ≤ TimerState.maxTimeMs timeLimit
  compensator : 0 ≤ bank.compensatorMs
  backed : 0 ≤ bank.backedMs ∧ bank.backedMs ≤ TimerState.maxTimeMs timeLimit
  seconds : 1000 ∣ bank.backedMs

/-- The thinking time a bank can pay for. A backed second is worth two: it comes back as time left
and as compensation. -/
def worth (bank : Bank) : Int := bank.leftMs + bank.compensatorMs + 2 * bank.backedMs

variable {timeLimit : Nat} {bank : Bank}

theorem Sound.full (timeLimit : Nat) : Sound timeLimit (full (TimerState.maxTimeMs timeLimit)) := by
  have hmax : TimerState.maxTimeMs timeLimit = timeLimit * 1000 := rfl
  constructor
  · simp only [Bank.full]
    omega
  · simp only [Bank.full]
    omega
  · simp only [Bank.full]
    omega
  · exact ⟨timeLimit, by simp only [Bank.full]; omega⟩

theorem Sound.worth_nonneg (h : Sound timeLimit bank) : bank.leftMs ≤ bank.worth := by
  have hcompensator := h.compensator
  have hbacked := h.backed
  unfold worth
  omega

theorem Sound.charge (h : Sound timeLimit bank) (ms : Nat) :
    Sound timeLimit { bank with leftMs := max 0 (bank.leftMs - ms) } :=
  { h with left := by have hleft := h.left; dsimp only; omega }

theorem Sound.spend (h : Sound timeLimit bank) : Sound timeLimit { bank with leftMs := 0 } :=
  { h with left := by have hleft := h.left; dsimp only; omega }

end Bank

namespace TimerState

/-- Every bank is sound. -/
def Sound (timeLimit : Nat) (timers : TimerState) : Prop :=
  ∀ pos, (timers.bank pos).Sound timeLimit

variable {timeLimit : Nat} {timers : TimerState} {pos : Team} {now : Nat}

theorem Sound.setBank (h : Sound timeLimit timers) {bank : Bank} (hb : bank.Sound timeLimit) :
    Sound timeLimit (timers.setBank pos bank) := by
  intro other
  by_cases ho : other = pos
  · subst ho
    simpa [TimerState.setBank] using hb
  · simpa [TimerState.setBank, Function.update_of_ne ho] using h other

theorem Sound.congr {timers' : TimerState} (h : Sound timeLimit timers)
    (hbank : timers'.bank = timers.bank) : Sound timeLimit timers' := by
  intro pos
  rw [hbank]
  exact h pos

theorem Sound.settle (h : Sound timeLimit timers) (now : Nat) :
    Sound timeLimit (timers.settle now) := by
  unfold TimerState.settle
  split
  · exact h
  · split
    · exact h.setBank ((h _).charge _)
    · exact h

theorem Sound.clear (h : Sound timeLimit timers) (settleElapsed : Bool) (now : Nat) :
    Sound timeLimit (timers.clear settleElapsed now) := by
  cases settleElapsed with
  | true => exact (h.settle now).congr rfl
  | false => exact h.congr rfl

theorem Sound.handleResponseTimeout (h : Sound timeLimit timers) (pos : Team) (now : Nat) :
    Sound timeLimit (timers.handleResponseTimeout pos now) := by
  unfold TimerState.handleResponseTimeout
  split
  · exact h
  · have hcleared := h.clear false now
    exact Sound.congr (Sound.setBank hcleared (hcleared pos).spend) rfl

theorem Sound.setResponseTimer (h : Sound timeLimit timers) (pos : Team)
    (settlePrevious awaitingConfirm : Bool) (now : Nat) :
    Sound timeLimit (timers.setResponseTimer timeLimit pos settlePrevious awaitingConfirm now) := by
  have hcleared := h.clear settlePrevious now
  unfold TimerState.setResponseTimer
  dsimp only
  split
  · exact hcleared
  · split
    · exact hcleared.handleResponseTimeout pos now
    · exact hcleared.congr rfl

theorem Sound.chargeConfirm (h : Sound timeLimit timers) (pos : Team) (now : Nat) :
    Sound timeLimit (timers.chargeConfirm pos now) := by
  unfold TimerState.chargeConfirm
  dsimp only
  split
  · rename_i hquick
    exact h.setBank { h pos with compensator := by dsimp only; omega }
  · exact h.setBank ((h pos).charge _)

theorem Sound.rescheduleTimerAfterConfirm (h : Sound timeLimit timers) (pos : Team) (now : Nat) :
    Sound timeLimit (timers.rescheduleTimerAfterConfirm timeLimit pos now) := by
  unfold TimerState.rescheduleTimerAfterConfirm
  split
  · exact h
  · exact Sound.setResponseTimer ((h.chargeConfirm pos now).congr rfl) pos false false now

theorem Sound.increaseResponseTime (h : Sound timeLimit timers) (pos : Team) (gameMsg : Nat)
    (response : Response) :
    Sound timeLimit (timers.increaseResponseTime timeLimit pos gameMsg response) := by
  unfold TimerState.increaseResponseTime
  dsimp only
  split
  · exact h
  · rename_i hgives
    push Not at hgives
    obtain ⟨hlimit, -, hbacked, hleft, -⟩ := hgives
    have hmax : maxTimeMs timeLimit = timeLimit * 1000 := rfl
    obtain ⟨hl, hc, hb, seconds, hseconds⟩ := h pos
    exact h.setBank
      { left := by dsimp only; omega
        compensator := by dsimp only; omega
        backed := by dsimp only; omega
        seconds := ⟨seconds - 1, by dsimp only; omega⟩ }

theorem Sound.newTurn (h : Sound timeLimit timers) :
    Sound timeLimit (timers.newTurn timeLimit) := by
  unfold TimerState.newTurn
  split
  · exact h
  · intro pos
    exact Bank.Sound.full timeLimit

theorem Sound.settleResponse (h : Sound timeLimit timers) (pos : Team) (gameMsg : Nat)
    (response : Response) (now : Nat) :
    Sound timeLimit (timers.settleResponse timeLimit pos gameMsg response now) := by
  unfold TimerState.settleResponse
  split
  · exact h
  · exact (h.clear true now).increaseResponseTime pos gameMsg response

end TimerState

/-! ## Clocks over time -/

/-- What happens to the timers: a prompt starts the clock of a team, a response stops it, the
callback of the running timer fires, the engine is disposed of. A tick lets time pass only. -/
inductive TimerOp where
  | tick
  | start (pos : Team)
  | stop
  | response (pos : Team) (gameMsg : Nat) (answer : Response)
  | timeConfirm (pos : Team)
  | newTurn
  | timeout
  | dispose
  deriving DecidableEq, Repr

def TimerOp.apply (timeLimit : Nat) (timers : TimerState) (now : Nat) : TimerOp → TimerState
  | .tick => timers
  | .start pos => timers.setResponseTimer timeLimit pos true true now
  | .stop => timers.clear true now
  | .response pos gameMsg answer => timers.settleResponse timeLimit pos gameMsg answer now
  | .timeConfirm pos => timers.rescheduleTimerAfterConfirm timeLimit pos now
  | .newTurn => timers.newTurn timeLimit
  | .timeout =>
    match timers.runningPos with
    | none => timers
    | some pos => timers.handleResponseTimeout pos now
  | .dispose => timers.clear false now

theorem TimerOp.sound_apply {timeLimit : Nat} {timers : TimerState} (op : TimerOp)
    (h : timers.Sound timeLimit) (now : Nat) : (op.apply timeLimit timers now).Sound timeLimit := by
  cases op with
  | tick => exact h
  | start pos => exact h.setResponseTimer pos true true now
  | stop => exact h.clear true now
  | response pos gameMsg answer => exact h.settleResponse pos gameMsg answer now
  | timeConfirm pos => exact h.rescheduleTimerAfterConfirm pos now
  | newTurn => exact h.newTurn
  | timeout =>
    simp only [TimerOp.apply]
    split
    · exact h
    · exact h.handleResponseTimeout _ now
  | dispose => exact h.clear false now

/-- The timers, whom the engine is waiting for while it is there, and how long each team has been
waited for since the last new turn. -/
structure Clock where
  timers : TimerState
  now : Nat
  alive : Bool
  asked : Option Team
  thinking : Team → Nat

namespace Clock

def start (timeLimit now : Nat) : Clock :=
  { timers := TimerState.started timeLimit, now := now, alive := true, asked := none,
    thinking := fun _ => 0 }

/-- Time passes. -/
def advance (clock : Clock) (now : Nat) : Clock :=
  { clock with
    now := now
    thinking := fun pos =>
      clock.thinking pos + if clock.asked = some pos then now - clock.now else 0 }

/-- Whom the engine waits for after something happened. -/
def askedAfter (clock : Clock) : TimerOp → Option Team
  | .start pos => if clock.alive then some pos else none
  | .stop => none
  | .response _ _ _ => none
  | .timeout => if clock.timers.runningPos.isSome then none else clock.asked
  | .dispose => none
  | .tick => clock.asked
  | .timeConfirm _ => clock.asked
  | .newTurn => clock.asked

def perform (timeLimit : Nat) (clock : Clock) (op : TimerOp) : Clock :=
  { clock with
    timers := op.apply timeLimit clock.timers clock.now
    alive := clock.alive && op ≠ .dispose
    asked := clock.askedAfter op
    thinking := if op = .newTurn then fun _ => 0 else clock.thinking }

def step (timeLimit : Nat) (clock : Clock) (event : Nat × TimerOp) : Clock :=
  (clock.advance event.1).perform timeLimit event.2

def run (timeLimit : Nat) (clock : Clock) (events : List (Nat × TimerOp)) : Clock :=
  events.foldl (step timeLimit) clock

/-- The clock never goes back, and a timer fires no later than it is due. -/
def Punctual (timeLimit : Nat) (clock : Clock) : List (Nat × TimerOp) → Prop
  | [] => True
  | event :: events =>
    (clock.now ≤ event.1 ∧ ∀ due ∈ clock.timers.timer, event.1 ≤ due) ∧
      Punctual timeLimit (clock.step timeLimit event) events

/-- A team whose clock is set going has time left. -/
def HasTime (clock : Clock) : TimerOp → Prop
  | .start pos => 0 < ((clock.timers.clear true clock.now).bank pos).leftMs
  | .timeConfirm pos =>
    clock.timers.runningPos = some pos →
      0 < ((clock.timers.chargeConfirm pos clock.now).bank pos).leftMs
  | _ => True

/-- Whenever a clock is set going, the team has time left. -/
def AlwaysTime (timeLimit : Nat) (clock : Clock) : List (Nat × TimerOp) → Prop
  | [] => True
  | event :: events =>
    HasTime (clock.advance event.1) event.2 ∧
      AlwaysTime timeLimit (clock.step timeLimit event) events

end Clock

/-! ## What the clocks leave in the banks -/

namespace TimerState

variable {timeLimit : Nat} {timers : TimerState}

@[simp] theorem setBank_bank_self (pos : Team) (bank : Bank) :
    (timers.setBank pos bank).bank pos = bank := by
  simp [setBank]

theorem setBank_bank_of_ne {pos other : Team} (h : other ≠ pos) (bank : Bank) :
    (timers.setBank pos bank).bank other = timers.bank other := by
  simp [setBank, h]

@[simp] theorem clear_runningPos (settleElapsed : Bool) (now : Nat) :
    (timers.clear settleElapsed now).runningPos = none := rfl

@[simp] theorem clear_timer (settleElapsed : Bool) (now : Nat) :
    (timers.clear settleElapsed now).timer = none := rfl

@[simp] theorem clear_false_bank (now : Nat) : (timers.clear false now).bank = timers.bank := rfl

theorem settle_bank_of_ne (now : Nat) {pos : Team} (h : timers.runningPos ≠ some pos) :
    (timers.settle now).bank pos = timers.bank pos := by
  unfold settle
  split
  · rfl
  · rename_i other hother
    have hne : pos ≠ other := by
      intro he
      exact h (he ▸ hother)
    split
    · exact setBank_bank_of_ne hne _
    · rfl

/-- A running team is charged in full while it has the time. -/
theorem settle_worth (now : Nat) {pos : Team} (h : timers.runningPos = some pos)
    (helapsed : timers.elapsedMs now ≤ (timers.bank pos).leftMs) :
    ((timers.settle now).bank pos).worth = (timers.bank pos).worth - timers.elapsedMs now := by
  unfold settle
  rw [h]
  dsimp only
  split
  · simp only [setLeftMs, setBank_bank_self, Bank.worth]
    omega
  · omega

/-- A team with time left gets its clock started. -/
theorem setResponseTimer_of_left {pos : Team} {settlePrevious awaitingConfirm : Bool} {now : Nat}
    (hlimit : 0 < timeLimit) (hpos : pos ≠ .spectator)
    (hleft : 0 < ((timers.clear settlePrevious now).bank pos).leftMs) :
    timers.setResponseTimer timeLimit pos settlePrevious awaitingConfirm now =
      (timers.clear settlePrevious now).schedule pos
        ((timers.clear settlePrevious now).bank pos).leftMs.toNat awaitingConfirm now := by
  unfold setResponseTimer
  dsimp only
  rw [if_neg (by simp only [hpos, or_false]; omega), if_neg (by omega)]
  congr 2
  omega

theorem setResponseTimer_spectator (settlePrevious awaitingConfirm : Bool) (now : Nat) :
    timers.setResponseTimer timeLimit .spectator settlePrevious awaitingConfirm now =
      timers.clear settlePrevious now := by
  simp [setResponseTimer]

theorem chargeConfirm_bank_of_ne {pos other : Team} (h : other ≠ pos) (now : Nat) :
    (timers.chargeConfirm pos now).bank other = timers.bank other := by
  unfold chargeConfirm
  dsimp only
  split
  · exact setBank_bank_of_ne h _
  · exact setBank_bank_of_ne h _

/-- A confirmation is paid for out of either part of the bank. -/
theorem chargeConfirm_worth {pos : Team} (now : Nat)
    (helapsed : timers.elapsedMs now ≤ (timers.bank pos).leftMs) :
    ((timers.chargeConfirm pos now).bank pos).worth =
      (timers.bank pos).worth - timers.elapsedMs now := by
  unfold chargeConfirm
  dsimp only
  split
  · simp only [setBank_bank_self, Bank.worth]
    omega
  · simp only [setLeftMs, setBank_bank_self, Bank.worth]
    omega

/-- Giving time back moves it between the parts of a bank. -/
theorem increaseResponseTime_worth (pos other : Team) (gameMsg : Nat) (response : Response) :
    ((timers.increaseResponseTime timeLimit pos gameMsg response).bank other).worth ≤
      (timers.bank other).worth := by
  unfold increaseResponseTime
  dsimp only
  split
  · exact le_refl _
  · by_cases ho : other = pos
    · subst ho
      simp only [setBank_bank_self, Bank.worth]
      omega
    · rw [setBank_bank_of_ne ho]

theorem increaseResponseTime_runningPos (pos : Team) (gameMsg : Nat) (response : Response) :
    (timers.increaseResponseTime timeLimit pos gameMsg response).runningPos =
      timers.runningPos := by
  unfold increaseResponseTime
  dsimp only
  split
  · rfl
  · rfl

end TimerState

/-! ## Thinking time is paid for -/

namespace Clock

/-- The time the running clock shows for a team. -/
def running (clock : Clock) (pos : Team) : Int :=
  if clock.timers.runningPos = some pos then clock.now - clock.timers.startedAtMs else 0

/-- What a team has thought and what its bank is still worth never exceed the worth of a full bank
and what the running clock is yet to charge. -/
structure Paid (timeLimit : Nat) (clock : Clock) : Prop where
  sound : clock.timers.Sound timeLimit
  positive : 0 < clock.now
  started : clock.timers.runningPos.isSome = true →
    0 < clock.timers.startedAtMs ∧ clock.timers.startedAtMs ≤ clock.now
  due : ∀ pos, clock.timers.runningPos = some pos → ∃ due, clock.timers.timer = some due ∧
    (due : Int) ≤ clock.timers.startedAtMs + (clock.timers.bank pos).leftMs
  punctual : ∀ due, clock.timers.timer = some due → clock.now ≤ due
  asked : ∀ pos, pos ≠ .spectator → clock.asked = some pos → clock.timers.runningPos = some pos
  dead : clock.alive = false → clock.asked = none
  paid : clock.alive = true → ∀ pos, pos ≠ .spectator →
    (clock.thinking pos : Int) + (clock.timers.bank pos).worth ≤
      4 * TimerState.maxTimeMs timeLimit + clock.running pos
  bounded : ∀ pos, pos ≠ .spectator →
    (clock.thinking pos : Int) ≤ 4 * TimerState.maxTimeMs timeLimit

variable {timeLimit : Nat} {clock : Clock}

theorem Paid.start {now : Nat} (h : 0 < now) : Paid timeLimit (Clock.start timeLimit now) where
  sound := fun _ => Bank.Sound.full timeLimit
  positive := h
  started := by simp [Clock.start, TimerState.started]
  due := by simp [Clock.start, TimerState.started]
  punctual := by simp [Clock.start, TimerState.started]
  asked := by simp [Clock.start]
  dead := by simp [Clock.start]
  paid := by
    intro _ pos _
    simp [Clock.start, TimerState.started, Clock.running, Bank.full, Bank.worth]
    omega
  bounded := by
    intro pos _
    have hmax : TimerState.maxTimeMs timeLimit = timeLimit * 1000 := rfl
    simp only [Clock.start]
    omega

/-- The elapsed time of the running team is within the time it has left. -/
theorem Paid.elapsed (h : Paid timeLimit clock) {pos : Team}
    (hrun : clock.timers.runningPos = some pos) :
    (clock.timers.elapsedMs clock.now : Int) = clock.running pos ∧
      (clock.timers.elapsedMs clock.now : Int) ≤ (clock.timers.bank pos).leftMs := by
  obtain ⟨hpos, hle⟩ := h.started (by simp [hrun])
  obtain ⟨due, htimer, hdue⟩ := h.due pos hrun
  have hnow := h.punctual due htimer
  have helapsed : clock.timers.elapsedMs clock.now = clock.now - clock.timers.startedAtMs := by
    unfold TimerState.elapsedMs
    rw [if_neg (by omega)]
  rw [helapsed, running, if_pos hrun]
  omega

/-- A bank is worth at least what the running clock is yet to charge. -/
theorem Paid.running_le_worth (h : Paid timeLimit clock) (pos : Team) :
    clock.running pos ≤ (clock.timers.bank pos).worth := by
  have hworth := (h.sound pos).worth_nonneg
  by_cases hrun : clock.timers.runningPos = some pos
  · obtain ⟨hsame, hle⟩ := h.elapsed hrun
    omega
  · have hleft := (h.sound pos).left
    rw [running, if_neg hrun]
    omega

theorem running_le_advance {now : Nat} (hnow : clock.now ≤ now) (pos : Team) :
    clock.running pos ≤ (clock.advance now).running pos := by
  by_cases hrun : clock.timers.runningPos = some pos
  · simp only [running, Clock.advance, hrun, if_true]
    omega
  · simp only [running, Clock.advance, hrun, if_false]
    exact le_refl _

theorem Paid.advance (h : Paid timeLimit clock) {now : Nat} (hnow : clock.now ≤ now)
    (hdue : ∀ due, clock.timers.timer = some due → now ≤ due) :
    Paid timeLimit (clock.advance now) := by
  have hpaid : clock.alive = true → ∀ pos, pos ≠ .spectator →
      ((clock.advance now).thinking pos : Int) + (clock.timers.bank pos).worth ≤
        4 * TimerState.maxTimeMs timeLimit + (clock.advance now).running pos := by
    intro halive pos hpos
    have hbefore := h.paid halive pos hpos
    by_cases hask : clock.asked = some pos
    · have hrun := h.asked pos hpos hask
      simp only [Clock.advance, hask, running, hrun, if_true] at hbefore ⊢
      omega
    · have hgrows := running_le_advance hnow pos
      simp only [Clock.advance, hask, if_false, Nat.add_zero] at hgrows ⊢
      omega
  have hadvanced : ∀ pos, (clock.advance now).running pos ≤ (clock.timers.bank pos).worth := by
    intro pos
    have hworth := (h.sound pos).worth_nonneg
    have hleft := (h.sound pos).left
    by_cases hrun : clock.timers.runningPos = some pos
    · obtain ⟨due, htimer, hle⟩ := h.due pos hrun
      have hin := hdue due htimer
      simp only [running, Clock.advance, hrun, if_true]
      omega
    · simp only [running, Clock.advance, hrun, if_false]
      omega
  exact
    { sound := h.sound
      positive := by
        have hpos := h.positive
        simp only [Clock.advance]
        omega
      started := by
        intro hrun
        obtain ⟨hpos, hle⟩ := h.started hrun
        exact ⟨hpos, hle.trans hnow⟩
      due := h.due
      punctual := hdue
      asked := h.asked
      dead := h.dead
      paid := hpaid
      bounded := by
        intro pos hpos
        cases halive : clock.alive with
        | true =>
          have hthinks := hpaid halive pos hpos
          have hcovers := hadvanced pos
          omega
        | false =>
          have hthinks := h.bounded pos hpos
          simpa [Clock.advance, h.dead halive] using hthinks }

/-- Stopping the clock charges the team it ran for. -/
theorem Paid.clear_worth (h : Paid timeLimit clock) (halive : clock.alive = true) {pos : Team}
    (hpos : pos ≠ .spectator) :
    (clock.thinking pos : Int) + ((clock.timers.clear true clock.now).bank pos).worth ≤
      4 * TimerState.maxTimeMs timeLimit := by
  have hpaid := h.paid halive pos hpos
  change (clock.thinking pos : Int) + ((clock.timers.settle clock.now).bank pos).worth ≤ _
  by_cases hrun : clock.timers.runningPos = some pos
  · obtain ⟨hsame, hle⟩ := h.elapsed hrun
    rw [TimerState.settle_worth clock.now hrun hle]
    omega
  · rw [TimerState.settle_bank_of_ne clock.now hrun]
    rw [running, if_neg hrun] at hpaid
    omega

/-- While no clock runs, thinking and worth are within a full bank. -/
theorem Paid.idle {clock' : Clock} (h : Paid timeLimit clock)
    (hsound : clock'.timers.Sound timeLimit) (hnow : clock'.now = clock.now)
    (hrunning : clock'.timers.runningPos = none) (htimer : clock'.timers.timer = none)
    (hasked : ∀ pos, pos ≠ .spectator → clock'.asked ≠ some pos)
    (hdead : clock'.alive = false → clock'.asked = none)
    (hthinking : clock'.thinking = clock.thinking)
    (hpaid : clock'.alive = true → ∀ pos, pos ≠ .spectator →
      (clock.thinking pos : Int) + (clock'.timers.bank pos).worth ≤
        4 * TimerState.maxTimeMs timeLimit) : Paid timeLimit clock' where
  sound := hsound
  positive := hnow ▸ h.positive
  started := by simp [hrunning]
  due := by simp [hrunning]
  punctual := by simp [htimer]
  asked := by
    intro pos hpos hask
    exact absurd hask (hasked pos hpos)
  dead := hdead
  paid := by
    intro halive pos hpos
    have hwithin := hpaid halive pos hpos
    rw [hthinking, running, hrunning]
    simpa using hwithin
  bounded := by
    intro pos hpos
    rw [hthinking]
    exact h.bounded pos hpos

/-- A clock that was just set going. -/
theorem Paid.scheduled {clock' : Clock} (h : Paid timeLimit clock) (pos : Team)
    (hsound : clock'.timers.Sound timeLimit) (hnow : clock'.now = clock.now)
    (hrunning : clock'.timers.runningPos = some pos)
    (hstarted : clock'.timers.startedAtMs = clock.now)
    (htimer : clock'.timers.timer = some (clock.now + (clock'.timers.bank pos).leftMs.toNat))
    (hasked : ∀ other, other ≠ .spectator → clock'.asked = some other → other = pos)
    (hdead : clock'.alive = false → clock'.asked = none)
    (hthinking : clock'.thinking = clock.thinking)
    (hpaid : clock'.alive = true → ∀ pos, pos ≠ .spectator →
      (clock.thinking pos : Int) + (clock'.timers.bank pos).worth ≤
        4 * TimerState.maxTimeMs timeLimit) : Paid timeLimit clock' where
  sound := hsound
  positive := hnow ▸ h.positive
  started := by
    intro _
    rw [hstarted, hnow]
    exact ⟨h.positive, le_refl _⟩
  due := by
    intro other hother
    rw [hrunning, Option.some.injEq] at hother
    subst hother
    have hleft := (hsound pos).left
    refine ⟨_, htimer, ?_⟩
    rw [hstarted]
    omega
  punctual := by
    intro due hdue
    rw [htimer, Option.some.injEq] at hdue
    omega
  asked := by
    intro other hother hask
    rw [hasked other hother hask, hrunning]
  dead := hdead
  paid := by
    intro halive other hother
    have hwithin := hpaid halive other hother
    rw [hthinking]
    by_cases hrun : clock'.timers.runningPos = some other
    · rw [running, if_pos hrun, hstarted, hnow]
      omega
    · rw [running, if_neg hrun]
      omega
  bounded := by
    intro other hother
    rw [hthinking]
    exact h.bounded other hother

theorem Paid.perform_stop (h : Paid timeLimit clock) :
    Paid timeLimit (clock.perform timeLimit .stop) :=
  h.idle (h.sound.clear true clock.now) rfl rfl rfl (by simp [Clock.perform, askedAfter])
    (by simp [Clock.perform, askedAfter]) (by simp [Clock.perform])
    (by
      intro halive pos hpos
      have halive : clock.alive = true := by simpa [Clock.perform] using halive
      exact h.clear_worth halive hpos)

theorem Paid.perform_response (hlimit : 0 < timeLimit) (h : Paid timeLimit clock) (pos : Team)
    (gameMsg : Nat) (answer : Response) :
    Paid timeLimit (clock.perform timeLimit (.response pos gameMsg answer)) := by
  have hop : (TimerOp.response pos gameMsg answer).apply timeLimit clock.timers clock.now =
      (clock.timers.clear true clock.now).increaseResponseTime timeLimit pos gameMsg answer := by
    rw [TimerOp.apply, TimerState.settleResponse, if_neg (by omega)]
  have htimer : ∀ timers : TimerState,
      (timers.increaseResponseTime timeLimit pos gameMsg answer).timer = timers.timer := by
    intro timers
    unfold TimerState.increaseResponseTime
    dsimp only
    split
    · rfl
    · rfl
  refine h.idle ?_ rfl ?_ ?_ (by simp [Clock.perform, askedAfter])
    (by simp [Clock.perform, askedAfter]) (by simp [Clock.perform]) ?_
  · exact h.sound.settleResponse pos gameMsg answer clock.now
  · simp only [Clock.perform, hop, TimerState.increaseResponseTime_runningPos,
      TimerState.clear_runningPos]
  · simp only [Clock.perform, hop, htimer, TimerState.clear_timer]
  · intro halive other hother
    have halive : clock.alive = true := by simpa [Clock.perform] using halive
    have hwithin := h.clear_worth halive hother
    have hless := @TimerState.increaseResponseTime_worth timeLimit
      (clock.timers.clear true clock.now) pos other gameMsg answer
    simp only [Clock.perform, hop]
    omega

theorem Paid.perform_start (hlimit : 0 < timeLimit) (h : Paid timeLimit clock) {pos : Team}
    (htime : clock.HasTime (.start pos)) :
    Paid timeLimit (clock.perform timeLimit (.start pos)) := by
  have halive : (clock.perform timeLimit (.start pos)).alive = true → clock.alive = true := by
    simp [Clock.perform]
  have hdead : (clock.perform timeLimit (.start pos)).alive = false →
      (clock.perform timeLimit (.start pos)).asked = none := by
    intro hdead
    have hdead : clock.alive = false := by simpa [Clock.perform] using hdead
    simp [Clock.perform, askedAfter, hdead]
  have hsound := h.sound.setResponseTimer pos true true clock.now
  by_cases hpos : pos = .spectator
  · subst hpos
    refine h.idle hsound rfl ?_ ?_ ?_ hdead (by simp [Clock.perform]) ?_
    · simp [Clock.perform, TimerOp.apply, TimerState.setResponseTimer_spectator]
    · simp [Clock.perform, TimerOp.apply, TimerState.setResponseTimer_spectator]
    · intro other hother hask
      simp only [Clock.perform, askedAfter] at hask
      split at hask
      · exact hother (Option.some.inj hask).symm
      · cases hask
    · intro hal other hother
      have hwithin := h.clear_worth (halive hal) hother
      simpa [Clock.perform, TimerOp.apply, TimerState.setResponseTimer_spectator] using hwithin
  · have hop : clock.timers.setResponseTimer timeLimit pos true true clock.now = _ :=
      TimerState.setResponseTimer_of_left hlimit hpos htime
    refine h.scheduled pos hsound rfl ?_ ?_ ?_ ?_ hdead (by simp [Clock.perform]) ?_
    · simp only [Clock.perform, TimerOp.apply, hop, TimerState.schedule]
    · simp only [Clock.perform, TimerOp.apply, hop, TimerState.schedule]
    · simp only [Clock.perform, TimerOp.apply, hop, TimerState.schedule]
    · intro other _ hask
      simp only [Clock.perform, askedAfter] at hask
      split at hask
      · exact (Option.some.inj hask).symm
      · cases hask
    · intro hal other hother
      have hwithin := h.clear_worth (halive hal) hother
      simpa only [Clock.perform, TimerOp.apply, hop, TimerState.schedule] using hwithin

theorem Paid.perform_timeConfirm (hlimit : 0 < timeLimit) (h : Paid timeLimit clock) {pos : Team}
    (htime : clock.HasTime (.timeConfirm pos)) :
    Paid timeLimit (clock.perform timeLimit (.timeConfirm pos)) := by
  by_cases hrun : clock.timers.runningPos = some pos
  · have hsound := h.sound.rescheduleTimerAfterConfirm pos clock.now
    obtain ⟨hsame, hle⟩ := h.elapsed hrun
    have hcharged : ∀ other, other ≠ .spectator → clock.alive = true →
        (clock.thinking other : Int) +
          ((clock.timers.chargeConfirm pos clock.now).bank other).worth ≤
          4 * TimerState.maxTimeMs timeLimit := by
      intro other hother halive
      have hpaid := h.paid halive other hother
      by_cases ho : other = pos
      · subst ho
        rw [TimerState.chargeConfirm_worth clock.now hle]
        omega
      · rw [TimerState.chargeConfirm_bank_of_ne ho]
        rw [running, hrun, if_neg (by simpa using Ne.symm ho)] at hpaid
        omega
    have hop : clock.timers.rescheduleTimerAfterConfirm timeLimit pos clock.now =
        { clock.timers.chargeConfirm pos clock.now with awaitingConfirm := false }.setResponseTimer
          timeLimit pos false false clock.now := by
      rw [TimerState.rescheduleTimerAfterConfirm, if_neg]
      simp only [hrun, ne_eq, not_true_eq_false, or_false]
      omega
    have hdead : (clock.perform timeLimit (.timeConfirm pos)).alive = false →
        (clock.perform timeLimit (.timeConfirm pos)).asked = none := by
      intro hdead
      exact h.dead (by simpa [Clock.perform] using hdead)
    by_cases hpos : pos = .spectator
    · subst hpos
      refine h.idle hsound rfl ?_ ?_ ?_ hdead (by simp [Clock.perform]) ?_
      · simp [Clock.perform, TimerOp.apply, hop, TimerState.setResponseTimer_spectator]
      · simp [Clock.perform, TimerOp.apply, hop, TimerState.setResponseTimer_spectator]
      · intro other hother hask
        have hsame := h.asked other hother hask
        rw [hrun, Option.some.injEq] at hsame
        exact hother hsame.symm
      · intro hal other hother
        have hwithin := hcharged other hother (by simpa [Clock.perform] using hal)
        simpa [Clock.perform, TimerOp.apply, hop, TimerState.setResponseTimer_spectator] using
          hwithin
    · have hscheduled : { clock.timers.chargeConfirm pos clock.now with
            awaitingConfirm := false }.setResponseTimer timeLimit pos false false clock.now = _ :=
        TimerState.setResponseTimer_of_left hlimit hpos (htime hrun)
      rw [hscheduled] at hop
      refine h.scheduled pos hsound rfl ?_ ?_ ?_ ?_ hdead (by simp [Clock.perform]) ?_
      · simp only [Clock.perform, TimerOp.apply, hop, TimerState.schedule]
      · simp only [Clock.perform, TimerOp.apply, hop, TimerState.schedule]
      · simp only [Clock.perform, TimerOp.apply, hop, TimerState.schedule]
      · intro other hother hask
        have hsame := h.asked other hother hask
        rw [hrun, Option.some.injEq] at hsame
        exact hsame.symm
      · intro hal other hother
        have hwithin := hcharged other hother (by simpa [Clock.perform] using hal)
        simpa only [Clock.perform, TimerOp.apply, hop, TimerState.schedule,
          TimerState.clear_false_bank] using hwithin
  · have hop : (TimerOp.timeConfirm pos).apply timeLimit clock.timers clock.now = clock.timers := by
      simp [TimerOp.apply, TimerState.rescheduleTimerAfterConfirm, hrun]
    have hsame : clock.perform timeLimit (.timeConfirm pos) = clock := by
      simp [Clock.perform, hop, askedAfter]
    rw [hsame]
    exact h

theorem Paid.perform_newTurn (hlimit : 0 < timeLimit) (h : Paid timeLimit clock) :
    Paid timeLimit (clock.perform timeLimit .newTurn) := by
  have hmax : TimerState.maxTimeMs timeLimit = timeLimit * 1000 := rfl
  have hop : TimerOp.newTurn.apply timeLimit clock.timers clock.now =
      { clock.timers with bank := fun _ => Bank.full (TimerState.maxTimeMs timeLimit) } := by
    rw [TimerOp.apply, TimerState.newTurn, if_neg (by omega)]
  constructor
  · exact h.sound.newTurn
  · exact h.positive
  · simp only [Clock.perform, hop]
    exact h.started
  · intro pos hrun
    simp only [Clock.perform, hop] at hrun ⊢
    obtain ⟨due, htimer, hdue⟩ := h.due pos hrun
    have hleft := (h.sound pos).left
    refine ⟨due, htimer, ?_⟩
    simp only [Bank.full]
    omega
  · simp only [Clock.perform, hop]
    exact h.punctual
  · simp only [Clock.perform, hop, askedAfter]
    exact h.asked
  · simp only [Clock.perform, askedAfter, ne_eq, reduceCtorEq, not_false_eq_true, decide_true,
      Bool.and_true]
    exact h.dead
  · intro _ pos _
    have hrunning : 0 ≤ clock.running pos := by
      unfold running
      split
      · rename_i hrun
        have hstarted := h.started (by simp [hrun])
        omega
      · exact le_refl _
    have hsame : (clock.perform timeLimit .newTurn).running pos = clock.running pos := by
      simp only [running, Clock.perform, hop]
    rw [hsame]
    simp only [Clock.perform, hop, if_true, Bank.worth, Bank.full]
    omega
  · intro pos _
    simp only [Clock.perform, if_true]
    omega

theorem Paid.perform_timeout (h : Paid timeLimit clock) :
    Paid timeLimit (clock.perform timeLimit .timeout) := by
  cases hrun : clock.timers.runningPos with
  | none =>
    have hsame : clock.perform timeLimit .timeout = clock := by
      simp [Clock.perform, TimerOp.apply, hrun, askedAfter]
    rw [hsame]
    exact h
  | some pos =>
    have hop : TimerOp.timeout.apply timeLimit clock.timers clock.now =
        { (clock.timers.clear false clock.now).setLeftMs pos 0 with
          timeouts := clock.timers.timeouts ++ [pos] } := by
      simp [TimerOp.apply, hrun, TimerState.handleResponseTimeout]
    obtain ⟨hsame, hle⟩ := h.elapsed hrun
    have hsound : (clock.perform timeLimit .timeout).timers.Sound timeLimit := by
      simp only [Clock.perform, TimerOp.apply, hrun]
      exact h.sound.handleResponseTimeout pos clock.now
    refine h.idle hsound rfl ?_ ?_ (by simp [Clock.perform, askedAfter, hrun])
      (by simp [Clock.perform, askedAfter, hrun]) (by simp [Clock.perform]) ?_
    · simp only [Clock.perform, hop, TimerState.setLeftMs, TimerState.setBank,
        TimerState.clear_runningPos]
    · simp only [Clock.perform, hop, TimerState.setLeftMs, TimerState.setBank,
        TimerState.clear_timer]
    · intro halive other hother
      have hpaid := h.paid (by simpa [Clock.perform] using halive) other hother
      simp only [Clock.perform, hop]
      by_cases ho : other = pos
      · subst ho
        simp only [TimerState.setLeftMs, TimerState.setBank, Function.update_self,
          TimerState.clear_false_bank, Bank.worth] at hpaid ⊢
        omega
      · have hidle : clock.running other = 0 := by
          rw [running, hrun, if_neg (by simpa using Ne.symm ho)]
        simp only [TimerState.setLeftMs, TimerState.setBank, Function.update_of_ne ho,
          TimerState.clear_false_bank]
        omega

theorem Paid.perform_dispose (h : Paid timeLimit clock) :
    Paid timeLimit (clock.perform timeLimit .dispose) :=
  h.idle (h.sound.clear false clock.now) rfl rfl rfl (by simp [Clock.perform, askedAfter])
    (by simp [Clock.perform, askedAfter]) (by simp [Clock.perform])
    (by
      intro halive
      simp [Clock.perform] at halive)

theorem Paid.perform_tick (h : Paid timeLimit clock) :
    Paid timeLimit (clock.perform timeLimit .tick) := by
  have hsame : clock.perform timeLimit .tick = clock := by
    simp [Clock.perform, TimerOp.apply, askedAfter]
  rw [hsame]
  exact h

/-- Nothing that happens to a clock lets a team think without paying, as long as a clock that is
set going has time on it. -/
theorem Paid.perform (hlimit : 0 < timeLimit) (h : Paid timeLimit clock) {op : TimerOp}
    (htime : clock.HasTime op) : Paid timeLimit (clock.perform timeLimit op) := by
  cases op with
  | tick => exact h.perform_tick
  | start pos => exact h.perform_start hlimit htime
  | stop => exact h.perform_stop
  | response pos gameMsg answer => exact h.perform_response hlimit pos gameMsg answer
  | timeConfirm pos => exact h.perform_timeConfirm hlimit htime
  | newTurn => exact h.perform_newTurn hlimit
  | timeout => exact h.perform_timeout
  | dispose => exact h.perform_dispose

theorem Paid.run (hlimit : 0 < timeLimit) {events : List (Nat × TimerOp)}
    (h : Paid timeLimit clock) (hpunctual : clock.Punctual timeLimit events)
    (htime : clock.AlwaysTime timeLimit events) : Paid timeLimit (clock.run timeLimit events) := by
  induction events generalizing clock with
  | nil => exact h
  | cons event events ih =>
    obtain ⟨⟨hnow, hdue⟩, hpunctual⟩ := hpunctual
    obtain ⟨hfirst, htime⟩ := htime
    exact ih ((h.advance hnow hdue).perform hlimit hfirst) hpunctual htime

/-! ## The bounds over a run -/

theorem sound_perform (h : clock.timers.Sound timeLimit) (op : TimerOp) :
    (clock.perform timeLimit op).timers.Sound timeLimit :=
  op.sound_apply h clock.now

theorem sound_run (h : clock.timers.Sound timeLimit) (events : List (Nat × TimerOp)) :
    (clock.run timeLimit events).timers.Sound timeLimit := by
  induction events generalizing clock with
  | nil => exact h
  | cons event events ih => exact ih (@sound_perform timeLimit (clock.advance event.1) h event.2)

/-- The banks stay in their bounds whatever happens. As long as a clock that is set going has time
on it, no team is waited for longer than four times the time limit between two new turns. -/
theorem time_bank_bounds (timeLimit : Nat) (hlimit : 0 < timeLimit) (now : Nat) (hnow : 0 < now)
    (events : List (Nat × TimerOp))
    (hpunctual : (Clock.start timeLimit now).Punctual timeLimit events) :
    (∀ pos, (((Clock.start timeLimit now).run timeLimit events).timers.bank pos).Sound timeLimit) ∧
      ((Clock.start timeLimit now).AlwaysTime timeLimit events → ∀ pos, pos ≠ .spectator →
        ((Clock.start timeLimit now).run timeLimit events).thinking pos ≤
          4 * (timeLimit * 1000)) := by
  constructor
  · exact sound_run (fun _ => Bank.Sound.full timeLimit) events
  · intro htime pos hpos
    have hbound := ((Paid.start hnow).run hlimit hpunctual htime).bounded pos hpos
    have hmax : TimerState.maxTimeMs timeLimit = timeLimit * 1000 := rfl
    omega

/-- A team uses up its second and is asked again in the same turn. -/
def askedAgain : List (Nat × TimerOp) :=
  [(1, .start .player), (1001, .response .player TimerState.MSG_SELECT_UNSELECT_CARD []),
    (1001, .start .player), (9001, .tick)]

theorem askedAgain_punctual : (Clock.start 1 1).Punctual 1 askedAgain := by
  refine ⟨⟨by decide, by decide⟩, ⟨by decide, by decide⟩, ⟨by decide, by decide⟩,
    ⟨by decide, by decide⟩, trivial⟩

/-- The team has no time left, no timer runs, and it thinks as long as it likes. -/
theorem askedAgain_unbounded :
    (Clock.start 1 1).Punctual 1 askedAgain ∧
      ¬((Clock.start 1 1).run 1 askedAgain).thinking .player ≤ 4 * (1 * 1000) := by
  refine ⟨askedAgain_punctual, ?_⟩
  decide

/-- A team confirms the request for its time after 400 milliseconds. -/
def confirmedInTime : List (Nat × TimerOp) := [(1, .start .player), (401, .timeConfirm .player)]

theorem time_bank_bounds_confirmed :
    (((Clock.start 1 1).run 1 confirmedInTime).timers.bank .player).Sound 1 ∧
      ((Clock.start 1 1).run 1 confirmedInTime).thinking .player ≤ 4 * (1 * 1000) := by
  have hbounds := time_bank_bounds 1 (by decide) 1 (by decide) confirmedInTime
    ⟨⟨by decide, by decide⟩, ⟨by decide, by decide⟩, trivial⟩
  have htime : (Clock.start 1 1).AlwaysTime 1 confirmedInTime := by
    refine ⟨?_, ?_, trivial⟩
    · unfold HasTime
      decide
    · unfold HasTime
      decide
  exact ⟨hbounds.1 .player, hbounds.2 htime .player (by decide)⟩

end Clock

end EdoproServer.Engine
