import Mathlib.Data.List.Basic

namespace EdoproServer.Engine
namespace AdvanceLoop

/-! ## The generator of the worker -/

/-- What the loop asks of the class of a message. -/
inductive MessageClass where
  | retry
  | response
  | other
  deriving DecidableEq, Repr

structure GameMessage where
  messageClass : MessageClass
  payload : List UInt8
  deriving DecidableEq, Repr

/-- What one call of the engine leads to: its bytes, its status and what they decode to. -/
structure ProcessResult where
  length : Nat
  raw : List UInt8
  status : Nat
  message : Option GameMessage
  messages : Option (List GameMessage)
  encodeError : Option String
  deriving DecidableEq, Repr

/-- One item for each message. The status and the decoding error go with the last one. -/
def splitProcessResult (res : ProcessResult) : List ProcessResult :=
  match res.messages with
  | none => [res]
  | some messages =>
    if messages.length ≤ 1 then [res]
    else
      messages.mapIdx (fun index message =>
        { length := message.payload.length
          raw := message.payload
          status := if index = messages.length - 1 then res.status else 0
          message := some message
          messages := some [message]
          encodeError := if index = messages.length - 1 then res.encodeError else none })

/-- After an item of this kind the generator returns. -/
def ProcessResult.isLast (item : ProcessResult) : Bool :=
  item.status = 2 || item.message.any (fun message =>
    message.messageClass = .retry || message.messageClass = .response)

/-! ## Its consumer -/

/-- The consumer of the items: whether the duel still has a core, and what it does with a message,
which may raise. -/
structure Consumer (σ : Type) where
  canAdvance : σ → Bool
  handleMessage : σ → GameMessage → σ × Option String

def emptyMessageError (status : Nat) : String :=
  "Cannot continue ocgcore because received empty message with non-advancing status " ++
    toString status

def handleAdvanceResult {σ : Type} (consumer : Consumer σ) (s : σ) (item : ProcessResult) :
    σ × Option String :=
  match item.message with
  | none => if item.status ≠ 0 then (s, some (emptyMessageError item.status)) else (s, none)
  | some message => consumer.handleMessage s message

/-- How the loop ends: the generator or its consumer returns, or an error gets to the caller. -/
inductive Ending where
  | returned
  | failed (error : String)
  deriving DecidableEq, Repr

/-- The items of one call. Without an ending the engine is called again. -/
def consume {σ : Type} (consumer : Consumer σ) (s : σ) : List ProcessResult → σ × Option Ending
  | [] => (s, none)
  | item :: items =>
    if item.raw.length = 0 then consume consumer s items
    else if !consumer.canAdvance s then (s, some .returned)
    else
      match handleAdvanceResult consumer s item with
      | (s', some error) => (s', some (.failed error))
      | (s', none) =>
        if item.isLast then (s', some .returned) else consume consumer s' items

/-- The engine call by call; a call may time out. -/
abbrev EngineCalls := Nat → Except String ProcessResult

/-- The loop from its call `k` on, for `fuel` calls at most. -/
def advanceFrom {σ : Type} (consumer : Consumer σ) (engine : EngineCalls) :
    Nat → Nat → σ → Option Ending
  | 0, _, _ => none
  | fuel + 1, k, s =>
    match engine k with
    | .error error => some (.failed error)
    | .ok res =>
      match consume consumer s (splitProcessResult res) with
      | (_, some ending) => some ending
      | (s', none) => advanceFrom consumer engine fuel (k + 1) s'

/-- How the loop ends within so many calls, if it does. -/
def advance {σ : Type} (consumer : Consumer σ) (engine : EngineCalls) (calls : Nat) (s : σ) :
    Option Ending :=
  if !consumer.canAdvance s then some .returned else advanceFrom consumer engine calls 0 s

/-! ## Where the loop has to end -/

/-- An item that ends the loop whatever the consumer does: it has bytes, and it is the last one for
the generator or one that the consumer refuses. -/
def ProcessResult.Ends (item : ProcessResult) : Prop :=
  item.raw ≠ [] ∧ (item.isLast = true ∨ item.message = none ∧ item.status ≠ 0)

/-- A call that times out or has an item that ends the loop. -/
def EndsAt (engine : EngineCalls) (k : Nat) : Prop :=
  (∃ error, engine k = .error error) ∨
    ∃ res, engine k = .ok res ∧ ∃ item ∈ splitProcessResult res, item.Ends

/-- With every consumer the loop ends with the first call of a nonzero status, or before. -/
def EndsInTime (engine : EngineCalls) : Prop :=
  ∀ k res, engine k = .ok res → res.status ≠ 0 →
    ∀ (σ : Type) (consumer : Consumer σ) (s : σ),
      ∃ ending, advance consumer engine (k + 1) s = some ending

section Loop

variable {σ : Type} {consumer : Consumer σ} {engine : EngineCalls}

theorem consume_ends (consumer : Consumer σ) {items : List ProcessResult} {item : ProcessResult}
    (hin : item ∈ items) (hends : item.Ends) (s : σ) :
    ∃ s' ending, consume consumer s items = (s', some ending) := by
  induction items generalizing s with
  | nil => cases hin
  | cons first items ih =>
    rw [consume]
    split
    · rename_i hempty
      rcases List.mem_cons.mp hin with rfl | hrest
      · exact absurd (List.length_eq_zero_iff.mp hempty) hends.1
      · exact ih hrest s
    · split
      · exact ⟨s, .returned, rfl⟩
      · cases hhandled : handleAdvanceResult consumer s first with
        | mk s' error =>
          cases error with
          | some error => exact ⟨s', .failed error, rfl⟩
          | none =>
            by_cases hlast : first.isLast = true
            · exact ⟨s', .returned, by simp [hlast]⟩
            · simp only [hlast, Bool.false_eq_true, if_false]
              rcases List.mem_cons.mp hin with rfl | hrest
              · rcases hends.2 with hreturns | ⟨hmessage, hstatus⟩
                · exact absurd hreturns hlast
                · simp [handleAdvanceResult, hmessage, hstatus] at hhandled
              · exact ih hrest s'

theorem advanceFrom_ends {k : Nat} (hends : EndsAt engine k) (fuel start : Nat) (s : σ)
    (hstart : start ≤ k) (hfuel : k < start + fuel) :
    ∃ ending, advanceFrom consumer engine fuel start s = some ending := by
  induction fuel generalizing start s with
  | zero => omega
  | succ fuel ih =>
    rw [advanceFrom]
    cases hcall : engine start with
    | error error => exact ⟨.failed error, rfl⟩
    | ok res =>
      cases hconsumed : consume consumer s (splitProcessResult res) with
      | mk s' ending =>
        cases ending with
        | some ending => exact ⟨ending, by simp only [hconsumed]⟩
        | none =>
          simp only [hconsumed]
          rcases Nat.eq_or_lt_of_le hstart with rfl | hlt
          · rcases hends with ⟨error, herror⟩ | ⟨res', hres, item, hin, hitem⟩
            · rw [hcall] at herror
              cases herror
            · obtain rfl := Except.ok.inj (hcall.symm.trans hres)
              obtain ⟨s'', ending, hending⟩ := consume_ends consumer hin hitem s
              rw [hconsumed] at hending
              cases hending
          · exact ih (start + 1) s' hlt (by omega)

/-- A consumer that takes whatever it is given and never ends the loop by itself. -/
def patient : Consumer Unit :=
  { canAdvance := fun _ => true
    handleMessage := fun _ _ => ((), none) }

theorem consume_patient {items : List ProcessResult} (h : ∀ item ∈ items, ¬ item.Ends) :
    consume patient () items = ((), none) := by
  induction items with
  | nil => rfl
  | cons item items ih =>
    obtain ⟨hitem, hitems⟩ := List.forall_mem_cons.mp h
    rw [consume]
    split
    · exact ih hitems
    · rename_i hraw
      have hgoes : ¬ (item.isLast = true ∨ item.message = none ∧ item.status ≠ 0) :=
        fun hends => hitem ⟨fun hempty => hraw (by rw [hempty]; rfl), hends⟩
      have hhandled : handleAdvanceResult patient () item = ((), none) := by
        unfold handleAdvanceResult
        cases hmessage : item.message with
        | some message => rfl
        | none =>
          have hstatus : ¬ item.status ≠ 0 := fun hstatus => hgoes (Or.inr ⟨hmessage, hstatus⟩)
          rw [if_neg hstatus]
      have hlast : item.isLast = false := by
        rw [← Bool.not_eq_true]
        exact fun hreturns => hgoes (Or.inl hreturns)
      rw [hhandled]
      simp only [patient, Bool.not_true, Bool.false_eq_true, if_false, hlast]
      exact ih hitems

/-- With that consumer the loop goes through every call that does not have to end it. -/
theorem advanceFrom_patient (fuel start : Nat)
    (h : ∀ k, start ≤ k → k < start + fuel → ¬ EndsAt engine k) :
    advanceFrom patient engine fuel start () = none := by
  induction fuel generalizing start with
  | zero => rfl
  | succ fuel ih =>
    have hhere := h start (Nat.le_refl start) (by omega)
    rw [advanceFrom]
    cases hcall : engine start with
    | error error => exact absurd (Or.inl ⟨error, hcall⟩) hhere
    | ok res =>
      have hgoes : ∀ item ∈ splitProcessResult res, ¬ item.Ends :=
        fun item hin hends => hhere (Or.inr ⟨res, hcall, item, hin, hends⟩)
      simp only [consume_patient hgoes]
      exact ih (start + 1) (fun k hstart hfuel => h k (by omega) (by omega))

end Loop

/-- The loop always ends in time exactly when, at each call of a nonzero status or before it, a
call times out or has an item that ends the loop. -/
theorem advance_ends_in_time (engine : EngineCalls) :
    EndsInTime engine ↔
      ∀ k res, engine k = .ok res → res.status ≠ 0 → ∃ j ≤ k, EndsAt engine j := by
  constructor
  · intro hintime k res hcall hstatus
    by_contra hnone
    obtain ⟨ending, hending⟩ := hintime k res hcall hstatus Unit patient ()
    have hgoes : ∀ j, 0 ≤ j → j < 0 + (k + 1) → ¬ EndsAt engine j :=
      fun j _ hj hends => hnone ⟨j, by omega, hends⟩
    have hloops := advanceFrom_patient (k + 1) 0 hgoes
    have hsame : advance patient engine (k + 1) () =
        advanceFrom patient engine (k + 1) 0 () := rfl
    rw [hsame, hloops] at hending
    cases hending
  · intro h k res hcall hstatus σ consumer s
    obtain ⟨j, hj, hends⟩ := h k res hcall hstatus
    unfold advance
    split
    · exact ⟨.returned, rfl⟩
    · exact advanceFrom_ends hends (k + 1) 0 s (Nat.zero_le j) (by omega)

/-- An engine that waits and has no bytes to say so. -/
def waitsSilently : EngineCalls := fun _ =>
  .ok { length := 0, raw := [], status := 1, message := none, messages := none
        encodeError := none }

/-- The engine is called over and over. -/
theorem advance_never_ends : ¬ ∀ engine : EngineCalls, EndsInTime engine := by
  intro hall
  obtain ⟨ending, hending⟩ := hall waitsSilently 0 _ rfl (by decide) Unit patient ()
  have hloops : advance patient waitsSilently 1 () = none := by decide
  rw [hloops] at hending
  cases hending

end AdvanceLoop

end EdoproServer.Engine
