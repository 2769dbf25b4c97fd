import Mathlib

namespace EdoproServer.Lib

/-! ## Programs that are lists of actions

What a handler does is a list of actions, performed one after the other on a state. -/

section

variable {σ : Type*} {α : Type*} (perform : α → σ → σ)

/-- The state after a list of actions. -/
def performAll (s : σ) (actions : List α) : σ := actions.foldl (fun s a => perform a s) s

/-- Every action of the list meets `ok` in the state in which it is performed. -/
def Allows (ok : σ → α → Prop) : σ → List α → Prop
  | _, [] => True
  | s, a :: actions => ok s a ∧ Allows ok (perform a s) actions

@[simp] theorem performAll_nil (s : σ) : performAll perform s [] = s := rfl

@[simp] theorem performAll_cons (s : σ) (a : α) (actions : List α) :
    performAll perform s (a :: actions) = performAll perform (perform a s) actions := rfl

theorem performAll_append (s : σ) (l m : List α) :
    performAll perform s (l ++ m) = performAll perform (performAll perform s l) m :=
  List.foldl_append

variable {perform} {ok ok' : σ → α → Prop}

@[simp] theorem Allows.nil (s : σ) : Allows perform ok s [] := trivial

theorem allows_cons {s : σ} {a : α} {actions : List α} :
    Allows perform ok s (a :: actions) ↔ ok s a ∧ Allows perform ok (perform a s) actions := Iff.rfl

theorem allows_append {s : σ} {l m : List α} :
    Allows perform ok s (l ++ m) ↔
      Allows perform ok s l ∧ Allows perform ok (performAll perform s l) m := by
  induction l generalizing s with
  | nil => simp
  | cons a l ih => simp [allows_cons, ih, and_assoc]

instance Allows.decidable [∀ s a, Decidable (ok s a)] :
    ∀ (s : σ) (actions : List α), Decidable (Allows perform ok s actions)
  | _, [] => inferInstanceAs (Decidable True)
  | s, a :: actions =>
    have := Allows.decidable (perform a s) actions
    inferInstanceAs (Decidable (ok s a ∧ Allows perform ok (perform a s) actions))

theorem Allows.mono (hok : ∀ s a, ok s a → ok' s a) {s : σ} {actions : List α}
    (h : Allows perform ok s actions) : Allows perform ok' s actions := by
  induction actions generalizing s with
  | nil => trivial
  | cons a actions ih => exact ⟨hok s a h.1, ih h.2⟩

theorem Allows.and {s : σ} {actions : List α} (h : Allows perform ok s actions)
    (h' : Allows perform ok' s actions) :
    Allows perform (fun s a => ok s a ∧ ok' s a) s actions := by
  induction actions generalizing s with
  | nil => trivial
  | cons a actions ih => exact ⟨⟨h.1, h'.1⟩, ih h.2 h'.2⟩

theorem Allows.of_forall {s : σ} {actions : List α} (h : ∀ a ∈ actions, ∀ s, ok s a) :
    Allows perform ok s actions := by
  induction actions generalizing s with
  | nil => trivial
  | cons a actions ih =>
    exact ⟨h a (by simp) s, ih (fun b hb => h b (List.mem_cons_of_mem a hb))⟩

/-- What every allowed action keeps, a list of allowed actions keeps. -/
theorem Allows.preserves {P : σ → Prop} (hP : ∀ s a, P s → ok s a → P (perform a s)) {s : σ}
    {actions : List α} (h : Allows perform ok s actions) (hs : P s) :
    P (performAll perform s actions) := by
  induction actions generalizing s with
  | nil => exact hs
  | cons a actions ih => exact ih h.2 (hP s a hs h.1)

/-- What every allowed action keeps holds whenever an action is performed. -/
theorem Allows.along {P : σ → Prop} (hP : ∀ s a, P s → ok s a → P (perform a s)) {s : σ}
    {actions : List α} (h : Allows perform ok s actions) (hs : P s) :
    Allows perform (fun s a => P s ∧ ok s a) s actions := by
  induction actions generalizing s with
  | nil => trivial
  | cons a actions ih => exact ⟨⟨hs, h.1⟩, ih h.2 (hP s a hs h.1)⟩

/-! ### A state with an account of it -/

variable {τ : Type*} {performWith : α → τ → τ} (π : τ → σ)

/-- Actions do to the state what they do without the account. -/
theorem performAll_map (hπ : ∀ t a, π (performWith a t) = perform a (π t)) (t : τ)
    (actions : List α) :
    π (performAll performWith t actions) = performAll perform (π t) actions := by
  induction actions generalizing t with
  | nil => rfl
  | cons a actions ih =>
    rw [performAll_cons, performAll_cons, ih, hπ]

theorem Allows.comap (hπ : ∀ t a, π (performWith a t) = perform a (π t)) {t : τ}
    {actions : List α} (h : Allows perform ok (π t) actions) :
    Allows performWith (fun t a => ok (π t) a) t actions := by
  induction actions generalizing t with
  | nil => trivial
  | cons a actions ih => exact ⟨h.1, ih (by rw [hπ]; exact h.2)⟩

end

/-! ## Runs -/

section

variable {σ : Type*} {ι : Type*}

/-- The states a machine reaches from its first states by inputs that meet `ok`. -/
inductive Reached (start : σ → Prop) (step : σ → ι → σ) (ok : σ → ι → Prop) : σ → Prop where
  | start {s : σ} (h : start s) : Reached start step ok s
  | step {s : σ} (input : ι) (h : Reached start step ok s) (hok : ok s input) :
      Reached start step ok (step s input)

variable {start : σ → Prop} {step : σ → ι → σ} {ok ok' : σ → ι → Prop}

/-- What holds first and is kept by every step holds in every state reached. -/
theorem Reached.invariant {P : σ → Prop} (hstart : ∀ s, start s → P s)
    (hstep : ∀ s input, P s → ok s input → P (step s input)) {s : σ}
    (h : Reached start step ok s) : P s := by
  induction h with
  | start hs => exact hstart _ hs
  | step input _ hok ih => exact hstep _ input ih hok

theorem Reached.mono (hok : ∀ s input, ok s input → ok' s input) {s : σ}
    (h : Reached start step ok s) : Reached start step ok' s := by
  induction h with
  | start hs => exact .start hs
  | step input _ hi ih => exact ih.step input (hok _ _ hi)

/-- A list of inputs, each of which meets `ok` when it comes, reaches its last state. -/
theorem Reached.inputs {s : σ} (h : Reached start step ok s) {inputs : List ι}
    (hok : Allows (fun input s => step s input) ok s inputs) :
    Reached start step ok (inputs.foldl step s) := by
  induction inputs generalizing s with
  | nil => exact h
  | cons input inputs ih => exact ih (h.step input hok.1) hok.2

variable {τ : Type*} {startWith : τ → Prop} {stepWith : τ → ι → τ} (π : τ → σ)

/-- Without its account, a run is a run. -/
theorem Reached.map (hstart : ∀ t, startWith t → start (π t))
    (hstep : ∀ t input, π (stepWith t input) = step (π t) input) {t : τ}
    (h : Reached startWith stepWith (fun t input => ok (π t) input) t) :
    Reached start step ok (π t) := by
  induction h with
  | start ht => exact .start (hstart _ ht)
  | step input _ hok ih =>
    rw [hstep]
    exact ih.step input hok

/-- An account can be kept of every run. -/
theorem Reached.lift (hstart : ∀ s, start s → ∃ t, startWith t ∧ π t = s)
    (hstep : ∀ t input, π (stepWith t input) = step (π t) input) {s : σ}
    (h : Reached start step ok s) :
    ∃ t, Reached startWith stepWith (fun t input => ok (π t) input) t ∧ π t = s := by
  induction h with
  | start hs =>
    obtain ⟨t, ht, rfl⟩ := hstart _ hs
    exact ⟨t, .start ht, rfl⟩
  | step input _ hok ih =>
    obtain ⟨t, ht, rfl⟩ := ih
    exact ⟨stepWith t input, ht.step input hok, hstep t input⟩

end

/-! ## Traces -/

/-- Where an entry stands in a trace with one entry more. -/
theorem split_concat {α : Type*} {trace before after : List α} {last entry : α}
    (h : trace ++ [last] = before ++ entry :: after) :
    (after = [] ∧ trace = before ∧ last = entry) ∨
      ∃ after', after = after' ++ [last] ∧ trace = before ++ entry :: after' := by
  rcases List.eq_nil_or_concat after with rfl | ⟨after', last', rfl⟩
  · exact .inl ⟨rfl, List.append_singleton_inj.mp h⟩
  · rw [List.concat_eq_append, ← List.cons_append, ← List.append_assoc] at h
    obtain ⟨htrace, rfl⟩ := List.append_singleton_inj.mp h
    exact .inr ⟨after', List.concat_eq_append, htrace⟩

end EdoproServer.Lib
