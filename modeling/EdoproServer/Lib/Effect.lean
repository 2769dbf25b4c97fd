import Mathlib

namespace EdoproServer.Lib

universe u

variable {ε σ α β : Type u}

/-- `x`, started in `s`, ends normally, and its result and last state satisfy `Q`. -/
def Runs (x : EStateM ε σ α) (s : σ) (Q : α → σ → Prop) : Prop :=
  ∃ a s', x s = .ok a s' ∧ Q a s'

/-- The state an effect leaves behind, whether it ended normally or raised. -/
def stateAfter : EStateM.Result ε σ α → σ
  | .ok _ s => s
  | .error _ s => s

/-- An effect that raises takes what follows it with it. -/
theorem bind_raises {x : EStateM ε σ α} {f : α → EStateM ε σ β} {s s' : σ} {e : ε}
    (h : x s = .error e s') : (x >>= f) s = .error e s' := by
  simp only [Bind.bind, EStateM.bind, h]

theorem bind_ok {x : EStateM ε σ α} {f : α → EStateM ε σ β} {s s' : σ} {a : α}
    (h : x s = .ok a s') : (x >>= f) s = f a s' := by
  simp only [Bind.bind, EStateM.bind, h]

namespace Runs

/-- An effect ends in one way only. -/
theorem and {x : EStateM ε σ α} {s : σ} {Q Q' : α → σ → Prop} (h : Runs x s Q)
    (h' : Runs x s Q') : Runs x s (fun a s' => Q a s' ∧ Q' a s') := by
  obtain ⟨a, s', hx, hq⟩ := h
  obtain ⟨a', s'', hx', hq'⟩ := h'
  rw [hx] at hx'
  cases hx'
  exact ⟨a, s', hx, hq, hq'⟩

theorem mono {x : EStateM ε σ α} {s : σ} {Q Q' : α → σ → Prop} (h : Runs x s Q)
    (hQ : ∀ a s', Q a s' → Q' a s') : Runs x s Q' := by
  obtain ⟨a, s', hx, hq⟩ := h
  exact ⟨a, s', hx, hQ a s' hq⟩

theorem pure {a : α} {s : σ} {Q : α → σ → Prop} (h : Q a s) :
    Runs (Pure.pure a : EStateM ε σ α) s Q :=
  ⟨a, s, rfl, h⟩

theorem bind {x : EStateM ε σ α} {f : α → EStateM ε σ β} {s : σ} {Q : β → σ → Prop}
    (h : Runs x s (fun a s' => Runs (f a) s' Q)) : Runs (x >>= f) s Q := by
  obtain ⟨a, s', hx, b, s'', hf, hq⟩ := h
  refine ⟨b, s'', ?_, hq⟩
  simp only [Bind.bind, EStateM.bind, hx, hf]

theorem of_eq {x : EStateM ε σ α} {s s' : σ} {a : α} {Q : α → σ → Prop} (hx : x s = .ok a s')
    (h : Q a s') : Runs x s Q :=
  ⟨a, s', hx, h⟩

theorem discard {x : EStateM ε σ α} {s : σ} {Q : PUnit → σ → Prop}
    (h : Runs x s (fun _ s' => Q ⟨⟩ s')) : Runs (Functor.discard x) s Q := by
  obtain ⟨a, s', hx, hq⟩ := h
  refine ⟨⟨⟩, s', ?_, hq⟩
  simp only [Functor.discard, Functor.mapConst, Function.comp_apply, Function.const, EStateM.map,
    hx]

theorem read {s : σ} {Q : σ → σ → Prop} (h : Q s s) :
    Runs (get : EStateM ε σ σ) s Q :=
  ⟨s, s, rfl, h⟩

theorem update {f : σ → σ} {s : σ} {Q : PUnit → σ → Prop} (h : Q ⟨⟩ (f s)) :
    Runs (modify f : EStateM ε σ PUnit) s Q :=
  ⟨⟨⟩, f s, rfl, h⟩

theorem updateGet {f : σ → α × σ} {s : σ} {Q : α → σ → Prop} (h : Q (f s).1 (f s).2) :
    Runs (modifyGet f : EStateM ε σ α) s Q :=
  ⟨(f s).1, (f s).2, rfl, h⟩

/-- What is left of the list indexes the invariant of the loop. -/
theorem loop {f : α → EStateM ε σ PUnit} (I : List α → σ → Prop) (l : List α) {s : σ}
    (h : I l s) (step : ∀ a rest s, I (a :: rest) s → Runs (f a) s (fun _ s' => I rest s')) :
    Runs (forM l f) s (fun _ s' => I [] s') := by
  induction l generalizing s with
  | nil => exact ⟨⟨⟩, s, rfl, h⟩
  | cons a rest ih =>
    rw [List.forM_cons]
    exact bind ((step a rest s h).mono (fun _ s' h' => ih h'))

theorem after {x : EStateM ε σ α} {s : σ} {Q : α → σ → Prop} (I : σ → Prop) (h : Runs x s Q)
    (hI : ∀ a s', Q a s' → I s') : I (stateAfter (x s)) := by
  obtain ⟨a, s', hx, hq⟩ := h
  rw [hx]
  exact hI a s' hq

end Runs

/-- `x`, started in `s`, ends normally in `Q` or raises in `R`. -/
def Ends (x : EStateM ε σ α) (s : σ) (Q : α → σ → Prop) (R : σ → Prop) : Prop :=
  (∃ a s', x s = .ok a s' ∧ Q a s') ∨ ∃ e s', x s = .error e s' ∧ R s'

namespace Ends

variable {x : EStateM ε σ α} {s : σ} {Q : α → σ → Prop} {R : σ → Prop}

theorem of_runs (h : Runs x s Q) : Ends x s Q R := Or.inl h

theorem raised {e : ε} {s' : σ} (h : x s = .error e s') (hR : R s') : Ends x s Q R :=
  Or.inr ⟨e, s', h, hR⟩

theorem bind {f : α → EStateM ε σ β} {Q : β → σ → Prop}
    (h : Ends x s (fun a s' => Ends (f a) s' Q R) R) : Ends (x >>= f) s Q R := by
  rcases h with ⟨a, s', hx, h⟩ | ⟨e, s', hx, hR⟩
  · have heq : (x >>= f) s = f a s' := by simp only [Bind.bind, EStateM.bind, hx]
    unfold Ends
    rwa [heq]
  · exact raised (bind_raises hx) hR

theorem after (I : σ → Prop) (h : Ends x s Q R) (ended : ∀ a s', Q a s' → I s')
    (hR : ∀ s', R s' → I s') : I (stateAfter (x s)) := by
  rcases h with ⟨a, s', hx, hq⟩ | ⟨e, s', hx, hr⟩
  · rw [hx]
    exact ended a s' hq
  · rw [hx]
    exact hR s' hr

end Ends

/-! ## What holds afterwards, raised or not -/

theorem after_bind (I : σ → Prop) {x : EStateM ε σ α} {f : α → EStateM ε σ β} {s : σ}
    (first : ∀ e s', x s = .error e s' → I s')
    (rest : ∀ a s', x s = .ok a s' → I (stateAfter (f a s'))) : I (stateAfter ((x >>= f) s)) := by
  cases hx : x s with
  | ok a s' =>
    have h := rest a s' hx
    simpa only [Bind.bind, EStateM.bind, hx] using h
  | error e s' =>
    have h := first e s' hx
    simpa only [Bind.bind, EStateM.bind, hx, stateAfter] using h

/-- An invariant that every part keeps, the whole keeps. -/
theorem after_seq (I : σ → Prop) {x : EStateM ε σ α} {f : α → EStateM ε σ β} {s : σ}
    (first : I (stateAfter (x s)))
    (rest : ∀ a s', x s = .ok a s' → I s' → I (stateAfter (f a s'))) :
    I (stateAfter ((x >>= f) s)) := by
  refine after_bind I ?_ ?_
  · intro e s' hx
    rwa [hx] at first
  · intro a s' hx
    rw [hx] at first
    exact rest a s' hx first

/-- What is left of the list indexes the invariant of the loop. -/
theorem after_loop (I : List α → σ → Prop) {f : α → EStateM ε σ PUnit} (l : List α) {s : σ}
    (h : I l s) (turn : ∀ a rest s, I (a :: rest) s → I rest (stateAfter (f a s))) :
    ∃ rest, I rest (stateAfter (forM l f s)) := by
  induction l generalizing s with
  | nil => exact ⟨[], h⟩
  | cons a rest ih =>
    rw [List.forM_cons]
    have hturn := turn a rest s h
    refine after_bind (fun s' => ∃ rest, I rest s') ?_ ?_
    · intro e s' hf
      rw [hf] at hturn
      exact ⟨rest, hturn⟩
    · intro _ s' hf
      rw [hf] at hturn
      exact ih hturn

theorem after_discard (x : EStateM ε σ α) (s : σ) :
    stateAfter (Functor.discard x s) = stateAfter (x s) := by
  simp only [Functor.discard, Functor.mapConst, Function.comp_apply, Function.const, EStateM.map]
  cases x s with
  | ok a s' => rfl
  | error e s' => rfl

/-! ## Effects that append to a log -/

/-- Wherever it is started, the effect ends normally and has appended `w` to the log. -/
def Writes {ω : Type u} (x : EStateM ε (List ω) PUnit) (w : List ω) : Prop :=
  ∀ log, x log = .ok ⟨⟩ (log ++ w)

namespace Writes

variable {ω : Type u} {x y : EStateM ε (List ω) PUnit} {w w' : List ω}

theorem append (w : List ω) : Writes (modify (· ++ w) : EStateM ε (List ω) PUnit) w :=
  fun _ => rfl

theorem skip : Writes (Pure.pure ⟨⟩ : EStateM ε (List ω) PUnit) [] := by
  intro log
  rw [List.append_nil]
  rfl

theorem seq (hx : Writes x w) (hy : Writes y w') : Writes (x >>= fun _ => y) (w ++ w') := by
  intro log
  simp only [Bind.bind, EStateM.bind, hx log, hy (log ++ w), List.append_assoc]

theorem loop {f : α → EStateM ε (List ω) PUnit} {g : α → List ω} (h : ∀ a, Writes (f a) (g a))
    (l : List α) : Writes (forM l f) (l.flatMap g) := by
  induction l with
  | nil => exact skip
  | cons a rest ih =>
    rw [List.forM_cons, List.flatMap_cons]
    exact (h a).seq ih

end Writes

/-! ## Effects that keep an invariant -/

/-- Whatever the effect is started in, it leaves the invariant as it was, raised or not. -/
def Keeps (I : σ → Prop) (x : EStateM ε σ α) : Prop := ∀ s, I s → I (stateAfter (x s))

namespace Keeps

variable {I : σ → Prop} {x : EStateM ε σ α}

theorem pure (a : α) : Keeps I (Pure.pure a : EStateM ε σ α) := fun _ h => h

theorem raise (e : ε) : Keeps I (throw e : EStateM ε σ α) := fun _ h => h

theorem read : Keeps I (get : EStateM ε σ σ) := fun _ h => h

theorem update {f : σ → σ} (h : ∀ s, I s → I (f s)) : Keeps I (modify f : EStateM ε σ PUnit) := h

theorem updateGet {f : σ → α × σ} (h : ∀ s, I s → I (f s).2) :
    Keeps I (modifyGet f : EStateM ε σ α) := h

theorem bind {f : α → EStateM ε σ β} (first : Keeps I x) (rest : ∀ a, Keeps I (f a)) :
    Keeps I (x >>= f) :=
  fun s h => after_seq I (first s h) (fun a s' _ h' => rest a s' h')

theorem discard (h : Keeps I x) : Keeps I (Functor.discard x) := by
  intro s hs
  rw [after_discard]
  exact h s hs

theorem loop {f : α → EStateM ε σ PUnit} (turn : ∀ a, Keeps I (f a)) (l : List α) :
    Keeps I (forM l f) := by
  intro s hs
  obtain ⟨_, h⟩ := after_loop (fun _ => I) l hs (fun a _ s' h => turn a s' h)
  exact h

end Keeps

/-- A fold whose every step is possible and keeps a property of what was folded so far. -/
theorem foldlM_reaches {step : β → α → Except ε β} {P : List α → β → Prop} {items : List α}
    (hstep : ∀ before, ∀ a ∈ items, ∀ b, P before b →
      ∃ b', step b a = .ok b' ∧ P (before ++ [a]) b')
    (before : List α) {b : β} (h : P before b) :
    ∃ b', items.foldlM step b = .ok b' ∧ P (before ++ items) b' := by
  induction items generalizing before b with
  | nil => exact ⟨b, rfl, by rwa [List.append_nil]⟩
  | cons a rest ih =>
    obtain ⟨next, hnext, hP⟩ := hstep before a List.mem_cons_self b h
    obtain ⟨last, hlast, hrest⟩ :=
      ih (fun before c hc => hstep before c (List.mem_cons_of_mem _ hc)) (before ++ [a]) hP
    refine ⟨last, ?_, by rwa [List.append_assoc] at hrest⟩
    simp only [List.foldlM_cons, hnext, Bind.bind, Except.bind]
    exact hlast

end EdoproServer.Lib
