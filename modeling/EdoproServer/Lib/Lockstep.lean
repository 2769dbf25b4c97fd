import Mathlib

namespace EdoproServer.Lib

/-! ## Two runs side by side -/

variable {σ α β α' β' : Type}

/-- Whenever `x` ends, so does `y` from every related state, with related results, in related
states. -/
def Lockstep (R : σ → σ → Prop) (Q : α → β → Prop) (x : StateT σ Option α)
    (y : StateT σ Option β) : Prop :=
  ∀ s s', R s s' → ∀ a t, x s = some (a, t) → ∃ b t', y s' = some (b, t') ∧ Q a b ∧ R t t'

namespace Lockstep

variable {R : σ → σ → Prop} {Q : α → β → Prop} {P : α' → β' → Prop} {x : StateT σ Option α}
  {y : StateT σ Option β}

theorem pure {a : α} {b : β} (h : Q a b) : Lockstep R Q (Pure.pure a) (Pure.pure b) := by
  intro s s' hR a' t hx
  cases hx
  exact ⟨b, s', rfl, h, hR⟩

theorem bind {f : α → StateT σ Option α'} {g : β → StateT σ Option β'} (h : Lockstep R Q x y)
    (hf : ∀ a b, Q a b → Lockstep R P (f a) (g b)) : Lockstep R P (x >>= f) (y >>= g) := by
  intro s s' hR a t hx
  obtain ⟨⟨a₁, t₁⟩, hfirst, hrest⟩ := Option.bind_eq_some_iff.mp hx
  obtain ⟨b₁, t₁', hy, hQ, hR₁⟩ := h s s' hR a₁ t₁ hfirst
  obtain ⟨b, t', hg, hP, hR'⟩ := hf a₁ b₁ hQ t₁ t₁' hR₁ a t hrest
  exact ⟨b, t', Option.bind_eq_some_iff.mpr ⟨(b₁, t₁'), hy, hg⟩, hP, hR'⟩

/-- What follows depends on nothing the first part returns. -/
theorem andThen {x y : StateT σ Option PUnit} {x' : StateT σ Option α'} {y' : StateT σ Option β'}
    (h : Lockstep R Eq x y) (h' : Lockstep R P x' y') :
    Lockstep R P (x >>= fun _ => x') (y >>= fun _ => y') :=
  h.bind fun _ _ _ => h'

theorem mono {Q' : α → β → Prop} (h : Lockstep R Q x y) (hQ : ∀ a b, Q a b → Q' a b) :
    Lockstep R Q' x y := by
  intro s s' hR a t hx
  obtain ⟨b, t', hy, hq, hR'⟩ := h s s' hR a t hx
  exact ⟨b, t', hy, hQ a b hq, hR'⟩

/-- The states are read, and what follows may use how they are related. -/
theorem read {f g : σ → StateT σ Option α} {Q : α → α → Prop}
    (h : ∀ s s', R s s' → Lockstep R Q (f s) (g s')) : Lockstep R Q (get >>= f) (get >>= g) := by
  intro s s' hR
  exact h s s' hR s s' hR

theorem update {f g : σ → σ} (h : ∀ s s', R s s' → R (f s) (g s')) :
    Lockstep R Eq (modify f : StateT σ Option PUnit) (modify g) := by
  intro s s' hR a t hx
  cases hx
  exact ⟨⟨⟩, g s', rfl, rfl, h s s' hR⟩

theorem updateGet {f : σ → α × σ} {g : σ → β × σ}
    (h : ∀ s s', R s s' → Q (f s).1 (g s').1 ∧ R (f s).2 (g s').2) :
    Lockstep R Q (modifyGet f : StateT σ Option α) (modifyGet g) := by
  intro s s' hR a t hx
  have hf : f s = (a, t) := Option.some.inj hx
  have hboth := h s s' hR
  rw [hf] at hboth
  exact ⟨(g s').1, (g s').2, rfl, hboth⟩

/-- Values that are there together. -/
theorem ofOption {o : Option α} {o' : Option β} (h : ∀ a, o = some a → ∃ b, o' = some b ∧ Q a b) :
    Lockstep R Q (liftM o : StateT σ Option α) (liftM o') := by
  intro s s' hR a t hx
  cases ho : o with
  | none =>
    rw [ho] at hx
    cases hx
  | some v =>
    rw [ho] at hx
    cases hx
    obtain ⟨b, hb, hQ⟩ := h a ho
    rw [hb]
    exact ⟨b, s', rfl, hQ, hR⟩

theorem ofOption_eq {o o' : Option α} (h : o = o') :
    Lockstep R Eq (liftM o : StateT σ Option α) (liftM o') :=
  ofOption fun a ha => ⟨a, h ▸ ha, rfl⟩

theorem ite {p p' : Prop} [Decidable p] [Decidable p'] {x' : StateT σ Option α}
    {y' : StateT σ Option β} (hp : p ↔ p') (h : p → Lockstep R Q x y)
    (h' : ¬p → Lockstep R Q x' y') :
    Lockstep R Q (if p then x else x') (if p' then y else y') := by
  by_cases hcase : p
  · rw [if_pos hcase, if_pos (hp.mp hcase)]
    exact h hcase
  · rw [if_neg hcase, if_neg (mt hp.mpr hcase)]
    exact h' hcase

/-- What is undefined agrees with anything. -/
theorem undefined : Lockstep R Q (failure : StateT σ Option α) y := by
  intro s s' _ a t hx
  cases hx

theorem forM {f : α' → StateT σ Option PUnit} {g : β' → StateT σ Option PUnit} {l : List α'}
    {l' : List β'} (hl : List.Forall₂ P l l') (h : ∀ a b, P a b → Lockstep R Eq (f a) (g b)) :
    Lockstep R Eq (l.forM f) (l'.forM g) := by
  induction hl with
  | nil => exact .pure rfl
  | cons hhead _ ih => exact (h _ _ hhead).andThen ih

end Lockstep

/-! ## One run -/

theorem bind_eq_some {x : StateT σ Option α} {f : α → StateT σ Option β} {s t : σ} {b : β} :
    (x >>= f) s = some (b, t) ↔ ∃ a s', x s = some (a, s') ∧ f a s' = some (b, t) := by
  refine Option.bind_eq_some_iff.trans ⟨?_, ?_⟩
  · rintro ⟨⟨a, s'⟩, hfirst, hrest⟩
    exact ⟨a, s', hfirst, hrest⟩
  · rintro ⟨a, s', hfirst, hrest⟩
    exact ⟨(a, s'), hfirst, hrest⟩

theorem liftM_eq_some {o : Option α} {s t : σ} {a : α} :
    (liftM o : StateT σ Option α) s = some (a, t) ↔ o = some a ∧ s = t := by
  cases o with
  | none => exact ⟨nofun, nofun⟩
  | some v => exact ⟨fun h => by cases h; exact ⟨rfl, rfl⟩, fun ⟨ho, hs⟩ => by cases ho; cases hs; rfl⟩

/-- Whenever `x` ends, the relation holds between the states it begins and ends in. -/
def Within (R : σ → σ → Prop) (x : StateT σ Option α) : Prop := ∀ s a t, x s = some (a, t) → R s t

namespace Within

variable {R : σ → σ → Prop} {x : StateT σ Option α}

theorem mono {R' : σ → σ → Prop} (h : Within R x) (hR : ∀ s t, R s t → R' s t) : Within R' x :=
  fun s a t hx => hR s t (h s a t hx)

theorem update {f : σ → σ} (h : ∀ s, R s (f s)) :
    Within R (modify f : StateT σ Option PUnit) := by
  intro s a t hx
  cases hx
  exact h s

theorem updateGet {f : σ → α × σ} (h : ∀ s, R s (f s).2) :
    Within R (modifyGet f : StateT σ Option α) := by
  intro s a t hx
  have hf : f s = (a, t) := Option.some.inj hx
  have hs := h s
  rwa [hf] at hs

theorem undefined : Within R (failure : StateT σ Option α) := by
  intro s a t hx
  cases hx

theorem ite {p : Prop} [Decidable p] {y : StateT σ Option α} (h : p → Within R x)
    (h' : ¬p → Within R y) : Within R (if p then x else y) := by
  split
  · exact h ‹_›
  · exact h' ‹_›

theorem read {f : σ → StateT σ Option α} (h : ∀ s, Within R (f s)) : Within R (get >>= f) :=
  fun s => h s s

variable [IsPreorder σ R]

theorem pure (a : α) : Within R (Pure.pure a) := by
  intro s a' t hx
  cases hx
  exact refl s

theorem ofOption (o : Option α) : Within R (liftM o : StateT σ Option α) := by
  intro s a t hx
  cases o with
  | none => cases hx
  | some v =>
    cases hx
    exact refl s

theorem bind {f : α → StateT σ Option β} (h : Within R x) (hf : ∀ a, Within R (f a)) :
    Within R (x >>= f) := by
  intro s b t hx
  obtain ⟨⟨a, s'⟩, hfirst, hrest⟩ := Option.bind_eq_some_iff.mp hx
  exact IsTrans.trans s s' t (h s a s' hfirst) (hf a s' b t hrest)

theorem andThen {y : StateT σ Option β} (h : Within R x) (h' : Within R y) :
    Within R (x >>= fun _ => y) :=
  h.bind fun _ => h'

theorem forM {f : α → StateT σ Option PUnit} {l : List α} (h : ∀ a ∈ l, Within R (f a)) :
    Within R (l.forM f) := by
  induction l with
  | nil => exact .pure _
  | cons a l ih =>
    have hrest : Within R (l.forM f) := ih fun b hb => h b (List.mem_cons_of_mem a hb)
    exact (h a List.mem_cons_self).andThen hrest

end Within

/-- The invariant holds afterwards if it held before. -/
def Kept (I : σ → Prop) (s t : σ) : Prop := I s → I t

instance (I : σ → Prop) : IsPreorder σ (Kept I) where
  refl _ h := h
  trans _ _ _ h h' hs := h' (h hs)

end EdoproServer.Lib
