import Mathlib.Data.List.Basic
import Mathlib.Tactic

/-! Patterns of tokens over an alphabet with digits, and a check on two patterns that no token
matches both. -/

namespace EdoproServer.Lib.TokenPatterns

variable {α : Type*}

/-- What a pattern tells letters apart by. -/
structure Alphabet (α : Type*) where
  isDigit : α → Bool
  isLineEnd : α → Bool
  /-- The letter that a comparison without case sees. -/
  fold : α → α

inductive Pattern (α : Type*) where
  /-- This token alone. -/
  | word (text : List α)
  /-- A stem and one or more digits. -/
  | numbered (stem : List α)
  /-- A stem in whatever case and something more on its line. -/
  | opened (stem : List α)
  deriving DecidableEq

namespace Pattern

variable [DecidableEq α] (alphabet : Alphabet α)

def accepts : Pattern α → List α → Bool
  | word text, token => token = text
  | numbered stem, token =>
    stem.isPrefixOf token && token.drop stem.length ≠ [] &&
      (token.drop stem.length).all alphabet.isDigit
  | opened stem, token =>
    (token.take stem.length).map alphabet.fold = stem && token.drop stem.length ≠ [] &&
      (token.drop stem.length).all (fun c => !alphabet.isLineEnd c)

def endsInLetter (stem : List α) : Bool := stem.getLast?.any (fun c => !alphabet.isDigit c)

/-- Whether a stem agrees, in whatever case, with a start as far as both go. -/
def agrees (stem start : List α) : Bool :=
  (stem.take start.length).map alphabet.fold = start.take stem.length

/-- Enough for no token to match both. -/
def apart : Pattern α → Pattern α → Bool
  | word text, q => !q.accepts alphabet text
  | p, word text => !p.accepts alphabet text
  | numbered stem, numbered other =>
    stem ≠ other && endsInLetter alphabet stem && endsInLetter alphabet other
  | numbered stem, opened start => !agrees alphabet stem start
  | opened start, numbered stem => !agrees alphabet stem start
  | opened _, opened _ => false

variable {alphabet} {token : List α}

theorem accepts_numbered {stem : List α} (h : (numbered stem).accepts alphabet token = true) :
    ∃ digits, token = stem ++ digits ∧ ∀ c ∈ digits, alphabet.isDigit c = true := by
  simp only [accepts, Bool.and_eq_true, List.isPrefixOf_iff_prefix, List.all_eq_true] at h
  obtain ⟨⟨⟨digits, rfl⟩, -⟩, hdigits⟩ := h
  rw [List.drop_left] at hdigits
  exact ⟨digits, rfl, hdigits⟩

omit [DecidableEq α] in
/-- The longer stem would end in a digit of the other token. -/
theorem numbered_unique {stem more digits others : List α}
    (hstem : endsInLetter alphabet (stem ++ more) = true)
    (hdigits : ∀ c ∈ digits, alphabet.isDigit c = true) (h : digits = more ++ others) :
    more = [] := by
  by_contra hmore
  have hlast : more.getLast hmore ∈ digits := by
    rw [h]
    exact List.mem_append_left _ (List.getLast_mem hmore)
  have hdigit := hdigits _ hlast
  rw [endsInLetter, List.getLast?_append_of_ne_nil stem hmore,
    List.getLast?_eq_some_getLast hmore] at hstem
  simp [hdigit] at hstem

theorem numbered_apart {stem other : List α} (hne : stem ≠ other)
    (hstem : endsInLetter alphabet stem = true) (hother : endsInLetter alphabet other = true)
    (h : (numbered stem).accepts alphabet token = true) :
    (numbered other).accepts alphabet token = false := by
  rw [Bool.eq_false_iff]
  intro h'
  obtain ⟨digits, htoken, hdigits⟩ := accepts_numbered h
  obtain ⟨digits', htoken', hdigits'⟩ := accepts_numbered h'
  rw [htoken] at htoken'
  rcases List.append_eq_append_iff.mp htoken' with ⟨more, rfl, hmore⟩ | ⟨more, rfl, hmore⟩
  · exact hne (by rw [numbered_unique hother hdigits hmore, List.append_nil])
  · exact hne (by rw [numbered_unique hstem hdigits' hmore, List.append_nil])

theorem opened_apart {stem start : List α} (hagrees : agrees alphabet stem start = false)
    (h : (numbered stem).accepts alphabet token = true) :
    (opened start).accepts alphabet token = false := by
  rw [Bool.eq_false_iff]
  intro h'
  obtain ⟨digits, rfl, -⟩ := accepts_numbered h
  simp only [accepts, Bool.and_eq_true, decide_eq_true_eq] at h'
  have hstart : ((stem ++ digits).take start.length).map alphabet.fold = start := h'.1.1
  have htake := congrArg (List.take stem.length) hstart
  rw [← List.map_take, List.take_take, Nat.min_comm, ← List.take_take, List.take_left] at htake
  simp [agrees, htake] at hagrees

theorem apart_word {text : List α} {q : Pattern α} (h : (word text).apart alphabet q = true)
    (haccepts : (word text).accepts alphabet token = true) : q.accepts alphabet token = false := by
  have htoken : token = text := by simpa [accepts] using haccepts
  rw [htoken]
  cases q <;> simpa only [apart, Bool.not_eq_true'] using h

/-- The check is right. -/
theorem accepts_of_apart {p q : Pattern α} (h : p.apart alphabet q = true)
    (hp : p.accepts alphabet token = true) : q.accepts alphabet token = false := by
  cases p with
  | word text => exact apart_word h hp
  | numbered stem =>
    cases q with
    | word text =>
      rw [Bool.eq_false_iff]
      intro hq
      have htoken : token = text := by simpa [accepts] using hq
      rw [htoken] at hp
      simp [apart, hp] at h
    | numbered other =>
      simp only [apart, ne_eq, decide_not, Bool.and_eq_true, Bool.not_eq_true',
        decide_eq_false_iff_not] at h
      exact numbered_apart h.1.1 h.1.2 h.2 hp
    | opened start =>
      simp only [apart, Bool.not_eq_true'] at h
      exact opened_apart h hp
  | opened start =>
    rw [Bool.eq_false_iff]
    intro hq
    cases q with
    | word text =>
      have htoken : token = text := by simpa [accepts] using hq
      rw [htoken] at hp
      simp [apart, hp] at h
    | numbered stem =>
      simp only [apart, Bool.not_eq_true'] at h
      rw [opened_apart h hq] at hp
      exact Bool.false_ne_true hp
    | opened other => exact Bool.false_ne_true h

end Pattern

/-! ## Rules of several patterns -/

variable [DecidableEq α] (alphabet : Alphabet α)

def acceptsAny (patterns : List (Pattern α)) (token : List α) : Bool :=
  patterns.any (fun p => p.accepts alphabet token)

def allApart (patterns others : List (Pattern α)) : Bool :=
  patterns.all (fun p => others.all (fun q => p.apart alphabet q))

variable {alphabet} {token : List α}

theorem acceptsAny_of_allApart {patterns others : List (Pattern α)}
    (h : allApart alphabet patterns others = true)
    (haccepts : acceptsAny alphabet patterns token = true) :
    acceptsAny alphabet others token = false := by
  obtain ⟨p, hp, htoken⟩ := List.any_eq_true.mp haccepts
  simp only [acceptsAny, List.any_eq_false, Bool.not_eq_true]
  intro q hq
  exact Pattern.accepts_of_apart (List.all_eq_true.mp (List.all_eq_true.mp h p hp) q hq) htoken

/-- Of rules that are apart from each other a token matches one at most. -/
theorem matching_cases {β : Type*} (patterns : β → List (Pattern α)) (token : List α)
    {rules : List β} (h : rules.Pairwise (fun a b => allApart alphabet (patterns a) (patterns b) = true)) :
    rules.filter (fun rule => acceptsAny alphabet (patterns rule) token) = [] ∨
      ∃ rule ∈ rules, acceptsAny alphabet (patterns rule) token = true ∧
        rules.filter (fun rule => acceptsAny alphabet (patterns rule) token) = [rule] := by
  induction rules with
  | nil => exact Or.inl rfl
  | cons rule rest ih =>
    obtain ⟨hrule, hrest⟩ := List.pairwise_cons.mp h
    by_cases hmatch : acceptsAny alphabet (patterns rule) token = true
    · have hnone : rest.filter (fun rule => acceptsAny alphabet (patterns rule) token) = [] := by
        rw [List.filter_eq_nil_iff]
        intro other hother
        rw [acceptsAny_of_allApart (hrule other hother) hmatch]
        exact Bool.false_ne_true
      refine Or.inr ⟨rule, List.mem_cons_self, hmatch, ?_⟩
      rw [List.filter_cons, if_pos hmatch, hnone]
    · rw [List.filter_cons, if_neg hmatch]
      rcases ih hrest with hnone | ⟨other, hother, haccepts, hone⟩
      · exact Or.inl hnone
      · exact Or.inr ⟨other, List.mem_cons_of_mem _ hother, haccepts, hone⟩

end EdoproServer.Lib.TokenPatterns
