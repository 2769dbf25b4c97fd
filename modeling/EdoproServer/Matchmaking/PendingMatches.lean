import EdoproServer.Lib.InsertionMap
import EdoproServer.Matchmaking.Participant

namespace EdoproServer.Matchmaking
open Lib

/-- A human match held out of the pairing pool until every participant accepts. -/
structure PendingMatch where
  pairing : Match
  /-- time at which unanswered participants time out -/
  deadline : Int
  /-- ids that accepted; a participant not opted in starts here -/
  accepted : List String
  deriving DecidableEq, Repr

structure PendingParticipant where
  pending : PendingMatch
  participant : Participant

def PendingMatch.open (m : Match) (deadline : Int) : PendingMatch :=
  { pairing := m
    deadline := deadline
    accepted := (m.participants.filter (fun p => !p.optedIn)).map Participant.id }

def PendingMatch.accept (pending : PendingMatch) (id : String) : PendingMatch :=
  { pending with accepted := pending.accepted.insert id }

/-- Everyone answered ACCEPT, or was never asked. -/
def PendingMatch.complete (pending : PendingMatch) : Bool :=
  pending.pairing.participants.all (fun p => p.id ∈ pending.accepted)

/-- In-memory book of matches awaiting ACCEPT or DECLINE, keyed by match id. -/
abbrev PendingMatches := InsertionMap String PendingMatch

namespace PendingMatches

def add (book : PendingMatches) (m : Match) (deadline : Int) : PendingMatches :=
  book.set m.id (PendingMatch.open m deadline)

def all (book : PendingMatches) : List PendingMatch := book.values

def find (book : PendingMatches) (predicate : Participant → Bool) : Option PendingParticipant :=
  book.all.findSome? (fun pending =>
    (pending.pairing.participants.find? predicate).map (fun p => ⟨pending, p⟩))

def findByParticipantId (book : PendingMatches) (id : String) : Option PendingParticipant :=
  book.find (fun p => p.id = id)

def findByUserId (book : PendingMatches) (userId : UserId) : Option PendingParticipant :=
  book.find (fun p => p.userId = userId)

/-- Every entry stands under the id of its own match. -/
def Keyed (book : PendingMatches) : Prop :=
  ∀ id pending, book.get id = some pending → pending.pairing.id = id

theorem find_eq_some {book : PendingMatches} {predicate : Participant → Bool}
    {found : PendingParticipant} (h : book.find predicate = some found) :
    found.pending ∈ book.all ∧ found.participant ∈ found.pending.pairing.participants ∧
      predicate found.participant = true := by
  obtain ⟨pending, hp, hf⟩ := List.exists_of_findSome?_eq_some h
  obtain ⟨p, hfind, rfl⟩ := Option.map_eq_some_iff.mp hf
  exact ⟨hp, List.mem_of_find?_eq_some hfind, List.find?_some hfind⟩

theorem find_eq_none {book : PendingMatches} {predicate : Participant → Bool} :
    book.find predicate = none ↔
      ∀ pending ∈ book.all, ∀ p ∈ pending.pairing.participants, predicate p = false := by
  simp only [find, List.findSome?_eq_none_iff, Option.map_eq_none_iff, List.find?_eq_none,
    Bool.not_eq_true]

theorem keyed_empty : Keyed .empty := by simp [Keyed]

theorem keyed_add {book : PendingMatches} (h : book.Keyed) (m : Match) (deadline : Int) :
    (book.add m deadline).Keyed := by
  intro id pending hg
  simp only [add, InsertionMap.get_set] at hg
  split at hg
  · rename_i he
    cases hg
    exact he.symm
  · exact h id pending hg

theorem keyed_delete {book : PendingMatches} (h : book.Keyed) (id : String) :
    Keyed (book.delete id) := by
  intro id' pending hg
  simp only [InsertionMap.get_delete] at hg
  split at hg
  · cases hg
  · exact h id' pending hg

theorem keyed_set {book : PendingMatches} (h : book.Keyed) {id : String}
    {pending : PendingMatch} (hid : pending.pairing.id = id) : Keyed (book.set id pending) := by
  intro id' pending' hg
  simp only [InsertionMap.get_set] at hg
  split at hg
  · rename_i he
    cases hg
    exact hid.trans he.symm
  · exact h id' pending' hg

section Keyed

variable {book : PendingMatches} (keyed : book.Keyed)
include keyed

theorem get_of_mem {pending : PendingMatch} (h : pending ∈ book.all) :
    book.get pending.pairing.id = some pending := by
  obtain ⟨id, hg⟩ := InsertionMap.mem_values_get.mp h
  rw [keyed id pending hg]
  exact hg

theorem ids_nodup : (book.all.map (fun pending => pending.pairing.id)).Nodup := by
  have he : book.all.map (fun pending => pending.pairing.id) = book.keys := by
    simp only [all, InsertionMap.values, InsertionMap.keys, List.map_map]
    apply List.map_congr_left
    rintro ⟨id, pending⟩ he
    exact keyed id pending (InsertionMap.get_eq_some.mpr he)
  rw [he]
  exact book.keys_nodup

theorem all_add {m : Match} (h : ∀ pending ∈ book.all, pending.pairing.id ≠ m.id)
    (deadline : Int) : (book.add m deadline).all = book.all ++ [PendingMatch.open m deadline] := by
  apply InsertionMap.values_set_of_absent
  cases hg : book.get m.id with
  | none => rfl
  | some pending => exact absurd (keyed _ _ hg) (h pending (InsertionMap.get_mem_values hg))

theorem all_delete (id : String) :
    all (book.delete id) = book.all.filter (fun pending => pending.pairing.id ≠ id) := by
  simp only [all, InsertionMap.values, InsertionMap.delete, List.filter_map]
  congr 1
  apply List.filter_congr
  rintro ⟨id', pending⟩ he
  have hid := keyed id' pending (InsertionMap.get_eq_some.mpr he)
  simp [hid]

theorem all_set {pending : PendingMatch} (h : pending ∈ book.all) (pending' : PendingMatch) :
    all (book.set pending.pairing.id pending') =
      book.all.map (fun q => if q.pairing.id = pending.pairing.id then pending' else q) := by
  have hk : pending.pairing.id ∈ book.keys := InsertionMap.mem_keys.mpr ⟨_, get_of_mem keyed h⟩
  simp only [all, InsertionMap.values, InsertionMap.entries_set_of_present hk, List.map_map]
  apply List.map_congr_left
  rintro ⟨id', q⟩ he
  have hid := keyed id' q (InsertionMap.get_eq_some.mpr he)
  simp only [Function.comp_apply, hid]
  split <;> rfl

end Keyed

end PendingMatches

end EdoproServer.Matchmaking
