import EdoproServer.Lib.InsertionMap
import EdoproServer.Matchmaking.Participant

namespace EdoproServer.Matchmaking
open Lib

def MatchmakingFormat.code : MatchmakingFormat → String
  | .tcg => "tcg"
  | .jtp => "jtp"
  | .edison => "edison"

def MatchmakingMode.code : MatchmakingMode → String
  | .ranked => "ranked"

def poolKey (format : MatchmakingFormat) (mode : MatchmakingMode) : String :=
  format.code ++ ":" ++ mode.code

theorem poolKey_inj {f f' : MatchmakingFormat} {m m' : MatchmakingMode} :
    poolKey f m = poolKey f' m' ↔ f = f' ∧ m = m' := by
  cases f <;> cases f' <;> cases m <;> cases m' <;> decide

/-- A participant-id index, a userId index and one ordered id set per pool key. -/
structure InMemoryPoolStore where
  byId : InsertionMap String Participant
  byUserId : InsertionMap UserId String
  idsByPoolKey : InsertionMap String (List String)

namespace InMemoryPoolStore

def empty : InMemoryPoolStore := ⟨.empty, .empty, .empty⟩

def add (store : InMemoryPoolStore) (participant : Participant) : InMemoryPoolStore :=
  let key := poolKey participant.format participant.mode
  let ids := (store.idsByPoolKey.get key).getD []
  { byId := store.byId.set participant.id participant
    byUserId := store.byUserId.set participant.userId participant.id
    idsByPoolKey := store.idsByPoolKey.set key
      (if participant.id ∈ ids then ids else ids ++ [participant.id]) }

def get (store : InMemoryPoolStore) (id : String) : Option Participant :=
  store.byId.get id

def findByUserId (store : InMemoryPoolStore) (userId : UserId) : Option Participant :=
  (store.byUserId.get userId).bind store.byId.get

/-- Returns `true` when a participant was actually removed. -/
def remove (store : InMemoryPoolStore) (id : String) : Bool × InMemoryPoolStore :=
  match store.byId.get id with
  | none => (false, store)
  | some participant =>
    let key := poolKey participant.format participant.mode
    (true, {
      byId := store.byId.delete id
      byUserId :=
        if store.byUserId.get participant.userId = some id then
          store.byUserId.delete participant.userId
        else store.byUserId
      idsByPoolKey :=
        match store.idsByPoolKey.get key with
        | none => store.idsByPoolKey
        | some ids => store.idsByPoolKey.set key (ids.filter (fun id' => id' ≠ id)) })

def all (store : InMemoryPoolStore) (format : MatchmakingFormat) (mode : MatchmakingMode) :
    List Participant :=
  match store.idsByPoolKey.get (poolKey format mode) with
  | none => []
  | some ids => ids.filterMap store.byId.get

def depth (store : InMemoryPoolStore) (format : MatchmakingFormat) (mode : MatchmakingMode) :
    Nat :=
  ((store.idsByPoolKey.get (poolKey format mode)).getD []).length

/-- Everyone searching, in the order of arrival. -/
def participants (store : InMemoryPoolStore) : List Participant := store.byId.values

def inPool (format : MatchmakingFormat) (mode : MatchmakingMode) (p : Participant) : Bool :=
  p.format = format ∧ p.mode = mode

/-- The three indexes tell the same story. -/
structure Valid (store : InMemoryPoolStore) : Prop where
  keyed : ∀ id p, store.byId.get id = some p → p.id = id
  users : ∀ userId id, store.byUserId.get userId = some id ↔
    ∃ p, store.byId.get id = some p ∧ p.userId = userId
  pools : ∀ format mode, (store.idsByPoolKey.get (poolKey format mode)).getD [] =
    (store.participants.filter (inPool format mode)).map Participant.id

@[simp] theorem participants_empty : empty.participants = [] := rfl

theorem empty_valid : empty.Valid where
  keyed := by simp [empty]
  users := by simp [empty]
  pools := by simp [empty, participants]

section Lookup

variable {store : InMemoryPoolStore} (valid : store.Valid)
include valid

theorem get_eq_some {id : String} {p : Participant} :
    store.get id = some p ↔ p ∈ store.participants ∧ p.id = id := by
  constructor
  · intro h
    exact ⟨InsertionMap.get_mem_values h, valid.keyed id p h⟩
  · rintro ⟨hp, rfl⟩
    obtain ⟨id, h⟩ := InsertionMap.mem_values_get.mp hp
    have hid : p.id = id := valid.keyed id p h
    rw [hid]
    exact h

theorem get_eq_none {id : String} :
    store.get id = none ↔ ∀ p ∈ store.participants, p.id ≠ id := by
  constructor
  · intro h p hp hid
    rw [(get_eq_some valid).mpr ⟨hp, hid⟩] at h
    cases h
  · intro h
    cases hg : store.get id with
    | none => rfl
    | some p =>
      obtain ⟨hp, hid⟩ := (get_eq_some valid).mp hg
      exact absurd hid (h p hp)

theorem findByUserId_eq_some {userId : UserId} {p : Participant} :
    store.findByUserId userId = some p ↔ p ∈ store.participants ∧ p.userId = userId := by
  constructor
  · intro h
    obtain ⟨id, hu, hp⟩ := Option.bind_eq_some_iff.mp h
    obtain ⟨q, hq, hqu⟩ := (valid.users userId id).mp hu
    have hpq : p = q := Option.some.inj (hp.symm.trans hq)
    exact ⟨InsertionMap.get_mem_values hp, hpq ▸ hqu⟩
  · rintro ⟨hp, rfl⟩
    obtain ⟨id, h⟩ := InsertionMap.mem_values_get.mp hp
    exact Option.bind_eq_some_iff.mpr ⟨id, (valid.users _ _).mpr ⟨p, h, rfl⟩, h⟩

theorem findByUserId_eq_none {userId : UserId} :
    store.findByUserId userId = none ↔ ∀ p ∈ store.participants, p.userId ≠ userId := by
  constructor
  · intro h p hp hu
    rw [(findByUserId_eq_some valid).mpr ⟨hp, hu⟩] at h
    cases h
  · intro h
    cases hg : store.findByUserId userId with
    | none => rfl
    | some p =>
      obtain ⟨hp, hu⟩ := (findByUserId_eq_some valid).mp hg
      exact absurd hu (h p hp)

theorem ids_eq_keys : store.participants.map Participant.id = store.byId.keys := by
  simp only [participants, InsertionMap.values, InsertionMap.keys, List.map_map]
  apply List.map_congr_left
  rintro ⟨id, p⟩ he
  exact valid.keyed id p (InsertionMap.get_eq_some.mpr he)

theorem ids_nodup : (store.participants.map Participant.id).Nodup := by
  rw [ids_eq_keys valid]
  exact store.byId.keys_nodup

theorem all_eq (format : MatchmakingFormat) (mode : MatchmakingMode) :
    store.all format mode = store.participants.filter (inPool format mode) := by
  have hfind : ∀ l : List Participant, (∀ p ∈ l, p ∈ store.participants) →
      (l.map Participant.id).filterMap store.byId.get = l := by
    intro l hl
    induction l with
    | nil => rfl
    | cons p rest ih =>
      have hp : store.byId.get p.id = some p :=
        (get_eq_some valid).mpr ⟨hl p List.mem_cons_self, rfl⟩
      simp only [List.map_cons, List.filterMap_cons, hp]
      rw [ih (fun q hq => hl q (List.mem_cons_of_mem p hq))]
  have hids := valid.pools format mode
  unfold all
  split
  · rename_i hk
    rw [hk, Option.getD_none] at hids
    exact (List.map_eq_nil_iff.mp hids.symm).symm
  · rename_i ids hk
    rw [hk, Option.getD_some] at hids
    rw [hids]
    exact hfind _ (fun p hp => (List.mem_filter.mp hp).1)

/-- The depth a pool key reports is the number of participants queued under it. -/
theorem depth_eq (format : MatchmakingFormat) (mode : MatchmakingMode) :
    store.depth format mode = (store.participants.filter (inPool format mode)).length := by
  rw [depth, valid.pools, List.length_map]

end Lookup

section Update

variable {store : InMemoryPoolStore} (valid : store.Valid)
include valid

theorem participants_add {p : Participant} (hid : ∀ q ∈ store.participants, q.id ≠ p.id) :
    (store.add p).participants = store.participants ++ [p] := by
  have h : store.byId.get p.id = none := (get_eq_none valid).mpr hid
  simp only [participants, add, InsertionMap.values_set_of_absent h]

/-- A fresh id and a fresh user keep the indexes in step. -/
theorem add_valid {p : Participant} (hid : ∀ q ∈ store.participants, q.id ≠ p.id)
    (huser : ∀ q ∈ store.participants, q.userId ≠ p.userId) : (store.add p).Valid where
  keyed := by
    intro id q h
    simp only [add, InsertionMap.get_set] at h
    split at h
    · rename_i he
      cases h
      exact he.symm
    · exact valid.keyed id q h
  users := by
    intro userId id
    simp only [add, InsertionMap.get_set]
    by_cases hu : userId = p.userId
    · subst hu
      by_cases hi : id = p.id
      · subst hi
        simp
      · have hi' : ¬ p.id = id := fun h => hi h.symm
        simp only [if_true, Option.some.injEq, hi', hi, if_false, false_iff, not_exists, not_and]
        intro q hq
        exact huser q (InsertionMap.get_mem_values hq)
    · by_cases hi : id = p.id
      · subst hi
        have hu' : ¬ p.userId = userId := fun h => hu h.symm
        simp only [hu, if_false, if_true, Option.some.injEq, exists_eq_left', hu', iff_false]
        intro h
        obtain ⟨q, hq, -⟩ := (valid.users userId p.id).mp h
        exact hid q (InsertionMap.get_mem_values hq) (valid.keyed _ _ hq)
      · simp only [hu, hi, if_false]
        exact valid.users userId id
  pools := by
    intro format mode
    rw [participants_add valid hid]
    simp only [add, InsertionMap.get_set, poolKey_inj, List.filter_append, List.map_append]
    have habsent : p.id ∉ (store.participants.filter (inPool p.format p.mode)).map
        Participant.id := by
      intro h
      obtain ⟨q, hq, hqid⟩ := List.mem_map.mp h
      exact hid q (List.mem_filter.mp hq).1 hqid
    rw [valid.pools]
    by_cases hk : format = p.format
    · subst hk
      simp [habsent, inPool]
    · have hk' : inPool format mode p = false := decide_eq_false (fun h => hk h.1.symm)
      simp [hk, hk', valid.pools]

theorem participants_delete (id : String) :
    (store.byId.delete id).values = store.participants.filter (fun p => p.id ≠ id) := by
  simp only [participants, InsertionMap.values, InsertionMap.delete, List.filter_map]
  congr 1
  apply List.filter_congr
  rintro ⟨id', p⟩ he
  have hid : p.id = id' := valid.keyed id' p (InsertionMap.get_eq_some.mpr he)
  simp [hid]

theorem remove_present {p : Participant} (hp : p ∈ store.participants) :
    (store.remove p.id).1 = true ∧ (store.remove p.id).2.Valid ∧
      (store.remove p.id).2.participants =
        store.participants.filter (fun q => q.id ≠ p.id) := by
  have hg : store.byId.get p.id = some p := (get_eq_some valid).mpr ⟨hp, rfl⟩
  have hu : store.byUserId.get p.userId = some p.id := (valid.users _ _).mpr ⟨p, hg, rfl⟩
  have hparts := participants_delete valid p.id
  refine ⟨by simp only [remove, hg], ?_, by simpa only [remove, hg, participants] using hparts⟩
  refine ⟨?_, ?_, ?_⟩
  · intro id q h
    simp only [remove, hg, InsertionMap.get_delete] at h
    split at h
    · cases h
    · exact valid.keyed id q h
  · intro userId id
    simp only [remove, hg, hu, if_true, InsertionMap.get_delete]
    by_cases hi : id = p.id
    · subst hi
      simp only [if_true, reduceCtorEq, false_and, exists_false, iff_false]
      intro h
      split at h
      · cases h
      · rename_i hne
        obtain ⟨q, hq, hqu⟩ := (valid.users userId p.id).mp h
        have hqp : q = p := Option.some.inj (hq.symm.trans hg)
        exact hne (hqp ▸ hqu.symm)
    · simp only [hi, if_false]
      rw [← valid.users userId id]
      split
      · rename_i he
        subst he
        simp only [reduceCtorEq, false_iff]
        intro h
        exact hi (Option.some.inj (h.symm.trans hu))
      · rfl
  · intro format mode
    have hpools := valid.pools
    have hnew : (store.remove p.id).2.participants =
        store.participants.filter (fun q => q.id ≠ p.id) := by
      simpa only [remove, hg, participants] using hparts
    rw [hnew, List.filter_filter]
    have hswap : (store.participants.filter
        (fun q => inPool format mode q && decide (q.id ≠ p.id))).map
        Participant.id =
        ((store.participants.filter (inPool format mode)).map Participant.id).filter
          (fun id => id ≠ p.id) := by
      rw [List.filter_map, List.filter_filter]
      congr 1
      apply List.filter_congr
      intro q _
      simp [Bool.and_comm]
    rw [hswap, ← hpools format mode]
    simp only [remove, hg]
    cases hk : store.idsByPoolKey.get (poolKey p.format p.mode) with
    | none =>
      have hempty := hpools p.format p.mode
      rw [hk, Option.getD_none] at hempty
      have hnone := List.map_eq_nil_iff.mp hempty.symm
      have : p ∈ store.participants.filter (inPool p.format p.mode) :=
        List.mem_filter.mpr ⟨hp, by simp [inPool]⟩
      rw [hnone] at this
      cases this
    | some ids =>
      simp only [InsertionMap.get_set, poolKey_inj]
      by_cases he : format = p.format
      · subst he
        simp [hk]
      · simp only [he, false_and, if_false]
        rw [hpools format mode]
        symm
        apply List.filter_eq_self.mpr
        intro id hid
        obtain ⟨q, hq, rfl⟩ := List.mem_map.mp hid
        obtain ⟨hqs, hqp⟩ := List.mem_filter.mp hq
        simp only [ne_eq, decide_not, Bool.not_eq_true', decide_eq_false_iff_not]
        intro hqid
        have hqq : q = p := Option.some.inj
          (((get_eq_some valid).mpr ⟨hqs, hqid⟩).symm.trans hg)
        subst hqq
        simp only [inPool, decide_eq_true_eq] at hqp
        exact he hqp.1.symm

end Update

end InMemoryPoolStore

end EdoproServer.Matchmaking
