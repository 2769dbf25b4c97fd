import EdoproServer.Lib.Codec

namespace EdoproServer.Core
open Lib

/-! ## Flags -/

/-- The bits of the flags of a query by their masks, the lowest first. Five of them have no name. -/
inductive QueryFlag where
  | QUERY_CODE
  | QUERY_POSITION
  | QUERY_ALIAS
  | QUERY_TYPE
  | QUERY_LEVEL
  | QUERY_RANK
  | QUERY_ATTRIBUTE
  | QUERY_RACE
  | QUERY_ATTACK
  | QUERY_DEFENSE
  | QUERY_BASE_ATTACK
  | QUERY_BASE_DEFENSE
  | QUERY_REASON
  | QUERY_REASON_CARD
  | QUERY_EQUIP_CARD
  | QUERY_TARGET_CARD
  | QUERY_OVERLAY_CARD
  | QUERY_COUNTERS
  | QUERY_OWNER
  | QUERY_STATUS
  | QUERY_IS_PUBLIC
  | QUERY_LSCALE
  | QUERY_RSCALE
  | QUERY_LINK
  | QUERY_IS_HIDDEN
  | QUERY_COVER
  | unnamed (bit : Fin 5)
  | QUERY_END
  deriving DecidableEq, Repr

namespace QueryFlag

def mask : QueryFlag → UInt32
  | QUERY_CODE => 0x1
  | QUERY_POSITION => 0x2
  | QUERY_ALIAS => 0x4
  | QUERY_TYPE => 0x8
  | QUERY_LEVEL => 0x10
  | QUERY_RANK => 0x20
  | QUERY_ATTRIBUTE => 0x40
  | QUERY_RACE => 0x80
  | QUERY_ATTACK => 0x100
  | QUERY_DEFENSE => 0x200
  | QUERY_BASE_ATTACK => 0x400
  | QUERY_BASE_DEFENSE => 0x800
  | QUERY_REASON => 0x1000
  | QUERY_REASON_CARD => 0x2000
  | QUERY_EQUIP_CARD => 0x4000
  | QUERY_TARGET_CARD => 0x8000
  | QUERY_OVERLAY_CARD => 0x10000
  | QUERY_COUNTERS => 0x20000
  | QUERY_OWNER => 0x40000
  | QUERY_STATUS => 0x80000
  | QUERY_IS_PUBLIC => 0x100000
  | QUERY_LSCALE => 0x200000
  | QUERY_RSCALE => 0x400000
  | QUERY_LINK => 0x800000
  | QUERY_IS_HIDDEN => 0x1000000
  | QUERY_COVER => 0x2000000
  | unnamed bit => UInt32.ofNat (0x4000000 * 2 ^ bit.val)
  | QUERY_END => 0x80000000

/-- The flags below `QUERY_END`, each mask twice the one before. -/
def fields : List QueryFlag :=
  [QUERY_CODE, QUERY_POSITION, QUERY_ALIAS, QUERY_TYPE, QUERY_LEVEL, QUERY_RANK, QUERY_ATTRIBUTE,
    QUERY_RACE, QUERY_ATTACK, QUERY_DEFENSE, QUERY_BASE_ATTACK, QUERY_BASE_DEFENSE, QUERY_REASON,
    QUERY_REASON_CARD, QUERY_EQUIP_CARD, QUERY_TARGET_CARD, QUERY_OVERLAY_CARD, QUERY_COUNTERS,
    QUERY_OWNER, QUERY_STATUS, QUERY_IS_PUBLIC, QUERY_LSCALE, QUERY_RSCALE, QUERY_LINK,
    QUERY_IS_HIDDEN, QUERY_COVER, unnamed 0, unnamed 1, unnamed 2, unnamed 3, unnamed 4]

/-- What `for (flag = 1; flag <= QUERY_END; flag <<= 1)` goes through. -/
def all : List QueryFlag := fields ++ [QUERY_END]

theorem masks_all :
    all.map (fun flag => flag.mask.toNat) = (List.range 32).map (fun i => 2 ^ i) := by
  decide

theorem mem_all (flag : QueryFlag) : flag ∈ all := by
  cases flag with
  | unnamed bit =>
    revert bit
    decide
  | _ => decide

def ofMask (mask : UInt32) : Option QueryFlag := all.find? (fun flag => flag.mask = mask)

theorem ofMask_mask (flag : QueryFlag) : ofMask flag.mask = some flag := by
  cases flag with
  | unnamed bit =>
    revert bit
    decide
  | _ => decide

end QueryFlag

/-! ## Queries -/

def POS_FACEUP_ATTACK : UInt32 := 0x1
def POS_FACEUP_DEFENSE : UInt32 := 0x4
def POS_FACEUP : UInt32 := POS_FACEUP_ATTACK + POS_FACEUP_DEFENSE

structure LocInfo where
  con : UInt8
  loc : UInt8
  seq : UInt32
  pos : UInt32
  deriving DecidableEq, Repr

/-- The bytes of a location on the wire. -/
def LocInfo.SIZE : Nat := 1 + 1 + 4 + 4

/-- `sizeof(LocInfo)`: in memory two bytes of padding stand before `seq`. -/
def LocInfo.sizeof : Nat := 12

/-- `Query{}` has every field zero and every list empty. -/
structure Query where
  flags : UInt32 := 0
  code : UInt32 := 0
  pos : UInt32 := 0
  «alias» : UInt32 := 0
  type : UInt32 := 0
  level : UInt32 := 0
  rank : UInt32 := 0
  link : UInt32 := 0
  «attribute» : UInt32 := 0
  race : UInt64 := 0
  attack : Int32 := 0
  defense : Int32 := 0
  bAttack : Int32 := 0
  bDefense : Int32 := 0
  reason : UInt32 := 0
  owner : UInt8 := 0
  status : UInt32 := 0
  isPublic : UInt8 := 0
  lscale : UInt32 := 0
  rscale : UInt32 := 0
  linkMarker : UInt32 := 0
  reasonCard : LocInfo := ⟨0, 0, 0, 0⟩
  equipCard : LocInfo := ⟨0, 0, 0, 0⟩
  isHidden : UInt8 := 0
  cover : UInt32 := 0
  targets : List LocInfo := []
  overlays : List UInt32 := []
  counters : List UInt32 := []
  deriving DecidableEq, Repr

namespace Query

def flagged (query : Query) (flag : QueryFlag) : Bool :=
  query.flags &&& flag.mask = flag.mask

/-- The queries have the same values in the fields of the flag. -/
def SameField (q r : Query) : QueryFlag → Prop
  | .QUERY_CODE => q.code = r.code
  | .QUERY_POSITION => q.pos = r.pos
  | .QUERY_ALIAS => q.alias = r.alias
  | .QUERY_TYPE => q.type = r.type
  | .QUERY_LEVEL => q.level = r.level
  | .QUERY_RANK => q.rank = r.rank
  | .QUERY_ATTRIBUTE => q.attribute = r.attribute
  | .QUERY_RACE => q.race = r.race
  | .QUERY_ATTACK => q.attack = r.attack
  | .QUERY_DEFENSE => q.defense = r.defense
  | .QUERY_BASE_ATTACK => q.bAttack = r.bAttack
  | .QUERY_BASE_DEFENSE => q.bDefense = r.bDefense
  | .QUERY_REASON => q.reason = r.reason
  | .QUERY_REASON_CARD => q.reasonCard = r.reasonCard
  | .QUERY_EQUIP_CARD => q.equipCard = r.equipCard
  | .QUERY_TARGET_CARD => q.targets = r.targets
  | .QUERY_OVERLAY_CARD => q.overlays = r.overlays
  | .QUERY_COUNTERS => q.counters = r.counters
  | .QUERY_OWNER => q.owner = r.owner
  | .QUERY_STATUS => q.status = r.status
  | .QUERY_IS_PUBLIC => q.isPublic = r.isPublic
  | .QUERY_LSCALE => q.lscale = r.lscale
  | .QUERY_RSCALE => q.rscale = r.rscale
  | .QUERY_LINK => q.link = r.link ∧ q.linkMarker = r.linkMarker
  | .QUERY_IS_HIDDEN => q.isHidden = r.isHidden
  | .QUERY_COVER => q.cover = r.cover
  | .unnamed _ => True
  | .QUERY_END => True

/-- A mask is set when its bit is. -/
theorem flagged_iff {query : Query} {flag : QueryFlag} {i : Nat}
    (hmask : flag.mask.toNat = 2 ^ i) :
    query.flagged flag = true ↔ query.flags.toNat.testBit i := by
  rw [flagged, decide_eq_true_eq, ← UInt32.toNat_inj, UInt32.toNat_and, hmask, Nat.and_two_pow]
  cases query.flags.toNat.testBit i with
  | false => simpa using (Nat.two_pow_pos i).ne
  | true => simp

/-- Every mask is one bit. -/
theorem mask_eq_pow (flag : QueryFlag) : ∃ i < 32, flag.mask.toNat = 2 ^ i := by
  have hin := List.mem_map_of_mem (f := fun flag => flag.mask.toNat) (QueryFlag.mem_all flag)
  rw [QueryFlag.masks_all, List.mem_map] at hin
  obtain ⟨i, hi, hpow⟩ := hin
  exact ⟨i, List.mem_range.mp hi, hpow.symm⟩

/-- Every bit has a mask. -/
theorem exists_mask {i : Nat} (hi : i < 32) : ∃ flag : QueryFlag, flag.mask.toNat = 2 ^ i := by
  have hin := List.mem_map_of_mem (f := fun i => 2 ^ i) (List.mem_range.mpr hi)
  rw [← QueryFlag.masks_all, List.mem_map] at hin
  obtain ⟨flag, _, hpow⟩ := hin
  exact ⟨flag, hpow⟩

def masks (flags : List QueryFlag) : UInt32 := flags.foldl (fun mask flag => mask ||| flag.mask) 0

theorem testBit_foldl_mask (flags : List QueryFlag) (mask : UInt32) (i : Nat) :
    (flags.foldl (fun mask flag => mask ||| flag.mask) mask).toNat.testBit i = true ↔
      mask.toNat.testBit i = true ∨ ∃ flag ∈ flags, flag.mask.toNat.testBit i = true := by
  induction flags generalizing mask with
  | nil => simp
  | cons flag flags ih =>
    rw [List.foldl_cons, ih, UInt32.toNat_or, Nat.testBit_or, Bool.or_eq_true, or_assoc,
      List.exists_mem_cons_iff]

/-- The masks of the flags that are set make up the flags. -/
theorem masks_flagged (query : Query) :
    masks (QueryFlag.all.filter query.flagged) = query.flags := by
  rw [← UInt32.toNat_inj]
  apply Nat.eq_of_testBit_eq
  intro i
  rw [Bool.eq_iff_iff, masks, testBit_foldl_mask, UInt32.toNat_zero, Nat.zero_testBit]
  constructor
  · intro h
    rcases h with hzero | ⟨flag, hflag, hbit⟩
    · cases hzero
    · obtain ⟨j, _, hpow⟩ := mask_eq_pow flag
      rw [hpow, Nat.testBit_two_pow, decide_eq_true_eq] at hbit
      rw [← hbit]
      exact (flagged_iff hpow).mp (List.mem_filter.mp hflag).2
  · intro h
    have hi : i < 32 := by
      by_contra hge
      have hlt : query.flags.toNat < 2 ^ i :=
        query.flags.toNat_lt.trans_le (Nat.pow_le_pow_right (by decide) (by omega))
      rw [Nat.testBit_lt_two_pow hlt] at h
      cases h
    obtain ⟨flag, hpow⟩ := exists_mask hi
    refine Or.inr ⟨flag, ?_, ?_⟩
    · exact List.mem_filter.mpr ⟨QueryFlag.mem_all flag, (flagged_iff hpow).mpr h⟩
    · rw [hpow, Nat.testBit_two_pow_self]

end Query

end EdoproServer.Core
