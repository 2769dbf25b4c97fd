import EdoproServer.Decks.Basic
import EdoproServer.Lib.Bits

namespace EdoproServer.Decks
open Lib

/-- A ban list while it is loaded, on either server: its four buckets in the order of the adds,
its points and its hash. A code that is not a number is `none`. -/
structure LoadedBanList where
  forbidden : List (Option Int)
  limited : List (Option Int)
  semiLimited : List (Option Int)
  all : List (Option Int)
  points : InsertionMap (Option Int) Int
  hash : Int

def LoadedBanList.new : LoadedBanList :=
  { forbidden := [], limited := [], semiLimited := [], all := [], points := .empty,
    hash := 0x7dfcee6a }

/-- A card line of a list. Points that are missing or not a number are `none`. -/
structure BanListEntry where
  cardId : Option Int
  quantity : Int
  points : Option Int
  deriving DecidableEq, Repr

namespace BanListEntry

/-- To the 32-bit operators a code that is not a number is 0. -/
def code (cardId : Option Int) : Int := cardId.getD 0

/-- What both servers do to their hash for a card. -/
def fold (hash : Int) (cardId : Option Int) (quantity : Int) : Int :=
  Bits.xor
    (Bits.xor hash
      (Bits.or (Bits.sar (Bits.shl (Bits.shr (code cardId) 0) 18) 0) (Bits.sar (code cardId) 14)))
    (Bits.or (Bits.shr (Bits.shl (Bits.shr (code cardId) 0) (27 + quantity)) 0)
      (Bits.shr (code cardId) (5 - quantity)))

/-- The word a card puts into a hash. -/
def term (cardId : Option Int) (quantity : Int) : BitVec 32 :=
  Bits.word (fold 0 cardId quantity)

theorem word_fold (hash : Int) (cardId : Option Int) (quantity : Int) :
    Bits.word (fold hash cardId quantity) = Bits.word hash ^^^ term cardId quantity := by
  have hzero : Bits.word 0 = 0#32 := rfl
  simp only [term, fold, Bits.word_xor, hzero, BitVec.zero_xor, BitVec.xor_assoc]

/-- A code that is not a number changes no hash. -/
theorem term_none (quantity : Int) : term none quantity = 0#32 := by
  have hzero : Bits.word 0 = 0#32 := rfl
  have hsign : ∀ n, (0#32).sshiftRight n = 0#32 := by
    intro n
    simp
  simp [term, fold, code, hzero, hsign]

end BanListEntry

namespace LoadedBanList

def setPoints (banList : LoadedBanList) (cardId : Option Int) (points : Option Int) :
    LoadedBanList :=
  match points with
  | none => banList
  | some points => { banList with points := banList.points.set cardId points }

@[simp] theorem setPoints_hash (banList : LoadedBanList) (cardId points : Option Int) :
    (banList.setPoints cardId points).hash = banList.hash := by
  cases points <;> rfl

end LoadedBanList

namespace YGOProBanList

def setHash (banList : LoadedBanList) (hash : Int) : LoadedBanList := { banList with hash := hash }

def add (banList : LoadedBanList) (entry : BanListEntry) : LoadedBanList :=
  let banList :=
    if entry.quantity = 0 then
      { banList with forbidden := banList.forbidden ++ [entry.cardId] }
    else if entry.quantity = 1 then
      { banList with limited := banList.limited ++ [entry.cardId] }
    else if entry.quantity = 2 then
      { banList with semiLimited := banList.semiLimited ++ [entry.cardId] }
    else { banList with all := banList.all ++ [entry.cardId] }
  banList.setPoints entry.cardId entry.points

def buckets (banList : LoadedBanList) : List (List (Option Int) × Int) :=
  [(banList.forbidden, 0), (banList.limited, 1), (banList.semiLimited, 2), (banList.all, 3)]

/-- Recomputes the list hash the way a client computes it for a whitelist list. -/
def recomputeWhitelistHash (banList : LoadedBanList) : LoadedBanList :=
  let hash := (buckets banList).foldl
    (fun hash bucket =>
      bucket.1.foldl (fun hash cardId => BanListEntry.fold hash cardId bucket.2) hash)
    0x7dfcee6a
  { banList with hash := Bits.shr (Bits.xor hash 0x0f0f0f0f) 0 }

/-- The words of all cards of a list, folded into one. -/
def digest (banList : LoadedBanList) : BitVec 32 :=
  (buckets banList).foldl
    (fun digest bucket =>
      bucket.1.foldl (fun digest cardId => digest ^^^ BanListEntry.term cardId bucket.2) digest)
    (Bits.word 0x7dfcee6a)

end YGOProBanList

namespace EdoproBanList

def add (banList : LoadedBanList) (entry : BanListEntry) : LoadedBanList :=
  if entry.cardId = none then banList
  else
    let banList :=
      if entry.quantity = 0 then
        { banList with forbidden := banList.forbidden ++ [entry.cardId] }
      else banList
    let banList :=
      if entry.quantity = 1 then
        { banList with limited := banList.limited ++ [entry.cardId] }
      else banList
    let banList :=
      if entry.quantity = 2 then
        { banList with semiLimited := banList.semiLimited ++ [entry.cardId] }
      else banList
    let banList :=
      if entry.quantity = 3 then { banList with all := banList.all ++ [entry.cardId] }
      else banList
    let banList := banList.setPoints entry.cardId entry.points
    { banList with hash := BanListEntry.fold banList.hash entry.cardId entry.quantity }

end EdoproBanList

namespace YGOProBanList
open BanListEntry

/-- The words of the cards of one bucket. -/
def bucketWord (cards : List (Option Int)) (quantity : Int) : BitVec 32 :=
  cards.foldl (fun digest cardId => digest ^^^ term cardId quantity) 0#32

theorem foldl_bucket (start : BitVec 32) (cards : List (Option Int)) (quantity : Int) :
    cards.foldl (fun digest cardId => digest ^^^ term cardId quantity) start =
      start ^^^ bucketWord cards quantity := by
  induction cards generalizing start with
  | nil => exact (BitVec.xor_zero).symm
  | cons cardId rest ih =>
    simp only [bucketWord, List.foldl_cons, BitVec.zero_xor]
    rw [ih, ih (term cardId quantity), BitVec.xor_assoc]

theorem bucketWord_push (cards : List (Option Int)) (cardId : Option Int) (quantity : Int) :
    bucketWord (cards ++ [cardId]) quantity =
      bucketWord cards quantity ^^^ term cardId quantity := by
  simp only [bucketWord, List.foldl_append, List.foldl_cons, List.foldl_nil]

theorem digest_eq (banList : LoadedBanList) :
    digest banList = Bits.word 0x7dfcee6a ^^^ bucketWord banList.forbidden 0 ^^^
      bucketWord banList.limited 1 ^^^ bucketWord banList.semiLimited 2 ^^^
        bucketWord banList.all 3 := by
  simp only [digest, buckets, List.foldl_cons, List.foldl_nil, foldl_bucket]

@[simp] theorem digest_setPoints (banList : LoadedBanList) (cardId points : Option Int) :
    digest (banList.setPoints cardId points) = digest banList := by
  cases points <;> rfl

/-- A card folds its word in, whichever bucket it goes to. -/
theorem digest_add (banList : LoadedBanList) {entry : BanListEntry}
    (limit : 0 ≤ entry.quantity ∧ entry.quantity ≤ 3) :
    digest (add banList entry) = digest banList ^^^ term entry.cardId entry.quantity := by
  have hq : entry.quantity = 0 ∨ entry.quantity = 1 ∨ entry.quantity = 2 ∨
      entry.quantity = 3 := by
    omega
  rcases hq with hq | hq | hq | hq
  · simp only [add, hq, if_true]
    rw [digest_setPoints]
    simp only [digest_eq, bucketWord_push]
    ac_rfl
  · simp only [add, hq, one_ne_zero, if_false, if_true]
    rw [digest_setPoints]
    simp only [digest_eq, bucketWord_push]
    ac_rfl
  · have h20 : ¬ (2 : Int) = 0 := by decide
    have h21 : ¬ (2 : Int) = 1 := by decide
    simp only [add, hq, h20, h21, if_false, if_true]
    rw [digest_setPoints]
    simp only [digest_eq, bucketWord_push]
    ac_rfl
  · have h30 : ¬ (3 : Int) = 0 := by decide
    have h31 : ¬ (3 : Int) = 1 := by decide
    have h32 : ¬ (3 : Int) = 2 := by decide
    simp only [add, hq, h30, h31, h32, if_false]
    rw [digest_setPoints]
    simp only [digest_eq, bucketWord_push]
    ac_rfl

theorem digest_adds (banList : LoadedBanList) {entries : List BanListEntry}
    (limits : ∀ e ∈ entries, 0 ≤ e.quantity ∧ e.quantity ≤ 3) :
    digest (entries.foldl add banList) =
      entries.foldl (fun digest e => digest ^^^ term e.cardId e.quantity) (digest banList) := by
  induction entries generalizing banList with
  | nil => simp only [List.foldl_nil]
  | cons entry rest ih =>
    obtain ⟨hentry, hrest⟩ := List.forall_mem_cons.mp limits
    have hstep := ih (add banList entry) hrest
    rw [digest_add banList hentry] at hstep
    exact hstep

theorem word_foldl_bucket (hash : Int) (cards : List (Option Int)) (quantity : Int) :
    Bits.word (cards.foldl (fun hash cardId => fold hash cardId quantity) hash) =
      cards.foldl (fun digest cardId => digest ^^^ term cardId quantity) (Bits.word hash) := by
  induction cards generalizing hash with
  | nil => rfl
  | cons cardId rest ih => rw [List.foldl_cons, List.foldl_cons, ih, word_fold]

/-- The recomputed hash is the digest with the whitelist's mask, as an unsigned number. -/
theorem recomputeWhitelistHash_hash (banList : LoadedBanList) :
    (recomputeWhitelistHash banList).hash =
      ((digest banList ^^^ Bits.word 0x0f0f0f0f).toNat : Int) := by
  have hcount : Bits.count 0 = 0 := by decide
  simp only [recomputeWhitelistHash, digest, buckets, List.foldl_cons, List.foldl_nil, Bits.shr,
    hcount, BitVec.ushiftRight_zero, Bits.word_xor, word_foldl_bucket]

end YGOProBanList

namespace EdoproBanList
open BanListEntry

/-- The hash takes a card in at once; a code that is not a number changes nothing either way. -/
theorem word_hash_add (banList : LoadedBanList) (entry : BanListEntry) :
    Bits.word (add banList entry).hash =
      Bits.word banList.hash ^^^ term entry.cardId entry.quantity := by
  unfold add
  split
  · rename_i hnone
    rw [hnone, term_none, BitVec.xor_zero]
  · simp only [word_fold, LoadedBanList.setPoints_hash]
    split <;> split <;> split <;> split <;> rfl

theorem word_hash_adds (banList : LoadedBanList) (entries : List BanListEntry) :
    Bits.word (entries.foldl add banList).hash =
      entries.foldl (fun digest e => digest ^^^ term e.cardId e.quantity)
        (Bits.word banList.hash) := by
  induction entries generalizing banList with
  | nil => rfl
  | cons entry rest ih => rw [List.foldl_cons, List.foldl_cons, ih, word_hash_add]

end EdoproBanList

open BanListEntry

/-- Each card folds its own word in, so their order does not matter. -/
theorem foldl_term_perm {entries reordered : List BanListEntry} (perm : entries.Perm reordered)
    (start : BitVec 32) :
    entries.foldl (fun digest e => digest ^^^ term e.cardId e.quantity) start =
      reordered.foldl (fun digest e => digest ^^^ term e.cardId e.quantity) start := by
  have hcomm : RightCommutative
      (fun (digest : BitVec 32) (e : BanListEntry) => digest ^^^ term e.cardId e.quantity) := by
    refine ⟨fun digest e e' => ?_⟩
    ac_rfl
  exact perm.foldl_eq start

/-- Whatever order the entries come in on either side, the whitelist hash of one server is the
hash of the other with the mask of the directive, modulo 2^32 and as an unsigned number. The list
may start from any hash the parsing library supplied. -/
theorem whitelistHash_agrees {entries reordered : List BanListEntry}
    (perm : entries.Perm reordered)
    (limits : ∀ e ∈ entries, 0 ≤ e.quantity ∧ e.quantity ≤ 3) (supplied : Int) :
    let ygopro := YGOProBanList.recomputeWhitelistHash
      (entries.foldl YGOProBanList.add (YGOProBanList.setHash .new supplied))
    let edopro := reordered.foldl EdoproBanList.add .new
    ygopro.hash ≡ Bits.xor edopro.hash 0x0f0f0f0f [ZMOD 2 ^ 32] ∧
      0 ≤ ygopro.hash ∧ ygopro.hash < 2 ^ 32 := by
  intro ygopro edopro
  have hy : ygopro.hash = ((YGOProBanList.digest (entries.foldl YGOProBanList.add
      (YGOProBanList.setHash .new supplied)) ^^^ Bits.word 0x0f0f0f0f).toNat : Int) :=
    YGOProBanList.recomputeWhitelistHash_hash _
  have hwords : Bits.word ygopro.hash = Bits.word (Bits.xor edopro.hash 0x0f0f0f0f) := by
    rw [hy, Bits.word_toNat, Bits.word_xor, YGOProBanList.digest_adds _ limits,
      foldl_term_perm perm, EdoproBanList.word_hash_adds]
    rfl
  refine ⟨Bits.word_eq_iff.mp hwords, ?_, ?_⟩
  · rw [hy]
    exact Int.natCast_nonneg _
  · rw [hy]
    exact_mod_cast BitVec.isLt _

/-- Three cards of a whitelist. -/
def sampleEntries : List BanListEntry :=
  [⟨some 46986414, 3, none⟩, ⟨some 89631139, 0, none⟩, ⟨some 2147483647, 1, some 10⟩]

/-- One server adds them in this order, the other in the reverse one. -/
theorem whitelistHash_agrees_sample :
    (YGOProBanList.recomputeWhitelistHash
      (sampleEntries.foldl YGOProBanList.add (YGOProBanList.setHash .new 7))).hash ≡
      Bits.xor (sampleEntries.reverse.foldl EdoproBanList.add .new).hash 0x0f0f0f0f
      [ZMOD 2 ^ 32] :=
  (whitelistHash_agrees (List.reverse_perm sampleEntries).symm (by decide) 7).1

end EdoproServer.Decks
