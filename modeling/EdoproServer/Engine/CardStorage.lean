import EdoproServer.Lib.Bits
import EdoproServer.Lib.Codec
import EdoproServer.Lib.Probing

namespace EdoproServer.Engine
open Lib

def CARD_ID_MIN : Int := 1
def CARD_ID_MAX : Int := 0x7fffffff
def HASH_LOAD_FACTOR : ℚ := 3 / 4
def HASH_MIN_CAPACITY : Int := 16

/-- `withOt` tells the entries that carry the pool's availability from those of the library. -/
structure CardDataEntry where
  withOt : Bool
  code : Option Int
  ot : Option Int
  «alias» : Option Int
  setcode : Option (List Int)
  type : Option Int
  level : Option Int
  «attribute» : Option Int
  race : Option Int
  attack : Option Int
  defense : Option Int
  lscale : Option Int
  rscale : Option Int
  linkMarker : Option Int
  ruleCode : Option Int
  category : Option Int
  deriving DecidableEq, Repr

/-- A new entry with availability that takes over the fields. -/
def CardDataWithOt.fromPartial (card : CardDataEntry) : CardDataEntry where
  withOt := true
  code := card.code
  ot := card.ot
  «alias» := card.alias
  setcode := card.setcode
  type := card.type
  level := card.level
  «attribute» := card.attribute
  race := card.race
  attack := card.attack
  defense := card.defense
  lscale := card.lscale
  rscale := card.rscale
  linkMarker := card.linkMarker
  ruleCode := card.ruleCode
  category := card.category

/-- The binary form the card library gives an entry; an empty entry takes `entrySize` bytes. -/
structure CardCodec where
  entrySize : Nat
  toPayload : CardDataEntry → List UInt8
  fromPayload : List UInt8 → CardDataEntry

/-- On these entries the codec decodes what it encodes, in the size of an entry. -/
structure CardCodec.Faithful (codec : CardCodec) (cards : List CardDataEntry) : Prop where
  size : ∀ card ∈ cards,
    (codec.toPayload (CardDataWithOt.fromPartial card)).length = codec.entrySize
  decodes : ∀ card ∈ cards,
    codec.fromPayload (codec.toPayload (CardDataWithOt.fromPartial card)) =
      CardDataWithOt.fromPartial card

structure TypeError where
  message : String
  deriving DecidableEq, Repr

/-- Only an integer can be a card id; `none` stands for every other number. -/
def isValidCardId (cardId : Option Int) : Bool :=
  match cardId with
  | none => false
  | some cardId => CARD_ID_MIN ≤ cardId ∧ cardId ≤ CARD_ID_MAX

theorem isValidCardId_iff {cardId : Int} :
    isValidCardId (some cardId) = true ↔ 1 ≤ cardId ∧ cardId ≤ 0x7fffffff := by
  exact decide_eq_true_iff

/-- The id an entry is stored under. -/
def CardDataEntry.cardId (card : CardDataEntry) : Int := Bits.shr (card.code.getD 0) 0

/-- The bytes of the entries, the two views of the hash table and its mask. -/
structure CardStorage where
  entries : List UInt8
  hashKeys : List Int
  hashValues : List Int
  hashMask : Int
  size : Nat
  deriving DecidableEq, Repr

namespace CardStorage

/-- Doubles a capacity while it is below what is required; the fuel bounds the rounds. -/
def growCapacity (required : Int) : Nat → Int → Option Int
  | 0, _ => none
  | fuel + 1, capacity =>
    if capacity < required then growCapacity required fuel (Bits.shl capacity 1) else some capacity

def requiredCapacity (cardCount : Nat) : Int := max 1 ⌈(cardCount : ℚ) / HASH_LOAD_FACTOR⌉

def computeHashCapacity (fuel cardCount : Nat) : Option Int :=
  growCapacity (requiredCapacity cardCount) fuel HASH_MIN_CAPACITY

/-- The first entry of each valid id. -/
def uniqueCards : List CardDataEntry → List Int → List CardDataEntry
  | [], _ => []
  | card :: rest, seen =>
    if !isValidCardId (some card.cardId) ∨ card.cardId ∈ seen then uniqueCards rest seen
    else card :: uniqueCards rest (card.cardId :: seen)

def hash (hashMask cardId : Int) : Nat :=
  (Bits.and (Bits.shr (Bits.imul cardId 0x9e3779b1) 0) hashMask).toNat

def nextSlot (hashMask : Int) (slot : Nat) : Nat := (Bits.and (slot + 1) hashMask).toNat

/-- What a slot of the table holds; a key of 0 marks a free one. -/
def table (hashKeys : List Int) (slot : Nat) : Option Int :=
  if hashKeys.getD slot 0 = 0 then none else some (hashKeys.getD slot 0)

/-- Both loops over the table: from the hash on, until a slot is free or holds the id. -/
def probe (fuel : Nat) (storage : CardStorage) (cardId : Int) : Option Nat :=
  Probing.seek (fun slot => storage.hashKeys.getD slot 0 = 0 ∨
      storage.hashKeys.getD slot 0 = cardId)
    (nextSlot storage.hashMask) fuel (hash storage.hashMask cardId)

def insertHash (fuel : Nat) (storage : CardStorage) (cardId : Int) (entryIndex : Nat) :
    Option CardStorage :=
  (probe fuel storage cardId).map fun slot =>
    if storage.hashKeys.getD slot 0 = 0 then
      { storage with
        hashKeys := storage.hashKeys.set slot (Bits.toUint32 cardId)
        hashValues := storage.hashValues.set slot (Bits.toUint32 (entryIndex + 1)) }
    else storage

def findEntryIndex (fuel : Nat) (storage : CardStorage) (cardId : Int) : Option Int :=
  (probe fuel storage cardId).map fun slot =>
    if storage.hashKeys.getD slot 0 = 0 then -1
    else
      let value := storage.hashValues.getD slot 0
      if value > 0 then value - 1 else -1

/-- Writes bytes over a buffer from an offset on. -/
def setBytes (buffer payload : List UInt8) (offset : Nat) : List UInt8 :=
  buffer.take offset ++ payload ++ buffer.drop (offset + payload.length)

def subarray (buffer : List UInt8) (start stop : Nat) : List UInt8 :=
  (buffer.drop start).take (stop - start)

variable (codec : CardCodec)

def payload (card : CardDataEntry) : List UInt8 :=
  if card.withOt then codec.toPayload card
  else codec.toPayload (CardDataWithOt.fromPartial card)

def writeEntry (storage : CardStorage) (entryIndex : Nat) (card : CardDataEntry) :
    Except TypeError CardStorage :=
  let payload := payload codec card
  if payload.length ≠ codec.entrySize then
    .error { message := "Unexpected card entry payload size: " ++ toString payload.length }
  else
    .ok { storage with
      entries := setBytes storage.entries payload (entryIndex * codec.entrySize) }

def readEntry (storage : CardStorage) (entryIndex : Nat) : CardDataEntry :=
  let offset := entryIndex * codec.entrySize
  codec.fromPayload (subarray storage.entries offset (offset + codec.entrySize))

/-- Writes the cards from an index on; no result while a probe has not ended. -/
def writeCards (fuel : Nat) :
    List CardDataEntry → Nat → CardStorage → Option (Except TypeError CardStorage)
  | [], _, storage => some (.ok storage)
  | card :: rest, i, storage =>
    match writeEntry codec storage i card with
    | .error error => some (.error error)
    | .ok storage =>
      match insertHash fuel storage card.cardId i with
      | none => none
      | some storage => writeCards fuel rest (i + 1) storage

/-- A table of so many free slots, and room for so many entries. -/
def alloc (hashCapacity : Int) (cardCount : Nat) : CardStorage where
  entries := List.replicate (cardCount * codec.entrySize) 0
  hashKeys := List.replicate hashCapacity.toNat 0
  hashValues := List.replicate hashCapacity.toNat 0
  hashMask := hashCapacity - 1
  size := cardCount

def fromCards (fuel : Nat) (cards : List CardDataEntry) : Option (Except TypeError CardStorage) :=
  let uniqueCards := uniqueCards cards []
  match computeHashCapacity fuel uniqueCards.length with
  | none => none
  | some hashCapacity =>
    writeCards codec fuel uniqueCards 0 (alloc codec hashCapacity uniqueCards.length)

/-- No result while the probe has not ended; an inner `none` is undefined. -/
def readCard (fuel : Nat) (storage : CardStorage) (cardId : Option Int) :
    Option (Option CardDataEntry) :=
  match cardId with
  | none => some none
  | some cardId =>
    if !isValidCardId (some cardId) then some none
    else
      (findEntryIndex fuel storage (Bits.shr cardId 0)).map fun entryIndex =>
        if entryIndex < 0 then none else some (readEntry codec storage entryIndex.toNat)

/-! ## The hash table -/

section Table

variable {k fuel : Nat} {storage : CardStorage} {ids : List Int}

theorem nextSlot_eq (hk : k ≤ 31) (slot : Nat) :
    nextSlot (2 ^ k - 1) slot = Probing.around (2 ^ k) slot := by
  rw [nextSlot, Bits.and_mask hk, Probing.around]
  have hcast : ((slot : Int) + 1) % 2 ^ k = (((slot + 1) % 2 ^ k : Nat) : Int) := by
    push_cast
    rfl
  rw [hcast, Int.toNat_natCast]

theorem hash_lt (hk : k ≤ 31) (cardId : Int) : hash (2 ^ k - 1) cardId < 2 ^ k := by
  rw [hash, Bits.and_mask hk]
  have hpos : (0 : Int) < 2 ^ k := by positivity
  have hlt := Int.emod_lt_of_pos (Bits.shr (Bits.imul cardId 0x9e3779b1) 0) hpos
  have hcast : ((2 ^ k : Nat) : Int) = 2 ^ k := by
    push_cast
    rfl
  omega

/-- The table holds the ids, each with its position, and nothing else. -/
structure Indexed (k : Nat) (storage : CardStorage) (ids : List Int) : Prop where
  mask : storage.hashMask = 2 ^ k - 1
  keys : storage.hashKeys.length = 2 ^ k
  values : storage.hashValues.length = 2 ^ k
  chained : Probing.Chained (2 ^ k) (hash storage.hashMask) (table storage.hashKeys)
  sound : ∀ slot < 2 ^ k, ∀ id, table storage.hashKeys slot = some id →
    ∃ i : Nat, ids[i]? = some id ∧ storage.hashValues.getD slot 0 = i + 1
  complete : ∀ id ∈ ids, ∃ slot < 2 ^ k, table storage.hashKeys slot = some id
  taken : storage.hashKeys.countP (fun key => key ≠ 0) = ids.length

/-- While there are fewer ids than slots, a slot is free. -/
theorem Indexed.free (h : Indexed k storage ids) (room : ids.length < 2 ^ k) :
    ∃ slot < 2 ^ k, table storage.hashKeys slot = none := by
  by_contra hfull
  have hall : ∀ key ∈ storage.hashKeys, decide (key ≠ 0) = true := by
    intro key hkey
    obtain ⟨slot, hslot, rfl⟩ := List.mem_iff_getElem.mp hkey
    by_contra hzero
    apply hfull
    refine ⟨slot, h.keys ▸ hslot, ?_⟩
    simp only [ne_eq, decide_not, Bool.not_eq_true', decide_eq_false_iff_not, not_not] at hzero
    simp only [table, List.getD_eq_getElem?_getD, List.getElem?_eq_getElem hslot,
      Option.getD_some, hzero, if_true]
  have hcount := List.countP_eq_length.mpr hall
  have htaken := h.taken
  rw [hcount, h.keys] at htaken
  omega

theorem stops_iff {hashKeys : List Int} {cardId : Int} (slot : Nat) :
    (hashKeys.getD slot 0 = 0 ∨ hashKeys.getD slot 0 = cardId) ↔
      Probing.Stops (table hashKeys) cardId slot := by
  unfold Probing.Stops table
  by_cases hzero : hashKeys.getD slot 0 = 0
  · simp only [hzero, if_true, true_or]
  · simp only [hzero, if_false, reduceCtorEq, false_or, Option.some.injEq]

/-- Every probe ends, at the first slot that is free or holds the id. -/
theorem Indexed.probe_ends (hk : k ≤ 31) (h : Indexed k storage ids)
    (room : ids.length < 2 ^ k) (cardId : Int) :
    ∃ d, Probing.FirstStop (2 ^ k) (hash storage.hashMask) (table storage.hashKeys) cardId d ∧
      ∀ fuel, 2 ^ k ≤ fuel →
        probe fuel storage cardId = some ((hash storage.hashMask cardId + d) % 2 ^ k) := by
  obtain ⟨free, hfree, hnone⟩ := h.free room
  have hhome : hash storage.hashMask cardId < 2 ^ k := by
    rw [h.mask]
    exact hash_lt hk cardId
  obtain ⟨d, hd, hfirst⟩ := Probing.exists_firstStop hhome hfree hnone
  refine ⟨d, hfirst, ?_⟩
  intro fuel hfuel
  have hnext : ∀ slot, nextSlot storage.hashMask slot = Probing.around (2 ^ k) slot := by
    intro slot
    rw [h.mask]
    exact nextSlot_eq hk slot
  rw [probe, Probing.seek_congr stops_iff hnext]
  exact hfirst.seek_eq hhome (Nat.lt_of_lt_of_le hd hfuel)

theorem getD_eq_zero_iff {hashKeys : List Int} {slot : Nat} :
    hashKeys.getD slot 0 = 0 ↔ table hashKeys slot = none := by
  unfold table
  split
  · rename_i hzero
    simp only [hzero]
  · rename_i hzero
    simp only [hzero, reduceCtorEq]

theorem Indexed.findEntryIndex_mem (hk : k ≤ 31) (h : Indexed k storage ids)
    (room : ids.length < 2 ^ k) (distinct : ids.Nodup) {cardId : Int}
    (hfuel : 2 ^ k ≤ fuel) {i : Nat} (hi : ids[i]? = some cardId) :
    findEntryIndex fuel storage cardId = some (i : Int) := by
  obtain ⟨d, hfirst, hprobe⟩ := h.probe_ends hk room cardId
  have hthere := h.complete cardId (List.mem_of_getElem? hi)
  have hfound := (h.chained.found_iff hfirst (Nat.two_pow_pos k)).mpr hthere
  obtain ⟨j, hj, hvalue⟩ := h.sound _ (Nat.mod_lt _ (Nat.two_pow_pos k)) _ hfound
  have hij : j = i := by
    obtain ⟨hjlt, hjeq⟩ := List.getElem?_eq_some_iff.mp hj
    obtain ⟨hilt, hieq⟩ := List.getElem?_eq_some_iff.mp hi
    exact (List.Nodup.getElem_inj_iff distinct).mp (hjeq.trans hieq.symm)
  have hkey : ¬ storage.hashKeys.getD ((hash storage.hashMask cardId + d) % 2 ^ k) 0 = 0 := by
    rw [getD_eq_zero_iff, hfound]
    exact Option.some_ne_none cardId
  rw [findEntryIndex, hprobe fuel hfuel, Option.map_some, if_neg hkey]
  simp only [hvalue, hij]
  rw [if_pos (by omega)]
  congr 1
  omega

theorem Indexed.findEntryIndex_not_mem (hk : k ≤ 31) (h : Indexed k storage ids)
    (room : ids.length < 2 ^ k) {cardId : Int} (hfuel : 2 ^ k ≤ fuel)
    (hnot : cardId ∉ ids) : findEntryIndex fuel storage cardId = some (-1) := by
  obtain ⟨d, hfirst, hprobe⟩ := h.probe_ends hk room cardId
  have hfree : table storage.hashKeys ((hash storage.hashMask cardId + d) % 2 ^ k) = none := by
    rcases hfirst.stops with hfree | hfound
    · exact hfree
    · obtain ⟨j, hj, -⟩ := h.sound _ (Nat.mod_lt _ (Nat.two_pow_pos k)) _ hfound
      exact absurd (List.mem_of_getElem? hj) hnot
  rw [findEntryIndex, hprobe fuel hfuel, Option.map_some, if_pos (getD_eq_zero_iff.mpr hfree)]

theorem table_set (hashKeys : List Int) {slot : Nat} {cardId : Int}
    (hslot : slot < hashKeys.length) (hid : cardId ≠ 0) :
    table (hashKeys.set slot cardId) = Function.update (table hashKeys) slot (some cardId) := by
  funext slot'
  by_cases he : slot' = slot
  · subst he
    rw [Function.update_self, table]
    simp [List.getD_eq_getElem?_getD, hslot, hid]
  · have hne : slot ≠ slot' := fun h => he h.symm
    rw [Function.update_of_ne he]
    simp only [table, List.getD_eq_getElem?_getD, List.getElem?_set_ne hne]

/-- Inserting a new id puts it at the end of the ids; no other field of the storage changes. -/
theorem Indexed.insert (hk : k ≤ 31) (h : Indexed k storage ids) (room : ids.length < 2 ^ k)
    {cardId : Int} (hid : 0 < cardId) (hmax : cardId < 2 ^ 32) (fresh : cardId ∉ ids) :
    ∃ hashKeys hashValues,
      (∀ fuel, 2 ^ k ≤ fuel → insertHash fuel storage cardId ids.length =
        some { storage with hashKeys := hashKeys, hashValues := hashValues }) ∧
      Indexed k { storage with hashKeys := hashKeys, hashValues := hashValues }
        (ids ++ [cardId]) := by
  have hne : cardId ≠ 0 := fun he => absurd (he ▸ hid) (lt_irrefl 0)
  obtain ⟨d, hfirst, hprobe⟩ := h.probe_ends hk room cardId
  generalize hslot : (hash storage.hashMask cardId + d) % 2 ^ k = slot at hprobe
  have hlt : slot < 2 ^ k := hslot ▸ Nat.mod_lt _ (Nat.two_pow_pos k)
  have hfree : table storage.hashKeys slot = none := by
    rw [← hslot]
    rcases hfirst.stops with hfree | hfound
    · exact hfree
    · obtain ⟨j, hj, -⟩ := h.sound _ (Nat.mod_lt _ (Nat.two_pow_pos k)) _ hfound
      exact absurd (List.mem_of_getElem? hj) fresh
  have hkey : Bits.toUint32 cardId = cardId := by
    rw [Bits.toUint32_eq]
    omega
  have hpow : 2 ^ k ≤ 2 ^ 31 := Nat.pow_le_pow_right (by decide) hk
  have hvalue : Bits.toUint32 ((ids.length : Int) + 1) = (ids.length : Int) + 1 := by
    rw [Bits.toUint32_eq]
    omega
  have hlength : slot < storage.hashKeys.length := h.keys ▸ hlt
  have htable := table_set storage.hashKeys hlength hne
  refine ⟨storage.hashKeys.set slot cardId, storage.hashValues.set slot (ids.length + 1),
    ?_, ?_⟩
  · intro fuel hfuel
    rw [insertHash, hprobe fuel hfuel, Option.map_some, if_pos (getD_eq_zero_iff.mpr hfree), hkey,
      hvalue]
  · refine ⟨h.mask, ?_, ?_, ?_, ?_, ?_, ?_⟩
    · simp only [List.length_set, h.keys]
    · simp only [List.length_set, h.values]
    · simp only [htable]
      rw [← hslot]
      exact h.chained.insert hfirst (hslot ▸ hfree)
    · intro slot' hslot' id hat
      simp only [htable] at hat
      by_cases he : slot' = slot
      · subst he
        rw [Function.update_self] at hat
        cases hat
        refine ⟨ids.length, by simp, ?_⟩
        simp [List.getD_eq_getElem?_getD, h.values, hlt]
      · rw [Function.update_of_ne he] at hat
        obtain ⟨i, hi, hold⟩ := h.sound slot' hslot' id hat
        have hne' : slot ≠ slot' := fun h => he h.symm
        refine ⟨i, ?_, ?_⟩
        · rw [List.getElem?_append_left (List.getElem?_eq_some_iff.mp hi).1]
          exact hi
        · simpa only [List.getD_eq_getElem?_getD, List.getElem?_set_ne hne'] using hold
    · intro id hmem
      simp only [htable]
      rcases List.mem_append.mp hmem with hold | hnew
      · obtain ⟨slot', hslot', hat⟩ := h.complete id hold
        have he : slot' ≠ slot := by
          intro he
          rw [he, hfree] at hat
          cases hat
        refine ⟨slot', hslot', ?_⟩
        rw [Function.update_of_ne he]
        exact hat
      · rw [List.mem_singleton.mp hnew]
        exact ⟨slot, hlt, Function.update_self _ _ _⟩
    · have hzero : storage.hashKeys[slot] = 0 := by
        have hz := getD_eq_zero_iff.mpr hfree
        rwa [List.getD_eq_getElem?_getD, List.getElem?_eq_getElem hlength, Option.getD_some] at hz
      have hcount := h.taken
      rw [List.length_append, List.length_singleton, ← hcount, List.countP_set hlength]
      simp [hzero, hne]

end Table

/-! ## The entries -/

section Entries

variable {buffer bytes : List UInt8} {offset : Nat}

theorem length_setBytes (room : offset + bytes.length ≤ buffer.length) :
    (setBytes buffer bytes offset).length = buffer.length := by
  simp only [setBytes, List.length_append, List.length_take, List.length_drop]
  omega

theorem subarray_setBytes (room : offset ≤ buffer.length) :
    subarray (setBytes buffer bytes offset) offset (offset + bytes.length) = bytes := by
  have htake : (buffer.take offset).length = offset := by
    simp only [List.length_take]
    omega
  rw [subarray, setBytes, List.append_assoc, List.drop_append_of_le_length (by omega),
    List.drop_eq_nil_of_le (by omega), List.nil_append, Nat.add_sub_cancel_left,
    List.take_left]

/-- A write leaves what lies before it as it was. -/
theorem subarray_setBytes_before {start stop : Nat} (before : stop ≤ offset)
    (room : offset ≤ buffer.length) :
    subarray (setBytes buffer bytes offset) start stop = subarray buffer start stop := by
  apply List.ext_getElem?
  intro n
  simp only [subarray, setBytes, List.getElem?_take, List.getElem?_drop]
  split
  · rw [List.append_assoc, List.getElem?_append_left (by simp only [List.length_take]; omega),
      List.getElem?_take_of_lt (by omega)]
  · rfl

end Entries

/-! ## The cards -/

section Cards

variable {k fuel total : Nat} {codec : CardCodec} {storage : CardStorage}
  {cards done rest : List CardDataEntry}

/-- Either way an entry is written as one with availability. -/
theorem payload_eq (card : CardDataEntry) :
    payload codec card = codec.toPayload (CardDataWithOt.fromPartial card) := by
  unfold payload
  split
  · rename_i hot
    congr 1
    cases card
    cases hot
    rfl
  · rfl

/-- The first entries of the storage are those written so far. -/
structure Written (codec : CardCodec) (total : Nat) (storage : CardStorage)
    (done : List CardDataEntry) : Prop where
  length : storage.entries.length = total * codec.entrySize
  stored : ∀ i card, done[i]? = some card →
    subarray storage.entries (i * codec.entrySize) (i * codec.entrySize + codec.entrySize) =
      payload codec card

theorem Written.write (h : Written codec total storage done) {card : CardDataEntry}
    (size : (payload codec card).length = codec.entrySize) (room : done.length < total) :
    ∃ entries,
      writeEntry codec storage done.length card = .ok { storage with entries := entries } ∧
      Written codec total { storage with entries := entries } (done ++ [card]) := by
  have hfits : done.length * codec.entrySize + (payload codec card).length ≤
      storage.entries.length := by
    rw [h.length, size, ← Nat.succ_mul]
    exact Nat.mul_le_mul_right _ room
  refine ⟨setBytes storage.entries (payload codec card) (done.length * codec.entrySize), ?_, ?_⟩
  · simp only [writeEntry, size, ne_eq, not_true, if_false]
  · refine ⟨(length_setBytes hfits).trans h.length, ?_⟩
    intro i card' hi
    rcases Nat.lt_or_ge i done.length with hlt | hge
    · rw [List.getElem?_append_left hlt] at hi
      have hbefore : i * codec.entrySize + codec.entrySize ≤ done.length * codec.entrySize := by
        rw [← Nat.succ_mul]
        exact Nat.mul_le_mul_right _ hlt
      rw [subarray_setBytes_before hbefore (by omega)]
      exact h.stored i card' hi
    · have hlast : i = done.length := by
        have hbound := (List.getElem?_eq_some_iff.mp hi).1
        simp only [List.length_append, List.length_singleton] at hbound
        omega
      subst hlast
      rw [List.getElem?_append_right (Nat.le_refl _), Nat.sub_self] at hi
      cases hi
      have hread : subarray (setBytes storage.entries (payload codec card)
          (done.length * codec.entrySize)) (done.length * codec.entrySize)
          (done.length * codec.entrySize + (payload codec card).length) = payload codec card :=
        subarray_setBytes (by omega)
      rw [size] at hread
      exact hread

/-- Cards of new ids are all written and indexed, after those that were. -/
theorem writeCards_ok (hk : k ≤ 31)
    (hindexed : Indexed k storage (done.map CardDataEntry.cardId))
    (hwritten : Written codec total storage done)
    (size : ∀ card ∈ rest, (payload codec card).length = codec.entrySize)
    (valid : ∀ card ∈ rest, isValidCardId (some card.cardId) = true)
    (distinct : ((done ++ rest).map CardDataEntry.cardId).Nodup)
    (room : (done ++ rest).length < 2 ^ k) (allocated : (done ++ rest).length ≤ total) :
    ∃ storage',
      (∀ fuel, 2 ^ k ≤ fuel →
        writeCards codec fuel rest done.length storage = some (.ok storage')) ∧
      Indexed k storage' ((done ++ rest).map CardDataEntry.cardId) ∧
      Written codec total storage' (done ++ rest) := by
  induction rest generalizing done storage with
  | nil =>
    rw [List.append_nil]
    exact ⟨storage, fun _ _ => rfl, hindexed, hwritten⟩
  | cons card rest ih =>
    have hassoc : done ++ card :: rest = (done ++ [card]) ++ rest := by simp
    have hlength : done.length < (done ++ card :: rest).length := by simp
    obtain ⟨entries, hwrite, hwritten'⟩ := hwritten.write (size card List.mem_cons_self)
      (Nat.lt_of_lt_of_le hlength allocated)
    have hid := isValidCardId_iff.mp (valid card List.mem_cons_self)
    have hfresh : card.cardId ∉ done.map CardDataEntry.cardId := by
      rw [List.map_append] at distinct
      intro hmem
      exact (List.nodup_append.mp distinct).2.2 _ hmem _ List.mem_cons_self rfl
    have hindexed₀ : Indexed k { storage with entries := entries }
        (done.map CardDataEntry.cardId) :=
      ⟨hindexed.mask, hindexed.keys, hindexed.values, hindexed.chained, hindexed.sound,
        hindexed.complete, hindexed.taken⟩
    have hroom : (done.map CardDataEntry.cardId).length < 2 ^ k := by
      rw [List.length_map]
      exact Nat.lt_trans hlength room
    obtain ⟨hashKeys, hashValues, hinsert, hindexed'⟩ :=
      hindexed₀.insert hk hroom (by omega) (by omega) hfresh
    rw [List.length_map] at hinsert
    have hindexed₁ : Indexed k
        { storage with entries := entries, hashKeys := hashKeys, hashValues := hashValues }
        ((done ++ [card]).map CardDataEntry.cardId) := by
      simpa using hindexed'
    have hwritten₁ : Written codec total
        { storage with entries := entries, hashKeys := hashKeys, hashValues := hashValues }
        (done ++ [card]) := ⟨hwritten'.length, hwritten'.stored⟩
    obtain ⟨storage', hwrites, hindexed'', hwritten''⟩ := ih hindexed₁ hwritten₁
      (fun c hc => size c (List.mem_cons_of_mem _ hc))
      (fun c hc => valid c (List.mem_cons_of_mem _ hc)) (hassoc ▸ distinct) (hassoc ▸ room)
      (hassoc ▸ allocated)
    rw [hassoc]
    refine ⟨storage', ?_, hindexed'', hwritten''⟩
    intro fuel hfuel
    have hstep := hwrites fuel hfuel
    rw [List.length_append, List.length_singleton] at hstep
    simpa only [writeCards, hwrite, hinsert fuel hfuel] using hstep

theorem alloc_indexed (total : Nat) :
    Indexed k (alloc codec (2 ^ k) total) ([] : List Int) := by
  have htable : ∀ slot, table (List.replicate ((2 : Int) ^ k).toNat 0) slot = none := by
    intro slot
    apply getD_eq_zero_iff.mp
    rw [List.getD_eq_getElem?_getD, List.getElem?_replicate]
    split <;> rfl
  have hcapacity : ((2 : Int) ^ k).toNat = 2 ^ k := by
    have hcast : ((2 ^ k : Nat) : Int) = 2 ^ k := by
      push_cast
      rfl
    rw [← hcast, Int.toNat_natCast]
  refine ⟨rfl, ?_, ?_, ?_, ?_, ?_, ?_⟩
  · simp only [alloc, List.length_replicate, hcapacity]
  · simp only [alloc, List.length_replicate, hcapacity]
  · intro slot _ id hat
    exact absurd hat (by simp [alloc, htable])
  · intro slot _ id hat
    exact absurd hat (by simp [alloc, htable])
  · intro id hid
    cases hid
  · simp [alloc, List.countP_replicate]

theorem alloc_written (capacity : Int) (total : Nat) :
    Written codec total (alloc codec capacity total) [] where
  length := by simp only [alloc, List.length_replicate]
  stored := by
    intro i card hi
    cases hi

end Cards

/-! ## The unique cards -/

section Unique

variable {cards : List CardDataEntry} {seen : List Int}

theorem uniqueCards_spec {card : CardDataEntry} (h : card ∈ uniqueCards cards seen) :
    card ∈ cards ∧ isValidCardId (some card.cardId) = true ∧ card.cardId ∉ seen := by
  induction cards generalizing seen with
  | nil => cases h
  | cons first rest ih =>
    unfold uniqueCards at h
    split at h
    · obtain ⟨hmem, hvalid, hnew⟩ := ih h
      exact ⟨List.mem_cons_of_mem _ hmem, hvalid, hnew⟩
    · rename_i hkeep
      rw [not_or, Bool.not_eq_true', Bool.not_eq_false] at hkeep
      rcases List.mem_cons.mp h with rfl | hrest
      · exact ⟨List.mem_cons_self, hkeep⟩
      · obtain ⟨hmem, hvalid, hnew⟩ := ih hrest
        exact ⟨List.mem_cons_of_mem _ hmem, hvalid,
          fun hseen => hnew (List.mem_cons_of_mem _ hseen)⟩

theorem uniqueCards_nodup (cards : List CardDataEntry) (seen : List Int) :
    ((uniqueCards cards seen).map CardDataEntry.cardId).Nodup := by
  induction cards generalizing seen with
  | nil => exact List.nodup_nil
  | cons first rest ih =>
    unfold uniqueCards
    split
    · exact ih seen
    · rw [List.map_cons, List.nodup_cons]
      refine ⟨?_, ih _⟩
      intro hmem
      obtain ⟨card, hcard, hid⟩ := List.mem_map.mp hmem
      exact (uniqueCards_spec hcard).2.2 (hid ▸ List.mem_cons_self)

/-- The entry kept for a valid id is the first that has it. -/
theorem find_uniqueCards {cardId : Int} (hvalid : isValidCardId (some cardId) = true)
    (hnew : cardId ∉ seen) :
    (uniqueCards cards seen).find? (fun card => card.cardId = cardId) =
      cards.find? (fun card => card.cardId = cardId) := by
  induction cards generalizing seen with
  | nil => rfl
  | cons first rest ih =>
    unfold uniqueCards
    split
    · rename_i hskip
      have hne : first.cardId ≠ cardId := by
        rintro rfl
        rw [hvalid] at hskip
        exact hskip.elim (fun h => by cases h) hnew
      rw [List.find?_cons_of_neg (by simpa using hne)]
      exact ih hnew
    · by_cases he : first.cardId = cardId
      · rw [List.find?_cons_of_pos (by simpa using he), List.find?_cons_of_pos (by simpa using he)]
      · rw [List.find?_cons_of_neg (by simpa using he), List.find?_cons_of_neg (by simpa using he)]
        apply ih
        intro hmem
        rcases List.mem_cons.mp hmem with heq | hseen
        · exact he heq.symm
        · exact hnew hseen

/-- The valid ids of a sequence of entries. -/
def distinctIds (cards : List CardDataEntry) : Finset Int :=
  ((cards.map CardDataEntry.cardId).filter (fun cardId => isValidCardId (some cardId))).toFinset

theorem length_uniqueCards (cards : List CardDataEntry) :
    (uniqueCards cards []).length = (distinctIds cards).card := by
  have hids : ((uniqueCards cards []).map CardDataEntry.cardId).toFinset = distinctIds cards := by
    ext cardId
    simp only [distinctIds, List.mem_toFinset, List.mem_map, List.mem_filter]
    constructor
    · rintro ⟨card, hcard, rfl⟩
      obtain ⟨hmem, hvalid, -⟩ := uniqueCards_spec hcard
      exact ⟨⟨card, hmem, rfl⟩, hvalid⟩
    · rintro ⟨⟨card, hmem, rfl⟩, hvalid⟩
      have hfind : (uniqueCards cards []).find? (fun c => c.cardId = card.cardId) =
          cards.find? (fun c => c.cardId = card.cardId) :=
        find_uniqueCards hvalid List.not_mem_nil
      have hsome : (cards.find? (fun c => c.cardId = card.cardId)).isSome := by
        rw [List.find?_isSome]
        exact ⟨card, hmem, by simp⟩
      rw [← hfind] at hsome
      obtain ⟨kept, hkept⟩ := Option.isSome_iff_exists.mp hsome
      exact ⟨kept, List.mem_of_find?_eq_some hkept, by simpa using List.find?_some hkept⟩
  rw [← hids, List.toFinset_card_of_nodup (uniqueCards_nodup cards []), List.length_map]

end Unique

/-! ## The capacity -/

section Capacity

theorem required_le_iff {cardCount : Nat} {capacity : Int} (hpos : 1 ≤ capacity) :
    requiredCapacity cardCount ≤ capacity ↔ 4 * (cardCount : Int) ≤ 3 * capacity := by
  rw [requiredCapacity, max_le_iff, Int.ceil_le, HASH_LOAD_FACTOR, div_le_iff₀ (by norm_num)]
  constructor
  · rintro ⟨-, h⟩
    have h4 : (4 : ℚ) * cardCount ≤ 3 * capacity := by linarith
    exact_mod_cast h4
  · intro h
    have h4 : (4 : ℚ) * cardCount ≤ 3 * capacity := by exact_mod_cast h
    exact ⟨hpos, by linarith⟩

/-- From a power of two that still fits, the doubling reaches one that suffices. -/
theorem growCapacity_ends {required : Int} (hfit : required ≤ 2 ^ 30) (left : Nat) :
    ∀ k, k + left = 30 → ∃ j ≤ 30, k ≤ j ∧ required ≤ 2 ^ j ∧
      ∀ fuel, left < fuel → growCapacity required fuel (2 ^ k) = some (2 ^ j) := by
  induction left with
  | zero =>
    intro k hk
    obtain rfl : k = 30 := by omega
    refine ⟨30, le_refl 30, le_refl 30, hfit, ?_⟩
    intro fuel hfuel
    cases fuel with
    | zero => exact absurd hfuel (Nat.lt_irrefl 0)
    | succ fuel => exact if_neg (not_lt.mpr hfit)
  | succ left ih =>
    intro k hk
    by_cases henough : required ≤ 2 ^ k
    · refine ⟨k, by omega, le_refl k, henough, ?_⟩
      intro fuel hfuel
      cases fuel with
      | zero => exact absurd hfuel (Nat.not_lt_zero _)
      | succ fuel => exact if_neg (not_lt.mpr henough)
    · obtain ⟨j, hj, hkj, hrequired, hends⟩ := ih (k + 1) (by omega)
      refine ⟨j, hj, by omega, hrequired, ?_⟩
      intro fuel hfuel
      cases fuel with
      | zero => exact absurd hfuel (Nat.not_lt_zero _)
      | succ fuel =>
        have hpow : (2 : Int) ^ k < 2 ^ 30 := pow_lt_pow_right₀ (by norm_num) (by omega)
        rw [growCapacity, if_pos (not_le.mp henough), Bits.shl_one (by positivity) hpow,
          ← pow_succ']
        exact hends fuel (by omega)

/-- The capacities the doubling runs through when none suffices: after 2^30 the sign bit is set,
and after that nothing is left. -/
def Doubled (capacity : Int) : Prop :=
  (∃ k ≤ 30, capacity = 2 ^ k) ∨ capacity = -2 ^ 31 ∨ capacity = 0

theorem Doubled.le {capacity : Int} (h : Doubled capacity) : capacity ≤ 2 ^ 30 := by
  rcases h with ⟨k, hk, rfl⟩ | rfl | rfl
  · exact pow_le_pow_right₀ (by norm_num) hk
  · norm_num
  · norm_num

theorem Doubled.shl {capacity : Int} (h : Doubled capacity) : Doubled (Bits.shl capacity 1) := by
  rcases h with ⟨k, hk, rfl⟩ | rfl | rfl
  · rcases Nat.lt_or_ge k 30 with hlt | hge
    · have hpow : (2 : Int) ^ k < 2 ^ 30 := pow_lt_pow_right₀ (by norm_num) hlt
      refine Or.inl ⟨k + 1, hlt, ?_⟩
      rw [Bits.shl_one (by positivity) hpow, pow_succ']
    · obtain rfl : k = 30 := Nat.le_antisymm hk hge
      exact Or.inr (Or.inl (by decide))
  · exact Or.inr (Or.inr (by decide))
  · exact Or.inr (Or.inr (by decide))

/-- Past 2^30 the doubling never ends. -/
theorem growCapacity_endless {required : Int} (hlarge : 2 ^ 30 < required) (fuel : Nat) :
    ∀ capacity, Doubled capacity → growCapacity required fuel capacity = none := by
  induction fuel with
  | zero => exact fun _ _ => rfl
  | succ fuel ih =>
    intro capacity h
    rw [growCapacity, if_pos (lt_of_le_of_lt h.le hlarge)]
    exact ih _ h.shl

end Capacity

/-! ## The storage as a map -/

/-- The first entry with a valid id. -/
def firstWithId (cards : List CardDataEntry) (cardId : Option Int) : Option CardDataEntry :=
  match cardId with
  | none => none
  | some cardId =>
    if isValidCardId (some cardId) then
      (cards.find? (fun card => card.cardId = cardId)).map CardDataWithOt.fromPartial
    else none

/-- With this fuel or more the storage is built and every lookup ends with the first entry of the
id; and on the way to it, however many entries were written, a slot of the table was free. -/
structure StoredMap (codec : CardCodec) (cards : List CardDataEntry) (fuel : Nat)
    (storage : CardStorage) : Prop where
  built : ∀ more, fuel ≤ more → fromCards codec more cards = some (.ok storage)
  reads : ∀ more, fuel ≤ more → ∀ cardId,
    readCard codec more storage cardId = some (firstWithId cards cardId)
  free : ∀ written, ∃ midway, ∃ slot < midway.hashKeys.length,
    writeCards codec fuel ((uniqueCards cards []).take written) 0
        (alloc codec (storage.hashMask + 1) (uniqueCards cards []).length) = some (.ok midway) ∧
      table midway.hashKeys slot = none

section Map

variable {k fuel : Nat} {codec : CardCodec} {storage : CardStorage} {cards : List CardDataEntry}

theorem readCard_eq (faithful : codec.Faithful cards) (hk : k ≤ 31)
    (hindexed : Indexed k storage ((uniqueCards cards []).map CardDataEntry.cardId))
    (hwritten : Written codec (uniqueCards cards []).length storage (uniqueCards cards []))
    (room : (uniqueCards cards []).length < 2 ^ k) (hfuel : 2 ^ k ≤ fuel) (cardId : Option Int) :
    readCard codec fuel storage cardId = some (firstWithId cards cardId) := by
  cases cardId with
  | none => rfl
  | some cardId =>
    cases hvalid : isValidCardId (some cardId) with
    | false => simp only [readCard, firstWithId, hvalid, Bool.not_false, if_true,
        Bool.false_eq_true, if_false]
    | true =>
      have hroom : ((uniqueCards cards []).map CardDataEntry.cardId).length < 2 ^ k := by
        rw [List.length_map]
        exact room
      have hrange := isValidCardId_iff.mp hvalid
      have hshr : Bits.shr cardId 0 = cardId := by
        have h := Bits.toUint32_eq cardId
        rw [Bits.toUint32] at h
        omega
      have hfind : (uniqueCards cards []).find? (fun card => card.cardId = cardId) =
          cards.find? (fun card => card.cardId = cardId) :=
        find_uniqueCards hvalid List.not_mem_nil
      simp only [readCard, firstWithId, hvalid, Bool.not_true, Bool.false_eq_true, if_false,
        if_true, hshr, ← hfind]
      cases hcard : (uniqueCards cards []).find? (fun card => card.cardId = cardId) with
      | none =>
        have hnot : cardId ∉ (uniqueCards cards []).map CardDataEntry.cardId := by
          intro hmem
          obtain ⟨card, hmem', hid⟩ := List.mem_map.mp hmem
          have hnone := List.find?_eq_none.mp hcard card hmem'
          exact hnone (by simpa using hid)
        rw [hindexed.findEntryIndex_not_mem hk hroom hfuel hnot]
        rfl
      | some card =>
        have hmem := List.mem_of_find?_eq_some hcard
        have hid : card.cardId = cardId := by simpa using List.find?_some hcard
        obtain ⟨i, hi⟩ := List.getElem?_of_mem hmem
        have hids : ((uniqueCards cards []).map CardDataEntry.cardId)[i]? = some cardId := by
          rw [List.getElem?_map, hi, Option.map_some, hid]
        have hread : readEntry codec storage i = CardDataWithOt.fromPartial card := by
          rw [readEntry, hwritten.stored i card hi, payload_eq]
          exact faithful.decodes card (uniqueCards_spec hmem).1
        rw [hindexed.findEntryIndex_mem hk hroom (uniqueCards_nodup cards []) hfuel hids]
        simp only [Option.map_some, Int.toNat_natCast, hread]
        rw [if_neg (by omega)]

/-- Up to 805306368 distinct valid ids the storage is the map of its entries. -/
theorem exists_storedMap (faithful : codec.Faithful cards)
    (few : (distinctIds cards).card ≤ 805306368) :
    ∃ fuel storage, StoredMap codec cards fuel storage := by
  rw [← length_uniqueCards] at few
  have hfit : requiredCapacity (uniqueCards cards []).length ≤ 2 ^ 30 := by
    rw [required_le_iff (by norm_num)]
    omega
  obtain ⟨k, hk, -, hrequired, hends⟩ := growCapacity_ends hfit 26 4 rfl
  rw [required_le_iff (one_le_pow₀ (by norm_num))] at hrequired
  have hcast : ((2 ^ k : Nat) : Int) = 2 ^ k := by
    push_cast
    rfl
  have room : (uniqueCards cards []).length < 2 ^ k := by
    have hpos := Nat.two_pow_pos k
    omega
  have hk31 : k ≤ 31 := by omega
  have hsize : ∀ card ∈ uniqueCards cards [],
      (payload codec card).length = codec.entrySize := by
    intro card hcard
    rw [payload_eq]
    exact faithful.size card (uniqueCards_spec hcard).1
  -- the first `written` entries, written into the table of the whole sequence
  have hwrites : ∀ written, ∃ storage,
      (∀ fuel, 2 ^ k ≤ fuel → writeCards codec fuel ((uniqueCards cards []).take written) 0
          (alloc codec (2 ^ k) (uniqueCards cards []).length) = some (.ok storage)) ∧
        Indexed k storage (((uniqueCards cards []).take written).map CardDataEntry.cardId) ∧
        Written codec (uniqueCards cards []).length storage
          ((uniqueCards cards []).take written) := by
    intro written
    have hle : ((uniqueCards cards []).take written).length ≤ (uniqueCards cards []).length :=
      List.length_take_le' _ _
    have hdistinct := (uniqueCards_nodup cards []).sublist
      ((List.take_sublist written (uniqueCards cards [])).map CardDataEntry.cardId)
    exact writeCards_ok hk31 (alloc_indexed _) (alloc_written _ _)
      (fun card hcard => hsize card (List.mem_of_mem_take hcard))
      (fun card hcard => (uniqueCards_spec (List.mem_of_mem_take hcard)).2.1) hdistinct
      (Nat.lt_of_le_of_lt hle room) hle
  obtain ⟨storage, hstorage, hindexed, hwritten⟩ := hwrites (uniqueCards cards []).length
  rw [List.take_length] at hstorage hindexed hwritten
  refine ⟨2 ^ k + 27, storage, ?_, ?_, ?_⟩
  · intro more hmore
    have hcapacity : computeHashCapacity more (uniqueCards cards []).length = some (2 ^ k) :=
      hends more (by omega)
    simp only [fromCards, hcapacity]
    exact hstorage more (by omega)
  · intro more hmore cardId
    exact readCard_eq faithful hk31 hindexed hwritten room (by omega) cardId
  · intro written
    obtain ⟨midway, hmidway, hindexed', -⟩ := hwrites written
    have hmask : storage.hashMask + 1 = 2 ^ k := by
      rw [hindexed.mask]
      omega
    have hroom : (((uniqueCards cards []).take written).map CardDataEntry.cardId).length <
        2 ^ k := by
      rw [List.length_map]
      exact Nat.lt_of_le_of_lt (List.length_take_le' _ _) room
    obtain ⟨slot, hslot, hnone⟩ := hindexed'.free hroom
    refine ⟨midway, slot, ?_, ?_, hnone⟩
    · rw [hindexed'.keys]
      exact hslot
    · rw [hmask]
      exact hmidway _ (by omega)

/-- Beyond them the capacity overflows and the storage is never built. -/
theorem fromCards_endless (many : 805306368 < (distinctIds cards).card) (fuel : Nat) :
    fromCards codec fuel cards = none := by
  rw [← length_uniqueCards] at many
  have hlarge : 2 ^ 30 < requiredCapacity (uniqueCards cards []).length := by
    rw [← not_le, required_le_iff (by norm_num)]
    omega
  have hcapacity : computeHashCapacity fuel (uniqueCards cards []).length = none :=
    growCapacity_endless hlarge fuel _ (Or.inl ⟨4, by decide, rfl⟩)
  simp only [fromCards, hcapacity]

end Map

end CardStorage

open CardStorage

/-- An entry with a code and nothing else. -/
def codeCard (code : Nat) : CardDataEntry where
  withOt := true
  code := some code
  ot := none
  «alias» := none
  setcode := none
  type := none
  level := none
  «attribute» := none
  race := none
  attack := none
  defense := none
  lscale := none
  rscale := none
  linkMarker := none
  ruleCode := none
  category := none

/-- The codec that keeps the code, in four bytes. -/
def codeCodec : CardCodec where
  entrySize := 4
  toPayload card := littleEndian 4 (card.code.getD 0).toNat
  fromPayload bytes := codeCard (fromLittleEndian bytes)

theorem codeCodec_faithful {codes : List Nat} (range : ∀ code ∈ codes, code ≤ 0x7fffffff) :
    codeCodec.Faithful (codes.map codeCard) where
  size := fun card _ => length_littleEndian 4 _
  decodes := by
    intro card hcard
    obtain ⟨code, hcode, rfl⟩ := List.mem_map.mp hcard
    have hbytes : fromLittleEndian (littleEndian 4 code) = code := by
      apply fromLittleEndian_littleEndian
      have hle := range code hcode
      omega
    simp only [codeCodec, CardDataWithOt.fromPartial, codeCard, Option.getD_some,
      Int.toNat_natCast, hbytes]

theorem card_distinctIds_codes {codes : List Nat} (distinct : codes.Nodup)
    (range : ∀ code ∈ codes, 1 ≤ code ∧ code ≤ 0x7fffffff) :
    (distinctIds (codes.map codeCard)).card = codes.length := by
  have hids : (codes.map codeCard).map CardDataEntry.cardId =
      codes.map (fun code : Nat => (code : Int)) := by
    rw [List.map_map]
    apply List.map_congr_left
    intro code hcode
    have hrange := range code hcode
    have hshr := Bits.toUint32_eq (code : Int)
    rw [Bits.toUint32] at hshr
    rw [Function.comp_apply, CardDataEntry.cardId, codeCard, Option.getD_some, hshr]
    omega
  have hvalid : (codes.map (fun code : Nat => (code : Int))).filter
      (fun cardId => isValidCardId (some cardId)) =
        codes.map (fun code : Nat => (code : Int)) := by
    apply List.filter_eq_self.mpr
    intro cardId hmem
    obtain ⟨code, hcode, rfl⟩ := List.mem_map.mp hmem
    have hrange := range code hcode
    rw [isValidCardId_iff]
    omega
  have hnodup : (codes.map (fun code : Nat => (code : Int))).Nodup :=
    distinct.map (fun _ _ h => Int.ofNat_inj.mp h)
  rw [distinctIds, hids, hvalid, List.toFinset_card_of_nodup hnodup, List.length_map]

/-- The codes from 1 to a number. -/
def codesTo (n : Nat) : List Nat := (List.range n).map (fun code => code + 1)

theorem codesTo_range {n code : Nat} (h : code ∈ codesTo n) : 1 ≤ code ∧ code ≤ n := by
  obtain ⟨m, hm, rfl⟩ := List.mem_map.mp h
  have hlt := List.mem_range.mp hm
  omega

theorem card_distinctIds_codesTo {n : Nat} (hn : n ≤ 0x7fffffff) :
    (distinctIds ((codesTo n).map codeCard)).card = n := by
  have hnodup : (codesTo n).Nodup :=
    List.nodup_range.map (fun _ _ h => Nat.succ_injective h)
  have hcard := card_distinctIds_codes hnodup (fun code hcode =>
    ⟨(codesTo_range hcode).1, (codesTo_range hcode).2.trans hn⟩)
  rw [hcard, codesTo, List.length_map, List.length_range]

end EdoproServer.Engine
