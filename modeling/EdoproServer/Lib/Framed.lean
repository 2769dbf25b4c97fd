import EdoproServer.Lib.Codec

namespace EdoproServer.Lib

/-! ## What was read determines the bytes -/

theorem littleEndian_fromLittleEndian (bytes : Bytes) :
    littleEndian bytes.length (fromLittleEndian bytes) = bytes := by
  induction bytes with
  | nil => rfl
  | cons b bytes ih =>
    have hvalue : fromLittleEndian (b :: bytes) = b.toNat + 256 * fromLittleEndian bytes := rfl
    have hb := b.toNat_lt
    have hhead : UInt8.ofNat (fromLittleEndian (b :: bytes)) = b := by
      apply UInt8.toNat.inj
      rw [UInt8.toNat_ofNat', hvalue]
      omega
    have htail : fromLittleEndian (b :: bytes) / 256 = fromLittleEndian bytes := by
      rw [hvalue]
      omega
    rw [List.length_cons, littleEndian, hhead, htail, ih]

theorem takeBytes_eq_some {n : Nat} {bytes w rest : Bytes}
    (h : takeBytes n bytes = some (w, rest)) : bytes = w ++ rest ∧ w.length = n := by
  unfold takeBytes at h
  split at h
  · rename_i hle
    cases h
    exact ⟨(List.take_append_drop n bytes).symm, List.length_take_of_le hle⟩
  · cases h

theorem number_eq_some {n value : Nat} {bytes rest : Bytes}
    (h : number n bytes = some (value, rest)) :
    bytes = littleEndian n value ++ rest ∧ value < 256 ^ n := by
  obtain ⟨⟨w, rest'⟩, htake, hreturn⟩ := Option.bind_eq_some_iff.mp h
  cases hreturn
  obtain ⟨rfl, rfl⟩ := takeBytes_eq_some htake
  exact ⟨by rw [littleEndian_fromLittleEndian], fromLittleEndian_lt w⟩

section

variable {α : Type} {r : Reader α} {ok : α → Prop} {write : α → Bytes}

/-- What the reader takes off are the bytes of what it returns. -/
def ReadsOnly (r : Reader α) (ok : α → Prop) (write : α → Bytes) : Prop :=
  ∀ bytes a rest, r bytes = some (a, rest) → bytes = write a ++ rest ∧ ok a

theorem ReadsOnly.untilEnd (hr : ReadsOnly r ok write) {fuel : Nat} {bytes : Bytes} {l : List α}
    (h : untilEnd r fuel bytes = some l) : bytes = l.flatMap write ∧ ∀ a ∈ l, ok a := by
  induction fuel generalizing bytes l with
  | zero =>
    cases bytes with
    | nil =>
      cases h
      exact ⟨rfl, by simp⟩
    | cons b bytes => cases h
  | succ fuel ih =>
    cases bytes with
    | nil =>
      cases h
      exact ⟨rfl, by simp⟩
    | cons b bytes =>
      obtain ⟨⟨a, rest⟩, hread, hrest⟩ := Option.bind_eq_some_iff.mp h
      obtain ⟨values, hvalues, hreturn⟩ := Option.bind_eq_some_iff.mp hrest
      cases hreturn
      obtain ⟨hbytes, hok⟩ := hr _ _ _ hread
      obtain ⟨hall, hoks⟩ := ih hvalues
      refine ⟨by rw [hbytes, hall, List.flatMap_cons], fun a' hmem => ?_⟩
      rcases List.mem_cons.mp hmem with rfl | hmem
      · exact hok
      · exact hoks a' hmem

/-- A sequence of values of at least one byte each is read back from its bytes, and from no others. -/
theorem ReadsOnly.untilEnd_iff (hr : ReadsOnly r ok write) (reads : ∀ a, ok a → Reads r (write a) a)
    (hne : ∀ a, write a ≠ []) {bytes : Bytes} {l : List α} :
    Lib.untilEnd r bytes.length bytes = some l ↔ bytes = l.flatMap write ∧ ∀ a ∈ l, ok a := by
  constructor
  · exact hr.untilEnd
  · rintro ⟨rfl, hok⟩
    have hlength : l.length ≤ (l.flatMap write).length := by
      clear hok
      induction l with
      | nil => exact Nat.zero_le _
      | cons a l ih =>
        have hpos := List.length_pos_iff.mpr (hne a)
        rw [List.flatMap_cons, List.length_append, List.length_cons]
        omega
    have hread := Reads.untilEnd (f := id) (fun a ha => reads a (hok a ha)) (fun a _ => hne a)
      hlength
    rwa [List.map_id] at hread

end

end EdoproServer.Lib
