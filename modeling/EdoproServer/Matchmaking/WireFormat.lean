import EdoproServer.Matchmaking.Protocol
import EdoproServer.Messages.Framing
import Mathlib.Data.List.Nodup

namespace EdoproServer.Matchmaking
open Lib Messages

/-! ## Taking frames off a buffer -/

def WireFrame.ofFrame (f : Frame) : WireFrame := { opcode := f.command, body := f.payload }

theorem bytes_eq (f : Frame) : f.bytes = Buffer.bytes16 f.size ++ f.command :: f.payload := rfl

theorem buildFrame_eq {opcode : UInt8} {body : Buffer} (h : body.length + 1 ≤ 65535) :
    buildFrame opcode body =
      .ok (Frame.bytes { command := opcode, payload := body, fits := h }) := by
  rw [buildFrame, Buffer.writeUInt16LE_of_lt (by omega), Nat.add_comm]
  rfl

/-- What is left of a stream that was cut: a proper part of the next frame, or nothing. -/
def CutOff (remaining : Buffer) : List Frame → Prop
  | [] => remaining = []
  | f :: _ => remaining <+: f.bytes ∧ remaining.length < f.bytes.length

theorem exists_cut {frames : List Frame} {cut : Buffer} (h : cut <+: wire frames) :
    ∃ whole rest remaining, frames = whole ++ rest ∧ cut = wire whole ++ remaining ∧
      CutOff remaining rest := by
  induction frames generalizing cut with
  | nil => exact ⟨[], [], [], rfl, List.prefix_nil.mp h, rfl⟩
  | cons f frames ih =>
    rw [wire_cons] at h
    by_cases hlength : f.bytes.length ≤ cut.length
    · obtain ⟨cut', rfl⟩ := List.prefix_of_prefix_length_le (List.prefix_append _ _) h hlength
      obtain ⟨whole, rest, remaining, rfl, rfl, hremaining⟩ :=
        ih ((List.prefix_append_right_inj _).mp h)
      exact ⟨f :: whole, rest, remaining, rfl, (List.append_assoc _ _ _).symm, hremaining⟩
    · have hpart := List.prefix_of_prefix_length_le h (List.prefix_append _ _) (by omega)
      exact ⟨[], f :: frames, cut, rfl, rfl, hpart, by omega⟩

/-- The declared size can be read from any part of a frame that has its two bytes. -/
theorem readUInt16LE_part {f : Frame} {part : Buffer} (h : part <+: f.bytes)
    (hlength : 2 ≤ part.length) (before after : Buffer) :
    (before ++ (part ++ after)).readUInt16LE before.length = .ok f.size := by
  obtain ⟨tail, htail⟩ := h
  obtain ⟨low, high, more, rfl⟩ : ∃ low high more, part = low :: high :: more := by
    match part, hlength with
    | low :: high :: more, _ => exact ⟨low, high, more, rfl⟩
  have hsize : low :: high :: more = Buffer.bytes16 f.size ++ more := by
    rw [bytes_eq] at htail
    injection htail with hlow htail
    injection htail with hhigh htail
    rw [hlow, hhigh]
    rfl
  have hskip := Buffer.readUInt16LE_skip (@rfl _ before.length)
    (low :: high :: more ++ after) 0
  rw [Nat.add_zero] at hskip
  rw [hskip, hsize, List.append_assoc]
  exact Buffer.readUInt16LE_bytes16 (Nat.lt_succ_of_le f.size_le) _

theorem takeFramesFrom_cutOff {remaining : Buffer} {rest : List Frame}
    (h : CutOff remaining rest) (before : Buffer) :
    takeFramesFrom (before ++ remaining) before.length =
      .ok { frames := [], consumed := before.length } := by
  have hlength : (before ++ remaining).length - before.length = remaining.length := by simp
  rw [takeFramesFrom, hlength]
  by_cases hshort : remaining.length ≥ 2
  · rw [if_pos hshort]
    cases rest with
    | nil =>
      have hnil : remaining = [] := h
      subst hnil
      exact absurd hshort (by decide)
    | cons f rest =>
      obtain ⟨hpart, hproper⟩ := h
      have hsize := readUInt16LE_part hpart hshort before []
      rw [List.append_nil] at hsize
      rw [hsize]
      dsimp only
      rw [f.length_bytes] at hproper
      have hwaits : holdsFrame (before ++ remaining) before.length f.size = false := by
        rw [holdsFrame, hlength, Bool.not_eq_false', Bool.or_eq_true]
        exact .inr (decide_eq_true (by omega))
      rw [dif_neg (by simp [hwaits])]
  · rw [if_neg hshort]

theorem takeFramesFrom_frame (before : Buffer) (f : Frame) (after : Buffer) :
    takeFramesFrom (before ++ (f.bytes ++ after)) before.length = (do
      let rest ← takeFramesFrom (before ++ f.bytes ++ after) (before ++ f.bytes).length
      return { rest with frames := .ofFrame f :: rest.frames }) := by
  have hlength : (before ++ (f.bytes ++ after)).length - before.length =
      f.size + 2 + after.length := by
    simp
  have hsize := readUInt16LE_part (@List.prefix_rfl _ f.bytes) (by simp) before after
  have hopcode : (before ++ (f.bytes ++ after)).readUInt8 (before.length + 2) = .ok f.command := by
    rw [Buffer.readUInt8_skip rfl, bytes_eq]
    rfl
  have hholds : holdsFrame (before ++ (f.bytes ++ after)) before.length f.size = true := by
    have hpos := f.size_pos
    rw [holdsFrame, hlength, Bool.not_eq_true', Bool.or_eq_false_iff, decide_eq_false_iff_not,
      decide_eq_false_iff_not]
    omega
  have hbody : Buffer.subarray (before ++ (f.bytes ++ after)) (before.length + 3)
      (before.length + 2 + f.size) = f.payload := by
    have htake : (before ++ (f.bytes ++ after)).take (before.length + 2 + f.size) =
        before ++ f.bytes := by
      rw [← List.append_assoc]
      apply List.take_left'
      rw [List.length_append, f.length_bytes]
      omega
    rw [Buffer.subarray, htake, ← List.drop_drop, List.drop_left]
    rfl
  have hnext : before.length + 2 + f.size = (before ++ f.bytes).length := by
    rw [List.length_append, f.length_bytes]
    omega
  rw [takeFramesFrom, hlength, if_pos (by omega), hsize]
  dsimp only
  rw [dif_pos hholds, hopcode, hbody, hnext, List.append_assoc]
  rfl

theorem takeFramesFrom_wire {remaining : Buffer} {rest : List Frame} (h : CutOff remaining rest)
    (whole : List Frame) (before : Buffer) :
    takeFramesFrom (before ++ (wire whole ++ remaining)) before.length =
      .ok { frames := whole.map .ofFrame, consumed := before.length + (wire whole).length } := by
  induction whole generalizing before with
  | nil => exact takeFramesFrom_cutOff h before
  | cons f whole ih =>
    rw [wire_cons, List.append_assoc, takeFramesFrom_frame, ih, List.length_append,
      List.length_append, Nat.add_assoc]
    rfl

/-- However a stream of frames is cut, its whole frames are taken and the rest is left. -/
theorem takeFrames_cut {frames : List Frame} {cut : Buffer} (h : cut <+: wire frames) :
    ∃ whole rest remaining, frames = whole ++ rest ∧ cut = wire whole ++ remaining ∧
      CutOff remaining rest ∧
      takeFrames cut = .ok { frames := whole.map .ofFrame, consumed := (wire whole).length } := by
  obtain ⟨whole, rest, remaining, rfl, rfl, hremaining⟩ := exists_cut h
  refine ⟨whole, rest, remaining, rfl, rfl, hremaining, ?_⟩
  have htaken := takeFramesFrom_wire hremaining whole []
  rwa [List.nil_append, List.length_nil, Nat.zero_add] at htaken

/-- A build gives one frame, which a reader takes off whole. -/
def Delivers (built : Raises Buffer) (opcode : UInt8) (body : Buffer) : Prop :=
  ∃ bytes, built = .ok bytes ∧
    takeFrames bytes = .ok { frames := [{ opcode := opcode, body := body }],
                             consumed := bytes.length }

theorem delivers_buildFrame {opcode : UInt8} {body : Buffer} (h : body.length + 1 ≤ 65535) :
    Delivers (buildFrame opcode body) opcode body := by
  refine ⟨_, buildFrame_eq h, ?_⟩
  have hnone : CutOff [] [] := rfl
  have htaken := takeFramesFrom_wire hnone
    [{ command := opcode, payload := body, fits := h }] []
  simpa [wire, takeFrames, WireFrame.ofFrame] using htaken

theorem Delivers.unique {built : Raises Buffer} {opcode : UInt8} {body body' : Buffer}
    (h : Delivers built opcode body) (h' : Delivers built opcode body') : body = body' := by
  obtain ⟨bytes, rfl, htaken⟩ := h
  obtain ⟨bytes', hbytes, htaken'⟩ := h'
  cases hbytes
  have hsame := htaken.symm.trans htaken'
  simpa using hsame

/-! ## Bodies that are accepted -/

/-- The one byte in front of a string counts its bytes. -/
def counted (bytes : Buffer) : Buffer := Buffer.ofByte bytes.length ++ bytes

theorem subarray_one (first : UInt8) (bytes : Buffer) :
    Buffer.subarray (first :: bytes) 1 (1 + bytes.length) = bytes := by
  rw [Buffer.subarray, Nat.add_comm, List.take_succ_cons, List.take_length]
  rfl

/-- A body with a first byte is counted exactly when that byte counts the others. -/
theorem cons_eq_counted {first : UInt8} {rest bytes : Buffer} (h : bytes.length < 256) :
    first :: rest = counted bytes ↔ first.toNat = rest.length ∧ rest = bytes := by
  have hlength : (UInt8.ofNat bytes.length).toNat = bytes.length := by
    rw [UInt8.toNat_ofNat']
    omega
  constructor
  · intro heq
    injection heq with hfirst hrest
    subst hrest
    exact ⟨by rw [hfirst, hlength], rfl⟩
  · intro heq
    obtain ⟨hfirst, rfl⟩ := heq
    have hsame : first = UInt8.ofNat rest.length := UInt8.toNat_inj.mp (by rw [hlength, hfirst])
    rw [hsame]
    rfl

/-- A parser takes the bodies of a layout for the values they carry, and rejects all others. -/
structure Parses {α : Type} (parse : Buffer → Raises (ParseResult α))
    (layout : α → Buffer → Prop) : Prop where
  accepts : ∀ body value, parse body = .ok (.ok value) ↔ layout value body
  rejects : ∀ body, (∀ value, ¬ layout value body) →
    ∃ reason, parse body = .ok (.rejected reason)

theorem Parses.of_returns {α : Type} {parse : Buffer → Raises (ParseResult α)}
    {layout : α → Buffer → Prop}
    (haccepts : ∀ body value, parse body = .ok (.ok value) ↔ layout value body)
    (hreturns : ∀ body, ∃ result, parse body = .ok result) : Parses parse layout := by
  refine ⟨haccepts, ?_⟩
  intro body hnone
  obtain ⟨result, hresult⟩ := hreturns body
  cases result with
  | ok value => exact absurd ((haccepts body value).mp hresult) (hnone value)
  | rejected reason => exact ⟨reason, hresult⟩

/-- A parser of one counted string. -/
theorem parses_counted {α : Type} {parse : Buffer → Raises (ParseResult α)}
    {layout : α → Buffer → Prop} (accepted : Buffer → Bool) (value : Buffer → α)
    (hshort : ∀ bytes, accepted bytes = true → bytes.length < 256)
    (hempty : parse [] = .ok (.rejected .malformedFrame))
    (hcons : ∀ first rest, parse (first :: rest) =
      if first.toNat = rest.length ∧ accepted rest = true then .ok (.ok (value rest))
      else .ok (.rejected .malformedFrame))
    (hlayout : ∀ v body, layout v body ↔
      ∃ bytes, body = counted bytes ∧ accepted bytes = true ∧ v = value bytes) :
    Parses parse layout := by
  apply Parses.of_returns
  · intro body v
    rw [hlayout]
    cases body with
    | nil =>
      rw [hempty]
      simp [counted, Buffer.ofByte]
    | cons first rest =>
      rw [hcons]
      constructor
      · intro h
        split at h
        · rename_i hok
          obtain ⟨hfirst, haccepted⟩ := hok
          injection h with h
          injection h with h
          exact ⟨rest, (cons_eq_counted (hshort rest haccepted)).mpr ⟨hfirst, rfl⟩, haccepted,
            h.symm⟩
        · injection h with h
          cases h
      · intro h
        obtain ⟨bytes, hbody, haccepted, rfl⟩ := h
        obtain ⟨hfirst, rfl⟩ := (cons_eq_counted (hshort bytes haccepted)).mp hbody
        rw [if_pos ⟨hfirst, haccepted⟩]
  · intro body
    cases body with
    | nil => exact ⟨_, hempty⟩
    | cons first rest =>
      rw [hcons]
      split
      · exact ⟨_, rfl⟩
      · exact ⟨_, rfl⟩

/-- `[ticketLen:u8][ticket]` -/
def CtosAuth.Layout (auth : CtosAuth) (body : Buffer) : Prop :=
  ∃ bytes, body = counted bytes ∧ bytes.length ≤ MAX_TICKET_BYTES ∧
    auth.ticket = bytes.utf8ToString

/-- `[matchIdLen:u8][matchId]`, the id not empty. -/
def CtosMatchResponse.Layout (response : CtosMatchResponse) (body : Buffer) : Prop :=
  ∃ bytes, body = counted bytes ∧ (bytes ≠ [] ∧ bytes.length ≤ MAX_MATCH_ID_BYTES) ∧
    response.matchId = bytes.utf8ToString

theorem parses_auth : Parses parseCtosAuth CtosAuth.Layout := by
  apply parses_counted (fun bytes => decide (bytes.length ≤ MAX_TICKET_BYTES))
    (fun bytes => { ticket := Buffer.utf8ToString bytes })
  · intro bytes h
    have hlength : bytes.length ≤ 64 := of_decide_eq_true h
    omega
  · rfl
  · intro first rest
    rw [parseCtosAuth, if_neg (by simp), Buffer.readUInt8_cons_zero]
    change (if first.toNat > MAX_TICKET_BYTES ∨ (first :: rest).length ≠ 1 + first.toNat then
      Except.ok (ParseResult.rejected WireReason.malformedFrame) else _) = _
    by_cases h : first.toNat = rest.length ∧ decide (rest.length ≤ MAX_TICKET_BYTES) = true
    · have hlength : rest.length ≤ MAX_TICKET_BYTES := of_decide_eq_true h.2
      rw [if_pos h, if_neg (by rw [List.length_cons]; omega), h.1, subarray_one]
    · rw [if_neg h, if_pos]
      rw [decide_eq_true_eq] at h
      rw [List.length_cons]
      omega
  · intro auth body
    cases auth with
    | mk ticket => simp [CtosAuth.Layout]

theorem parses_matchResponse : Parses parseCtosMatchResponse CtosMatchResponse.Layout := by
  apply parses_counted
    (fun bytes => decide (bytes ≠ []) && decide (bytes.length ≤ MAX_MATCH_ID_BYTES))
    (fun bytes => { matchId := Buffer.utf8ToString bytes })
  · intro bytes h
    rw [Bool.and_eq_true] at h
    have hlength : bytes.length ≤ 64 := of_decide_eq_true h.2
    omega
  · rfl
  · intro first rest
    have hzero : first = 0 ↔ first.toNat = 0 := UInt8.toNat_inj.symm
    have hempty : rest = [] ↔ rest.length = 0 := List.length_eq_zero_iff.symm
    rw [parseCtosMatchResponse, if_neg (by simp), Buffer.readUInt8_cons_zero]
    change (if first = 0 ∨ first.toNat > MAX_MATCH_ID_BYTES ∨
        (first :: rest).length ≠ 1 + first.toNat then
      Except.ok (ParseResult.rejected WireReason.malformedFrame) else _) = _
    simp only [hzero, Bool.and_eq_true, decide_eq_true_eq, Ne, hempty, List.length_cons]
    by_cases h : first.toNat = rest.length ∧ ¬rest.length = 0 ∧ rest.length ≤ MAX_MATCH_ID_BYTES
    · rw [if_pos h, if_neg (by omega), Nat.add_comm, subarray_one]
    · rw [if_neg h, if_pos (by omega)]
  · intro response body
    cases response with
    | mk matchId => simp [CtosMatchResponse.Layout]

/-! ### ENTER -/

theorem FORMAT_BY_CODE_iff {code : UInt8} {format : MatchmakingFormat} :
    FORMAT_BY_CODE code = some format ↔ code = FORMAT_TO_CODE format := by
  constructor
  · intro h
    unfold FORMAT_BY_CODE at h
    split_ifs at h with h0 h1 h2
    all_goals
      cases h
      assumption
  · intro h
    subst h
    cases format with
    | _ => rfl

theorem MODE_BY_CODE_iff {code : UInt8} {mode : MatchmakingMode} :
    MODE_BY_CODE code = some mode ↔ code = RANKED_MODE := by
  cases mode with
  | ranked => simp [RANKED_MODE, MODE_BY_CODE]

/-- The delay and the accept-step byte that may follow the first four bytes. -/
def readOptions : Buffer → Option (Option Nat × Option UInt8)
  | [] => some (none, none)
  | [step] => some (none, some step)
  | [a, b, c, d] => some (some (Buffer.word a b c d), none)
  | [a, b, c, d, step] => some (some (Buffer.word a b c d), some step)
  | _ => none

theorem parseCtosEnter_short {body : Buffer} (h : body.length < 4) :
    parseCtosEnter body = .ok (.rejected .malformedFrame) := by
  match body, h with
  | [], _ => rfl
  | [_], _ => rfl
  | [_, _], _ => rfl
  | [_, _, _], _ => rfl

theorem parseCtosEnter_cons (formatCode modeCode low high : UInt8) (tail : Buffer) :
    parseCtosEnter (formatCode :: modeCode :: low :: high :: tail) =
      match readOptions tail with
      | none => .ok (.rejected .malformedFrame)
      | some (delay, step) =>
        match FORMAT_BY_CODE formatCode with
        | none => .ok (.rejected .unknownFormat)
        | some format =>
          match MODE_BY_CODE modeCode with
          | none => .ok (.rejected .unsupportedMode)
          | some mode =>
            if step.any (fun byte => byte > 1) then .ok (.rejected .malformedFrame)
            else
              .ok (.ok { format := format, mode := mode,
                         clientVersion := low.toNat + 0x100 * high.toNat,
                         botFallbackAfterMs := delay,
                         supportsAcceptStep := step.map (fun byte => byte = 1) }) := by
  match tail with
  | [] => rfl
  | [_] => rfl
  | [_, _] => rfl
  | [_, _, _] => rfl
  | [_, _, _, _] => rfl
  | [_, _, _, _, _] => rfl
  | a :: b :: c :: d :: e :: f :: rest =>
    have hlength : enterOptionsLength (formatCode :: modeCode :: low :: high :: a :: b :: c :: d ::
        e :: f :: rest) = rest.length + 10 := by
      simp [enterOptionsLength, enterHasAcceptStep, ENTER_BODY_LENGTH,
        ENTER_BODY_LENGTH_WITH_FALLBACK, ACCEPT_STEP_BYTE_LENGTH]
    rw [parseCtosEnter, hlength, if_pos]
    · rfl
    · unfold ENTER_BODY_LENGTH ENTER_BODY_LENGTH_WITH_FALLBACK
      omega

/-- `[format:u8][mode:u8][clientVersion:u16][delay:u32 optional][acceptStep:u8 optional]` -/
def CtosEnter.body (enter : CtosEnter) : Buffer :=
  [FORMAT_TO_CODE enter.format, RANKED_MODE] ++ Buffer.bytes16 enter.clientVersion ++
    ((enter.botFallbackAfterMs.map Buffer.bytes32).getD [] ++
      (enter.supportsAcceptStep.map (fun yes => [if yes then 1 else 0])).getD [])

def CtosEnter.Layout (enter : CtosEnter) (body : Buffer) : Prop :=
  enter.clientVersion < 0x10000 ∧ (∀ ms ∈ enter.botFallbackAfterMs, ms < 0x100000000) ∧
    body = enter.body

/-- Only 0 and 1 say whether the client takes part in the accept step. -/
theorem acceptStep_iff {byte : UInt8} {yes : Bool} :
    (decide (byte > 1) = false ∧ decide (byte = 1) = yes) ↔ byte = if yes then 1 else 0 := by
  have hone : byte = 1 ↔ byte.toNat = 1 := UInt8.toNat_inj.symm
  have hzero : byte = 0 ↔ byte.toNat = 0 := UInt8.toNat_inj.symm
  have hgreater : byte > 1 ↔ 1 < byte.toNat := UInt8.lt_iff_toNat_lt
  cases yes with
  | true =>
    simp only [hone, hgreater, decide_eq_false_iff_not, decide_eq_true_eq, if_true]
    omega
  | false =>
    simp only [hone, hzero, hgreater, decide_eq_false_iff_not, Bool.false_eq_true, if_false]
    omega

theorem readOptions_iff {tail : Buffer} {delay : Option Nat} {accepts : Option Bool} :
    (∃ step, readOptions tail = some (delay, step) ∧
        step.any (fun byte => decide (byte > 1)) = false ∧
        step.map (fun byte => decide (byte = 1)) = accepts) ↔
      (∀ ms ∈ delay, ms < 0x100000000) ∧ tail = (delay.map Buffer.bytes32).getD [] ++
        (accepts.map (fun yes => [if yes then (1 : UInt8) else 0])).getD [] := by
  constructor
  · intro h
    obtain ⟨step, hread, hbyte, rfl⟩ := h
    match tail, hread with
    | [], hread =>
      cases hread
      simp
    | [s], hread =>
      cases hread
      simp only [Option.any_some] at hbyte
      simpa using acceptStep_iff.mp ⟨hbyte, rfl⟩
    | [a, b, c, d], hread =>
      cases hread
      simp [Buffer.word_lt, Buffer.bytes32_word]
    | [a, b, c, d, s], hread =>
      cases hread
      simp only [Option.any_some] at hbyte
      simpa [Buffer.word_lt, Buffer.bytes32_word] using acceptStep_iff.mp ⟨hbyte, rfl⟩
  · intro h
    obtain ⟨hrange, rfl⟩ := h
    cases delay with
    | none =>
      cases accepts with
      | none => exact ⟨none, rfl, rfl, rfl⟩
      | some yes =>
        obtain ⟨hbyte, hyes⟩ := acceptStep_iff.mpr (@rfl _ (if yes then (1 : UInt8) else 0))
        exact ⟨_, rfl, hbyte, congrArg some hyes⟩
    | some ms =>
      obtain ⟨a, b, c, d, hbytes, hword⟩ := Buffer.exists_word (hrange ms rfl)
      rw [Option.map_some, Option.getD_some, hbytes]
      cases accepts with
      | none => exact ⟨none, by rw [← hword]; rfl, rfl, rfl⟩
      | some yes =>
        obtain ⟨hbyte, hyes⟩ := acceptStep_iff.mpr (@rfl _ (if yes then (1 : UInt8) else 0))
        exact ⟨some (if yes then 1 else 0), by rw [← hword]; rfl, hbyte, congrArg some hyes⟩

theorem bytes16_iff {low high : UInt8} {value : Nat} :
    value < 0x10000 ∧ [low, high] = Buffer.bytes16 value ↔
      low.toNat + 0x100 * high.toNat = value := by
  constructor
  · intro h
    obtain ⟨hvalue, hbytes⟩ := h
    have hread := Buffer.readUInt16LE_bytes16 hvalue []
    rw [← hbytes] at hread
    exact Except.ok.inj hread
  · intro h
    subst h
    have hlow := low.toNat_lt
    have hhigh := high.toNat_lt
    exact ⟨by omega, (Buffer.bytes16_of_bytes low high).symm⟩

theorem layout_cons {formatCode modeCode low high : UInt8} {tail : Buffer} {enter : CtosEnter} :
    enter.Layout (formatCode :: modeCode :: low :: high :: tail) ↔
      FORMAT_BY_CODE formatCode = some enter.format ∧ MODE_BY_CODE modeCode = some enter.mode ∧
        low.toNat + 0x100 * high.toNat = enter.clientVersion ∧
        ∃ step, readOptions tail = some (enter.botFallbackAfterMs, step) ∧
          step.any (fun byte => decide (byte > 1)) = false ∧
          step.map (fun byte => decide (byte = 1)) = enter.supportsAcceptStep := by
  rw [FORMAT_BY_CODE_iff, MODE_BY_CODE_iff, ← bytes16_iff, readOptions_iff]
  have hbody : formatCode :: modeCode :: low :: high :: tail = enter.body ↔
      formatCode = FORMAT_TO_CODE enter.format ∧ modeCode = RANKED_MODE ∧
        [low, high] = Buffer.bytes16 enter.clientVersion ∧
        tail = (enter.botFallbackAfterMs.map Buffer.bytes32).getD [] ++
          (enter.supportsAcceptStep.map (fun yes => [if yes then (1 : UInt8) else 0])).getD [] := by
    simp [CtosEnter.body, Buffer.bytes16, and_assoc]
  rw [CtosEnter.Layout, hbody]
  constructor
  · intro h
    obtain ⟨hversion, hdelay, hformat, hmode, hbytes, htail⟩ := h
    exact ⟨hformat, hmode, ⟨hversion, hbytes⟩, hdelay, htail⟩
  · intro h
    obtain ⟨hformat, hmode, ⟨hversion, hbytes⟩, hdelay, htail⟩ := h
    exact ⟨hversion, hdelay, hformat, hmode, hbytes, htail⟩

theorem parseCtosEnter_iff {body : Buffer} {enter : CtosEnter} :
    parseCtosEnter body = .ok (.ok enter) ↔ enter.Layout body := by
  by_cases hlength : body.length < 4
  · rw [parseCtosEnter_short hlength]
    constructor
    · intro h
      cases Except.ok.inj h
    · intro h
      rw [h.2.2] at hlength
      simp only [CtosEnter.body, List.length_append, List.length_cons,
        Buffer.length_bytes16] at hlength
      omega
  · match body, Nat.le_of_not_lt hlength with
    | formatCode :: modeCode :: low :: high :: tail, _ =>
      rw [parseCtosEnter_cons, layout_cons]
      cases enter with
      | mk format mode clientVersion botFallbackAfterMs supportsAcceptStep =>
        cases readOptions tail with
        | none => simp
        | some options =>
          obtain ⟨delay, step⟩ := options
          cases FORMAT_BY_CODE formatCode with
          | none => simp
          | some format' =>
            cases MODE_BY_CODE modeCode with
            | none => simp
            | some mode' =>
              dsimp only
              split_ifs with hstep
              · simp [hstep]
              · simp [hstep]

theorem parseCtosEnter_returns (body : Buffer) : ∃ result, parseCtosEnter body = .ok result := by
  by_cases hlength : body.length < 4
  · exact ⟨_, parseCtosEnter_short hlength⟩
  · match body, Nat.le_of_not_lt hlength with
    | formatCode :: modeCode :: low :: high :: tail, _ =>
      rw [parseCtosEnter_cons]
      cases readOptions tail with
      | none => exact ⟨_, rfl⟩
      | some options =>
        cases FORMAT_BY_CODE formatCode with
        | none => exact ⟨_, rfl⟩
        | some format =>
          cases MODE_BY_CODE modeCode with
          | none => exact ⟨_, rfl⟩
          | some mode =>
            dsimp only
            split_ifs
            · exact ⟨_, rfl⟩
            · exact ⟨_, rfl⟩

theorem parses_enter : Parses parseCtosEnter CtosEnter.Layout :=
  .of_returns (fun _ _ => parseCtosEnter_iff) parseCtosEnter_returns

/-! ## What is written is read -/

theorem enter_readable {version : Nat} (format : MatchmakingFormat) {delay : Option Nat}
    (hversion : version < 0x10000) (hdelay : ∀ ms ∈ delay, ms < 0x100000000) :
    ∃ body, Delivers (enterFrame version format delay) MATCHMAKING_ENTER body ∧
      parseCtosEnter body = .ok (.ok { format := format, mode := .ranked,
                                       clientVersion := version, botFallbackAfterMs := delay,
                                       supportsAcceptStep := none }) := by
  have hbuilt : enterFrame version format delay = buildFrame MATCHMAKING_ENTER
      ([FORMAT_TO_CODE format, RANKED_MODE] ++ Buffer.bytes16 version ++
        (delay.map Buffer.bytes32).getD []) := by
    rw [enterFrame, Buffer.writeUInt16LE_of_lt hversion]
    cases delay with
    | none => rfl
    | some ms =>
      dsimp only
      rw [Buffer.writeUInt32LE_of_lt (hdelay ms rfl)]
      rfl
  have hlength : ((delay.map Buffer.bytes32).getD []).length ≤ 4 := by
    cases delay with
    | none => simp
    | some ms => simp
  rw [hbuilt]
  refine ⟨_, delivers_buildFrame ?_, parseCtosEnter_iff.mpr ⟨hversion, hdelay, ?_⟩⟩
  · simp only [List.length_append, List.length_cons, List.length_nil, Buffer.length_bytes16]
    omega
  · simp [CtosEnter.body]

theorem invert_state (state : WireState) :
    invert WireState.all WireState.code WireState.text state.code = state.text := by
  cases state with
  | _ => rfl

theorem invert_reason (reason : WireReason) :
    invert WireReason.all WireReason.code WireReason.text reason.code = reason.text := by
  cases reason with
  | _ => rfl

theorem invert_opponentType (opponentType : OpponentType) :
    invert OpponentType.all OpponentType.code OpponentType.text opponentType.code =
      opponentType.text := by
  cases opponentType with
  | _ => rfl

theorem WireState.text_injective : Function.Injective WireState.text := by
  intro state state' h
  have hdistinct : (WireState.all.map WireState.text).Nodup := by decide +kernel
  have hall : ∀ s : WireState, s ∈ WireState.all := by
    intro s
    cases s with
    | _ => decide
  exact List.inj_on_of_nodup_map hdistinct (hall state) (hall state') h

theorem WireReason.text_injective : Function.Injective WireReason.text := by
  intro reason reason' h
  have hdistinct : (WireReason.all.map WireReason.text).Nodup := by decide +kernel
  have hall : ∀ r : WireReason, r ∈ WireReason.all := by
    intro r
    cases r with
    | _ => decide
  exact List.inj_on_of_nodup_map hdistinct (hall reason) (hall reason') h

theorem OpponentType.text_injective : Function.Injective OpponentType.text := by
  intro opponentType opponentType' h
  cases opponentType with
  | human =>
    cases opponentType' with
    | human => rfl
    | bot => exact absurd h (by decide)
  | bot =>
    cases opponentType' with
    | human => exact absurd h (by decide)
    | bot => rfl

theorem status_readable (state : WireState) {waitedMs : Nat} (reason : WireReason)
    (h : waitedMs < 0x100000000) :
    ∃ body, Delivers (buildStocMatchmakingStatusFrame state waitedMs reason) MATCHMAKING_STATUS
        body ∧
      describeStatus body =
        .ok { state := state.text, waitedMs := waitedMs, reason := reason.text } := by
  have hbuilt : buildStocMatchmakingStatusFrame state waitedMs reason =
      buildFrame MATCHMAKING_STATUS (state.code :: Buffer.bytes32 waitedMs ++ [reason.code]) := by
    rw [buildStocMatchmakingStatusFrame, Buffer.writeUInt32LE_of_lt h]
    rfl
  refine ⟨_, hbuilt ▸ delivers_buildFrame (by simp), ?_⟩
  have hwaited : Buffer.readUInt32LE (state.code :: Buffer.bytes32 waitedMs ++ [reason.code]) 1 =
      .ok waitedMs :=
    (Buffer.readUInt32LE_skip (@rfl _ [state.code].length)
      (Buffer.bytes32 waitedMs ++ [reason.code]) 0).trans (Buffer.readUInt32LE_bytes32 h _)
  rw [describeStatus, if_neg (by simp), hwaited]
  change Except.ok (StatusDescription.mk
    (invert WireState.all WireState.code WireState.text state.code) waitedMs
    (invert WireReason.all WireReason.code WireReason.text reason.code)) = _
  rw [invert_state, invert_reason]

/-- Cutting at the last boundary within the bytes gives the longest prefix that fits. -/
theorem codePointBoundary_eq {bytes : Buffer} {start : Nat}
    (hstart : (bytes[start]?).any Utf8.isContinuation = false) (stop : Nat) (hle : start ≤ stop)
    (hinside : ∀ i, start < i → i ≤ stop → (bytes[i]?).any Utf8.isContinuation = true) :
    codePointBoundary bytes stop = start := by
  induction stop with
  | zero => exact (Nat.le_zero.mp hle).symm
  | succ stop ih =>
    rw [codePointBoundary]
    by_cases hsame : start = stop + 1
    · subst hsame
      rw [hstart]
      rfl
    · rw [hinside (stop + 1) (by omega) (Nat.le_refl _), if_pos rfl]
      exact ih (by omega) (fun i hlow hhigh => hinside i hlow (Nat.le_succ_of_le hhigh))

theorem truncateUtf8_eq (value : String) (maxBytes : Nat) :
    ∃ taken, Utf8.IsLongestPrefix maxBytes value.toList taken ∧
      truncateUtf8 value maxBytes = Utf8.encode taken := by
  by_cases hfits : (Utf8.encode value.toList).length ≤ maxBytes
  · exact ⟨value.toList, .self hfits, if_pos hfits⟩
  · obtain ⟨taken, c, rest, htext, htaken, hover⟩ :=
      Utf8.exists_overflow (Nat.lt_of_not_le hfits)
    refine ⟨taken, htext ▸ .of_overflow htaken hover, ?_⟩
    have hboundary : codePointBoundary (Buffer.ofUtf8 value) maxBytes =
        (Utf8.encode taken).length := by
      rw [Buffer.ofUtf8, htext]
      apply codePointBoundary_eq (Utf8.isContinuation_first taken c rest) _ htaken
      intro i hlow hhigh
      exact Utf8.isContinuation_inside taken c rest hlow (by omega)
    rw [Buffer.ofUtf8] at hboundary
    rw [truncateUtf8, Buffer.ofUtf8, if_neg hfits, hboundary, htext, Buffer.subarray,
      List.drop_zero, Utf8.encode_append, List.take_left']
    rfl

theorem subarray_middle {before : Buffer} {length : Nat} (h : before.length = length)
    (middle after : Buffer) :
    Buffer.subarray (before ++ (middle ++ after)) length (length + middle.length) = middle := by
  subst h
  rw [Buffer.subarray, ← List.append_assoc, List.take_left' (by simp), List.drop_left]

/-- The byte that `Buffer.from` makes of a length is the length, if it is a byte. -/
theorem toNat_length {bytes : Buffer} (h : bytes.length ≤ 255) :
    (UInt8.ofNat bytes.length).toNat = bytes.length := by
  rw [UInt8.toNat_ofNat']
  omega

/-- The body of a FOUND frame. -/
def foundBody (opponentType rated : UInt8) (roomId : Nat) (matchId name : Buffer) : Buffer :=
  [opponentType, rated] ++ Buffer.bytes16 roomId ++ Buffer.ofByte matchId.length ++ matchId ++
    Buffer.ofByte name.length ++ name

theorem describeFound_foundBody (opponentType rated : UInt8) {roomId : Nat} {matchId name : Buffer}
    (hroom : roomId < 0x10000) (hid : matchId.length ≤ 255) (hname : name.length ≤ 255) :
    describeFound (foundBody opponentType rated roomId matchId name) =
      .ok (.found (invert OpponentType.all OpponentType.code OpponentType.text opponentType)
        (rated = 1) roomId matchId.utf8ToString name.utf8ToString) := by
  have hbody : foundBody opponentType rated roomId matchId name =
      ([opponentType, rated] ++ Buffer.bytes16 roomId ++ [UInt8.ofNat matchId.length]) ++
        (matchId ++ UInt8.ofNat name.length :: name) := by
    simp [foundBody, Buffer.ofByte]
  have hhead : ([opponentType, rated] ++ Buffer.bytes16 roomId ++
      [UInt8.ofNat matchId.length]).length = 5 := rfl
  have hlength : (foundBody opponentType rated roomId matchId name).length =
      5 + matchId.length + 1 + name.length := by
    rw [hbody, List.length_append, hhead, List.length_append, List.length_cons]
    omega
  have hidLength : (foundBody opponentType rated roomId matchId name).readUInt8 4 =
      .ok (UInt8.ofNat matchId.length) := rfl
  have hnameLength : (foundBody opponentType rated roomId matchId name).readUInt8
      (5 + matchId.length) = .ok (UInt8.ofNat name.length) := by
    have hskip := Buffer.readUInt8_skip (@rfl _ matchId.length)
      (UInt8.ofNat name.length :: name) 0
    rw [hbody, Buffer.readUInt8_skip hhead, ← Nat.add_zero matchId.length, hskip]
    rfl
  have hroomId : (foundBody opponentType rated roomId matchId name).readUInt16LE 2 =
      .ok roomId := by
    have hrest : foundBody opponentType rated roomId matchId name = [opponentType, rated] ++
        (Buffer.bytes16 roomId ++ (Buffer.ofByte matchId.length ++ (matchId ++
          (Buffer.ofByte name.length ++ name)))) := by
      simp [foundBody]
    rw [hrest]
    exact (Buffer.readUInt16LE_skip (@rfl _ [opponentType, rated].length) _ 0).trans
      (Buffer.readUInt16LE_bytes16 hroom _)
  have hidBytes : Buffer.subarray (foundBody opponentType rated roomId matchId name) 5
      (5 + matchId.length) = matchId := by
    rw [hbody]
    exact subarray_middle hhead matchId _
  have hnameBytes : Buffer.subarray (foundBody opponentType rated roomId matchId name)
      (5 + matchId.length + 1) (5 + matchId.length + 1 + name.length) = name := by
    have hfirst : ([opponentType, rated] ++ Buffer.bytes16 roomId ++
        [UInt8.ofNat matchId.length] ++ matchId ++ [UInt8.ofNat name.length]).length =
          5 + matchId.length + 1 := by
      simp
      omega
    have hall : foundBody opponentType rated roomId matchId name =
        ([opponentType, rated] ++ Buffer.bytes16 roomId ++ [UInt8.ofNat matchId.length] ++
          matchId ++ [UInt8.ofNat name.length]) ++ (name ++ []) := by
      simp [foundBody, Buffer.ofByte]
    rw [hall]
    exact subarray_middle hfirst name []
  have htype : (foundBody opponentType rated roomId matchId name).readUInt8 0 =
      .ok opponentType := rfl
  have hrated : (foundBody opponentType rated roomId matchId name).readUInt8 1 = .ok rated := rfl
  rw [describeFound, if_neg (by omega), hidLength]
  simp only [bind, Except.bind, toNat_length hid]
  rw [if_pos (by omega), hnameLength, htype, hrated, hroomId]
  simp only [toNat_length hname, hidBytes, hnameBytes]
  rfl

theorem opponentNameBytes_eq (opponentName : Option String) :
    ∃ taken, Utf8.IsLongestPrefix MAX_OPPONENT_NAME_BYTES (opponentName.getD "").toList taken ∧
      opponentNameBytes opponentName = Utf8.encode taken := by
  cases opponentName with
  | some opponentName => exact truncateUtf8_eq opponentName MAX_OPPONENT_NAME_BYTES
  | none => exact ⟨[], .self (Nat.zero_le _), rfl⟩

theorem found_readable {notice : MatchmakingFoundNotice} (hroom : notice.roomId < 0x10000)
    (hid : (Buffer.ofUtf8 notice.matchId).length ≤ 255) :
    ∃ body taken, Delivers (buildStocMatchmakingFoundFrame notice) MATCHMAKING_FOUND body ∧
      Utf8.IsLongestPrefix MAX_OPPONENT_NAME_BYTES (notice.opponentName.getD "").toList taken ∧
      describeFound body = .ok (.found notice.opponentType.text notice.rated notice.roomId
        notice.matchId (String.ofList taken)) := by
  obtain ⟨taken, hlongest, hname⟩ := opponentNameBytes_eq notice.opponentName
  have hshort : (Utf8.encode taken).length ≤ 255 := Nat.le_trans hlongest.fits (by decide)
  have hbuilt : buildStocMatchmakingFoundFrame notice = buildFrame MATCHMAKING_FOUND
      (foundBody notice.opponentType.code (if notice.rated then 1 else 0) notice.roomId
        (Buffer.ofUtf8 notice.matchId) (Utf8.encode taken)) := by
    rw [buildStocMatchmakingFoundFrame, Buffer.writeUInt16LE_of_lt hroom, hname]
    rfl
  have hrated : decide ((if notice.rated then (1 : UInt8) else 0) = 1) = notice.rated := by
    cases notice.rated with
    | _ => rfl
  rw [hbuilt]
  refine ⟨_, taken, delivers_buildFrame ?_, hlongest, ?_⟩
  · simp only [foundBody, List.length_append, List.length_cons, List.length_nil,
      Buffer.length_bytes16, Buffer.ofByte]
    omega
  · rw [describeFound_foundBody _ _ hroom hid hshort, invert_opponentType, hrated,
      Buffer.utf8ToString_ofUtf8, Buffer.utf8ToString, Utf8.decode_encode]

/-- The body of a PROPOSED frame. -/
def proposedBody (notice : MatchProposalNotice) : Buffer :=
  Buffer.ofByte (Buffer.ofUtf8 notice.matchId).length ++ Buffer.ofUtf8 notice.matchId ++
    Buffer.bytes32 notice.acceptWithinMs

theorem buildProposed_eq {notice : MatchProposalNotice}
    (hms : notice.acceptWithinMs < 0x100000000) :
    buildStocMatchmakingProposedFrame notice =
      buildFrame MATCHMAKING_PROPOSED (proposedBody notice) := by
  rw [buildStocMatchmakingProposedFrame, Buffer.writeUInt32LE_of_lt hms]
  rfl

theorem length_proposedBody (notice : MatchProposalNotice) :
    (proposedBody notice).length = 1 + (Buffer.ofUtf8 notice.matchId).length + 4 := by
  simp [proposedBody, Buffer.ofByte]
  omega

theorem proposed_readable {notice : MatchProposalNotice}
    (hms : notice.acceptWithinMs < 0x100000000)
    (hid : (Buffer.ofUtf8 notice.matchId).length ≤ 255) :
    ∃ body, Delivers (buildStocMatchmakingProposedFrame notice) MATCHMAKING_PROPOSED body ∧
      readProposed body = .ok notice := by
  rw [buildProposed_eq hms]
  refine ⟨_, delivers_buildFrame (by rw [length_proposedBody]; omega), ?_⟩
  have hsplit : proposedBody notice =
      [UInt8.ofNat (Buffer.ofUtf8 notice.matchId).length] ++ (Buffer.ofUtf8 notice.matchId ++
        (Buffer.bytes32 notice.acceptWithinMs ++ [])) := by
    simp [proposedBody, Buffer.ofByte]
  have hone : [UInt8.ofNat (Buffer.ofUtf8 notice.matchId).length].length = 1 := rfl
  have hwithin : Buffer.readUInt32LE ([UInt8.ofNat (Buffer.ofUtf8 notice.matchId).length] ++
      (Buffer.ofUtf8 notice.matchId ++ (Buffer.bytes32 notice.acceptWithinMs ++ [])))
        (1 + (Buffer.ofUtf8 notice.matchId).length) = .ok notice.acceptWithinMs := by
    rw [Buffer.readUInt32LE_skip hone, ← Nat.add_zero (Buffer.ofUtf8 notice.matchId).length,
      Buffer.readUInt32LE_skip rfl, Buffer.readUInt32LE_bytes32 hms]
  rw [hsplit, readProposed, List.singleton_append, Buffer.readUInt8_cons_zero,
    ← List.singleton_append]
  simp only [bind, Except.bind, toNat_length hid]
  rw [hwithin, subarray_middle hone, Buffer.utf8ToString_ofUtf8]
  rfl

/-! ## The wire format -/

/-- Frames are read back as what was written, with opponent names cut to their longest prefix of 32
bytes, streams of frames may be cut anywhere, and each parser takes exactly its own layout.
`allowed` are the match ids that are written. -/
structure WireFormat (allowed : String → Prop) : Prop where
  enter : ∀ version format delay, version < 0x10000 → (∀ ms ∈ delay, ms < 0x100000000) →
    ∃ body, Delivers (enterFrame version format delay) MATCHMAKING_ENTER body ∧
      parseCtosEnter body = .ok (.ok { format := format, mode := .ranked,
                                       clientVersion := version, botFallbackAfterMs := delay,
                                       supportsAcceptStep := none })
  status : ∀ state waitedMs reason, waitedMs < 0x100000000 →
    ∃ body, Delivers (buildStocMatchmakingStatusFrame state waitedMs reason) MATCHMAKING_STATUS
        body ∧
      describeStatus body =
        .ok { state := state.text, waitedMs := waitedMs, reason := reason.text }
  found : ∀ notice : MatchmakingFoundNotice, notice.roomId < 0x10000 → allowed notice.matchId →
    ∃ body taken, Delivers (buildStocMatchmakingFoundFrame notice) MATCHMAKING_FOUND body ∧
      Utf8.IsLongestPrefix MAX_OPPONENT_NAME_BYTES (notice.opponentName.getD "").toList taken ∧
      describeFound body = .ok (.found notice.opponentType.text notice.rated notice.roomId
        notice.matchId (String.ofList taken))
  proposed : ∀ notice : MatchProposalNotice, notice.acceptWithinMs < 0x100000000 →
    allowed notice.matchId →
    ∃ body, Delivers (buildStocMatchmakingProposedFrame notice) MATCHMAKING_PROPOSED body ∧
      readProposed body = .ok notice
  texts : Function.Injective WireState.text ∧ Function.Injective WireReason.text ∧
    Function.Injective OpponentType.text
  taken : ∀ frames cut, cut <+: wire frames →
    ∃ whole rest remaining, frames = whole ++ rest ∧ cut = wire whole ++ remaining ∧
      CutOff remaining rest ∧
      takeFrames cut = .ok { frames := whole.map .ofFrame, consumed := (wire whole).length }
  parsesEnter : Parses parseCtosEnter CtosEnter.Layout
  parsesAuth : Parses parseCtosAuth CtosAuth.Layout
  parsesMatchResponse : Parses parseCtosMatchResponse CtosMatchResponse.Layout

/-- Nothing is lost on the wire while match ids have at most 255 bytes. -/
theorem wire_format : WireFormat (fun matchId => (Buffer.ofUtf8 matchId).length ≤ 255) where
  enter := fun _ format _ => enter_readable format
  status := fun state _ reason => status_readable state reason
  found := fun _ => found_readable
  proposed := fun _ => proposed_readable
  texts :=
    ⟨WireState.text_injective, WireReason.text_injective, OpponentType.text_injective⟩
  taken := fun _ _ => takeFrames_cut
  parsesEnter := parses_enter
  parsesAuth := parses_auth
  parsesMatchResponse := parses_matchResponse

/-- A match id of 256 bytes. -/
def longMatchId : String := String.ofList (List.replicate 256 'a')

theorem readProposed_zero {rest : Buffer} {notice : MatchProposalNotice}
    (h : readProposed (0 :: rest) = .ok notice) : notice.matchId = "" := by
  rw [readProposed, Buffer.readUInt8_cons_zero] at h
  simp only [bind, Except.bind] at h
  cases hwithin : Buffer.readUInt32LE (0 :: rest) (1 + (0 : UInt8).toNat) with
  | error error =>
    rw [hwithin] at h
    cases h
  | ok acceptWithinMs =>
    rw [hwithin] at h
    cases h
    rfl

/-- The length of a match id is written into one byte, which a length of 256 overflows. -/
theorem matchId_lost {notice : MatchProposalNotice} (hms : notice.acceptWithinMs < 0x100000000)
    (hlength : (Buffer.ofUtf8 notice.matchId).length = 256) {body : Buffer}
    (hdelivers : Delivers (buildStocMatchmakingProposedFrame notice) MATCHMAKING_PROPOSED body)
    (hread : readProposed body = .ok notice) : notice.matchId = "" := by
  have hbody : body = proposedBody notice := by
    apply hdelivers.unique
    rw [buildProposed_eq hms]
    apply delivers_buildFrame
    rw [length_proposedBody, hlength]
    omega
  have hfirst : Buffer.ofByte 256 = [0] := by decide
  rw [hbody, proposedBody, hlength, hfirst, List.append_assoc, List.singleton_append] at hread
  exact readProposed_zero hread

theorem length_ofUtf8_replicate (n : Nat) :
    (Buffer.ofUtf8 (String.ofList (List.replicate n 'a'))).length = n := by
  have hone : (String.utf8EncodeChar 'a').length = 1 := by decide
  rw [Buffer.ofUtf8, String.toList_ofList]
  induction n with
  | zero => rfl
  | succ n ih =>
    rw [List.replicate_succ, Utf8.encode_cons, List.length_append, ih, hone, Nat.add_comm]

theorem length_longMatchId : (Buffer.ofUtf8 longMatchId).length = 256 :=
  length_ofUtf8_replicate 256

theorem longMatchId_lost : ¬ WireFormat (fun _ => True) := by
  intro h
  have hms : (0 : Nat) < 0x100000000 := by decide
  obtain ⟨body, hdelivers, hread⟩ :=
    h.proposed { matchId := longMatchId, acceptWithinMs := 0 } hms trivial
  have hlost : longMatchId = "" :=
    @matchId_lost { matchId := longMatchId, acceptWithinMs := 0 } hms length_longMatchId body
      hdelivers hread
  have hlength := length_longMatchId
  rw [hlost] at hlength
  exact absurd hlength (by decide)

end EdoproServer.Matchmaking
