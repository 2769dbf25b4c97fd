import EdoproServer.Lib.NumberText
import EdoproServer.Lib.Utf16

/-! JSON texts, of values whose numbers are whole. A string is its units, halves of no pair
included. -/

namespace EdoproServer.Lib.JsonText
open Double (Whole readWhole integerText isNumberChar)
open Utf16 (Item charUnits)

inductive Value where
  | null
  | bool (value : Bool)
  | number (value : Whole)
  | string (text : Utf16)
  | array (elements : List Value)
  | object (members : List (Utf16 × Value))

/-! ## Strings -/

def QUOTE : Char := '\x22'
def BACKSLASH : Char := '\x5c'

/-- The characters with an escape of one letter, and that letter. -/
def escapes : List (Char × Char) :=
  [(QUOTE, QUOTE), (BACKSLASH, BACKSLASH), ('\x08', 'b'), ('\x09', 't'), ('\x0a', 'n'),
    ('\x0c', 'f'), ('\x0d', 'r')]

/-- The escape of a unit by its number. -/
def unicodeEscape (n : Nat) : List Char :=
  [BACKSLASH, 'u', Nat.digitChar (n / 4096 % 16), Nat.digitChar (n / 256 % 16),
    Nat.digitChar (n / 16 % 16), Nat.digitChar (n % 16)]

def quoteChar (c : Char) : List Char :=
  match escapes.find? (fun escape => escape.1 = c) with
  | some escape => [BACKSLASH, escape.2]
  | none => if c.toNat < 0x20 then unicodeEscape c.toNat else [c]

def quoteItem : Item → List Char
  | .char c => quoteChar c
  | .lone u => unicodeEscape u.toNat

def quote (text : Utf16) : List Char :=
  QUOTE :: ((Utf16.items text).flatMap quoteItem ++ [QUOTE])

/-- Where the reader of a string is: between its characters, behind a backslash, or at a digit of
an escape by number, with the digits still to come after it and the number so far. -/
inductive StringState where
  | plain
  | escape
  | hex (left value : Nat)

def hexValue (c : Char) : Option Nat :=
  if 48 ≤ c.toNat ∧ c.toNat ≤ 57 then some (c.toNat - 48)
  else if 97 ≤ c.toNat ∧ c.toNat ≤ 102 then some (c.toNat - 87)
  else if 65 ≤ c.toNat ∧ c.toNat ≤ 70 then some (c.toNat - 55)
  else none

def unescape (letter : Char) : Option Char :=
  if letter = '/' then some '/'
  else (escapes.find? (fun escape => escape.2 = letter)).map Prod.fst

/-- More units in front of those of the rest. -/
def prepend (units : Utf16) (read : Utf16 × List Char) : Utf16 × List Char :=
  (units ++ read.1, read.2)

/-- Reads up to the closing quote. -/
def scanString : StringState → List Char → Option (Utf16 × List Char)
  | _, [] => none
  | .plain, c :: rest =>
    if c = QUOTE then some ([], rest)
    else if c = BACKSLASH then scanString .escape rest
    else if c.toNat < 0x20 then none
    else (scanString .plain rest).map (prepend (charUnits c))
  | .escape, c :: rest =>
    if c = 'u' then scanString (.hex 3 0) rest
    else
      match unescape c with
      | none => none
      | some escaped => (scanString .plain rest).map (prepend (charUnits escaped))
  | .hex 0 value, c :: rest =>
    match hexValue c with
    | none => none
    | some digit =>
      (scanString .plain rest).map (prepend [UInt16.ofNat (16 * value + digit)])
  | .hex (left + 1) value, c :: rest =>
    match hexValue c with
    | none => none
    | some digit => scanString (.hex left (16 * value + digit)) rest

theorem hexValue_digitChar : ∀ n < 16, hexValue (Nat.digitChar n) = some n := by decide

theorem unescape_escapes : ∀ escape ∈ escapes,
    escape.2 ≠ 'u' ∧ unescape escape.2 = some escape.1 := by
  decide

theorem scanString_unicodeEscape {n : Nat} (h : n < 0x10000) (rest : List Char) :
    scanString .plain (unicodeEscape n ++ rest) =
      (scanString .plain rest).map (prepend [UInt16.ofNat n]) := by
  have hvalue : 16 * (16 * (16 * (16 * 0 + n / 4096 % 16) + n / 256 % 16) + n / 16 % 16) +
      n % 16 = n := by omega
  have hhex : ∀ k, hexValue (Nat.digitChar (k % 16)) = some (k % 16) := fun k =>
    hexValue_digitChar _ (Nat.mod_lt _ (by norm_num))
  simp only [unicodeEscape, List.cons_append, List.nil_append, scanString, hhex, hvalue,
    if_neg (show BACKSLASH ≠ QUOTE by decide), if_true]

theorem scanString_char (c : Char) (rest : List Char) :
    scanString .plain (quoteChar c ++ rest) =
      (scanString .plain rest).map (prepend (charUnits c)) := by
  unfold quoteChar
  split
  · rename_i escape hfind
    obtain ⟨hletter, hback⟩ := unescape_escapes escape (List.mem_of_find?_eq_some hfind)
    have hc : escape.1 = c := by simpa using List.find?_some hfind
    rw [hc] at hback
    simp only [List.cons_append, List.nil_append, scanString, hback, if_neg hletter,
      if_neg (show BACKSLASH ≠ QUOTE by decide), if_true]
  · rename_i hnone
    have hquote : c ≠ QUOTE := by
      rintro rfl
      exact absurd hnone (by decide)
    have hbackslash : c ≠ BACKSLASH := by
      rintro rfl
      exact absurd hnone (by decide)
    split
    · rename_i hcontrol
      have hunits : charUnits c = [UInt16.ofNat c.toNat] := if_pos (by omega)
      rw [scanString_unicodeEscape (by omega), hunits]
    · rename_i hplain
      rw [List.singleton_append, scanString, if_neg hquote, if_neg hbackslash, if_neg hplain]

theorem scanString_item (item : Item) (rest : List Char) :
    scanString .plain (quoteItem item ++ rest) =
      (scanString .plain rest).map (prepend item.units) := by
  cases item with
  | char c => exact scanString_char c rest
  | lone u =>
    have hlone := scanString_unicodeEscape (n := u.toNat) u.toNat_lt rest
    rw [UInt16.ofNat_toNat] at hlone
    exact hlone

theorem scanString_items (items : List Item) (rest : List Char) :
    scanString .plain (items.flatMap quoteItem ++ QUOTE :: rest) =
      some (items.flatMap Item.units, rest) := by
  induction items with
  | nil => rfl
  | cons item items ih =>
    rw [List.flatMap_cons, List.append_assoc, scanString_item, ih]
    rfl

/-- A quoted text is read as it, behind its opening quote. -/
theorem scanString_quote (text : Utf16) (rest : List Char) :
    scanString .plain ((Utf16.items text).flatMap quoteItem ++ QUOTE :: rest) =
      some (text, rest) := by
  rw [scanString_items, Utf16.flatMap_units_items]

/-! ## Values -/

def OPEN_BRACE : Char := '\x7b'
def CLOSE_BRACE : Char := '\x7d'

mutual

/-- `JSON.stringify` -/
def stringify : Value → List Char
  | .null => ['n', 'u', 'l', 'l']
  | .bool true => ['t', 'r', 'u', 'e']
  | .bool false => ['f', 'a', 'l', 's', 'e']
  | .number n => integerText n.value
  | .string text => quote text
  | .array [] => ['[', ']']
  | .array (value :: values) => '[' :: (stringify value ++ elementsText values)
  | .object [] => [OPEN_BRACE, CLOSE_BRACE]
  | .object ((name, value) :: members) =>
    OPEN_BRACE :: (quote name ++ ':' :: (stringify value ++ membersText members))

/-- What follows the first element, the closing bracket included. -/
def elementsText : List Value → List Char
  | [] => [']']
  | value :: values => ',' :: (stringify value ++ elementsText values)

def membersText : List (Utf16 × Value) → List Char
  | [] => [CLOSE_BRACE]
  | (name, value) :: members =>
    ',' :: (quote name ++ ':' :: (stringify value ++ membersText members))

end

def isSpace (c : Char) : Bool := c = '\x20' || c = '\x09' || c = '\x0a' || c = '\x0d'

def skip (text : List Char) : List Char := text.dropWhile isSpace

def parseWord (word : List Char) (value : Value) (text : List Char) :
    Option (Value × List Char) :=
  if word.isPrefixOf text then some (value, text.drop word.length) else none

def parseNumber (text : List Char) : Option (Value × List Char) :=
  (readWhole (text.takeWhile isNumberChar)).map fun n =>
    (.number n, text.dropWhile isNumberChar)

/-- A name and the colon behind it. -/
def parseName (text : List Char) : Option (Utf16 × List Char) :=
  match skip text with
  | [] => none
  | c :: rest =>
    if c = QUOTE then
      match scanString .plain rest with
      | none => none
      | some (name, rest) =>
        if (skip rest).head? = some ':' then some (name, (skip rest).tail) else none
    else none

mutual

/-- A value at the beginning of a text, and what follows it. Fuel for every letter of the text is
enough, since each value takes one letter at least. -/
def parseValue : Nat → List Char → Option (Value × List Char)
  | 0, _ => none
  | fuel + 1, text =>
    match skip text with
    | [] => none
    | c :: rest =>
      if c = QUOTE then (scanString .plain rest).map fun read => (.string read.1, read.2)
      else if c = '[' then
        if (skip rest).head? = some ']' then some (.array [], (skip rest).tail)
        else do
          let (value, rest) ← parseValue fuel rest
          let (values, rest) ← parseElements fuel rest
          return (.array (value :: values), rest)
      else if c = OPEN_BRACE then
        if (skip rest).head? = some CLOSE_BRACE then some (.object [], (skip rest).tail)
        else do
          let (name, rest) ← parseName rest
          let (value, rest) ← parseValue fuel rest
          let (members, rest) ← parseMembers fuel rest
          return (.object ((name, value) :: members), rest)
      else if c = 'n' then parseWord ['u', 'l', 'l'] .null rest
      else if c = 't' then parseWord ['r', 'u', 'e'] (.bool true) rest
      else if c = 'f' then parseWord ['a', 'l', 's', 'e'] (.bool false) rest
      else parseNumber (c :: rest)

def parseElements : Nat → List Char → Option (List Value × List Char)
  | 0, _ => none
  | fuel + 1, text =>
    match skip text with
    | [] => none
    | c :: rest =>
      if c = ']' then some ([], rest)
      else if c = ',' then do
        let (value, rest) ← parseValue fuel rest
        let (values, rest) ← parseElements fuel rest
        return (value :: values, rest)
      else none

def parseMembers : Nat → List Char → Option (List (Utf16 × Value) × List Char)
  | 0, _ => none
  | fuel + 1, text =>
    match skip text with
    | [] => none
    | c :: rest =>
      if c = CLOSE_BRACE then some ([], rest)
      else if c = ',' then do
        let (name, rest) ← parseName rest
        let (value, rest) ← parseValue fuel rest
        let (members, rest) ← parseMembers fuel rest
        return ((name, value) :: members, rest)
      else none

end

/-- `JSON.parse`, of texts whose numbers are whole. -/
def parse (text : List Char) : Option Value :=
  match parseValue text.length text with
  | some (value, rest) => if skip rest = [] then some value else none
  | none => none

/-! ## Reading what was written -/

/-- A text that goes on with no letter of a number. -/
def Ends (rest : List Char) : Prop := ∀ c ∈ rest.head?, isNumberChar c = false

theorem skip_of_head {c : Char} {rest : List Char} (h : isSpace c = false) :
    skip (c :: rest) = c :: rest :=
  List.dropWhile_cons_of_neg (by rw [h]; exact Bool.false_ne_true)

theorem elementsText_head (values : List Value) : ∃ c rest, elementsText values = c :: rest ∧
    isSpace c = false ∧ isNumberChar c = false := by
  cases values with
  | nil => exact ⟨']', [], rfl, by decide, by decide⟩
  | cons value values => exact ⟨',', _, rfl, by decide, by decide⟩

theorem membersText_head (members : List (Utf16 × Value)) :
    ∃ c rest, membersText members = c :: rest ∧ isSpace c = false ∧ isNumberChar c = false := by
  cases members with
  | nil => exact ⟨CLOSE_BRACE, [], rfl, by decide, by decide⟩
  | cons member members => exact ⟨',', _, rfl, by decide, by decide⟩

theorem ends_elements (values : List Value) (rest : List Char) :
    Ends (elementsText values ++ rest) := by
  obtain ⟨c, more, htext, -, hnumber⟩ := elementsText_head values
  rw [htext]
  intro d hd
  cases hd
  exact hnumber

theorem ends_members (members : List (Utf16 × Value)) (rest : List Char) :
    Ends (membersText members ++ rest) := by
  obtain ⟨c, more, htext, -, hnumber⟩ := membersText_head members
  rw [htext]
  intro d hd
  cases hd
  exact hnumber

/-- The first letter of a number is that of no other value. -/
theorem number_letter {c : Char} (h : c = '-' ∨ c.isDigit = true) :
    isSpace c = false ∧ c ≠ ']' ∧ c ≠ QUOTE ∧ c ≠ '[' ∧ c ≠ OPEN_BRACE ∧ c ≠ 'n' ∧ c ≠ 't' ∧
      c ≠ 'f' := by
  rcases h with rfl | h
  · decide
  · have hrange : 48 ≤ c.toNat ∧ c.toNat ≤ 57 := by
      simpa [Char.isDigit, UInt32.le_iff_toNat_le] using h
    have hback : c = Char.ofNat c.toNat := (Char.ofNat_toNat c).symm
    generalize c.toNat = n at hrange hback
    obtain ⟨hlow, hhigh⟩ := hrange
    subst hback
    interval_cases n <;> decide

theorem stringify_head (value : Value) :
    ∃ c rest, stringify value = c :: rest ∧ isSpace c = false ∧ c ≠ ']' := by
  cases value with
  | null => exact ⟨'n', _, rfl, by decide, by decide⟩
  | bool b =>
    cases b with
    | true => exact ⟨'t', _, rfl, by decide, by decide⟩
    | false => exact ⟨'f', _, rfl, by decide, by decide⟩
  | number n =>
    obtain ⟨c, rest, htext, hletter⟩ := Double.integerText_head n.value
    obtain ⟨hspace, hbracket, -⟩ := number_letter hletter
    exact ⟨c, rest, htext, hspace, hbracket⟩
  | string text => exact ⟨QUOTE, _, rfl, by decide, by decide⟩
  | array elements =>
    cases elements with
    | nil => exact ⟨'[', _, rfl, by decide, by decide⟩
    | cons element elements => exact ⟨'[', _, by rw [stringify], by decide, by decide⟩
  | object members =>
    cases members with
    | nil => exact ⟨OPEN_BRACE, _, rfl, by decide, by decide⟩
    | cons member members => exact ⟨OPEN_BRACE, _, by rw [stringify], by decide, by decide⟩

theorem parseNumber_integerText (n : Whole) {rest : List Char} (h : Ends rest) :
    parseNumber (integerText n.value ++ rest) = some (.number n, rest) := by
  obtain ⟨htake, hdrop⟩ := Double.span_digits _ _ _ (Double.integerText_chars n.value) h
  rw [parseNumber, htake, hdrop, Double.readWhole_integerText]
  rfl

/-- A quoted name and its colon. -/
theorem parseName_quote (name : Utf16) (rest : List Char) :
    parseName (quote name ++ ':' :: rest) = some (name, rest) := by
  rw [quote, List.cons_append, List.append_assoc, List.singleton_append, parseName,
    skip_of_head (by decide)]
  dsimp only
  rw [if_pos rfl, scanString_quote]
  dsimp only
  rw [skip_of_head (by decide)]
  rfl

section Fuel

variable {fuel : Nat}

/-- What is read with so much fuel. -/
structure Reads (fuel : Nat) : Prop where
  value : ∀ (value : Value) (rest : List Char), (stringify value).length ≤ fuel → Ends rest →
    parseValue fuel (stringify value ++ rest) = some (value, rest)
  elements : ∀ (values : List Value) (rest : List Char), (elementsText values).length ≤ fuel →
    parseElements fuel (elementsText values ++ rest) = some (values, rest)
  members : ∀ (members : List (Utf16 × Value)) (rest : List Char),
    (membersText members).length ≤ fuel →
      parseMembers fuel (membersText members ++ rest) = some (members, rest)

theorem reads_zero : Reads 0 where
  value value rest h := by
    obtain ⟨c, more, htext, -⟩ := stringify_head value
    rw [htext] at h
    cases h
  elements values rest h := by
    obtain ⟨c, more, htext, -⟩ := elementsText_head values
    rw [htext] at h
    cases h
  members members rest h := by
    obtain ⟨c, more, htext, -⟩ := membersText_head members
    rw [htext] at h
    cases h

theorem reads_elements (h : Reads fuel) (values : List Value) (rest : List Char)
    (hlength : (elementsText values).length ≤ fuel + 1) :
    parseElements (fuel + 1) (elementsText values ++ rest) = some (values, rest) := by
  cases values with
  | nil =>
    rw [elementsText, List.singleton_append, parseElements, skip_of_head (by decide)]
    rfl
  | cons value values =>
    simp only [elementsText, List.length_cons, List.length_append] at hlength
    rw [elementsText, List.cons_append, List.append_assoc, parseElements,
      skip_of_head (by decide)]
    dsimp only
    rw [if_neg (by decide), if_pos rfl, h.value value _ (by omega) (ends_elements values rest)]
    simp only [Option.bind_eq_bind, Option.bind_some, h.elements values rest (by omega)]
    rfl

theorem reads_members (h : Reads fuel) (members : List (Utf16 × Value)) (rest : List Char)
    (hlength : (membersText members).length ≤ fuel + 1) :
    parseMembers (fuel + 1) (membersText members ++ rest) = some (members, rest) := by
  cases members with
  | nil =>
    rw [membersText, List.singleton_append, parseMembers, skip_of_head (by decide)]
    rfl
  | cons member members =>
    obtain ⟨name, value⟩ := member
    simp only [membersText, List.length_cons, List.length_append] at hlength
    rw [membersText, List.cons_append, List.append_assoc, List.cons_append, List.append_assoc,
      parseMembers, skip_of_head (by decide)]
    dsimp only
    rw [if_neg (by decide), if_pos rfl, parseName_quote]
    simp only [Option.bind_eq_bind, Option.bind_some,
      h.value value _ (show _ ≤ fuel by omega) (ends_members members rest),
      h.members members rest (by omega)]
    rfl

theorem reads_array (h : Reads fuel) (elements : List Value) (rest : List Char)
    (hlength : (stringify (.array elements)).length ≤ fuel + 1) :
    parseValue (fuel + 1) (stringify (.array elements) ++ rest) =
      some (.array elements, rest) := by
  cases elements with
  | nil =>
    rw [stringify, List.cons_append, List.singleton_append, parseValue, skip_of_head (by decide)]
    dsimp only
    rw [if_neg (by decide), if_pos rfl, skip_of_head (by decide)]
    rfl
  | cons value values =>
    simp only [stringify, List.length_cons, List.length_append] at hlength
    obtain ⟨c, more, htext, hspace, hbracket⟩ := stringify_head value
    have hopen : (skip (stringify value ++ (elementsText values ++ rest))).head? ≠ some ']' := by
      rw [htext, List.cons_append, skip_of_head hspace]
      exact fun hsome => hbracket (Option.some.inj hsome)
    rw [stringify, List.cons_append, List.append_assoc, parseValue, skip_of_head (by decide)]
    dsimp only
    rw [if_neg (by decide), if_pos rfl, if_neg hopen,
      h.value value _ (by omega) (ends_elements values rest)]
    simp only [Option.bind_eq_bind, Option.bind_some, h.elements values rest (by omega)]
    rfl

theorem reads_object (h : Reads fuel) (members : List (Utf16 × Value)) (rest : List Char)
    (hlength : (stringify (.object members)).length ≤ fuel + 1) :
    parseValue (fuel + 1) (stringify (.object members) ++ rest) =
      some (.object members, rest) := by
  cases members with
  | nil =>
    rw [stringify, List.cons_append, List.singleton_append, parseValue, skip_of_head (by decide)]
    dsimp only
    rw [if_neg (by decide), if_neg (by decide), if_pos rfl, skip_of_head (by decide)]
    rfl
  | cons member members =>
    obtain ⟨name, value⟩ := member
    simp only [stringify, List.length_cons, List.length_append] at hlength
    have hopen : (skip (quote name ++ ':' :: (stringify value ++ (membersText members ++
        rest)))).head? ≠ some CLOSE_BRACE := by
      rw [quote, List.cons_append, skip_of_head (by decide)]
      exact fun hsome => absurd (Option.some.inj hsome) (by decide)
    rw [stringify, List.cons_append, List.append_assoc, List.cons_append, List.append_assoc,
      parseValue, skip_of_head (by decide)]
    dsimp only
    rw [if_neg (by decide), if_neg (by decide), if_pos rfl, if_neg hopen, parseName_quote]
    simp only [Option.bind_eq_bind, Option.bind_some,
      h.value value _ (show _ ≤ fuel by omega) (ends_members members rest),
      h.members members rest (by omega)]
    rfl

theorem reads_value (h : Reads fuel) (value : Value) (rest : List Char)
    (hlength : (stringify value).length ≤ fuel + 1) (hends : Ends rest) :
    parseValue (fuel + 1) (stringify value ++ rest) = some (value, rest) := by
  cases value with
  | null => rfl
  | bool b => cases b <;> rfl
  | number n =>
    obtain ⟨c, more, htext, hletter⟩ := Double.integerText_head n.value
    obtain ⟨hspace, -, hquote, harray, hobject, hn, ht, hf⟩ := number_letter hletter
    rw [stringify, parseValue, htext, List.cons_append, skip_of_head hspace]
    dsimp only
    rw [if_neg hquote, if_neg harray, if_neg hobject, if_neg hn, if_neg ht, if_neg hf,
      ← List.cons_append, ← htext, parseNumber_integerText n hends]
  | string text =>
    rw [stringify, quote, List.cons_append, List.append_assoc, List.singleton_append, parseValue,
      skip_of_head (by decide)]
    dsimp only
    rw [if_pos rfl, scanString_quote]
    rfl
  | array elements => exact reads_array h elements rest hlength
  | object members => exact reads_object h members rest hlength

theorem reads (fuel : Nat) : Reads fuel := by
  induction fuel with
  | zero => exact reads_zero
  | succ fuel ih => exact ⟨reads_value ih, reads_elements ih, reads_members ih⟩

end Fuel

/-- The text of a value is read as the value. -/
theorem parse_stringify (value : Value) : parse (stringify value) = some value := by
  have hread := (reads (stringify value).length).value value [] (le_refl _) (by simp [Ends])
  rw [List.append_nil] at hread
  rw [parse, hread]
  rfl

end EdoproServer.Lib.JsonText
