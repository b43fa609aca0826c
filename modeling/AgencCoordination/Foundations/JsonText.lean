import AgencCoordination.Foundations.NumberText

/-!
# JSON texts

JSON values as trees whose objects list their members in order, the text they are written as
(`JSON.stringify` without a replacer), and the reader of JSON texts up to the order and the
repetition of members.

* **`readString_quote`** — a string is read back from its quotation, lone surrogates included.
* **`read_stringify`** — a value is read back from its text, members in the order they were written,
  negative zero as zero.
* **`stringify_inj`** — so the text determines the value, with the order of its members.
-/

namespace Foundations

/-- A JSON value. The members of an object are in the order in which they are enumerated. -/
inductive JsonValue where
  | null
  | bool (b : Bool)
  | number (x : Number)
  | string (s : Utf16)
  | array (items : List JsonValue)
  | object (members : List (Utf16 × JsonValue))

namespace JsonValue

open Utf16 (isHigh isLow)

/-! ## Strings -/

/-- A hexadecimal digit, lower case. -/
def hexUnit (d : ℕ) : UInt16 := UInt16.ofNat (if d < 10 then 0x30 + d else 0x57 + d)

/-- The value of a hexadecimal digit of either case. -/
def hexValue (u : UInt16) : Option ℕ :=
  if 0x30 ≤ u.toNat ∧ u.toNat ≤ 0x39 then some (u.toNat - 0x30)
  else if 0x61 ≤ u.toNat ∧ u.toNat ≤ 0x66 then some (u.toNat - 0x57)
  else if 0x41 ≤ u.toNat ∧ u.toNat ≤ 0x46 then some (u.toNat - 0x37)
  else none

/-- A code unit as four hexadecimal digits. -/
def unicodeEscape (u : UInt16) : Utf16 :=
  [0x5C, 0x75, hexUnit (u.toNat / 4096), hexUnit (u.toNat / 256 % 16),
    hexUnit (u.toNat / 16 % 16), hexUnit (u.toNat % 16)]

/-- A code unit that is not a surrogate, inside quotation marks. -/
def escapeUnit (u : UInt16) : Utf16 :=
  if u = 0x08 then [0x5C, 0x62]
  else if u = 0x09 then [0x5C, 0x74]
  else if u = 0x0A then [0x5C, 0x6E]
  else if u = 0x0C then [0x5C, 0x66]
  else if u = 0x0D then [0x5C, 0x72]
  else if u = 0x22 then [0x5C, 0x22]
  else if u = 0x5C then [0x5C, 0x5C]
  else if u.toNat < 0x20 then unicodeEscape u
  else [u]

/-- A string inside quotation marks: pairs as they are, lone surrogates escaped. -/
def quoteUnits : Utf16 → Utf16
  | [] => []
  | [u] => if isHigh u || isLow u then unicodeEscape u else escapeUnit u
  | u :: v :: rest =>
      if isHigh u then
        if isLow v then u :: v :: quoteUnits rest else unicodeEscape u ++ quoteUnits (v :: rest)
      else if isLow u then unicodeEscape u ++ quoteUnits (v :: rest)
      else escapeUnit u ++ quoteUnits (v :: rest)

/-- `QuoteJSONString`. -/
def quote (s : Utf16) : Utf16 := 0x22 :: (quoteUnits s ++ [0x22])

/-- What a backslash and a letter stand for. -/
def escapeValue (v : UInt16) : Option UInt16 :=
  if v = 0x22 then some 0x22
  else if v = 0x5C then some 0x5C
  else if v = 0x2F then some 0x2F
  else if v = 0x62 then some 0x08
  else if v = 0x66 then some 0x0C
  else if v = 0x6E then some 0x0A
  else if v = 0x72 then some 0x0D
  else if v = 0x74 then some 0x09
  else none

/-- Four hexadecimal digits as a code unit. -/
def ofHex (a b c d : UInt16) : Option UInt16 := do
  let a ← hexValue a
  let b ← hexValue b
  let c ← hexValue c
  let d ← hexValue d
  some (UInt16.ofNat (a * 4096 + b * 256 + c * 16 + d))

/-- One more code unit in front of what is read. -/
def push (u : UInt16) (read : Option (Utf16 × Utf16)) : Option (Utf16 × Utf16) :=
  read.map fun p => (u :: p.1, p.2)

/-- A string behind its opening quotation mark, with what follows the closing one. -/
def readString : Utf16 → Option (Utf16 × Utf16)
  | [] => none
  | u :: rest =>
    if u = 0x22 then some ([], rest)
    else if u = 0x5C then
      match rest with
      | [] => none
      | v :: rest =>
        if v = 0x75 then
          match rest with
          | a :: b :: c :: d :: rest => (ofHex a b c d).bind fun w => push w (readString rest)
          | _ => none
        else (escapeValue v).bind fun w => push w (readString rest)
    else if u.toNat < 0x20 then none
    else push u (readString rest)

theorem hexValue_hexUnit {d : ℕ} (h : d < 16) : hexValue (hexUnit d) = some d := by
  interval_cases d <;> rfl

theorem ofHex_units (u : UInt16) :
    ofHex (hexUnit (u.toNat / 4096)) (hexUnit (u.toNat / 256 % 16)) (hexUnit (u.toNat / 16 % 16))
      (hexUnit (u.toNat % 16)) = some u := by
  have hlt := u.toNat_lt
  rw [ofHex, hexValue_hexUnit (by omega), hexValue_hexUnit (by omega),
    hexValue_hexUnit (by omega), hexValue_hexUnit (by omega)]
  show some (UInt16.ofNat _) = some u
  have hsum : u.toNat / 4096 * 4096 + u.toNat / 256 % 16 * 256 + u.toNat / 16 % 16 * 16 +
      u.toNat % 16 = u.toNat := by omega
  rw [hsum, UInt16.ofNat_toNat]

theorem readString_unicodeEscape (u : UInt16) (rest : Utf16) :
    readString (unicodeEscape u ++ rest) = push u (readString rest) := by
  show (ofHex _ _ _ _).bind _ = _
  rw [ofHex_units, Option.bind_some]
  rfl

/-- A unit that is read as itself. -/
theorem readString_raw {u : UInt16} (hquote : u ≠ 0x22) (hslash : u ≠ 0x5C)
    (hcontrol : ¬u.toNat < 0x20) (rest : Utf16) :
    readString (u :: rest) = push u (readString rest) := by
  rw [readString.eq_def]
  simp only [if_neg hquote, if_neg hslash, if_neg hcontrol]

/-- A unit that is read from a backslash and a letter. -/
theorem readString_escape {v w : UInt16} (hletter : v ≠ 0x75) (h : escapeValue v = some w)
    (rest : Utf16) : readString ([0x5C, v] ++ rest) = push w (readString rest) := by
  have hquote : (0x5C : UInt16) ≠ 0x22 := by decide
  rw [List.cons_append, List.cons_append, List.nil_append, readString.eq_def]
  simp only [if_neg hquote, if_neg hletter, if_true, h, Option.bind_some]

theorem readString_escapeUnit (u : UInt16) (rest : Utf16) :
    readString (escapeUnit u ++ rest) = push u (readString rest) := by
  unfold escapeUnit
  split_ifs with h₁ h₂ h₃ h₄ h₅ hquote hslash hcontrol
  · rw [h₁, readString_escape (by decide) rfl]
  · rw [h₂, readString_escape (by decide) rfl]
  · rw [h₃, readString_escape (by decide) rfl]
  · rw [h₄, readString_escape (by decide) rfl]
  · rw [h₅, readString_escape (by decide) rfl]
  · rw [hquote, readString_escape (by decide) rfl]
  · rw [hslash, readString_escape (by decide) rfl]
  · exact readString_unicodeEscape u rest
  · exact readString_raw hquote hslash hcontrol rest

theorem raw_of_surrogate {u : UInt16} (h : (isHigh u || isLow u) = true) :
    u ≠ 0x22 ∧ u ≠ 0x5C ∧ ¬u.toNat < 0x20 := by
  rw [Bool.or_eq_true] at h
  simp only [isHigh, isLow, decide_eq_true_eq] at h
  refine ⟨?_, ?_, by omega⟩
  · rintro rfl
    revert h
    decide
  · rintro rfl
    revert h
    decide

/-- A surrogate that is not escaped is read as itself. -/
theorem readString_surrogate {u : UInt16} (h : (isHigh u || isLow u) = true) (rest : Utf16) :
    readString (u :: rest) = push u (readString rest) := by
  obtain ⟨hquote, hslash, hcontrol⟩ := raw_of_surrogate h
  exact readString_raw hquote hslash hcontrol rest

theorem readString_end (rest : Utf16) : readString (0x22 :: rest) = some ([], rest) := by
  rw [readString.eq_def]
  simp only [if_true]

/-- **Strings** are read back from their quotation. -/
theorem readString_quoteUnits (s rest : Utf16) :
    readString (quoteUnits s ++ 0x22 :: rest) = some (s, rest) := by
  fun_induction quoteUnits s with
  | case1 => exact readString_end rest
  | case2 u h =>
    rw [readString_unicodeEscape, readString_end]
    rfl
  | case3 u h =>
    rw [readString_escapeUnit, readString_end]
    rfl
  | case4 u v tail hhigh hlow ih =>
    have hfirst : (isHigh u || isLow u) = true := by rw [hhigh, Bool.true_or]
    have hsecond : (isHigh v || isLow v) = true := by rw [hlow, Bool.or_true]
    rw [List.cons_append, List.cons_append, readString_surrogate hfirst,
      readString_surrogate hsecond, ih]
    rfl
  | case5 u v tail hhigh hlow ih =>
    rw [List.append_assoc, readString_unicodeEscape, ih]
    rfl
  | case6 u v tail hhigh hlow ih =>
    rw [List.append_assoc, readString_unicodeEscape, ih]
    rfl
  | case7 u v tail hhigh hlow ih =>
    rw [List.append_assoc, readString_escapeUnit, ih]
    rfl

/-! ## Values -/

/-- The code units of an ASCII word. -/
def word (text : String) : Utf16 := text.toList.map fun c => UInt16.ofNat c.toNat

mutual

/-- `JSON.stringify` of a value. -/
def stringify : JsonValue → Utf16
  | .null => word "null"
  | .bool b => if b then word "true" else word "false"
  | .number x => if x.isFinite then x.toText else word "null"
  | .string s => quote s
  | .array items => 0x5B :: (stringifyItems items ++ [0x5D])
  | .object members => 0x7B :: (stringifyMembers members ++ [0x7D])

/-- The items of an array, separated by commas. -/
def stringifyItems : List JsonValue → Utf16
  | [] => []
  | v :: rest => stringify v ++ if rest.isEmpty then [] else 0x2C :: stringifyItems rest

/-- The members of an object, separated by commas. -/
def stringifyMembers : List (Utf16 × JsonValue) → Utf16
  | [] => []
  | (k, v) :: rest =>
    quote k ++ 0x3A :: (stringify v ++ if rest.isEmpty then [] else 0x2C :: stringifyMembers rest)

end

mutual

/-- The value with negative zeros as zeros. -/
def unsigned : JsonValue → JsonValue
  | .null => .null
  | .bool b => .bool b
  | .number x => .number x.unsigned
  | .string s => .string s
  | .array items => .array (unsignedItems items)
  | .object members => .object (unsignedMembers members)

def unsignedItems : List JsonValue → List JsonValue
  | [] => []
  | v :: rest => unsigned v :: unsignedItems rest

def unsignedMembers : List (Utf16 × JsonValue) → List (Utf16 × JsonValue)
  | [] => []
  | (k, v) :: rest => (k, unsigned v) :: unsignedMembers rest

end

mutual

/-- Every number of the value is finite. -/
def isFinite : JsonValue → Bool
  | .number x => x.isFinite
  | .array items => isFiniteItems items
  | .object members => isFiniteMembers members
  | _ => true

def isFiniteItems : List JsonValue → Bool
  | [] => true
  | v :: rest => isFinite v && isFiniteItems rest

def isFiniteMembers : List (Utf16 × JsonValue) → Bool
  | [] => true
  | (_, v) :: rest => isFinite v && isFiniteMembers rest

end

/-! ## Reading -/

def isSpace (u : UInt16) : Bool := u == 0x20 || u == 0x09 || u == 0x0A || u == 0x0D

def skip (text : Utf16) : Utf16 := text.dropWhile isSpace

/-- The value a word stands for, if the text starts with it. -/
def readWord (w : Utf16) (v : JsonValue) (text : Utf16) : Option (JsonValue × Utf16) :=
  if w.isPrefixOf text then some (v, text.drop w.length) else none

/-- The key of a member, through its colon. -/
def readKey (text : Utf16) : Option (Utf16 × Utf16) :=
  match skip text with
  | [] => none
  | u :: rest =>
    if u = 0x22 then
      match readString rest with
      | none => none
      | some (k, rest) =>
        match skip rest with
        | [] => none
        | c :: rest => if c = 0x3A then some (k, rest) else none
    else none

mutual

/-- A value at the front of a text, of at most `fuel` nested parts. -/
def readValue : ℕ → Utf16 → Option (JsonValue × Utf16)
  | 0, _ => none
  | fuel + 1, text =>
    match skip text with
    | [] => none
    | u :: rest =>
      if u = 0x7B then
        match skip rest with
        | [] => none
        | v :: rest' =>
          if v = 0x7D then some (.object [], rest')
          else (readMembers fuel rest).map fun p => (.object p.1, p.2)
      else if u = 0x5B then
        match skip rest with
        | [] => none
        | v :: rest' =>
          if v = 0x5D then some (.array [], rest')
          else (readItems fuel rest).map fun p => (.array p.1, p.2)
      else if u = 0x22 then (readString rest).map fun p => (.string p.1, p.2)
      else if u = 0x6E then readWord (word "null") .null (u :: rest)
      else if u = 0x74 then readWord (word "true") (.bool true) (u :: rest)
      else if u = 0x66 then readWord (word "false") (.bool false) (u :: rest)
      else (Number.readNumber (u :: rest)).map fun p => (.number p.1, p.2)

/-- The items of an array, through its closing bracket. -/
def readItems : ℕ → Utf16 → Option (List JsonValue × Utf16)
  | 0, _ => none
  | fuel + 1, text => do
    let (v, rest) ← readValue fuel text
    match skip rest with
    | [] => none
    | u :: rest =>
      if u = 0x2C then (readItems fuel rest).map fun p => (v :: p.1, p.2)
      else if u = 0x5D then some ([v], rest)
      else none

/-- The members of an object, through its closing brace. -/
def readMembers : ℕ → Utf16 → Option (List (Utf16 × JsonValue) × Utf16)
  | 0, _ => none
  | fuel + 1, text => do
    let (k, rest) ← readKey text
    let (v, rest) ← readValue fuel rest
    match skip rest with
    | [] => none
    | u :: rest =>
      if u = 0x2C then (readMembers fuel rest).map fun p => ((k, v) :: p.1, p.2)
      else if u = 0x7D then some ([(k, v)], rest)
      else none

end

theorem skip_cons {u : UInt16} (h : isSpace u = false) (rest : Utf16) :
    skip (u :: rest) = u :: rest := by
  rw [skip, List.dropWhile_cons_of_neg (by rw [h]; exact Bool.false_ne_true)]

theorem readWord_append (w : Utf16) (v : JsonValue) (rest : Utf16) :
    readWord w v (w ++ rest) = some (v, rest) := by
  rw [readWord, if_pos (List.isPrefixOf_iff_prefix.mpr (List.prefix_append w rest)),
    List.drop_left]

/-- What a value can start with. -/
def Starts (u : UInt16) : Prop :=
  isSpace u = false ∧ u ≠ 0x5D ∧ u ≠ 0x7D ∧ u ≠ 0x2C

theorem starts_of_digit {u : UInt16} (h : Number.isDigit u = true ∨ u = 0x2D) :
    Starts u ∧ u ≠ 0x7B ∧ u ≠ 0x5B ∧ u ≠ 0x22 ∧ u ≠ 0x6E ∧ u ≠ 0x74 ∧ u ≠ 0x66 := by
  have hne : ∀ v : UInt16, v ≠ 0x2D → Number.isDigit v = false → u ≠ v := by
    rintro v hminus hdigit rfl
    rcases h with h | h
    · rw [hdigit] at h
      cases h
    · exact hminus h
  have hspace : isSpace u = false := by
    simp only [isSpace, Bool.or_eq_false_iff, beq_eq_false_iff_ne]
    exact ⟨⟨⟨hne _ (by decide) (by decide), hne _ (by decide) (by decide)⟩,
      hne _ (by decide) (by decide)⟩, hne _ (by decide) (by decide)⟩
  exact ⟨⟨hspace, hne _ (by decide) (by decide), hne _ (by decide) (by decide),
    hne _ (by decide) (by decide)⟩, hne _ (by decide) (by decide), hne _ (by decide) (by decide),
    hne _ (by decide) (by decide), hne _ (by decide) (by decide), hne _ (by decide) (by decide),
    hne _ (by decide) (by decide)⟩

theorem stringify_cons (v : JsonValue) :
    ∃ u rest, stringify v = u :: rest ∧ Starts u := by
  cases v with
  | null => exact ⟨0x6E, _, rfl, by decide, by decide, by decide, by decide⟩
  | bool b =>
    cases b with
    | false => exact ⟨0x66, _, rfl, by decide, by decide, by decide, by decide⟩
    | true => exact ⟨0x74, _, rfl, by decide, by decide, by decide, by decide⟩
  | number x =>
    rw [stringify]
    split_ifs with hx
    · obtain ⟨u, rest, htext, hu⟩ := Number.toText_cons hx
      exact ⟨u, rest, htext, (starts_of_digit hu).1⟩
    · exact ⟨0x6E, _, rfl, by decide, by decide, by decide, by decide⟩
  | string s => exact ⟨0x22, _, by rw [stringify, quote], by decide, by decide, by decide, by decide⟩
  | array items => exact ⟨0x5B, _, by rw [stringify], by decide, by decide, by decide, by decide⟩
  | object members =>
    exact ⟨0x7B, _, by rw [stringify], by decide, by decide, by decide, by decide⟩

/-- A key is read back from its quotation and its colon. -/
theorem readKey_quote (k rest : Utf16) : readKey (quote k ++ 0x3A :: rest) = some (k, rest) := by
  have hquote : isSpace 0x22 = false := by decide
  have hcolon : isSpace 0x3A = false := by decide
  rw [readKey, quote, List.cons_append, skip_cons hquote]
  simp only [if_true, List.append_assoc, List.singleton_append, readString_quoteUnits,
    skip_cons hcolon]

theorem readValue_array (fuel : ℕ) {u : UInt16} {rest : Utf16} (h : Starts u) :
    readValue (fuel + 1) (0x5B :: u :: rest) =
      (readItems fuel (u :: rest)).map fun p => (.array p.1, p.2) := by
  have hopen : isSpace 0x5B = false := by decide
  rw [readValue, skip_cons hopen]
  simp +decide only [reduceIte, skip_cons h.1, if_neg h.2.1]

theorem readValue_object (fuel : ℕ) (rest : Utf16) :
    readValue (fuel + 1) (0x7B :: 0x22 :: rest) =
      (readMembers fuel (0x22 :: rest)).map fun p => (.object p.1, p.2) := by
  have hopen : isSpace 0x7B = false := by decide
  have hquote : isSpace 0x22 = false := by decide
  rw [readValue, skip_cons hopen]
  simp +decide only [reduceIte, skip_cons hquote]

theorem readValue_number (fuel : ℕ) {u : UInt16} (h : Number.isDigit u = true ∨ u = 0x2D)
    (rest : Utf16) : readValue (fuel + 1) (u :: rest) =
      (Number.readNumber (u :: rest)).map fun p => (.number p.1, p.2) := by
  obtain ⟨⟨hspace, -⟩, hbrace, hbracket, hquote, hn, ht, hf⟩ := starts_of_digit h
  rw [readValue, skip_cons hspace]
  simp only [if_neg hbrace, if_neg hbracket, if_neg hquote, if_neg hn, if_neg ht, if_neg hf]

theorem stringifyItems_cons (v : JsonValue) (tail : List JsonValue) :
    ∃ u rest, stringifyItems (v :: tail) = u :: rest ∧ Starts u := by
  obtain ⟨u, rest, htext, hstarts⟩ := stringify_cons v
  rw [stringifyItems, htext]
  exact ⟨u, _, rfl, hstarts⟩

theorem stringifyMembers_cons (member : Utf16 × JsonValue) (tail : List (Utf16 × JsonValue)) :
    ∃ rest, stringifyMembers (member :: tail) = 0x22 :: rest := by
  rw [stringifyMembers, quote]
  exact ⟨_, rfl⟩

mutual

/-- **Values** are read back from their text, members in the order they were written, negative
zero as zero. -/
theorem read_stringify (v : JsonValue) (hv : v.isFinite = true) (fuel : ℕ) (rest : Utf16)
    (hclosed : Number.Closed rest = true) (hfuel : (stringify v).length < fuel) :
    readValue fuel (stringify v ++ rest) = some (v.unsigned, rest) := by
  obtain ⟨fuel, rfl⟩ : ∃ f, fuel = f + 1 := ⟨fuel - 1, by omega⟩
  match v with
  | .null =>
    rw [unsigned, stringify]
    exact readWord_append (word "null") .null rest
  | .bool b =>
    rw [unsigned, stringify]
    cases b with
    | false => exact readWord_append (word "false") (.bool false) rest
    | true => exact readWord_append (word "true") (.bool true) rest
  | .number x =>
    rw [isFinite] at hv
    obtain ⟨u, tail, htext, hu⟩ := Number.toText_cons hv
    rw [unsigned, stringify, if_pos hv, htext, List.cons_append, readValue_number fuel hu,
      ← List.cons_append, ← htext, Number.readNumber_toText hv hclosed]
    rfl
  | .string s =>
    have hquote : isSpace 0x22 = false := by decide
    rw [unsigned, stringify, quote, List.cons_append, readValue, skip_cons hquote]
    simp +decide only [reduceIte, List.append_assoc, List.singleton_append,
      readString_quoteUnits, Option.map_some]
  | .array [] =>
    rw [unsigned, unsignedItems, stringify, stringifyItems]
    rfl
  | .array (w :: items) =>
    rw [isFinite] at hv
    rw [stringify, List.length_cons, List.length_append, List.length_singleton] at hfuel
    have hread := read_stringifyItems (w :: items) (List.cons_ne_nil _ _) hv fuel rest (by omega)
    obtain ⟨u, tail, htext, hstarts⟩ := stringifyItems_cons w items
    rw [htext, List.cons_append] at hread
    rw [unsigned, stringify, htext, List.cons_append, List.append_assoc, List.cons_append,
      List.singleton_append, readValue_array fuel hstarts, hread]
    rfl
  | .object [] =>
    rw [unsigned, unsignedMembers, stringify, stringifyMembers]
    rfl
  | .object (member :: members) =>
    rw [isFinite] at hv
    rw [stringify, List.length_cons, List.length_append, List.length_singleton] at hfuel
    have hread := read_stringifyMembers (member :: members) (List.cons_ne_nil _ _) hv fuel rest
      (by omega)
    obtain ⟨tail, htext⟩ := stringifyMembers_cons member members
    rw [htext, List.cons_append] at hread
    rw [unsigned, stringify, htext, List.cons_append, List.append_assoc, List.cons_append,
      List.singleton_append, readValue_object fuel, hread]
    rfl

/-- The items of an array are read back. -/
theorem read_stringifyItems (items : List JsonValue) (hne : items ≠ [])
    (hitems : isFiniteItems items = true) (fuel : ℕ) (rest : Utf16)
    (hfuel : (stringifyItems items).length + 1 < fuel) :
    readItems fuel (stringifyItems items ++ 0x5D :: rest) =
      some (unsignedItems items, rest) := by
  obtain ⟨fuel, rfl⟩ : ∃ f, fuel = f + 1 := ⟨fuel - 1, by omega⟩
  have hcomma : isSpace 0x2C = false := by decide
  have hclose : isSpace 0x5D = false := by decide
  match items with
  | [] => exact absurd rfl hne
  | [v] =>
    rw [isFiniteItems, isFiniteItems, Bool.and_true] at hitems
    simp only [stringifyItems, List.isEmpty_nil, if_true, List.append_nil] at hfuel ⊢
    have hread := read_stringify v hitems fuel (0x5D :: rest) rfl (by omega)
    rw [readItems, hread]
    simp +decide only [Option.bind_eq_bind, Option.bind_some, skip_cons hclose, reduceIte,
      unsignedItems]
  | v :: w :: tail =>
    rw [isFiniteItems, Bool.and_eq_true] at hitems
    rw [stringifyItems] at hfuel ⊢
    simp only [List.isEmpty_cons, Bool.false_eq_true, if_false, List.length_append,
      List.length_cons, List.append_assoc, List.cons_append] at hfuel ⊢
    have hread := read_stringify v hitems.1 fuel
      (0x2C :: (stringifyItems (w :: tail) ++ 0x5D :: rest)) rfl (by omega)
    have htail := read_stringifyItems (w :: tail) (List.cons_ne_nil _ _) hitems.2 fuel rest
      (by omega)
    rw [readItems, hread]
    simp +decide only [Option.bind_eq_bind, Option.bind_some, skip_cons hcomma, reduceIte, htail,
      Option.map_some]
    rfl

/-- The members of an object are read back. -/
theorem read_stringifyMembers (members : List (Utf16 × JsonValue)) (hne : members ≠ [])
    (hmembers : isFiniteMembers members = true) (fuel : ℕ) (rest : Utf16)
    (hfuel : (stringifyMembers members).length + 1 < fuel) :
    readMembers fuel (stringifyMembers members ++ 0x7D :: rest) =
      some (unsignedMembers members, rest) := by
  obtain ⟨fuel, rfl⟩ : ∃ f, fuel = f + 1 := ⟨fuel - 1, by omega⟩
  have hcomma : isSpace 0x2C = false := by decide
  have hclose : isSpace 0x7D = false := by decide
  match members with
  | [] => exact absurd rfl hne
  | [(k, v)] =>
    rw [isFiniteMembers, isFiniteMembers, Bool.and_true] at hmembers
    simp only [stringifyMembers, List.isEmpty_nil, if_true, List.append_nil, List.length_append,
      List.length_cons, List.append_assoc, List.cons_append] at hfuel ⊢
    have hread := read_stringify v hmembers fuel (0x7D :: rest) rfl (by omega)
    rw [readMembers, readKey_quote]
    simp +decide only [Option.bind_eq_bind, Option.bind_some, hread, skip_cons hclose, reduceIte,
      unsignedMembers]
  | (k, v) :: w :: tail =>
    rw [isFiniteMembers, Bool.and_eq_true] at hmembers
    rw [stringifyMembers] at hfuel ⊢
    simp only [List.isEmpty_cons, Bool.false_eq_true, if_false, List.length_append,
      List.length_cons, List.append_assoc, List.cons_append] at hfuel ⊢
    have hread := read_stringify v hmembers.1 fuel
      (0x2C :: (stringifyMembers (w :: tail) ++ 0x7D :: rest)) rfl (by omega)
    have htail := read_stringifyMembers (w :: tail) (List.cons_ne_nil _ _) hmembers.2 fuel rest
      (by omega)
    rw [readMembers, readKey_quote]
    simp +decide only [Option.bind_eq_bind, Option.bind_some, hread, skip_cons hcomma, reduceIte,
      htail, Option.map_some]
    rfl

end

/-- **Texts** determine values, with the order of their members, negative zero as zero. -/
theorem stringify_inj {v w : JsonValue} (hv : v.isFinite = true) (hw : w.isFinite = true)
    (h : v.stringify = w.stringify) : v.unsigned = w.unsigned := by
  have hread := read_stringify v hv _ [] rfl (Nat.lt_succ_self _)
  rw [h, read_stringify w hw _ [] rfl (Nat.lt_succ_self _)] at hread
  exact (Prod.mk.inj (Option.some.inj hread)).1.symm

mutual

/-- Negative zero is written as zero. -/
theorem stringify_unsigned (v : JsonValue) : v.unsigned.stringify = v.stringify := by
  match v with
  | .null => rfl
  | .bool _ => rfl
  | .string _ => rfl
  | .number x =>
    rw [unsigned, stringify, stringify, Number.isFinite_unsigned, Number.toText_unsigned]
  | .array items =>
    rw [unsigned, stringify, stringify, stringifyItems_unsigned items]
  | .object members =>
    rw [unsigned, stringify, stringify, stringifyMembers_unsigned members]

theorem stringifyItems_unsigned (items : List JsonValue) :
    stringifyItems (unsignedItems items) = stringifyItems items := by
  match items with
  | [] => rfl
  | v :: tail =>
    have hempty : (unsignedItems tail).isEmpty = tail.isEmpty := by cases tail <;> rfl
    rw [unsignedItems, stringifyItems, stringifyItems, stringify_unsigned v, hempty,
      stringifyItems_unsigned tail]

theorem stringifyMembers_unsigned (members : List (Utf16 × JsonValue)) :
    stringifyMembers (unsignedMembers members) = stringifyMembers members := by
  match members with
  | [] => rfl
  | (k, v) :: tail =>
    have hempty : (unsignedMembers tail).isEmpty = tail.isEmpty := by
      cases tail with
      | nil => rfl
      | cons member tail => rfl
    rw [unsignedMembers, stringifyMembers, stringifyMembers, stringify_unsigned v, hempty,
      stringifyMembers_unsigned tail]

end

/-- Values without infinities are written alike exactly when they differ in the sign of zeros
only. -/
theorem stringify_eq_iff {v w : JsonValue} (hv : v.isFinite = true) (hw : w.isFinite = true) :
    v.stringify = w.stringify ↔ v.unsigned = w.unsigned := by
  refine ⟨stringify_inj hv hw, fun h => ?_⟩
  rw [← stringify_unsigned v, h, stringify_unsigned w]

end JsonValue

end Foundations
