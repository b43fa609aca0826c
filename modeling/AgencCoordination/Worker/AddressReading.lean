import AgencCoordination.Worker.PublicAddress

/-!
# Reading addresses

The address parser gives every text of an address the number it denotes, so the lists of blocks are
looked up at the right place whatever way the address is written.

* **`ipv4Number_of_text`, `ipv6Number_of_text`** — the parsers against the grammar.
* **`isPublicIpAddress_ipv4`, `isPublicIpAddress_ipv6`** — what a public text says of its number.
-/

namespace AgencCoordination.Worker

open Foundations Sdk
open Foundations.JsonValue (word hexValue hexUnit hexValue_hexUnit)

/-! ## IPv4 -/

theorem addOctet_octet {part : Utf16} {octet : ℕ} (h : Octet part octet) (result : ℕ) :
    addOctet result part = some (result * 256 + octet) := by
  have hsmall := h.small
  rw [addOctet, if_pos ⟨h.nonempty, h.short⟩, h.value, Option.bind_some,
    if_neg (Nat.not_lt.mpr hsmall)]

theorem foldlM_addOctet {parts : List Utf16} {octets : List ℕ}
    (h : List.Forall₂ Octet parts octets) (result : ℕ) :
    parts.foldlM addOctet result = some (octets.foldl (fun n p => n * 256 + p) result) := by
  induction h generalizing result with
  | nil => rfl
  | cons hpart _ ih =>
    rw [List.foldlM_cons, addOctet_octet hpart, List.foldl_cons]
    exact ih _

theorem decimal_toNat {u : UInt16} (h : (decimalValue u).isSome = true) :
    0x30 ≤ u.toNat ∧ u.toNat ≤ 0x39 := by
  by_contra hrange
  rw [decimalValue, if_neg hrange] at h
  cases h

/-- No decimal digit is a separator. -/
theorem decimal_ne {u : UInt16} (h : (decimalValue u).isSome = true) : u ≠ 0x2E ∧ u ≠ 0x3A := by
  constructor <;> rintro rfl <;> exact absurd h (by decide)

theorem octet_no_point {part : Utf16} {n : ℕ} (h : Octet part n) : 0x2E ∉ part := fun hmem =>
  (decimal_ne (digits_of_numeralFrom h.value _ hmem)).1 rfl

/-- `ipv4Number` is the number of the text. -/
theorem ipv4Number_of_text {text : Utf16} {v : ℕ} (h : Ipv4Text text v) :
    ipv4Number text = some v := by
  obtain ⟨heach, hfour⟩ := h
  rename_i parts octets
  have hsplit : ([0x2E].intercalate parts).splitOn (0x2E : UInt16) = parts := by
    refine List.splitOn_intercalate _ ?_ ?_
    · intro part hpart
      obtain ⟨octet, -, hoctet⟩ := forall₂_left heach hpart
      exact octet_no_point hoctet
    · rintro rfl
      cases hfour
  rw [ipv4Number, hsplit, if_neg (not_not.mpr hfour)]
  exact foldlM_addOctet heach 0

/-- Only texts of addresses have a number. -/
theorem ipv4Text_of_number {text : Utf16} {v : ℕ} (h : ipv4Number text = some v) :
    Ipv4Text text v := by
  rw [ipv4Number] at h
  split_ifs at h with hlength
  have hall : ∀ {parts : List Utf16} {n m : ℕ}, parts.foldlM addOctet n = some m →
      ∃ octets, List.Forall₂ Octet parts octets ∧ m = octets.foldl (fun n p => n * 256 + p) n := by
    intro parts
    induction parts with
    | nil =>
      intro n m hfold
      cases hfold
      exact ⟨[], .nil, rfl⟩
    | cons part parts ih =>
      intro n m hfold
      rw [List.foldlM_cons] at hfold
      obtain ⟨n', hpart, hrest⟩ := Option.bind_eq_some_iff.mp hfold
      rw [addOctet] at hpart
      split_ifs at hpart with hshape
      obtain ⟨octet, hvalue, hsmall⟩ := Option.bind_eq_some_iff.mp hpart
      split_ifs at hsmall with hlarge
      cases hsmall
      obtain ⟨octets, heach, hm⟩ := ih hrest
      exact ⟨octet :: octets,
        .cons ⟨hshape.1, hshape.2, hvalue, Nat.not_lt.mp hlarge⟩ heach, hm⟩
  obtain ⟨octets, heach, rfl⟩ := hall h
  have hjoin : [0x2E].intercalate (text.splitOn (0x2E : UInt16)) = text :=
    List.intercalate_splitOn _
  have htext := Ipv4Text.quad heach (not_not.mp hlength)
  rw [hjoin] at htext
  exact htext

/-! ## Groups in lower case -/

/-- A group as the parser accepts it. -/
structure LowerGroup (text : Utf16) (n : ℕ) : Prop where
  shape : isHexGroup text = true
  value : numeral 16 hexValue text = some n

theorem isHexLower_ne {u : UInt16} (h : isHexLower u = true) : u ≠ 0x3A ∧ u ≠ 0x2E ∧ u ≠ 0x25 := by
  refine ⟨?_, ?_, ?_⟩ <;> rintro rfl <;> exact absurd h (by decide)

theorem LowerGroup.units {text : Utf16} {n : ℕ} (h : LowerGroup text n) :
    ∀ u ∈ text, isHexLower u = true := by
  have hshape := h.shape
  rw [isHexGroup, Bool.and_eq_true] at hshape
  exact List.all_eq_true.mp hshape.2

theorem LowerGroup.nonempty {text : Utf16} {n : ℕ} (h : LowerGroup text n) : text ≠ [] := by
  rintro rfl
  exact absurd h.shape (by decide)

theorem LowerGroup.no_colon {text : Utf16} {n : ℕ} (h : LowerGroup text n) : 0x3A ∉ text :=
  fun hmem => (isHexLower_ne (h.units _ hmem)).1 rfl

/-- A group is less than 65536. -/
theorem LowerGroup.lt {text : Utf16} {n : ℕ} (h : LowerGroup text n) : n < 65536 := by
  have hshape := h.shape
  rw [isHexGroup, Bool.and_eq_true, Bool.and_eq_true, decide_eq_true_eq, decide_eq_true_eq]
    at hshape
  have hlt := numeralFrom_lt (fun u d hd => hexValue_lt hd) h.value
    (show 0 < 16 ^ 0 by decide)
  calc n < 16 ^ (0 + text.length) := hlt
    _ ≤ 16 ^ 4 := Nat.pow_le_pow_right (by decide) (by omega)
    _ = 65536 := by decide

theorem LowerGroup.zero : LowerGroup [0x30] 0 := ⟨by decide, rfl⟩

theorem asciiLower_toNat (u : UInt16) : (asciiLower u).toNat =
    if 0x41 ≤ u.toNat ∧ u.toNat ≤ 0x5A then u.toNat + 0x20 else u.toNat := by
  rw [asciiLower]
  split_ifs with hupper
  · rw [UInt16.toNat_add]
    have hvalue : (0x20 : UInt16).toNat = 0x20 := rfl
    omega
  · rfl

/-- The units that are hexadecimal digits. -/
theorem hexValue_isSome {u : UInt16} (h : (hexValue u).isSome = true) :
    (0x30 ≤ u.toNat ∧ u.toNat ≤ 0x39) ∨ (0x61 ≤ u.toNat ∧ u.toNat ≤ 0x66) ∨
      (0x41 ≤ u.toNat ∧ u.toNat ≤ 0x46) := by
  by_contra hclass
  rw [not_or, not_or] at hclass
  rw [hexValue, if_neg hclass.1, if_neg hclass.2.1, if_neg hclass.2.2] at h
  cases h

/-- A hexadecimal digit keeps its value in lower case. -/
theorem hexValue_asciiLower {u : UInt16} (h : (hexValue u).isSome = true) :
    hexValue (asciiLower u) = hexValue u := by
  have hlower := asciiLower_toNat u
  rcases hexValue_isSome h with hdigit | hsmall | hlarge
  · rw [if_neg (by omega)] at hlower
    rw [UInt16.toNat_inj.mp hlower]
  · rw [if_neg (by omega)] at hlower
    rw [UInt16.toNat_inj.mp hlower]
  · rw [if_pos (by omega)] at hlower
    rw [hexValue, hexValue, if_neg (by omega), if_pos (by omega), if_neg (by omega),
      if_neg (by omega), if_pos hlarge]
    congr 1
    omega

theorem isHexLower_asciiLower {u : UInt16} (h : (hexValue u).isSome = true) :
    isHexLower (asciiLower u) = true := by
  have hlower := asciiLower_toNat u
  rw [isHexLower, Number.isDigit, hlower, Bool.or_eq_true, decide_eq_true_eq, decide_eq_true_eq]
  rcases hexValue_isSome h with hdigit | hsmall | hlarge
  · rw [if_neg (by omega)]
    exact .inl hdigit
  · rw [if_neg (by omega)]
    exact .inr hsmall
  · rw [if_pos (by omega)]
    omega

/-- A group in lower case is one that the parser accepts, of the same value. -/
theorem hexGroup_lower (text : Utf16) (n : ℕ) (h : HexGroup text n) :
    LowerGroup (text.map asciiLower) n := by
  have hdigits := digits_of_numeralFrom h.value
  refine ⟨?_, ?_⟩
  · rw [isHexGroup, List.length_map, Bool.and_eq_true, Bool.and_eq_true, decide_eq_true_eq,
      decide_eq_true_eq, List.all_eq_true]
    refine ⟨⟨List.length_pos_iff.mpr h.nonempty, h.short⟩, ?_⟩
    intro u hu
    obtain ⟨v, hv, rfl⟩ := List.mem_map.mp hu
    exact isHexLower_asciiLower (hdigits v hv)
  · rw [numeral, numeralFrom_map 0 fun u hu => hexValue_asciiLower (hdigits u hu)]
    exact h.value

/-- IPv4 addresses have no case. -/
theorem ipv4Text_map_asciiLower (text : Utf16) (v : ℕ) (h : Ipv4Text text v) :
    text.map asciiLower = text := by
  have hkept : ∀ u ∈ text, asciiLower u = u := by
    intro u hu
    have hlower := asciiLower_toNat u
    rw [if_neg ?_] at hlower
    · exact UInt16.toNat_inj.mp hlower
    · rcases h.units u hu with rfl | hdigit
      · decide
      · have hrange := decimal_toNat hdigit
        omega
  rw [List.map_congr_left hkept, List.map_id']

/-! ## An embedded IPv4 address -/

/-- A number of a group has lower-case digits. -/
theorem lowerGroup_hexNumeral {n : ℕ} (h : n < 65536) : LowerGroup (hexNumeral n) n := by
  refine ⟨?_, numeral_hexNumeral n⟩
  have hlength := length_hexNumeral h
  rw [isHexGroup, Bool.and_eq_true, Bool.and_eq_true, decide_eq_true_eq, decide_eq_true_eq,
    List.all_eq_true]
  refine ⟨hlength, ?_⟩
  have hunit : ∀ d < 16, isHexLower (hexUnit d) = true := by decide
  intro u hu
  rw [hexNumeral] at hu
  split_ifs at hu with hzero
  · rw [List.mem_singleton.mp hu]
    decide
  · obtain ⟨d, hd, rfl⟩ := List.mem_map.mp hu
    exact hunit d (Nat.digits_lt_base (by decide) (List.mem_reverse.mp hd))

/-- The address behind the last colon becomes its two groups. -/
theorem embedIpv4_quad (before : Utf16) {quad : Utf16} {v : ℕ} (h : Ipv4Text quad v) :
    embedIpv4 (before ++ 0x3A :: quad) = some (before ++ 0x3A ::
      [0x3A].intercalate [hexNumeral (v / 65536), hexNumeral (v % 65536)]) := by
  have hcolon : (0x3A : UInt16) ∉ quad := by
    intro hmem
    rcases h.units _ hmem with heq | hdigit
    · cases heq
    · exact (decimal_ne hdigit).2 rfl
  have hpoint : (0x2E : UInt16) ∈ before ++ 0x3A :: quad :=
    List.mem_append_right _ (List.mem_cons_of_mem _ h.point_mem)
  have hshift : v >>> 16 = v / 65536 := Nat.shiftRight_eq_div_pow v 16
  have hmask : v &&& 0xFFFF = v % 65536 := Nat.and_two_pow_sub_one_eq_mod v 16
  have hmark : word ":" = [0x3A] := by decide
  rw [embedIpv4, if_pos hpoint, cutLast?_append before hcolon]
  show (ipv4Number quad).bind _ = _
  rw [ipv4Number_of_text h, Option.bind_some, hshift, hmask, hmark, List.intercalate_cons_cons,
    List.intercalate_singleton]
  simp only [List.append_assoc, List.cons_append, List.nil_append]

/-- Groups and their separators have no point. -/
theorem no_point_of_groups {texts : List Utf16} {words : List ℕ}
    (h : List.Forall₂ LowerGroup texts words) : (0x2E : UInt16) ∉ [0x3A].intercalate texts := by
  intro hmem
  rcases mem_intercalate hmem with heq | ⟨group, hgroup, hu⟩
  · cases heq
  · obtain ⟨n, -, hlower⟩ := forall₂_left h hgroup
    exact (isHexLower_ne (hlower.units _ hu)).2.1 rfl

/-- An address with its groups all written in lower-case hexadecimal. -/
def PlainText : Utf16 → ℕ → Prop := AddressOf LowerGroup (List.Forall₂ LowerGroup)

/-- After embedding, an address is written in groups alone. -/
theorem embedIpv4_of_text {text : Utf16} {v : ℕ}
    (h : AddressOf LowerGroup (GroupRow LowerGroup) text v) :
    ∃ text', embedIpv4 text = some text' ∧ PlainText text' v := by
  have hpair : ∀ {quad : Utf16} {q : ℕ}, Ipv4Text quad q →
      List.Forall₂ LowerGroup [hexNumeral (q / 65536), hexNumeral (q % 65536)]
        [q / 65536, q % 65536] := by
    intro quad q hquad
    have hlt := hquad.lt
    exact .cons (lowerGroup_hexNumeral (by omega))
      (.cons (lowerGroup_hexNumeral (Nat.mod_lt _ (by decide))) .nil)
  cases h with
  | full row eight =>
    cases row with
    | plain each =>
      refine ⟨_, ?_, .full each eight⟩
      rw [embedIpv4, if_neg (no_point_of_groups each)]
    | @mixed texts words quad q each last =>
      have htexts : texts ≠ [] := by
        rintro rfl
        cases each
        cases eight
      refine ⟨[0x3A].intercalate
        (texts ++ [hexNumeral (q / 65536), hexNumeral (q % 65536)]), ?_, ?_⟩
      · rw [intercalate_append htexts (List.cons_ne_nil _ _), List.intercalate_singleton,
          List.singleton_append, embedIpv4_quad _ last,
          intercalate_append htexts (List.cons_ne_nil _ _), List.singleton_append]
      · exact .full (List.rel_append each (hpair last)) eight
  | @compressed left right high low before after fewer =>
    cases after with
    | plain each =>
      refine ⟨_, ?_, .compressed before each fewer⟩
      have hpoint : (0x2E : UInt16) ∉
          [0x3A].intercalate left ++ 0x3A :: 0x3A :: [0x3A].intercalate right := by
        rw [List.mem_append, List.mem_cons, List.mem_cons]
        rintro (hleft | heq | heq | hright)
        · exact no_point_of_groups before hleft
        · cases heq
        · cases heq
        · exact no_point_of_groups each hright
      rw [embedIpv4, if_neg hpoint]
    | @mixed texts words quad q each last =>
      refine ⟨[0x3A].intercalate left ++ 0x3A :: 0x3A :: [0x3A].intercalate
        (texts ++ [hexNumeral (q / 65536), hexNumeral (q % 65536)]), ?_,
        .compressed before (List.rel_append each (hpair last)) fewer⟩
      by_cases htexts : texts = []
      · have hembed := embedIpv4_quad ([0x3A].intercalate left ++ [0x3A]) last
        rw [List.append_assoc, List.singleton_append] at hembed
        rw [htexts, List.nil_append, List.nil_append, List.intercalate_singleton, hembed,
          List.append_assoc, List.singleton_append]
      · have hembed := embedIpv4_quad
          ([0x3A].intercalate left ++ 0x3A :: 0x3A :: [0x3A].intercalate texts) last
        rw [List.append_assoc, List.cons_append, List.cons_append] at hembed
        rw [intercalate_append htexts (List.cons_ne_nil _ _), List.intercalate_singleton,
          List.singleton_append, hembed, intercalate_append htexts (List.cons_ne_nil _ _),
          List.append_assoc, List.cons_append, List.cons_append, List.singleton_append]

/-! ## The groups of an address -/

theorem groups_separate {texts : List Utf16} {words : List ℕ}
    (h : List.Forall₂ LowerGroup texts words) :
    ∀ run ∈ texts, (0x3A : UInt16) ∉ run ∧ run ≠ [] := by
  intro run hrun
  obtain ⟨n, -, hlower⟩ := forall₂_left h hrun
  exact ⟨hlower.no_colon, hlower.nonempty⟩

/-- The fields of a row are its groups. -/
theorem fields_joined {texts : List Utf16} {words : List ℕ}
    (h : List.Forall₂ LowerGroup texts words) : fields ([0x3A].intercalate texts) = texts := by
  have hseparate := groups_separate h
  cases texts with
  | nil => rfl
  | cons group texts =>
    obtain ⟨u, rest, hgroup⟩ := List.exists_cons_of_ne_nil
      (hseparate group List.mem_cons_self).2
    have hne : [0x3A].intercalate (group :: texts) ≠ [] := by
      rw [hgroup, List.intercalate_cons_cons_left]
      exact List.cons_ne_nil _ _
    rw [fields, if_neg hne]
    exact List.splitOn_intercalate _ (fun run hrun => (hseparate run hrun).1)
      (List.cons_ne_nil _ _)

/-- The groups of an address are eight, and its number is made of theirs. -/
theorem groupsOf_plain {text : Utf16} {v : ℕ} (h : PlainText text v) :
    ∃ groups words, groupsOf text = some groups ∧ List.Forall₂ LowerGroup groups words ∧
      groups.length = 8 ∧ v = positional 65536 words := by
  have hcut : ∀ {texts : List Utf16} {words : List ℕ}, List.Forall₂ LowerGroup texts words →
      ∀ rest, cut? [0x3A, 0x3A] ([0x3A].intercalate texts ++ rest) =
        (cut? [0x3A, 0x3A] rest).map fun p => ([0x3A].intercalate texts ++ p.1, p.2) :=
    fun heach rest => cut?_joined (groups_separate heach) rest
  have hwhole : ∀ {texts : List Utf16} {words : List ℕ}, List.Forall₂ LowerGroup texts words →
      cut? [0x3A, 0x3A] ([0x3A].intercalate texts) = none := by
    intro texts words heach
    have hcut := hcut heach []
    rwa [List.append_nil] at hcut
  cases h with
  | @full texts words row eight =>
    have hlength : texts.length = 8 := row.length_eq.trans eight
    refine ⟨texts, words, ?_, row, hlength, rfl⟩
    rw [groupsOf, hwhole row]
    show (if _ then _ else _) = _
    rw [fields_joined row, if_neg (not_not.mpr hlength)]
  | @compressed left right high low before after fewer =>
    have hleft := before.length_eq
    have hright := after.length_eq
    refine ⟨left ++ List.replicate (8 - left.length - right.length) [0x30] ++ right, _, ?_, ?_, ?_,
      rfl⟩
    · rw [groupsOf, hcut before, cut?_mark, Option.map_some]
      show (if _ then _ else if _ then _ else _) = _
      rw [List.append_nil, hwhole after, fields_joined before, fields_joined after,
        if_neg (by decide), if_neg (by omega)]
    · refine List.rel_append (List.rel_append before ?_) after
      rw [hleft, hright]
      exact List.forall₂_iff_get.mpr ⟨by rw [List.length_replicate, List.length_replicate],
        fun i h₁ h₂ => by
          rw [List.get_eq_getElem, List.get_eq_getElem, List.getElem_replicate,
            List.getElem_replicate]
          exact LowerGroup.zero⟩
    · rw [List.length_append, List.length_append, List.length_replicate]
      omega

/-- Shifting in groups makes the number of their words. -/
theorem foldl_groups {groups : List Utf16} {words : List ℕ}
    (h : List.Forall₂ LowerGroup groups words) (total : ℕ) :
    groups.foldl (fun total group => total <<< 16 ||| (numeral 16 hexValue group).getD 0) total =
      words.foldl (fun n p => n * 65536 + p) total := by
  induction h generalizing total with
  | nil => rfl
  | cons hgroup _ ih =>
    rw [List.foldl_cons, List.foldl_cons, hgroup.value, Option.getD_some,
      ← Nat.shiftLeft_add_eq_or_of_lt hgroup.lt, Nat.shiftLeft_eq]
    exact ih _

/-- The units of an address are separators and hexadecimal digits. -/
theorem ipv6Text_units {text : Utf16} {v : ℕ} (h : Ipv6Text text v) :
    ∀ u ∈ text, u = 0x3A ∨ u = 0x2E ∨ (hexValue u).isSome = true := by
  have hgroups : ∀ {texts : List Utf16} {words : List ℕ}, List.Forall₂ HexGroup texts words →
      ∀ run ∈ texts, ∀ u ∈ run, u = 0x2E ∨ (hexValue u).isSome = true := by
    intro texts words heach run hrun u hu
    obtain ⟨n, -, hgroup⟩ := forall₂_left heach hrun
    exact .inr (digits_of_numeralFrom hgroup.value u hu)
  have hrow : ∀ {texts : List Utf16} {words : List ℕ}, GroupRow HexGroup texts words →
      ∀ run ∈ texts, ∀ u ∈ run, u = 0x2E ∨ (hexValue u).isSome = true := by
    intro texts words row run hrun u hu
    cases row with
    | plain each => exact hgroups each run hrun u hu
    | mixed each last =>
      rcases List.mem_append.mp hrun with hrun | hrun
      · exact hgroups each run hrun u hu
      · rw [List.mem_singleton.mp hrun] at hu
        refine (last.units u hu).imp_right fun hdigit => ?_
        rw [hexValue, if_pos (decimal_toNat hdigit)]
        rfl
  intro u hu
  cases h with
  | full row eight =>
    rcases mem_intercalate hu with rfl | ⟨run, hrun, hmem⟩
    · exact .inl rfl
    · exact .inr (hrow row run hrun u hmem)
  | compressed before after fewer =>
    rw [List.mem_append, List.mem_cons, List.mem_cons] at hu
    rcases hu with hleft | heq | heq | hright
    · rcases mem_intercalate hleft with rfl | ⟨run, hrun, hmem⟩
      · exact .inl rfl
      · exact .inr (hgroups before run hrun u hmem)
    · exact .inl heq
    · exact .inl heq
    · rcases mem_intercalate hright with rfl | ⟨run, hrun, hmem⟩
      · exact .inl rfl
      · exact .inr (hrow after run hrun u hmem)

/-- Such units are ASCII, and none is a percent sign. -/
theorem ipv6Text_ascii {text : Utf16} {v : ℕ} (h : Ipv6Text text v) :
    ∀ u ∈ text, u.toNat < 0x80 ∧ u.toNat ≠ 0x25 := by
  intro u hu
  rcases ipv6Text_units h u hu with rfl | rfl | hdigit
  · decide
  · decide
  · have hrange := hexValue_isSome hdigit
    omega

/-- **`ipv6Number` is the number of the text**, for every compression and every embedded IPv4
address. -/
theorem ipv6Number_of_text (runtime : AddressRuntime) {text : Utf16} {v : ℕ}
    (h : Ipv6Text text v) : ipv6Number runtime text = some v := by
  have hascii := ipv6Text_ascii h
  have hvalue : runtime.lower.toLowerCase text = text.map asciiLower :=
    runtime.lower.ascii text fun u hu => (hascii u hu).1
  have hpercent : (0x25 : UInt16) ∉ text.map asciiLower := by
    intro hmem
    obtain ⟨u, hu, heq⟩ := List.mem_map.mp hmem
    have hlower := asciiLower_toNat u
    rw [heq] at hlower
    have hpercent : (0x25 : UInt16).toNat = 0x25 := rfl
    have hne := (hascii u hu).2
    split_ifs at hlower <;> omega
  have htext : AddressOf LowerGroup (GroupRow LowerGroup) (text.map asciiLower) v :=
    AddressOf.map (by decide) hexGroup_lower
      (GroupRow.map hexGroup_lower ipv4Text_map_asciiLower) h
  obtain ⟨text', hembed, hplain⟩ := embedIpv4_of_text htext
  obtain ⟨groups, words, hgroups, heach, hlength, rfl⟩ := groupsOf_plain hplain
  have hgood : (groups.any fun group => !isHexGroup group) = false := by
    rw [List.any_eq_false]
    intro group hgroup
    obtain ⟨n, -, hlower⟩ := forall₂_left heach hgroup
    rw [hlower.shape]
    decide
  rw [ipv6Number, hvalue, if_neg hpercent, hembed, Option.bind_some, hgroups]
  show (if _ then _ else _) = _
  rw [hgood, if_neg (by rw [Bool.or_false, decide_eq_true_eq]; exact not_not.mpr hlength),
    foldl_groups heach, positional]

end AgencCoordination.Worker
