import AgencCoordination.Worker.AddressReading

/-!
# Blocks of addresses

A text that denotes an address is public exactly when the runtime takes it for one of that family
and its number is outside every listed block. The blocks are themselves written as addresses, so
both sides are about numbers that texts denote.

* **`isPublicIpAddress_ipv4`, `isPublicIpAddress_ipv6`** — the public texts of each family.
-/

namespace AgencCoordination.Worker

open Foundations Sdk
open Foundations.JsonValue (word hexValue)

/-! ## The blocks are addresses -/

theorem blockedIpv4_texts : ∀ block ∈ blockedIpv4, ∃ b, Ipv4Text block.1 b := by
  have hnumber : ∀ block ∈ blockedIpv4, (ipv4Number block.1).isSome = true := by decide +kernel
  intro block hblock
  obtain ⟨b, hb⟩ := Option.isSome_iff_exists.mp (hnumber block hblock)
  exact ⟨b, ipv4Text_of_number hb⟩

/-- A run of digits has a number. -/
theorem numeralFrom_isSome {base : ℕ} {digit : UInt16 → Option ℕ} {text : Utf16} (n : ℕ)
    (h : ∀ u ∈ text, (digit u).isSome = true) :
    ∃ m, numeralFrom base digit n text = some m := by
  induction text generalizing n with
  | nil => exact ⟨n, rfl⟩
  | cons u rest ih =>
    obtain ⟨d, hd⟩ := Option.isSome_iff_exists.mp (h u List.mem_cons_self)
    obtain ⟨m, hm⟩ := ih (n * base + d) fun v hv => h v (List.mem_cons_of_mem _ hv)
    exact ⟨m, by rw [numeralFrom, hd, Option.bind_some, hm]⟩

theorem hexValue_isSome_of_lower {u : UInt16} (h : isHexLower u = true) :
    (hexValue u).isSome = true := by
  rw [isHexLower, Number.isDigit, Bool.or_eq_true, decide_eq_true_eq, decide_eq_true_eq] at h
  rw [hexValue]
  split_ifs
  · rfl
  · rfl
  · rfl
  · omega

/-- Groups in lower case are groups. -/
theorem hexGroups_of_lower {texts : List Utf16} (h : ∀ group ∈ texts, isHexGroup group = true) :
    ∃ words, List.Forall₂ HexGroup texts words := by
  induction texts with
  | nil => exact ⟨[], .nil⟩
  | cons group texts ih =>
    have hshape := h group List.mem_cons_self
    rw [isHexGroup, Bool.and_eq_true, Bool.and_eq_true, decide_eq_true_eq, decide_eq_true_eq,
      List.all_eq_true] at hshape
    obtain ⟨⟨hone, hfour⟩, hdigits⟩ := hshape
    have hnumber : ∃ n, numeral 16 hexValue group = some n :=
      numeralFrom_isSome 0 fun u hu => hexValue_isSome_of_lower (hdigits u hu)
    obtain ⟨n, hn⟩ := hnumber
    obtain ⟨words, heach⟩ := ih fun g hg => h g (List.mem_cons_of_mem _ hg)
    exact ⟨n :: words, .cons ⟨List.length_pos_iff.mp hone, hfour, hn⟩ heach⟩

/-- The groups before and after the double colon of the listed blocks. -/
def ipv6Bases : List (List Utf16 × List Utf16) :=
  [([word "2000"], []), ([], []), ([], [word "ffff", word "0", word "0"]),
    ([word "64", word "ff9b"], []), ([word "64", word "ff9b", word "1"], []), ([word "100"], []),
    ([word "2001"], []), ([word "2001", word "2"], []), ([word "2001", word "10"], []),
    ([word "2001", word "20"], []), ([word "2001", word "db8"], []), ([word "2002"], []),
    ([word "3fff"], []), ([word "5f00"], []), ([word "fc00"], []), ([word "fe80"], []),
    ([word "fec0"], []), ([word "ff00"], [])]

theorem blockedIpv6_texts : ∀ block ∈ routableIpv6 :: blockedIpv6, ∃ b, Ipv6Text block.1 b := by
  have htext : (routableIpv6 :: blockedIpv6).map Prod.fst = ipv6Bases.map fun p =>
      [0x3A].intercalate p.1 ++ 0x3A :: 0x3A :: [0x3A].intercalate p.2 := by decide +kernel
  have hgood : ∀ p ∈ ipv6Bases, (∀ group ∈ p.1, isHexGroup group = true) ∧
      (∀ group ∈ p.2, isHexGroup group = true) ∧ p.1.length + p.2.length ≤ 7 := by
    decide +kernel
  intro block hblock
  have hmem := List.mem_map_of_mem (f := Prod.fst) hblock
  rw [htext] at hmem
  obtain ⟨p, hp, heq⟩ := List.mem_map.mp hmem
  obtain ⟨hleft, hright, hfew⟩ := hgood p hp
  obtain ⟨high, hhigh⟩ := hexGroups_of_lower hleft
  obtain ⟨low, hlow⟩ := hexGroups_of_lower hright
  rw [← heq]
  refine ⟨_, AddressOf.compressed hhigh (.plain hlow) ?_⟩
  rw [← hhigh.length_eq, ← hlow.length_eq]
  exact hfew

/-! ## Public texts -/

/-- A text of an IPv4 address is no text of an IPv6 address for the parser. -/
theorem ipv6Number_of_ipv4 (runtime : AddressRuntime) {text : Utf16} {v : ℕ}
    (h : Ipv4Text text v) : ipv6Number runtime text = none := by
  have hunits : ∀ u ∈ text, u.toNat < 0x80 ∧ u ≠ 0x3A ∧ u ≠ 0x25 := by
    intro u hu
    rcases h.units u hu with rfl | hdigit
    · decide
    · have hrange := decimal_toNat hdigit
      refine ⟨by omega, ?_, ?_⟩ <;> rintro rfl <;> exact absurd hrange (by decide)
  have hvalue : runtime.lower.toLowerCase text = text := by
    rw [runtime.lower.ascii text fun u hu => (hunits u hu).1]
    exact ipv4Text_map_asciiLower text v h
  have hpercent : (0x25 : UInt16) ∉ text := fun hmem => (hunits _ hmem).2.2 rfl
  have hcolon : (0x3A : UInt16) ∉ text := fun hmem => (hunits _ hmem).2.1 rfl
  rw [ipv6Number, hvalue, if_neg hpercent, embedIpv4, if_pos h.point_mem, cutLast?_eq_none hcolon]
  rfl

/-- A text of an IPv6 address is no text of an IPv4 address for the parser. -/
theorem ipv4Number_of_ipv6 {text : Utf16} {v : ℕ} (h : Ipv6Text text v) :
    ipv4Number text = none := by
  have hcolon : (0x3A : UInt16) ∈ text := by
    cases h with
    | full row eight =>
      have hlong : ∀ {texts : List Utf16}, 2 ≤ texts.length →
          (0x3A : UInt16) ∈ [0x3A].intercalate texts := by
        intro texts htexts
        obtain ⟨first, rest, rfl⟩ := List.exists_cons_of_length_pos (l := texts) (by omega)
        obtain ⟨second, rest, rfl⟩ := List.exists_cons_of_length_pos (l := rest)
          (by rw [List.length_cons] at htexts; omega)
        rw [List.intercalate_cons_cons]
        exact List.mem_append_left _ (List.mem_append_right _ (List.mem_singleton_self _))
      refine hlong ?_
      cases row with
      | plain each =>
        rw [each.length_eq]
        omega
      | mixed each last =>
        rw [List.length_append, List.length_cons, List.length_cons, List.length_nil] at eight
        rw [List.length_append, each.length_eq, List.length_singleton]
        omega
    | compressed before after fewer =>
      exact List.mem_append_right _ List.mem_cons_self
  cases hnumber : ipv4Number text with
  | none => rfl
  | some n =>
    exfalso
    rcases (ipv4Text_of_number hnumber).units _ hcolon with heq | hdigit
    · cases heq
    · exact (decimal_ne hdigit).2 rfl

theorem ipv4InCidr_eq {base : Utf16} {b : ℕ} (h : Ipv4Text base b) (v bits : ℕ) :
    ipv4InCidr v base bits = true ↔ SameBlock 32 bits v b := by
  rw [ipv4InCidr, ipv4Number_of_text h, Option.getD_some, decide_eq_true_eq, SameBlock]

theorem ipv6InCidr_eq (runtime : AddressRuntime) {base : Utf16} {b : ℕ} (h : Ipv6Text base b)
    (v bits : ℕ) : ipv6InCidr runtime v base bits = true ↔ SameBlock 128 bits v b := by
  rw [ipv6InCidr, ipv6Number_of_text runtime h, Option.getD_some, decide_eq_true_eq, SameBlock,
    Nat.shiftRight_eq_div_pow, Nat.shiftRight_eq_div_pow]

theorem any_ipv4InCidr (v : ℕ) :
    (blockedIpv4.any fun p => ipv4InCidr v p.1 p.2) = false ↔
      ∀ block ∈ blockedIpv4, ∀ b, Ipv4Text block.1 b → ¬SameBlock 32 block.2 v b := by
  rw [List.any_eq_false]
  constructor
  · intro hout block hblock b hb hsame
    exact hout block hblock ((ipv4InCidr_eq hb v block.2).mpr hsame)
  · intro hout block hblock hin
    obtain ⟨b, hb⟩ := blockedIpv4_texts block hblock
    exact hout block hblock b hb ((ipv4InCidr_eq hb v block.2).mp hin)

theorem any_ipv6InCidr (runtime : AddressRuntime) (v : ℕ) :
    (blockedIpv6.any fun p => ipv6InCidr runtime v p.1 p.2) = false ↔
      ∀ block ∈ blockedIpv6, ∀ b, Ipv6Text block.1 b → ¬SameBlock 128 block.2 v b := by
  rw [List.any_eq_false]
  constructor
  · intro hout block hblock b hb hsame
    exact hout block hblock ((ipv6InCidr_eq runtime hb v block.2).mpr hsame)
  · intro hout block hblock hin
    obtain ⟨b, hb⟩ := blockedIpv6_texts block (List.mem_cons_of_mem _ hblock)
    exact hout block hblock b hb ((ipv6InCidr_eq runtime hb v block.2).mp hin)

/-- **Public IPv4 addresses**: the texts whose number is in no listed block. -/
theorem isPublicIpAddress_ipv4 (runtime : AddressRuntime) {text : Utf16} {v : ℕ}
    (h : Ipv4Text text v) :
    isPublicIpAddress runtime text = true ↔ runtime.isIP text = 4 ∧
      ∀ block ∈ blockedIpv4, ∀ b, Ipv4Text block.1 b → ¬SameBlock 32 block.2 v b := by
  rw [isPublicIpAddress, ← any_ipv4InCidr v]
  by_cases hfour : runtime.isIP text = 4
  · rw [if_pos hfour, ipv4Number_of_text h, and_iff_right hfour]
    show (!_) = true ↔ _
    rw [Bool.not_eq_true']
  · rw [if_neg hfour, ipv6Number_of_ipv4 runtime h]
    constructor
    · intro hpublic
      split_ifs at hpublic
    · exact fun hboth => absurd hboth.1 hfour

/-- **Public IPv6 addresses**: the texts whose number is routable and in no listed block. -/
theorem isPublicIpAddress_ipv6 (runtime : AddressRuntime) {text : Utf16} {v : ℕ}
    (h : Ipv6Text text v) :
    isPublicIpAddress runtime text = true ↔ runtime.isIP text = 6 ∧
      (∀ b, Ipv6Text routableIpv6.1 b → SameBlock 128 routableIpv6.2 v b) ∧
      ∀ block ∈ blockedIpv6, ∀ b, Ipv6Text block.1 b → ¬SameBlock 128 block.2 v b := by
  obtain ⟨routable, hroutable⟩ := blockedIpv6_texts routableIpv6 List.mem_cons_self
  have hin : (∀ b, Ipv6Text routableIpv6.1 b → SameBlock 128 routableIpv6.2 v b) ↔
      ipv6InCidr runtime v routableIpv6.1 routableIpv6.2 = true :=
    ⟨fun hall => (ipv6InCidr_eq runtime hroutable v _).mpr (hall routable hroutable),
      fun hcidr b hb => (ipv6InCidr_eq runtime hb v _).mp hcidr⟩
  rw [isPublicIpAddress, ← any_ipv6InCidr runtime v, hin]
  by_cases hfour : runtime.isIP text = 4
  · rw [if_pos hfour, ipv4Number_of_ipv6 h]
    constructor
    · intro hpublic
      cases hpublic
    · rintro ⟨hsix, -⟩
      omega
  · rw [if_neg hfour]
    by_cases hsix : runtime.isIP text = 6
    · rw [if_pos hsix, ipv6Number_of_text runtime h, and_iff_right hsix]
      show (if _ then _ else _) = true ↔ _
      by_cases hcidr : ipv6InCidr runtime v routableIpv6.1 routableIpv6.2 = true
      · rw [if_pos hcidr, and_iff_right hcidr, Bool.not_eq_true']
      · rw [if_neg hcidr]
        constructor
        · intro hpublic
          cases hpublic
        · exact fun hboth => absurd hboth.1 hcidr
    · rw [if_neg hsix]
      constructor
      · intro hpublic
        cases hpublic
      · exact fun hboth => absurd hboth.1 hsix

/-- **Addresses by their texts**: the parsers give the number a text denotes, whatever its
compression and whatever is embedded in it, and a text is public exactly when the runtime takes it
for one of its family and the number lies outside every listed block. -/
theorem addresses_by_text (runtime : AddressRuntime) :
    (∀ text v, Ipv4Text text v → ipv4Number text = some v ∧
      (isPublicIpAddress runtime text = true ↔ runtime.isIP text = 4 ∧
        ∀ block ∈ blockedIpv4, ∀ b, Ipv4Text block.1 b → ¬SameBlock 32 block.2 v b)) ∧
    (∀ text v, Ipv6Text text v → ipv6Number runtime text = some v ∧
      (isPublicIpAddress runtime text = true ↔ runtime.isIP text = 6 ∧
        (∀ b, Ipv6Text routableIpv6.1 b → SameBlock 128 routableIpv6.2 v b) ∧
        ∀ block ∈ blockedIpv6, ∀ b, Ipv6Text block.1 b → ¬SameBlock 128 block.2 v b)) := by
  refine ⟨fun text v h => ⟨ipv4Number_of_text h, isPublicIpAddress_ipv4 runtime h⟩, ?_⟩
  intro text v h
  exact ⟨ipv6Number_of_text runtime h, isPublicIpAddress_ipv6 runtime h⟩

end AgencCoordination.Worker
