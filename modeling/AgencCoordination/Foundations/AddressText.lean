import AgencCoordination.Foundations.HexText
import AgencCoordination.Foundations.TextCuts

/-!
# The text of an internet address

An IPv4 address is four decimal octets with points between them. An IPv6 address is eight groups of
hexadecimal digits with colons between them; a run of zero groups may be left out for a double
colon, once, and the last two groups may be written as an IPv4 address.

* **`Ipv4Text`, `Ipv6Text`** — which text denotes which number, for every compression and every
  embedded IPv4 address.
* **`SameBlock`** — two addresses agree on the leading bits.
-/

namespace Foundations

open JsonValue (hexUnit hexValue hexValue_hexUnit)

/-! ## Numerals -/

/-- The number of a run of digits, read on from a number. -/
def numeralFrom (base : ℕ) (digit : UInt16 → Option ℕ) : ℕ → Utf16 → Option ℕ
  | n, [] => some n
  | n, u :: rest => (digit u).bind fun d => numeralFrom base digit (n * base + d) rest

/-- The number of a run of digits. -/
def numeral (base : ℕ) (digit : UInt16 → Option ℕ) (text : Utf16) : Option ℕ :=
  numeralFrom base digit 0 text

/-- The value of a decimal digit. -/
def decimalValue (u : UInt16) : Option ℕ :=
  if 0x30 ≤ u.toNat ∧ u.toNat ≤ 0x39 then some (u.toNat - 0x30) else none

section Numerals

variable {base : ℕ} {digit : UInt16 → Option ℕ}

theorem numeralFrom_append (n : ℕ) (text text' : Utf16) :
    numeralFrom base digit n (text ++ text') =
      (numeralFrom base digit n text).bind fun m => numeralFrom base digit m text' := by
  induction text generalizing n with
  | nil => rfl
  | cons u rest ih =>
    rw [List.cons_append, numeralFrom, numeralFrom]
    cases digit u with
    | none => rfl
    | some d => exact ih _

theorem digits_of_numeralFrom {n m : ℕ} {text : Utf16}
    (h : numeralFrom base digit n text = some m) : ∀ u ∈ text, (digit u).isSome = true := by
  induction text generalizing n with
  | nil => exact fun u hu => absurd hu List.not_mem_nil
  | cons v rest ih =>
    rw [numeralFrom] at h
    obtain ⟨d, hd, hrest⟩ := Option.bind_eq_some_iff.mp h
    intro u hu
    rcases List.mem_cons.mp hu with rfl | hu
    · rw [hd]
      rfl
    · exact ih hrest u hu

/-- Digits of the same value give the same number. -/
theorem numeralFrom_map {f : UInt16 → UInt16} {text : Utf16} (n : ℕ)
    (h : ∀ u ∈ text, digit (f u) = digit u) :
    numeralFrom base digit n (text.map f) = numeralFrom base digit n text := by
  induction text generalizing n with
  | nil => rfl
  | cons u rest ih =>
    rw [List.map_cons, numeralFrom, numeralFrom, h u List.mem_cons_self]
    exact Option.bind_congr fun d _ => ih _ fun v hv => h v (List.mem_cons_of_mem _ hv)

theorem numeralFrom_lt (hdigit : ∀ u d, digit u = some d → d < base) {n m k : ℕ} {text : Utf16}
    (h : numeralFrom base digit n text = some m) (hn : n < base ^ k) :
    m < base ^ (k + text.length) := by
  induction text generalizing n k with
  | nil =>
    cases h
    exact hn
  | cons u rest ih =>
    rw [numeralFrom] at h
    obtain ⟨d, hd, hrest⟩ := Option.bind_eq_some_iff.mp h
    have hstep : n * base + d < base ^ (k + 1) := by
      have hd := hdigit u d hd
      calc n * base + d < n * base + base := by omega
        _ = (n + 1) * base := by rw [Nat.add_mul, Nat.one_mul]
        _ ≤ base ^ k * base := Nat.mul_le_mul_right base hn
        _ = base ^ (k + 1) := (Nat.pow_succ ..).symm
    have hlt := ih hrest hstep
    rwa [List.length_cons, Nat.add_comm rest.length, ← Nat.add_assoc]

end Numerals

theorem hexValue_lt {u : UInt16} {d : ℕ} (h : hexValue u = some d) : d < 16 := by
  unfold hexValue at h
  split_ifs at h <;> simp only [Option.some.injEq] at h <;> omega

/-- A number in hexadecimal, in lower case (`toString(16)`). -/
def hexNumeral (n : ℕ) : Utf16 :=
  if n = 0 then [0x30] else (Nat.digits 16 n).reverse.map hexUnit

theorem numeralFrom_hexUnits {digits : List ℕ} (h : ∀ d ∈ digits, d < 16) :
    numeralFrom 16 hexValue 0 (digits.reverse.map hexUnit) = some (Nat.ofDigits 16 digits) := by
  induction digits with
  | nil => rfl
  | cons d digits ih =>
    rw [List.reverse_cons, List.map_append, numeralFrom_append,
      ih fun d' hd' => h d' (List.mem_cons_of_mem _ hd'), Option.bind_some, List.map_singleton,
      numeralFrom, hexValue_hexUnit (h d List.mem_cons_self), Option.bind_some, numeralFrom,
      Nat.ofDigits_cons]
    congr 1
    omega

theorem numeral_hexNumeral (n : ℕ) : numeral 16 hexValue (hexNumeral n) = some n := by
  rw [hexNumeral]
  split_ifs with hzero
  · rw [hzero]
    rfl
  · rw [numeral, numeralFrom_hexUnits fun d hd => Nat.digits_lt_base (by omega) hd,
      Nat.ofDigits_digits]

theorem length_hexNumeral {n : ℕ} (h : n < 65536) :
    1 ≤ (hexNumeral n).length ∧ (hexNumeral n).length ≤ 4 := by
  rw [hexNumeral]
  split_ifs with hzero
  · exact ⟨le_rfl, by decide⟩
  · rw [List.length_map, List.length_reverse]
    refine ⟨?_, ?_⟩
    · rw [Nat.one_le_iff_ne_zero, ne_eq, List.length_eq_zero_iff, Nat.digits_eq_nil_iff_eq_zero]
      exact hzero
    · exact (Nat.digits_length_le_iff (by omega) n).mpr h

/-! ## IPv4 -/

theorem forall₂_left {α β : Type} {R : α → β → Prop} {l : List α} {l' : List β}
    (h : List.Forall₂ R l l') {a : α} (ha : a ∈ l) : ∃ b ∈ l', R a b := by
  induction h with
  | nil => cases ha
  | cons hr hrest ih =>
    rcases List.mem_cons.mp ha with rfl | ha
    · exact ⟨_, List.mem_cons_self, hr⟩
    · obtain ⟨b, hb, hab⟩ := ih ha
      exact ⟨b, List.mem_cons_of_mem _ hb, hab⟩

theorem forall₂_right {α β : Type} {R : α → β → Prop} {l : List α} {l' : List β}
    (h : List.Forall₂ R l l') {b : β} (hb : b ∈ l') : ∃ a ∈ l, R a b := by
  obtain ⟨a, ha, hab⟩ := forall₂_left h.flip hb
  exact ⟨a, ha, hab⟩

/-- One to three decimal digits of a number up to 255. -/
structure Octet (text : Utf16) (n : ℕ) : Prop where
  nonempty : text ≠ []
  short : text.length ≤ 3
  value : numeral 10 decimalValue text = some n
  small : n ≤ 255

/-- Numbers below a base, the leading one first, as one number. -/
def positional (base : ℕ) (parts : List ℕ) : ℕ := parts.foldl (fun n p => n * base + p) 0

/-- Four octets with points between them denote the number they are the bytes of. -/
inductive Ipv4Text : Utf16 → ℕ → Prop
  | quad {parts : List Utf16} {octets : List ℕ} (each : List.Forall₂ Octet parts octets)
      (four : parts.length = 4) : Ipv4Text ([0x2E].intercalate parts) (positional 256 octets)

/-- The units of an IPv4 address are digits and points. -/
theorem Ipv4Text.units {text : Utf16} {v : ℕ} (h : Ipv4Text text v) :
    ∀ u ∈ text, u = 0x2E ∨ (decimalValue u).isSome = true := by
  obtain ⟨heach, -⟩ := h
  intro u hu
  rcases mem_intercalate hu with rfl | ⟨part, hpart, hmem⟩
  · exact .inl rfl
  · obtain ⟨octet, -, hoctet⟩ := forall₂_left heach hpart
    exact .inr (digits_of_numeralFrom hoctet.value u hmem)

/-- There is a point in an IPv4 address. -/
theorem Ipv4Text.point_mem {text : Utf16} {v : ℕ} (h : Ipv4Text text v) : 0x2E ∈ text := by
  obtain ⟨-, hfour⟩ := h
  rename_i parts octets
  cases parts with
  | nil => cases hfour
  | cons part parts =>
    cases parts with
    | nil => cases hfour
    | cons next parts =>
      rw [List.intercalate_cons_cons]
      simp only [List.mem_append, List.mem_singleton, true_or, or_true]

/-- The number of an IPv4 address has 32 bits. -/
theorem Ipv4Text.lt {text : Utf16} {v : ℕ} (h : Ipv4Text text v) : v < 2 ^ 32 := by
  obtain ⟨heach, hfour⟩ := h
  rename_i parts octets
  have hlength : octets.length = 4 := heach.length_eq ▸ hfour
  have hsmall : ∀ o ∈ octets, o ≤ 255 := by
    intro o ho
    obtain ⟨part, -, hoctet⟩ := forall₂_right heach ho
    exact hoctet.small
  obtain ⟨a, b, c, d, rfl⟩ := List.length_eq_four.mp hlength
  have ha := hsmall a (by simp)
  have hb := hsmall b (by simp)
  have hc := hsmall c (by simp)
  have hd := hsmall d (by simp)
  simp only [positional, List.foldl_cons, List.foldl_nil]
  omega

/-! ## IPv6 -/

/-- One to four hexadecimal digits of either case. -/
structure HexGroup (text : Utf16) (n : ℕ) : Prop where
  nonempty : text ≠ []
  short : text.length ≤ 4
  value : numeral 16 hexValue text = some n

/-- Groups in a row; the last two may be one IPv4 address. -/
inductive GroupRow (Group : Utf16 → ℕ → Prop) : List Utf16 → List ℕ → Prop
  | plain {texts : List Utf16} {words : List ℕ} (each : List.Forall₂ Group texts words) :
      GroupRow Group texts words
  | mixed {texts : List Utf16} {words : List ℕ} {quad : Utf16} {v : ℕ}
      (each : List.Forall₂ Group texts words) (last : Ipv4Text quad v) :
      GroupRow Group (texts ++ [quad]) (words ++ [v / 65536, v % 65536])

/-- The texts of IPv6 addresses over a way to write a group and one to write the last groups: eight
groups in a row, or fewer with a double colon for the zeros between them. -/
inductive AddressOf (Group : Utf16 → ℕ → Prop) (Row : List Utf16 → List ℕ → Prop) :
    Utf16 → ℕ → Prop
  | full {texts : List Utf16} {words : List ℕ} (row : Row texts words)
      (eight : words.length = 8) :
      AddressOf Group Row ([0x3A].intercalate texts) (positional 65536 words)
  | compressed {left right : List Utf16} {high low : List ℕ}
      (before : List.Forall₂ Group left high) (after : Row right low)
      (fewer : high.length + low.length ≤ 7) :
      AddressOf Group Row
        ([0x3A].intercalate left ++ 0x3A :: 0x3A :: [0x3A].intercalate right)
        (positional 65536 (high ++ List.replicate (8 - high.length - low.length) 0 ++ low))

/-- The texts of IPv6 addresses, in either case. -/
def Ipv6Text : Utf16 → ℕ → Prop := AddressOf HexGroup (GroupRow HexGroup)

/-- Texts of addresses under a change of units that keeps separators, groups and rows. -/
theorem AddressOf.map {Group Group' : Utf16 → ℕ → Prop} {Row Row' : List Utf16 → List ℕ → Prop}
    {f : UInt16 → UInt16} (hcolon : f 0x3A = 0x3A)
    (hgroup : ∀ t n, Group t n → Group' (t.map f) n)
    (hrow : ∀ ts ws, Row ts ws → Row' (ts.map (List.map f)) ws) {text : Utf16} {v : ℕ}
    (h : AddressOf Group Row text v) : AddressOf Group' Row' (text.map f) v := by
  cases h with
  | full row eight =>
    rw [map_intercalate, List.map_singleton, hcolon]
    exact .full (hrow _ _ row) eight
  | compressed before after fewer =>
    rw [List.map_append, List.map_cons, List.map_cons, map_intercalate, map_intercalate,
      List.map_singleton, hcolon]
    refine .compressed ?_ (hrow _ _ after) fewer
    rw [List.forall₂_map_left_iff]
    exact before.imp hgroup

/-- Rows of groups under such a change, when it keeps IPv4 addresses too. -/
theorem GroupRow.map {Group Group' : Utf16 → ℕ → Prop} {f : UInt16 → UInt16}
    (hgroup : ∀ t n, Group t n → Group' (t.map f) n)
    (hquad : ∀ t v, Ipv4Text t v → t.map f = t) (texts : List Utf16) (words : List ℕ)
    (h : GroupRow Group texts words) : GroupRow Group' (texts.map (List.map f)) words := by
  cases h with
  | plain each =>
    refine .plain ?_
    rw [List.forall₂_map_left_iff]
    exact each.imp hgroup
  | mixed each last =>
    rw [List.map_append, List.map_singleton, hquad _ _ last]
    refine .mixed ?_ last
    rw [List.forall₂_map_left_iff]
    exact each.imp hgroup

/-! ## Blocks -/

/-- Two addresses of a width agree on their leading bits. -/
def SameBlock (width bits a b : ℕ) : Prop := a / 2 ^ (width - bits) = b / 2 ^ (width - bits)

instance (width bits a b : ℕ) : Decidable (SameBlock width bits a b) :=
  inferInstanceAs (Decidable (_ = _))

end Foundations
