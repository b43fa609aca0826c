import AgencCoordination.Foundations.Bytes
import Mathlib.Data.Vector.Basic

/-!
# Borsh codecs

A codec writes a value as bytes and reads one from the front of a byte string. Borsh has no
padding and no alternative spellings, so a codec carries both directions as fields.

* **`Codec`** — what was written is read back whatever follows, and what was read is what the
  value writes.
* **`Codec.decode_append`** — a read does not look past what it consumed.
* **`number`, `bytes`, `option`, `enum`, `listOf`, `magic`, `seq`, `imap`** — the formats of the
  language, and their composition.
* **`Codec.AtMost`** — a bound on the length of every value, one lemma for each format.
* **`padTo`** — a byte string zero-padded to a length (`padTo_padTo`).
* **`Codec.decode_padTo`** — what a value writes before its trailing zeros, padded with zeros, is
  read as the value.
-/

namespace Foundations

/-- A format: how a value is written, and how one is read from the front of a byte string. -/
structure Codec (α : Type) where
  encode : α → List UInt8
  decode : List UInt8 → Option (α × List UInt8)
  decode_encode : ∀ a rest, decode (encode a ++ rest) = some (a, rest)
  encode_decode : ∀ bytes a rest, decode bytes = some (a, rest) → encode a ++ rest = bytes

/-- A byte string zero-padded to the length `n`, or cut to it. -/
def padTo (n : ℕ) (bytes : List UInt8) : List UInt8 :=
  bytes.take n ++ List.replicate (n - bytes.length) 0

@[simp] theorem length_padTo (n : ℕ) (bytes : List UInt8) : (padTo n bytes).length = n := by
  rw [padTo, List.length_append, List.length_take, List.length_replicate]
  omega

/-- Padding appends zeros to a string that fits. -/
theorem padTo_of_le {n : ℕ} {bytes : List UInt8} (h : bytes.length ≤ n) :
    padTo n bytes = bytes ++ List.replicate (n - bytes.length) 0 := by
  rw [padTo, List.take_of_length_le h]

/-- Padding to a length and then to a larger one is padding to the larger one. -/
theorem padTo_padTo {m n : ℕ} {bytes : List UInt8} (hm : bytes.length ≤ m) (hn : m ≤ n) :
    padTo n (padTo m bytes) = padTo n bytes := by
  have hlen : (padTo m bytes).length ≤ n := (length_padTo m bytes).trans_le hn
  rw [padTo_of_le hlen, padTo_of_le (hm.trans hn), length_padTo, padTo_of_le hm, List.append_assoc,
    List.replicate_append_replicate]
  congr 2
  omega

theorem padTo_self (bytes : List UInt8) : padTo bytes.length bytes = bytes := by
  rw [padTo_of_le (Nat.le_refl _), Nat.sub_self, List.replicate_zero, List.append_nil]

namespace Codec

variable {α β : Type}

/-- A read does not look past what it consumed. -/
theorem decode_append (c : Codec α) {bytes rest : List UInt8} {a : α}
    (h : c.decode bytes = some (a, rest)) (more : List UInt8) :
    c.decode (bytes ++ more) = some (a, rest ++ more) := by
  rw [← c.encode_decode bytes a rest h, List.append_assoc, c.decode_encode]

/-- Two values are written alike only if they are equal. -/
theorem encode_inj (c : Codec α) {a b : α} (h : c.encode a = c.encode b) : a = b := by
  have ha := c.decode_encode a []
  rw [h, c.decode_encode] at ha
  exact (Prod.mk.inj (Option.some.inj ha)).1.symm

/-- No value takes more than `n` bytes. -/
def AtMost (c : Codec α) (n : ℕ) : Prop := ∀ a, (c.encode a).length ≤ n

/-- Every value takes `n` bytes. -/
def Width (c : Codec α) (n : ℕ) : Prop := ∀ a, (c.encode a).length = n

theorem Width.atMost {c : Codec α} {n : ℕ} (h : c.Width n) : c.AtMost n :=
  fun a => (h a).le

/-! ## Fixed width -/

/-- `n` raw bytes. -/
def bytes (n : ℕ) : Codec (Bytes n) where
  encode b := b.data
  decode xs :=
    if h : n ≤ xs.length then some (⟨xs.take n, List.length_take_of_le h⟩, xs.drop n) else none
  decode_encode b rest := by
    have hle : n ≤ (b.data ++ rest).length := by
      rw [List.length_append, b.length_eq]
      omega
    rw [dif_pos hle]
    refine congrArg some (Prod.ext (Bytes.ext ?_) ?_)
    · exact List.take_left' b.length_eq
    · exact List.drop_left' b.length_eq
  encode_decode xs b rest h := by
    by_cases hle : n ≤ xs.length
    · rw [dif_pos hle] at h
      obtain ⟨rfl, rfl⟩ := Prod.mk.inj (Option.some.inj h)
      exact List.take_append_drop n xs
    · rw [dif_neg hle] at h
      cases h

theorem bytes_width (n : ℕ) : (bytes n).Width n := fun b => b.length_eq

/-- An enumeration without fields: the position of the variant. -/
def enum [DecidableEq α] (variants : List α) (hall : ∀ a, a ∈ variants) (hnodup : variants.Nodup)
    (hlen : variants.length ≤ 256) : Codec α where
  encode a := [UInt8.ofNat (variants.idxOf a)]
  decode
    | [] => none
    | b :: rest => variants[b.toNat]?.map fun a => (a, rest)
  decode_encode a rest := by
    have hlt : variants.idxOf a < variants.length := List.idxOf_lt_length_of_mem (hall a)
    have htag : (UInt8.ofNat (variants.idxOf a)).toNat = variants.idxOf a :=
      UInt8.toNat_ofNat_of_lt' (hlt.trans_le hlen)
    show (variants[(UInt8.ofNat (variants.idxOf a)).toNat]?).map _ = _
    rw [htag, List.getElem?_eq_getElem hlt, List.getElem_idxOf hlt]
    rfl
  encode_decode xs a rest h := by
    cases xs with
    | nil => cases h
    | cons b xs =>
      obtain ⟨a', hvariant, heq⟩ := Option.map_eq_some_iff.mp h
      obtain ⟨rfl, rfl⟩ := Prod.mk.inj heq
      obtain ⟨hlt, rfl⟩ := List.getElem?_eq_some_iff.mp hvariant
      show UInt8.ofNat (variants.idxOf variants[b.toNat]) :: xs = b :: xs
      rw [hnodup.idxOf_getElem b.toNat hlt, UInt8.ofNat_toNat]

theorem enum_width [DecidableEq α] {variants : List α} {hall hnodup hlen} :
    (enum variants hall hnodup hlen).Width 1 := fun _ => rfl

/-- A boolean: `0` or `1`, and no other byte. -/
def bool : Codec Bool := enum [false, true] (by decide) (by decide) (by decide)

/-- Fixed bytes in front of a value. -/
def magic (mark : List UInt8) : Codec Unit where
  encode _ := mark
  decode xs := if xs.take mark.length = mark then some ((), xs.drop mark.length) else none
  decode_encode _ rest := by
    rw [List.take_left, if_pos rfl, List.drop_left]
  encode_decode xs _ rest h := by
    by_cases hmark : xs.take mark.length = mark
    · rw [if_pos hmark] at h
      obtain ⟨-, rfl⟩ := Prod.mk.inj (Option.some.inj h)
      calc mark ++ xs.drop mark.length
          = xs.take mark.length ++ xs.drop mark.length := by rw [hmark]
        _ = xs := List.take_append_drop _ _
    · rw [if_neg hmark] at h
      cases h

theorem magic_width (mark : List UInt8) : (magic mark).Width mark.length := fun _ => rfl

/-- A byte. -/
def u8 : Codec UInt8 where
  encode b := [b]
  decode
    | [] => none
    | b :: rest => some (b, rest)
  decode_encode _ _ := rfl
  encode_decode xs b rest h := by
    cases xs with
    | nil => cases h
    | cons b' xs =>
      obtain ⟨rfl, rfl⟩ := Prod.mk.inj (Option.some.inj h)
      rfl

theorem u8_width : u8.Width 1 := fun _ => rfl

/-! ## Composition -/

/-- One field after another. -/
def seq (c : Codec α) (d : Codec β) : Codec (α × β) where
  encode p := c.encode p.1 ++ d.encode p.2
  decode xs :=
    match c.decode xs with
    | none => none
    | some (a, rest) => (d.decode rest).map fun p => ((a, p.1), p.2)
  decode_encode p rest := by
    rw [List.append_assoc, c.decode_encode]
    simp only [d.decode_encode, Option.map_some]
  encode_decode xs p rest h := by
    split at h
    · cases h
    · next a rest' hfirst =>
      obtain ⟨⟨b, rest''⟩, hsecond, heq⟩ := Option.map_eq_some_iff.mp h
      cases heq
      rw [List.append_assoc, d.encode_decode _ _ _ hsecond, c.encode_decode _ _ _ hfirst]

theorem AtMost.seq {c : Codec α} {d : Codec β} {m n : ℕ} (hc : c.AtMost m) (hd : d.AtMost n) :
    (c.seq d).AtMost (m + n) := by
  intro p
  show (c.encode p.1 ++ d.encode p.2).length ≤ m + n
  rw [List.length_append]
  exact Nat.add_le_add (hc p.1) (hd p.2)

theorem Width.seq {c : Codec α} {d : Codec β} {m n : ℕ} (hc : c.Width m) (hd : d.Width n) :
    (c.seq d).Width (m + n) := by
  intro p
  show (c.encode p.1 ++ d.encode p.2).length = m + n
  rw [List.length_append, hc, hd]

/-- The same bytes under another type. -/
def imap (c : Codec α) (f : α → β) (g : β → α) (hgf : ∀ a, g (f a) = a) (hfg : ∀ b, f (g b) = b) :
    Codec β where
  encode b := c.encode (g b)
  decode xs := (c.decode xs).map fun p => (f p.1, p.2)
  decode_encode b rest := by
    rw [c.decode_encode]
    show some (f (g b), rest) = some (b, rest)
    rw [hfg]
  encode_decode xs b rest h := by
    obtain ⟨⟨a, rest'⟩, hread, heq⟩ := Option.map_eq_some_iff.mp h
    obtain ⟨rfl, rfl⟩ := Prod.mk.inj heq
    show c.encode (g (f a)) ++ rest' = xs
    rw [hgf, c.encode_decode _ _ _ hread]

theorem AtMost.imap {c : Codec α} {f : α → β} {g : β → α} {hgf hfg} {n : ℕ} (h : c.AtMost n) :
    (c.imap f g hgf hfg).AtMost n := fun b => h (g b)

theorem Width.imap {c : Codec α} {f : α → β} {g : β → α} {hgf hfg} {n : ℕ} (h : c.Width n) :
    (c.imap f g hgf hfg).Width n := fun b => h (g b)

/-- A number in `n` bytes, least significant first. -/
def number (n : ℕ) (ofNat : ℕ → α) (toNat : α → ℕ) (hlt : ∀ a, toNat a < 256 ^ n)
    (hof : ∀ a, ofNat (toNat a) = a) (hto : ∀ k, k < 256 ^ n → toNat (ofNat k) = k) : Codec α :=
  (bytes n).imap (fun b => ofNat (Bytes.ofLittleEndian b.data))
    (fun a => ⟨Bytes.littleEndian n (toNat a), Bytes.length_littleEndian n _⟩)
    (fun b => by
      have hbound : Bytes.ofLittleEndian b.data < 256 ^ n := by
        have := Bytes.ofLittleEndian_lt b.data
        rwa [b.length_eq] at this
      refine Bytes.ext ?_
      show Bytes.littleEndian n (toNat (ofNat (Bytes.ofLittleEndian b.data))) = b.data
      have hback := Bytes.littleEndian_ofLittleEndian b.data
      rw [b.length_eq] at hback
      rw [hto _ hbound, hback])
    (fun a => by
      show ofNat (Bytes.ofLittleEndian (Bytes.littleEndian n (toNat a))) = a
      rw [Bytes.ofLittleEndian_littleEndian, Nat.mod_eq_of_lt (hlt a), hof])

theorem number_width {n : ℕ} {ofNat : ℕ → α} {toNat : α → ℕ} {hlt hof hto} :
    (number n ofNat toNat hlt hof hto).Width n := fun a => Bytes.length_littleEndian n (toNat a)

def u16 : Codec UInt16 :=
  number 2 UInt16.ofNat UInt16.toNat UInt16.toNat_lt (fun _ => UInt16.ofNat_toNat)
    (fun _ h => UInt16.toNat_ofNat_of_lt' h)

def u32 : Codec UInt32 :=
  number 4 UInt32.ofNat UInt32.toNat UInt32.toNat_lt (fun _ => UInt32.ofNat_toNat)
    (fun _ h => UInt32.toNat_ofNat_of_lt' h)

def u64 : Codec UInt64 :=
  number 8 UInt64.ofNat UInt64.toNat UInt64.toNat_lt (fun _ => UInt64.ofNat_toNat)
    (fun _ h => UInt64.toNat_ofNat_of_lt' h)

/-- A signed number, as its two's complement. -/
def i64 : Codec Int64 :=
  u64.imap UInt64.toInt64 Int64.toUInt64 (fun _ => rfl) (fun _ => rfl)

theorem u16_width : u16.Width 2 := number_width

theorem u32_width : u32.Width 4 := number_width

theorem u64_width : u64.Width 8 := number_width

theorem i64_width : i64.Width 8 := u64_width.imap

/-- An optional field: `0`, or `1` and the value. -/
def option (c : Codec α) : Codec (Option α) where
  encode
    | none => [0]
    | some a => 1 :: c.encode a
  decode
    | [] => none
    | b :: rest =>
      if b = 0 then some (none, rest)
      else if b = 1 then (c.decode rest).map fun p => (some p.1, p.2)
      else none
  decode_encode o rest := by
    cases o with
    | none => rfl
    | some a =>
      show (c.decode (c.encode a ++ rest)).map _ = _
      rw [c.decode_encode]
      rfl
  encode_decode xs o rest h := by
    cases xs with
    | nil => cases h
    | cons b xs =>
      by_cases hzero : b = 0
      · simp only [if_pos hzero, Option.some.injEq, Prod.mk.injEq] at h
        obtain ⟨rfl, rfl⟩ := h
        rw [hzero]
        rfl
      · by_cases hone : b = 1
        · simp only [if_neg hzero, if_pos hone] at h
          obtain ⟨⟨a, rest'⟩, hread, heq⟩ := Option.map_eq_some_iff.mp h
          obtain ⟨rfl, rfl⟩ := Prod.mk.inj heq
          rw [hone]
          show 1 :: (c.encode a ++ rest') = 1 :: xs
          rw [c.encode_decode _ _ _ hread]
        · simp only [if_neg hzero, if_neg hone] at h
          cases h

theorem AtMost.option {c : Codec α} {n : ℕ} (h : c.AtMost n) : c.option.AtMost (1 + n) := by
  intro o
  cases o with
  | none => exact Nat.le_add_right 1 n
  | some a =>
    show (c.encode a).length + 1 ≤ 1 + n
    have := h a
    omega

/-- `n` values one after another. -/
def listOf (c : Codec α) : (n : ℕ) → Codec (List.Vector α n)
  | 0 =>
    { encode := fun _ => []
      decode := fun xs => some (List.Vector.nil, xs)
      decode_encode := fun v _ => by rw [List.Vector.eq_nil v]; rfl
      encode_decode := fun _ _ _ h => by cases h; rfl }
  | n + 1 =>
    (c.seq (c.listOf n)).imap (fun p => List.Vector.cons p.1 p.2) (fun v => (v.head, v.tail))
      (fun _ => rfl) (fun v => List.Vector.cons_head_tail v)

theorem Width.listOf {c : Codec α} {m : ℕ} (h : c.Width m) (n : ℕ) :
    (c.listOf n).Width (n * m) := by
  induction n with
  | zero =>
    intro v
    rw [Nat.zero_mul]
    rfl
  | succ n ih =>
    rw [Nat.succ_mul, Nat.add_comm (n * m)]
    exact (h.seq ih).imap

/-! ## Padding -/

/-- What a value writes before its trailing zeros, padded with zeros, is read as the value. -/
theorem decode_padTo (c : Codec α) {n k : ℕ} {short : List UInt8} {a : α}
    (hshort : c.encode a = short ++ List.replicate k 0) (hlen : short.length + k ≤ n) :
    c.decode (padTo n short) = some (a, List.replicate (n - short.length - k) 0) := by
  have hpadded : padTo n short = c.encode a ++ List.replicate (n - short.length - k) 0 := by
    rw [padTo_of_le (by omega), hshort, List.append_assoc, List.replicate_append_replicate]
    congr 2
    omega
  rw [hpadded, c.decode_encode]

end Codec

end Foundations
