import AgencCoordination.Foundations.Guard
import AgencCoordination.Sdk.MarketplaceWrite

/-!
# History decoding is exact

A decoder that is put together from readers reads the encodings of its fields, each where the field
before it ends. The tag of the optional field stands at a fixed byte (56 for a hire, 64 for a
humanless one), so that the check in front of the decoder covers what Kit leaves open.

* **`option_bind_reads`** — an optional field with a canonical tag.
* **`string_reads`** — a string with its size in front.
* **`decode_eq_some`** — what decodes is an encoding, and every encoding decodes.
* **`marketplaceWrite_decoding_exact`** — the three outcomes, and one value for a byte string.
-/

namespace AgencCoordination.Sdk

open Foundations

/-! ## Readers -/

section readers

variable {α β : Type} {data : List UInt8} {offset offset' : ℕ}

theorem bind_reads {r : Reader α} {c : Codec α} (hr : Reads r c) (f : α → Reader β) (b : β) :
    (r >>= f) data offset = some (b, offset') ↔
      ∃ a, c.encode a <+: data.drop offset ∧
        f a data (offset + (c.encode a).length) = some (b, offset') := by
  constructor
  · intro h
    obtain ⟨⟨a, next⟩, hread, hrest⟩ := Option.bind_eq_some_iff.mp h
    obtain ⟨hfront, rfl⟩ := (hr data offset a next).mp hread
    exact ⟨a, hfront, hrest⟩
  · rintro ⟨a, hfront, hrest⟩
    exact Option.bind_eq_some_iff.mpr ⟨(a, _), (hr data offset a _).mpr ⟨hfront, rfl⟩, hrest⟩

theorem pure_reads (a b : α) :
    (pure a : Reader α) data offset = some (b, offset') ↔ a = b ∧ offset = offset' := by
  change some (a, offset) = some (b, offset') ↔ _
  rw [Option.some.injEq, Prod.mk.injEq]

/-- Fields in a row stand where the field before them ends. -/
theorem append_prefix_drop (a b : List UInt8) :
    a ++ b <+: data.drop offset ↔
      a <+: data.drop offset ∧ b <+: data.drop (offset + a.length) := by
  constructor
  · rintro ⟨rest, hrest⟩
    rw [List.append_assoc] at hrest
    refine ⟨⟨b ++ rest, hrest⟩, rest, ?_⟩
    rw [← List.drop_drop, ← hrest, List.drop_left]
  · rintro ⟨⟨tail, htail⟩, rest, hrest⟩
    rw [← List.drop_drop, ← htail, List.drop_left] at hrest
    exact ⟨rest, by rw [List.append_assoc, hrest, htail]⟩

theorem cons_prefix_drop (b : UInt8) (a : List UInt8) :
    b :: a <+: data.drop offset ↔
      data[offset]? = some b ∧ a <+: data.drop (offset + 1) := by
  rw [← List.singleton_append, append_prefix_drop, List.length_singleton]
  refine and_congr_left fun _ => ?_
  rw [← List.head?_drop]
  cases data.drop offset with
  | nil => simp only [List.prefix_nil, List.cons_ne_nil, List.head?_nil, reduceCtorEq]
  | cons b' rest =>
    rw [List.head?_cons, Option.some.injEq, List.cons_prefix_cons]
    exact ⟨fun h => h.1.symm, fun h => ⟨h.symm, List.nil_prefix⟩⟩

/-- An optional field with a canonical tag. -/
theorem option_bind_reads (k : Kit) {r : Reader α} {c : Codec α} (hr : Reads r c)
    (htag : data[offset]? = some 0 ∨ data[offset]? = some 1) (f : Option α → Reader β) (b : β) :
    (k.option r >>= f) data offset = some (b, offset') ↔
      ∃ o, (Codec.option c).encode o <+: data.drop offset ∧
        f o data (offset + ((Codec.option c).encode o).length) = some (b, offset') := by
  have hnone : (Codec.option c).encode none <+: data.drop offset ↔ data[offset]? = some 0 := by
    change 0 :: [] <+: data.drop offset ↔ _
    rw [cons_prefix_drop, and_iff_left List.nil_prefix]
  have hsome : ∀ a, (Codec.option c).encode (some a) <+: data.drop offset ↔
      data[offset]? = some 1 ∧ c.encode a <+: data.drop (offset + 1) := fun a =>
    cons_prefix_drop 1 (c.encode a)
  have hlength : ∀ a, ((Codec.option c).encode (some a)).length = 1 + (c.encode a).length :=
    fun a => Nat.add_comm _ 1
  change (k.option r data offset).bind _ = _ ↔ _
  constructor
  · intro h
    obtain ⟨⟨o, next⟩, hread, hrest⟩ := Option.bind_eq_some_iff.mp h
    rcases htag with htag | htag
    · rw [k.option_none r data offset htag, Option.some.injEq, Prod.mk.injEq] at hread
      obtain ⟨rfl, rfl⟩ := hread
      exact ⟨none, hnone.mpr htag, hrest⟩
    · rw [k.option_some r data offset htag] at hread
      obtain ⟨⟨a, next'⟩, hvalue, heq⟩ := Option.map_eq_some_iff.mp hread
      obtain ⟨rfl, rfl⟩ := Prod.mk.inj heq
      obtain ⟨hfront, rfl⟩ := (hr _ _ _ _).mp hvalue
      refine ⟨some a, (hsome a).mpr ⟨htag, hfront⟩, ?_⟩
      rw [hlength, ← Nat.add_assoc]
      exact hrest
  · rintro ⟨o, hfront, hrest⟩
    refine Option.bind_eq_some_iff.mpr ?_
    cases o with
    | none => exact ⟨_, k.option_none r data offset (hnone.mp hfront), hrest⟩
    | some a =>
      obtain ⟨hone, hvalue⟩ := (hsome a).mp hfront
      refine ⟨(some a, _), ?_, hrest⟩
      rw [k.option_some r data offset hone, (hr _ _ a _).mpr ⟨hvalue, rfl⟩, hlength,
        ← Nat.add_assoc]
      rfl

end readers

/-! ## Strings -/

theorem u32_length (n : UInt32) : (Codec.u32.encode n).length = 4 := Codec.u32_width n

/-- A string decoder reads the Borsh strings that fit a size prefix. -/
theorem string_reads (k : Kit) {data : List UInt8} {offset offset' : ℕ} {text : List Char} :
    k.sizePrefix borshStringDecoder k.u32 data offset = some (text, offset') ↔
      (Utf8.encode text).length < 2 ^ 32 ∧ borshString text <+: data.drop offset ∧
        offset' = offset + (borshString text).length := by
  have hlength : (borshString text).length = 4 + (Utf8.encode text).length := by
    rw [borshString, List.length_append, u32_length]
  rw [k.sizePrefix_eq, Option.bind_eq_some_iff]
  constructor
  · rintro ⟨⟨n, start⟩, hsize, hrest⟩
    obtain ⟨hfront, rfl⟩ := (k.u32_reads data offset n start).mp hsize
    rw [u32_length] at hrest
    dsimp only at hrest
    split_ifs at hrest with hshort
    obtain ⟨⟨text', next⟩, hinner, heq⟩ := Option.map_eq_some_iff.mp hrest
    obtain ⟨rfl, rfl⟩ := Prod.mk.inj heq
    obtain ⟨text', hdecode, hpair⟩ := Option.map_eq_some_iff.mp hinner
    obtain ⟨rfl, rfl⟩ := Prod.mk.inj hpair
    rw [List.drop_zero, Utf8.decode_eq_some] at hdecode
    have hencoded : (Utf8.encode text').length = n.toNat := by
      rw [← hdecode, List.length_take, List.length_drop]
      omega
    have hn : UInt32.ofNat (Utf8.encode text').length = n := by
      rw [hencoded, UInt32.ofNat_toNat]
    refine ⟨?_, ?_, ?_⟩
    · rw [hencoded]
      exact n.toNat_lt
    · rw [borshString, hn, append_prefix_drop, u32_length]
      refine ⟨hfront, ?_⟩
      rw [← hdecode]
      exact List.take_prefix _ _
    · rw [hlength, hencoded, Nat.add_assoc]
  · rintro ⟨hbound, hfront, rfl⟩
    rw [borshString, append_prefix_drop, u32_length] at hfront
    obtain ⟨hsize, htext⟩ := hfront
    have hn : (UInt32.ofNat (Utf8.encode text).length).toNat = (Utf8.encode text).length :=
      UInt32.toNat_ofNat_of_lt' hbound
    refine ⟨(UInt32.ofNat (Utf8.encode text).length, offset + 4),
      (k.u32_reads _ _ _ _).mpr ⟨hsize, by rw [u32_length]⟩, ?_⟩
    have hfits := htext.length_le
    rw [List.length_drop] at hfits
    have hroom : ¬data.length < offset + 4 + (UInt32.ofNat (Utf8.encode text).length).toNat := by
      have hstart := hsize.length_le
      rw [List.length_drop, u32_length] at hstart
      omega
    rw [if_neg hroom, hn]
    have hslice : (data.drop (offset + 4)).take (Utf8.encode text).length = Utf8.encode text :=
      (List.prefix_iff_eq_take.mp htext).symm
    have hdecode : Utf8.decode (Utf8.encode text) = some text := Utf8.decode_encode text
    simp only [borshStringDecoder, List.drop_zero, hslice, hdecode, Option.map_some, hlength,
      Nat.add_assoc]

theorem string_bind_reads (k : Kit) {β : Type} {data : List UInt8} {offset offset' : ℕ}
    (f : List Char → Reader β) (b : β) :
    (k.sizePrefix borshStringDecoder k.u32 >>= f) data offset = some (b, offset') ↔
      ∃ text, (Utf8.encode text).length < 2 ^ 32 ∧ borshString text <+: data.drop offset ∧
        f text data (offset + (borshString text).length) = some (b, offset') := by
  constructor
  · intro h
    obtain ⟨⟨text, next⟩, hread, hrest⟩ := Option.bind_eq_some_iff.mp h
    obtain ⟨hbound, hfront, rfl⟩ := (string_reads k).mp hread
    exact ⟨text, hbound, hfront, hrest⟩
  · rintro ⟨text, hbound, hfront, hrest⟩
    exact Option.bind_eq_some_iff.mpr ⟨_, (string_reads k).mpr ⟨hbound, hfront, rfl⟩, hrest⟩

/-! ## Layouts -/

/-- At the front of a byte string, a decoder reads exactly the encodings of the values of a
layout. -/
def Exact {α : Type} (decoder : Reader α) (valid : α → Prop) (encode : α → List UInt8)
    (data : List UInt8) : Prop :=
  ∀ a offset, decoder data 0 = some (a, offset) ↔
    valid a ∧ encode a <+: data.drop 0 ∧ offset = (encode a).length

theorem bytes_length (n : ℕ) (b : Bytes n) : ((Codec.bytes n).encode b).length = n :=
  Codec.bytes_width n b

theorem u16_length (n : UInt16) : (Codec.u16.encode n).length = 2 := Codec.u16_width n

theorem u64_length (n : UInt64) : (Codec.u64.encode n).length = 8 := Codec.u64_width n

theorem i64_length (n : Int64) : (Codec.i64.encode n).length = 8 := Codec.i64_width n

section layouts

variable (k : Kit) {data : List UInt8}

/-- A canonical tag stands at the offset of an optional field. -/
theorem tag_of_option {α : Type} {c : Codec α} {o : Option α} {offset : ℕ}
    (h : (Codec.option c).encode o <+: data.drop offset) :
    data[offset]? = some 0 ∨ data[offset]? = some 1 := by
  cases o with
  | none => exact .inl ((cons_prefix_drop 0 []).mp h).1
  | some a => exact .inr ((cons_prefix_drop 1 (c.encode a)).mp h).1

/-- The fields of a revision 4 hire, one after another. -/
theorem hire_encoding (x : Revision4HireFromListingInstructionData) :
    x.encode <+: data.drop 0 ↔
      (Codec.bytes 8).encode x.discriminator <+: data.drop 0 ∧
      (Codec.bytes 32).encode x.taskId <+: data.drop 8 ∧
      Codec.u64.encode x.expectedPrice <+: data.drop 40 ∧
      Codec.u64.encode x.expectedVersion <+: data.drop 48 ∧
      (Codec.option (Codec.bytes 32)).encode x.referrer <+: data.drop 56 ∧
      Codec.u16.encode x.referrerFeeBps <+:
        data.drop (56 + ((Codec.option (Codec.bytes 32)).encode x.referrer).length) ∧
      (Codec.bytes 32).encode x.moderator <+:
        data.drop (56 + ((Codec.option (Codec.bytes 32)).encode x.referrer).length + 2) := by
  simp only [Revision4HireFromListingInstructionData.encode, append_prefix_drop, bytes_length,
    u64_length, u16_length, Nat.zero_add, Nat.reduceAdd]

theorem hire_length (x : Revision4HireFromListingInstructionData) :
    x.encode.length =
      56 + ((Codec.option (Codec.bytes 32)).encode x.referrer).length + 2 + 32 := by
  simp only [Revision4HireFromListingInstructionData.encode, List.length_append, bytes_length,
    u64_length, u16_length]
  omega

theorem revision4HireFromListingDecoder_exact
    (htag : data[56]? = some 0 ∨ data[56]? = some 1) :
    Exact (revision4HireFromListingDecoder k) (fun _ => True)
      Revision4HireFromListingInstructionData.encode data := by
  intro x offset
  simp only [revision4HireFromListingDecoder, bind_reads (k.fixedBytes_reads 8 (by decide)),
    bind_reads (k.fixedBytes_reads 32 (by decide)), bind_reads k.u64_reads, bytes_length,
    u64_length, Nat.zero_add, Nat.reduceAdd,
    option_bind_reads k (k.fixedBytes_reads 32 (by decide)) htag, bind_reads k.u16_reads,
    u16_length, pure_reads, hire_encoding, hire_length]
  constructor
  · rintro ⟨d, hd, t, ht, p, hp, v, hv, r, hr, f, hf, m, hm, rfl, rfl⟩
    exact ⟨trivial, ⟨hd, ht, hp, hv, hr, hf, hm⟩, rfl⟩
  · rintro ⟨-, ⟨hd, ht, hp, hv, hr, hf, hm⟩, rfl⟩
    exact ⟨_, hd, _, ht, _, hp, _, hv, _, hr, _, hf, _, hm, rfl, rfl⟩

/-- The fields of a revision 4 humanless hire, one after another. -/
theorem humanless_encoding (x : Revision4HireFromListingHumanlessInstructionData) :
    x.encode <+: data.drop 0 ↔
      (Codec.bytes 8).encode x.discriminator <+: data.drop 0 ∧
      (Codec.bytes 32).encode x.taskId <+: data.drop 8 ∧
      Codec.u64.encode x.expectedPrice <+: data.drop 40 ∧
      Codec.u64.encode x.expectedVersion <+: data.drop 48 ∧
      Codec.i64.encode x.reviewWindowSecs <+: data.drop 56 ∧
      (Codec.option (Codec.bytes 32)).encode x.referrer <+: data.drop 64 ∧
      Codec.u16.encode x.referrerFeeBps <+:
        data.drop (64 + ((Codec.option (Codec.bytes 32)).encode x.referrer).length) ∧
      (Codec.bytes 32).encode x.moderator <+:
        data.drop (64 + ((Codec.option (Codec.bytes 32)).encode x.referrer).length + 2) := by
  simp only [Revision4HireFromListingHumanlessInstructionData.encode, append_prefix_drop,
    bytes_length, u64_length, i64_length, u16_length, Nat.zero_add, Nat.reduceAdd]

theorem humanless_length (x : Revision4HireFromListingHumanlessInstructionData) :
    x.encode.length =
      64 + ((Codec.option (Codec.bytes 32)).encode x.referrer).length + 2 + 32 := by
  simp only [Revision4HireFromListingHumanlessInstructionData.encode, List.length_append,
    bytes_length, u64_length, i64_length, u16_length]
  omega

theorem revision4HireFromListingHumanlessDecoder_exact
    (htag : data[64]? = some 0 ∨ data[64]? = some 1) :
    Exact (revision4HireFromListingHumanlessDecoder k) (fun _ => True)
      Revision4HireFromListingHumanlessInstructionData.encode data := by
  intro x offset
  simp only [revision4HireFromListingHumanlessDecoder,
    bind_reads (k.fixedBytes_reads 8 (by decide)),
    bind_reads (k.fixedBytes_reads 32 (by decide)), bind_reads k.u64_reads,
    bind_reads k.i64_reads, bytes_length, u64_length, i64_length, Nat.zero_add, Nat.reduceAdd,
    option_bind_reads k (k.fixedBytes_reads 32 (by decide)) htag, bind_reads k.u16_reads,
    u16_length, pure_reads, humanless_encoding, humanless_length]
  constructor
  · rintro ⟨d, hd, t, ht, p, hp, v, hv, w, hw, r, hr, f, hf, m, hm, rfl, rfl⟩
    exact ⟨trivial, ⟨hd, ht, hp, hv, hw, hr, hf, hm⟩, rfl⟩
  · rintro ⟨-, ⟨hd, ht, hp, hv, hw, hr, hf, hm⟩, rfl⟩
    exact ⟨_, hd, _, ht, _, hp, _, hv, _, hw, _, hr, _, hf, _, hm, rfl, rfl⟩

/-- The fields of an activation, one after another. -/
theorem setTaskJobSpec_encoding (x : SetTaskJobSpecInstructionData) :
    x.encode <+: data.drop 0 ↔
      (Codec.bytes 8).encode x.discriminator <+: data.drop 0 ∧
      (Codec.bytes 32).encode x.jobSpecHash <+: data.drop 8 ∧
      borshString x.jobSpecUri <+: data.drop 40 ∧
      (Codec.bytes 32).encode x.moderator <+:
        data.drop (40 + (borshString x.jobSpecUri).length) := by
  simp only [SetTaskJobSpecInstructionData.encode, append_prefix_drop, bytes_length,
    Nat.zero_add, Nat.reduceAdd]

theorem setTaskJobSpec_length (x : SetTaskJobSpecInstructionData) :
    x.encode.length = 40 + (borshString x.jobSpecUri).length + 32 := by
  simp only [SetTaskJobSpecInstructionData.encode, List.length_append, bytes_length]
  omega

theorem setTaskJobSpecDecoder_exact :
    Exact (setTaskJobSpecDecoder k) SetTaskJobSpecInstructionData.Fits
      SetTaskJobSpecInstructionData.encode data := by
  intro x offset
  simp only [setTaskJobSpecDecoder, bind_reads (k.fixedBytes_reads 8 (by decide)),
    bind_reads (k.fixedBytes_reads 32 (by decide)), string_bind_reads, bytes_length,
    Nat.zero_add, Nat.reduceAdd, pure_reads, setTaskJobSpec_encoding, setTaskJobSpec_length]
  constructor
  · rintro ⟨d, hd, t, ht, u, hfits, hu, m, hm, rfl, rfl⟩
    exact ⟨hfits, ⟨hd, ht, hu, hm⟩, rfl⟩
  · rintro ⟨hfits, ⟨hd, ht, hu, hm⟩, rfl⟩
    exact ⟨_, hd, _, ht, _, hfits, hu, _, hm, rfl, rfl⟩

/-- A field behind the fields of a layout. -/
theorem bind_exact {α β : Type} {r : Reader α} {valid : α → Prop} {encode : α → List UInt8}
    (hr : Exact r valid encode data) (f : α → Reader β) (b : β) (offset : ℕ) :
    (r >>= f) data 0 = some (b, offset) ↔
      ∃ a, valid a ∧ encode a <+: data.drop 0 ∧
        f a data (0 + (encode a).length) = some (b, offset) := by
  simp only [Nat.zero_add]
  constructor
  · intro h
    obtain ⟨⟨a, next⟩, hread, hrest⟩ := Option.bind_eq_some_iff.mp h
    obtain ⟨hvalid, hfront, rfl⟩ := (hr a next).mp hread
    exact ⟨a, hvalid, hfront, hrest⟩
  · rintro ⟨a, hvalid, hfront, hrest⟩
    exact Option.bind_eq_some_iff.mpr ⟨(a, _), (hr a _).mpr ⟨hvalid, hfront, rfl⟩, hrest⟩

theorem hireFromListingDecoder_exact (htag : data[56]? = some 0 ∨ data[56]? = some 1) :
    Exact (hireFromListingDecoder k) (fun _ => True) HireFromListingInstructionData.encode data := by
  intro x offset
  simp only [hireFromListingDecoder, bind_exact (revision4HireFromListingDecoder_exact k htag),
    bind_reads (k.fixedBytes_reads 32 (by decide)), bytes_length, pure_reads,
    HireFromListingInstructionData.encode, append_prefix_drop, List.length_append]
  constructor
  · rintro ⟨a, -, ha, t, ht, rfl, rfl⟩
    refine ⟨trivial, ⟨ha, ht⟩, ?_⟩
    rw [Nat.zero_add]
  · rintro ⟨-, ⟨ha, ht⟩, rfl⟩
    exact ⟨_, trivial, ha, _, ht, rfl, by omega⟩

theorem hireFromListingHumanlessDecoder_exact
    (htag : data[64]? = some 0 ∨ data[64]? = some 1) :
    Exact (hireFromListingHumanlessDecoder k) (fun _ => True)
      HireFromListingHumanlessInstructionData.encode data := by
  intro x offset
  simp only [hireFromListingHumanlessDecoder,
    bind_exact (revision4HireFromListingHumanlessDecoder_exact k htag),
    bind_reads (k.fixedBytes_reads 32 (by decide)), bytes_length, pure_reads,
    HireFromListingHumanlessInstructionData.encode, append_prefix_drop, List.length_append]
  constructor
  · rintro ⟨a, -, ha, t, ht, rfl, rfl⟩
    refine ⟨trivial, ⟨ha, ht⟩, ?_⟩
    rw [Nat.zero_add]
  · rintro ⟨-, ⟨ha, ht⟩, rfl⟩
    exact ⟨_, trivial, ha, _, ht, rfl, by omega⟩

end layouts

/-! ## The dispatcher -/

section dispatcher

variable (k : Kit) {data : List UInt8}

/-- A byte string decodes exactly when it is the encoding of a value and nothing else. -/
theorem decodeExactly_ok {α : Type} {decoder : Reader α} {valid : α → Prop}
    {encode : α → List UInt8} (h : Exact decoder valid encode data) (label : String) (a : α) :
    decodeExactly decoder data label = .ok a ↔ valid a ∧ data = encode a := by
  have hwhole : encode a <+: data.drop 0 ∧ data.length = (encode a).length ↔ data = encode a := by
    rw [List.drop_zero]
    constructor
    · rintro ⟨hfront, hlength⟩
      exact (hfront.eq_of_length hlength.symm).symm
    · intro heq
      rw [← heq]
      exact ⟨List.prefix_refl data, rfl⟩
  rw [← hwhole, ← h a data.length]
  unfold decodeExactly
  cases hread : decoder data 0 with
  | none => simp only [reduceCtorEq]
  | some p =>
    obtain ⟨b, offset⟩ := p
    by_cases hend : offset = data.length
    · simp only [hend, ne_eq, not_true_eq_false, if_false, Except.ok.injEq, Option.some.injEq,
        Prod.mk.injEq, and_true]
    · simp only [hend, ne_eq, not_false_eq_true, if_true, reduceCtorEq, Option.some.injEq,
        Prod.mk.injEq, and_false]

theorem assertCanonicalOptionTag_ok (offset : ℕ) (label : String) :
    assertCanonicalOptionTag data offset label = .ok () ↔
      data[offset]? = some 0 ∨ data[offset]? = some 1 := by
  rw [assertCanonicalOptionTag]
  split_ifs with h
  · simp only [false_iff, not_or]
    exact h
  · simp only [true_iff]
    by_contra hnone
    exact h (not_or.mp hnone)

/-- A byte string is identified by the one discriminator that it starts with. -/
theorem identify_eq_some {i : MarketplaceWriteInstructionIdentity} :
    identifyMarketplaceWriteInstruction data = some i ↔
      i ∈ identities ∧ i.discriminator.data <+: data := by
  have hnodup : (identities.map fun i => i.discriminator).Nodup := by decide
  have hfound : ∀ {j}, identifyMarketplaceWriteInstruction data = some j →
      j ∈ identities ∧ j.discriminator.data <+: data := by
    intro j hj
    have hstarts : startsWithDiscriminator data j.discriminator.data = true :=
      List.find?_some (p := fun candidate : MarketplaceWriteInstructionIdentity =>
        startsWithDiscriminator data candidate.discriminator.data) hj
    exact ⟨List.mem_of_find?_eq_some hj, List.isPrefixOf_iff_prefix.mp hstarts⟩
  constructor
  · exact hfound
  · rintro ⟨hmem, hfront⟩
    cases hj : identifyMarketplaceWriteInstruction data with
    | none =>
      exact absurd (List.isPrefixOf_iff_prefix.mpr hfront) (List.find?_eq_none.mp hj i hmem)
    | some j =>
      obtain ⟨hmem', hfront'⟩ := hfound hj
      have hlength : j.discriminator.data.length = i.discriminator.data.length := by
        rw [j.discriminator.length_eq, i.discriminator.length_eq]
      have hdata := (List.prefix_of_prefix_length_le hfront' hfront hlength.le).eq_of_length
        hlength
      rw [List.inj_on_of_nodup_map hnodup hmem' hmem (Bytes.ext hdata)]

theorem identify_eq_none :
    identifyMarketplaceWriteInstruction data = none ↔
      ∀ i ∈ identities, ¬i.discriminator.data <+: data := by
  refine List.find?_eq_none.trans (forall₂_congr fun i _ => not_congr ?_)
  exact List.isPrefixOf_iff_prefix

theorem map_decodeExactly_ok {α : Type} {decoder : Reader α} {valid : α → Prop}
    {encode : α → List UInt8} (h : Exact decoder valid encode data) (ctor : α → WriteData)
    (label : String) (d : WriteData) :
    (decodeExactly decoder data label).map ctor = .ok d ↔
      ∃ a, ctor a = d ∧ valid a ∧ data = encode a := by
  constructor
  · intro hmap
    cases hread : decodeExactly decoder data label with
    | error e =>
      rw [hread] at hmap
      cases hmap
    | ok a =>
      rw [hread] at hmap
      exact ⟨a, Except.ok.inj hmap, (decodeExactly_ok h label a).mp hread⟩
  · rintro ⟨a, rfl, hvalue⟩
    rw [(decodeExactly_ok h label a).mpr hvalue]
    rfl

/-- What is decoded under an identity is a value of its layout, and its encoding is read. -/
theorem decodeData_ok {i : MarketplaceWriteInstructionIdentity} (hi : i ∈ identities)
    {label : String} (htags : assertCanonicalTags i data label = .ok ()) {d : WriteData}
    (hd : decodeData k i data label = .ok d) : d.identity = i ∧ d.Fits ∧ data = d.encode := by
  simp only [identities, List.mem_cons, List.not_mem_nil, or_false] at hi
  rcases hi with rfl | rfl | rfl | rfl | rfl | rfl
  · have htag := (assertCanonicalOptionTag_ok 56 label).mp htags
    obtain ⟨a, rfl, -, ha⟩ :=
      (map_decodeExactly_ok (revision4HireFromListingDecoder_exact k htag) _ label d).mp hd
    exact ⟨rfl, trivial, ha⟩
  · have htag := (assertCanonicalOptionTag_ok 64 label).mp htags
    obtain ⟨a, rfl, -, ha⟩ := (map_decodeExactly_ok
      (revision4HireFromListingHumanlessDecoder_exact k htag) _ label d).mp hd
    exact ⟨rfl, trivial, ha⟩
  · obtain ⟨a, rfl, hfits, ha⟩ :=
      (map_decodeExactly_ok (setTaskJobSpecDecoder_exact k) _ label d).mp hd
    exact ⟨rfl, hfits, ha⟩
  · have htag := (assertCanonicalOptionTag_ok 56 label).mp htags
    obtain ⟨a, rfl, -, ha⟩ :=
      (map_decodeExactly_ok (hireFromListingDecoder_exact k htag) _ label d).mp hd
    exact ⟨rfl, trivial, ha⟩
  · have htag := (assertCanonicalOptionTag_ok 64 label).mp htags
    obtain ⟨a, rfl, -, ha⟩ :=
      (map_decodeExactly_ok (hireFromListingHumanlessDecoder_exact k htag) _ label d).mp hd
    exact ⟨rfl, trivial, ha⟩
  · obtain ⟨a, rfl, hfits, ha⟩ :=
      (map_decodeExactly_ok (setTaskJobSpecDecoder_exact k) _ label d).mp hd
    exact ⟨rfl, hfits, ha⟩

/-- The tag of an encoded hire stands at byte 56. -/
theorem hire_tag (x : Revision4HireFromListingInstructionData) (rest : List UInt8) :
    (x.encode ++ rest)[56]? = some 0 ∨ (x.encode ++ rest)[56]? = some 1 := by
  have hfront : x.encode <+: (x.encode ++ rest).drop 0 := List.prefix_append _ _
  exact tag_of_option ((hire_encoding x).mp hfront).2.2.2.2.1

/-- The tag of an encoded humanless hire stands at byte 64. -/
theorem humanless_tag (x : Revision4HireFromListingHumanlessInstructionData)
    (rest : List UInt8) :
    (x.encode ++ rest)[64]? = some 0 ∨ (x.encode ++ rest)[64]? = some 1 := by
  have hfront : x.encode <+: (x.encode ++ rest).drop 0 := List.prefix_append _ _
  exact tag_of_option ((humanless_encoding x).mp hfront).2.2.2.2.2.1

/-- The encoding of a value passes the tag checks and is decoded as the value. -/
theorem decodeData_encode {d : WriteData} (hfits : d.Fits) (label : String) :
    assertCanonicalTags d.identity d.encode label = .ok () ∧
      decodeData k d.identity d.encode label = .ok d := by
  cases d with
  | revision4Hire x =>
    have htag := hire_tag x []
    rw [List.append_nil] at htag
    exact ⟨(assertCanonicalOptionTag_ok 56 label).mpr htag,
      (map_decodeExactly_ok (revision4HireFromListingDecoder_exact k htag) _ label _).mpr
        ⟨x, rfl, trivial, rfl⟩⟩
  | revision4Humanless x =>
    have htag := humanless_tag x []
    rw [List.append_nil] at htag
    exact ⟨(assertCanonicalOptionTag_ok 64 label).mpr htag,
      (map_decodeExactly_ok (revision4HireFromListingHumanlessDecoder_exact k htag) _ label
        _).mpr ⟨x, rfl, trivial, rfl⟩⟩
  | revision4SetTaskJobSpec x =>
    exact ⟨rfl, (map_decodeExactly_ok (setTaskJobSpecDecoder_exact k) _ label _).mpr
      ⟨x, rfl, hfits, rfl⟩⟩
  | hire x =>
    have htag := hire_tag x.toRevision4HireFromListingInstructionData
      ((Codec.bytes 32).encode x.taskJobSpecHash)
    exact ⟨(assertCanonicalOptionTag_ok 56 label).mpr htag,
      (map_decodeExactly_ok (hireFromListingDecoder_exact k htag) _ label _).mpr
        ⟨x, rfl, trivial, rfl⟩⟩
  | humanless x =>
    have htag := humanless_tag x.toRevision4HireFromListingHumanlessInstructionData
      ((Codec.bytes 32).encode x.taskJobSpecHash)
    exact ⟨(assertCanonicalOptionTag_ok 64 label).mpr htag,
      (map_decodeExactly_ok (hireFromListingHumanlessDecoder_exact k htag) _ label _).mpr
        ⟨x, rfl, trivial, rfl⟩⟩
  | setTaskJobSpec x =>
    exact ⟨rfl, (map_decodeExactly_ok (setTaskJobSpecDecoder_exact k) _ label _).mpr
      ⟨x, rfl, hfits, rfl⟩⟩

/-- Every encoding starts with the discriminator of the value. -/
theorem discriminator_first (d : WriteData) : d.discriminator.data <+: d.encode := by
  cases d with
  | revision4Hire x => exact List.prefix_append _ _
  | revision4Humanless x => exact List.prefix_append _ _
  | revision4SetTaskJobSpec x => exact List.prefix_append _ _
  | hire x => exact (List.prefix_append _ _).trans (List.prefix_append _ _)
  | humanless x => exact (List.prefix_append _ _).trans (List.prefix_append _ _)
  | setTaskJobSpec x => exact List.prefix_append _ _

theorem identity_mem (d : WriteData) : d.identity ∈ identities := by
  cases d <;> simp only [WriteData.identity, identities, List.mem_cons, true_or, or_true]

/-- A decoded value is one whose encoding the byte string is. -/
theorem decode_eq_some (x : DecodedMarketplaceWriteInstruction) :
    decodeMarketplaceWriteInstruction k data = .ok (some x) ↔
      x.IsValue ∧ data = x.data.encode := by
  constructor
  · intro h
    unfold decodeMarketplaceWriteInstruction at h
    cases hidentify : identifyMarketplaceWriteInstruction data with
    | none =>
      rw [hidentify] at h
      cases Except.ok.inj h
    | some i =>
      rw [hidentify] at h
      obtain ⟨hmem, hfront⟩ := identify_eq_some.mp hidentify
      simp only [bind_eq_ok] at h
      obtain ⟨⟨⟩, htags, d, hd, hx⟩ := h
      obtain rfl := Option.some.inj (Except.ok.inj hx)
      obtain ⟨hidentity, hfits, hdata⟩ := decodeData_ok k hmem htags hd
      refine ⟨⟨hidentity.symm, ?_, hfits⟩, hdata⟩
      have hlength : d.discriminator.data.length = i.discriminator.data.length := by
        rw [d.discriminator.length_eq, i.discriminator.length_eq]
      rw [hdata] at hfront
      exact Bytes.ext ((List.prefix_of_prefix_length_le (discriminator_first d) hfront
        hlength.le).eq_of_length hlength)
  · rintro ⟨⟨hidentity, hdiscriminator, hfits⟩, rfl⟩
    obtain ⟨i, d⟩ := x
    obtain rfl : i = d.identity := hidentity
    have hfront := discriminator_first d
    have hsame : d.discriminator = d.identity.discriminator := hdiscriminator
    rw [hsame] at hfront
    obtain ⟨htags, hd⟩ := decodeData_encode k hfits
      (d.identity.instruction.text ++ " " ++ d.identity.wireVersion.text)
    unfold decodeMarketplaceWriteInstruction
    rw [identify_eq_some.mpr ⟨identity_mem d, hfront⟩]
    simp only [bind_eq_ok]
    exact ⟨(), htags, d, hd, rfl⟩

/-- **History decoding** is exact: `null` exactly without one of the discriminators, a value exactly
for its encoding, a `TypeError` for everything else; and values that are encoded alike are equal. -/
theorem marketplaceWrite_decoding_exact (data : List UInt8) :
    (decodeMarketplaceWriteInstruction k data = .ok none ↔
      ∀ i ∈ identities, ¬i.discriminator.data <+: data) ∧
    (∀ x, decodeMarketplaceWriteInstruction k data = .ok (some x) ↔
      x.IsValue ∧ data = x.data.encode) ∧
    ((∃ e, decodeMarketplaceWriteInstruction k data = .error e) ↔
      (∃ i ∈ identities, i.discriminator.data <+: data) ∧
        ¬∃ x : DecodedMarketplaceWriteInstruction, x.IsValue ∧ data = x.data.encode) ∧
    ∀ x y : DecodedMarketplaceWriteInstruction, x.IsValue → y.IsValue →
      data = x.data.encode → data = y.data.encode → x = y := by
  have hnone : decodeMarketplaceWriteInstruction k data = .ok none ↔
      ∀ i ∈ identities, ¬i.discriminator.data <+: data := by
    rw [← identify_eq_none]
    unfold decodeMarketplaceWriteInstruction
    cases hidentify : identifyMarketplaceWriteInstruction data with
    | none => simp only
    | some i => simp only [bind_eq_ok, Except.ok.injEq, reduceCtorEq, and_false, exists_false]
  refine ⟨hnone, decode_eq_some k, ?_, ?_⟩
  · have hsome : (∃ i ∈ identities, i.discriminator.data <+: data) ↔
        ¬decodeMarketplaceWriteInstruction k data = .ok none := by
      rw [hnone]
      push Not
      exact Iff.rfl
    have hvalue : (∃ x : DecodedMarketplaceWriteInstruction,
        x.IsValue ∧ data = x.data.encode) ↔
          ∃ x, decodeMarketplaceWriteInstruction k data = .ok (some x) :=
      exists_congr fun x => (decode_eq_some k x).symm
    rw [hsome, hvalue]
    rcases decodeMarketplaceWriteInstruction k data with e | _ | x
    · simp only [Except.error.injEq, exists_eq', reduceCtorEq, not_false_eq_true, exists_false,
        and_self]
    · simp only [reduceCtorEq, exists_false, not_true_eq_false, false_and]
    · simp only [reduceCtorEq, exists_false, Except.ok.injEq, Option.some.injEq, exists_eq',
        not_true_eq_false, and_false]
  · intro x y hx hy hdatax hdatay
    have hdecodex := (decode_eq_some k x).mpr ⟨hx, hdatax⟩
    have hdecodey := (decode_eq_some k y).mpr ⟨hy, hdatay⟩
    exact Option.some.inj (Except.ok.inj (hdecodex.symm.trans hdecodey))

end dispatcher

/-! ## Decoders as Kit has them -/

/-- The decoder of a format. -/
def Reader.ofCodec {α : Type} (c : Codec α) : Reader α := fun data offset =>
  (c.decode (data.drop offset)).map fun p => (p.1, offset + (c.encode p.1).length)

theorem ofCodec_reads {α : Type} (c : Codec α) : Reads (Reader.ofCodec c) c := by
  intro data offset a offset'
  constructor
  · intro h
    obtain ⟨⟨b, rest⟩, hread, heq⟩ := Option.map_eq_some_iff.mp h
    obtain ⟨rfl, rfl⟩ := Prod.mk.inj heq
    exact ⟨⟨rest, c.encode_decode _ _ _ hread⟩, rfl⟩
  · rintro ⟨⟨rest, hrest⟩, rfl⟩
    rw [Reader.ofCodec, ← hrest, c.decode_encode]
    rfl

/-- Kit's option takes every tag but `1` for none. -/
def Kit.standard : Kit where
  fixedBytes n := Reader.ofCodec (Codec.bytes n)
  u16 := Reader.ofCodec Codec.u16
  u32 := Reader.ofCodec Codec.u32
  u64 := Reader.ofCodec Codec.u64
  i64 := Reader.ofCodec Codec.i64
  option r data offset :=
    match data[offset]? with
    | none => none
    | some tag =>
      if tag = 1 then (r data (offset + 1)).map fun p => (some p.1, p.2)
      else some (none, offset + 1)
  sizePrefix r size data offset :=
    (size data offset).bind fun p =>
      if data.length < p.2 + p.1.toNat then none
      else (r ((data.drop p.2).take p.1.toNat) 0).map fun q => (q.1, p.2 + p.1.toNat)
  fixedBytes_reads _ _ := ofCodec_reads _
  u16_reads := ofCodec_reads _
  u32_reads := ofCodec_reads _
  u64_reads := ofCodec_reads _
  i64_reads := ofCodec_reads _
  option_none r data offset h := by
    simp only [h]
    rfl
  option_some r data offset h := by
    simp only [h]
    rfl
  sizePrefix_eq _ _ _ _ := rfl

/-- An activation of revision 4. -/
def activation : DecodedMarketplaceWriteInstruction where
  identity := revision4SetTaskJobSpec
  data := .revision4SetTaskJobSpec
    { discriminator := revision4SetTaskJobSpec.discriminator
      jobSpecHash := Bytes.fill 32 7
      jobSpecUri := ['a']
      moderator := Bytes.fill 32 9 }

theorem activation_decodes :
    decodeMarketplaceWriteInstruction Kit.standard activation.data.encode =
      .ok (some activation) := by
  have hfits : activation.data.Fits := by
    show (Utf8.encode ['a']).length < 2 ^ 32
    decide
  exact ((marketplaceWrite_decoding_exact Kit.standard activation.data.encode).2.1 activation).mpr
    ⟨⟨rfl, rfl, hfits⟩, rfl⟩

end AgencCoordination.Sdk
