import AgencCoordination.Foundations.TextCuts
import AgencCoordination.Sdk.ListingMetadata

/-!
# Listing codecs against their inverses

A field is the bytes of a text without null characters, and padding (`decodeFixedUtf8_eq_ok`). The
decoder drops a byte-order mark in front of the text, the encoder keeps one: the two are inverse
away from such texts, and from names with a lone surrogate, which the encoder replaces.

* **`encodeFixedUtf8_inverse`**, **`decodeFixedUtf8_inverse`**, **`decodeFixedUtf8_injective`** —
  the law of one field.
* **`ascii_of_kebab`** — categories and tags have neither byte-order mark nor surrogates.
* **`listing_codecs_inverse`** — names, categories and tags, in both directions.
* **`marked_field`** — a field that displays as another.
-/

namespace AgencCoordination.Sdk

open Foundations

/-- The code unit of the byte-order mark. -/
def byteOrderUnit : UInt16 := 0xFEFF

/-- The bytes of the byte-order mark. -/
def byteOrderBytes : List UInt8 := [0xEF, 0xBB, 0xBF]

/-- The bytes of a text and zero bytes up to a size. -/
def paddedField (text : List Char) (size : ℕ) : List UInt8 :=
  Utf8.encode text ++ List.replicate (size - (Utf8.encode text).length) 0

/-! ## The byte-order mark -/

theorem encode_byteOrderMark (text : List Char) :
    Utf8.encode (byteOrderMark :: text) = byteOrderBytes ++ Utf8.encode text := rfl

theorem dropByteOrderMark_of_ne {text : List Char} (h : text.head? ≠ some byteOrderMark) :
    dropByteOrderMark text = text := by
  cases text with
  | nil => rfl
  | cons c text =>
    rw [dropByteOrderMark, if_neg]
    rintro rfl
    exact h rfl

theorem dropByteOrderMark_of_eq {text : List Char} (h : text.head? = some byteOrderMark) :
    text = byteOrderMark :: dropByteOrderMark text := by
  cases text with
  | nil => cases h
  | cons c text =>
    obtain rfl : c = byteOrderMark := Option.some.inj h
    rw [dropByteOrderMark, if_pos rfl]

/-- The bytes of a text begin with those of the mark exactly when the text begins with it. -/
theorem byteOrderBytes_prefix_encode {text : List Char} :
    byteOrderBytes <+: Utf8.encode text ↔ text.head? = some byteOrderMark := by
  constructor
  · rintro ⟨rest, hrest⟩
    have hmark : byteOrderBytes = Utf8.encode [byteOrderMark] := rfl
    rw [hmark] at hrest
    obtain ⟨tail, rfl⟩ := Utf8.isPrefix_of_encode hrest
    rfl
  · intro h
    rw [dropByteOrderMark_of_eq h, encode_byteOrderMark]
    exact List.prefix_append _ _

/-- The padding has no part in it. -/
theorem byteOrderBytes_prefix_paddedField {text : List Char} {size : ℕ} :
    byteOrderBytes <+: paddedField text size ↔ text.head? = some byteOrderMark := by
  rw [← byteOrderBytes_prefix_encode]
  constructor
  · intro h
    by_cases hlength : byteOrderBytes.length ≤ (Utf8.encode text).length
    · exact List.prefix_of_prefix_length_le h (List.prefix_append _ _) hlength
    · -- a mark longer than the text would end in padding
      exfalso
      obtain ⟨rest, hrest⟩ := h
      have hget : (byteOrderBytes ++ rest)[2]? = some 0xBF := rfl
      rw [hrest, paddedField, List.getElem?_append_right (by simp [byteOrderBytes] at hlength; omega),
        List.getElem?_replicate] at hget
      split at hget
      · cases hget
      · cases hget
  · intro h
    exact h.trans (List.prefix_append _ _)

/-! ## One field -/

theorem encodeFixedUtf8_eq_ok {value : Utf16} {size : ℕ} {field : String} {bytes : List UInt8} :
    encodeFixedUtf8 value size field = .ok bytes ↔
      0 ∉ value ∧ (utf8Encoder value).length ≤ size ∧
        bytes = paddedField (Utf16.toText value) size := by
  simp only [encodeFixedUtf8, bind_eq_ok, require_eq_ok, Except.ok.injEq, exists_const]
  constructor
  · rintro ⟨hnul, hlength, rfl⟩
    exact ⟨hnul, hlength, rfl⟩
  · rintro ⟨hnul, hlength, hbytes⟩
    exact ⟨hnul, hlength, hbytes.symm⟩

/-- A field is a list without zero and zeros behind it, in one way. -/
theorem idxOf_append_replicate {content : List UInt8} (hzero : 0 ∉ content) (k : ℕ) :
    (content ++ List.replicate k 0).idxOf 0 = content.length := by
  rw [List.idxOf_append_of_notMem hzero]
  cases k with
  | zero => rfl
  | succ k =>
    rw [List.replicate_succ, List.idxOf_cons_self]
    rfl

/-- What the decoder accepts, and what it reads. -/
theorem decodeFixedUtf8_eq_ok {bytes : List UInt8} {size : ℕ} {field : String} {value : Utf16} :
    decodeFixedUtf8 bytes size field = .ok value ↔
      ∃ text, (∀ c ∈ text, c.toNat ≠ 0) ∧ (Utf8.encode text).length ≤ size ∧
        bytes = paddedField text size ∧ value = Utf16.ofText (dropByteOrderMark text) := by
  simp only [decodeFixedUtf8, bind_eq_ok, require_eq_ok, demand_eq_ok, exists_const, utf8Decoder,
    Option.map_eq_some_iff, Utf8.decode_eq_some]
  constructor
  · rintro ⟨hlength, hpadding, text, htext, rfl⟩
    have hzero : 0 ∉ Utf8.encode text := by
      rw [← htext]
      intro h
      exact absurd ((List.mem_take_iff_idxOf_lt (List.mem_of_mem_take h)).mp h) (Nat.lt_irrefl _)
    have hle : bytes.idxOf 0 ≤ bytes.length := List.idxOf_le_length
    have hsize : (Utf8.encode text).length = bytes.idxOf 0 := by
      rw [← htext, List.length_take, Nat.min_eq_left hle]
    have hrest : bytes.drop (bytes.idxOf 0) =
        List.replicate (size - (Utf8.encode text).length) 0 := by
      rw [List.eq_replicate_iff, List.length_drop, hlength, hsize]
      exact ⟨rfl, hpadding⟩
    refine ⟨text, ?_, ?_, ?_, rfl⟩
    · intro c hc hnull
      exact hzero (Utf8.zero_mem_encode.mpr ⟨c, hc, hnull⟩)
    · rw [hsize, ← hlength]
      exact hle
    · rw [paddedField, ← hrest, ← htext, List.take_append_drop]
  · rintro ⟨text, hnul, hlength, rfl, rfl⟩
    have hzero : 0 ∉ Utf8.encode text := by
      intro h
      obtain ⟨c, hc, hnull⟩ := Utf8.zero_mem_encode.mp h
      exact hnul c hc hnull
    have hidx : (paddedField text size).idxOf 0 = (Utf8.encode text).length :=
      idxOf_append_replicate hzero _
    refine ⟨?_, ?_, text, ?_, rfl⟩
    · rw [paddedField, List.length_append, List.length_replicate]
      omega
    · rw [hidx, paddedField, List.drop_left]
      exact fun b hb => List.eq_of_mem_replicate hb
    · rw [hidx, paddedField, List.take_left]

theorem head_toText_byteOrderMark {value : Utf16} :
    (Utf16.toText value).head? = some byteOrderMark ↔ value.head? = some byteOrderUnit :=
  Utf16.head_toText (u := byteOrderUnit) rfl rfl (by decide)

/-- A text is not a byte-order mark and itself. -/
theorem ofText_dropByteOrderMark_ne {value : Utf16}
    (h : (Utf16.toText value).head? = some byteOrderMark) :
    Utf16.ofText (dropByteOrderMark (Utf16.toText value)) ≠ value := by
  intro heq
  have htext := congrArg Utf16.toText heq
  rw [Utf16.toText_ofText] at htext
  have hlength := congrArg List.length (dropByteOrderMark_of_eq h)
  rw [htext, List.length_cons] at hlength
  omega

/-- An encoded string decodes to itself exactly when it is well formed and has no byte-order mark
in front. -/
theorem encodeFixedUtf8_inverse {value : Utf16} {size : ℕ} {field : String} {bytes : List UInt8}
    (h : encodeFixedUtf8 value size field = .ok bytes) :
    decodeFixedUtf8 bytes size field = .ok value ↔
      Utf16.isWellFormed value = true ∧ value.head? ≠ some byteOrderUnit := by
  obtain ⟨hnul, hlength, rfl⟩ := encodeFixedUtf8_eq_ok.mp h
  have hnull : ∀ c ∈ Utf16.toText value, c.toNat ≠ 0 := by
    intro c hc hzero
    exact hnul (Utf16.zero_mem_toText.mp ⟨c, hc, hzero⟩)
  have hread : decodeFixedUtf8 (paddedField (Utf16.toText value) size) size field =
      .ok (Utf16.ofText (dropByteOrderMark (Utf16.toText value))) :=
    decodeFixedUtf8_eq_ok.mpr ⟨_, hnull, hlength, rfl, rfl⟩
  rw [hread, Except.ok.injEq]
  by_cases hmark : (Utf16.toText value).head? = some byteOrderMark
  · constructor
    · intro heq
      exact absurd heq (ofText_dropByteOrderMark_ne hmark)
    · rintro ⟨-, hhead⟩
      exact absurd (head_toText_byteOrderMark.mp hmark) hhead
  · rw [dropByteOrderMark_of_ne hmark, Utf16.ofText_toText_iff]
    constructor
    · intro hwell
      exact ⟨hwell, fun hhead => hmark (head_toText_byteOrderMark.mpr hhead)⟩
    · rintro ⟨hwell, -⟩
      exact hwell

/-- A decoded field is encoded again exactly when it has no byte-order mark in front. -/
theorem decodeFixedUtf8_inverse {bytes : List UInt8} {size : ℕ} {field : String} {value : Utf16}
    (h : decodeFixedUtf8 bytes size field = .ok value) :
    encodeFixedUtf8 value size field = .ok bytes ↔ ¬ byteOrderBytes <+: bytes := by
  obtain ⟨text, hnull, hlength, rfl, rfl⟩ := decodeFixedUtf8_eq_ok.mp h
  rw [byteOrderBytes_prefix_paddedField, encodeFixedUtf8_eq_ok, utf8Encoder, Utf16.toText_ofText]
  constructor
  · rintro ⟨-, -, heq⟩ hmark
    -- the two fields differ in their content, by the mark
    have htext := dropByteOrderMark_of_eq hmark
    have hnull' : ∀ c ∈ dropByteOrderMark text, c.toNat ≠ 0 := by
      intro c hc
      exact hnull c (htext ▸ List.mem_cons_of_mem _ hc)
    have hidx := congrArg (List.idxOf 0) heq
    rw [paddedField, paddedField, idxOf_append_replicate, idxOf_append_replicate, htext,
      encode_byteOrderMark, List.length_append] at hidx
    · have hthree : byteOrderBytes.length = 3 := rfl
      rw [hthree] at hidx
      have hdrop : dropByteOrderMark (byteOrderMark :: dropByteOrderMark text) =
          dropByteOrderMark text := by rw [dropByteOrderMark, if_pos rfl]
      rw [hdrop] at hidx
      omega
    · intro hzero
      obtain ⟨c, hc, hc'⟩ := Utf8.zero_mem_encode.mp hzero
      exact hnull' c hc hc'
    · intro hzero
      obtain ⟨c, hc, hc'⟩ := Utf8.zero_mem_encode.mp hzero
      exact hnull c hc hc'
  · intro hmark
    rw [dropByteOrderMark_of_ne hmark]
    refine ⟨?_, hlength, rfl⟩
    intro hzero
    rw [← Utf16.zero_mem_toText, Utf16.toText_ofText] at hzero
    obtain ⟨c, hc, hc'⟩ := hzero
    exact hnull c hc hc'

/-- Two fields with one reading are the same exactly when both have a byte-order mark in front, or
neither. -/
theorem decodeFixedUtf8_injective {bytes bytes' : List UInt8} {size : ℕ} {field : String}
    {value : Utf16} (h : decodeFixedUtf8 bytes size field = .ok value)
    (h' : decodeFixedUtf8 bytes' size field = .ok value) :
    bytes = bytes' ↔ (byteOrderBytes <+: bytes ↔ byteOrderBytes <+: bytes') := by
  obtain ⟨text, -, -, rfl, rfl⟩ := decodeFixedUtf8_eq_ok.mp h
  obtain ⟨text', -, -, rfl, heq⟩ := decodeFixedUtf8_eq_ok.mp h'
  have hrest : dropByteOrderMark text = dropByteOrderMark text' := Utf16.ofText_injective heq
  constructor
  · intro hbytes
    rw [hbytes]
  · rw [byteOrderBytes_prefix_paddedField, byteOrderBytes_prefix_paddedField]
    intro hsame
    by_cases hmark : text.head? = some byteOrderMark
    · rw [dropByteOrderMark_of_eq hmark, hrest, ← dropByteOrderMark_of_eq (hsame.mp hmark)]
    · rw [← dropByteOrderMark_of_ne hmark, hrest,
        dropByteOrderMark_of_ne fun hmark' => hmark (hsame.mpr hmark')]

/-! ## Categories and tags are ASCII -/

/-- The units of a token are ASCII, and none is a comma. -/
theorem ascii_of_kebab {token : Utf16} (h : listingKebabPattern token = true) :
    ∀ u ∈ token, u.toNat < 0x80 ∧ u ≠ comma := by
  intro u hu
  have hjoin : [hyphen].intercalate (token.splitOn hyphen) = token :=
    List.intercalate_splitOn hyphen
  rw [← hjoin] at hu
  rcases mem_intercalate hu with rfl | ⟨run, hrun, hmem⟩
  · decide
  · have hclass := List.all_eq_true.mp h run hrun
    rw [Bool.and_eq_true, List.all_eq_true] at hclass
    have hunit := hclass.2 u hmem
    rw [isKebabUnit, Bool.or_eq_true, decide_eq_true_eq, decide_eq_true_eq] at hunit
    constructor
    · omega
    · rintro rfl
      exact absurd hunit (by decide)

theorem kebab_ne_nil {token : Utf16} (h : listingKebabPattern token = true) : token ≠ [] := by
  rintro rfl
  cases h

/-- ASCII units are text, without a byte-order mark. -/
theorem plain_of_ascii {value : Utf16} (h : ∀ u ∈ value, u.toNat < 0x80) :
    Utf16.isWellFormed value = true ∧ value.head? ≠ some byteOrderUnit := by
  constructor
  · induction value with
    | nil => rfl
    | cons u value ih =>
      have hu := h u List.mem_cons_self
      have hhigh : Utf16.isHigh u = false := by
        rw [Utf16.isHigh, decide_eq_false_iff_not]
        omega
      have hlow : Utf16.isLow u = false := by
        rw [Utf16.isLow, decide_eq_false_iff_not]
        omega
      rw [Utf16.isWellFormed_single hhigh hlow]
      exact ih fun v hv => h v (List.mem_cons_of_mem _ hv)
  · intro hhead
    have hmark := h byteOrderUnit (List.mem_of_mem_head? hhead)
    exact absurd hmark (by decide)

theorem validateTags_eq_ok {tags : List Utf16} :
    validateTags tags = .ok () ↔ ∀ tag ∈ tags, listingKebabPattern tag = true := by
  induction tags with
  | nil => simp [validateTags]
  | cons tag tags ih =>
    rw [validateTags, require_bind_eq_ok, ih, List.forall_mem_cons]

/-- The joined tags of a list of tokens are ASCII. -/
theorem ascii_of_joined {tags : List Utf16}
    (h : ∀ tag ∈ tags, listingKebabPattern tag = true) :
    ∀ u ∈ [comma].intercalate tags, u.toNat < 0x80 := by
  intro u hu
  rcases mem_intercalate hu with rfl | ⟨tag, htag, hmem⟩
  · decide
  · exact (ascii_of_kebab (h tag htag) u hmem).1

/-- A list of tokens is what its joined tags split into. -/
theorem splitOn_joined {tags : List Utf16}
    (h : ∀ tag ∈ tags, listingKebabPattern tag = true) (hne : tags ≠ []) :
    ([comma].intercalate tags).splitOn comma = tags :=
  List.splitOn_intercalate comma (fun tag htag hmem => (ascii_of_kebab (h tag htag) _ hmem).2 rfl)
    hne

/-- Only the empty list joins to nothing. -/
theorem joined_eq_nil {tags : List Utf16}
    (h : ∀ tag ∈ tags, listingKebabPattern tag = true) :
    [comma].intercalate tags = [] ↔ tags = [] := by
  constructor
  · intro hnil
    by_contra hne
    have hsplit := splitOn_joined h hne
    rw [hnil, List.splitOn_nil] at hsplit
    exact kebab_ne_nil (h [] (hsplit ▸ List.mem_singleton_self _)) rfl
  · rintro rfl
    rfl

/-! ## The codecs -/

/-- What a codec of a field should be at a value and two fields, up to the byte-order mark: a value
that encodes to the field is decoded from it exactly when it is `plain`, a field that decodes to
the value, when this is not `unset`, is what the value encodes to exactly when it has no mark in
front, and two fields that decode to the value differ by a mark at most. -/
structure InverseUpToMark {α : Type} (encode : α → Except CodecError (List UInt8))
    (decode : List UInt8 → Except CodecError α) (unset : α) (plain : α → Prop) (value : α)
    (bytes bytes' : List UInt8) : Prop where
  decodes : encode value = .ok bytes → (decode bytes = .ok value ↔ plain value)
  encodes : decode bytes = .ok value → value ≠ unset →
    (encode value = .ok bytes ↔ ¬ byteOrderBytes <+: bytes)
  distinct : decode bytes = .ok value → decode bytes' = .ok value →
    (bytes = bytes' ↔ (byteOrderBytes <+: bytes ↔ byteOrderBytes <+: bytes'))

theorem listingName_inverse (name : Utf16) (bytes bytes' : List UInt8) :
    InverseUpToMark encodeListingName decodeListingName []
      (fun name => Utf16.isWellFormed name = true ∧ name.head? ≠ some byteOrderUnit) name bytes
      bytes' where
  decodes h := encodeFixedUtf8_inverse h
  encodes h _ := decodeFixedUtf8_inverse h
  distinct h h' := decodeFixedUtf8_injective h h'

theorem encodeListingCategory_eq_ok {category : Utf16} {bytes : List UInt8} :
    encodeListingCategory category = .ok bytes ↔ listingKebabPattern category = true ∧
      encodeFixedUtf8 category listingCategoryBytes "listing category" = .ok bytes := by
  rw [encodeListingCategory, require_bind_eq_ok]

theorem decodeListingCategory_eq_ok {bytes : List UInt8} {category : Utf16} :
    decodeListingCategory bytes = .ok category ↔
      decodeFixedUtf8 bytes listingCategoryBytes "listing category" = .ok category ∧
        (category = [] ∨ listingKebabPattern category = true) := by
  simp only [decodeListingCategory, bind_eq_ok, require_eq_ok, Except.ok.injEq, exists_const]
  constructor
  · rintro ⟨_, hread, hpattern, rfl⟩
    exact ⟨hread, hpattern⟩
  · rintro ⟨hread, hpattern⟩
    exact ⟨category, hread, hpattern, rfl⟩

theorem listingCategory_inverse (category : Utf16) (bytes bytes' : List UInt8) :
    InverseUpToMark encodeListingCategory decodeListingCategory [] (fun _ => True) category bytes
      bytes' where
  decodes h := by
    obtain ⟨hpattern, hencode⟩ := encodeListingCategory_eq_ok.mp h
    have hplain := plain_of_ascii fun u hu => (ascii_of_kebab hpattern u hu).1
    have hread := (encodeFixedUtf8_inverse hencode).mpr hplain
    rw [decodeListingCategory_eq_ok, iff_true]
    exact ⟨hread, .inr hpattern⟩
  encodes h hne := by
    obtain ⟨hread, hpattern⟩ := decodeListingCategory_eq_ok.mp h
    rw [encodeListingCategory_eq_ok, decodeFixedUtf8_inverse hread, and_iff_right]
    exact hpattern.resolve_left hne
  distinct h h' :=
    decodeFixedUtf8_injective (decodeListingCategory_eq_ok.mp h).1
      (decodeListingCategory_eq_ok.mp h').1

theorem encodeListingTags_eq_ok {tags : List Utf16} {bytes : List UInt8} :
    encodeListingTags tags = .ok bytes ↔ (∀ tag ∈ tags, listingKebabPattern tag = true) ∧
      encodeFixedUtf8 ([comma].intercalate tags) listingTagsBytes "listing tags" = .ok bytes := by
  rw [encodeListingTags, bind_eq_ok]
  constructor
  · rintro ⟨⟨⟩, hvalid, hencode⟩
    exact ⟨validateTags_eq_ok.mp hvalid, hencode⟩
  · rintro ⟨hvalid, hencode⟩
    exact ⟨(), validateTags_eq_ok.mpr hvalid, hencode⟩

theorem decodeListingTags_eq_ok {bytes : List UInt8} {tags : List Utf16} :
    decodeListingTags bytes = .ok tags ↔ (∀ tag ∈ tags, listingKebabPattern tag = true) ∧
      decodeFixedUtf8 bytes listingTagsBytes "listing tags" =
        .ok ([comma].intercalate tags) := by
  rw [decodeListingTags, bind_eq_ok]
  constructor
  · rintro ⟨joined, hread, h⟩
    by_cases hnil : joined = []
    · rw [if_pos hnil] at h
      obtain rfl : [] = tags := Except.ok.inj h
      rw [hread, hnil]
      exact ⟨fun _ hmem => absurd hmem List.not_mem_nil, rfl⟩
    · rw [if_neg hnil, bind_eq_ok] at h
      obtain ⟨⟨⟩, hvalid, hsplit⟩ := h
      obtain rfl := Except.ok.inj hsplit
      rw [List.intercalate_splitOn]
      exact ⟨validateTags_eq_ok.mp hvalid, hread⟩
  · rintro ⟨hvalid, hread⟩
    refine ⟨_, hread, ?_⟩
    by_cases hnil : tags = []
    · rw [if_pos ((joined_eq_nil hvalid).mpr hnil), hnil]
    · rw [if_neg fun h => hnil ((joined_eq_nil hvalid).mp h), splitOn_joined hvalid hnil, bind_eq_ok]
      exact ⟨(), validateTags_eq_ok.mpr hvalid, rfl⟩

theorem listingTags_inverse (tags : List Utf16) (bytes bytes' : List UInt8) :
    InverseUpToMark encodeListingTags decodeListingTags [] (fun _ => True) tags bytes bytes' where
  decodes h := by
    obtain ⟨hvalid, hencode⟩ := encodeListingTags_eq_ok.mp h
    have hread := (encodeFixedUtf8_inverse hencode).mpr (plain_of_ascii (ascii_of_joined hvalid))
    rw [decodeListingTags_eq_ok, iff_true]
    exact ⟨hvalid, hread⟩
  encodes h _ := by
    obtain ⟨hvalid, hread⟩ := decodeListingTags_eq_ok.mp h
    rw [encodeListingTags_eq_ok, decodeFixedUtf8_inverse hread, and_iff_right hvalid]
  distinct h h' :=
    decodeFixedUtf8_injective (decodeListingTags_eq_ok.mp h).2 (decodeListingTags_eq_ok.mp h').2

/-- **Listing codecs.** The codecs of names, categories and tags are inverse to each other, and
injective, away from byte-order marks in front of a field or a name and lone surrogates in a
name. -/
theorem listing_codecs_inverse (name category : Utf16) (tags : List Utf16)
    (bytes bytes' : List UInt8) :
    InverseUpToMark encodeListingName decodeListingName []
        (fun name => Utf16.isWellFormed name = true ∧ name.head? ≠ some byteOrderUnit)
        name bytes bytes' ∧
      InverseUpToMark encodeListingCategory decodeListingCategory [] (fun _ => True)
        category bytes bytes' ∧
      InverseUpToMark encodeListingTags decodeListingTags [] (fun _ => True) tags bytes bytes' :=
  ⟨listingName_inverse name bytes bytes', listingCategory_inverse category bytes bytes',
    listingTags_inverse tags bytes bytes'⟩

/-! ## A field that displays as another -/

/-- "docs" and its padding. -/
def docsField : List UInt8 := [0x64, 0x6F, 0x63, 0x73] ++ List.replicate 28 0

/-- A byte-order mark, "docs" and their padding. -/
def markedDocsField : List UInt8 := byteOrderBytes ++ [0x64, 0x6F, 0x63, 0x73] ++
  List.replicate 25 0

/-- "docs". -/
def docs : Utf16 := [0x64, 0x6F, 0x63, 0x73]

/-- Two fields decode to one name and to one category, and only one of them is encoded again; a
name with a byte-order mark in front is accepted and decodes to another. -/
theorem marked_field :
    docsField ≠ markedDocsField ∧
      decodeListingName docsField = .ok docs ∧ decodeListingName markedDocsField = .ok docs ∧
      decodeListingCategory docsField = .ok docs ∧
      decodeListingCategory markedDocsField = .ok docs ∧
      encodeListingName docs = .ok docsField ∧ encodeListingCategory docs = .ok docsField ∧
      encodeListingName (byteOrderUnit :: docs) = .ok markedDocsField := by
  refine ⟨by decide, ?_⟩
  let text := ['d', 'o', 'c', 's']
  have hnull : ∀ c ∈ text, c.toNat ≠ 0 := by
    intro c hc
    rcases List.mem_cons.mp hc with rfl | hc
    · decide
    simp only [List.mem_cons, List.not_mem_nil, or_false] at hc
    rcases hc with rfl | rfl | rfl <;> decide
  have hread : ∀ {field : String},
      decodeFixedUtf8 docsField 32 field = .ok docs ∧
        decodeFixedUtf8 markedDocsField 32 field = .ok docs := by
    intro field
    constructor
    · exact decodeFixedUtf8_eq_ok.mpr ⟨text, hnull, by decide, by decide, by decide⟩
    · refine decodeFixedUtf8_eq_ok.mpr
        ⟨byteOrderMark :: text, ?_, by decide, by decide, by decide⟩
      exact List.forall_mem_cons.mpr ⟨by decide, hnull⟩
  have hkebab : listingKebabPattern docs = true := by decide
  refine ⟨hread.1, hread.2, ?_, ?_, by decide, by decide, by decide⟩
  · exact decodeListingCategory_eq_ok.mpr ⟨hread.1, .inr hkebab⟩
  · exact decodeListingCategory_eq_ok.mpr ⟨hread.2, .inr hkebab⟩

end AgencCoordination.Sdk
