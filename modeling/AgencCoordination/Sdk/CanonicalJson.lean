import AgencCoordination.Foundations.Guard
import AgencCoordination.Foundations.JsonCanonical

/-!
# Canonical JSON, twice

The moderation service and the job-spec hash each have an encoder of their own. The first writes the
sorted members itself, the second sets them on an object and leaves the order to `JSON.stringify`.

* **`canonicalJson_eq`**, **`canonicalJobSpecJson_eq`** — what the two encoders write.
* **`canonical_json_agreement`** — when the two preimages are one.
-/

namespace AgencCoordination.Sdk

open Foundations
open Foundations.JsonValue (word quote)

/-- A `TypeError` with its message. -/
structure TypeError where
  message : Utf16
deriving DecidableEq

/-- The path of an item. -/
def itemPath (path : Utf16) (index : ℕ) : Utf16 :=
  path ++ 0x5B :: ((if index = 0 then [0x30] else Number.decimal index) ++ [0x5D])

/-- The path of a member. -/
def memberPath (path key : Utf16) : Utf16 := path ++ 0x2E :: key

/-! ## The moderation encoder -/

/-- The deepest level `canonicalJson` encodes. -/
def maxCanonicalDepth : ℕ := 256

mutual

/-- `encode` of `canonicalJson`. -/
def encode (v : JsonValue) (path : Utf16) (depth : ℕ) : Except TypeError Utf16 :=
  if depth > maxCanonicalDepth then
    .error ⟨word "Canonical JSON exceeds maximum depth at " ++ path⟩
  else
    match v with
    | .null => .ok (JsonValue.stringify .null)
    | .bool b => .ok (JsonValue.stringify (.bool b))
    | .string s => .ok (JsonValue.stringify (.string s))
    | .number x =>
      if x.isFinite then .ok (JsonValue.stringify (.number x))
      else .error ⟨word "Canonical JSON numbers must be finite at " ++ path⟩
    | .array items => do
      let texts ← encodeItems items path (depth + 1) 0
      .ok (0x5B :: ([0x2C].intercalate texts ++ [0x5D]))
    | .object members => do
      let texts ← (sortMembers (encodeMembers members path (depth + 1))).mapM fun m =>
        m.2.map fun text => quote m.1 ++ 0x3A :: text
      .ok (0x7B :: ([0x2C].intercalate texts ++ [0x7D]))

/-- The items, in their order. -/
def encodeItems (items : List JsonValue) (path : Utf16) (depth index : ℕ) :
    Except TypeError (List Utf16) :=
  match items with
  | [] => .ok []
  | v :: rest => do
    let text ← encode v (itemPath path index) depth
    let texts ← encodeItems rest path depth (index + 1)
    .ok (text :: texts)

/-- Each member with its own outcome; they are taken in the order of the keys. -/
def encodeMembers (members : List (Utf16 × JsonValue)) (path : Utf16) (depth : ℕ) :
    List (Utf16 × Except TypeError Utf16) :=
  match members with
  | [] => []
  | (k, v) :: rest => (k, encode v (memberPath path k) depth) :: encodeMembers rest path depth

end

/-- `canonicalJson` of a JSON value. -/
def canonicalJson (value : JsonValue) : Except TypeError Utf16 := encode value (word "$") 0

/-! ## The job-spec encoder -/

mutual

/-- `canonicalize`. -/
def canonicalize (v : JsonValue) (path : Utf16) : Except TypeError JsonValue :=
  match v with
  | .null => .ok .null
  | .bool b => .ok (.bool b)
  | .string s => .ok (.string s)
  | .number x =>
    if x.isFinite then .ok (.number x)
    else .error ⟨word "json-stable-v1: non-finite number at " ++ path⟩
  | .array items => do
    let out ← canonicalizeItems items path 0
    .ok (.array out)
  | .object members => do
    let out ← (sortMembers (canonicalizeMembers members path)).mapM fun m =>
      m.2.map fun v => (m.1, v)
    .ok (.object (out.foldl setMember []))

def canonicalizeItems (items : List JsonValue) (path : Utf16) (index : ℕ) :
    Except TypeError (List JsonValue) :=
  match items with
  | [] => .ok []
  | v :: rest => do
    let item ← canonicalize v (itemPath path index)
    let items ← canonicalizeItems rest path (index + 1)
    .ok (item :: items)

/-- Each member with its own outcome; they are set in the order of the keys. -/
def canonicalizeMembers (members : List (Utf16 × JsonValue)) (path : Utf16) :
    List (Utf16 × Except TypeError JsonValue) :=
  match members with
  | [] => []
  | (k, v) :: rest => (k, canonicalize v (memberPath path k)) :: canonicalizeMembers rest path

end

/-- `canonicalJobSpecJson`. -/
def canonicalJobSpecJson (spec : JsonValue) : Except TypeError Utf16 := do
  let value ← canonicalize spec (word "$")
  .ok value.stringify

/-! ## What they write -/

/-- Members that all have an outcome are taken one after another. -/
theorem mapM_outcomes {α β γ ε : Type} (f : Utf16 → β → γ) (g : α → β)
    (members : List (Utf16 × α)) :
    ((members.map fun m => (m.1, (.ok (g m.2) : Except ε β))).mapM fun m => m.2.map (f m.1)) =
      .ok (members.map fun m => f m.1 (g m.2)) := by
  induction members with
  | nil => rfl
  | cons m rest ih =>
    rw [List.map_cons, List.mapM_cons, ih]
    rfl

theorem stringifyItems_eq (items : List JsonValue) :
    JsonValue.stringifyItems items = [0x2C].intercalate (items.map JsonValue.stringify) := by
  induction items with
  | nil => rfl
  | cons v rest ih =>
    cases rest with
    | nil => rfl
    | cons w rest =>
      rw [JsonValue.stringifyItems, ih, List.map_cons (a := v), List.map_cons (a := w),
        List.intercalate_cons_cons, List.append_assoc]
      rfl

theorem stringifyMembers_eq (members : List (Utf16 × JsonValue)) :
    JsonValue.stringifyMembers members =
      [0x2C].intercalate (members.map fun m => quote m.1 ++ 0x3A :: m.2.stringify) := by
  induction members with
  | nil => rfl
  | cons m rest ih =>
    cases rest with
    | nil =>
      change quote m.1 ++ 0x3A :: (m.2.stringify ++ []) = _
      rw [List.append_nil, List.map_cons, List.map_nil, List.intercalate_singleton]
    | cons m' rest =>
      rw [JsonValue.stringifyMembers, ih, List.map_cons (a := m), List.map_cons (a := m'),
        List.intercalate_cons_cons, List.append_assoc, List.append_assoc]
      rfl

mutual

/-- The moderation encoder writes the sorted value. -/
theorem encode_eq {v : JsonValue} (hv : v.isFinite = true) (path : Utf16) {depth : ℕ}
    (hdepth : depth + v.depth ≤ maxCanonicalDepth) :
    encode v path depth = .ok v.sorted.stringify := by
  have hlevel : ¬depth > maxCanonicalDepth := by omega
  rw [encode.eq_def, if_neg hlevel]
  match v with
  | .null | .bool _ | .string _ => rfl
  | .number x => exact if_pos hv
  | .array items =>
    simp only [encodeItems_eq hv path 0 hdepth]
    rw [JsonValue.sorted, JsonValue.stringify, stringifyItems_eq]
    rfl
  | .object members =>
    simp only [encodeMembers_eq hv path hdepth]
    rw [sortMembers_map fun v : JsonValue => (.ok v.sorted.stringify : Except TypeError Utf16),
      mapM_outcomes (fun k text => quote k ++ 0x3A :: text) fun v : JsonValue => v.sorted.stringify,
      JsonValue.sorted, JsonValue.stringify, stringifyMembers_eq, JsonValue.sortedMembers_eq,
      sortMembers_map JsonValue.sorted, List.map_map]
    rfl

theorem encodeItems_eq {items : List JsonValue} (hv : JsonValue.isFiniteItems items = true)
    (path : Utf16) (index : ℕ) {depth : ℕ}
    (hdepth : depth + JsonValue.depthItems items ≤ maxCanonicalDepth) :
    encodeItems items path (depth + 1) index =
      .ok ((JsonValue.sortedItems items).map JsonValue.stringify) := by
  match items with
  | [] => rfl
  | v :: rest =>
    rw [JsonValue.isFiniteItems, Bool.and_eq_true] at hv
    rw [JsonValue.depthItems] at hdepth
    rw [encodeItems, encode_eq hv.1 _ (by omega), encodeItems_eq hv.2 path _ (by omega)]
    rfl

theorem encodeMembers_eq {members : List (Utf16 × JsonValue)}
    (hv : JsonValue.isFiniteMembers members = true) (path : Utf16) {depth : ℕ}
    (hdepth : depth + JsonValue.depthMembers members ≤ maxCanonicalDepth) :
    encodeMembers members path (depth + 1) =
      members.map fun m => (m.1, .ok m.2.sorted.stringify) := by
  match members with
  | [] => rfl
  | (k, v) :: rest =>
    rw [JsonValue.isFiniteMembers, Bool.and_eq_true] at hv
    rw [JsonValue.depthMembers] at hdepth
    rw [encodeMembers, encode_eq hv.1 _ (by omega), encodeMembers_eq hv.2 path (by omega)]
    rfl

end

mutual

/-- The job-spec encoder rebuilds the value. -/
theorem canonicalize_eq {v : JsonValue} (hv : v.isFinite = true) (path : Utf16) :
    canonicalize v path = .ok v.rebuilt := by
  match v with
  | .null | .bool _ | .string _ => rfl
  | .number x => exact if_pos hv
  | .array items =>
    rw [canonicalize, canonicalizeItems_eq hv path 0]
    rfl
  | .object members =>
    rw [canonicalize, canonicalizeMembers_eq hv path,
      sortMembers_map fun v : JsonValue => (.ok v.rebuilt : Except TypeError JsonValue),
      mapM_outcomes Prod.mk JsonValue.rebuilt, JsonValue.rebuilt, JsonValue.rebuiltMembers_eq,
      sortMembers_map JsonValue.rebuilt]
    rfl

theorem canonicalizeItems_eq {items : List JsonValue} (hv : JsonValue.isFiniteItems items = true)
    (path : Utf16) (index : ℕ) :
    canonicalizeItems items path index = .ok (JsonValue.rebuiltItems items) := by
  match items with
  | [] => rfl
  | v :: rest =>
    rw [JsonValue.isFiniteItems, Bool.and_eq_true] at hv
    rw [canonicalizeItems, canonicalize_eq hv.1, canonicalizeItems_eq hv.2]
    rfl

theorem canonicalizeMembers_eq {members : List (Utf16 × JsonValue)}
    (hv : JsonValue.isFiniteMembers members = true) (path : Utf16) :
    canonicalizeMembers members path = members.map fun m => (m.1, .ok m.2.rebuilt) := by
  match members with
  | [] => rfl
  | (k, v) :: rest =>
    rw [JsonValue.isFiniteMembers, Bool.and_eq_true] at hv
    rw [canonicalizeMembers, canonicalize_eq hv.1, canonicalizeMembers_eq hv.2]
    rfl

end

/-- **`canonicalJson`** writes the value with its members by key. -/
theorem canonicalJson_eq {v : JsonValue} (hv : v.isFinite = true)
    (hdepth : v.depth ≤ maxCanonicalDepth) : canonicalJson v = .ok v.sorted.stringify :=
  encode_eq hv _ (by omega)

/-- **`canonicalJobSpecJson`** writes the value with its members set by key. -/
theorem canonicalJobSpecJson_eq {v : JsonValue} (hv : v.isFinite = true) :
    canonicalJobSpecJson v = .ok v.rebuilt.stringify := by
  rw [canonicalJobSpecJson, canonicalize_eq hv]
  rfl

/-! ## When the preimages are one -/

/-- A list of outcomes is taken only if each is there. -/
theorem outcomes_ok {α β ε : Type} {f : Utf16 → α → β} {members : List (Utf16 × Except ε α)}
    {out : List β} (h : (members.mapM fun m => m.2.map (f m.1)) = .ok out) :
    ∀ m ∈ members, ∃ a, m.2 = .ok a := by
  induction members generalizing out with
  | nil => exact fun _ hm => absurd hm List.not_mem_nil
  | cons m rest ih =>
    rw [List.mapM_cons, bind_eq_ok] at h
    obtain ⟨b, hb, h⟩ := h
    rw [bind_eq_ok] at h
    obtain ⟨bs, hbs, -⟩ := h
    intro m' hm'
    rcases List.mem_cons.mp hm' with rfl | hm'
    · cases hm : m'.2 with
      | error e =>
        rw [hm] at hb
        cases hb
      | ok a => exact ⟨a, rfl⟩
    · exact ih hbs m' hm'

mutual

/-- The job-spec encoder takes finite values only. -/
theorem canonicalize_finite {v w : JsonValue} {path : Utf16} (h : canonicalize v path = .ok w) :
    v.isFinite = true := by
  match v with
  | .null | .bool _ | .string _ => rfl
  | .number x =>
    rw [canonicalize] at h
    split_ifs at h with hfinite
    exact hfinite
  | .array items =>
    rw [canonicalize, bind_eq_ok] at h
    obtain ⟨out, hout, -⟩ := h
    exact canonicalizeItems_finite hout
  | .object members =>
    rw [canonicalize, bind_eq_ok] at h
    obtain ⟨out, hout, -⟩ := h
    have hall : ∀ m ∈ canonicalizeMembers members path, ∃ w, m.2 = .ok w := fun m hm =>
      outcomes_ok hout m ((sortMembers_permutes _).mem_iff.mpr hm)
    exact canonicalizeMembers_finite hall

theorem canonicalizeItems_finite {items out : List JsonValue} {path : Utf16} {index : ℕ}
    (h : canonicalizeItems items path index = .ok out) : JsonValue.isFiniteItems items = true := by
  match items with
  | [] => rfl
  | v :: rest =>
    rw [canonicalizeItems, bind_eq_ok] at h
    obtain ⟨item, hitem, h⟩ := h
    rw [bind_eq_ok] at h
    obtain ⟨items, hitems, -⟩ := h
    rw [JsonValue.isFiniteItems, canonicalize_finite hitem, canonicalizeItems_finite hitems]
    rfl

theorem canonicalizeMembers_finite {members : List (Utf16 × JsonValue)} {path : Utf16}
    (h : ∀ m ∈ canonicalizeMembers members path, ∃ w, m.2 = .ok w) :
    JsonValue.isFiniteMembers members = true := by
  match members with
  | [] => rfl
  | (k, v) :: rest =>
    rw [canonicalizeMembers, List.forall_mem_cons] at h
    obtain ⟨⟨w, hw⟩, hrest⟩ := h
    rw [JsonValue.isFiniteMembers, canonicalize_finite hw, canonicalizeMembers_finite hrest]
    rfl

end

/-- **`canonicalJobSpecJson`** determines the JSON value. -/
theorem canonicalJobSpecJson_inj {v w : JsonValue} {text : Utf16} (hdistinct : v.Distinct)
    (hdistinct' : w.Distinct) (hv : canonicalJobSpecJson v = .ok text)
    (hw : canonicalJobSpecJson w = .ok text) : JsonValue.Equal v w := by
  have hfinite : ∀ {u : JsonValue}, canonicalJobSpecJson u = .ok text →
      u.isFinite = true ∧ u.rebuilt.stringify = text := by
    intro u hu
    have hu' := hu
    rw [canonicalJobSpecJson, bind_eq_ok] at hu'
    obtain ⟨value, hvalue, -⟩ := hu'
    have hfinite := canonicalize_finite hvalue
    exact ⟨hfinite, Except.ok.inj ((canonicalJobSpecJson_eq hfinite).symm.trans hu)⟩
  obtain ⟨hfiniteV, htextV⟩ := hfinite hv
  obtain ⟨hfiniteW, htextW⟩ := hfinite hw
  exact JsonValue.rebuilt_stringify_inj hfiniteV hfiniteW hdistinct hdistinct'
    (htextV.trans htextW.symm)

/-- A JSON value that the moderation encoder accepts: no infinities, no key twice in an object, and
no deeper than the limit. -/
structure JsonDocument where
  value : JsonValue
  finite : value.isFinite = true
  distinct : value.Distinct
  shallow : value.depth ≤ maxCanonicalDepth

/-- The moderation encoding of a document is that of its equals and of no other document. -/
def ModerationCanonical (v : JsonDocument) : Prop :=
  ∀ w : JsonDocument,
    canonicalJson v.value = canonicalJson w.value ↔ JsonValue.Equal v.value w.value

/-- Both encoders emit one string, with the keys of every object in code-unit order. -/
def OnePreimage (v : JsonDocument) : Prop :=
  ∃ c : JsonValue, canonicalJson v.value = .ok c.stringify ∧
    canonicalJobSpecJson v.value = .ok c.stringify ∧
    canonicalize v.value (word "$") = .ok c ∧ c.Ordered

theorem moderation_canonical (v : JsonDocument) : ModerationCanonical v := by
  intro w
  rw [canonicalJson_eq v.finite v.shallow, canonicalJson_eq w.finite w.shallow, Except.ok.injEq]
  exact JsonValue.stringify_sorted_eq_iff v.finite w.finite v.distinct

/-- The two encoders agree exactly on the values that conform. -/
theorem canonicalJobSpecJson_eq_canonicalJson_iff (v : JsonDocument) :
    canonicalJobSpecJson v.value = canonicalJson v.value ↔ v.value.Conforms := by
  rw [canonicalJobSpecJson_eq v.finite, canonicalJson_eq v.finite v.shallow, Except.ok.injEq]
  exact JsonValue.stringify_rebuilt v.finite v.distinct

/-- **Canonical JSON** is one preimage, the same for equal values and for no others, exactly when in
every object the keys that sort one before the other are enumerated so. -/
theorem canonical_json_agreement (v : JsonDocument) :
    ModerationCanonical v ∧ OnePreimage v ↔ v.value.Conforms := by
  constructor
  · rintro ⟨-, c, -, -, hc, hordered⟩
    rw [canonicalize_eq v.finite, Except.ok.injEq] at hc
    rw [← JsonValue.rebuilt_ordered v.distinct, hc]
    exact hordered
  · intro h
    refine ⟨moderation_canonical v, v.value.rebuilt, ?_, canonicalJobSpecJson_eq v.finite,
      canonicalize_eq v.finite _, (JsonValue.rebuilt_ordered v.distinct).mpr h⟩
    rw [canonicalJson_eq v.finite v.shallow,
      (JsonValue.stringify_rebuilt v.finite v.distinct).mpr h]

/-- Two array indices, the larger one first by code units. -/
def indexedDocument : JsonDocument where
  value := .object [(word "10", .null), (word "2", .null)]
  finite := rfl
  distinct := ⟨by unfold DistinctKeys; decide, trivial, trivial, trivial⟩
  shallow := by decide

/-- The moderation hash and the job-spec hash of one value have different preimages. -/
theorem indexedDocument_preimages :
    canonicalJson indexedDocument.value = .ok (word "\x7b\"10\":null,\"2\":null\x7d") ∧
      canonicalJobSpecJson indexedDocument.value = .ok (word "\x7b\"2\":null,\"10\":null\x7d") ∧
      ¬OnePreimage indexedDocument := by
  have hmoderation : canonicalJson indexedDocument.value =
      .ok (word "\x7b\"10\":null,\"2\":null\x7d") := rfl
  have hspec : canonicalJobSpecJson indexedDocument.value =
      .ok (word "\x7b\"2\":null,\"10\":null\x7d") := rfl
  refine ⟨hmoderation, hspec, ?_⟩
  rintro ⟨c, hfirst, hsecond, -⟩
  have htexts := (hmoderation.symm.trans hfirst).trans (hsecond.symm.trans hspec)
  exact absurd (Except.ok.inj htexts) (by decide)

end AgencCoordination.Sdk
