import AgencCoordination.Foundations.JsonObject

/-!
# JSON values up to the order of members

Two trees are the same JSON value when one is the other with its members in another order and
negative zeros as zeros (`Equal`). The text of the tree with its members by key is the same for
equal values and for no others.

* **`stringify_sorted_eq_iff`** — the sorted text is canonical.
* **`rebuilt`** — the value with its members by key, as an object enumerates them.
* **`stringify_rebuilt`**, **`rebuilt_ordered`** — the rebuilt value is written as the sorted one,
  and its keys are in order, exactly when keys that sort one before the other are enumerated so
  (`Conforms`).
-/

namespace Foundations.JsonValue

mutual

/-- The value with the members of every object by key. -/
def sorted : JsonValue → JsonValue
  | .null => .null
  | .bool b => .bool b
  | .number x => .number x
  | .string s => .string s
  | .array items => .array (sortedItems items)
  | .object members => .object (sortMembers (sortedMembers members))

def sortedItems : List JsonValue → List JsonValue
  | [] => []
  | v :: rest => sorted v :: sortedItems rest

def sortedMembers : List (Utf16 × JsonValue) → List (Utf16 × JsonValue)
  | [] => []
  | (k, v) :: rest => (k, sorted v) :: sortedMembers rest

end

mutual

/-- The value with the members of every object set by key, one after another. -/
def rebuilt : JsonValue → JsonValue
  | .null => .null
  | .bool b => .bool b
  | .number x => .number x
  | .string s => .string s
  | .array items => .array (rebuiltItems items)
  | .object members => .object ((sortMembers (rebuiltMembers members)).foldl setMember [])

def rebuiltItems : List JsonValue → List JsonValue
  | [] => []
  | v :: rest => rebuilt v :: rebuiltItems rest

def rebuiltMembers : List (Utf16 × JsonValue) → List (Utf16 × JsonValue)
  | [] => []
  | (k, v) :: rest => (k, rebuilt v) :: rebuiltMembers rest

end

mutual

/-- No object has a key twice. -/
def Distinct : JsonValue → Prop
  | .array items => DistinctItems items
  | .object members => DistinctKeys members ∧ DistinctMembers members
  | _ => True

def DistinctItems : List JsonValue → Prop
  | [] => True
  | v :: rest => Distinct v ∧ DistinctItems rest

def DistinctMembers : List (Utf16 × JsonValue) → Prop
  | [] => True
  | (_, v) :: rest => Distinct v ∧ DistinctMembers rest

end

mutual

/-- The members of every object are by key. -/
def Ordered : JsonValue → Prop
  | .array items => OrderedItems items
  | .object members => members.Pairwise memberLe ∧ OrderedMembers members
  | _ => True

def OrderedItems : List JsonValue → Prop
  | [] => True
  | v :: rest => Ordered v ∧ OrderedItems rest

def OrderedMembers : List (Utf16 × JsonValue) → Prop
  | [] => True
  | (_, v) :: rest => Ordered v ∧ OrderedMembers rest

end

mutual

/-- In every object, keys that sort one before the other are enumerated so. -/
def Conforms : JsonValue → Prop
  | .array items => ConformItems items
  | .object members => Aligned members ∧ ConformMembers members
  | _ => True

def ConformItems : List JsonValue → Prop
  | [] => True
  | v :: rest => Conforms v ∧ ConformItems rest

def ConformMembers : List (Utf16 × JsonValue) → Prop
  | [] => True
  | (_, v) :: rest => Conforms v ∧ ConformMembers rest

end

mutual

/-- How deep the innermost value lies. -/
def depth : JsonValue → ℕ
  | .array items => depthItems items
  | .object members => depthMembers members
  | _ => 0

def depthItems : List JsonValue → ℕ
  | [] => 0
  | v :: rest => max (depth v + 1) (depthItems rest)

def depthMembers : List (Utf16 × JsonValue) → ℕ
  | [] => 0
  | (_, v) :: rest => max (depth v + 1) (depthMembers rest)

end

mutual

/-- The same JSON value: members in any order, negative zero as zero. -/
inductive Equal : JsonValue → JsonValue → Prop
  | null : Equal .null .null
  | bool (b : Bool) : Equal (.bool b) (.bool b)
  | number {x y : Number} (h : x.unsigned = y.unsigned) : Equal (.number x) (.number y)
  | string (s : Utf16) : Equal (.string s) (.string s)
  | array {a b : List JsonValue} (h : EqualItems a b) : Equal (.array a) (.array b)
  | object {a b c : List (Utf16 × JsonValue)} (h : EqualMembers a b) (hperm : b.Perm c) :
      Equal (.object a) (.object c)

inductive EqualItems : List JsonValue → List JsonValue → Prop
  | nil : EqualItems [] []
  | cons {v w : JsonValue} {a b : List JsonValue} (h : Equal v w) (hrest : EqualItems a b) :
      EqualItems (v :: a) (w :: b)

inductive EqualMembers : List (Utf16 × JsonValue) → List (Utf16 × JsonValue) → Prop
  | nil : EqualMembers [] []
  | cons {k : Utf16} {v w : JsonValue} {a b : List (Utf16 × JsonValue)} (h : Equal v w)
      (hrest : EqualMembers a b) : EqualMembers ((k, v) :: a) ((k, w) :: b)

end

/-! ## The lists of a value -/

theorem sortedMembers_eq (members : List (Utf16 × JsonValue)) :
    sortedMembers members = members.map fun m => (m.1, m.2.sorted) := by
  induction members with
  | nil => rw [sortedMembers, List.map_nil]
  | cons m rest ih => rw [sortedMembers, ih, List.map_cons]

theorem rebuiltMembers_eq (members : List (Utf16 × JsonValue)) :
    rebuiltMembers members = members.map fun m => (m.1, m.2.rebuilt) := by
  induction members with
  | nil => rw [rebuiltMembers, List.map_nil]
  | cons m rest ih => rw [rebuiltMembers, ih, List.map_cons]

theorem unsignedMembers_eq (members : List (Utf16 × JsonValue)) :
    unsignedMembers members = members.map fun m => (m.1, m.2.unsigned) := by
  induction members with
  | nil => rw [unsignedMembers, List.map_nil]
  | cons m rest ih => rw [unsignedMembers, ih, List.map_cons]

theorem isFiniteMembers_eq (members : List (Utf16 × JsonValue)) :
    isFiniteMembers members = members.all fun m => m.2.isFinite := by
  induction members with
  | nil => rw [isFiniteMembers, List.all_nil]
  | cons m rest ih => rw [isFiniteMembers, ih, List.all_cons]

theorem orderedMembers_iff (members : List (Utf16 × JsonValue)) :
    OrderedMembers members ↔ ∀ m ∈ members, m.2.Ordered := by
  induction members with
  | nil => simp only [OrderedMembers, List.not_mem_nil, false_implies, implies_true]
  | cons m rest ih => rw [OrderedMembers, ih, List.forall_mem_cons]

theorem distinctKeys_map {α β : Type} (f : α → β) (members : List (Utf16 × α)) :
    DistinctKeys (members.map fun m => (m.1, f m.2)) ↔ DistinctKeys members := by
  rw [DistinctKeys, List.map_map]
  exact Iff.rfl

theorem enumerated_map {α β : Type} (f : α → β) (members : List (Utf16 × α)) :
    Enumerated (members.map fun m => (m.1, f m.2)) ↔ Enumerated members := List.pairwise_map

/-! ## The sorted value -/

mutual

theorem isFinite_sorted (v : JsonValue) : v.sorted.isFinite = v.isFinite := by
  match v with
  | .null | .bool _ | .number _ | .string _ => rfl
  | .array items => rw [sorted, isFinite, isFinite, isFiniteItems_sorted items]
  | .object members =>
    rw [sorted, isFinite, isFinite, ← isFiniteMembers_sorted members, isFiniteMembers_eq,
      isFiniteMembers_eq, (sortMembers_permutes _).all_eq]

theorem isFiniteItems_sorted (items : List JsonValue) :
    isFiniteItems (sortedItems items) = isFiniteItems items := by
  match items with
  | [] => rfl
  | v :: rest =>
    rw [sortedItems, isFiniteItems, isFiniteItems, isFinite_sorted v, isFiniteItems_sorted rest]

theorem isFiniteMembers_sorted (members : List (Utf16 × JsonValue)) :
    isFiniteMembers (sortedMembers members) = isFiniteMembers members := by
  match members with
  | [] => rfl
  | (k, v) :: rest =>
    rw [sortedMembers, isFiniteMembers, isFiniteMembers, isFinite_sorted v,
      isFiniteMembers_sorted rest]

end

/-- The one form of a value and of its equals. -/
def normal (v : JsonValue) : JsonValue := v.sorted.unsigned

theorem normal_array (items : List JsonValue) :
    normal (.array items) = .array (unsignedItems (sortedItems items)) := by
  rw [normal, sorted, unsigned]

theorem normal_object (members : List (Utf16 × JsonValue)) :
    normal (.object members) = .object (sortMembers (members.map fun m => (m.1, m.2.normal))) := by
  rw [normal, sorted, unsigned, unsignedMembers_eq, ← sortMembers_map, sortedMembers_eq,
    List.map_map]
  rfl

mutual

/-- Equal values have one form. -/
theorem Equal.normal_eq {v w : JsonValue} (h : Equal v w) (hdistinct : v.Distinct) :
    v.normal = w.normal := by
  match h with
  | .null | .bool _ | .string _ => rfl
  | .number hxy => exact congrArg JsonValue.number hxy
  | .array hitems =>
    rw [normal_array, normal_array, EqualItems.normal_eq hitems hdistinct]
  | .object (a := a) (b := b) (c := c) hmembers hperm =>
    have hmap := EqualMembers.normal_eq hmembers hdistinct.2
    have hkeys : DistinctKeys (b.map fun m => (m.1, m.2.normal)) := by
      rw [← hmap, distinctKeys_map]
      exact hdistinct.1
    rw [normal_object, normal_object, hmap, sortMembers_perm (hperm.map _) hkeys]

theorem EqualItems.normal_eq {a b : List JsonValue} (h : EqualItems a b)
    (hdistinct : DistinctItems a) :
    unsignedItems (sortedItems a) = unsignedItems (sortedItems b) := by
  match h with
  | .nil => rfl
  | .cons (v := v) (w := w) hvalue hrest =>
    have hv : v.sorted.unsigned = w.sorted.unsigned := Equal.normal_eq hvalue hdistinct.1
    rw [sortedItems, sortedItems, unsignedItems, unsignedItems, hv,
      EqualItems.normal_eq hrest hdistinct.2]

theorem EqualMembers.normal_eq {a b : List (Utf16 × JsonValue)} (h : EqualMembers a b)
    (hdistinct : DistinctMembers a) :
    (a.map fun m => (m.1, m.2.normal)) = b.map fun m => (m.1, m.2.normal) := by
  match h with
  | .nil => rfl
  | .cons hvalue hrest =>
    rw [List.map_cons, List.map_cons, Equal.normal_eq hvalue hdistinct.1,
      EqualMembers.normal_eq hrest hdistinct.2]

end

mutual

/-- Values with one form are equal. -/
theorem Equal.of_normal {v w : JsonValue} (h : v.normal = w.normal) : Equal v w := by
  match v, w with
  | .null, .null => exact .null
  | .bool b, .bool c =>
    obtain rfl : b = c := JsonValue.bool.inj h
    exact .bool b
  | .number x, .number y => exact .number (JsonValue.number.inj h)
  | .string s, .string t =>
    obtain rfl : s = t := JsonValue.string.inj h
    exact .string s
  | .array a, .array b =>
    rw [normal_array, normal_array] at h
    exact .array (EqualItems.of_normal (JsonValue.array.inj h))
  | .object a, .object b =>
    rw [normal_object, normal_object] at h
    have hperm : (a.map fun m => (m.1, m.2.normal)).Perm (b.map fun m => (m.1, m.2.normal)) :=
      (sortMembers_permutes _).symm.trans
        (JsonValue.object.inj h ▸ sortMembers_permutes _)
    have hexists : Relation.Comp
        (fun l l' => l = l'.map fun m : Utf16 × JsonValue => (m.1, m.2.normal)) List.Perm
        (a.map fun m => (m.1, m.2.normal)) b := by
      rw [List.eq_map_comp_perm]
      exact hperm
    obtain ⟨c, hmap, hc⟩ := hexists
    exact .object (EqualMembers.of_normal hmap) hc

theorem EqualItems.of_normal {a b : List JsonValue}
    (h : unsignedItems (sortedItems a) = unsignedItems (sortedItems b)) : EqualItems a b := by
  match a, b with
  | [], [] => exact .nil
  | v :: a, w :: b =>
    rw [sortedItems, sortedItems, unsignedItems, unsignedItems] at h
    obtain ⟨hvalue, hrest⟩ := List.cons.inj h
    exact .cons (Equal.of_normal hvalue) (EqualItems.of_normal hrest)

theorem EqualMembers.of_normal {a b : List (Utf16 × JsonValue)}
    (h : (a.map fun m => (m.1, m.2.normal)) = b.map fun m => (m.1, m.2.normal)) :
    EqualMembers a b := by
  match a, b with
  | [], [] => exact .nil
  | (k, v) :: a, (k', w) :: b =>
    rw [List.map_cons, List.map_cons] at h
    obtain ⟨hmember, hrest⟩ := List.cons.inj h
    obtain ⟨hkey, hvalue⟩ := Prod.mk.inj hmember
    obtain rfl : k = k' := hkey
    exact .cons (Equal.of_normal hvalue) (EqualMembers.of_normal hrest)

end

/-- **The sorted text** is the same for equal values and for no others. -/
theorem stringify_sorted_eq_iff {v w : JsonValue} (hv : v.isFinite = true)
    (hw : w.isFinite = true) (hdistinct : v.Distinct) :
    v.sorted.stringify = w.sorted.stringify ↔ Equal v w := by
  rw [stringify_eq_iff (by rwa [isFinite_sorted]) (by rwa [isFinite_sorted])]
  constructor
  · exact Equal.of_normal
  · intro h
    exact h.normal_eq hdistinct

/-! ## The rebuilt value -/

section members

variable (members : List (Utf16 × JsonValue))

/-- The members of a rebuilt object. -/
def rebuiltObject : List (Utf16 × JsonValue) :=
  (sortMembers (rebuiltMembers members)).foldl setMember []

theorem distinctKeys_sortRebuilt {members : List (Utf16 × JsonValue)}
    (h : DistinctKeys members) : DistinctKeys (sortMembers (rebuiltMembers members)) := by
  refine DistinctKeys.perm (sortMembers_permutes _).symm ?_
  rwa [rebuiltMembers_eq, distinctKeys_map]

/-- Setting the members one after another ends in the order of enumeration. -/
theorem rebuiltObject_enumerated {members : List (Utf16 × JsonValue)} (h : DistinctKeys members) :
    Enumerated (rebuiltObject members) ∧
      (rebuiltObject members).Perm (sortMembers (rebuiltMembers members)) := by
  have hempty : DistinctKeys ([] ++ sortMembers (rebuiltMembers members)) :=
    distinctKeys_sortRebuilt h
  exact foldl_setMember_enumerated hempty .nil

theorem rebuiltObject_permutes {members : List (Utf16 × JsonValue)} (h : DistinctKeys members) :
    (rebuiltObject members).Perm (rebuiltMembers members) :=
  (rebuiltObject_enumerated h).2.trans (sortMembers_permutes _)

/-- An object is rebuilt in the order of its keys exactly when they are enumerated so. -/
theorem rebuiltObject_eq_iff {members : List (Utf16 × JsonValue)} (h : DistinctKeys members) :
    rebuiltObject members = sortMembers (rebuiltMembers members) ↔ Aligned members := by
  rw [rebuiltObject, foldl_setMember (distinctKeys_sortRebuilt h), rebuiltMembers_eq,
    sortMembers_map, enumerated_map, enumerated_sortMembers h]

end members

mutual

theorem isFinite_rebuilt {v : JsonValue} (h : v.Distinct) : v.rebuilt.isFinite = v.isFinite := by
  match v with
  | .null | .bool _ | .number _ | .string _ => rfl
  | .array items => rw [rebuilt, isFinite, isFinite, isFiniteItems_rebuilt h]
  | .object members =>
    have hperm : ((sortMembers (rebuiltMembers members)).foldl setMember []).Perm
        (rebuiltMembers members) := rebuiltObject_permutes h.1
    rw [rebuilt, isFinite, isFinite, ← isFiniteMembers_rebuilt h.2, isFiniteMembers_eq,
      isFiniteMembers_eq, hperm.all_eq]

theorem isFiniteItems_rebuilt {items : List JsonValue} (h : DistinctItems items) :
    isFiniteItems (rebuiltItems items) = isFiniteItems items := by
  match items with
  | [] => rfl
  | v :: rest =>
    rw [rebuiltItems, isFiniteItems, isFiniteItems, isFinite_rebuilt h.1,
      isFiniteItems_rebuilt h.2]

theorem isFiniteMembers_rebuilt {members : List (Utf16 × JsonValue)}
    (h : DistinctMembers members) :
    isFiniteMembers (rebuiltMembers members) = isFiniteMembers members := by
  match members with
  | [] => rfl
  | (k, v) :: rest =>
    rw [rebuiltMembers, isFiniteMembers, isFiniteMembers, isFinite_rebuilt h.1,
      isFiniteMembers_rebuilt h.2]

end

/-- The members of a rebuilt object, with zeros for negative zeros, are those of the sorted one
exactly when its keys are enumerated in their order and its values agree. -/
theorem unsigned_rebuiltObject {members : List (Utf16 × JsonValue)} (h : DistinctKeys members) :
    unsignedMembers (rebuiltObject members) =
        sortMembers (members.map fun m => (m.1, m.2.normal)) ↔
      Aligned members ∧ ∀ m ∈ members, m.2.rebuilt.unsigned = m.2.normal := by
  have hmap : unsignedMembers (sortMembers (rebuiltMembers members)) =
      sortMembers (members.map fun m => (m.1, m.2.rebuilt.unsigned)) := by
    rw [unsignedMembers_eq, ← sortMembers_map, rebuiltMembers_eq, List.map_map]
    rfl
  constructor
  · intro heq
    constructor
    · have henumerated : Enumerated (rebuiltObject members) :=
        (rebuiltObject_enumerated h).1
      rw [← enumerated_sortMembers h, ← enumerated_map normal, ← sortMembers_map, ← heq,
        unsignedMembers_eq, enumerated_map]
      exact henumerated
    · intro m hm
      have hmem : (m.1, m.2.rebuilt.unsigned) ∈ unsignedMembers (rebuiltObject members) := by
        rw [unsignedMembers_eq, List.mem_map]
        refine ⟨(m.1, m.2.rebuilt), (rebuiltObject_permutes h).mem_iff.mpr ?_, rfl⟩
        rw [rebuiltMembers_eq]
        exact List.mem_map_of_mem hm
      rw [heq, (sortMembers_permutes _).mem_iff, List.mem_map] at hmem
      obtain ⟨m', hm', hpair⟩ := hmem
      obtain ⟨hkey, hvalue⟩ := Prod.mk.inj hpair
      rw [← hvalue, h.eq_of_key hm' hm hkey]
  · rintro ⟨haligned, hvalues⟩
    rw [(rebuiltObject_eq_iff h).mpr haligned, hmap]
    refine congrArg sortMembers (List.map_congr_left fun m hm => ?_)
    rw [hvalues m hm]

mutual

theorem rebuilt_unsigned {v : JsonValue} (h : v.Distinct) :
    v.rebuilt.unsigned = v.normal ↔ v.Conforms := by
  match v with
  | .null | .bool _ | .number _ | .string _ => exact iff_of_true rfl trivial
  | .array items =>
    rw [rebuilt, unsigned, normal_array, JsonValue.array.injEq, rebuiltItems_unsigned h, Conforms]
  | .object members =>
    have hobject := unsigned_rebuiltObject h.1
    rw [rebuilt, unsigned, normal_object, JsonValue.object.injEq, Conforms,
      ← rebuiltMembers_unsigned h.2]
    exact hobject

theorem rebuiltItems_unsigned {items : List JsonValue} (h : DistinctItems items) :
    unsignedItems (rebuiltItems items) = unsignedItems (sortedItems items) ↔
      ConformItems items := by
  match items with
  | [] => exact iff_of_true rfl trivial
  | v :: rest =>
    have hv := rebuilt_unsigned h.1
    rw [normal] at hv
    rw [rebuiltItems, sortedItems, unsignedItems, unsignedItems, List.cons.injEq, ConformItems,
      rebuiltItems_unsigned h.2, hv]

theorem rebuiltMembers_unsigned {members : List (Utf16 × JsonValue)}
    (h : DistinctMembers members) :
    (∀ m ∈ members, m.2.rebuilt.unsigned = m.2.normal) ↔ ConformMembers members := by
  match members with
  | [] => exact iff_of_true (fun m hm => absurd hm List.not_mem_nil) trivial
  | (k, v) :: rest =>
    rw [List.forall_mem_cons, ConformMembers, rebuilt_unsigned h.1, rebuiltMembers_unsigned h.2]

end

/-- **The rebuilt text** is the sorted one exactly for the values that conform. -/
theorem stringify_rebuilt {v : JsonValue} (hv : v.isFinite = true) (hdistinct : v.Distinct) :
    v.rebuilt.stringify = v.sorted.stringify ↔ v.Conforms := by
  rw [stringify_eq_iff (by rwa [isFinite_rebuilt hdistinct]) (by rwa [isFinite_sorted])]
  exact rebuilt_unsigned hdistinct

/-- The members of a rebuilt object are by key exactly when they are enumerated so. -/
theorem rebuiltObject_ordered {members : List (Utf16 × JsonValue)} (h : DistinctKeys members) :
    (rebuiltObject members).Pairwise memberLe ↔ Aligned members := by
  rw [← rebuiltObject_eq_iff h]
  constructor
  · intro hordered
    have hsorted := sortMembers_perm (rebuiltObject_permutes h)
      ((distinctKeys_sortRebuilt h).perm ((sortMembers_permutes _).trans
        (rebuiltObject_permutes h).symm))
    rw [← hsorted]
    exact hordered.insertionSort_eq.symm
  · intro heq
    rw [heq]
    exact sortMembers_sorted _

mutual

/-- **The keys** of a rebuilt value are in order exactly for the values that conform. -/
theorem rebuilt_ordered {v : JsonValue} (h : v.Distinct) : v.rebuilt.Ordered ↔ v.Conforms := by
  match v with
  | .null | .bool _ | .number _ | .string _ => exact Iff.rfl
  | .array items => rw [rebuilt, Ordered, Conforms, rebuiltItems_ordered h]
  | .object members =>
    have hvalues : (∀ m ∈ rebuiltObject members, m.2.Ordered) ↔
        OrderedMembers (rebuiltMembers members) := by
      rw [orderedMembers_iff]
      exact forall_congr' fun m => imp_congr_left (rebuiltObject_permutes h.1).mem_iff
    rw [rebuilt, Ordered, Conforms, orderedMembers_iff, ← rebuiltMembers_ordered h.2, ← hvalues,
      ← rebuiltObject_ordered h.1]
    exact Iff.rfl

theorem rebuiltItems_ordered {items : List JsonValue} (h : DistinctItems items) :
    OrderedItems (rebuiltItems items) ↔ ConformItems items := by
  match items with
  | [] => exact Iff.rfl
  | v :: rest =>
    rw [rebuiltItems, OrderedItems, ConformItems, rebuilt_ordered h.1, rebuiltItems_ordered h.2]

theorem rebuiltMembers_ordered {members : List (Utf16 × JsonValue)} (h : DistinctMembers members) :
    OrderedMembers (rebuiltMembers members) ↔ ConformMembers members := by
  match members with
  | [] => exact Iff.rfl
  | (k, v) :: rest =>
    rw [rebuiltMembers, OrderedMembers, ConformMembers, rebuilt_ordered h.1,
      rebuiltMembers_ordered h.2]

end

/-! ## What the rebuilt text determines -/

theorem unsigned_unsigned (x : Number) : x.unsigned.unsigned = x.unsigned := by
  cases x with
  | finite negative size =>
    by_cases hzero : size.value = 0
    · rw [Number.unsigned, if_pos hzero, Number.unsigned, if_pos hzero]
    · rw [Number.unsigned, if_neg hzero, Number.unsigned, if_neg hzero]
  | infinite negative => rfl

mutual

theorem normal_unsigned (v : JsonValue) : v.unsigned.normal = v.normal := by
  match v with
  | .null | .bool _ | .string _ => rfl
  | .number x => exact congrArg JsonValue.number (unsigned_unsigned x)
  | .array items => rw [unsigned, normal_array, normal_array, normalItems_unsigned items]
  | .object members => rw [unsigned, normal_object, normal_object, normalMembers_unsigned members]

theorem normalItems_unsigned (items : List JsonValue) :
    unsignedItems (sortedItems (unsignedItems items)) = unsignedItems (sortedItems items) := by
  match items with
  | [] => rfl
  | v :: rest =>
    have hv : v.unsigned.sorted.unsigned = v.sorted.unsigned := normal_unsigned v
    rw [unsignedItems, sortedItems, sortedItems, unsignedItems, unsignedItems, hv,
      normalItems_unsigned rest]

theorem normalMembers_unsigned (members : List (Utf16 × JsonValue)) :
    ((unsignedMembers members).map fun m => (m.1, m.2.normal)) =
      members.map fun m => (m.1, m.2.normal) := by
  match members with
  | [] => rfl
  | (k, v) :: rest =>
    rw [unsignedMembers, List.map_cons, List.map_cons, normal_unsigned v,
      normalMembers_unsigned rest]

end

mutual

theorem normal_rebuilt {v : JsonValue} (h : v.Distinct) : v.rebuilt.normal = v.normal := by
  match v with
  | .null | .bool _ | .number _ | .string _ => rfl
  | .array items => rw [rebuilt, normal_array, normal_array, normalItems_rebuilt h]
  | .object members =>
    have hkeys : DistinctKeys ((rebuiltMembers members).map fun m => (m.1, m.2.normal)) := by
      rw [distinctKeys_map, rebuiltMembers_eq, distinctKeys_map]
      exact h.1
    have hperm := ((rebuiltObject_permutes h.1).map fun m => (m.1, m.2.normal)).symm
    rw [rebuilt, normal_object, normal_object, ← normalMembers_rebuilt h.2,
      sortMembers_perm hperm hkeys]
    rfl

theorem normalItems_rebuilt {items : List JsonValue} (h : DistinctItems items) :
    unsignedItems (sortedItems (rebuiltItems items)) = unsignedItems (sortedItems items) := by
  match items with
  | [] => rfl
  | v :: rest =>
    have hv : v.rebuilt.sorted.unsigned = v.sorted.unsigned := normal_rebuilt h.1
    rw [rebuiltItems, sortedItems, sortedItems, unsignedItems, unsignedItems, hv,
      normalItems_rebuilt h.2]

theorem normalMembers_rebuilt {members : List (Utf16 × JsonValue)} (h : DistinctMembers members) :
    ((rebuiltMembers members).map fun m => (m.1, m.2.normal)) =
      members.map fun m => (m.1, m.2.normal) := by
  match members with
  | [] => rfl
  | (k, v) :: rest =>
    rw [rebuiltMembers, List.map_cons, List.map_cons, normal_rebuilt h.1,
      normalMembers_rebuilt h.2]

end

/-- **The rebuilt text** determines the JSON value. -/
theorem rebuilt_stringify_inj {v w : JsonValue} (hv : v.isFinite = true) (hw : w.isFinite = true)
    (hdistinct : v.Distinct) (hdistinct' : w.Distinct)
    (h : v.rebuilt.stringify = w.rebuilt.stringify) : Equal v w := by
  have hunsigned : v.rebuilt.unsigned = w.rebuilt.unsigned :=
    stringify_inj (by rw [isFinite_rebuilt hdistinct, hv]) (by rw [isFinite_rebuilt hdistinct', hw])
      h
  refine Equal.of_normal ?_
  rw [← normal_rebuilt hdistinct, ← normal_unsigned, hunsigned, normal_unsigned,
    normal_rebuilt hdistinct']

end Foundations.JsonValue
