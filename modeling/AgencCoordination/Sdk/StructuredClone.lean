import AgencCoordination.Foundations.Guard
import AgencCoordination.Foundations.WorkList
import AgencCoordination.Sdk.CanonicalJson

/-!
# Structured clones of transaction intents

`structuredClone` keeps the backing of shared memory, so a graph is inspected before it is cloned
for a funded call, and so is the clone. Objects are ordinary: no proxies. An object is what the
inspection reads of it: its brands, its entries and its own properties.

* **`assertNoReachableSharedMemory`** — the inspection, with the objects it looked at.
* **`snapshotStructuredClone`** — inspect, clone, inspect again.
-/

namespace AgencCoordination.Sdk

open Foundations
open Foundations.JsonValue (word)

/-- A value: a primitive, or an object or function. -/
inductive Value (R : Type) where
  | primitive
  | object (r : R)
deriving DecidableEq

/-- What a property descriptor says of an own property. -/
inductive Descriptor (R : Type) where
  | data (value : Value R)
  | accessor
deriving DecidableEq

/-- The data block behind an `ArrayBuffer` or a `SharedArrayBuffer`. -/
structure Backing where
  shared : Bool
  block : ℕ
deriving DecidableEq

/-- An object: its block when it is a buffer, the buffer of a view, the buffer of a
`WebAssembly.Memory`, the entries of a `Map`, the values of a `Set`, and its own properties in the
order of `ownKeys`. -/
structure Obj (R : Type) where
  backing : Option Backing
  view : Option R
  memory : Option R
  entries : Option (List (Value R × Value R))
  elements : Option (List (Value R))
  properties : List (Descriptor R)

/-- The objects of a program by their identity. -/
abbrev Heap (R : Type) : Type := R → Obj R

variable {R : Type}

/-- The object that a value is. -/
def Value.object? : Value R → Option R
  | .primitive => none
  | .object r => some r

/-- `hasSharedArrayBufferBrand`. -/
def hasSharedArrayBufferBrand (heap : Heap R) (r : R) : Bool :=
  ((heap r).backing.map Backing.shared).getD false

/-- The value pushed last is taken first. -/
def pushAll (pending values : List (Value R)) : List (Value R) := values.reverse ++ pending

/-- `enqueueMapEntries`. -/
def enqueueMapEntries (entries : List (Value R × Value R)) (pending : List (Value R)) :
    List (Value R) :=
  entries.foldl (fun pending entry => pushAll pending [entry.1, entry.2]) pending

/-- `enqueueSetValues`. -/
def enqueueSetValues (elements : List (Value R)) (pending : List (Value R)) : List (Value R) :=
  elements.foldl (fun pending value => pushAll pending [value]) pending

/-- The loop over the own properties. -/
def enqueueProperties (label : Utf16) :
    List (Descriptor R) → List (Value R) → Except TypeError (List (Value R))
  | [], pending => .ok pending
  | .data value :: rest, pending => enqueueProperties label rest (pushAll pending [value])
  | .accessor :: _, _ =>
    .error ⟨label ++ word " must not contain accessor properties at its snapshot boundary"⟩

/-- One object: its brands are tested, and what it holds is put on an empty list. -/
def inspect (heap : Heap R) (label : Utf16) (r : R) : Except TypeError (List (Value R)) := do
  require (hasSharedArrayBufferBrand heap r = false)
    ⟨label ++ word " must not contain SharedArrayBuffer or SharedArrayBuffer-backed views"⟩
  require (((heap r).view.map (hasSharedArrayBufferBrand heap)).getD false = false)
    ⟨label ++ word " must not contain SharedArrayBuffer or SharedArrayBuffer-backed views"⟩
  require (((heap r).memory.map (hasSharedArrayBufferBrand heap)).getD false = false)
    ⟨label ++ word " must not contain shared WebAssembly.Memory instances"⟩
  let pending := enqueueMapEntries ((heap r).entries.getD []) []
  let pending := enqueueSetValues ((heap r).elements.getD []) pending
  enqueueProperties label (heap r).properties pending

/-- `assertNoReachableSharedMemory`. -/
def assertNoReachableSharedMemory [Fintype R] [DecidableEq R] (heap : Heap R) (value : Value R)
    (label : Utf16) : Searched R TypeError :=
  search Value.object? (inspect heap label) [value] ∅

/-! ## Clones -/

/-- Values, properties and objects under other identities. -/
def Value.map {S : Type} (f : R → S) : Value R → Value S
  | .primitive => .primitive
  | .object r => .object (f r)

def Descriptor.map {S : Type} (f : R → S) : Descriptor R → Descriptor S
  | .data value => .data (value.map f)
  | .accessor => .accessor

def Obj.map {S : Type} (f : R → S) (o : Obj R) : Obj S where
  backing := o.backing
  view := o.view.map f
  memory := o.memory.map f
  entries := o.entries.map fun l => l.map fun entry => (entry.1.map f, entry.2.map f)
  elements := o.elements.map fun l => l.map (Value.map f)
  properties := o.properties.map (Descriptor.map f)

/-- What `structuredClone` returns: objects made beside those there are, which stay as they are, and
a value. -/
structure Cloned (before : Heap R) where
  Fresh : Type
  finite : Fintype Fresh
  decidable : DecidableEq Fresh
  heap : Heap (R ⊕ Fresh)
  kept : ∀ r, heap (.inl r) = (before r).map Sum.inl
  value : Value (R ⊕ Fresh)

/-- The inspection of a clone. -/
def Cloned.inspection [Fintype R] [DecidableEq R] {before : Heap R} (cloned : Cloned before)
    (label : Utf16) : Searched (R ⊕ cloned.Fresh) TypeError :=
  letI := cloned.finite
  letI := cloned.decidable
  assertNoReachableSharedMemory cloned.heap cloned.value label

/-- `snapshotStructuredClone`. -/
def snapshotStructuredClone [Fintype R] [DecidableEq R]
    (structuredClone : (heap : Heap R) → Value R → Option (Cloned heap)) (heap : Heap R)
    (value : Value R) (label : Utf16) : Except TypeError (Cloned heap) :=
  match (assertNoReachableSharedMemory heap value label).outcome with
  | .error e => .error e
  | .ok _ =>
    match structuredClone heap value with
    | none => .error ⟨label ++ word " must be structured-cloneable"⟩
    | some snapshot =>
      match (snapshot.inspection label).outcome with
      | .error _ => .error ⟨label ++ word " must be structured-cloneable"⟩
      | .ok _ => .ok snapshot

end AgencCoordination.Sdk
