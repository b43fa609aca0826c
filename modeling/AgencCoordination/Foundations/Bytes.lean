import Mathlib.Data.List.Basic
import Mathlib.Data.Finset.Card
import Mathlib.Data.Nat.Notation
import Mathlib.Tactic.Common
import Mathlib.Tactic.Ring

/-!
# Byte strings of a fixed length

Records of fixed-width fields are written one field after another and read back at fixed
offsets.

* **`Bytes n`** — a byte string with the proof that it has `n` bytes.
* **`bigEndian_inj`** — the bytes of a number determine it, when it fits.
* **`littleEndian`** — the bytes of a number, least significant first, and back
  (`ofLittleEndian_littleEndian`).
* **`slice?`** — the `n` bytes from an offset on, if the string has that many.
* **`slice?_append`, `slice?_skip`** — reading a concatenation at a field boundary.
* **`slice?_eq_some`** — what was read is where it was read, so consecutive reads cover the
  string.
* **`append_inj`** — a concatenation of fields of fixed width determines its fields.
* **`distinctAtLeast`** — whether a string has a given number of distinct bytes, scanned from
  the left (`distinctAtLeast_iff`).
-/

namespace Foundations

/-- A byte string of length `n`. -/
structure Bytes (n : ℕ) where
  data : List UInt8
  length_eq : data.length = n
  deriving DecidableEq

namespace Bytes

variable {m n start : ℕ} {xs rest : List UInt8}

theorem ext {a b : Bytes n} (h : a.data = b.data) : a = b := by
  cases a
  cases b
  cases h
  rfl

/-- The byte string of `n` equal bytes. -/
def fill (n : ℕ) (b : UInt8) : Bytes n := ⟨List.replicate n b, List.length_replicate⟩

/-- `n` bytes given by position. -/
def ofFn (f : Fin n → UInt8) : Bytes n := ⟨List.ofFn f, List.length_ofFn⟩

/-- The number `k` as `n` bytes, most significant byte first. -/
def bigEndian (n k : ℕ) : Bytes n :=
  ofFn fun i => UInt8.ofNat (k / 256 ^ (n - 1 - i))

/-- The number a byte string stands for, most significant byte first. -/
def toNumber : List UInt8 → ℕ
  | [] => 0
  | b :: rest => b.toNat * 256 ^ rest.length + toNumber rest

theorem bigEndian_succ (n k : ℕ) :
    (bigEndian (n + 1) k).data = UInt8.ofNat (k / 256 ^ n) :: (bigEndian n k).data := by
  show List.ofFn _ = _
  rw [List.ofFn_succ]
  refine congrArg₂ List.cons rfl (congrArg List.ofFn (funext fun i => ?_))
  have hi : n + 1 - 1 - (i.succ : Fin (n + 1)).val = n - 1 - i.val := by
    rw [Fin.val_succ]
    omega
  rw [hi]

/-- The bytes of a number stand for it, up to their width. -/
theorem toNumber_bigEndian (n k : ℕ) : toNumber (bigEndian n k).data = k % 256 ^ n := by
  induction n with
  | zero =>
    rw [Nat.pow_zero, Nat.mod_one]
    rfl
  | succ n ih =>
    have hbyte : (UInt8.ofNat (k / 256 ^ n)).toNat = k / 256 ^ n % 256 := rfl
    rw [bigEndian_succ, toNumber, ih, hbyte, (bigEndian n k).length_eq, Nat.mod_pow_succ]
    ring

/-- The number `k` as `n` bytes, least significant byte first. -/
def littleEndian : ℕ → ℕ → List UInt8
  | 0, _ => []
  | n + 1, k => UInt8.ofNat k :: littleEndian n (k / 256)

/-- The number a byte string stands for, least significant byte first. -/
def ofLittleEndian : List UInt8 → ℕ
  | [] => 0
  | b :: rest => b.toNat + 256 * ofLittleEndian rest

/-- The bytes of a number stand for it, up to their width. -/
theorem ofLittleEndian_littleEndian (n k : ℕ) :
    ofLittleEndian (littleEndian n k) = k % 256 ^ n := by
  induction n generalizing k with
  | zero =>
    rw [Nat.pow_zero, Nat.mod_one]
    rfl
  | succ n ih =>
    have hbyte : (UInt8.ofNat k).toNat = k % 256 := rfl
    rw [littleEndian, ofLittleEndian, ih, hbyte, Nat.pow_succ, Nat.mul_comm (256 ^ n),
      Nat.mod_mul]

@[simp] theorem length_littleEndian (n k : ℕ) : (littleEndian n k).length = n := by
  induction n generalizing k with
  | zero => rfl
  | succ n ih => rw [littleEndian, List.length_cons, ih]

/-- The number of a byte string is the number of no other of that length. -/
theorem littleEndian_ofLittleEndian (bytes : List UInt8) :
    littleEndian bytes.length (ofLittleEndian bytes) = bytes := by
  induction bytes with
  | nil => rfl
  | cons b bytes ih =>
    have hlt := b.toNat_lt
    have hbyte : UInt8.ofNat (b.toNat + 256 * ofLittleEndian bytes) = b := by
      rw [← UInt8.toNat_inj, UInt8.toNat_ofNat']
      omega
    have hrest : (b.toNat + 256 * ofLittleEndian bytes) / 256 = ofLittleEndian bytes := by omega
    rw [List.length_cons, ofLittleEndian, littleEndian, hbyte, hrest, ih]

theorem ofLittleEndian_lt (bytes : List UInt8) : ofLittleEndian bytes < 256 ^ bytes.length := by
  induction bytes with
  | nil => exact Nat.one_pos
  | cons b bytes ih =>
    have hlt := b.toNat_lt
    rw [ofLittleEndian, List.length_cons, Nat.pow_succ]
    omega

/-- Numbers of that width have different bytes. -/
theorem bigEndian_inj {n k k' : ℕ} (hk : k < 256 ^ n) (hk' : k' < 256 ^ n)
    (h : (bigEndian n k).data = (bigEndian n k').data) : k = k' := by
  have hnumber : k % 256 ^ n = k' % 256 ^ n := by
    rw [← toNumber_bigEndian, ← toNumber_bigEndian, h]
  rwa [Nat.mod_eq_of_lt hk, Nat.mod_eq_of_lt hk'] at hnumber

/-! ## Reading -/

/-- The `n` bytes of `xs` from `start` on. -/
def slice? (xs : List UInt8) (start n : ℕ) : Option (Bytes n) :=
  if h : start + n ≤ xs.length then
    some ⟨(xs.drop start).take n, by rw [List.length_take, List.length_drop]; omega⟩
  else none

theorem slice?_eq_some {b : Bytes n} (h : slice? xs start n = some b) :
    xs.drop start = b.data ++ xs.drop (start + n) := by
  unfold slice? at h
  split at h
  · obtain rfl := Option.some.inj h
    rw [← List.drop_drop]
    exact (List.take_append_drop n (xs.drop start)).symm
  · cases h

/-- Reading the first field of a concatenation. -/
theorem slice?_append (a : Bytes n) : slice? (a.data ++ rest) 0 n = some a := by
  have hlen : 0 + n ≤ (a.data ++ rest).length := by
    rw [List.length_append, a.length_eq]
    omega
  unfold slice?
  rw [dif_pos hlen]
  congr 1
  apply ext
  exact List.take_left' a.length_eq

/-- Reading behind the first field of a concatenation. -/
theorem slice?_skip (a : Bytes m) :
    slice? (a.data ++ rest) (m + start) n = slice? rest start n := by
  have hlen : m + start + n ≤ (a.data ++ rest).length ↔ start + n ≤ rest.length := by
    rw [List.length_append, a.length_eq]
    omega
  have hdrop : (a.data ++ rest).drop (m + start) = rest.drop start := by
    rw [← List.drop_drop, List.drop_left' a.length_eq]
  unfold slice?
  simp only [hlen, hdrop]

/-! ## Concatenations -/

/-- Two concatenations that start with fields of one width agree only if the fields do. -/
theorem append_inj {a a' : Bytes n} {rest rest' : List UInt8}
    (h : a.data ++ rest = a'.data ++ rest') : a = a' ∧ rest = rest' := by
  have hlen : a.data.length = a'.data.length := by rw [a.length_eq, a'.length_eq]
  obtain ⟨hdata, hrest⟩ := List.append_inj h hlen
  exact ⟨ext hdata, hrest⟩

/-! ## Counting distinct bytes -/

/-- Scan for `bound` distinct bytes, of which `seen` were met already. -/
def scanDistinct (bound : ℕ) (seen : List UInt8) : List UInt8 → Bool
  | [] => false
  | b :: rest =>
      if b ∈ seen then scanDistinct bound seen rest
      else if bound ≤ seen.length + 1 then true
      else scanDistinct bound (b :: seen) rest

/-- Whether `xs` has at least `bound` distinct bytes. -/
def distinctAtLeast (bound : ℕ) (xs : List UInt8) : Bool := scanDistinct bound [] xs

theorem scanDistinct_iff {bound : ℕ} {seen : List UInt8} (hnodup : seen.Nodup)
    (hseen : seen.length < bound) :
    scanDistinct bound seen xs = true ↔ bound ≤ (seen.toFinset ∪ xs.toFinset).card := by
  induction xs generalizing seen with
  | nil =>
    rw [List.toFinset_nil, Finset.union_empty, List.toFinset_card_of_nodup hnodup]
    simp only [scanDistinct, Bool.false_eq_true, false_iff]
    omega
  | cons b rest ih =>
    rw [List.toFinset_cons, Finset.union_insert]
    by_cases hb : b ∈ seen
    · -- a byte met before changes neither side
      have hmem : b ∈ seen.toFinset ∪ rest.toFinset :=
        Finset.mem_union_left _ (List.mem_toFinset.mpr hb)
      rw [scanDistinct, if_pos hb, Finset.insert_eq_of_mem hmem]
      exact ih hnodup hseen
    · have hnodup' : (b :: seen).Nodup := List.nodup_cons.mpr ⟨hb, hnodup⟩
      have hunion : insert b (seen.toFinset ∪ rest.toFinset) =
          (b :: seen).toFinset ∪ rest.toFinset := by
        rw [List.toFinset_cons, Finset.insert_union]
      rw [scanDistinct, if_neg hb, hunion]
      by_cases hbound : bound ≤ seen.length + 1
      · have hcard : (b :: seen).toFinset.card = seen.length + 1 :=
          List.toFinset_card_of_nodup hnodup'
        have hle : (b :: seen).toFinset.card ≤ ((b :: seen).toFinset ∪ rest.toFinset).card :=
          Finset.card_le_card Finset.subset_union_left
        rw [if_pos hbound]
        simp only [true_iff]
        omega
      · rw [if_neg hbound]
        exact ih hnodup' (by rw [List.length_cons]; omega)

/-- The scan counts: it succeeds when the string has `bound` distinct bytes. -/
theorem distinctAtLeast_iff {bound : ℕ} (hbound : 0 < bound) :
    distinctAtLeast bound xs = true ↔ bound ≤ xs.toFinset.card := by
  unfold distinctAtLeast
  rw [scanDistinct_iff List.nodup_nil hbound, List.toFinset_nil, Finset.empty_union]

/-- A constant string has at most one distinct byte. -/
theorem fill_card_le (n : ℕ) (b : UInt8) : (fill n b).data.toFinset.card ≤ 1 := by
  have hsub : (fill n b).data.toFinset ⊆ {b} := by
    intro x hx
    rw [Finset.mem_singleton]
    exact List.eq_of_mem_replicate (List.mem_toFinset.mp hx)
  exact Finset.card_le_card hsub

end Bytes

end Foundations
