import AgencCoordination.Foundations.JsonLines
import AgencCoordination.Sdk.Webhooks
import Mathlib.Data.Nat.Digits.Lemmas

/-!
# Webhook authentication

A header is authentic when each of its entries is well formed, exactly one of them is a timestamp,
and some `v1` value is the MAC of that timestamp, written in decimal again, with the body.

* **`parseSignatureHeader_eq_some`** — what a header that parses looks like.
* **`signedBytes_inj`** — the signed bytes determine timestamp and body.
* **`Authentic.more`** — entries may be added and reordered.
* **`webhook_authentication`** — sound, complete, bound to what was signed.
-/

namespace AgencCoordination.Sdk

open Foundations

/-! ## The signed text -/

/-- The natural number of a decimal text. -/
def readNatural (text : List Char) : ℕ := Nat.ofDigits 10 (text.reverse.map fun c => c.toNat - 48)

theorem readNatural_naturalText (n : ℕ) : readNatural (naturalText n) = n := by
  rw [naturalText]
  split_ifs with hn
  · rw [hn]
    rfl
  · have hdigit : ∀ d < 10, (Nat.digitChar d).toNat - 48 = d := by decide
    have hback : (Nat.digits 10 n).map (fun d => (Nat.digitChar d).toNat - 48) =
        Nat.digits 10 n := by
      refine (List.map_congr_left fun d hd => ?_).trans (List.map_id _)
      exact hdigit d (Nat.digits_lt_base (by decide) hd)
    rw [readNatural, ← List.map_reverse, List.reverse_reverse, List.map_map]
    exact (congrArg (Nat.ofDigits 10) hback).trans (Nat.ofDigits_digits 10 n)

theorem dot_notMem_naturalText (n : ℕ) : '.' ∉ naturalText n := by
  rw [naturalText]
  split_ifs with hn
  · decide
  · have hdigit : ∀ d < 10, Nat.digitChar d ≠ '.' := by decide
    rw [List.mem_map]
    rintro ⟨d, hd, hdot⟩
    exact hdigit d (Nat.digits_lt_base (by decide) (List.mem_reverse.mp hd)) hdot

theorem signedText_natCast (t : ℕ) (body : List Char) :
    signedText t body = naturalText t ++ '.' :: body := by
  have hsign : ¬(t : ℤ) < 0 := by omega
  rw [signedText, integerText, if_neg hsign, Int.natAbs_natCast]

/-- **The signed bytes** determine the timestamp and the body. -/
theorem signedBytes_inj {t t' : ℕ} {body body' : List Char}
    (h : signedBytes t body = signedBytes t' body') : t = t' ∧ body = body' := by
  have htext := Utf8.encode_injective h
  rw [signedText_natCast, signedText_natCast] at htext
  obtain ⟨htime, hbody⟩ := split_first (dot_notMem_naturalText t) (dot_notMem_naturalText t') htext
  exact ⟨by rw [← readNatural_naturalText t, htime, readNatural_naturalText], hbody⟩

/-! ## Comparison -/

theorem foldl_diff (pairs : List (UInt16 × UInt16)) (diff : UInt16) :
    pairs.foldl (fun diff p => diff ||| (p.1 ^^^ p.2)) diff = 0 ↔
      diff = 0 ∧ ∀ p ∈ pairs, p.1 = p.2 := by
  induction pairs generalizing diff with
  | nil => simp only [List.foldl_nil, List.not_mem_nil, false_implies, implies_true, and_true]
  | cons p rest ih =>
    rw [List.foldl_cons, ih, List.forall_mem_cons, UInt16.or_eq_zero_iff, UInt16.xor_eq_zero_iff,
      and_assoc]

/-- The comparison that does not stop early is equality. -/
theorem timingSafeEqualHex_iff (a b : Utf16) : timingSafeEqualHex a b = true ↔ a = b := by
  rw [timingSafeEqualHex]
  split_ifs with hlength
  · simp only [false_iff]
    rintro rfl
    exact hlength rfl
  · rw [beq_iff_eq, foldl_diff, and_iff_right rfl]
    have hlength' : a.length = b.length := by omega
    constructor
    · intro h
      refine List.ext_getElem hlength' fun i hi hi' => ?_
      have hzip : i < (a.zip b).length := by
        rw [List.length_zip]
        omega
      have hmem := List.getElem_mem hzip
      rw [List.getElem_zip] at hmem
      exact h _ hmem
    · rintro rfl p hp
      obtain ⟨i, hi, rfl⟩ := List.getElem_of_mem hp
      rw [List.getElem_zip]

theorem foldl_match (signatures : List Utf16) (expected : Utf16) (found : Bool) :
    signatures.foldl (fun anyMatch candidate =>
      if timingSafeEqualHex candidate expected then true else anyMatch) found = true ↔
      found = true ∨ expected ∈ signatures := by
  induction signatures generalizing found with
  | nil => simp only [List.foldl_nil, List.not_mem_nil, or_false]
  | cons candidate rest ih =>
    rw [List.foldl_cons, ih, List.mem_cons]
    by_cases hmatch : timingSafeEqualHex candidate expected = true
    · rw [if_pos hmatch]
      have heq := (timingSafeEqualHex_iff _ _).mp hmatch
      simp only [heq, true_or, or_true]
    · rw [if_neg hmatch]
      have hne : expected ≠ candidate := fun h =>
        hmatch ((timingSafeEqualHex_iff _ _).mpr h.symm)
      simp only [hne, false_or]

/-! ## Letter case -/

theorem lt_of_isHexLower {u : UInt16} (h : isHexLower (asciiLower u) = true) : u.toNat < 0x80 := by
  rw [asciiLower] at h
  split_ifs at h with hupper
  · omega
  · simp only [isHexLower, Number.isDigit, Bool.or_eq_true, decide_eq_true_eq] at h
    omega

theorem isHexLower_nat {u : UInt16} (h : isHexLower u = true) :
    0x30 ≤ u.toNat ∧ u.toNat ≤ 0x39 ∨ 0x61 ≤ u.toNat ∧ u.toNat ≤ 0x66 := by
  simpa only [isHexLower, Number.isDigit, Bool.or_eq_true, decide_eq_true_eq] using h

/-- A value has hexadecimal digits in lower case exactly when it has them in either case; the two
differ letter by letter. -/
theorem hexPair_toLowerCase (lower : LowerCase) {value : Utf16} (hne : value ≠ []) :
    (hexPair (lower.toLowerCase value) = true ↔
      ∀ u ∈ value, isHexLower (asciiLower u) = true) ∧
    ((∀ u ∈ value, isHexLower (asciiLower u) = true) →
      lower.toLowerCase value = value.map asciiLower) := by
  have hmap : (∀ u ∈ value, isHexLower (asciiLower u) = true) →
      lower.toLowerCase value = value.map asciiLower := fun h =>
    lower.ascii value fun u hu => lt_of_isHexLower (h u hu)
  refine ⟨⟨fun h => ?_, fun h => ?_⟩, hmap⟩
  · simp only [hexPair, Bool.and_eq_true, List.all_eq_true] at h
    have hascii := lower.hex value h.2
    have hall := h.2
    rw [lower.ascii value hascii] at hall
    exact fun u hu => hall _ (List.mem_map_of_mem hu)
  · have hnonempty : value.map asciiLower ≠ [] := fun hnil => hne (List.map_eq_nil_iff.mp hnil)
    simp only [hexPair, hmap h, hnonempty, ne_eq, not_false_eq_true, decide_true, Bool.true_and,
      List.all_eq_true]
    intro u hu
    obtain ⟨v, hv, rfl⟩ := List.mem_map.mp hu
    exact h v hv

/-! ## The header -/

/-- A timestamp of digits, a signature of pairs of hexadecimal digits, or an entry that is
ignored. -/
structure WellFormedEntry (e : Utf16 × Utf16) : Prop where
  timestamp : e.1 = timestampKey → e.2 ≠ [] ∧ e.2.all Number.isDigit = true
  signature : e.1 = signatureKey →
    e.2 ≠ [] ∧ e.2.length % 2 = 0 ∧ ∀ u ∈ e.2, isHexLower (asciiLower u) = true

/-- A part that has a well-formed entry. -/
def WellFormedPart (part : Utf16) : Prop := ∃ e, entry? part = some e ∧ WellFormedEntry e

/-- The values of a key, in the order of the parts. -/
def valuesOf (key : Utf16) (parts : List Utf16) : List Utf16 :=
  ((parts.filterMap entry?).filter fun e => e.1 = key).map Prod.snd

theorem valuesOf_cons {key part : Utf16} {rest : List Utf16} {e : Utf16 × Utf16}
    (h : entry? part = some e) :
    valuesOf key (part :: rest) = (if e.1 = key then [e.2] else []) ++ valuesOf key rest := by
  rw [valuesOf, List.filterMap_cons_some h]
  by_cases hkey : e.1 = key
  · rw [List.filter_cons_of_pos (by simpa using hkey), if_pos hkey]
    rfl
  · rw [List.filter_cons_of_neg (by simpa using hkey), if_neg hkey]
    rfl

theorem valuesOf_perm {key : Utf16} {parts parts' : List Utf16} (h : parts.Perm parts') :
    (valuesOf key parts).Perm (valuesOf key parts') :=
  ((h.filterMap entry?).filter _).map _

theorem valuesOf_append (key : Utf16) (parts parts' : List Utf16) :
    valuesOf key (parts ++ parts') = valuesOf key parts ++ valuesOf key parts' := by
  rw [valuesOf, List.filterMap_append, List.filter_append, List.map_append]
  rfl

/-- The state behind an entry. -/
def HeaderState.next (state : HeaderState) (e : Utf16 × Utf16) : HeaderState where
  timestamp := if e.1 = timestampKey then some e.2 else state.timestamp
  signatures := state.signatures ++ if e.1 = signatureKey then [e.2.map asciiLower] else []

theorem HeaderState.next_timestamp {state : HeaderState} {e : Utf16 × Utf16}
    (hfree : e.1 = timestampKey → state.timestamp = none) :
    (state.next e).timestamp.toList =
      state.timestamp.toList ++ if e.1 = timestampKey then [e.2] else [] := by
  by_cases hkey : e.1 = timestampKey
  · simp only [HeaderState.next, if_pos hkey, hfree hkey]
    rfl
  · simp only [HeaderState.next, if_neg hkey, List.append_nil]

theorem HeaderState.next_signatures (state : HeaderState) (e : Utf16 × Utf16) :
    (state.next e).signatures =
      state.signatures ++ (if e.1 = signatureKey then [e.2] else []).map (·.map asciiLower) := by
  by_cases hkey : e.1 = signatureKey
  · simp only [HeaderState.next, if_pos hkey]
    rfl
  · simp only [HeaderState.next, if_neg hkey]
    rfl

theorem keys_ne : signatureKey ≠ timestampKey := by decide

theorem parsePart_eq_some (lower : LowerCase) {state state' : HeaderState} {part : Utf16} :
    parsePart lower state part = some state' ↔
      ∃ e, entry? part = some e ∧ WellFormedEntry e ∧
        (e.1 = timestampKey → state.timestamp = none) ∧ state' = state.next e := by
  rw [parsePart]
  cases hentry : entry? part with
  | none => simp only [reduceCtorEq, false_and, exists_false]
  | some e =>
    obtain ⟨key, value⟩ := e
    simp only [Option.some.injEq, exists_eq_left']
    by_cases htime : key = timestampKey
    · subst htime
      rw [if_pos rfl]
      have hnext : state.next (timestampKey, value) = { state with timestamp := some value } := by
        simp only [HeaderState.next, if_true, keys_ne.symm, if_false, List.append_nil]
      rw [hnext]
      cases hstamp : state.timestamp with
      | some _ =>
        simp only [Option.isSome_some, if_true, reduceCtorEq, forall_const, false_and, and_false]
      | none =>
        simp only [Option.isSome_none, Bool.false_eq_true, if_false, forall_const, true_and]
        constructor
        · intro h
          split_ifs at h with hdigits
          exact ⟨⟨fun _ => hdigits, fun hkey => absurd hkey.symm keys_ne⟩,
            (Option.some.inj h).symm⟩
        · rintro ⟨hform, rfl⟩
          rw [if_pos (hform.timestamp rfl)]
    · rw [if_neg htime]
      simp only [htime, false_implies, true_and]
      by_cases hsign : key = signatureKey
      · subst hsign
        rw [if_pos rfl]
        have hnext : state.next (signatureKey, value) =
            { state with signatures := state.signatures ++ [value.map asciiLower] } := by
          simp only [HeaderState.next, if_true, keys_ne, if_false]
        rw [hnext]
        constructor
        · intro h
          split_ifs at h with hlength hhex
          obtain ⟨hempty, heven⟩ := not_or.mp hlength
          have hne : value ≠ [] := fun hnil => hempty (by rw [hnil]; rfl)
          obtain ⟨hiff, hmap⟩ := hexPair_toLowerCase lower hne
          have hdigits := hiff.mp hhex
          rw [hmap hdigits] at h
          exact ⟨⟨fun hkey => absurd hkey keys_ne,
            fun _ => ⟨hne, not_not.mp heven, hdigits⟩⟩, (Option.some.inj h).symm⟩
        · rintro ⟨hform, rfl⟩
          obtain ⟨hne, heven, hdigits⟩ := hform.signature rfl
          obtain ⟨hiff, hmap⟩ := hexPair_toLowerCase lower hne
          have hlength : ¬(value.length = 0 ∨ value.length % 2 ≠ 0) := by
            rw [not_or, not_not]
            exact ⟨fun hzero => hne (List.length_eq_zero_iff.mp hzero), heven⟩
          rw [if_neg hlength, if_pos (hiff.mpr hdigits), hmap hdigits]
      · rw [if_neg hsign]
        have hnext : state.next (key, value) = state := by
          simp only [HeaderState.next, htime, hsign, if_false, List.append_nil]
        rw [hnext]
        constructor
        · intro h
          exact ⟨⟨fun hkey => absurd hkey htime, fun hkey => absurd hkey hsign⟩,
            (Option.some.inj h).symm⟩
        · rintro ⟨-, rfl⟩
          rfl

/-- The parts of a header are read exactly when each is well formed and at most one is a
timestamp. -/
theorem parseParts_eq_some (lower : LowerCase) {state state' : HeaderState}
    {parts : List Utf16} :
    parseParts lower state parts = some state' ↔
      (∀ part ∈ parts, WellFormedPart part) ∧
      state'.timestamp.toList = state.timestamp.toList ++ valuesOf timestampKey parts ∧
      state'.signatures =
        state.signatures ++ (valuesOf signatureKey parts).map (·.map asciiLower) := by
  induction parts generalizing state with
  | nil =>
    have hnil : ∀ key, valuesOf key [] = [] := fun _ => rfl
    simp only [parseParts, hnil, List.map_nil, List.append_nil, List.not_mem_nil, false_implies,
      implies_true, true_and, Option.some.injEq]
    constructor
    · rintro rfl
      exact ⟨rfl, rfl⟩
    · rintro ⟨htime, hsign⟩
      obtain ⟨time, signatures⟩ := state
      obtain ⟨time', signatures'⟩ := state'
      obtain rfl : signatures' = signatures := hsign
      obtain rfl : time' = time := by
        cases time' <;> cases time <;> simp_all only [Option.toList_none, Option.toList_some,
          reduceCtorEq, List.cons.injEq, and_true]
      rfl
  | cons part rest ih =>
    rw [parseParts, Option.bind_eq_some_iff, List.forall_mem_cons]
    constructor
    · rintro ⟨middle, hpart, hrest⟩
      obtain ⟨e, hentry, hform, hfree, rfl⟩ := (parsePart_eq_some lower).mp hpart
      obtain ⟨hall, htime, hsign⟩ := ih.mp hrest
      refine ⟨⟨⟨e, hentry, hform⟩, hall⟩, ?_, ?_⟩
      · rw [htime, HeaderState.next_timestamp hfree, valuesOf_cons hentry, List.append_assoc]
      · rw [hsign, HeaderState.next_signatures, valuesOf_cons hentry, List.map_append,
          List.append_assoc]
    · rintro ⟨⟨⟨e, hentry, hform⟩, hall⟩, htime, hsign⟩
      rw [valuesOf_cons hentry] at htime hsign
      have hfree : e.1 = timestampKey → state.timestamp = none := by
        intro hkey
        rw [if_pos hkey] at htime
        have hlength := congrArg List.length htime
        simp only [List.length_append, List.length_singleton] at hlength
        have hone : state'.timestamp.toList.length ≤ 1 := by
          cases state'.timestamp with
          | none => exact Nat.zero_le 1
          | some _ => exact Nat.le_refl 1
        cases hstamp : state.timestamp with
        | none => rfl
        | some _ =>
          rw [hstamp] at hlength
          simp only [Option.toList_some, List.length_singleton] at hlength
          omega
      refine ⟨state.next e, (parsePart_eq_some lower).mpr ⟨e, hentry, hform, hfree, rfl⟩,
        ih.mpr ⟨hall, ?_, ?_⟩⟩
      · rw [htime, HeaderState.next_timestamp hfree, List.append_assoc]
      · rw [hsign, HeaderState.next_signatures, List.map_append, List.append_assoc]

/-- **A header that parses** has well-formed parts, one timestamp, a safe integer, and some
signature. -/
theorem parseSignatureHeader_eq_some (lower : LowerCase) {header : Utf16} {parsed : ParsedHeader} :
    parseSignatureHeader lower header = some parsed ↔
      (∀ part ∈ header.splitOn 0x2C, WellFormedPart part) ∧
      (∃ value, valuesOf timestampKey (header.splitOn 0x2C) = [value] ∧
        Number.ofDecimal value ≤ Number.maxSafeInteger ∧
        parsed.timestampMs = Number.ofDecimal value) ∧
      valuesOf signatureKey (header.splitOn 0x2C) ≠ [] ∧
      parsed.signatures =
        (valuesOf signatureKey (header.splitOn 0x2C)).map (·.map asciiLower) := by
  rw [parseSignatureHeader]
  constructor
  · intro h
    obtain ⟨state, hparts, h⟩ := Option.bind_eq_some_iff.mp h
    obtain ⟨value, hstamp, h⟩ := Option.bind_eq_some_iff.mp h
    obtain ⟨hall, htime, hsign⟩ := (parseParts_eq_some lower).mp hparts
    rw [hstamp] at htime
    split_ifs at h with hempty
    obtain ⟨timestampMs, hsafe, h⟩ := Option.bind_eq_some_iff.mp h
    obtain rfl := Option.some.inj h
    rw [Number.safeInteger_ofNat] at hsafe
    split_ifs at hsafe with hle
    refine ⟨hall, ⟨value, htime.symm, hle, (Option.some.inj hsafe).symm⟩, ?_, hsign⟩
    intro hnone
    rw [hnone] at hsign
    exact hempty hsign
  · rintro ⟨hall, ⟨value, hvalue, hle, htime⟩, hne, hsign⟩
    have hparts : parseParts lower ⟨none, []⟩ (header.splitOn 0x2C) =
        some ⟨some value, parsed.signatures⟩ :=
      (parseParts_eq_some lower).mpr ⟨hall, hvalue.symm, hsign⟩
    have hsignatures : parsed.signatures ≠ [] := by
      rw [hsign]
      exact fun hnil => hne (List.map_eq_nil_iff.mp hnil)
    simp only [hparts, Option.bind_eq_bind, Option.bind_some, if_neg hsignatures,
      Number.safeInteger_ofNat, if_pos hle, ← htime]

/-! ## Authentic deliveries -/

/-- The MAC of a timestamp and a body, as a signature shows it. -/
def tag (mac : List UInt8 → List UInt8 → List UInt8) (secret rawBody : List Char) (t : ℕ) :
    Utf16 := toHex (mac (Utf8.encode secret) (signedBytes t rawBody))

/-- Every part of the header is well formed, one of them is the timestamp `t`, a safe integer
within the tolerance of now, and some signature is the MAC of it and the body, in either letter
case. -/
structure Authentic (mac : List UInt8 → List UInt8 → List UInt8) (header : Utf16)
    (secret rawBody : List Char) (toleranceMs nowMs : ℤ) (t : ℕ) : Prop where
  parts : ∀ part ∈ header.splitOn 0x2C, WellFormedPart part
  timestamp : ∃ value, valuesOf timestampKey (header.splitOn 0x2C) = [value] ∧
    Number.ofDecimal value = t
  safe : t ≤ Number.maxSafeInteger
  recent : |nowMs - t| ≤ toleranceMs
  signed : ∃ value ∈ valuesOf signatureKey (header.splitOn 0x2C),
    value.map asciiLower = tag mac secret rawBody t

/-- The tolerance of an input, if it is admissible. -/
def AdmissibleTolerance (input : VerifyAgencWebhookSignatureInput) (toleranceMs : ℤ) : Prop :=
  safe? (input.toleranceMs.getD (some (Number.ofNat 300000))) = some toleranceMs ∧
    0 ≤ toleranceMs ∧ toleranceMs ≤ maxWebhookToleranceMs

/-- The time an input is checked at, in milliseconds. -/
def ClockAt (input : VerifyAgencWebhookSignatureInput) (nowMs : ℤ) : Prop :=
  safe? input.now = some nowMs ∧ 0 ≤ nowMs

section verify

variable (lower : LowerCase) (mac : List UInt8 → List UInt8 → List UInt8)
variable (input : VerifyAgencWebhookSignatureInput)

/-- **Verification** accepts exactly the authentic deliveries. -/
theorem verify_eq_true :
    verifyAgencWebhookSignature lower mac input = true ↔
      ∃ toleranceMs nowMs t, AdmissibleTolerance input toleranceMs ∧ ClockAt input nowMs ∧
        Authentic mac input.signatureHeader input.secret input.rawBody toleranceMs nowMs t := by
  unfold verifyAgencWebhookSignature
  constructor
  · intro h
    cases htolerance : safe? (input.toleranceMs.getD (some (Number.ofNat 300000))) with
    | none =>
      rw [htolerance] at h
      cases h
    | some toleranceMs =>
      rw [htolerance] at h
      dsimp only at h
      split_ifs at h with hadmissible
      obtain ⟨hlow, hhigh⟩ := not_or.mp hadmissible
      cases hparsed : parseSignatureHeader lower input.signatureHeader with
      | none =>
        rw [hparsed] at h
        cases h
      | some parsed =>
        rw [hparsed] at h
        cases hnow : safe? input.now with
        | none =>
          rw [hnow] at h
          cases h
        | some nowMs =>
          rw [hnow] at h
          dsimp only at h
          split_ifs at h with hpast hfar
          obtain ⟨hall, ⟨value, hvalue, hsafe, htime⟩, -, hsignatures⟩ :=
            (parseSignatureHeader_eq_some lower).mp hparsed
          rw [foldl_match, or_iff_right (by decide), hsignatures, List.mem_map] at h
          rw [htime] at h hfar
          refine ⟨toleranceMs, nowMs, Number.ofDecimal value,
            ⟨htolerance, not_lt.mp hlow, not_lt.mp hhigh⟩, ⟨hnow, not_lt.mp hpast⟩,
            hall, ⟨value, hvalue, rfl⟩, hsafe, not_lt.mp hfar, h⟩
  · rintro ⟨toleranceMs, nowMs, t, ⟨htolerance, hlow, hhigh⟩, ⟨hnow, hpast⟩, hauthentic⟩
    obtain ⟨value, hvalue, htime⟩ := hauthentic.timestamp
    obtain ⟨signature, hmem, hsigned⟩ := hauthentic.signed
    have hparsed : parseSignatureHeader lower input.signatureHeader =
        some ⟨t, (valuesOf signatureKey (input.signatureHeader.splitOn 0x2C)).map
          (·.map asciiLower)⟩ := by
      refine (parseSignatureHeader_eq_some lower).mpr
        ⟨hauthentic.parts, ⟨value, hvalue, ?_, ?_⟩, ?_, rfl⟩
      · rw [htime]
        exact hauthentic.safe
      · rw [htime]
      · exact List.ne_nil_of_mem hmem
    have hadmissible : ¬(toleranceMs < 0 ∨ toleranceMs > maxWebhookToleranceMs) := by omega
    have hfar : ¬|nowMs - (t : ℤ)| > toleranceMs := not_lt.mpr hauthentic.recent
    simp only [htolerance, if_neg hadmissible, hparsed, hnow, if_neg (not_lt.mpr hpast),
      if_neg hfar, foldl_match]
    exact .inr (List.mem_map.mpr ⟨signature, hmem, hsigned⟩)

end verify

/-- A part that is ignored, or a signature. -/
def AddedPart (part : Utf16) : Prop :=
  ∃ e, entry? part = some e ∧ WellFormedEntry e ∧ e.1 ≠ timestampKey

theorem valuesOf_added {parts : List Utf16} (h : ∀ part ∈ parts, AddedPart part) :
    valuesOf timestampKey parts = [] := by
  induction parts with
  | nil => rfl
  | cons part rest ih =>
    obtain ⟨e, hentry, -, hkey⟩ := h part List.mem_cons_self
    rw [valuesOf_cons hentry, if_neg hkey, List.nil_append]
    exact ih fun part' hmem => h part' (List.mem_cons_of_mem _ hmem)

/-- **Entries** may be added, repeated and reordered. -/
theorem Authentic.more {mac : List UInt8 → List UInt8 → List UInt8} {header header' : Utf16}
    {secret rawBody : List Char} {toleranceMs nowMs : ℤ} {t : ℕ} {added : List Utf16}
    (h : Authentic mac header secret rawBody toleranceMs nowMs t)
    (hparts : (header'.splitOn 0x2C).Perm (header.splitOn 0x2C ++ added))
    (hadded : ∀ part ∈ added, AddedPart part) :
    Authentic mac header' secret rawBody toleranceMs nowMs t := by
  obtain ⟨value, hvalue, htime⟩ := h.timestamp
  obtain ⟨signature, hmem, hsigned⟩ := h.signed
  refine ⟨fun part hpart => ?_, ⟨value, ?_, htime⟩, h.safe, h.recent, signature, ?_, hsigned⟩
  · rcases List.mem_append.mp (hparts.mem_iff.mp hpart) with hold | hnew
    · exact h.parts part hold
    · obtain ⟨e, hentry, hform, -⟩ := hadded part hnew
      exact ⟨e, hentry, hform⟩
  · have hperm : (valuesOf timestampKey (header'.splitOn 0x2C)).Perm
        (valuesOf timestampKey (header.splitOn 0x2C ++ added)) := valuesOf_perm hparts
    rw [valuesOf_append, valuesOf_added hadded, List.append_nil, hvalue] at hperm
    exact List.perm_singleton.mp hperm
  · refine (valuesOf_perm hparts).mem_iff.mpr ?_
    rw [valuesOf_append]
    exact List.mem_append_left _ hmem

/-- An ideal MAC: a header shows the MAC of a message only if the message is one of those that
were signed. -/
def IdealFor (mac : List UInt8 → List UInt8 → List UInt8) (secret : List Char) (header : Utf16)
    (signed : Set (ℕ × List Char)) : Prop :=
  ∀ message, (∃ value ∈ valuesOf signatureKey (header.splitOn 0x2C),
      value.map asciiLower = toHex (mac (Utf8.encode secret) message)) →
    ∃ delivery ∈ signed, message = signedBytes delivery.1 delivery.2

/-- **Webhook authentication** is sound and complete, binds header and body to one signed pair of
timestamp and body, splits the signed bytes in no other way, and is indifferent to entries that are
added, repeated or reordered. -/
theorem webhook_authentication (lower : LowerCase) (mac : List UInt8 → List UInt8 → List UInt8)
    (input : VerifyAgencWebhookSignatureInput) :
    (verifyAgencWebhookSignature lower mac input = true ↔
      ∃ toleranceMs nowMs t, AdmissibleTolerance input toleranceMs ∧ ClockAt input nowMs ∧
        Authentic mac input.signatureHeader input.secret input.rawBody toleranceMs nowMs t) ∧
    (∀ signed, IdealFor mac input.secret input.signatureHeader signed →
      verifyAgencWebhookSignature lower mac input = true →
      ∃ value t, valuesOf timestampKey (input.signatureHeader.splitOn 0x2C) = [value] ∧
        Number.ofDecimal value = t ∧ (t, input.rawBody) ∈ signed) ∧
    (∀ t t' body body', signedBytes (t : ℕ) body = signedBytes (t' : ℕ) body' →
      t = t' ∧ body = body') ∧
    ∀ header' added, (header'.splitOn 0x2C).Perm (input.signatureHeader.splitOn 0x2C ++ added) →
      (∀ part ∈ added, AddedPart part) →
      verifyAgencWebhookSignature lower mac input = true →
      verifyAgencWebhookSignature lower mac { input with signatureHeader := header' } = true := by
  refine ⟨verify_eq_true lower mac input, ?_, fun _ _ _ _ h => signedBytes_inj h, ?_⟩
  · intro signed hideal h
    obtain ⟨_, _, t, -, -, hauthentic⟩ := (verify_eq_true lower mac input).mp h
    obtain ⟨value, hvalue, htime⟩ := hauthentic.timestamp
    obtain ⟨⟨t', body⟩, hmem, hbytes⟩ := hideal _ hauthentic.signed
    obtain ⟨rfl, rfl⟩ := signedBytes_inj hbytes
    exact ⟨value, t, hvalue, htime, hmem⟩
  · intro header' added hparts hadded h
    obtain ⟨toleranceMs, nowMs, t, htolerance, hnow, hauthentic⟩ :=
      (verify_eq_true lower mac input).mp h
    exact (verify_eq_true lower mac _).mpr
      ⟨toleranceMs, nowMs, t, htolerance, hnow, hauthentic.more hparts hadded⟩

/-! ## A genuine delivery -/

/-- Lower case in ASCII only. -/
def LowerCase.ofAscii : LowerCase where
  toLowerCase text := text.map asciiLower
  ascii _ _ := rfl
  hex _ h u hu := lt_of_isHexLower (h _ (List.mem_map_of_mem hu))

/-- A delivery under a MAC that shows the message. -/
def genuineDelivery : VerifyAgencWebhookSignatureInput where
  rawBody := ['a']
  signatureHeader := JsonValue.word "t=1,v1=312e61"
  secret := ['s']
  toleranceMs := none
  now := some (Number.ofNat 1)

theorem genuineDelivery_accepted :
    verifyAgencWebhookSignature .ofAscii (fun _ message => message) genuineDelivery = true ∧
      ∃ value t, valuesOf timestampKey (genuineDelivery.signatureHeader.splitOn 0x2C) = [value] ∧
        Number.ofDecimal value = t ∧ (t, genuineDelivery.rawBody) ∈ ({(1, ['a'])} : Set _) := by
  have hmain := webhook_authentication .ofAscii (fun _ message => message) genuineDelivery
  have hsplit : genuineDelivery.signatureHeader.splitOn 0x2C =
      [JsonValue.word "t=1", JsonValue.word "v1=312e61"] := by decide
  have hsignatures : valuesOf signatureKey (genuineDelivery.signatureHeader.splitOn 0x2C) =
      [JsonValue.word "312e61"] := by decide
  have hshown : (JsonValue.word "312e61").map asciiLower = toHex (signedBytes (1 : ℕ) ['a']) := by
    decide
  have hideal : IdealFor (fun _ message => message) genuineDelivery.secret
      genuineDelivery.signatureHeader {(1, ['a'])} := by
    rintro message ⟨value, hvalue, htag⟩
    rw [hsignatures, List.mem_singleton] at hvalue
    rw [hvalue, hshown] at htag
    exact ⟨_, rfl, (hexText_inj htag).symm⟩
  have haccepted : verifyAgencWebhookSignature .ofAscii (fun _ message => message)
      genuineDelivery = true := by
    refine hmain.1.mpr ⟨300000, 1, 1, ⟨?_, by decide, by decide⟩, ⟨?_, by decide⟩, ?_⟩
    · exact Number.safeInteger_ofNat 300000
    · exact Number.safeInteger_ofNat 1
    · refine ⟨?_, ⟨JsonValue.word "1", by decide, by decide⟩, by decide, by decide,
        JsonValue.word "312e61", ?_, hshown⟩
      · rw [hsplit]
        intro part hpart
        rcases List.mem_pair.mp hpart with rfl | rfl
        · exact ⟨(timestampKey, JsonValue.word "1"), by decide,
            ⟨fun _ => by decide, fun hkey => absurd hkey (by decide)⟩⟩
        · exact ⟨(signatureKey, JsonValue.word "312e61"), by decide,
            ⟨fun hkey => absurd hkey (by decide),
              fun _ => ⟨by decide, by decide, List.all_eq_true.mp (by decide)⟩⟩⟩
      · rw [hsignatures]
        exact List.mem_singleton_self _
  exact ⟨haccepted, hmain.2.1 _ hideal haccepted⟩

end AgencCoordination.Sdk
