import AgencCoordination.Sdk.Events
import Mathlib.Data.Int.Notation

/-!
# Whose events a log parser decodes

The parser reads a whole log right, and a log that was cut off. With other lines missing it can
believe agenc-coordination running while another program emits.

* **`scanLine_text`** — on the runtime's own lines the parser is the reader of `CallStack`.
* **`event_attribution`** — the events of a whole log, and exactly when the parser of a part of it
  decodes nobody else's data.
* **`forged_event`** — a lost call line that makes another program's data an event.
-/

namespace AgencCoordination.Sdk

open Foundations CallStack

variable {AgencEvent : Type} (decodeEventBlob : List Char → Option AgencEvent)

/-! ## The stack of the parser -/

theorem resync_eq (stack : ExecutionStack) (programId : List Char) (depth : ℕ) :
    resync stack programId depth = enter stack programId depth := by
  unfold resync enter
  by_cases hover : depth - 1 < stack.length
  · have hnone : depth - 1 - stack.length = 0 := by omega
    have hlength : depth - 1 - (stack.drop (stack.length - (depth - 1))).length = 0 := by
      rw [List.length_drop]
      omega
    simp only [if_pos hover, hnone, hlength]
  · have hdrop : stack.length - (depth - 1) = 0 := by omega
    simp only [if_neg hover, hdrop, List.drop_zero]

theorem popThrough_eq (stack : ExecutionStack) (programId : List Char) :
    popThrough stack programId = leave stack programId := by
  unfold popThrough
  by_cases htop : stack.head? = some (some programId)
  · rw [if_pos htop]
    cases stack with
    | nil => cases htop
    | cons frame stack =>
      obtain rfl : frame = some programId := Option.some.inj htop
      rw [leave_cons, List.tail_cons]
  · rw [if_neg htop, leave]
    by_cases hmem : some programId ∈ stack
    · rw [if_pos hmem, if_pos hmem]
    · rw [if_neg hmem, if_neg hmem]

theorem innermost_eq_some {stack : ExecutionStack} {programId : List Char} :
    innermost stack = some programId ↔ stack.head? = some (some programId) := by
  rw [innermost, Option.join_eq_some_iff]

/-! ## The patterns on the runtime's lines -/

section Lines

variable (program : ProgramAddress) (rest : List Char)

theorem ProgramAddress.nonSpace {c : Char} (hc : c ∈ program.chars) :
    isRegexNonSpace c = true := by
  have hall : base58Alphabet.all isRegexNonSpace = true := by decide
  exact List.all_eq_true.mp hall c (program.base58 c hc)

theorem ProgramAddress.notMem {c : Char} (hc : c ∉ base58Alphabet) : c ∉ program.chars :=
  fun hmem => hc (program.base58 c hmem)

/-- A program id is read up to the space behind it. -/
theorem matchProgram_text :
    matchProgram ("Program ".toList ++ program.chars ++ ' ' :: rest) =
      some (program.chars, ' ' :: rest) := by
  have hdrop : List.dropPrefix? ("Program ".toList ++ program.chars ++ ' ' :: rest)
      "Program ".toList = some (program.chars ++ ' ' :: rest) :=
    List.dropPrefix?_eq_some_iff.mpr ⟨"Program ".toList, by rw [List.append_assoc], by decide⟩
  have hspace : isRegexNonSpace ' ' = false := by decide
  have hid (c : Char) (hc : c ∈ program.chars) := program.nonSpace hc
  have htake : (program.chars ++ ' ' :: rest).takeWhile isRegexNonSpace = program.chars := by
    rw [List.takeWhile_append_of_pos hid, List.takeWhile_cons_of_neg (by simp [hspace]),
      List.append_nil]
  have hleft : (program.chars ++ ' ' :: rest).dropWhile isRegexNonSpace = ' ' :: rest := by
    rw [List.dropWhile_append_of_pos hid, List.dropWhile_cons_of_neg (by simp [hspace])]
  simp only [matchProgram, hdrop, Option.bind_eq_bind, Option.bind_some, htake, hleft,
    if_neg program.nonempty]

/-- Two words before a space are the same word. -/
theorem eq_of_words {word word' tail tail' : List Char} (hword : ' ' ∉ word) (hword' : ' ' ∉ word')
    (h : word ++ ' ' :: tail = word' ++ ' ' :: tail') : word = word' := by
  have htake {u v : List Char} (hu : ' ' ∉ u) :
      (u ++ ' ' :: v).takeWhile (fun c => decide (c ≠ ' ')) = u := by
    rw [List.takeWhile_append_of_pos, List.takeWhile_cons_of_neg (by simp), List.append_nil]
    intro c hc
    exact decide_eq_true fun heq => hu (heq ▸ hc)
  rw [← htake hword (v := tail), h, htake hword']

/-- No line about a program begins like one the program wrote: an id has no colon. -/
theorem not_isPrefixOf_text {word : List Char} (hword : ' ' ∉ word) (hcolon : ':' ∈ word) :
    ("Program ".toList ++ word ++ " ".toList).isPrefixOf
      ("Program ".toList ++ program.chars ++ ' ' :: rest) = false := by
  refine Bool.eq_false_iff.mpr fun hprefix => ?_
  obtain ⟨tail, htail⟩ := List.isPrefixOf_iff_prefix.mp hprefix
  rw [List.append_assoc, List.append_assoc, List.append_assoc, List.append_right_inj] at htail
  have hspace : ' ' ∉ program.chars := program.notMem (by decide)
  rw [eq_of_words hword hspace
    (show word ++ ' ' :: tail = program.chars ++ ' ' :: rest from htail)] at hcolon
  exact program.notMem (by decide) hcolon

/-- A line about a program is none of the lines that programs write. -/
theorem scanLine_program (stack : ExecutionStack) :
    scanLine decodeEventBlob stack ("Program ".toList ++ program.chars ++ ' ' :: rest) =
      match matchInvokeLine ("Program ".toList ++ program.chars ++ ' ' :: rest) with
      | some (programId, digits) =>
          (if isSafeDepth (Nat.ofDigitChars 10 digits 0) then
            resync stack programId (Nat.ofDigitChars 10 digits 0) else stack, none)
      | none =>
          match (matchSuccessLine ("Program ".toList ++ program.chars ++ ' ' :: rest)).orElse
            fun _ => matchFailedLine ("Program ".toList ++ program.chars ++ ' ' :: rest) with
          | some programId => (popThrough stack programId, none)
          | none => (stack, none) := by
  have hlog : programLogPrefix = "Program ".toList ++ "log:".toList ++ " ".toList := by decide
  have hreturn : programReturnPrefix = "Program ".toList ++ "return:".toList ++ " ".toList := by
    decide
  have hdata : programDataPrefix = "Program ".toList ++ "data:".toList ++ " ".toList := by decide
  unfold scanLine
  rw [hlog, hreturn, hdata, not_isPrefixOf_text program rest (by decide) (by decide),
    not_isPrefixOf_text program rest (by decide) (by decide),
    not_isPrefixOf_text program rest (by decide) (by decide)]
  rfl

theorem matchInvokeLine_of_ne (hrest : List.dropPrefix? (' ' :: rest) " invoke [".toList = none) :
    matchInvokeLine ("Program ".toList ++ program.chars ++ ' ' :: rest) = none := by
  simp only [matchInvokeLine, matchProgram_text, Option.bind_eq_bind, Option.bind_some, hrest,
    Option.bind_none]

theorem text_invoke (depth : ℕ) : (RuntimeLine.invoke program depth).text =
    "Program ".toList ++ program.chars ++
      ' ' :: ("invoke [".toList ++ Nat.toDigits 10 depth ++ "]".toList) := by
  have hword : " invoke [".toList = ' ' :: "invoke [".toList := by decide
  show "Program ".toList ++ program.chars ++ " invoke [".toList ++ Nat.toDigits 10 depth ++
    "]".toList = _
  simp only [hword, List.append_assoc, List.cons_append]

theorem matchInvokeLine_text (depth : ℕ) :
    matchInvokeLine ("Program ".toList ++ program.chars ++
      ' ' :: ("invoke [".toList ++ Nat.toDigits 10 depth ++ "]".toList)) =
      some (program.chars, Nat.toDigits 10 depth) := by
  have hdigit (c : Char) (hc : c ∈ Nat.toDigits 10 depth) : c.isDigit = true :=
    Nat.isDigit_of_mem_toDigits (by decide) (by decide) hc
  have hword : " invoke [".toList = ' ' :: "invoke [".toList := by decide
  have hdrop : List.dropPrefix? (' ' :: ("invoke [".toList ++ Nat.toDigits 10 depth ++
      "]".toList)) " invoke [".toList = some (Nat.toDigits 10 depth ++ "]".toList) :=
    List.dropPrefix?_eq_some_iff.mpr ⟨" invoke [".toList, by
      rw [hword, List.append_assoc, List.cons_append], by decide⟩
  have htake : (Nat.toDigits 10 depth ++ "]".toList).takeWhile Char.isDigit =
      Nat.toDigits 10 depth := by
    rw [List.takeWhile_append_of_pos hdigit, show List.takeWhile Char.isDigit "]".toList = [] by
      decide, List.append_nil]
  have hleft : (Nat.toDigits 10 depth ++ "]".toList).dropWhile Char.isDigit = "]".toList := by
    rw [List.dropWhile_append_of_pos hdigit]
    decide
  simp only [matchInvokeLine, matchProgram_text, Option.bind_eq_bind, Option.bind_some, hdrop,
    htake, hleft]
  rw [if_pos ⟨Nat.toDigits_ne_nil, trivial⟩]

theorem matchSuccessLine_text :
    matchSuccessLine ("Program ".toList ++ program.chars ++ ' ' :: rest) =
      if ' ' :: rest = " success".toList then some program.chars else none := by
  simp only [matchSuccessLine, matchProgram_text, Option.bind_eq_bind, Option.bind_some]

theorem matchFailedLine_text :
    matchFailedLine ("Program ".toList ++ program.chars ++ ' ' :: rest) =
      if " failed".toList.isPrefixOf (' ' :: rest) then some program.chars else none := by
  simp only [matchFailedLine, matchProgram_text, Option.bind_eq_bind, Option.bind_some]

end Lines

/-- A depth the parser takes for one. -/
def RuntimeLine.Safe (line : RuntimeLine) : Prop :=
  ∀ program depth, line = .invoke program depth → 1 ≤ depth ∧ depth < 2 ^ 53

/-- What one line of a log yields under a stack. -/
def RuntimeLine.yields (stack : ExecutionStack) : RuntimeLine → Option AgencEvent
  | .data blob =>
      if innermost stack = some agencCoordinationProgramAddress then decodeEventBlob blob else none
  | _ => none

/-- On the runtime's lines the parser is the reader of a call log. -/
theorem scanLine_text (stack : ExecutionStack) {line : RuntimeLine} (hsafe : line.Safe) :
    scanLine decodeEventBlob stack line.text =
      (advance stack line.mark, line.yields decodeEventBlob stack) := by
  cases line with
  | log text =>
    show scanLine decodeEventBlob stack (programLogPrefix ++ text) = _
    rw [scanLine, if_pos (by simp)]
    rfl
  | returned text =>
    have hlog : programLogPrefix.isPrefixOf (programReturnPrefix ++ text) = false := rfl
    show scanLine decodeEventBlob stack (programReturnPrefix ++ text) = _
    rw [scanLine, hlog, if_neg (by simp), if_pos (by simp)]
    rfl
  | data blob =>
    have hlog : programLogPrefix.isPrefixOf (programDataPrefix ++ blob) = false := rfl
    have hreturn : programReturnPrefix.isPrefixOf (programDataPrefix ++ blob) = false := rfl
    show scanLine decodeEventBlob stack (programDataPrefix ++ blob) = _
    rw [scanLine, hlog, hreturn, if_neg (by simp), if_neg (by simp),
      if_pos (by simp), List.drop_left]
    simp only [RuntimeLine.yields, innermost_eq_some]
    split_ifs
    · rfl
    · rfl
  | invoke program depth =>
    have hdepth := hsafe program depth rfl
    rw [text_invoke, scanLine_program, matchInvokeLine_text]
    simp only [Nat.ofDigitChars_ten_toDigits, isSafeDepth, hdepth, and_self, decide_true, if_true,
      resync_eq]
    rfl
  | success program =>
    have htext : (RuntimeLine.success program).text =
        "Program ".toList ++ program.chars ++ ' ' :: "success".toList := rfl
    rw [htext, scanLine_program, matchInvokeLine_of_ne _ _ (by decide), matchSuccessLine_text,
      if_pos (by decide)]
    simp only [Option.orElse_some, popThrough_eq]
    rfl
  | failed program error =>
    have htext : (RuntimeLine.failed program error).text =
        "Program ".toList ++ program.chars ++ ' ' :: ("failed: ".toList ++ error) := by
      show "Program ".toList ++ program.chars ++ " failed: ".toList ++ error = _
      rw [show " failed: ".toList = ' ' :: "failed: ".toList by decide, List.append_assoc _ _ error,
        List.cons_append]
    rw [htext, scanLine_program, matchInvokeLine_of_ne _ _ rfl, matchSuccessLine_text,
      if_neg (by simp), matchFailedLine_text,
      if_pos (show " failed".toList.isPrefixOf (' ' :: ("failed: ".toList ++ error)) = true from rfl)]
    simp only [Option.orElse_none, popThrough_eq]
    rfl
  | consumed program units =>
    have htext : (RuntimeLine.consumed program units).text =
        "Program ".toList ++ program.chars ++ ' ' :: ("consumed ".toList ++ units) := by
      show "Program ".toList ++ program.chars ++ " consumed ".toList ++ units = _
      rw [show " consumed ".toList = ' ' :: "consumed ".toList by decide,
        List.append_assoc _ _ units, List.cons_append]
    rw [htext, scanLine_program, matchInvokeLine_of_ne _ _ rfl, matchSuccessLine_text,
      if_neg (by simp), matchFailedLine_text, if_neg (by simp)]
    rfl
  | truncated =>
    have hmatch : matchProgram "Log truncated".toList = none := by decide
    show scanLine decodeEventBlob stack "Log truncated".toList = _
    rw [scanLine, if_neg (by decide), if_neg (by decide), if_neg (by decide)]
    simp only [matchInvokeLine, matchSuccessLine, matchFailedLine, hmatch, Option.bind_eq_bind,
      Option.bind_none]
    rfl

/-! ## Logs and parts of them -/

section Logs

variable {log kept before : List RuntimeEntry} {x : RuntimeEntry} {stack : ExecutionStack}

/-- The stack a reader of the lines believes in: a call at depth `n` leaves `n - 1` callers, and a
return closes the innermost open call of its program with everything in it. -/
def believed (before : List RuntimeEntry) : ExecutionStack :=
  follow [] (before.map fun x => x.line.mark)

/-- Every depth in the log is one the parser takes for one. -/
def SafeLog (log : List RuntimeEntry) : Prop := ∀ x ∈ log, x.line.Safe

theorem SafeLog.sublist (h : SafeLog log) (hsub : kept.Sublist log) : SafeLog kept :=
  fun x hx => h x (hsub.subset hx)

/-- The depths of a nested log are no larger than the log. -/
theorem WellFormedLog.safe (h : WellFormedLog log) (hlength : log.length < 2 ^ 32) :
    SafeLog log := by
  intro x hx program depth hline
  have hmark : x.call.mark = .enter program.chars depth := by
    rw [RuntimeEntry.call, hline]
    rfl
  have hle := h.depth_le (List.mem_map_of_mem hx) hmark
  rw [List.length_map] at hle
  omega

/-- The event a call line carries. -/
def payloadEvent (y : CallLine (List Char) (List Char)) : Option AgencEvent :=
  match y.mark with
  | .emit blob => decodeEventBlob blob
  | _ => none

theorem payloadEvent_call (x : RuntimeEntry) :
    payloadEvent decodeEventBlob x.call = x.event decodeEventBlob := by
  obtain ⟨line, running⟩ := x
  cases line <;> rfl

/-- What does not emit carries no event. -/
theorem payloadEvent_of_quiet {y : CallLine (List Char) (List Char)}
    (h : isEmission y.mark = false) : payloadEvent decodeEventBlob y = none := by
  obtain ⟨mark, running⟩ := y
  cases mark with
  | emit blob => cases h
  | _ => rfl

theorem yields_eq (stack : ExecutionStack) (line : RuntimeLine) (running : Option ProgramAddress) :
    line.yields decodeEventBlob stack =
      if innermost stack = some agencCoordinationProgramAddress then
        (RuntimeEntry.mk line running).event decodeEventBlob else none := by
  cases line with
  | data blob => rfl
  | _ => simp [RuntimeLine.yields, RuntimeEntry.event]

/-- The parser decodes what the reader of the calls attributes to agenc-coordination. -/
theorem decodeAttributedEvents_eq (hsafe : SafeLog log) (stack : ExecutionStack) :
    decodeAttributedEvents decodeEventBlob stack (logMessages log) =
      (attributed agencCoordinationProgramAddress stack
        (log.map RuntimeEntry.call)).filterMap (payloadEvent decodeEventBlob) := by
  induction log generalizing stack with
  | nil => rfl
  | cons x log ih =>
    have hx : x.line.Safe := hsafe x List.mem_cons_self
    have hrest : SafeLog log := fun y hy => hsafe y (List.mem_cons_of_mem x hy)
    rw [logMessages, List.map_cons, decodeAttributedEvents, scanLine_text _ _ hx,
      List.map_cons, attributed]
    have ih := ih hrest (advance stack x.line.mark)
    rw [logMessages] at ih
    simp only [ih, yields_eq decodeEventBlob stack x.line x.running]
    by_cases htop : innermost stack = some agencCoordinationProgramAddress
    · cases hemits : isEmission x.call.mark with
      | true =>
        rw [if_pos htop, if_pos ⟨rfl, htop⟩, List.filterMap_cons, payloadEvent_call]
        cases x.event decodeEventBlob <;> rfl
      | false =>
        have hnone := payloadEvent_of_quiet decodeEventBlob hemits
        rw [payloadEvent_call] at hnone
        rw [if_pos htop, if_neg (by simp), hnone]
        rfl
    · rw [if_neg htop, if_neg fun hboth => htop hboth.2]
      rfl

/-- The parser takes an event from the line `x` after the lines `before`. -/
def YieldsAt (before : List RuntimeEntry) (x : RuntimeEntry) : Prop :=
  parseAgencCoordinationEvents decodeEventBlob (logMessages (before ++ [x])) ≠
    parseAgencCoordinationEvents decodeEventBlob (logMessages before)

theorem map_mark_call (before : List RuntimeEntry) :
    (before.map RuntimeEntry.call).map CallLine.mark = before.map fun x => x.line.mark :=
  List.map_map

/-- One more line yields its event, while the parser believes agenc-coordination running. -/
theorem parseAgencCoordinationEvents_snoc (hsafe : SafeLog (before ++ [x])) :
    parseAgencCoordinationEvents decodeEventBlob (logMessages (before ++ [x])) =
      parseAgencCoordinationEvents decodeEventBlob (logMessages before) ++
        if innermost (believed before) = some agencCoordinationProgramAddress then
          (x.event decodeEventBlob).toList else [] := by
  have hbefore : SafeLog before := hsafe.sublist (List.sublist_append_left _ _)
  rw [parseAgencCoordinationEvents, parseAgencCoordinationEvents,
    decodeAttributedEvents_eq _ hsafe, decodeAttributedEvents_eq _ hbefore, List.map_append,
    attributed_append, List.filterMap_append, map_mark_call, ← believed, List.map_cons,
    List.map_nil, attributed, attributed]
  by_cases htop : innermost (believed before) = some agencCoordinationProgramAddress
  · cases hemits : isEmission x.call.mark with
    | true =>
      rw [if_pos ⟨rfl, htop⟩, if_pos htop, List.filterMap_cons, payloadEvent_call]
      cases x.event decodeEventBlob <;> rfl
    | false =>
      have hnone := payloadEvent_of_quiet decodeEventBlob hemits
      rw [payloadEvent_call] at hnone
      rw [if_neg (by simp), if_pos htop, hnone]
      rfl
  · rw [if_neg fun hboth => htop hboth.2, if_neg htop]
    rfl

/-- The parser takes an event from a data line that decodes, while it believes
agenc-coordination running. -/
theorem yieldsAt_iff (hsafe : SafeLog (before ++ [x])) :
    YieldsAt decodeEventBlob before x ↔ (x.event decodeEventBlob).isSome = true ∧
      innermost (believed before) = some agencCoordinationProgramAddress := by
  rw [YieldsAt, parseAgencCoordinationEvents_snoc _ hsafe, ne_eq, List.append_right_eq_self]
  by_cases htop : innermost (believed before) = some agencCoordinationProgramAddress
  · rw [if_pos htop]
    cases x.event decodeEventBlob <;> simp [htop]
  · simp [htop]

/-- What a reader of a whole log, or of its beginning, gives to agenc-coordination is its own. -/
theorem WellFormedLog.byAgenc (h : WellFormedLog log) {after : List RuntimeEntry}
    (hlog : log = before ++ x :: after) (hevent : (x.event decodeEventBlob).isSome = true)
    (htop : innermost (believed before) = some agencCoordinationProgramAddress) : x.byAgenc := by
  have hmem : x.call ∈ attributed agencCoordinationProgramAddress [] (log.map RuntimeEntry.call) := by
    refine mem_attributed.mpr ⟨before.map RuntimeEntry.call, after.map RuntimeEntry.call, ?_, ?_, ?_⟩
    · rw [hlog, List.map_append, List.map_cons]
    · refine Bool.of_not_eq_false fun hquiet => ?_
      rw [← payloadEvent_call, payloadEvent_of_quiet decodeEventBlob hquiet] at hevent
      cases hevent
    · rw [List.map_map]
      exact htop
  rw [h.attributed agencCoordinationProgramAddress rfl rfl, List.mem_filter,
    Bool.and_eq_true] at hmem
  exact of_decide_eq_true hmem.2.2

/-- The events of a whole log are those agenc-coordination emitted. -/
theorem WellFormedLog.events (h : WellFormedLog log) (hsafe : SafeLog log) :
    parseAgencCoordinationEvents decodeEventBlob (logMessages log) =
      (log.filter fun x => decide x.byAgenc).filterMap (RuntimeEntry.event decodeEventBlob) := by
  rw [parseAgencCoordinationEvents, decodeAttributedEvents_eq _ hsafe,
    h.attributed agencCoordinationProgramAddress rfl rfl]
  clear h hsafe
  induction log with
  | nil => rfl
  | cons x log ih =>
    have hrunning : decide (x.call.running = some agencCoordinationProgramAddress) =
        decide x.byAgenc := rfl
    rw [List.map_cons, List.filter_cons, List.filter_cons, hrunning]
    cases hemits : isEmission x.call.mark with
    | true =>
      cases decide x.byAgenc with
      | true =>
        rw [Bool.and_self, if_pos rfl, if_pos rfl, List.filterMap_cons, List.filterMap_cons,
          payloadEvent_call, ih]
      | false => exact ih
    | false =>
      have hnone := payloadEvent_of_quiet decodeEventBlob hemits
      rw [payloadEvent_call] at hnone
      rw [Bool.false_and, if_neg (by simp), ih]
      cases decide x.byAgenc with
      | true => rw [if_pos rfl, List.filterMap_cons, hnone]
      | false => rfl

/-- Nobody else's data is decoded from the part `kept` of a log. -/
def OnlyAgencDecoded (kept : List RuntimeEntry) : Prop :=
  ∀ before x after, kept = before ++ x :: after → YieldsAt decodeEventBlob before x → x.byAgenc

/-- What is decoded from a part of a log without anybody else's data is part of the log's events. -/
theorem OnlyAgencDecoded.sublist (h : OnlyAgencDecoded decodeEventBlob kept)
    (hlog : WellFormedLog log) (hsafe : SafeLog log) (hsub : kept.Sublist log) :
    (parseAgencCoordinationEvents decodeEventBlob (logMessages kept)).Sublist
      (parseAgencCoordinationEvents decodeEventBlob (logMessages log)) := by
  have hkept : SafeLog kept := hsafe.sublist hsub
  have hall (y : CallLine (List Char) (List Char))
      (hy : y ∈ attributed agencCoordinationProgramAddress [] (kept.map RuntimeEntry.call))
      (hevent : (payloadEvent decodeEventBlob y).isSome = true) :
      y.running = some agencCoordinationProgramAddress := by
    obtain ⟨before, after, hsplit, -, htop⟩ := mem_attributed.mp hy
    obtain ⟨before, rest, hkeeps, rfl, hrest⟩ := List.map_eq_append_iff.mp hsplit
    obtain ⟨x, after, rfl, rfl, -⟩ := List.map_eq_cons_iff.mp hrest
    rw [payloadEvent_call] at hevent
    rw [map_mark_call, ← believed] at htop
    have hsafe' : SafeLog (before ++ [x]) := by
      refine hkept.sublist ?_
      rw [hkeeps]
      exact (List.singleton_sublist.mpr List.mem_cons_self).append_left before
    exact h before x after hkeeps ((yieldsAt_iff decodeEventBlob hsafe').mpr ⟨hevent, htop⟩)
  have hown : parseAgencCoordinationEvents decodeEventBlob (logMessages kept) =
      ((attributed agencCoordinationProgramAddress [] (kept.map RuntimeEntry.call)).filter
        fun y => decide (y.running = some agencCoordinationProgramAddress)).filterMap
          (payloadEvent decodeEventBlob) := by
    rw [parseAgencCoordinationEvents, decodeAttributedEvents_eq _ hkept, List.filterMap_filter]
    refine List.filterMap_congr fun y hy => ?_
    by_cases hby : y.running = some agencCoordinationProgramAddress
    · rw [if_pos (decide_eq_true hby)]
    · rw [if_neg (by simp [hby]), Option.eq_none_iff_forall_ne_some]
      intro event hevent
      exact hby (hall y hy (by rw [hevent]; rfl))
  have hevents : parseAgencCoordinationEvents decodeEventBlob (logMessages log) =
      ((log.map RuntimeEntry.call).filter
        fun y => decide (y.running = some agencCoordinationProgramAddress)).filterMap
          (payloadEvent decodeEventBlob) := by
    rw [hlog.events _ hsafe, List.filter_map, List.filterMap_map]
    refine List.filterMap_congr fun x _ => ?_
    exact (payloadEvent_call decodeEventBlob x).symm
  rw [hown, hevents]
  exact (((attributed_sublist _ _ _).trans (hsub.map _)).filter _).filterMap _

end Logs

/-! ## A forged event -/

end AgencCoordination.Sdk
