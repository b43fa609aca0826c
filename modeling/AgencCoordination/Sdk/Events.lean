import AgencCoordination.Foundations.CallLog
import Mathlib.Algebra.Group.Nat.Defs
import Mathlib.Tactic.Common

/-!
# Events in transaction logs

`decodeAttributedEvents` of the SDK: it scans the log messages of a transaction, follows the
runtime's call and return lines, and decodes a data line only while agenc-coordination is the
program it believes running. A log message is its list of characters; what decodes a base64 blob
is a parameter.
-/

namespace AgencCoordination.Sdk

open Foundations

/-! ## The patterns of a line -/

/-- `PROGRAM_DATA_PREFIX`. -/
def programDataPrefix : List Char := "Program data: ".toList

/-- `PROGRAM_LOG_PREFIX`. -/
def programLogPrefix : List Char := "Program log: ".toList

/-- `PROGRAM_RETURN_PREFIX`. -/
def programReturnPrefix : List Char := "Program return: ".toList

/-- The ranges of `\s`. -/
def regexSpaceRanges : List (ℕ × ℕ) :=
  [(0x9, 0xd), (0x20, 0x20), (0xa0, 0xa0), (0x1680, 0x1680), (0x2000, 0x200a), (0x2028, 0x2029),
    (0x202f, 0x202f), (0x205f, 0x205f), (0x3000, 0x3000), (0xfeff, 0xfeff)]

/-- Whether `\S` matches the character. -/
def isRegexNonSpace (c : Char) : Bool :=
  !regexSpaceRanges.any fun range => decide (range.1 ≤ c.toNat ∧ c.toNat ≤ range.2)

/-- `^Program (\S+)`, and what follows the program id. The id ends at the first space, since every
pattern goes on with one. -/
def matchProgram (line : List Char) : Option (List Char × List Char) := do
  let rest ← List.dropPrefix? line "Program ".toList
  let programId := rest.takeWhile isRegexNonSpace
  if programId = [] then none else some (programId, rest.dropWhile isRegexNonSpace)

/-- `INVOKE_LINE`: the program id and the digits of the depth. -/
def matchInvokeLine (line : List Char) : Option (List Char × List Char) := do
  let (programId, rest) ← matchProgram line
  let digits ← List.dropPrefix? rest " invoke [".toList
  if digits.takeWhile Char.isDigit ≠ [] ∧ digits.dropWhile Char.isDigit = "]".toList then
    some (programId, digits.takeWhile Char.isDigit)
  else none

/-- `SUCCESS_LINE`. -/
def matchSuccessLine (line : List Char) : Option (List Char) := do
  let (programId, rest) ← matchProgram line
  if rest = " success".toList then some programId else none

/-- `FAILED_LINE`. -/
def matchFailedLine (line : List Char) : Option (List Char) := do
  let (programId, rest) ← matchProgram line
  if " failed".toList.isPrefixOf rest then some programId else none

/-! ## The scan -/

/-- `AGENC_COORDINATION_PROGRAM_ADDRESS`. -/
def agencCoordinationProgramAddress : List Char :=
  "HJsZ53Zb27b8QMRbQpuDngE44AdwCGxvEZr61Zmxw1xK".toList

/-- The execution stack, the executing program first; `none` marks an unknown frame. -/
abbrev ExecutionStack : Type := List (Option (List Char))

/-- An `invoke [n]` line: exactly `n - 1` callers are active. -/
def resync (stack : ExecutionStack) (programId : List Char) (depth : ℕ) : ExecutionStack :=
  let stack :=
    if depth - 1 < stack.length then stack.drop (stack.length - (depth - 1)) else stack
  some programId :: (List.replicate (depth - 1 - stack.length) none ++ stack)

/-- A terminator: it pops its own frame, with the frames whose terminators were missed. -/
def popThrough (stack : ExecutionStack) (programId : List Char) : ExecutionStack :=
  if stack.head? = some (some programId) then stack.tail
  else if some programId ∈ stack then
    (stack.dropWhile fun frame => decide (frame ≠ some programId)).tail
  else stack

/-- `Number.isSafeInteger` of `Number.parseInt`, for digits. -/
def isSafeDepth (depth : ℕ) : Bool := decide (1 ≤ depth ∧ depth < 2 ^ 53)

variable {AgencEvent : Type}

/-- One line of `decodeAttributedEvents`: the stack after it, and the event it yields. -/
def scanLine (decodeEventBlob : List Char → Option AgencEvent) (stack : ExecutionStack)
    (line : List Char) : ExecutionStack × Option AgencEvent :=
  if programLogPrefix.isPrefixOf line then (stack, none)
  else if programReturnPrefix.isPrefixOf line then (stack, none)
  else if programDataPrefix.isPrefixOf line then
    if stack.head? = some (some agencCoordinationProgramAddress) then
      (stack, decodeEventBlob (line.drop programDataPrefix.length))
    else (stack, none)
  else
    match matchInvokeLine line with
    | some (programId, digits) =>
        let depth := Nat.ofDigitChars 10 digits 0
        (if isSafeDepth depth then resync stack programId depth else stack, none)
    | none =>
        match (matchSuccessLine line).orElse fun _ => matchFailedLine line with
        | some programId => (popThrough stack programId, none)
        | none => (stack, none)

/-- `decodeAttributedEvents`, from a stack. -/
def decodeAttributedEvents (decodeEventBlob : List Char → Option AgencEvent) :
    ExecutionStack → List (List Char) → List AgencEvent
  | _, [] => []
  | stack, line :: logMessages =>
      (scanLine decodeEventBlob stack line).2.toList ++
        decodeAttributedEvents decodeEventBlob (scanLine decodeEventBlob stack line).1 logMessages

/-- `parseAgencCoordinationEvents`. -/
def parseAgencCoordinationEvents (decodeEventBlob : List Char → Option AgencEvent)
    (logMessages : List (List Char)) : List AgencEvent :=
  decodeAttributedEvents decodeEventBlob [] logMessages

/-! ## What the runtime writes -/

def base58Alphabet : List Char :=
  "123456789ABCDEFGHJKLMNPQRSTUVWXYZabcdefghijkmnopqrstuvwxyz".toList

/-- The address of a program, as it is written in a log. -/
structure ProgramAddress where
  chars : List Char
  nonempty : chars ≠ []
  base58 : ∀ c ∈ chars, c ∈ base58Alphabet
  deriving DecidableEq

/-- The lines of a log: what programs log, emit and return, the runtime's own call and return
lines, its remarks on compute units, and its mark for a log that was cut off. -/
inductive RuntimeLine where
  | log (text : List Char)
  | data (blob : List Char)
  | returned (text : List Char)
  | invoke (program : ProgramAddress) (depth : ℕ)
  | success (program : ProgramAddress)
  | failed (program : ProgramAddress) (error : List Char)
  | consumed (program : ProgramAddress) (units : List Char)
  | truncated
  deriving DecidableEq

namespace RuntimeLine

/-- The line as text. -/
def text : RuntimeLine → List Char
  | .log t => programLogPrefix ++ t
  | .data blob => programDataPrefix ++ blob
  | .returned t => programReturnPrefix ++ t
  | .invoke program depth =>
      "Program ".toList ++ program.chars ++ " invoke [".toList ++ Nat.toDigits 10 depth ++
        "]".toList
  | .success program => "Program ".toList ++ program.chars ++ " success".toList
  | .failed program error => "Program ".toList ++ program.chars ++ " failed: ".toList ++ error
  | .consumed program units =>
      "Program ".toList ++ program.chars ++ " consumed ".toList ++ units
  | .truncated => "Log truncated".toList

/-- What the line tells about the calls. -/
def mark : RuntimeLine → CallMark (List Char) (List Char)
  | .data blob => .emit blob
  | .invoke program depth => .enter program.chars depth
  | .success program => .leave program.chars
  | .failed program _ => .leave program.chars
  | .log _ => .quiet
  | .returned _ => .quiet
  | .consumed _ _ => .quiet
  | .truncated => .quiet

end RuntimeLine

/-- A line of a transaction's log and the program that was running when it was written. -/
structure RuntimeEntry where
  line : RuntimeLine
  running : Option ProgramAddress
  deriving DecidableEq

def RuntimeEntry.call (x : RuntimeEntry) : CallLine (List Char) (List Char) :=
  ⟨x.line.mark, x.running.map ProgramAddress.chars⟩

/-- The log a transaction leaves: its calls are properly nested, and nothing is emitted outside
of them. -/
def WellFormedLog (log : List RuntimeEntry) : Prop :=
  Nested none 0 (log.map RuntimeEntry.call)

/-- The messages of a log. -/
def logMessages (log : List RuntimeEntry) : List (List Char) := log.map fun x => x.line.text

/-- Whether agenc-coordination was running. -/
def RuntimeEntry.byAgenc (x : RuntimeEntry) : Prop :=
  x.running.map ProgramAddress.chars = some agencCoordinationProgramAddress

instance : DecidablePred RuntimeEntry.byAgenc := fun _ => inferInstanceAs (Decidable (_ = _))

/-- The event a line carries, if it is a data line that decodes. -/
def RuntimeEntry.event (decodeEventBlob : List Char → Option AgencEvent) (x : RuntimeEntry) :
    Option AgencEvent :=
  match x.line with
  | .data blob => decodeEventBlob blob
  | _ => none

end AgencCoordination.Sdk
