import LibcConformance.Case.Program
import LibcConformance.Format.Output

namespace LibcConformance

/-!
# Simulating probes

A probe is carried out on arrays of the sizes that its block of C declares, and
what can be seen afterwards is taken down as an expectation.  A probe that
would leave an array is broken and shows nothing.
-/

/-- Why a probe cannot be carried out. -/
inductive ProbeFault where
  | shortCopy (count : Nat)
  | moveOverflows (count capacity : Nat)
  | initializerTooLong (capacity : Nat)
  | moveLeavesArray (count capacity : Nat)
  | comparePastOperand (count : Nat)
  | resultOverflows (capacity : Nat)
  | stringOverflows (capacity : Nat)
  | limitTooLarge (limit capacity : Nat)
  | formatFails (failure : Format.FormatError)
  deriving Repr, DecidableEq

/-- The report of a broken probe. -/
def ProbeFault.message : ProbeFault → String
  | .shortCopy count => s!"copied fewer than {count} bytes"
  | .moveOverflows count capacity => s!"{count} bytes overflow a {capacity}-byte array"
  | .initializerTooLong capacity => s!"initializer does not fit a {capacity}-byte array"
  | .moveLeavesArray count capacity => s!"move of {count} bytes leaves the {capacity}-byte array"
  | .comparePastOperand count => s!"compare of {count} bytes reads past an operand"
  | .resultOverflows capacity => s!"result overflows the {capacity}-byte array"
  | .stringOverflows capacity => s!"string overflows the {capacity}-byte array"
  | .limitTooLarge limit capacity => s!"limit {limit} exceeds the {capacity}-byte array"
  | .formatFails failure => failure.message

namespace Simulation

/-- An array of zeros. -/
def zeros (size : Nat) : Bytes :=
  List.replicate size 0

/-- A text as an array that its terminator ends. -/
def stringArray (text : String) : Bytes :=
  (Bytes.ofText text).terminated

/-- An array of the given size that starts with a text; the text must leave room for a NUL. -/
def initialised (text : String) (capacity : Nat) : Except ProbeFault Bytes :=
  if (Bytes.ofText text).length ≥ capacity then
    .error (.initializerTooLong capacity)
  else
    .ok (Bytes.zeroPadded (stringArray text) capacity)

/-- The sign of a difference. -/
def signOf (difference : Int) : Ordering :=
  compare difference 0

/-- The array after a call that answered, or the fault if it was refused. -/
def accepted (outcome : Outcome (Option Nat)) (fault : ProbeFault) : Except ProbeFault Bytes :=
  match outcome.answer with
  | some _ => .ok outcome.array
  | none => .error fault

/-- The length and the array after a formatting call. -/
def formatted (outcome : Outcome (Except Format.FormatError Nat)) :
    Except ProbeFault (Nat × Bytes) :=
  match outcome.answer with
  | .ok length => .ok (length, outcome.array)
  | .error failure => .error (.formatFails failure)

/-- What can be seen of a formatting call. -/
def observeFormat (template : Bytes) (arguments : List Format.Argument) :
    Sink → Except ProbeFault Expectation
  | .console =>
      match Format.format template arguments with
      | .ok output => .ok (.formatted output.length none)
      | .error failure => .error (.formatFails failure)
  | .buffer capacity => do
      let (length, array) ← formatted (Format.sprintf (zeros capacity) template arguments)
      pure (.formatted length (some array.cString))
  | .bounded capacity bound => do
      let (length, array) ← formatted (Format.snprintf (zeros capacity) bound template arguments)
      pure (.formatted length (if bound > 0 then some array.cString else none))

/--
Carries out a probe.  The expectation matters only for a move inside an array:
where completion is all that is expected, completion is all that is seen.
-/
def observe (expectation : Expectation) : Probe → Except ProbeFault Expectation
  | .fill size byte =>
      let array := (CharArray.memset (zeros (size + 1)) byte size).array.set size 0
      .ok (.bytes (array.take size))
  | .copy payload =>
      let count := (Bytes.ofText payload).length
      let outcome := CharArray.memcpy (zeros (count + 1)) (stringArray payload) count
      if outcome.answer ≠ count then
        .error (.shortCopy count)
      else
        .ok (.bytes ((outcome.array.set count 0).take count))
  | .moveBetween source capacity =>
      let array := stringArray source
      let count := CharArray.strlen array + 1
      if count > capacity then
        .error (.moveOverflows count capacity)
      else
        .ok (.bytes ((CharArray.memmove (zeros capacity) array count).array.take count))
  | .moveWithin initial capacity target source count => do
      let array ← initialised initial capacity
      let moved ← accepted (CharArray.memmoveWithin array target source count)
        (.moveLeavesArray count capacity)
      pure (if expectation = .completes then .completes else .bytes moved.cString)
  | .compare left right count =>
      let first := left.initializer.storage
      let second := right.initializer.storage
      if count > first.length ∨ count > second.length then
        .error (.comparePastOperand count)
      else
        .ok (.sign (CharArray.memcmp first second count))
  | .length text => .ok (.length (CharArray.strlen (stringArray text)))
  | .append front back capacity => do
      let array ← initialised front capacity
      let joined ← accepted (CharArray.strcat array (stringArray back))
        (.resultOverflows capacity)
      pure (.bytes joined.cString)
  | .copyString text capacity => do
      let copied ← accepted (CharArray.strcpy (zeros capacity) (stringArray text))
        (.stringOverflows capacity)
      pure (.bytes copied.cString)
  | .copyBounded source count capacity =>
      if count > capacity then
        .error (.limitTooLarge count capacity)
      else
        let outcome := CharArray.strncpy (zeros capacity) (stringArray source) count
        .ok (.bytes (outcome.array.take count))
  | .compareStrings left right bound =>
      let difference :=
        match bound with
        | some limit => CharArray.strncmp (stringArray left) (stringArray right) limit
        | none => CharArray.strcmp (stringArray left) (stringArray right)
      .ok (.sign (signOf difference))
  | .format template arguments sink =>
      observeFormat (Bytes.ofText template) (arguments.map CallArgument.value) sink

end Simulation

end LibcConformance
