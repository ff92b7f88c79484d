import LibcConformance.CharArray.Terminated
import LibcConformance.Format.Output

namespace LibcConformance

/-!
# Calls on arrays that live on

A session is a row of arrays and the calls made on them one after another.
Each call writes to one array, which it names by its place, and may read its
source from another.
-/

namespace CharArray

/-- Where a call reads from: bytes of its own, or what an array holds at that moment. -/
inductive Source where
  | bytes (bytes : Bytes)
  | array (index : Nat)
  deriving Repr, DecidableEq

/-- The contents of an array; one that does not exist holds nothing. -/
def contents (arrays : List Bytes) (index : Nat) : Bytes :=
  arrays.getD index []

/-- What a source holds. -/
def Source.read (arrays : List Bytes) : Source → Bytes
  | .bytes own => own
  | .array index => contents arrays index

/-- What a call does to its array. -/
inductive Action where
  | memset (value : UInt8) (count : Nat)
  | memcpy (source : Source) (count : Nat)
  | memmove (source : Source) (count : Nat)
  | memmoveWithin (target source count : Nat)
  | strcpy (source : Source)
  | strncpy (source : Source) (count : Nat)
  | strcat (source : Source)
  | sprintf (template : Bytes) (arguments : List Format.Argument)
  | snprintf (bound : Nat) (template : Bytes) (arguments : List Format.Argument)
  deriving Repr, DecidableEq

/-- A call on an array. -/
structure Call where
  destination : Nat
  action : Action
  deriving Repr, DecidableEq

/-- What a call answers. -/
inductive Answer where
  | count (count : Nat)
  | refused
  | failed (failure : Format.FormatError)
  deriving Repr, DecidableEq

namespace Answer

/-- The answer of a call that may refuse. -/
def ofOption : Option Nat → Answer
  | some number => .count number
  | none => .refused

/-- The answer of a call that may fail. -/
def ofExcept : Except Format.FormatError Nat → Answer
  | .ok number => .count number
  | .error failure => .failed failure

end Answer

/-- What an action answers, and what it leaves in its array. -/
def Action.run (arrays : List Bytes) (destination : Bytes) : Action → Outcome Answer
  | .memset value count => (CharArray.memset destination value count).map .count
  | .memcpy source count => (CharArray.memcpy destination (source.read arrays) count).map .count
  | .memmove source count => (CharArray.memmove destination (source.read arrays) count).map .count
  | .memmoveWithin target source count =>
      (CharArray.memmoveWithin destination target source count).map .ofOption
  | .strcpy source => (CharArray.strcpy destination (source.read arrays)).map .ofOption
  | .strncpy source count => (CharArray.strncpy destination (source.read arrays) count).map .count
  | .strcat source => (CharArray.strcat destination (source.read arrays)).map .ofOption
  | .sprintf template arguments =>
      (Format.sprintf destination template arguments).map .ofExcept
  | .snprintf bound template arguments =>
      (Format.snprintf destination bound template arguments).map .ofExcept

/-- Makes a call, and answers the arrays afterwards. -/
def Call.run (call : Call) (arrays : List Bytes) : Answer × List Bytes :=
  let outcome := call.action.run arrays (contents arrays call.destination)
  (outcome.answer, arrays.set call.destination outcome.array)

/-- Makes calls in order, and answers what each answered and the arrays at the end. -/
def runCalls (arrays : List Bytes) : List Call → List Answer × List Bytes
  | [] => ([], arrays)
  | call :: rest =>
      let (answer, after) := call.run arrays
      let (answers, last) := runCalls after rest
      (answer :: answers, last)

/-- Every call answers. -/
theorem length_answers_runCalls (arrays : List Bytes) (calls : List Call) :
    (runCalls arrays calls).1.length = calls.length := by
  induction calls generalizing arrays with
  | nil => rfl
  | cons call rest inductionHypothesis =>
      simp only [runCalls, List.length_cons, inductionHypothesis]

/-- Calls in a row are the first ones and then, on what these leave, the others. -/
theorem runCalls_append (arrays : List Bytes) (front back : List Call) :
    runCalls arrays (front ++ back) =
      ((runCalls arrays front).1 ++ (runCalls (runCalls arrays front).2 back).1,
        (runCalls (runCalls arrays front).2 back).2) := by
  induction front generalizing arrays with
  | nil => rfl
  | cons call rest inductionHypothesis =>
      simp only [List.cons_append, runCalls, inductionHypothesis]

/-- A call of a run answers what it answers on the arrays that the calls before it leave. -/
theorem getElem?_answers_runCalls (arrays : List Bytes) (front : List Call) (call : Call)
    (later : List Call) :
    (runCalls arrays (front ++ call :: later)).1[front.length]? =
      some (call.run (runCalls arrays front).2).1 := by
  rw [runCalls_append, ← length_answers_runCalls arrays front,
    List.getElem?_append_right (Nat.le_refl _), Nat.sub_self]
  rfl

end CharArray

end LibcConformance
