import LibcConformance.CharArray.Terminated
import LibcConformance.Format.Field

namespace LibcConformance

/-!
# Formatting calls

`format` writes a whole template.  `sprintf` puts the output and a terminator
into an array that must hold both; `snprintf` cuts the output to a bound that
the array must have room for.  A call that fails leaves its array as it was.
-/

namespace Format

/-- Writes the next argument, if it is of a kind that the conversion takes. -/
def Directive.writeNext (directive : Directive) (supply : Supply) :
    Except FormatError (Bytes × Supply) := do
  let (argument, rest) ← supply.next
  match directive.write? argument with
  | some bytes => pure (bytes, rest)
  | none => throw (supply.mismatch directive.conversion.letter)

/-- Writes a directive with the arguments it takes, and answers the ones that are left. -/
def Directive.apply (directive : Directive) (supply : Supply) :
    Except FormatError (Bytes × Supply) := do
  let (resolved, ready) ← directive.resolve supply
  resolved.writeNext ready

/-- Writes segments in order; what one takes, the next does not see. -/
def formatSegments (supply : Supply) : List Segment → Except FormatError Bytes
  | [] => .ok []
  | .literal bytes :: rest => do
      pure (bytes ++ (← formatSegments supply rest))
  | .percent :: rest => do
      pure (ascii '%' :: (← formatSegments supply rest))
  | .directive directive :: rest => do
      let (bytes, left) ← directive.apply supply
      pure (bytes ++ (← formatSegments left rest))

/-- The complete output of a template, without a terminator; arguments left over do not matter. -/
def format (template : Bytes) (arguments : List Argument) : Except FormatError Bytes :=
  formatSegments (.ofList arguments) (segments template)

/-- Writes the output and its terminator, and answers the length of the output. -/
def sprintf (destination template : Bytes) (arguments : List Argument) :
    Outcome (Except FormatError Nat) :=
  match format template arguments with
  | .error failure => { answer := .error failure, array := destination }
  | .ok output =>
      if destination.length ≤ output.length then
        { answer := .error (.arrayTooSmall (output.length + 1) destination.length)
          array := destination }
      else
        { answer := .ok output.length
          array := output ++ 0 :: destination.drop (output.length + 1) }

/--
Writes at most `bound` bytes, the last of them a terminator, and answers the
length that the complete output has.  A bound of zero writes nothing.
-/
def snprintf (destination : Bytes) (bound : Nat) (template : Bytes)
    (arguments : List Argument) : Outcome (Except FormatError Nat) :=
  if bound > destination.length then
    { answer := .error (.arrayTooSmall bound destination.length), array := destination }
  else
    match format template arguments with
    | .error failure => { answer := .error failure, array := destination }
    | .ok output =>
        { answer := .ok output.length
          array :=
            if bound = 0 then
              destination
            else
              let kept := output.take (bound - 1)
              kept ++ 0 :: destination.drop (kept.length + 1) }

/-- Formatting into an array keeps its length, also when it fails. -/
theorem length_sprintf (destination template : Bytes) (arguments : List Argument) :
    (sprintf destination template arguments).array.length = destination.length := by
  unfold sprintf
  split
  · rfl
  · split
    · rfl
    · simp only [List.length_append, List.length_cons, List.length_drop]
      omega

/-- Bounded formatting keeps the length of its array, also when it fails. -/
theorem length_snprintf (destination : Bytes) (bound : Nat) (template : Bytes)
    (arguments : List Argument) :
    (snprintf destination bound template arguments).array.length = destination.length := by
  unfold snprintf
  split
  · rfl
  · split
    · rfl
    · simp only
      split
      · rfl
      · simp only [List.length_append, List.length_cons, List.length_take, List.length_drop]
        omega

end Format

end LibcConformance
