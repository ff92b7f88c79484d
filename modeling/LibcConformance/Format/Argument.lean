import LibcConformance.Format.Template

namespace LibcConformance

/-!
# Arguments and how directives take them

Arguments are typed values that directives take one after another.  A star
takes one as a number, in front of the value that the directive writes.  A
call fails at the first argument that is missing or of a kind the directive
cannot write.
-/

namespace Format

/-- A value handed to a formatting call. -/
inductive Argument where
  | signed (value : Int64)
  | unsigned (value : UInt64)
  | character (byte : UInt8)
  /-- A string without its terminator. -/
  | text (bytes : Bytes)
  | pointer (address : UInt64)
  deriving Repr, DecidableEq

/-- Why a formatting call fails. -/
inductive FormatError where
  /-- A directive asks for an argument after the last one. -/
  | missingArgument (index : Nat)
  /-- The argument is not of a kind that the conversion, or a star, takes. -/
  | mismatchedArgument (index : Nat) (conversion : UInt8)
  /-- The array cannot hold what the call would write. -/
  | arrayTooSmall (needed capacity : Nat)
  deriving Repr, DecidableEq

namespace FormatError

/-- The report of a failed call; a conversion byte is shown as the character of that number. -/
def message : FormatError → String
  | .missingArgument index => s!"missing argument #{index}"
  | .mismatchedArgument index conversion =>
      s!"argument #{index} does not match conversion '%{byteCharacter conversion}'"
  | .arrayTooSmall needed capacity =>
      s!"destination holds {capacity} bytes, {needed} required"

end FormatError

/-- The arguments that no directive has taken yet, and how many have been taken. -/
structure Supply where
  taken : Nat
  remaining : List Argument
  deriving Repr, DecidableEq

namespace Supply

/-- All arguments of a call. -/
def ofList (arguments : List Argument) : Supply :=
  ⟨0, arguments⟩

/-- Takes the next argument, whatever its kind. -/
def next (supply : Supply) : Except FormatError (Argument × Supply) :=
  match supply.remaining with
  | [] => .error (.missingArgument supply.taken)
  | argument :: rest => .ok (argument, ⟨supply.taken + 1, rest⟩)

/-- The failure of a conversion that cannot write the argument just looked at. -/
def mismatch (supply : Supply) (conversion : Char) : FormatError :=
  .mismatchedArgument supply.taken (ascii conversion)

/-- Takes the next argument as a signed number, as a star does. -/
def nextNumber (supply : Supply) : Except FormatError (Int × Supply) := do
  match ← supply.next with
  | (.signed value, rest) => .ok (value.toInt, rest)
  | (.unsigned value, rest) => .ok (value.toInt64.toInt, rest)
  | _ => .error (supply.mismatch '*')

end Supply

namespace Directive

/-- Gives a directive the width an argument asks for; a negative one also justifies to the left. -/
def withWidth (directive : Directive) (width : Int) : Directive :=
  { directive with
    width := .fixed (UInt64.ofNat width.natAbs)
    flags :=
      if width < 0 then
        { directive.flags with leftJustify := true, zeroPad := false }
      else
        directive.flags }

/-- Gives a directive the precision an argument asks for; a negative one means none. -/
def withPrecision (directive : Directive) (precision : Int) : Directive :=
  { directive with
    precision := if precision < 0 then .absent else .fixed (UInt64.ofNat precision.toNat) }

/-- Replaces the star of a width by the argument that it takes. -/
def resolveWidth (directive : Directive) (supply : Supply) :
    Except FormatError (Directive × Supply) :=
  match directive.width with
  | .fromArgument => do
      let (width, rest) ← supply.nextNumber
      pure (directive.withWidth width, rest)
  | _ => pure (directive, supply)

/-- Replaces the star of a precision by the argument that it takes. -/
def resolvePrecision (directive : Directive) (supply : Supply) :
    Except FormatError (Directive × Supply) :=
  match directive.precision with
  | .fromArgument => do
      let (precision, rest) ← supply.nextNumber
      pure (directive.withPrecision precision, rest)
  | _ => pure (directive, supply)

/-- Replaces stars by the arguments they take, the width's before the precision's. -/
def resolve (directive : Directive) (supply : Supply) :
    Except FormatError (Directive × Supply) := do
  let (widened, afterWidth) ← directive.resolveWidth supply
  widened.resolvePrecision afterWidth

end Directive

end Format

end LibcConformance
