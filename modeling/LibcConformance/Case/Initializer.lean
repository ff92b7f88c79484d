import LibcConformance.CText.Literal

namespace LibcConformance

/-!
# Declared arrays

A test program declares character arrays with an initializer, which also says
what the array holds: a string literal brings its terminator, a list of bytes
does not.
-/

/-- How an array is initialised. -/
inductive Initializer where
  | text (text : String)
  | bytes (bytes : Bytes)
  deriving Repr, DecidableEq

namespace Initializer

/-- What the array holds. -/
def storage : Initializer → Bytes
  | .text content => (Bytes.ofText content).terminated
  | .bytes content => content

/-- The initializer in C. -/
def expression : Initializer → String
  | .text content => CText.stringLiteral (Bytes.ofText content)
  | .bytes content => CText.byteInitializer content

/-- The declaration of an array with the given name. -/
def declaration (initializer : Initializer) (name : String) : String :=
  s!"char {name}[] = {initializer.expression};"

end Initializer

/-- An array that cases refer to by its name. -/
structure Operand where
  name : String
  initializer : Initializer
  deriving Repr, DecidableEq

end LibcConformance
