namespace LibcConformance

/-!
# The routines under test

Fifteen routines of the C library, in the order in which their test programs
are written.
-/

/-- A routine of the C library that has a test program. -/
inductive Routine where
  | memset
  | memcpy
  | memmove
  | memcmp
  | strlen
  | strcat
  | strcpy
  | strncpy
  | strcmp
  | strncmp
  | printf
  | sprintf
  | snprintf
  | vsprintf
  | vsnprintf
  deriving Repr, DecidableEq

/-- The header that declares a routine. -/
inductive Family where
  | string
  | stdio
  deriving Repr, DecidableEq

/-- The name of a family. -/
def Family.name : Family → String
  | .string => "string"
  | .stdio => "stdio"

namespace Routine

/-- Every routine, in the order of the test programs. -/
def all : List Routine :=
  [.memset, .memcpy, .memmove, .memcmp, .strlen, .strcat, .strcpy, .strncpy, .strcmp, .strncmp,
    .printf, .sprintf, .snprintf, .vsprintf, .vsnprintf]

/-- The name of the routine in C. -/
def symbol : Routine → String
  | .memset => "memset"
  | .memcpy => "memcpy"
  | .memmove => "memmove"
  | .memcmp => "memcmp"
  | .strlen => "strlen"
  | .strcat => "strcat"
  | .strcpy => "strcpy"
  | .strncpy => "strncpy"
  | .strcmp => "strcmp"
  | .strncmp => "strncmp"
  | .printf => "printf"
  | .sprintf => "sprintf"
  | .snprintf => "snprintf"
  | .vsprintf => "vsprintf"
  | .vsnprintf => "vsnprintf"

/-- The name of the routine in reports of broken cases, which starts with a capital. -/
def title (routine : Routine) : String :=
  match routine.symbol.toList with
  | [] => ""
  | first :: rest => String.ofList (first.toUpper :: rest)

/-- The header that declares the routine. -/
def family : Routine → Family
  | .printf | .sprintf | .snprintf | .vsprintf | .vsnprintf => .stdio
  | _ => .string

/-- Whether the routine takes its arguments as a list that a wrapper collects. -/
def takesArgumentList : Routine → Bool
  | .vsprintf | .vsnprintf => true
  | _ => false

/-- The name of the file that the routine's test program is written to. -/
def fileName (routine : Routine) : String :=
  routine.symbol ++ "_test.c"

/-- The header that defines `check`. -/
def trapHeader : String :=
  "trap.h"

/-- The headers that a test program includes, in order. -/
def headers (routine : Routine) : List String :=
  ["\"" ++ trapHeader ++ "\""] ++
    (if routine.family = .stdio then ["<stdio.h>", "<string.h>"] else []) ++
    (if routine.takesArgumentList then ["<stdarg.h>"] else [])

/-- The routine with the given name. -/
def ofSymbol? (symbol : String) : Option Routine :=
  all.find? (·.symbol = symbol)

/-- The place of a routine among all. -/
def position (routine : Routine) : Nat :=
  all.findIdx (· = routine)

/-- Every routine is among all of them. -/
theorem mem_all (routine : Routine) : routine ∈ all := by
  cases routine <;> decide

/-- A routine is found by its name. -/
theorem ofSymbol?_symbol (routine : Routine) : ofSymbol? routine.symbol = some routine := by
  cases routine <;> decide

end Routine

end LibcConformance
