import LibcConformance.Case.Program
import LibcConformance.Format.Output

namespace LibcConformance

/-!
# Tests of the formatting routines

What a formatting call writes is worked out by `Format.format`; what can be
seen of it depends on the sink.  The block of a test makes the call and checks
the returned count and, where a string is left in the array, its contents.
-/

namespace Suite

/-- The capacity of the array in the unbounded tests. -/
def wideCapacity : Nat :=
  100

/-- The capacity of the array in the bounded tests. -/
def narrowCapacity : Nat :=
  10

/-- A formatting call to be tested. -/
structure FormatCase where
  label : String
  template : String
  arguments : List CallArgument
  deriving Repr, DecidableEq

/-- What a block checks after a formatting call. -/
inductive FormatCheck where
  /-- The call answered this count. -/
  | count (count : Nat)
  /-- The array holds this string. -/
  | content (content : Bytes)
  /-- The array starts with the string that a bound leaves of the output. -/
  | leading (content : Bytes) (bound : Nat)
  /-- The last byte that a bound allows is a NUL. -/
  | terminator (bound : Nat)
  deriving Repr, DecidableEq

namespace FormatCheck

/-- Whether a check succeeds on the answered count and the contents of the array. -/
def holds (answered : Nat) (array : Bytes) : FormatCheck → Bool
  | .count expected => answered = expected
  | .content text => CharArray.strcmp array text.terminated = 0
  | .leading text bound => CharArray.strncmp array text.terminated (bound - 1) = 0
  | .terminator bound => array[bound - 1]? = some 0

/-- The condition in C; a bound is written as given. -/
def condition (boundExpression : String) : FormatCheck → String
  | .count expected => s!"len == {expected}"
  | .content text => s!"strcmp(buf, {CText.stringLiteral text}) == 0"
  | .leading text _ =>
      s!"strncmp(buf, {CText.stringLiteral text}, {boundExpression} - 1) == 0"
  | .terminator _ => s!"buf[{boundExpression} - 1] == '\\0'"

end FormatCheck

/-- The string that can be seen in the array after a call with the given output. -/
def visibleContent (sink : Sink) (output : Bytes) : Option Bytes :=
  match sink with
  | .console => none
  | .buffer _ => some output
  | .bounded _ bound => if bound = 0 then none else some (output.take (bound - 1))

/-- The checks of a call: its count, and what can be seen in the array. -/
def formatChecks (sink : Sink) (output : Bytes) : List FormatCheck :=
  .count output.length ::
    match visibleContent sink output, sink with
    | some content, .bounded _ bound =>
        if output.length ≥ bound then
          [.leading content bound, .terminator bound]
        else
          [.content content]
    | some content, _ => [.content content]
    | none, _ => []

/-- The bound of a call in C: the size of the array where they agree. -/
def boundExpression : Sink → String
  | .bounded capacity bound => if bound = capacity then "sizeof(buf)" else toString bound
  | _ => ""

/-- The function that a test calls: the routine, or the wrapper that collects its arguments. -/
def callee (routine : Routine) : String :=
  if routine.takesArgumentList then "test_" ++ routine.symbol else routine.symbol

/-- The call of a test in C. -/
def callExpression (routine : Routine) (case : FormatCase) (sink : Sink) : String :=
  let target :=
    match sink with
    | .console => []
    | .buffer _ => ["buf"]
    | .bounded _ _ => ["buf", boundExpression sink]
  let template := CText.stringLiteral (Bytes.ofText case.template)
  let arguments :=
    ", ".intercalate (target ++ template :: case.arguments.map CallArgument.expression)
  s!"{callee routine}({arguments})"

/-- The test of a formatting call that writes the given output. -/
def testOfOutput (routine : Routine) (case : FormatCase) (sink : Sink) (output : Bytes) : Test :=
  let block :=
    (Block.titled case.label).statement s!"len = {callExpression routine case sink};"
  { case :=
      { label := case.label
        probe := .format case.template case.arguments sink
        expectation := .formatted output.length (visibleContent sink output) }
    block :=
      (formatChecks sink output).foldl
        (fun lines check => lines.check (check.condition (boundExpression sink))) block }

/-- The test of a formatting call, unless the call fails. -/
def formatTest (routine : Routine) (case : FormatCase) (sink : Sink) :
    Except CaseError Test :=
  match Format.format (Bytes.ofText case.template) (case.arguments.map CallArgument.value) with
  | .error failure => .error { routine, label := case.label, failure }
  | .ok output => .ok (testOfOutput routine case sink output)

/--
Adds the test of a formatting call at the end of a program, and answers the
program afterwards.  A call that fails is answered as an error and adds nothing.
-/
def addFormatTest (program : Program) (case : FormatCase) (sink : Sink) :
    Except CaseError Unit × Program :=
  match formatTest program.routine case sink with
  | .error error => (.error error, program)
  | .ok test => (.ok (), { program with tests := program.tests ++ [test] })

/-- A program with the tests of formatting calls added in order, unless one of them fails. -/
def addFormatTests (program : Program) : List (FormatCase × Sink) → Except CaseError Program
  | [] => .ok program
  | (case, sink) :: rest =>
      match addFormatTest program case sink with
      | (.error error, _) => .error error
      | (.ok (), extended) => addFormatTests extended rest

/-- The arguments of the calls with one conversion of each kind. -/
def specifierArguments : List CallArgument :=
  [.signed 42, .text "test", .character (ascii 'X')]

/-- The arguments of the calls with integer conversions. -/
def integerArguments : List CallArgument :=
  [.signed (-17), .unsigned 4000000000, .unsigned 255, .unsigned 48879]

/-- The calls that write to the console. -/
def consoleCases : List FormatCase :=
  [⟨"basic string", "Hello, world!\n", []⟩,
    ⟨"format specifiers", "Int: %d, String: %s, Char: %c\n", specifierArguments⟩,
    ⟨"integer conversions", "Neg: %d, Unsigned: %u, Hex: %x, HEX: %X\n", integerArguments⟩,
    ⟨"empty format", "", []⟩,
    ⟨"percent escape", "%%", []⟩]

/-- The calls that write to an array without a bound. -/
def bufferCases : List FormatCase :=
  [⟨"basic string", "Hello, world!", []⟩,
    ⟨"format specifiers", "Int: %d, String: %s, Char: %c", specifierArguments⟩,
    ⟨"integer conversions", "Neg: %d, Unsigned: %u, Hex: %x, HEX: %X", integerArguments⟩,
    ⟨"empty format", "", []⟩,
    ⟨"percent escape", "%%", []⟩]

/-- The calls that write up to a bound, and the bound. -/
def boundedCases : List (FormatCase × Nat) :=
  [(⟨"string that fits", "Hello", []⟩, narrowCapacity),
    (⟨"string that is too long", "Hello, world!", []⟩, narrowCapacity),
    (⟨"exact fit", "123456789", []⟩, narrowCapacity),
    (⟨"zero size", "Hello", []⟩, 0),
    (⟨"formatted fit", "%s=%d", [.text "ab", .signed 42]⟩, narrowCapacity),
    (⟨"formatted overflow", "Value: %d", [.signed 123456]⟩, narrowCapacity)]

/-- The declarations of a program whose calls write to an array. -/
def formatPrologue (capacity : Nat) : Block :=
  Block.empty.statements [s!"char buf[{capacity}];", "int len;"]

/-- The test program of `printf`. -/
def printfProgram : Except CaseError Program :=
  addFormatTests
    { routine := .printf, helpers := [], prologue := Block.empty.statement "int len;", tests := [] }
    (consoleCases.map (·, .console))

/-- The test program of `sprintf`. -/
def sprintfProgram : Except CaseError Program :=
  addFormatTests
    { routine := .sprintf, helpers := [], prologue := formatPrologue wideCapacity, tests := [] }
    (bufferCases.map (·, .buffer wideCapacity))

/-- A call with its bound as the sink of a bounded test. -/
def boundedSink (case : FormatCase × Nat) : FormatCase × Sink :=
  (case.1, .bounded narrowCapacity case.2)

/-- The test program of `snprintf`. -/
def snprintfProgram : Except CaseError Program :=
  addFormatTests
    { routine := .snprintf, helpers := [], prologue := formatPrologue narrowCapacity, tests := [] }
    (boundedCases.map boundedSink)

/-- A function that collects its arguments and hands them to a routine as a list. -/
def argumentListWrapper (routine : Routine) (parameters leading : List String) : String :=
  "int " ++ callee routine ++ "(" ++ ", ".intercalate parameters ++ ", ...) \x7b\n" ++
    "    va_list args;\n" ++
    "    va_start(args, format);\n" ++
    "    int len = " ++ routine.symbol ++ "(" ++ ", ".intercalate leading ++ ", args);\n" ++
    "    va_end(args);\n" ++
    "    return len;\n\x7d"

/-- The test program of `vsprintf`. -/
def vsprintfProgram : Except CaseError Program :=
  addFormatTests
    { routine := .vsprintf
      helpers :=
        [argumentListWrapper .vsprintf ["char *buf", "const char *format"] ["buf", "format"]]
      prologue := formatPrologue wideCapacity, tests := [] }
    ((bufferCases.take 3).map (·, .buffer wideCapacity))

/-- The test program of `vsnprintf`. -/
def vsnprintfProgram : Except CaseError Program :=
  addFormatTests
    { routine := .vsnprintf
      helpers :=
        [argumentListWrapper .vsnprintf ["char *buf", "size_t size", "const char *format"]
          ["buf", "size", "format"]]
      prologue := formatPrologue narrowCapacity, tests := [] }
    ((boundedCases.filter (·.2 > 0)).map boundedSink)

end Suite

end LibcConformance
