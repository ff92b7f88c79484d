import LibcConformance.CText.Identifier
import LibcConformance.CText.Literal

namespace LibcConformance

/-!
# Blocks of statements

A block is a run of indented lines in the body of a C function.
-/

/-- Lines of C in the body of a function. -/
structure Block where
  lines : List String
  deriving Repr, DecidableEq

namespace Block

/-- A block without lines. -/
def empty : Block :=
  ⟨[]⟩

/-- Adds a line at the end. -/
def line (block : Block) (text : String) : Block :=
  ⟨block.lines ++ ["    " ++ text]⟩

/-- Adds a comment. -/
def comment (block : Block) (text : String) : Block :=
  block.line s!"// {text}"

/-- Adds a statement. -/
def statement (block : Block) (text : String) : Block :=
  block.line text

/-- Adds statements in order. -/
def statements (block : Block) (texts : List String) : Block :=
  texts.foldl statement block

/-- Adds a call that checks a condition. -/
def check (block : Block) (condition : String) : Block :=
  block.statement s!"check({condition});"

/-- A block that opens by saying what it tests. -/
def titled (label : String) : Block :=
  empty.comment s!"Test {label}"

/-- Whether a block has no lines. -/
def isEmpty (block : Block) : Bool :=
  block.lines.isEmpty

end Block

end LibcConformance
