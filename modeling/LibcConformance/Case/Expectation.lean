import LibcConformance.CText.Literal

namespace LibcConformance

/-!
# Expectations

What a case asserts about its routine, and how reports describe it.
-/

/-- What must be seen after a probe. -/
inductive Expectation where
  /-- The compared region holds exactly these bytes. -/
  | bytes (bytes : Bytes)
  /-- The routine answers this length. -/
  | length (length : Nat)
  /-- The comparison has this sign. -/
  | sign (sign : Ordering)
  /-- A formatting call answers a length and leaves a string, if one can be seen. -/
  | formatted (length : Nat) (content : Option Bytes)
  /-- The call comes back. -/
  | completes
  deriving Repr, DecidableEq

/-- The comparison with zero that a sign stands for, in C. -/
def signOperator : Ordering → String
  | .lt => "< 0"
  | .eq => "== 0"
  | .gt => "> 0"

/-- The description of an expectation in reports. -/
def Expectation.describe : Expectation → String
  | .bytes contents => s!"bytes {CText.stringLiteral contents}"
  | .length size => s!"length {size}"
  | .sign order => s!"sign {signOperator order}"
  | .formatted size (some content) => s!"len {size}, content {CText.stringLiteral content}"
  | .formatted size none => s!"len {size}"
  | .completes => "completes"

end LibcConformance
