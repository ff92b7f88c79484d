import LibcConformance.Format.Reader

namespace LibcConformance

/-!
# Format templates

A template is split into literal runs, doubled percent signs and directives.
Only the bytes before the first NUL count.  A percent sign that starts neither
a doubled sign nor a directive is literal text by itself, and what follows it
is read again from its next byte.
-/

namespace Format

/-- A piece of a template. -/
inductive Segment where
  /-- Bytes that are written as they are. -/
  | literal (bytes : Bytes)
  /-- A doubled percent sign, which writes one. -/
  | percent
  /-- A directive, which writes an argument. -/
  | directive (directive : Directive)
  deriving Repr, DecidableEq

/-- Whether a byte is a percent sign. -/
def isPercent (byte : UInt8) : Bool :=
  byte = ascii '%'

/-- The segments of a text that holds no NUL. -/
def segmentsOfText (text : Bytes) : List Segment :=
  match text with
  | [] => []
  | first :: rest =>
      if isPercent first then
        match rest with
        | [] => [.literal [first]]
        | second :: after =>
            if isPercent second then
              .percent :: segmentsOfText after
            else
              match _ : Directive.read? (second :: after) with
              | some (directive, remaining) =>
                  .directive directive :: segmentsOfText remaining
              | none => .literal [first] :: segmentsOfText (second :: after)
      else
        .literal (first :: rest.takeWhile (!isPercent ·)) ::
          segmentsOfText (rest.dropWhile (!isPercent ·))
termination_by text.length
decreasing_by
  · exact Nat.lt_succ_of_lt (Nat.lt_succ_self after.length)
  · exact Nat.lt_succ_of_lt (Directive.length_rest_lt ‹_›)
  · exact Nat.lt_succ_self (second :: after).length
  · exact Nat.lt_succ_of_le (List.dropWhile_suffix (!isPercent ·)).length_le

/-- The segments of a template, which ends before its first NUL. -/
def segments (template : Bytes) : List Segment :=
  segmentsOfText template.cString

end Format

end LibcConformance
