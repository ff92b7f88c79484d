import LibcConformance.Bytes

namespace LibcConformance

/-!
# Identifiers from labels

A label becomes part of a C name: its ASCII letters and digits in lower case,
with one underscore wherever anything else stands between two of them.
-/

namespace CText

/--
The letters and digits of a label.  Once there has been one, whatever else
comes before the next is a single underscore.
-/
def joinedWords (started gap : Bool) : List Char → List Char
  | [] => []
  | character :: rest =>
      if character.isAlphanum then
        (if gap then ['_'] else []) ++ character.toLower :: joinedWords true false rest
      else
        joinedWords started started rest

/-- The identifier of a label: never empty, and never with a digit in front. -/
def identifier (label : String) : String :=
  match joinedWords false false label.toList with
  | [] => "case"
  | first :: rest =>
      String.ofList (if first.isDigit then '_' :: first :: rest else first :: rest)

end CText

end LibcConformance
