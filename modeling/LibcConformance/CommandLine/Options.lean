import LibcConformance.Emission.Suite

namespace LibcConformance.CommandLine

/-!
# Options of the command

The command takes one directory, which may be left out, and options by their
full names.  An option that takes a value has it behind an equals sign or as
the next argument; such an argument must not look like an option.  Nothing may
be given twice, paths may not be empty, and two dashes end the options.
-/

/-- What the command is asked to do. -/
structure Options where
  directory : String
  /-- The seed as it is written. -/
  seed : String
  log : Option String
  quiet : Bool
  manifest : Option String
  verify : Bool
  deriving Repr, DecidableEq

/-- What the arguments so far have given. -/
structure Given where
  directory : Option String
  seed : Option String
  log : Option String
  quiet : Bool
  manifest : Option String
  verify : Bool
  deriving Repr, DecidableEq

namespace Given

/-- Nothing. -/
def nothing : Given where
  directory := none
  seed := none
  log := none
  quiet := false
  manifest := none
  verify := false

/-- Takes an argument as the directory. -/
def positional? (given : Given) (argument : String) : Option Given :=
  if given.directory.isSome || argument.isEmpty then
    none
  else
    some { given with directory := some argument }

/-- Takes the value of an option. -/
def option? (given : Given) (name value : String) : Option Given :=
  match name with
  | "seed" => if given.seed.isSome then none else some { given with seed := some value }
  | "log" =>
      if given.log.isSome || value.isEmpty then none else some { given with log := some value }
  | "manifest" =>
      if given.manifest.isSome || value.isEmpty then
        none
      else
        some { given with manifest := some value }
  | _ => none

/-- Takes an option that stands alone. -/
def flag? (given : Given) (name : String) : Option Given :=
  match name with
  | "quiet" => if given.quiet then none else some { given with quiet := true }
  | "verify" => if given.verify then none else some { given with verify := true }
  | _ => none

/-- What the command is asked to do, with the defaults for what is not given. -/
def options (given : Given) : Options where
  directory := given.directory.getD Emission.defaultDirectory
  seed := given.seed.getD "0xDEAD_BEEF"
  log := given.log
  quiet := given.quiet
  manifest := given.manifest
  verify := given.verify

end Given

/-- An argument by its form. -/
inductive Argument where
  /-- Two dashes alone. -/
  | endOfOptions
  /-- The name of an option, and the value behind its equals sign. -/
  | long (name : String) (value : Option String)
  /-- One dash and something behind it. -/
  | short
  | word (text : String)
  deriving Repr, DecidableEq

/-- The name of an option and the value behind the first equals sign. -/
def splitValue (text : List Char) : String × Option String :=
  let name := String.ofList (text.takeWhile (· ≠ '='))
  match text.dropWhile (· ≠ '=') with
  | [] => (name, none)
  | _ :: value => (name, some (String.ofList value))

/-- The form of an argument; a dash alone is a word. -/
def Argument.ofText (text : String) : Argument :=
  match text.toList with
  | ['-', '-'] => .endOfOptions
  | '-' :: '-' :: rest =>
      let (name, value) := splitValue rest
      .long name value
  | '-' :: _ :: _ => .short
  | _ => .word text

/-- Whether an argument may be the value of the option in front of it. -/
def isSeparateValue (text : String) : Bool :=
  match Argument.ofText text with
  | .word _ => true
  | _ => false

/-- The options that take a value. -/
def valueOptions : List String :=
  ["seed", "log", "manifest"]

/-- Reads arguments onto what those before them have given. -/
def readArguments? (given : Given) : List String → Option Given
  | [] => some given
  | argument :: rest =>
      match Argument.ofText argument with
      | .endOfOptions => rest.foldlM Given.positional? given
      | .short => none
      | .word text => (given.positional? text).bind (readArguments? · rest)
      | .long name (some value) => (given.option? name value).bind (readArguments? · rest)
      | .long name none =>
          if name ∈ valueOptions then
            match rest with
            | value :: later =>
                if isSeparateValue value then
                  (given.option? name value).bind (readArguments? · later)
                else
                  none
            | [] => none
          else
            (given.flag? name).bind (readArguments? · rest)

/-- What the arguments ask for, unless they break a rule. -/
def Options.ofArguments? (arguments : List String) : Option Options :=
  (readArguments? .nothing arguments).map Given.options

end LibcConformance.CommandLine
