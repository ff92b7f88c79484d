namespace LibcConformance.FileSystem

/-!
# Faults of the file system

The ways in which making a directory or writing a file can fail, and the texts
by which the operating system reports them.
-/

/-- Why an operation on files fails. -/
inductive Fault where
  | notFound
  | alreadyExists
  | notDirectory
  | isDirectory
  | noSpace
  /-- A name, or the path as a whole, has too many bytes. -/
  | nameTooLong
  /-- A path holds a NUL, which no name can. -/
  | nulInPath
  /-- Any other failure, by its report. -/
  | other (report : String)
  deriving Repr, DecidableEq

/-- The report of a failure. -/
def Fault.message : Fault → String
  | .notFound => "No such file or directory (os error 2)"
  | .alreadyExists => "File exists (os error 17)"
  | .notDirectory => "Not a directory (os error 20)"
  | .isDirectory => "Is a directory (os error 21)"
  | .noSpace => "No space left on device (os error 28)"
  | .nameTooLong => "File name too long (os error 36)"
  | .nulInPath => "file name contained an unexpected NUL byte"
  | .other report => report

end LibcConformance.FileSystem
