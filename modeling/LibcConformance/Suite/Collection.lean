import LibcConformance.Suite.Formatting
import LibcConformance.Suite.Regions
import LibcConformance.Suite.Strings

namespace LibcConformance

/-!
# The whole suite

One test program for each routine, in the order of the routines.  Only the
payloads of `memcpy` depend on the seed.
-/

namespace Suite

/-- The test program of a routine. -/
def program (seed : UInt64) : Routine → Except CaseError Program
  | .memset => .ok memsetProgram
  | .memcpy => .ok (memcpyProgram seed)
  | .memmove => .ok memmoveProgram
  | .memcmp => .ok memcmpProgram
  | .strlen => .ok strlenProgram
  | .strcat => .ok strcatProgram
  | .strcpy => .ok strcpyProgram
  | .strncpy => .ok strncpyProgram
  | .strcmp => .ok strcmpProgram
  | .strncmp => .ok strncmpProgram
  | .printf => printfProgram
  | .sprintf => sprintfProgram
  | .snprintf => snprintfProgram
  | .vsprintf => vsprintfProgram
  | .vsnprintf => vsnprintfProgram

/-- The test programs of all routines. -/
def programs (seed : UInt64) : Except CaseError (List Program) :=
  Routine.all.mapM (program seed)

end Suite

end LibcConformance
