/-!
# Verbosity

## Main definitions

* `Verbosity.directive`: the log filter for a level of verbosity
-/

namespace ConfigDiagnostics.Verbosity

/-- The log filter for a level of verbosity: each level up to three shows more. -/
def directive (level : UInt8) : String :=
  match level with
  | 0 => "warn"
  | 1 => "info"
  | 2 => "debug"
  | _ => "trace"

end ConfigDiagnostics.Verbosity
