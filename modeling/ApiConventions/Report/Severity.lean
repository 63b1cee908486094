/-!
# ApiConventions.Report.Severity

How serious a violation is. The levels are ordered: `info`, `warning`, `error`.
-/

namespace ApiConventions

inductive Severity where
  | info
  | warning
  | error
deriving DecidableEq, Repr

namespace Severity

def name : Severity → String
  | .info => "info"
  | .warning => "warning"
  | .error => "error"

/-- The level with exactly this name. -/
def ofExactName? : String → Option Severity
  | "info" => some .info
  | "warning" => some .warning
  | "error" => some .error
  | _ => none

/-- The level a person means: case does not count, and `warn` is short for `warning`. -/
def ofName? (s : String) : Option Severity :=
  let lower := String.ofList (s.toList.map Char.toLower)
  if lower = "warn" then some .warning else ofExactName? lower

def rank : Severity → Nat
  | .info => 0
  | .warning => 1
  | .error => 2

/-- Whether a level meets or exceeds a threshold. -/
def reaches (s threshold : Severity) : Bool :=
  threshold.rank ≤ s.rank

end Severity
end ApiConventions
