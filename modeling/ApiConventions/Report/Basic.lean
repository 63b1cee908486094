import ApiConventions.Report.Violation

/-!
# ApiConventions.Report.Basic

The result of an analysis.
-/

namespace ApiConventions

structure Report where
  violations : List Violation := []
  filesChecked : Nat := 0
deriving DecidableEq, Repr

namespace Report

def push (r : Report) (v : Violation) : Report :=
  { r with violations := r.violations ++ [v] }

/-- The violations of exactly one severity. -/
def bySeverity (r : Report) (s : Severity) : List Violation :=
  r.violations.filter (·.severity == s)

def count (r : Report) (s : Severity) : Nat :=
  (r.bySeverity s).length

def hasErrors (r : Report) : Bool :=
  r.violations.any (·.severity == .error)

/-- Whether some violation meets or exceeds a severity. -/
def hasAtLeast (r : Report) (s : Severity) : Bool :=
  r.violations.any (·.severity.reaches s)

/-- Sorts by file, line and column; violations at one place keep their order. -/
def sort (r : Report) : Report :=
  { r with violations := r.violations.mergeSort fun a b => a.location.le b.location }

def toJson (r : Report) : Json :=
  .object [("violations", .array (r.violations.map (·.toJson))),
    ("files_checked", .ofNat r.filesChecked)]

end Report
end ApiConventions
