import ApiConventions.Text.Split

/-!
# ApiConventions.Report.PathOrder

The order of file paths. Paths compare component by component: the root directory first, then
the current directory in front of a path, then parent directories, then names by code points.
Repeated and trailing slashes do not count, and neither does a dot after the first component.
-/

namespace ApiConventions

/-- One component of a path. -/
inductive PathPart where
  | root
  | current
  | parent
  | name (name : String)
deriving DecidableEq, Repr

namespace PathPart

def rank : PathPart → Nat
  | .root => 0
  | .current => 1
  | .parent => 2
  | .name _ => 3

/-- Whether `a` comes before `b` or is equal to it. -/
def le (a b : PathPart) : Bool :=
  match a, b with
  | .name x, .name y => x ≤ y
  | _, _ => a.rank ≤ b.rank

end PathPart

namespace Path

/-- The component a name between slashes stands for. -/
def partOf (name : String) : PathPart :=
  if name = ".." then .parent else .name name

/-- The components of a path. -/
def parts (path : String) : List PathPart :=
  let names := Text.fieldsOf '/' path
  let start : List PathPart :=
    if path.toList.head? = some '/' then [.root]
    else if names.head? = some "." then [.current]
    else []
  start ++ (names.filter fun n => n != "" && n != ".").map partOf

def partsLe : List PathPart → List PathPart → Bool
  | [], _ => true
  | _ :: _, [] => false
  | a :: as, b :: bs => if a = b then partsLe as bs else a.le b

/-- Whether one path comes before another or is equal to it. -/
def le (a b : String) : Bool :=
  partsLe (parts a) (parts b)

end Path
end ApiConventions
