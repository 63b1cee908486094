import ApiConventions.Number.Binary64

/-!
# ApiConventions.Constraint.Range

Numeric ranges, and how they lie around zero. A bound is compared with zero only, so a range is
over any type whose values have a sign: integers, and double-precision numbers.
-/

namespace ApiConventions

/-- A type whose values compare with zero; `none` for a value that does not compare. -/
class Signed (N : Type) where
  compareZero? : N → Option Ordering

instance : Signed Int where
  compareZero? n := some (compare n 0)

instance : Signed Number.Binary64 where
  compareZero? := Number.Binary64.compareZero?

/-- A range with optional ends, each of which may be excluded. -/
structure Range (N : Type) where
  minimum : Option N := none
  maximum : Option N := none
  exclusiveMinimum : Bool := false
  exclusiveMaximum : Bool := false
deriving DecidableEq, Repr

namespace Range

variable {N : Type} [Signed N]

def isBelowZero (n : N) : Bool := Signed.compareZero? n == some .lt
def isAboveZero (n : N) : Bool := Signed.compareZero? n == some .gt
def isAtZero (n : N) : Bool := Signed.compareZero? n == some .eq

/-- Whether zero lies on the right side of a lower end. -/
def admitsFrom (n : N) (exclusive : Bool) : Bool :=
  isBelowZero n || (!exclusive && isAtZero n)

/-- Whether zero lies on the right side of an upper end. -/
def admitsUpTo (n : N) (exclusive : Bool) : Bool :=
  isAboveZero n || (!exclusive && isAtZero n)

/-- Whether zero lies in the range. -/
def containsZero (r : Range N) : Bool :=
  r.minimum.all (admitsFrom · r.exclusiveMinimum) && r.maximum.all (admitsUpTo · r.exclusiveMaximum)

/--
Whether the range is closed on the side that faces zero: both ends are set, or the only end is a
minimum that is not negative or a maximum that is not positive.
-/
def isComplete (r : Range N) : Bool :=
  match r.minimum, r.maximum with
  | some _, some _ => true
  | some n, none => isAboveZero n || isAtZero n
  | none, some n => isBelowZero n || isAtZero n
  | none, none => false

omit [Signed N] in
/-- Whether an end is set. -/
def isDeclared (r : Range N) : Bool :=
  r.minimum.isSome || r.maximum.isSome

end Range

/-- Bounds of an integer or of a floating point type. -/
inductive NumericBounds where
  | integer (range : Range Int)
  | float (range : Range Number.Binary64)
deriving DecidableEq, Repr

namespace NumericBounds

def containsZero : NumericBounds → Bool
  | .integer r => r.containsZero
  | .float r => r.containsZero

def isComplete : NumericBounds → Bool
  | .integer r => r.isComplete
  | .float r => r.isComplete

def isDeclared : NumericBounds → Bool
  | .integer r => r.isDeclared
  | .float r => r.isDeclared

end NumericBounds
end ApiConventions
