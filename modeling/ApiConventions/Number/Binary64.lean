/-!
# ApiConventions.Number.Binary64

Double-precision floating point numbers by their bits: one sign bit, eleven exponent bits and
fifty-two fraction bits. Only what bounds and configuration values need is here: rounding a
positive rational to the nearest number, the special values, and comparison with zero.
-/

namespace ApiConventions
namespace Number

/-- A double-precision number, given by its bits. -/
structure Binary64 where
  bits : UInt64
deriving DecidableEq, Repr, Inhabited

namespace Binary64

def signBit : UInt64 := 0x8000000000000000

def zero : Binary64 := ⟨0⟩
def infinity : Binary64 := ⟨0x7FF0000000000000⟩
def nan : Binary64 := ⟨0x7FF8000000000000⟩

def neg (x : Binary64) : Binary64 :=
  ⟨x.bits ^^^ signBit⟩

/-- The bits without the sign. -/
def magnitude (x : Binary64) : UInt64 :=
  x.bits &&& 0x7FFFFFFFFFFFFFFF

def isNegative (x : Binary64) : Bool :=
  x.bits &&& signBit != 0

def isZero (x : Binary64) : Bool :=
  x.magnitude == 0

def isNaN (x : Binary64) : Bool :=
  infinity.bits < x.magnitude

def isFinite (x : Binary64) : Bool :=
  x.magnitude < infinity.bits

/-- Order against zero: both zeros are equal to it, and a NaN is incomparable. -/
def compareZero? (x : Binary64) : Option Ordering :=
  if x.isNaN then none
  else if x.isZero then some .eq
  else if x.isNegative then some .lt
  else some .gt

/-- The power of two. -/
def pow2 (n : Nat) : Nat :=
  Nat.pow 2 n

/-- `num / den` rounded to an integer, a half going to the even neighbour. -/
def roundDiv (num den : Nat) : Nat :=
  let q := num / den
  let twice := 2 * (num % den)
  if den < twice then q + 1
  else if twice == den then q + q % 2
  else q

/--
The number nearest to the positive rational `num / den`. With `e` the exponent at which the
significand has fifty-three bits, but at least the least exponent, the significand is rounded at
`2 ^ e`; a significand that rounds up to the next power of two carries into the exponent.
-/
def nearest (num den : Nat) : Binary64 :=
  let estimate : Int := (num.log2 : Int) - den.log2 - 52
  let fits (e : Int) : Bool :=
    if 0 ≤ e then den * pow2 e.toNat * pow2 52 ≤ num else den * pow2 52 ≤ num * pow2 (-e).toNat
  let e := max (if fits estimate then estimate else estimate - 1) (-1074)
  let significand :=
    if 0 ≤ e then roundDiv num (den * pow2 e.toNat) else roundDiv (num * pow2 (-e).toNat) den
  let bits := (e + 1074).toNat * pow2 52 + significand
  if bits < infinity.bits.toNat then ⟨UInt64.ofNat bits⟩ else infinity

end Binary64
end Number
end ApiConventions
