/-!
# ApiConventions.Number.Integer

Decimal integers in text: ASCII digits with an optional sign, and nothing else. `readInt64?`
also asks that the value fits into 64 bits with a sign.
-/

namespace ApiConventions
namespace Number

def isDigit (c : Char) : Bool :=
  '0' ≤ c && c ≤ '9'

def digitValue (c : Char) : Nat :=
  c.toNat - '0'.toNat

/-- The number a list of digits stands for, most significant digit first. -/
def ofDigits (digits : List Char) : Nat :=
  digits.foldl (fun n c => 10 * n + digitValue c) 0

/-- A non-empty list of digits. -/
def readNat? (s : List Char) : Option Nat :=
  if s.isEmpty || !s.all isDigit then none else some (ofDigits s)

def minInt64 : Int := -9223372036854775808
def maxInt64 : Int := 9223372036854775807
def maxUInt64 : Nat := 18446744073709551615

def fitsInt64 (n : Int) : Bool :=
  minInt64 ≤ n && n ≤ maxInt64

/-- The sign in front of a number, `true` for minus, and what follows it. -/
def takeSign : List Char → Bool × List Char
  | '-' :: rest => (true, rest)
  | '+' :: rest => (false, rest)
  | s => (false, s)

def readInt64? (s : List Char) : Option Int :=
  let (negative, digits) := takeSign s
  match readNat? digits with
  | none => none
  | some n =>
    let value : Int := if negative then -(n : Int) else n
    if fitsInt64 value then some value else none

end Number
end ApiConventions
