import ApiConventions.Number.Integer
import ApiConventions.Number.Binary64

/-!
# ApiConventions.Number.Decimal

Decimal numbers in scientific form, and their reading as double-precision numbers. A text such
as `-1.50e3` is read exactly, as a sign, an integer and a power of ten; rounding happens once,
in `Decimal.toBinary64`.
-/

namespace ApiConventions
namespace Number

/-- The number `± significand · 10 ^ exponent`. -/
structure Decimal where
  negative : Bool
  significand : Nat
  exponent : Int
deriving DecidableEq, Repr, Inhabited

namespace Decimal

/-- The number of decimal digits of a positive number, and 1 for zero. -/
def digitCount (n : Nat) : Nat :=
  (Nat.toDigits 10 n).length

/--
The nearest double-precision number. Magnitudes beyond `10 ^ 310` are infinite and those below
`10 ^ -330` are zero whatever their digits, so no power of ten larger than that is computed.
-/
def toBinary64 (d : Decimal) : Binary64 :=
  let magnitude : Int := d.exponent + digitCount d.significand
  let size :=
    if d.significand = 0 then Binary64.zero
    else if 310 < magnitude then Binary64.infinity
    else if magnitude < -330 then Binary64.zero
    else if 0 ≤ d.exponent then Binary64.nearest (d.significand * Nat.pow 10 d.exponent.toNat) 1
    else Binary64.nearest d.significand (Nat.pow 10 (-d.exponent).toNat)
  if d.negative then size.neg else size

/-- The exponent part of a number: nothing, or a mark, an optional sign and digits. -/
def readExponent? : List Char → Option Int
  | [] => some 0
  | mark :: rest =>
    if mark = 'e' || mark = 'E' then
      let (negative, digits) := takeSign rest
      (readNat? digits).map fun n => if negative then -(n : Int) else n
    else none

/-- A decimal number with at least one digit before the exponent. -/
def read? (s : List Char) : Option Decimal :=
  let (negative, rest) := takeSign s
  let (whole, rest) := rest.span isDigit
  let (fraction, rest) :=
    match rest with
    | '.' :: after => after.span isDigit
    | _ => ([], rest)
  if whole.isEmpty && fraction.isEmpty then none
  else
    (readExponent? rest).map fun e =>
      { negative, significand := ofDigits (whole ++ fraction), exponent := e - fraction.length }

end Decimal

/-- Lower case of the ASCII letters; every other character is left alone. -/
def asciiLower (s : List Char) : List Char :=
  s.map Char.toLower

/-- A double-precision number in text: a decimal number, `inf`, `infinity` or `nan`. -/
def readBinary64? (s : List Char) : Option Binary64 :=
  let (negative, word) := takeSign s
  let signed (x : Binary64) : Binary64 := if negative then x.neg else x
  let lower := String.ofList (asciiLower word)
  if lower = "inf" || lower = "infinity" then some (signed Binary64.infinity)
  else if lower = "nan" then some (signed Binary64.nan)
  else (Decimal.read? s).map Decimal.toBinary64

end Number
end ApiConventions
