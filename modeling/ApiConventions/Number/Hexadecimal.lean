/-!
# ApiConventions.Number.Hexadecimal

Numbers written in hexadecimal digits of either case.
-/

namespace ApiConventions
namespace Number

def hexValue? (c : Char) : Option Nat :=
  if '0' ≤ c && c ≤ '9' then some (c.toNat - '0'.toNat)
  else if 'a' ≤ c && c ≤ 'f' then some (c.toNat - 'a'.toNat + 10)
  else if 'A' ≤ c && c ≤ 'F' then some (c.toNat - 'A'.toNat + 10)
  else none

/-- The number written by hexadecimal digits, most significant digit first. -/
def hexNumber? (digits : List Char) : Option Nat :=
  digits.foldl (fun n? c =>
    match n?, hexValue? c with
    | some n, some d => some (16 * n + d)
    | _, _ => none) (some 0)

end Number
end ApiConventions
