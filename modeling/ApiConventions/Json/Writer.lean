import ApiConventions.Json.Basic

/-!
# ApiConventions.Json.Writer

Writing JSON text, on one line (`compress`) or indented by two blanks a level (`pretty`). Only
quotes, backslashes and control characters are escaped inside a string, and an empty array or
object stays on one line.
-/

namespace ApiConventions
namespace Json

def hexDigit (n : Nat) : Char :=
  if n < 10 then Char.ofNat ('0'.toNat + n) else Char.ofNat ('a'.toNat + n - 10)

/-- A character as it stands inside a string. -/
def escape (c : Char) : List Char :=
  match c with
  | '"' => ['\\', '"']
  | '\\' => ['\\', '\\']
  | '\n' => ['\\', 'n']
  | '\r' => ['\\', 'r']
  | '\t' => ['\\', 't']
  | '\x08' => ['\\', 'b']
  | '\x0c' => ['\\', 'f']
  | c =>
    if c.toNat < 0x20 then
      ['\\', 'u', '0', '0', hexDigit (c.toNat / 16), hexDigit (c.toNat % 16)]
    else [c]

def quote (s : String) : String :=
  "\"" ++ String.ofList (s.toList.flatMap escape) ++ "\""

/-- A decimal number as an integer with an exponent, which reads back as a decimal. -/
def decimalText (d : Number.Decimal) : String :=
  (if d.negative then "-" else "") ++ toString d.significand ++ "e" ++ toString d.exponent

mutual
def compress : Json → String
  | .null => "null"
  | .bool b => if b then "true" else "false"
  | .integer n => toString n
  | .decimal d => decimalText d
  | .string s => quote s
  | .array items => "[" ++ String.intercalate "," (compressItems items) ++ "]"
  | .object members => "\x7b" ++ String.intercalate "," (compressMembers members) ++ "\x7d"
  | .unreadable => "null"

def compressItems : List Json → List String
  | [] => []
  | j :: rest => compress j :: compressItems rest

def compressMembers : List (String × Json) → List String
  | [] => []
  | (key, j) :: rest => (quote key ++ ":" ++ compress j) :: compressMembers rest
end

def indentation (level : Nat) : String :=
  String.ofList (List.replicate (2 * level) ' ')

/-- Lines between two delimiters, one level deeper than the delimiters. -/
def block (opening closing : String) (level : Nat) (lines : List String) : String :=
  if lines.isEmpty then opening ++ closing
  else
    let inner := String.intercalate ",\n" (lines.map (indentation (level + 1) ++ ·))
    opening ++ "\n" ++ inner ++ "\n" ++ indentation level ++ closing

mutual
/-- The text of a value that starts at nesting level `level`. -/
def prettyAt (level : Nat) : Json → String
  | .array items => block "[" "]" level (prettyItems (level + 1) items)
  | .object members => block "\x7b" "\x7d" level (prettyMembers (level + 1) members)
  | j => compress j

def prettyItems (level : Nat) : List Json → List String
  | [] => []
  | j :: rest => prettyAt level j :: prettyItems level rest

def prettyMembers (level : Nat) : List (String × Json) → List String
  | [] => []
  | (key, j) :: rest => (quote key ++ ": " ++ prettyAt level j) :: prettyMembers level rest
end

def pretty (j : Json) : String :=
  prettyAt 0 j

end Json
end ApiConventions
