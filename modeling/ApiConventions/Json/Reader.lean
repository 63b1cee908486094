import ApiConventions.Json.Basic
import ApiConventions.Number.Hexadecimal

/-!
# ApiConventions.Json.Reader

Reading JSON text. `Json.read?` fails exactly on text that is not JSON: misplaced or missing
delimiters, control characters inside a string, a leading zero, a byte order mark, anything
after the value. What is JSON and still denotes no value becomes `Json.unreadable`, see
`ApiConventions.Json.Basic`.

The readers of this module return what they read together with the characters that follow it.
-/

namespace ApiConventions
namespace Json

def isBlank (c : Char) : Bool :=
  c = ' ' || c = '\n' || c = '\t' || c = '\r'

def skipBlanks (s : List Char) : List Char :=
  s.dropWhile isBlank

/-! ## Strings -/

/-- The character a one-letter escape stands for. -/
def escaped? : Char → Option Char
  | '"' => some '"'
  | '\\' => some '\\'
  | '/' => some '/'
  | 'b' => some '\x08'
  | 'f' => some '\x0c'
  | 'n' => some '\n'
  | 'r' => some '\r'
  | 't' => some '\t'
  | _ => none

def isHighSurrogate (n : Nat) : Bool := 0xD800 ≤ n && n ≤ 0xDBFF
def isLowSurrogate (n : Nat) : Bool := 0xDC00 ≤ n && n ≤ 0xDFFF

/-- What a string escape denotes: a character, or one half of a surrogate pair. -/
inductive Unit16 where
  | char (c : Char)
  | high (n : Nat)
  | low (n : Nat)

/-- One unit of a string: a plain character, or an escape. -/
def readUnit? : List Char → Option (Unit16 × List Char)
  | '\\' :: 'u' :: a :: b :: c :: d :: rest =>
    (Number.hexNumber? [a, b, c, d]).map fun n =>
      if isHighSurrogate n then (.high n, rest)
      else if isLowSurrogate n then (.low n, rest)
      else (.char (Char.ofNat n), rest)
  | '\\' :: e :: rest => (escaped? e).map fun c => (.char c, rest)
  | c :: rest => if c.toNat < 0x20 then none else some (.char c, rest)
  | [] => none

/-- Joins the halves of surrogate pairs; a half that stands alone spoils the string. -/
def joinUnits? : List Unit16 → Option (List Char)
  | [] => some []
  | .char c :: rest => (joinUnits? rest).map (c :: ·)
  | .high h :: .low l :: rest =>
    (joinUnits? rest).map (Char.ofNat (0x10000 + (h - 0xD800) * 0x400 + (l - 0xDC00)) :: ·)
  | _ :: _ => none

/-- The units up to the closing quote. The fuel is the number of characters left. -/
def readUnits? : Nat → List Char → List Unit16 → Option (List Unit16 × List Char)
  | _, '"' :: rest, units => some (units.reverse, rest)
  | 0, _, _ => none
  | fuel + 1, s, units =>
    match readUnit? s with
    | none => none
    | some (unit, rest) => readUnits? fuel rest (unit :: units)

/-- A string whose opening quote has been read; `none` inside for half a surrogate pair. -/
def readString? (s : List Char) : Option (Option String × List Char) :=
  (readUnits? s.length s []).map fun (units, rest) =>
    ((joinUnits? units).map String.ofList, rest)

/-! ## Numbers -/

/-- The whole part of a number: a single zero, or digits that start with another one. -/
def readWhole? (s : List Char) : Option (List Char × List Char) :=
  match s.span Number.isDigit with
  | ([], _) => none
  | ('0' :: _ :: _, _) => none
  | (digits, rest) => some (digits, rest)

/-- The digits after the point, if there is a point. -/
def readFraction? : List Char → Option (List Char × List Char)
  | '.' :: rest =>
    match rest.span Number.isDigit with
    | ([], _) => none
    | (digits, rest) => some (digits, rest)
  | s => some ([], s)

/-- The power of ten after the mark `e`, if there is one. -/
def readPower? : List Char → Option (Option Int × List Char)
  | [] => some (none, [])
  | c :: rest =>
    if c = 'e' || c = 'E' then
      let (negative, rest) := Number.takeSign rest
      match rest.span Number.isDigit with
      | ([], _) => none
      | (digits, rest) =>
        let n : Int := Number.ofDigits digits
        some (some (if negative then -n else n), rest)
    else some (none, c :: rest)

def ofDecimal (d : Number.Decimal) : Json :=
  if d.toBinary64.isFinite then .decimal d else .unreadable

/--
The value of a number. A whole number is an integer when it fits into 64 bits, signed or
unsigned, and is not a negative zero; every other number is a decimal.
-/
def ofNumber (negative : Bool) (whole fraction : List Char) (power : Option Int) : Json :=
  let n := Number.ofDigits (whole ++ fraction)
  let isWhole := fraction.isEmpty && power.isNone
  if isWhole && !negative && n ≤ Number.maxUInt64 then .integer n
  else if isWhole && negative && n != 0 && Number.fitsInt64 (-(n : Int)) then .integer (-(n : Int))
  else
    ofDecimal
      { negative, significand := n, exponent := power.getD 0 - (fraction.length : Int) }

def readNumber? (s : List Char) : Option (Json × List Char) :=
  let (negative, s) :=
    match s with
    | '-' :: rest => (true, rest)
    | _ => (false, s)
  match readWhole? s with
  | none => none
  | some (whole, s) =>
    match readFraction? s with
    | none => none
    | some (fraction, s) =>
      match readPower? s with
      | none => none
      | some (power, s) => some (ofNumber negative whole fraction power, s)

/-! ## Values -/

/-- The members of an object: unreadable as soon as one of its keys is. -/
def ofMembers (members : List (Option String × Json)) : Json :=
  match members.mapM fun (key, value) => key.map (·, value) with
  | some members => .object members
  | none => .unreadable

mutual
/--
One value. `depth` is the number of levels of nesting left: an array or an object that has none
is unreadable. The fuel bounds the number of calls, and the length of the text is enough.
-/
def readValue? : Nat → Nat → List Char → Option (Json × List Char)
  | 0, _, _ => none
  | fuel + 1, depth, s =>
    match skipBlanks s with
    | 'n' :: 'u' :: 'l' :: 'l' :: rest => some (.null, rest)
    | 't' :: 'r' :: 'u' :: 'e' :: rest => some (.bool true, rest)
    | 'f' :: 'a' :: 'l' :: 's' :: 'e' :: rest => some (.bool false, rest)
    | '"' :: rest =>
      (readString? rest).map fun (text, rest) => ((text.map .string).getD .unreadable, rest)
    | '[' :: rest =>
      let items? :=
        match skipBlanks rest with
        | ']' :: rest => some ([], rest)
        | rest => readItems? fuel (depth - 1) rest
      items?.map fun (items, rest) => (if depth = 0 then .unreadable else .array items, rest)
    | '{' :: rest =>
      let members? :=
        match skipBlanks rest with
        | '}' :: rest => some ([], rest)
        | rest => readMembers? fuel (depth - 1) rest
      members?.map fun (members, rest) =>
        (if depth = 0 then .unreadable else ofMembers members, rest)
    | s => readNumber? s

/-- The items of an array up to its closing bracket, of which there is at least one. -/
def readItems? : Nat → Nat → List Char → Option (List Json × List Char)
  | 0, _, _ => none
  | fuel + 1, depth, s =>
    match readValue? fuel depth s with
    | none => none
    | some (item, rest) =>
      match skipBlanks rest with
      | ']' :: rest => some ([item], rest)
      | ',' :: rest => (readItems? fuel depth rest).map fun (items, rest) => (item :: items, rest)
      | _ => none

/-- The members of an object up to its closing brace, of which there is at least one. -/
def readMembers? : Nat → Nat → List Char → Option (List (Option String × Json) × List Char)
  | 0, _, _ => none
  | fuel + 1, depth, s =>
    match skipBlanks s with
    | '"' :: rest =>
      match readString? rest with
      | none => none
      | some (key, rest) =>
        match skipBlanks rest with
        | ':' :: rest =>
          match readValue? fuel depth rest with
          | none => none
          | some (value, rest) =>
            match skipBlanks rest with
            | '}' :: rest => some ([(key, value)], rest)
            | ',' :: rest =>
              (readMembers? fuel depth rest).map fun (members, rest) =>
                ((key, value) :: members, rest)
            | _ => none
        | _ => none
    | _ => none
end

/-- The value a text denotes, where arrays and objects nest at most `depth` levels. -/
def read? (depth : Nat) (text : String) : Option Json :=
  let s := text.toList
  match readValue? (2 * s.length + 1) depth s with
  | none => none
  | some (value, rest) => if (skipBlanks rest).isEmpty then some value else none

end Json
end ApiConventions
