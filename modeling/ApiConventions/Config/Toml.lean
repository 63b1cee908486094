import ApiConventions.Config.Setting
import ApiConventions.Number.Hexadecimal

/-!
# ApiConventions.Config.Toml

Reading TOML documents, without dates. A document is a list of statements: table headers,
headers of arrays of tables, and entries, whose keys may be dotted. `Toml.read?` fails on text
that is not TOML, on a key that is given twice, and on a table that is defined twice.

The readers return what they read together with the characters that follow it.
-/

namespace ApiConventions
namespace Toml

/-! ## Blanks and comments -/

def isBlank (c : Char) : Bool :=
  c = ' ' || c = '\t'

def skipBlanks (s : List Char) : List Char :=
  s.dropWhile isBlank

/-- Control characters other than the tab stand nowhere inside a line. -/
def isControl (c : Char) : Bool :=
  (c.toNat < 0x20 && c != '\t') || c.toNat == 0x7F

/-- What follows a line break. -/
def lineBreak? : List Char → Option (List Char)
  | '\n' :: rest => some rest
  | '\r' :: '\n' :: rest => some rest
  | _ => none

/-- Skips a comment, up to the end of its line. -/
def skipComment (s : List Char) : List Char :=
  match s with
  | '#' :: rest => rest.dropWhile (!isControl ·)
  | _ => s

/-- Skips blanks, comments and line breaks. The fuel is the number of characters left. -/
def skipLines : Nat → List Char → List Char
  | 0, s => s
  | fuel + 1, s =>
    let s := skipComment (skipBlanks s)
    match lineBreak? s with
    | some rest => skipLines fuel rest
    | none => s

/-- What follows the end of a line, where blanks and a comment may stand before it. -/
def endOfLine? (s : List Char) : Option (List Char) :=
  match skipComment (skipBlanks s) with
  | [] => some []
  | s => lineBreak? s

/-! ## Strings -/

/-- The character of a code point, if it is one. -/
def scalar? (digits : List Char) : Option Char :=
  (Number.hexNumber? digits).bind fun n =>
    if n < 0xD800 ∨ (0xDFFF < n ∧ n < 0x110000) then some (Char.ofNat n) else none

/-- An escape whose backslash has been read. -/
def escape? : List Char → Option (Char × List Char)
  | 'b' :: rest => some ('\x08', rest)
  | 't' :: rest => some ('\t', rest)
  | 'n' :: rest => some ('\n', rest)
  | 'f' :: rest => some ('\x0c', rest)
  | 'r' :: rest => some ('\r', rest)
  | '"' :: rest => some ('"', rest)
  | '\\' :: rest => some ('\\', rest)
  | 'u' :: a :: b :: c :: d :: rest => (scalar? [a, b, c, d]).map (·, rest)
  | 'U' :: a :: b :: c :: d :: e :: f :: g :: h :: rest =>
    (scalar? [a, b, c, d, e, f, g, h]).map (·, rest)
  | _ => none

/-- A basic string up to its closing quote; `acc` is what has been read, last character first. -/
def basicString? : Nat → List Char → List Char → Option (String × List Char)
  | 0, _, _ => none
  | fuel + 1, acc, s =>
    match s with
    | '"' :: rest => some (String.ofList acc.reverse, rest)
    | '\\' :: rest => (escape? rest).bind fun (c, rest) => basicString? fuel (c :: acc) rest
    | c :: rest => if isControl c then none else basicString? fuel (c :: acc) rest
    | [] => none

/-- A literal string up to its closing quote. -/
def literalString? (s : List Char) : Option (String × List Char) :=
  match s.span fun c => c != '\'' && !isControl c with
  | (text, '\'' :: rest) => some (String.ofList text, rest)
  | _ => none

/-- A line break right after the opening quotes does not count. -/
def skipFirstBreak (s : List Char) : List Char :=
  (lineBreak? s).getD s

/-- A backslash at the end of a line removes the line break and the blanks after it. -/
def joinLines? (s : List Char) : Option (List Char) :=
  (lineBreak? (skipBlanks s)).map fun rest =>
    rest.dropWhile fun c => isBlank c || c = '\n' || c = '\r'

/--
A string over several lines, up to its three closing quotes. At most two quotes stand directly
before those. Only with `escapes` does a backslash mean anything.
-/
def longString? (quote : Char) (escapes : Bool) :
    Nat → List Char → List Char → Option (String × List Char)
  | 0, _, _ => none
  | fuel + 1, acc, s =>
    let next := longString? quote escapes fuel
    let (quotes, rest) := s.span (· == quote)
    if 5 < quotes.length then none
    else if 3 ≤ quotes.length then some (String.ofList (quotes.drop 3 ++ acc).reverse, rest)
    else if 0 < quotes.length then next (quotes ++ acc) rest
    else
      match lineBreak? s with
      | some rest => next ('\n' :: acc) rest
      | none =>
        match s with
        | [] => none
        | c :: rest =>
          if isControl c then none
          else if c = '\\' && escapes then
            match joinLines? rest with
            | some rest => next acc rest
            | none => (escape? rest).bind fun (c, rest) => next (c :: acc) rest
          else next (c :: acc) rest

/-- A string of any of the four forms. -/
def string? (s : List Char) : Option (String × List Char) :=
  match s with
  | '"' :: '"' :: '"' :: rest => longString? '"' true (rest.length + 1) [] (skipFirstBreak rest)
  | '\'' :: '\'' :: '\'' :: rest =>
    longString? '\'' false (rest.length + 1) [] (skipFirstBreak rest)
  | '"' :: rest => basicString? (rest.length + 1) [] rest
  | '\'' :: rest => literalString? rest
  | _ => none

/-! ## Numbers and words -/

/-- Digits with single underscores between them; the underscores are dropped. -/
def digits? (isDigit : Char → Bool) : List Char → Option (List Char)
  | [] => none
  | [c] => if isDigit c then some [c] else none
  | c :: '_' :: rest => if isDigit c then (digits? isDigit rest).map (c :: ·) else none
  | c :: rest => if isDigit c then (digits? isDigit rest).map (c :: ·) else none

/-- Decimal digits without a leading zero. -/
def wholeDigits? (s : List Char) : Option (List Char) :=
  (digits? Number.isDigit s).filter fun ds => ds.length = 1 || ds.head? != some '0'

def inBase (base : Nat) (digits : List Char) : Nat :=
  digits.foldl (fun n c => base * n + (Number.hexValue? c).getD 0) 0

def isBaseDigit (base : Nat) (c : Char) : Bool :=
  (Number.hexValue? c).any (· < base)

/-- A whole number that fits into 64 bits; only a decimal one has a sign. -/
def integer? (s : List Char) : Option Int :=
  let unsigned (base : Nat) (s : List Char) : Option Int :=
    (digits? (isBaseDigit base) s).map fun ds => (inBase base ds : Int)
  let value :=
    match s with
    | '0' :: 'x' :: rest => unsigned 16 rest
    | '0' :: 'o' :: rest => unsigned 8 rest
    | '0' :: 'b' :: rest => unsigned 2 rest
    | _ =>
      let (negative, rest) := Number.takeSign s
      (wholeDigits? rest).map fun ds =>
        let n : Int := Number.ofDigits ds
        if negative then -n else n
  value.filter Number.fitsInt64

/-- The exponent of a number, whose mark has been read. -/
def exponent? (s : List Char) : Option Int :=
  let (negative, rest) := Number.takeSign s
  (digits? Number.isDigit rest).map fun ds =>
    let n : Int := Number.ofDigits ds
    if negative then -n else n

/-- A number with a fraction or an exponent, or one of the words for special numbers. -/
def float? (s : List Char) : Option Number.Binary64 :=
  let (negative, body) := Number.takeSign s
  let signed (x : Number.Binary64) : Number.Binary64 := if negative then x.neg else x
  if body = "inf".toList then some (signed Number.Binary64.infinity)
  else if body = "nan".toList then some (signed Number.Binary64.nan)
  else
    let (mantissa, power) := body.span fun c => c != 'e' && c != 'E'
    let (whole, fraction) := mantissa.span (· != '.')
    if power.isEmpty && fraction.isEmpty then none
    else
      let fractionDigits? := if fraction.isEmpty then some [] else digits? Number.isDigit fraction.tail
      let power? := if power.isEmpty then some 0 else exponent? power.tail
      match wholeDigits? whole, fractionDigits?, power? with
      | some whole, some fraction, some power =>
        let d : Number.Decimal :=
          { negative
            significand := Number.ofDigits (whole ++ fraction)
            exponent := power - (fraction.length : Int) }
        some d.toBinary64 |>.filter (· != Number.Binary64.infinity)
      | _, _, _ => none

/-- The value of a word that is not a string. -/
def scalarValue? (word : List Char) : Option Setting :=
  if word = "true".toList then some (.bool true)
  else if word = "false".toList then some (.bool false)
  else ((integer? word).map .integer).or ((float? word).map .float)

def isWordChar (c : Char) : Bool :=
  c.isAlphanum || c = '_' || c = '-' || c = '+' || c = '.' || c = ':'

/-! ## Keys -/

def isBareKeyChar (c : Char) : Bool :=
  c.isAlphanum || c = '_' || c = '-'

/-- One part of a key: bare or quoted. -/
def keyPart? (s : List Char) : Option (String × List Char) :=
  match s with
  | '"' :: rest => basicString? (rest.length + 1) [] rest
  | '\'' :: rest => literalString? rest
  | _ =>
    match s.span isBareKeyChar with
    | ([], _) => none
    | (part, rest) => some (String.ofList part, rest)

/-- The parts of a dotted key, with the blanks around them. -/
def key? : Nat → List Char → Option (List String × List Char)
  | 0, _ => none
  | fuel + 1, s =>
    match keyPart? (skipBlanks s) with
    | none => none
    | some (part, rest) =>
      match skipBlanks rest with
      | '.' :: rest => (key? fuel rest).map fun (parts, rest) => (part :: parts, rest)
      | rest => some ([part], rest)

/-! ## Tables under construction -/

mutual
/-- What a key of a table stands for. -/
inductive Node where
  | leaf (value : Setting)
  | table (table : Table)
  | tables (tables : List Table)

/--
A table. It is implicit as long as only its parts have been mentioned, and dotted when a dotted
key made it.
-/
structure Table where
  isImplicit : Bool
  isDotted : Bool
  entries : List (String × Node)
end

namespace Table

def empty : Table := ⟨false, false, []⟩

def get? (t : Table) (key : String) : Option Node :=
  t.entries.lookup key

/-- Sets the value of a key, in place if the key is there. -/
def put (t : Table) (key : String) (node : Node) : Table :=
  if t.entries.any (·.1 == key) then
    { t with entries := t.entries.map fun (k, n) => if k == key then (k, node) else (k, n) }
  else { t with entries := t.entries ++ [(key, node)] }

/--
Changes the table at the end of a path, making the tables on the way as needed. The path leads
through the last table of an array of tables. A dotted key does not enter a table that has been
defined otherwise.
-/
def descend (dotted : Bool) (action : Table → Option Table) : List String → Table → Option Table
  | [], t => action t
  | key :: path, t =>
    match t.get? key with
    | none => (descend dotted action path ⟨true, dotted, []⟩).map fun c => t.put key (.table c)
    | some (.leaf _) => none
    | some (.table c) =>
      if dotted && !c.isImplicit then none
      else (descend dotted action path c).map fun c => t.put key (.table c)
    | some (.tables cs) =>
      match cs.getLast? with
      | none => none
      | some c =>
        (descend dotted action path c).map fun c => t.put key (.tables (cs.dropLast ++ [c]))

/-- Sets a new key. A table made by dotted keys takes no plain keys, and the other way round. -/
def insert (isDottedKey : Bool) (key : String) (value : Setting) (t : Table) : Option Table :=
  if t.isDotted != isDottedKey || (t.get? key).isSome then none else some (t.put key (.leaf value))

/-- Sets the value of a dotted key. -/
def insertPath (path : List String) (value : Setting) (t : Table) : Option Table :=
  match path.getLast? with
  | none => none
  | some key => t.descend true (insert (!path.dropLast.isEmpty) key value) path.dropLast

/-- Defines the table of a header, which has been mentioned at most. -/
def define (key : String) (t : Table) : Option Table :=
  match t.get? key with
  | none => some (t.put key (.table empty))
  | some (.table c) =>
    if c.isImplicit && !c.isDotted then some (t.put key (.table { c with isImplicit := false }))
    else none
  | some _ => none

/-- Adds a table to an array of tables. -/
def extend (key : String) (t : Table) : Option Table :=
  match t.get? key with
  | none => some (t.put key (.tables [empty]))
  | some (.tables cs) => some (t.put key (.tables (cs ++ [empty])))
  | some _ => none

end Table

mutual
def Node.toSetting : Node → Setting
  | .leaf value => value
  | .table t => t.toSetting
  | .tables ts => .list (listToSettings ts)

def Table.toSetting : Table → Setting
  | ⟨_, _, entries⟩ => .table (entriesToSettings entries)

def listToSettings : List Table → List Setting
  | [] => []
  | t :: rest => t.toSetting :: listToSettings rest

def entriesToSettings : List (String × Node) → List (String × Setting)
  | [] => []
  | (key, node) :: rest => (key, node.toSetting) :: entriesToSettings rest
end

/-! ## Values -/

/-- The value of an inline table. -/
def inlineTable? (pairs : List (List String × Setting)) : Option Setting :=
  (pairs.foldlM (fun t (path, value) => Table.insertPath path value t) Table.empty).map Table.toSetting

/-- How deeply arrays and inline tables nest, and how many parts a key has, at most. -/
def maxNesting : Nat := 79

mutual
/-- One value, inside which arrays and inline tables nest at most `depth` levels. -/
def value? : Nat → Nat → List Char → Option (Setting × List Char)
  | 0, _, _ => none
  | fuel + 1, depth, s =>
    match s with
    | '[' :: rest =>
      if depth = 0 then none
      else (items? fuel (depth - 1) rest).map fun (items, rest) => (.list items, rest)
    | '{' :: rest =>
      if depth = 0 then none
      else
        let pairs? :=
          match skipBlanks rest with
          | '}' :: rest => some ([], rest)
          | rest => pairs? fuel (depth - 1) rest
        pairs?.bind fun (pairs, rest) => (inlineTable? pairs).map (·, rest)
    | '"' :: _ => (string? s).map fun (text, rest) => (.text text, rest)
    | '\'' :: _ => (string? s).map fun (text, rest) => (.text text, rest)
    | _ =>
      let (word, rest) := s.span isWordChar
      (scalarValue? word).map (·, rest)

/-- The items of an array up to its closing bracket. A comma may follow the last one. -/
def items? : Nat → Nat → List Char → Option (List Setting × List Char)
  | 0, _, _ => none
  | fuel + 1, depth, s =>
    match skipLines s.length s with
    | ']' :: rest => some ([], rest)
    | s =>
      match value? fuel depth s with
      | none => none
      | some (item, rest) =>
        match skipLines rest.length rest with
        | ']' :: rest => some ([item], rest)
        | ',' :: rest => (items? fuel depth rest).map fun (items, rest) => (item :: items, rest)
        | _ => none

/-- The entries of an inline table up to its closing brace, of which there is at least one. -/
def pairs? : Nat → Nat → List Char → Option (List (List String × Setting) × List Char)
  | 0, _, _ => none
  | fuel + 1, depth, s =>
    match key? maxNesting s with
    | some (path, '=' :: rest) =>
      match value? fuel depth (skipBlanks rest) with
      | none => none
      | some (value, rest) =>
        match skipBlanks rest with
        | '}' :: rest => some ([(path, value)], rest)
        | ',' :: rest =>
          (pairs? fuel depth rest).map fun (pairs, rest) => ((path, value) :: pairs, rest)
        | _ => none
    | _ => none
end

/-! ## Documents -/

inductive Statement where
  | header (path : List String)
  | arrayHeader (path : List String)
  | entry (path : List String) (value : Setting)

/-- One statement, which starts at the first character. -/
def statement? (s : List Char) : Option (Statement × List Char) :=
  match s with
  | '[' :: '[' :: rest =>
    match key? maxNesting rest with
    | some (path, ']' :: ']' :: rest) => some (.arrayHeader path, rest)
    | _ => none
  | '[' :: rest =>
    match key? maxNesting rest with
    | some (path, ']' :: rest) => some (.header path, rest)
    | _ => none
  | _ =>
    match key? maxNesting s with
    | some (path, '=' :: rest) =>
      let s := skipBlanks rest
      (value? (2 * s.length + 1) maxNesting s).map fun (value, rest) => (.entry path value, rest)
    | _ => none

/-- The statements of a document, one a line. -/
def statements? : Nat → List Char → Option (List Statement)
  | 0, _ => none
  | fuel + 1, s =>
    match skipBlanks (skipLines s.length s) with
    | [] => some []
    | s =>
      match statement? s with
      | none => none
      | some (statement, rest) =>
        match endOfLine? rest with
        | none => none
        | some [] => some [statement]
        | some rest => (statements? fuel rest).map (statement :: ·)

/-- A document under construction: its root, and the path of the table whose entries follow. -/
structure Draft where
  root : Table
  path : List String

namespace Draft

/-- Changes the table that holds the last part of a path. -/
def atParent (d : Draft) (path : List String) (change : String → Table → Option Table) :
    Option Draft :=
  match path.getLast? with
  | none => none
  | some key => (d.root.descend false (change key) path.dropLast).map fun root => { root, path }

def apply (d : Draft) : Statement → Option Draft
  | .header path => d.atParent path Table.define
  | .arrayHeader path => d.atParent path Table.extend
  | .entry path value =>
    (d.root.descend false (Table.insertPath path value) d.path).map fun root => { d with root }

end Draft

/-- A byte order mark in front of a document is skipped. -/
def skipMark (s : List Char) : List Char :=
  match s with
  | '\uFEFF' :: rest => rest
  | _ => s

/-- Reads a TOML document, as a table. -/
def read? (text : String) : Option Setting :=
  let s := skipMark text.toList
  (statements? (s.length + 1) s).bind fun statements =>
    (statements.foldlM Draft.apply { root := Table.empty, path := [] }).map (·.root.toSetting)

end Toml
end ApiConventions
