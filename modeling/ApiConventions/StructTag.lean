import ApiConventions.Text.Blank
import ApiConventions.Text.Split

/-!
# ApiConventions.StructTag

Struct tags: pairs written `key:"value"`, separated by blanks. `lookup` finds the value of the
first pair with a key, reading pairs from the left until it finds the key or a malformed pair.
Inside a value a backslash stands before a quote or a backslash.

The value of the `json` key decides how a field is serialized; `JsonTag` is its meaning.
-/

namespace ApiConventions
namespace StructTag

/-- A key has no control character, no blank and no quote. -/
def isKeyChar (c : Char) : Bool :=
  ' ' < c && c != '"'

/--
The text up to the closing quote, with escapes undone, and what follows the quote. `none` when
the quote is never closed.
-/
def readQuoted? : List Char → Option (List Char × List Char)
  | [] => none
  | '"' :: rest => some ([], rest)
  | '\\' :: c :: rest => (readQuoted? rest).map fun (value, rest) => (c :: value, rest)
  | '\\' :: [] => none
  | c :: rest => (readQuoted? rest).map fun (value, rest) => (c :: value, rest)

/-- The first pair of a tag and the rest of the tag. -/
def readPair? (s : List Char) : Option ((List Char × List Char) × List Char) :=
  match Text.cutAt? ':' (s.dropWhile (· == ' ')) with
  | some (key, '"' :: rest) =>
    if key.isEmpty || !key.all isKeyChar then none
    else (readQuoted? rest).map fun (value, rest) => ((key, value), rest)
  | _ => none

/-- The value of the first pair with the key. A pair has at least four characters, so the fuel
is enough when it is the length of the tag. -/
def lookupWithin (key : List Char) : Nat → List Char → Option (List Char)
  | 0, _ => none
  | fuel + 1, s =>
    match readPair? s with
    | none => none
    | some ((name, value), rest) =>
      if name = key then some value else lookupWithin key fuel rest

/-- The value of `key` in a struct tag. -/
def lookup (tag key : String) : Option String :=
  (lookupWithin key.toList tag.length tag.toList).map String.ofList

end StructTag

/-- The `json` key of a struct tag: a name, then options separated by commas. -/
structure JsonTag where
  /-- Whether there is a `json` key at all. -/
  present : Bool := false
  /-- Serialized name; empty when the tag leaves it to the field. -/
  name : String := ""
  omitEmpty : Bool := false
  omitZero : Bool := false
  inline : Bool := false
  /-- The tag is a single dash: the field is never serialized. -/
  ignored : Bool := false
  /-- The value as written. -/
  raw : String := ""
deriving DecidableEq, Repr, Inhabited

namespace JsonTag

/-- Reads a value such as `name,omitempty`. Blanks around an option do not count. -/
def parse (value : String) : JsonTag :=
  let parts := Text.fieldsOf ',' value
  let options := parts.tail.map Text.trimmed
  { present := true
    name := parts.headD ""
    omitEmpty := options.contains "omitempty"
    omitZero := options.contains "omitzero"
    inline := options.contains "inline"
    ignored := value == "-"
    raw := value }

/-- The `json` key of a struct tag, or the absent tag. -/
def ofStructTag (tag : String) : JsonTag :=
  ((StructTag.lookup tag "json").map parse).getD {}

/-- `omitempty` or `omitzero` is set. -/
def omits (tag : JsonTag) : Bool :=
  tag.omitEmpty || tag.omitZero

end JsonTag
end ApiConventions
