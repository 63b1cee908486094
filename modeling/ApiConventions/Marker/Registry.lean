import ApiConventions.Marker.Comment
import ApiConventions.Marker.Names
import ApiConventions.Marker.Set
import ApiConventions.Text.Split

/-!
# ApiConventions.Marker.Registry

Reading markers from comment lines. A registry names the expression markers, whose text after
the identifier and a colon is a list of `name=value` arguments. When several registered
identifiers fit a line, the longest one is taken.
-/

namespace ApiConventions

/-- The identifiers of the expression markers. -/
structure Registry where
  identifiers : List String
deriving Repr

namespace Registry

def empty : Registry := ⟨[]⟩

def standard : Registry :=
  ⟨[MarkerName.xValidation, MarkerName.itemsXValidation, MarkerName.printColumn]⟩

/-- Registering an identifier twice changes nothing. -/
def register (r : Registry) (identifier : String) : Registry :=
  if r.identifiers.contains identifier then r else ⟨r.identifiers ++ [identifier]⟩

def registerAll (r : Registry) (identifiers : List String) : Registry :=
  identifiers.foldl register r

/-- What follows `identifier` and a colon at the start of a marker. -/
def arguments? (identifier body : List Char) : Option (List Char) :=
  match identifier.isPrefixOf? body with
  | some (':' :: args) => some args
  | _ => none

/-- The longest of the identifiers that fits the marker. -/
def longest? (body : List Char) : List String → Option String
  | [] => none
  | id :: ids =>
    match arguments? id.toList body, longest? body ids with
    | some _, some other => if other.length < id.length then some id else some other
    | some _, none => some id
    | none, found => found

/-- One argument of an expression marker; a part without `=` is none. -/
def argument? (part : List Char) : Option (String × String) :=
  (Text.cutAt? '=' part).map fun (name, value) =>
    (String.ofList (Text.trim name), String.ofList (Quoted.unquote (Text.trim value)))

/-- The arguments between commas outside quotes; there are none when a quote stays open. -/
def argumentList (args : List Char) : List (String × String) :=
  ((Quoted.split ',' args).getD []).filterMap argument?

def expressionMarker? (r : Registry) (body : List Char) : Option Marker :=
  match longest? body r.identifiers with
  | none => none
  | some identifier =>
    (arguments? identifier.toList body).map fun args =>
      { identifier
        value := some (String.ofList args)
        expressions := argumentList args
        raw := String.ofList body }

/-- A marker without arguments: an identifier, and a value after the first `=`. -/
def plainMarker? (body : List Char) : Option Marker :=
  let (identifier, value) :=
    match Text.cutAt? '=' body with
    | some (id, value) => (Text.dropTailWhile (· == ':') (Text.trim id), some (String.ofList value))
    | none => (body, none)
  if identifier.isEmpty || identifier.any Text.isBlank then none
  else
    some
      { identifier := String.ofList identifier
        value
        expressions := []
        raw := String.ofList body }

/-- The marker whose text after `+` is `body`. -/
def markerOfBody? (r : Registry) (body : List Char) : Option Marker :=
  match body with
  | [] => none
  | c :: _ =>
    if c = '-' || c = '+' then none else (r.expressionMarker? body).or (plainMarker? body)

/-- The marker of a comment line, if it is one. -/
def parseLine? (r : Registry) (line : String) : Option Marker :=
  match Comment.text line.toList with
  | '+' :: rest => r.markerOfBody? (Text.trim rest)
  | _ => none

/-- The markers of a comment block. -/
def parse (r : Registry) (lines : List String) : MarkerSet :=
  lines.filterMap r.parseLine?

end Registry
end ApiConventions
