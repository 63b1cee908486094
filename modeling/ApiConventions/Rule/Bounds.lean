import ApiConventions.Inspection
import ApiConventions.Rule.Diagnostic
import ApiConventions.ZeroValue

/-!
# ApiConventions.Rule.Bounds

Conventions on the presence of bounds: on the length of strings, the number of items of lists
and the number of properties of maps and structs. One rule asks for lower bounds, another for
upper bounds.

A malformed marker is reported by the side it bounds, on declarations and on fields marked
neither optional nor required; and as long as a side has a malformed marker on a subject, that
side does not ask for bounds there.
-/

namespace ApiConventions

/-- Which bound is asked for. -/
inductive Side where
  | minimum
  | maximum
deriving DecidableEq, Repr

namespace Side

def word : Side → String
  | .minimum => "minimum"
  | .maximum => "maximum"

def abbreviation : Side → String
  | .minimum => "Min"
  | .maximum => "Max"

def lengthBound (s : Side) (c : Constraints) : Option Int :=
  match s with
  | .minimum => c.minLength
  | .maximum => c.maxLength

def itemsBound (s : Side) (c : Constraints) : Option Int :=
  match s with
  | .minimum => c.minItems
  | .maximum => c.maxItems

def propertiesBound (s : Side) (c : Constraints) : Option Int :=
  match s with
  | .minimum => c.minProperties
  | .maximum => c.maxProperties

/-- Whether an identifier, after its last colon, names an upper bound. -/
def isUpperBound (identifier : String) : Bool :=
  let name := (Text.splitOn ':' identifier.toList).getLastD []
  "Max".toList.isPrefixOf name || "ExclusiveMax".toList.isPrefixOf name

/-- The side that reports a malformed marker: upper bounds are one side, all else the other. -/
def owns (s : Side) (e : ValueError) : Bool :=
  match s with
  | .minimum => !isUpperBound e.identifier
  | .maximum => isUpperBound e.identifier

/-- A struct needs a lower bound only when its empty value is accepted for want of one. -/
def wantsStructBound (s : Side) (c : Constraints) : Bool :=
  match s with
  | .minimum =>
    let zero := ZeroValidity.of .struct c
    zero.valid && !zero.complete
  | .maximum => false

/-- What is bounded: the word in the message, and the end of the marker's name. -/
inductive Measure where
  | length
  | items
  | properties
deriving DecidableEq, Repr

def Measure.word : Measure → String
  | .length => "length"
  | .items => "items"
  | .properties => "properties"

def Measure.markerEnd : Measure → String
  | .length => "Length"
  | .items => "Items"
  | .properties => "Properties"

/-- The message for a missing bound; `of` and `path` are for the elements of a list. -/
def missing (s : Side) (subject : Subject) (of path : String) (m : Measure) : String :=
  subject.text ++ of ++ " must have a " ++ s.word ++ " " ++ m.word ++
    ", add kubebuilder:validation:" ++ path ++ s.abbreviation ++ m.markerEnd ++ " marker"

/-- The bound that a type of this shape lacks. -/
def lacking? (s : Side) (c : Constraints) (withStructs : Bool) : Shape → Option Measure
  | .string | .bytes =>
    if c.enumValues.isNone && (s.lengthBound c).isNone then some .length else none
  | .list => if (s.itemsBound c).isNone then some .items else none
  | .map => if (s.propertiesBound c).isNone then some .properties else none
  | .struct =>
    if withStructs && (s.propertiesBound c).isNone && s.wantsStructBound c then some .properties
    else none
  | _ => none

/-- The bound that the elements of a list lack; lists and slices of bytes inside lists need none. -/
def lackingElement? (s : Side) (c : Constraints) : Shape → Option Measure
  | .string => s.lacking? c true .string
  | .map => s.lacking? c true .map
  | .struct => s.lacking? c true .struct
  | _ => none

/-- The missing bounds of a subject and, for a list, of its elements. -/
def missingBounds (s : Side) (p : Program) (subject : Subject) (r : Resolved) (c : Constraints)
    (withStructs : Bool) : List String :=
  let shape := Shape.ofResolved r
  let own := (s.lacking? c withStructs shape).toList.map (s.missing subject "" "")
  let elements :=
    match shape, r.elem? with
    | .list, some elem =>
      let items := c.items.getD {}
      (s.lackingElement? items (Shape.ofResolved (p.resolve elem))).toList.map
        (s.missing subject " array element" "items:")
    | _, _ => []
  own ++ elements

end Side

namespace Bounds

/--
The diagnostics on one subject: its malformed markers if `reports` says that this rule reports
them, and the missing bounds if there are no malformed markers on this side.
-/
def checkSubject (s : Side) (p : Program) (pos : Position) (subject : Subject) (r : Resolved)
    (c : Constraints) (errors : List ValueError) (reports withStructs : Bool) : List Diagnostic :=
  let owned := errors.filter s.owns
  let malformed := if reports then Diagnostic.ofErrors pos subject owned else []
  let absent :=
    if owned.isEmpty then
      (s.missingBounds p subject r c withStructs).map fun message => { pos := pos, message := message }
    else []
  malformed ++ absent

def checkDecl (s : Side) (ctx : FileContext) (d : TypeDecl) : List Diagnostic :=
  if d.isAlias || !d.params.isEmpty then []
  else
    let info := ctx.inspectDecl d
    checkSubject s ctx.program d.pos (.type d.name) info.resolved info.constraints info.errors
      true false

def checkField (s : Side) (ctx : FileContext) (f : Field) (scope : TypeDecl) : List Diagnostic :=
  if f.isSkipped then []
  else
    let info := ctx.inspectField f scope
    let unmarked := !info.constraints.optional && !info.constraints.required
    checkSubject s ctx.program f.pos (.field f.displayName) info.resolved info.constraints
      info.errors unmarked true

/-- The diagnostics of one side on a file, sorted by position. -/
def check (s : Side) (ctx : FileContext) : List Diagnostic :=
  Diagnostic.sort
    (ctx.file.decls.flatMap (checkDecl s ctx) ++
      ctx.file.fields.flatMap fun (f, scope) => checkField s ctx f scope)

end Bounds
end ApiConventions
