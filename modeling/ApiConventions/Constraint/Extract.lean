import ApiConventions.Constraint.Basic
import ApiConventions.Constraint.Layers
import ApiConventions.Marker.Registry
import ApiConventions.Resolution.Resolve

/-!
# ApiConventions.Constraint.Extract

The constraints of a field, a declaration or a type. The layers are the markers of the subject
itself, and then those of the defined types it resolves through, outermost first. A list also
has constraints on its elements: those of the element type, overridden by the `items` markers of
the list. Nested lists and inline structs are followed eight levels deep.
-/

namespace ApiConventions

/-- How deeply nested lists and inline structs are followed. -/
def maxShapeDepth : Nat := 8

/-- Constraints, and the malformed marker values met in reading them. -/
structure Extraction where
  constraints : Constraints
  errors : List ValueError

/-- The program and the marker registry under which markers are read. -/
structure Extractor where
  program : Program
  registry : Registry

namespace Layers

/-- The numeric range of a subject, and its errors in the order in which the ends are read. -/
def range {N : Type} (layers : List MarkerSet) (coerce : Marker → Except ValueError N) :
    Range N × List ValueError :=
  let minimum := read layers MarkerName.minimum coerce
  let maximum := read layers MarkerName.maximum coerce
  let exclusiveMinimum := read layers MarkerName.exclusiveMinimum Marker.asBool
  let exclusiveMaximum := read layers MarkerName.exclusiveMaximum Marker.asBool
  ({ minimum := minimum.value
     maximum := maximum.value
     exclusiveMinimum := exclusiveMinimum.value.getD false
     exclusiveMaximum := exclusiveMaximum.value.getD false },
   minimum.errors ++ maximum.errors ++ exclusiveMinimum.errors ++ exclusiveMaximum.errors)

/-- The numeric bounds of a subject, for integers and floating point numbers only. -/
def numeric (layers : List MarkerSet) (kind : Kind) : Reading NumericBounds :=
  match kind with
  | .basic b =>
    if b.isInteger then
      let (range, errors) := range layers Marker.asInt
      ⟨some (.integer range), errors⟩
    else if b.isFloat then
      let (range, errors) := range layers Marker.asFloat
      ⟨some (.float range), errors⟩
    else ⟨none, []⟩
  | _ => ⟨none, []⟩

/-- The constraints on the subject itself. -/
def own (layers : List MarkerSet) (kind : Kind) : Extraction :=
  let numeric := numeric layers kind
  let minLength := read layers MarkerName.minLength Marker.asInt
  let maxLength := read layers MarkerName.maxLength Marker.asInt
  let minItems := read layers MarkerName.minItems Marker.asInt
  let maxItems := read layers MarkerName.maxItems Marker.asInt
  let minProperties := read layers MarkerName.minProperties Marker.asInt
  let maxProperties := read layers MarkerName.maxProperties Marker.asInt
  let enumValues := read layers MarkerName.enum Marker.asList
  { constraints :=
      { numeric := numeric.value
        minLength := minLength.value
        maxLength := maxLength.value
        minItems := minItems.value
        maxItems := maxItems.value
        minProperties := minProperties.value
        maxProperties := maxProperties.value
        enumValues := enumValues.value }
    errors :=
      numeric.errors ++ minLength.errors ++ maxLength.errors ++ minItems.errors ++
        maxItems.errors ++ minProperties.errors ++ maxProperties.errors ++ enumValues.errors }

/--
The constraints on the elements of a list, given those of the element type. An `items` marker
that can be read replaces the element type's value. Its errors come before those of the element.
-/
def overElements (layers : List MarkerSet) (element : Extraction) : Extraction :=
  let minLength := read layers MarkerName.itemsMinLength Marker.asInt
  let maxLength := read layers MarkerName.itemsMaxLength Marker.asInt
  let minProperties := read layers MarkerName.itemsMinProperties Marker.asInt
  let maxProperties := read layers MarkerName.itemsMaxProperties Marker.asInt
  let enumValues := read layers MarkerName.itemsEnum Marker.asList
  let inner := element.constraints
  { constraints :=
      { inner with
        minLength := minLength.value.or inner.minLength
        maxLength := maxLength.value.or inner.maxLength
        minProperties := minProperties.value.or inner.minProperties
        maxProperties := maxProperties.value.or inner.maxProperties
        enumValues := enumValues.value.or inner.enumValues }
    errors :=
      minLength.errors ++ maxLength.errors ++ minProperties.errors ++ maxProperties.errors ++
        enumValues.errors ++ element.errors }

end Layers

namespace Extractor

/-- The markers of the defined types that a type resolves through, outermost first. -/
def typeLayers (x : Extractor) (r : Resolved) : List MarkerSet :=
  r.decls.map fun decl => x.registry.parse decl.doc

/-- Whether a member is left out of the zero value by its tag. -/
def omitsZero (json : JsonTag) (r : Resolved) : Bool :=
  json.omitZero || (json.omitEmpty && (r.isPointer || r.kind != .struct))

/-- The part of one member in the zero value, where `inlined` is that of an inline struct. -/
def memberShape (x : Extractor) (inlined : Resolved → StructShape) (f : Field) (r : Resolved) :
    StructShape :=
  if f.jsonTag.ignored then {}
  else if f.isInline then if r.kind = .struct then inlined r else {}
  else if !omitsZero f.jsonTag r then { alwaysPresent := 1 }
  else if (x.registry.parse f.doc).hasAny MarkerName.requiredFamily then
    { omittedRequired := [f.displayName] }
  else {}

/-- The shape of several members together. -/
def joinShapes (shapes : List StructShape) : StructShape :=
  { alwaysPresent := shapes.foldr (fun shape count => shape.alwaysPresent + count) 0
    omittedRequired := shapes.flatMap (·.omittedRequired) }

/-- The shape of a struct, where inline structs are followed so many levels deep. -/
def structShape (x : Extractor) : Nat → Resolved → StructShape
  | 0, r =>
    joinShapes (r.members.map fun f =>
      x.memberShape (fun _ => {}) f (x.program.resolve (r.memberType f)))
  | levels + 1, r =>
    joinShapes (r.members.map fun f =>
      x.memberShape (x.structShape levels) f (x.program.resolve (r.memberType f)))

/-- Adds the shape of a struct to its constraints. -/
def withShape (x : Extractor) (levels : Nat) (r : Resolved) (e : Extraction) : Extraction :=
  if r.kind = .struct then
    { e with constraints := { e.constraints with structShape := some (x.structShape levels r) } }
  else e

/-- Adds the constraints on the elements of a list. -/
def withItems (layers : List MarkerSet) (element : Extraction) (e : Extraction) : Extraction :=
  let items := Layers.overElements layers element
  { constraints := { e.constraints with items := some items.constraints }
    errors := e.errors ++ items.errors }

/-- The element of a list other than a slice of bytes. -/
def listElem? (r : Resolved) : Option TypeRef :=
  if r.kind.isList && !r.isByteSlice then r.elem? else none

/--
The constraints of a type under layers of markers of which the last are its own, where lists and
inline structs are followed so many levels deep.
-/
def extractWithin (x : Extractor) : Nat → List MarkerSet → Resolved → Extraction
  | 0, own, r =>
    let layers := own ++ x.typeLayers r
    x.withShape 0 r (Layers.own layers r.kind)
  | levels + 1, own, r =>
    let layers := own ++ x.typeLayers r
    let base := Layers.own layers r.kind
    let listed :=
      match listElem? r with
      | none => base
      | some elem =>
        withItems layers (x.extractWithin levels [] (x.program.resolve elem)) base
    x.withShape (levels + 1) r listed

/-- The constraints of a type, from the markers of its defined types only. -/
def ofType (x : Extractor) (r : Resolved) : Extraction :=
  x.extractWithin maxShapeDepth [] r

/-- The constraints of a subject with markers of its own, which come first. -/
def ofSubject (x : Extractor) (markers : MarkerSet) (r : Resolved) : Extraction :=
  let e := x.extractWithin maxShapeDepth [markers] r
  { e with
    constraints :=
      { e.constraints with
        optional := markers.hasAny MarkerName.optionalFamily
        required := markers.hasAny MarkerName.requiredFamily } }

/-- The constraints of a declaration whose right-hand side resolved to `r`. -/
def ofDecl (x : Extractor) (d : TypeDecl) (r : Resolved) : Extraction :=
  x.ofSubject (x.registry.parse d.doc) r

/-- The constraints of a field whose type resolved to `r`. -/
def ofField (x : Extractor) (f : Field) (r : Resolved) : Extraction :=
  let e := x.ofSubject (x.registry.parse f.doc) r
  { e with constraints := { e.constraints with json := f.jsonTag } }

end Extractor
end ApiConventions
