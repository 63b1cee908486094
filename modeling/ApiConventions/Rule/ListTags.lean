import ApiConventions.Inspection
import ApiConventions.Rule.Diagnostic

/-!
# ApiConventions.Rule.ListTags

How lists are merged by server-side apply. A list field needs a `listType` marker: `atomic`,
`set` or `map`. A `set` is for primitives, and a `map` is for structs and needs `listMapKey`
markers that name members of the struct. The markers are those of the field, or else those of
the first defined list type it resolves through that has a `listType`. Slices of bytes take no
`listType`.
-/

namespace ApiConventions

/-- What happens when a list of structs is a `set`. -/
inductive SetUsage where
  | warn
  | ignore
deriving DecidableEq, Repr

def SetUsage.ofName? : String → Option SetUsage
  | "Warn" => some .warn
  | "Ignore" => some .ignore
  | _ => none

namespace ListTags

/-- What a list holds, as far as the program shows. -/
inductive Element where
  | object
  | primitive
  /-- Interfaces and types outside the program. -/
  | unknown
deriving DecidableEq, Repr

def Element.of : Kind → Element
  | .struct => .object
  | .opaqueType => .unknown
  | .interface => .unknown
  | _ => .primitive

/-- How deeply inline structs are followed for member names. -/
def maxEmbeddingDepth : Nat := 8

/-- The serialized name of a member. -/
def memberName (f : Field) : String :=
  if f.jsonTag.name.isEmpty then f.displayName else f.jsonTag.name

/-- The names of one member, where `inlined` gives those of an inline type. -/
def namesOfMember (inlined : Resolved → List String) (p : Program) (r : Resolved) (f : Field) :
    List String :=
  if f.jsonTag.ignored then []
  else if f.isInline then inlined (p.resolve (r.memberType f))
  else [memberName f]

/-- The serialized member names of a struct, inline types followed so many levels deep. -/
def memberNames (p : Program) : Nat → Resolved → List String
  | 0, r => r.members.flatMap (namesOfMember (fun _ => []) p r)
  | levels + 1, r => r.members.flatMap (namesOfMember (memberNames p levels) p r)

/-- The messages about the keys of a list that is merged as a map. -/
def checkKeys (p : Program) (name : String) (layer : MarkerSet) (elem : Resolved) : List String :=
  let keys := (layer.occurrences MarkerName.listMapKey).filterMap fun m => m.asString.toOption
  if keys.isEmpty then
    [s!"field {name} with listType=map must have at least one listMapKey marker"]
  else
    let members := memberNames p maxEmbeddingDepth elem
    (keys.filter (!members.contains ·)).map fun key =>
      s!"field {name} listMapKey \"{key}\" does not exist as a field in the struct"

/-- The messages about a list whose `listType` is one of the three. -/
def checkElements (usage : SetUsage) (p : Program) (name listType : String) (layer : MarkerSet)
    (elem : Resolved) : List String :=
  match listType, Element.of elem.kind with
  | "set", .object =>
    if usage = .warn then
      [s!"field {name} with listType=set is not recommended due to Server-Side Apply " ++
        "compatibility issues. Consider using listType=atomic or listType=map instead"]
    else []
  | "map", .primitive =>
    [s!"field {name} with listType=map can only be used for object lists, not primitive lists"]
  | "map", .object => checkKeys p name layer elem
  | _, _ => []

/-- The messages about a list under the layer that has its `listType`. -/
def checkList (usage : SetUsage) (p : Program) (name : String) (layer : MarkerSet)
    (r : Resolved) : List String :=
  let listType :=
    ((layer.first? MarkerName.listType).bind fun m => m.asString.toOption).getD ""
  if !(["atomic", "set", "map"].contains listType) then
    [s!"field {name} has invalid listType \"{listType}\", must be one of: atomic, set, map"]
  else
    match r.elem? with
    | none => []
    | some elem => checkElements usage p name listType layer (p.resolve elem)

/-- The messages about a field, given its layers of markers. -/
def messages (usage : SetUsage) (p : Program) (name : String) (layers : List MarkerSet)
    (r : Resolved) : List String :=
  match r.isByteSlice, layers.find? (·.has MarkerName.listType) with
  | true, some _ =>
    [s!"field {name} is a byte array, which does not support the listType marker. " ++
      "Remove the listType marker"]
  | true, none => []
  | false, found =>
    if !r.kind.isList then []
    else
      match found with
      | none =>
        [s!"field {name} should have a listType marker for proper Server-Side Apply behavior " ++
          "(atomic, set, or map)"]
      | some layer => checkList usage p name layer r

def checkField (usage : SetUsage) (ctx : FileContext) (f : Field) (scope : TypeDecl) :
    List Diagnostic :=
  if f.isSkipped then []
  else
    let info := ctx.inspectField f scope
    let layers := info.markers :: ctx.extractor.typeLayers info.resolved
    (messages usage ctx.program f.displayName layers info.resolved).map fun message =>
      { pos := f.pos, message }

def check (usage : SetUsage) (ctx : FileContext) : List Diagnostic :=
  ctx.file.fields.flatMap fun (f, scope) => checkField usage ctx f scope

end ListTags
end ApiConventions
