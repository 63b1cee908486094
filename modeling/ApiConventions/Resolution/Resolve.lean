import ApiConventions.Resolution.Reference

/-!
# ApiConventions.Resolution.Resolve

Resolution of a type reference to its kind. One step looks through a pointer, a bound parameter,
an alias, a defined type or an interface with a single term; resolution takes at most
`maxSteps` of them. What is still unresolved after that, a cycle for instance, is opaque.

Defined types and the types outside the program are recorded in the chain, outermost first.
Aliases and parameters leave no trace.
-/

namespace ApiConventions

/-- The number of steps a resolution may take. -/
def maxSteps : Nat := 64

/-- A resolved type. -/
structure Resolved where
  kind : Kind
  /-- The expression at which resolution ended, in its scope. -/
  underlying : TypeRef
  /-- The named types crossed, outermost first. -/
  chain : List Link
  pointerDepth : Nat
  /-- A slice of bytes, directly or through names. -/
  isByteSlice : Bool

namespace Resolved

def isPointer (r : Resolved) : Bool :=
  0 < r.pointerDepth

def names (r : Resolved) : List String :=
  r.chain.map (·.name)

/-- Whether the chain has the named type of a package. -/
def crosses (r : Resolved) (package name : String) : Bool :=
  r.chain.any fun link => link.package == package && link.name == name

/-- The declarations in the chain. -/
def decls (r : Resolved) : List TypeDecl :=
  r.chain.filterMap (·.decl)

/-- The element of a slice, an array or a channel. -/
def elem? (r : Resolved) : Option TypeRef :=
  match r.underlying.expr with
  | .slice elem => some (r.underlying.withExpr elem)
  | .array _ elem => some (r.underlying.withExpr elem)
  | .chan elem => some (r.underlying.withExpr elem)
  | _ => none

/-- The key and the value of a map. -/
def mapParts? (r : Resolved) : Option (TypeRef × TypeRef) :=
  match r.underlying.expr with
  | .map key value => some (r.underlying.withExpr key, r.underlying.withExpr value)
  | _ => none

/-- The members of a struct, and nothing for other types. -/
def members (r : Resolved) : List Field :=
  match r.underlying.expr with
  | .struct fields => fields
  | _ => []

/-- The type of a member, in the scope of the struct. -/
def memberType (r : Resolved) (f : Field) : TypeRef :=
  r.underlying.withExpr f.type

end Resolved

/-- Where one step of resolution leads. -/
inductive Step where
  | pointer (target : TypeRef)
  /-- A parameter, an alias or a single-term interface. -/
  | transparent (target : TypeRef)
  /-- A defined type. -/
  | defined (link : Link) (target : TypeRef)
  /-- The end, with the link of a type outside the program if that is what it is. -/
  | final (kind : Kind) (link : Option Link)

namespace Program

/-- The step at a type name. -/
def stepReferent : Referent → Step
  | .param target => .transparent target
  | .decl package decl body =>
    if decl.isAlias then .transparent body
    else .defined { package := package.path, name := decl.name, decl := some decl } body
  | .predeclared kind => .final kind none
  | .known link underlying => .final (underlying.elim .opaqueType .basic) (some link)
  | .unknown link => .final .opaqueType (some link)

def step (p : Program) (t : TypeRef) : Step :=
  match t.expr with
  | .ident _ _ _ => (p.referent? t).elim (.final .opaqueType none) stepReferent
  | .pointer elem => .pointer (t.withExpr elem)
  | .interface [term] => .transparent (t.withExpr term)
  | .interface _ => .final .interface none
  | .slice _ => .final .slice none
  | .array _ _ => .final .array none
  | .map _ _ => .final .map none
  | .struct _ => .final .struct none
  | .func => .final .func none
  | .chan _ => .final .chan none

/-- Whether a name leads to the basic type of bytes through names only. -/
def isByteWithin (p : Program) : Nat → TypeRef → Bool
  | 0, _ => false
  | n + 1, t =>
    match p.referent? t with
    | some (.param target) => p.isByteWithin n target
    | some (.decl _ _ body) => p.isByteWithin n body
    | some (.predeclared kind) => kind == .basic .uint8
    | _ => false

/-- Whether a reference is a slice of bytes. -/
def isByteSlice (p : Program) (t : TypeRef) : Bool :=
  match t.expr with
  | .slice elem => p.isByteWithin maxSteps (t.withExpr elem)
  | _ => false

/-- Resolution in at most the given number of steps, the last of which has to reach an end. -/
def resolveWithin (p : Program) : Nat → TypeRef → Resolved
  | 0, t =>
    { kind := .opaqueType, underlying := t, chain := [], pointerDepth := 0, isByteSlice := false }
  | n + 1, t =>
    match p.step t with
    | .pointer target =>
      let r := p.resolveWithin n target
      { r with pointerDepth := r.pointerDepth + 1 }
    | .transparent target => p.resolveWithin n target
    | .defined link target =>
      let r := p.resolveWithin n target
      { r with chain := link :: r.chain }
    | .final kind link =>
      { kind, underlying := t, chain := link.toList, pointerDepth := 0,
        isByteSlice := p.isByteSlice t }

def resolve (p : Program) (t : TypeRef) : Resolved :=
  p.resolveWithin maxSteps t

/-- Looks through parameters and aliases only. -/
def peelWithin (p : Program) : Nat → TypeRef → TypeRef
  | 0, t => t
  | n + 1, t =>
    match p.referent? t with
    | some (.param target) => p.peelWithin n target
    | some (.decl _ decl body) => if decl.isAlias then p.peelWithin n body else t
    | _ => t

/-- A reference without the parameters and aliases in front of it. -/
def peelAliases (p : Program) (t : TypeRef) : TypeRef :=
  p.peelWithin maxSteps t

end Program
end ApiConventions
