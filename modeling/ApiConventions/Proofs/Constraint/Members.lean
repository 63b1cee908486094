import ApiConventions.Proofs.Constraint.ZeroSize
import ApiConventions.Proofs.Promotion

/-!
# ApiConventions.Proofs.Constraint.Members

The shape of a struct and the names of its members. Two traversals go over the same members, and
one of them looks at the kind of an inlined member before it goes on. `classified` are the
properties that the shape counts, and where inlined members resolve they are the promoted ones,
whose names the other traversal lists.
-/

namespace ApiConventions

namespace Program

variable {p : Program} {s : Resolved}

/-- The inlined members met on the way so many levels down resolve within the limit. -/
def InlinesEnd (p : Program) (levels : Nat) (s : Resolved) : Prop :=
  ∀ path s' g, p.Inlines s path s' → path.length < levels → g ∈ s'.members → g.IsInlined →
    p.endsWithin maxSteps (s'.memberType g) = true

theorem inlinesEnd_succ {levels : Nat} : p.InlinesEnd (levels + 1) s ↔
    ∀ g ∈ s.members, g.IsInlined → p.endsWithin maxSteps (s.memberType g) = true ∧
      p.InlinesEnd levels (p.resolve (s.memberType g)) := by
  constructor
  · intro h g hg inlined
    refine ⟨h [] s g .here (Nat.zero_lt_succ levels) hg inlined, ?_⟩
    intro path s' g' reach short hg' inlined'
    exact h (g :: path) s' g' (.through hg inlined reach) (Nat.succ_lt_succ short) hg' inlined'
  · intro h path s' g reach short hg inlined
    cases reach with
    | here => exact (h g hg inlined).1
    | through hg' inlined' reach =>
      exact (h _ hg' inlined').2 _ s' g reach (Nat.lt_of_succ_lt_succ short) hg inlined

instance decidableInlinesEnd (p : Program) (levels : Nat) :
    ∀ s, Decidable (p.InlinesEnd levels s) :=
  match levels with
  | 0 => fun _ => .isTrue fun _ _ _ _ short => absurd short (Nat.not_lt_zero _)
  | levels + 1 => fun _ =>
    have := p.decidableInlinesEnd levels
    decidable_of_iff _ inlinesEnd_succ.symm

/-- A member with its resolved type, or what `inlined` gives if it is an inlined struct. -/
def classifiedMember (inlined : Resolved → List (Field × Resolved)) (f : Field) (r : Resolved) :
    List (Field × Resolved) :=
  if f.jsonTag.ignored then []
  else if f.isInline then if r.kind = .struct then inlined r else []
  else [(f, r)]

/-- The properties that the shape of a struct counts, with their resolved types. -/
def classified (p : Program) : Nat → Resolved → List (Field × Resolved)
  | 0, s => s.members.flatMap fun f => classifiedMember (fun _ => []) f (p.resolve (s.memberType f))
  | levels + 1, s => s.members.flatMap fun f =>
    classifiedMember (p.classified levels) f (p.resolve (s.memberType f))

theorem classifiedMember_eq {inner : Resolved → List (Field × Resolved)}
    {inlined : Resolved → List (Field × TypeRef)} {f : Field} {r : Resolved}
    (resolved : p.resolve (s.memberType f) = r)
    (same : f.IsInlined → (if r.kind = .struct then inner r else []) =
      (inlined r).map fun q => (q.1, p.resolve q.2)) :
    classifiedMember inner f r =
      (p.promotedMember inlined s f).map fun q => (q.1, p.resolve q.2) := by
  rw [classifiedMember, promotedMember, resolved]
  cases ignored : f.jsonTag.ignored with
  | true => rfl
  | false =>
    cases inline : f.isInline with
    | false => rw [← resolved]; rfl
    | true => exact same (Field.isInlined_iff.2 ⟨ignored, inline⟩)

/-- The kind of an inlined member makes no difference where its type resolves. -/
theorem classified_eq_promoted {levels : Nat} (ends : p.InlinesEnd levels s) :
    p.classified levels s = (p.promoted levels s).map fun q => (q.1, p.resolve q.2) := by
  induction levels generalizing s with
  | zero =>
    rw [classified, promoted, List.map_flatMap]
    exact List.flatMap_congr fun f _ => classifiedMember_eq rfl fun _ => ite_self _
  | succ levels ih =>
    rw [classified, promoted, List.map_flatMap]
    refine List.flatMap_congr fun f hf => classifiedMember_eq rfl fun inlined => ?_
    obtain ⟨resolves, below⟩ := inlinesEnd_succ.1 ends f hf inlined
    by_cases struct : (p.resolve (s.memberType f)).kind = .struct
    · rw [if_pos struct, ih below]
    · -- The other traversal goes on here, and there are no members.
      rw [if_neg struct, promoted_of_members (members_eq_nil resolves struct), List.map_nil]

end Program

namespace Extractor

variable {x : Extractor}

/-- What a property adds to the shape of a struct. -/
def propertyShape (x : Extractor) (q : Field × Resolved) : StructShape :=
  if q.1.LeavesOut q.2 then
    if (x.registry.parse q.1.doc).hasAny MarkerName.requiredFamily then
      { omittedRequired := [q.1.displayName] }
    else {}
  else { alwaysPresent := 1 }

@[simp] theorem joinShapes_nil : joinShapes [] = {} :=
  rfl

@[simp] theorem joinShapes_singleton (shape : StructShape) : joinShapes [shape] = shape := by
  simp [joinShapes]

theorem joinShapes_cons (shape : StructShape) (shapes : List StructShape) :
    joinShapes (shape :: shapes) =
      { alwaysPresent := shape.alwaysPresent + (joinShapes shapes).alwaysPresent
        omittedRequired := shape.omittedRequired ++ (joinShapes shapes).omittedRequired } :=
  rfl

theorem joinShapes_append (shapes shapes' : List StructShape) :
    joinShapes (shapes ++ shapes') = joinShapes [joinShapes shapes, joinShapes shapes'] := by
  induction shapes with
  | nil => simp [joinShapes]
  | cons shape shapes ih =>
    rw [List.cons_append, joinShapes_cons, ih]
    simp [joinShapes, Nat.add_assoc]

/-- Joined parts are joined like the whole. -/
theorem joinShapes_flatMap {α : Type} (parts : α → List StructShape) (l : List α) :
    joinShapes (l.flatMap parts) = joinShapes (l.map fun a => joinShapes (parts a)) := by
  induction l with
  | nil => rfl
  | cons a l ih =>
    rw [List.flatMap_cons, joinShapes_append, List.map_cons, joinShapes_cons, ih]
    simp [joinShapes]

theorem memberShape_eq_joinShapes {inlined : Resolved → StructShape}
    (properties : Resolved → List (Field × Resolved))
    (same : ∀ r, inlined r = joinShapes ((properties r).map x.propertyShape)) (f : Field)
    (r : Resolved) : x.memberShape inlined f r =
      joinShapes ((Program.classifiedMember properties f r).map x.propertyShape) := by
  rw [memberShape, Program.classifiedMember]
  cases f.jsonTag.ignored with
  | true => rfl
  | false =>
    cases f.isInline with
    | true =>
      by_cases struct : r.kind = .struct
      · simp [struct, same]
      · simp [struct]
    | false =>
      by_cases out : f.LeavesOut r
      · simp [propertyShape, out, Field.omitsZero_iff.2 out]
      · simp [propertyShape, out, mt Field.omitsZero_iff.1 out]

/-- The shape of a struct joins what the properties add that it counts. -/
theorem structShape_eq_joinShapes (levels : Nat) (s : Resolved) : x.structShape levels s =
    joinShapes ((x.program.classified levels s).map x.propertyShape) := by
  induction levels generalizing s with
  | zero =>
    rw [structShape, Program.classified, List.map_flatMap, joinShapes_flatMap]
    congr 1
    exact List.map_congr_left fun f _ => memberShape_eq_joinShapes (fun _ => []) (fun _ => rfl) f _
  | succ levels ih =>
    rw [structShape, Program.classified, List.map_flatMap, joinShapes_flatMap]
    congr 1
    exact List.map_congr_left fun f _ => memberShape_eq_joinShapes _ ih f _

theorem joinShapes_propertyShape (properties : List (Field × Resolved)) :
    let omitted := properties.filter fun q => q.1.LeavesOut q.2
    let shape := joinShapes (properties.map x.propertyShape)
    properties.length = shape.alwaysPresent + omitted.length ∧
      shape.omittedRequired = (omitted.filter fun q =>
        (x.registry.parse q.1.doc).hasAny MarkerName.requiredFamily).map (·.1.displayName) := by
  induction properties with
  | nil => exact ⟨rfl, rfl⟩
  | cons q properties ih =>
    obtain ⟨length, required⟩ := ih
    simp only [List.map_cons, joinShapes_cons, required, List.length_cons, length]
    by_cases out : q.1.LeavesOut q.2
    · by_cases marked : (x.registry.parse q.1.doc).hasAny MarkerName.requiredFamily = true
      · simp [propertyShape, out, marked]
        omega
      · simp [propertyShape, out, marked]
        omega
    · simp [propertyShape, out]
      omega

/--
At every depth the names of the members are those of the properties that the shape counts, one for
each and in the same order: so many as are always present or left out, and the required ones among
those left out are the ones the shape names.
-/
theorem traversals_agree (x : Extractor) (depth : Nat) (s : Resolved)
    (ends : x.program.InlinesEnd (maxShapeDepth - depth) s) :
    let names := ListTags.memberNames x.program (ListTags.maxEmbeddingDepth - depth) s
    let shape := x.structShape (maxShapeDepth - depth) s
    let properties := x.program.classified (maxShapeDepth - depth) s
    let omitted := properties.filter fun q => q.1.LeavesOut q.2
    shape = joinShapes (properties.map x.propertyShape) ∧
    names = properties.map (fun q => ListTags.memberName q.1) ∧
    names.length = shape.alwaysPresent + omitted.length ∧
    shape.omittedRequired = (omitted.filter fun q =>
      (x.registry.parse q.1.doc).hasAny MarkerName.requiredFamily).map (·.1.displayName) := by
  intro names shape properties omitted
  have counted : shape = joinShapes (properties.map x.propertyShape) :=
    structShape_eq_joinShapes _ _
  have named : names = properties.map fun q => ListTags.memberName q.1 := by
    rw [show names = _ from ListTags.memberNames_eq_promoted _ _ _,
      show properties = _ from Program.classified_eq_promoted ends, List.map_map]
    rfl
  obtain ⟨length, required⟩ := joinShapes_propertyShape (x := x) properties
  rw [← counted] at length required
  exact ⟨counted, named, by rw [named, List.length_map, length], required⟩

end Extractor

namespace Linked

def name : Field where
  name := some "Name"
  pos := { line := 9, column := 2 }
  doc := ["// +required"]
  type := .ident "string" none []
  tag := some "json:\"name,omitempty\""

def size : Field where
  name := some "Size"
  pos := { line := 10, column := 2 }
  doc := []
  type := .ident "int32" none []
  tag := none

def embedded (type : TypeExpr) (line : UInt64) : Field where
  name := none
  pos := { line, column := 2 }
  doc := []
  type := type
  tag := none

def labels : TypeDecl where
  name := "Labels"
  pos := { line := 3, column := 6 }
  doc := []
  isAlias := false
  params := []
  type := .map (.ident "string" none []) (.ident "string" none [])

/-- A struct inside itself, next to a map that is inlined and has no members. -/
def node : TypeDecl where
  name := "Node"
  pos := { line := 5, column := 6 }
  doc := []
  isAlias := false
  params := []
  type :=
    .struct
      [name, embedded (.pointer (.ident "Node" none [])) 7,
       embedded (.ident "Labels" none []) 8, size]

def package : Package := ⟨"example.com/api", "api", [⟨"api/node.go", [labels, node]⟩]⟩
def extractor : Extractor := ⟨⟨[package]⟩, .standard⟩
def nodes : Resolved := extractor.program.resolve (.closed (.ident "Node" none []) package)

theorem traversals_agree_nodes :
    extractor.program.InlinesEnd (maxShapeDepth - 6) nodes ∧
    ListTags.memberNames extractor.program (ListTags.maxEmbeddingDepth - 6) nodes =
      ["name", "name", "name", "Size", "Size", "Size"] ∧
    6 = (extractor.structShape (maxShapeDepth - 6) nodes).alwaysPresent +
      ((extractor.program.classified (maxShapeDepth - 6) nodes).filter fun q =>
        q.1.LeavesOut q.2).length ∧
    (extractor.structShape (maxShapeDepth - 6) nodes).omittedRequired =
      ["Name", "Name", "Name"] := by
  have ends : extractor.program.InlinesEnd (maxShapeDepth - 6) nodes := by decide +kernel
  have names : ListTags.memberNames extractor.program (ListTags.maxEmbeddingDepth - 6) nodes =
    ["name", "name", "name", "Size", "Size", "Size"] := by decide +kernel
  obtain ⟨-, -, length, -⟩ := Extractor.traversals_agree extractor 6 nodes ends
  rw [names] at length
  exact ⟨ends, names, length, by decide +kernel⟩

end Linked
end ApiConventions
