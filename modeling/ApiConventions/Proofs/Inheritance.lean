import ApiConventions.Inspection
import ApiConventions.Proofs.Constraint.Winners
import ApiConventions.Proofs.Correspondence.Bindings
import ApiConventions.Proofs.Model.Lookup
import ApiConventions.Proofs.Resolution.Unfolding

/-!
# ApiConventions.Proofs.Inheritance

A field inherits exactly what its type declares. A field without markers, whose type is the name
of a defined type behind any number of pointers, resolves as the declaration does, with the link of
the declared type in front; so its layers are those of the declaration behind an empty one.
-/

namespace ApiConventions

/-- A type behind so many pointers. -/
def TypeExpr.behind (type : TypeExpr) : Nat → TypeExpr
  | 0 => type
  | levels + 1 => .pointer (type.behind levels)

/-! ## Resolution of the name -/

theorem bindParams_nil (site site' : TypeRef) (P : Package) (params : List TypeParam) :
    ∀ bound, bindParams site P bound params [] = bindParams site' P bound params [] := by
  induction params with
  | nil => intro bound; rfl
  | cons x xs ih => intro bound; exact ih _

/-- Parameters that are bound to nothing but their constraints are bound outside any scope. -/
theorem TypeRef.bodyOf_nil (t : TypeRef) (P : Package) (d : TypeDecl) :
    t.bodyOf P d [] = ⟨d.type, P, d.scopeBindings P⟩ := by
  rw [TypeRef.bodyOf, TypeDecl.scopeBindings, TypeDecl.instantiate, TypeDecl.instantiate,
    bindParams_nil]

namespace Program

variable {p : Program}

theorem endsWithin_pointee {t : TypeRef} {e : TypeExpr} {n : Nat} (expr : t.expr = .pointer e)
    (ends : p.endsWithin n t = true) : p.endsWithin n (t.withExpr e) = true := by
  cases n with
  | zero => cases ends
  | succ n =>
    have next : p.next? t = some (t.withExpr e) := by rw [next?, step, expr]
    rw [endsWithin_of_next next] at ends
    exact endsWithin_succ ends

theorem endsWithin_of_behind {e : TypeExpr} {P : Package} {b : List (String × TypeRef)}
    (levels : Nat) (ends : p.endsWithin maxSteps ⟨e.behind levels, P, b⟩ = true) :
    p.endsWithin maxSteps ⟨e, P, b⟩ = true := by
  induction levels with
  | zero => exact ends
  | succ levels ih => exact ih (endsWithin_pointee rfl ends)

theorem resolve_behind {e : TypeExpr} {P : Package} {b : List (String × TypeRef)} (levels : Nat)
    (ends : p.endsWithin maxSteps ⟨e.behind levels, P, b⟩ = true) :
    p.resolve ⟨e.behind levels, P, b⟩ =
      { p.resolve ⟨e, P, b⟩ with
        pointerDepth := levels + (p.resolve ⟨e, P, b⟩).pointerDepth } := by
  induction levels with
  | zero => simp [TypeExpr.behind]
  | succ levels ih =>
    have inner := ih (endsWithin_pointee rfl ends)
    have outer := (resolvesByParts ends).pointer _ rfl
    rw [outer, TypeRef.withExpr, inner]
    simp only [Nat.add_right_comm]

end Program

/-! ## Extraction -/

namespace Extractor

variable {x : Extractor} {f : Field} {d : TypeDecl} {r r' : Resolved}

/-- A field that only adds the link of a declaration has the constraints of the declaration. -/
theorem ofField_eq_ofDecl (bare : x.registry.parse f.doc = []) (decls : r'.decls = d :: r.decls)
    (kind : r'.kind = r.kind) (underlying : r'.underlying = r.underlying)
    (bytes : r'.isByteSlice = r.isByteSlice) :
    x.ofField f r' =
      { x.ofDecl d r with
        constraints :=
          { (x.ofDecl d r).constraints with
            json := f.jsonTag
            optional := false
            required := false } } := by
  have layers : Layers.Agree ([[]] ++ x.typeLayers r')
      ([x.registry.parse d.doc] ++ x.typeLayers r) := by
    rw [typeLayers, decls]
    exact Layers.Agree.empty_cons _
  have none (identifiers : List String) : MarkerSet.hasAny [] identifiers = false := by
    simp [MarkerSet.hasAny, MarkerSet.has]
  rw [ofField, ofSubject, ofDecl, ofSubject, bare]
  simp only [extractWithin_eq_of_agree layers kind underlying bytes, none]

end Extractor

/-! ## Fields -/

namespace FileContext

/-- The ways to write the name of a declaration in a file, inside another declaration. -/
inductive Mentions (ctx : FileContext) (scope : TypeDecl) (P : Package) (d : TypeDecl) :
    TypeExpr → Prop where
  /-- In its own package, unless a parameter has the name. -/
  | own (package : ctx.package = P) (visible : d.name ∉ scope.params.map (·.name)) :
      Mentions ctx scope P d (.ident d.name none [])
  /-- Anywhere, behind the path of its package. -/
  | imported : Mentions ctx scope P d (.ident d.name (some P.path) [])

variable {ctx : FileContext} {scope : TypeDecl} {P : Package} {d : TypeDecl}

theorem Mentions.denotes {e : TypeExpr} (h : ctx.Mentions scope P d e)
    (unique : (ctx.program.packages.map (·.path)).Nodup) (package : P ∈ ctx.program.packages)
    (declared : P.decl? d.name = some d) : ctx.program.Denotes (ctx.typeRef e scope) P d [] := by
  cases h with
  | own hP visible =>
    subst hP
    exact .own rfl (fun _ => TypeDecl.lookup_instantiate visible) declared
  | imported =>
    have found := (Program.package?_eq_some_iff unique).2 ⟨package, rfl⟩
    exact .imported rfl found declared

/--
A field without markers of its own whose type is a defined type, behind any number of pointers,
has the constraints and the errors of the declaration. Nothing else is its own but the pointers,
its tag, and that it is marked neither optional nor required.
-/
theorem inspectField_eq_inspectDecl {f : Field} {levels : Nat} {e : TypeExpr}
    (unique : (ctx.program.packages.map (·.path)).Nodup) (package : P ∈ ctx.program.packages)
    (declared : P.decl? d.name = some d) (new : d.isAlias = false)
    (bare : ctx.markers f.doc = []) (mentions : ctx.Mentions scope P d e)
    (type : f.type = e.behind levels)
    (ends : ctx.program.endsWithin maxSteps (ctx.typeRef f.type scope) = true) (file : SourceFile) :
    let info := ctx.inspectField f scope
    let home := FileContext.inspectDecl { ctx with package := P, file } d
    info.constraints =
        { home.constraints with json := f.jsonTag, optional := false, required := false } ∧
      info.errors = home.errors ∧
      info.resolved =
        { home.resolved with
          chain := d.link P :: home.resolved.chain
          pointerDepth := levels + home.resolved.pointerDepth } := by
  intro info home
  have denotes := mentions.denotes unique package declared
  rw [type] at ends
  have ends' : ctx.program.endsWithin maxSteps (ctx.typeRef e scope) = true :=
    Program.endsWithin_of_behind levels ends
  have name := (Program.resolvesByParts ends').defined P d [] denotes new
  rw [TypeRef.bodyOf_nil] at name
  have resolved : info.resolved = { home.resolved with
      chain := d.link P :: home.resolved.chain
      pointerDepth := levels + home.resolved.pointerDepth } := by
    calc info.resolved
        = ctx.program.resolve (ctx.typeRef (e.behind levels) scope) := by rw [← type]; rfl
      _ = { ctx.program.resolve (ctx.typeRef e scope) with
            pointerDepth := levels +
              (ctx.program.resolve (ctx.typeRef e scope)).pointerDepth } :=
          Program.resolve_behind levels ends
      _ = { home.resolved with
            chain := d.link P :: home.resolved.chain
            pointerDepth := levels + home.resolved.pointerDepth } := by rw [name]; rfl
  have decls : info.resolved.decls = d :: home.resolved.decls := by rw [resolved]; rfl
  have extraction := Extractor.ofField_eq_ofDecl (x := ctx.extractor) bare decls
    (by rw [resolved]) (by rw [resolved]) (by rw [resolved])
  refine ⟨?_, ?_, resolved⟩
  · exact congrArg Extraction.constraints extraction
  · show (ctx.extractor.ofField f info.resolved).errors = _
    rw [extraction]
    rfl

end FileContext

namespace Inheritance

def ratio : TypeDecl where
  name := "Ratio"
  pos := { line := 3, column := 6 }
  doc := ["// +kubebuilder:validation:Minimum=1"]
  isAlias := false
  params := []
  type := .ident "int32" none []

/-- Gears, with a bound that cannot be read. -/
def gears : TypeDecl where
  name := "Gears"
  pos := { line := 7, column := 6 }
  doc := ["// +kubebuilder:validation:MinItems=2", "// +kubebuilder:validation:MaxItems=many"]
  isAlias := false
  params := []
  type := .slice (.ident "Ratio" none [])

def partsFile : SourceFile := ⟨"parts/gears.go", [ratio, gears]⟩
def partsPackage : Package := ⟨"example.com/parts", "parts", [partsFile]⟩

def gearsField : Field where
  name := some "Gears"
  pos := { line := 4, column := 2 }
  doc := ["// Gears from the lowest to the highest."]
  type := .pointer (.pointer (.ident "Gears" (some "example.com/parts") []))
  tag := some "json:\"gears\""

def engine : TypeDecl where
  name := "Engine"
  pos := { line := 3, column := 6 }
  doc := []
  isAlias := false
  params := []
  type := .struct [gearsField]

def engineFile : SourceFile := ⟨"api/engine.go", [engine]⟩
def enginePackage : Package := ⟨"example.com/api", "api", [engineFile]⟩

def engineContext : FileContext where
  program := ⟨[enginePackage, partsPackage]⟩
  package := enginePackage
  file := engineFile
  registry := .standard

def partsContext : FileContext :=
  { engineContext with package := partsPackage, file := partsFile }

theorem inspectField_gears :
    ((engineContext.program.packages.map (·.path)).Nodup ∧
      partsPackage ∈ engineContext.program.packages ∧
      partsPackage.decl? gears.name = some gears ∧ gears.isAlias = false ∧
      engineContext.markers gearsField.doc = [] ∧
      engineContext.Mentions engine partsPackage gears
        (.ident "Gears" (some "example.com/parts") []) ∧
      engineContext.program.endsWithin maxSteps
        (engineContext.typeRef gearsField.type engine) = true) ∧
    (engineContext.inspectField gearsField engine).errors =
      (partsContext.inspectDecl gears).errors ∧
    (engineContext.inspectField gearsField engine).resolved =
      { (partsContext.inspectDecl gears).resolved with
        chain := gears.link partsPackage :: (partsContext.inspectDecl gears).resolved.chain
        pointerDepth := 2 + (partsContext.inspectDecl gears).resolved.pointerDepth } := by
  have unique : (engineContext.program.packages.map (·.path)).Nodup := by decide
  have package : partsPackage ∈ engineContext.program.packages :=
    List.mem_cons_of_mem _ List.mem_cons_self
  have bare : engineContext.markers gearsField.doc = [] := by decide +kernel
  have mentions : engineContext.Mentions engine partsPackage gears
    (.ident "Gears" (some "example.com/parts") []) := .imported
  have ends : engineContext.program.endsWithin maxSteps
      (engineContext.typeRef gearsField.type engine) = true := by decide +kernel
  have type : gearsField.type =
    TypeExpr.behind (.ident "Gears" (some "example.com/parts") []) 2 := rfl
  obtain ⟨-, errors, resolved⟩ := FileContext.inspectField_eq_inspectDecl unique package rfl rfl
    bare mentions type ends partsFile
  exact ⟨⟨unique, package, rfl, rfl, bare, mentions, ends⟩, errors, resolved⟩

end Inheritance
end ApiConventions
