import ApiConventions.Proofs.Rule.Leaves
import ApiConventions.Proofs.Rule.Subjects

/-!
# ApiConventions.Proofs.Rule.Usage

Reports about the types that are used. Some checks complain about type names; they report every
leaf of the type of a declaration or a named field that they complain about, once and with its
place in the type.
-/

namespace ApiConventions

/-- The complaint of the checks on type names. -/
def Check.complaint? : Check → Option (Referent → Option String)
  | .noDurations => some TypeUsage.durationComplaint?
  | .noFloats => some TypeUsage.floatComplaint?
  | .noBools => some TypeUsage.boolComplaint?
  | .integers => some TypeUsage.integerComplaint?
  | _ => none

namespace TypeUsage

/-- What is said of a subject with a leaf in this place of its type. -/
def remark (subject : Subject) (pos : Position) (layer : LayerPath) (complaint : String) :
    Diagnostic where
  pos := pos
  message := String.intercalate " " (subject.text :: (layer ++ [complaint]))
  fact := if layer = [] then none else some (String.intercalate " " layer)

/-- The remarks on those of the leaves that there is a complaint about. -/
def remarks (complaint? : Referent → Option String) (subject : Subject) (pos : Position)
    (leaves : List (Referent × LayerPath)) : List Diagnostic :=
  leaves.filterMap fun leaf => (complaint? leaf.1).map (remark subject pos leaf.2)

theorem diagnose?_eq (complaint? : Referent → Option String) (subject : Subject) (pos : Position)
    (leaf : Referent × LayerPath) : diagnose? complaint? subject pos leaf =
      (complaint? leaf.1).map (remark subject pos leaf.2) := by
  rw [diagnose?]
  congr 1
  funext complaint
  rw [remark, LayerPath.name?]
  cases layer : leaf.2 with
  | nil => simp [String.intercalate_cons_cons]
  | cons part parts =>
    have joined : String.intercalate " " (subject.text :: (part :: parts ++ [complaint])) =
        subject.text ++ " " ++ (String.intercalate " " (part :: parts) ++ " ") ++ complaint := by
      rw [List.cons_append, String.intercalate_cons_cons, ← List.cons_append,
        String.intercalate_append_of_ne_nil (by simp) (by simp), String.intercalate_singleton]
      simp only [String.append_assoc]
    rw [joined]
    rfl

theorem inType_eq {complaint? : Referent → Option String} {ctx : FileContext} {subject : Subject}
    {pos : Position} {t : TypeRef} : inType complaint? ctx subject pos t =
      remarks complaint? subject pos (ctx.program.uses t) := by
  simp only [inType, remarks, diagnose?_eq]

end TypeUsage

namespace Check

variable {c : Check} {complaint? : Referent → Option String}

theorem onDecl_of_complaint (h : c.complaint? = some complaint?) (ctx : FileContext)
    (d : TypeDecl) : c.onDecl ctx d = TypeUsage.remarks complaint? (.type d.name) d.pos
      (ctx.program.uses (ctx.declType d)) := by
  rw [← TypeUsage.inType_eq]
  cases c <;> cases h <;> rfl

theorem onField_of_complaint (h : c.complaint? = some complaint?) (ctx : FileContext) (f : Field)
    (scope : TypeDecl) : c.onField ctx f scope = if f.name = none then [] else
      TypeUsage.remarks complaint? (.field f.displayName) f.pos
        (ctx.program.uses (ctx.typeRef f.type scope)) := by
  have usage : c.onField ctx f scope = TypeUsage.onField complaint? ctx f scope := by
    cases c <;> cases h <;> rfl
  simp only [usage, TypeUsage.onField, Field.isEmbedded, Option.isNone_iff_eq_none,
    TypeUsage.inType_eq]

end Check

/--
The uses of a type are its leaves from left to right, if it is nested at most 32 levels deep and
every expansion in it takes fewer than 64 steps. A rule about type names reports each leaf of a
declaration or a named field that it complains about, and nothing else.
-/
theorem Rule.leaves_reported {r : Rule} {complaint? : Referent → Option String}
    (complains : r.check.complaint? = some complaint?) (ctx : FileContext) :
    (∀ t, ctx.program.nestsWithin 32 t = true → ∀ leaves,
      ctx.program.Leaves t leaves ↔ leaves = ctx.program.uses t) ∧
    (∀ d, ctx.program.nestsWithin 32 (ctx.declType d) = true →
      ∃ leaves, ctx.program.Leaves (ctx.declType d) leaves ∧
        r.check.onDecl ctx d = TypeUsage.remarks complaint? (.type d.name) d.pos leaves) ∧
    (∀ f scope, f.name ≠ none → ctx.program.nestsWithin 32 (ctx.typeRef f.type scope) = true →
      ∃ leaves, ctx.program.Leaves (ctx.typeRef f.type scope) leaves ∧
        r.check.onField ctx f scope =
          TypeUsage.remarks complaint? (.field f.displayName) f.pos leaves) ∧
    (∀ f scope, f.name = none → r.check.onField ctx f scope = []) ∧
    (r.run ctx).Perm ((ctx.file.decls.flatMap (r.check.onDecl ctx) ++
      ctx.file.fields.flatMap fun q => r.check.onField ctx q.1 q.2).map
        (r.violation ctx.file.path)) := by
  have sequence (t : TypeRef) (nests : ctx.program.nestsWithin 32 t = true) :
      ctx.program.Leaves t (ctx.program.uses t) := Program.leaves_usesWithin nests
  refine ⟨?uses, ?decls, ?fields, ?embedded, ?run⟩
  case uses =>
    intro t nests leaves
    refine ⟨fun h => h.eq_usesWithin nests, ?_⟩
    rintro rfl
    exact sequence t nests
  case decls =>
    intro d nests
    exact ⟨_, sequence _ nests, Check.onDecl_of_complaint complains ctx d⟩
  case fields =>
    intro f scope named nests
    refine ⟨_, sequence _ nests, ?_⟩
    rw [Check.onField_of_complaint complains, if_neg named]
  case embedded =>
    intro f scope embedded
    rw [Check.onField_of_complaint complains, if_pos embedded]
  case run =>
    rw [run, Check.diagnostics_eq]
    exact (Check.arrange_perm _ _ _).map _

namespace Measures

/-- Sizes of another package, which are a list. -/
def sizes : TypeDecl where
  name := "Sizes"
  pos := { line := 3, column := 6 }
  doc := []
  isAlias := true
  params := []
  type := .slice (.ident "int" none [])

def units : Package := ⟨"example.com/units", "units", [⟨"units/sizes.go", [sizes]⟩]⟩

/-- A map to lists of whatever it is applied to. -/
def grouped : TypeDecl where
  name := "Grouped"
  pos := { line := 3, column := 6 }
  doc := []
  isAlias := true
  params := [⟨"T", .ident "any" none []⟩]
  type := .map (.ident "uint8" none []) (.slice (.ident "T" none []))

/-- A new type, which is reported where it is declared. -/
def count : TypeDecl where
  name := "Count"
  pos := { line := 5, column := 6 }
  doc := []
  isAlias := false
  params := []
  type := .ident "int" none []

def measures : Field where
  name := some "Measures"
  pos := { line := 8, column := 2 }
  doc := []
  type := .ident "Grouped" none [.pointer (.ident "Sizes" (some "example.com/units") [])]
  tag := some "json:\"measures\""

def counts : Field where
  name := some "Counts"
  pos := { line := 9, column := 2 }
  doc := []
  type := .map (.ident "Count" none []) (.slice (.ident "byte" none []))
  tag := some "json:\"counts\""

def spec : TypeDecl where
  name := "Spec"
  pos := { line := 7, column := 6 }
  doc := []
  isAlias := false
  params := []
  type := .struct [measures, counts]

def file : SourceFile := { path := "api/spec.go", decls := [grouped, count, spec] }
def package : Package := ⟨"example.com/api", "api", [file]⟩

def ctx : FileContext where
  program := ⟨[units, package]⟩
  package := package
  file := file
  registry := .standard

theorem leaves_reported_measures :
    (Rule.default .integers).check.complaint? = some TypeUsage.integerComplaint? ∧
    ctx.program.nestsWithin 32 (ctx.typeRef measures.type spec) = true ∧
    ctx.program.nestsWithin 32 (ctx.typeRef counts.type spec) = true ∧
    ((Rule.default .integers).check.onField ctx measures spec).map (·.fact) =
      [some "map key", some "map value array element pointer array element"] ∧
    (Rule.default .integers).check.onField ctx counts spec = [] := by
  have complains : (Rule.default .integers).check.complaint? =
    some TypeUsage.integerComplaint? := rfl
  have nested : ctx.program.nestsWithin 32 (ctx.typeRef measures.type spec) = true := by
    decide +kernel
  have nested' : ctx.program.nestsWithin 32 (ctx.typeRef counts.type spec) = true := by
    decide +kernel
  obtain ⟨uses, -, reported, -⟩ := Rule.leaves_reported complains ctx
  obtain ⟨leaves, leaf, onField⟩ := reported measures spec (by decide) nested
  obtain ⟨leaves', leaf', onField'⟩ := reported counts spec (by decide) nested'
  rw [(uses _ nested leaves).1 leaf] at onField
  rw [(uses _ nested' leaves').1 leaf'] at onField'
  rw [onField, onField']
  exact ⟨complains, nested, nested', by decide +kernel, by decide +kernel⟩

end Measures
end ApiConventions
