import Mathlib.Data.List.Forall2
import ApiConventions.Model.Traversal

/-!
# ApiConventions.Proofs.Model.TypeExpr

Type expressions as trees: an induction principle that reaches into arguments, members and terms,
the type names that occur in an expression, and `Edit`, the expressions that differ only where
they are allowed to.
-/

namespace ApiConventions

/-- Induction over a type expression and everything inside it. -/
@[induction_eliminator]
theorem TypeExpr.induction {motive : TypeExpr → Prop}
    (ident : ∀ name path args, (∀ a ∈ args, motive a) → motive (.ident name path args))
    (pointer : ∀ e, motive e → motive (.pointer e))
    (slice : ∀ e, motive e → motive (.slice e))
    (array : ∀ n e, motive e → motive (.array n e))
    (map : ∀ k v, motive k → motive v → motive (.map k v))
    (struct : ∀ fs, (∀ f ∈ fs, motive f.type) → motive (.struct fs))
    (interface : ∀ ts, (∀ t ∈ ts, motive t) → motive (.interface ts))
    (func : motive .func)
    (chan : ∀ e, motive e → motive (.chan e)) : ∀ e, motive e :=
  @TypeExpr.rec motive (fun f => motive f.type) (fun ts => ∀ t ∈ ts, motive t)
    (fun fs => ∀ f ∈ fs, motive f.type) ident pointer slice array map struct interface func chan
    (fun _ _ _ _ _ h => h) (fun _ h => nomatch h)
    (fun _ _ h hs => List.forall_mem_cons.2 ⟨h, hs⟩) (fun _ h => nomatch h)
    (fun _ _ h hs => List.forall_mem_cons.2 ⟨h, hs⟩)

/-! ## Type names -/

/-- A type name as it is written. -/
structure TypeName where
  name : String
  path : Option String
  /-- Whether it has arguments. -/
  isApplied : Bool
deriving DecidableEq, Repr

mutual
/-- The type names in an expression, those inside arguments, members and terms included. -/
def TypeExpr.typeNames : TypeExpr → List TypeName
  | .ident name path args => ⟨name, path, !args.isEmpty⟩ :: typeNamesOf args
  | .pointer elem => elem.typeNames
  | .slice elem => elem.typeNames
  | .array _ elem => elem.typeNames
  | .map key value => key.typeNames ++ value.typeNames
  | .struct members => typeNamesOfMembers members
  | .interface terms => typeNamesOf terms
  | .func => []
  | .chan elem => elem.typeNames

def typeNamesOf : List TypeExpr → List TypeName
  | [] => []
  | type :: rest => type.typeNames ++ typeNamesOf rest

def typeNamesOfMembers : List Field → List TypeName
  | [] => []
  | ⟨_, _, _, type, _⟩ :: rest => type.typeNames ++ typeNamesOfMembers rest
end

theorem typeNamesOf_eq (ts : List TypeExpr) : typeNamesOf ts = ts.flatMap (·.typeNames) := by
  induction ts with
  | nil => rfl
  | cons t ts ih => rw [typeNamesOf, ih, List.flatMap_cons]

theorem typeNamesOfMembers_eq (fs : List Field) :
    typeNamesOfMembers fs = fs.flatMap (·.type.typeNames) := by
  induction fs with
  | nil => rfl
  | cons f fs ih =>
    cases f
    rw [typeNamesOfMembers, ih, List.flatMap_cons]

theorem typeNames_subset_typeNamesOf {t : TypeExpr} {ts : List TypeExpr} (h : t ∈ ts) :
    t.typeNames ⊆ typeNamesOf ts := by
  rw [typeNamesOf_eq]
  exact fun n hn => List.mem_flatMap.2 ⟨t, h, hn⟩

theorem typeNames_subset_of_member {f : Field} {fs : List Field} (h : f ∈ fs) :
    f.type.typeNames ⊆ (TypeExpr.struct fs).typeNames := by
  rw [TypeExpr.typeNames, typeNamesOfMembers_eq]
  exact fun n hn => List.mem_flatMap.2 ⟨f, h, hn⟩

namespace TypeExpr

/-- The names that a bound parameter may stand behind. -/
def plainNames (e : TypeExpr) : List String :=
  (e.typeNames.filter fun n => n.path.isNone && !n.isApplied).map (·.name)

theorem mem_plainNames {e : TypeExpr} {n : TypeName} (h : n ∈ e.typeNames) (hp : n.path = none)
    (ha : n.isApplied = false) : n.name ∈ e.plainNames :=
  List.mem_map.2 ⟨n, List.mem_filter.2 ⟨h, by simp [hp, ha]⟩, rfl⟩

end TypeExpr

def TypeDecl.typeNames (d : TypeDecl) : List TypeName :=
  d.params.flatMap (·.constraint.typeNames) ++ d.type.typeNames

theorem fieldsOfMembers_eq (fs : List Field) :
    fieldsOfMembers fs = fs.flatMap fun f => f :: f.type.fields := by
  induction fs with
  | nil => rfl
  | cons f fs ih =>
    cases f
    rw [fieldsOfMembers, ih, List.flatMap_cons, List.cons_append]

/-- The type names of a field are type names of every expression in which the field occurs. -/
theorem TypeExpr.typeNames_of_mem_fields {e : TypeExpr} {f : Field} (hf : f ∈ e.fields) :
    f.type.typeNames ⊆ e.typeNames := by
  induction e with
  | ident name path args _ => simp [TypeExpr.fields] at hf
  | interface ts _ => simp [TypeExpr.fields] at hf
  | func => simp [TypeExpr.fields] at hf
  | pointer e ih => exact ih hf
  | slice e ih => exact ih hf
  | array n e ih => exact ih hf
  | chan e ih => exact ih hf
  | map k v ihk ihv =>
    rw [TypeExpr.fields, List.mem_append] at hf
    rw [TypeExpr.typeNames]
    rcases hf with hf | hf
    · exact List.subset_append_of_subset_left _ (ihk hf)
    · exact List.subset_append_of_subset_right _ (ihv hf)
  | struct fs ih =>
    rw [TypeExpr.fields, fieldsOfMembers_eq, List.mem_flatMap] at hf
    rw [TypeExpr.typeNames, typeNamesOfMembers_eq]
    obtain ⟨g, hg, hf⟩ := hf
    intro n hn
    refine List.mem_flatMap.2 ⟨g, hg, ?_⟩
    rcases List.mem_cons.1 hf with rfl | hf
    · exact hn
    · exact ih g hg hf hn

theorem TypeDecl.typeNames_of_mem_fields {d : TypeDecl} {f : Field} (hf : f ∈ d.type.fields) :
    f.type.typeNames ⊆ d.typeNames :=
  List.subset_append_of_subset_right _ (TypeExpr.typeNames_of_mem_fields hf)

/-! ## Edits -/

def Field.withType (f : Field) (type : TypeExpr) : Field :=
  { f with type }

/-- Two members that differ at most in their types, and not in the name that messages use. -/
structure Field.SameHead (f f' : Field) : Prop where
  name : f.name = f'.name
  pos : f.pos = f'.pos
  doc : f.doc = f'.doc
  tag : f.tag = f'.tag
  displayName : f.displayName = f'.displayName

theorem Field.SameHead.refl (f : Field) : f.SameHead f := ⟨rfl, rfl, rfl, rfl, rfl⟩

/-- Two declarations that differ at most in their right-hand sides. -/
structure TypeDecl.SameHead (d d' : TypeDecl) : Prop where
  name : d.name = d'.name
  pos : d.pos = d'.pos
  doc : d.doc = d'.doc
  isAlias : d.isAlias = d'.isAlias
  params : d.params = d'.params

theorem TypeDecl.SameHead.refl (d : TypeDecl) : d.SameHead d := ⟨rfl, rfl, rfl, rfl, rfl⟩

namespace TypeExpr

/--
Expressions that differ only in subexpressions related by `base` and in the types of members that
are `free`.
-/
inductive Edit (base : TypeExpr → TypeExpr → Prop) (free : Field → Prop) :
    TypeExpr → TypeExpr → Prop where
  | base {e e' : TypeExpr} (h : base e e') : Edit base free e e'
  | ident {name : String} {path : Option String} {as as' : List TypeExpr}
      (count : as.length = as'.length) (each : ∀ q ∈ as.zip as', Edit base free q.1 q.2) :
      Edit base free (.ident name path as) (.ident name path as')
  | pointer {e e' : TypeExpr} (h : Edit base free e e') : Edit base free (.pointer e) (.pointer e')
  | slice {e e' : TypeExpr} (h : Edit base free e e') : Edit base free (.slice e) (.slice e')
  | array {n : UInt64} {e e' : TypeExpr} (h : Edit base free e e') :
      Edit base free (.array n e) (.array n e')
  | chan {e e' : TypeExpr} (h : Edit base free e e') : Edit base free (.chan e) (.chan e')
  | map {k k' v v' : TypeExpr} (hk : Edit base free k k') (hv : Edit base free v v') :
      Edit base free (.map k v) (.map k' v')
  | struct {fs fs' : List Field} (heads : List.Forall₂ Field.SameHead fs fs')
      (types : ∀ q ∈ fs.zip fs', ¬ free q.1 → Edit base free q.1.type q.2.type) :
      Edit base free (.struct fs) (.struct fs')
  | interface {ts ts' : List TypeExpr} (count : ts.length = ts'.length)
      (each : ∀ q ∈ ts.zip ts', Edit base free q.1 q.2) :
      Edit base free (.interface ts) (.interface ts')
  | func : Edit base free .func .func

variable {base : TypeExpr → TypeExpr → Prop} {free : Field → Prop}

theorem mem_zip_self {α : Type} {l : List α} {q : α × α} (h : q ∈ l.zip l) :
    q.1 = q.2 ∧ q.1 ∈ l := by
  induction l with
  | nil => simp at h
  | cons a l ih =>
    rw [List.zip_cons_cons, List.mem_cons] at h
    rcases h with rfl | h
    · exact ⟨rfl, List.mem_cons_self⟩
    · exact ⟨(ih h).1, List.mem_cons_of_mem _ (ih h).2⟩

theorem Edit.refl (e : TypeExpr) : Edit base free e e := by
  induction e with
  | ident name path args ih =>
    refine .ident rfl fun q hq => ?_
    rw [← (mem_zip_self hq).1]
    exact ih _ (mem_zip_self hq).2
  | pointer e ih => exact .pointer ih
  | slice e ih => exact .slice ih
  | array n e ih => exact .array ih
  | chan e ih => exact .chan ih
  | map k v ihk ihv => exact .map ihk ihv
  | struct fs ih =>
    refine .struct (List.forall₂_same.2 fun f _ => .refl f) fun q hq _ => ?_
    rw [← (mem_zip_self hq).1]
    exact ih _ (mem_zip_self hq).2
  | interface ts ih =>
    refine .interface rfl fun q hq => ?_
    rw [← (mem_zip_self hq).1]
    exact ih _ (mem_zip_self hq).2
  | func => exact .func

/-- When only expressions without fields are exchanged, the fields are edited one by one. -/
theorem Edit.fields {e e' : TypeExpr} (h : Edit base free e e') (hfree : ∀ f, ¬ free f)
    (hbase : ∀ e e', base e e' → e.fields = [] ∧ e'.fields = []) :
    List.Forall₂ (fun f f' => f.SameHead f' ∧ Edit base free f.type f'.type) e.fields
      e'.fields := by
  induction h with
  | base h =>
    rw [(hbase _ _ h).1, (hbase _ _ h).2]
    exact .nil
  | ident => exact .nil
  | pointer _ ih => exact ih
  | slice _ ih => exact ih
  | array _ ih => exact ih
  | chan _ ih => exact ih
  | map _ _ ihk ihv => exact List.rel_append ihk ihv
  | @struct fs fs' heads types ih =>
    rw [TypeExpr.fields, TypeExpr.fields, fieldsOfMembers_eq, fieldsOfMembers_eq]
    have each : List.Forall₂ (fun f f' => (f.SameHead f' ∧ Edit base free f.type f'.type) ∧
        List.Forall₂ (fun f f' => f.SameHead f' ∧ Edit base free f.type f'.type) f.type.fields
          f'.type.fields) fs fs' := by
      refine List.forall₂_iff_zip.2 ⟨heads.length_eq, fun {f f'} hq => ?_⟩
      have hf := hfree f
      exact ⟨⟨List.forall₂_zip heads hq, types (f, f') hq hf⟩, ih (f, f') hq hf⟩
    exact List.rel_flatMap each fun f f' hff => .cons hff.1 hff.2
  | interface => exact .nil
  | func => exact .nil

end TypeExpr
end ApiConventions
