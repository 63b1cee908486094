import ApiConventions.Inspection
import ApiConventions.Proofs.Correspondence.Lists
import ApiConventions.Proofs.Model.Address

/-!
# ApiConventions.Proofs.Model.Hole

Programs with one place left open. A `TypeHole` is a type expression without one of its
subexpressions, a `MemberHole` one without one of its fields, and a `Site` is a program without
one of its fields. Every place of a field has its site, also inside an argument or a term, where
rules do not look. Filling a hole in two ways gives expressions that are edits of one another. A
`DeclSite` is a program with room for declarations in one of its files.
-/

namespace ApiConventions

/-- A type expression without one subexpression, outside anonymous structs. -/
inductive TypeHole where
  | here
  | pointer (hole : TypeHole)
  | slice (hole : TypeHole)
  | array (length : UInt64) (hole : TypeHole)
  | chan (hole : TypeHole)
  | mapKey (hole : TypeHole) (value : TypeExpr)
  | mapValue (key : TypeExpr) (hole : TypeHole)
  | arg (name : String) (path : Option String) (before : List TypeExpr) (hole : TypeHole)
    (after : List TypeExpr)

/-- A type expression without one of its fields. -/
inductive MemberHole where
  | here (before after : List Field)
  /-- The hole is in the type of a member; the type that `owner` itself has does not count. -/
  | within (before : List Field) (owner : Field) (hole : MemberHole) (after : List Field)
  | pointer (hole : MemberHole)
  | slice (hole : MemberHole)
  | array (length : UInt64) (hole : MemberHole)
  | chan (hole : MemberHole)
  | mapKey (hole : MemberHole) (value : TypeExpr)
  | mapValue (key : TypeExpr) (hole : MemberHole)
  | arg (name : String) (path : Option String) (before : List TypeExpr) (hole : MemberHole)
    (after : List TypeExpr)
  | term (before : List TypeExpr) (hole : MemberHole) (after : List TypeExpr)

variable {base : TypeExpr → TypeExpr → Prop} {free : Field → Prop}

namespace TypeHole

def plug : TypeHole → TypeExpr → TypeExpr
  | .here, e => e
  | .pointer hole, e => .pointer (hole.plug e)
  | .slice hole, e => .slice (hole.plug e)
  | .array n hole, e => .array n (hole.plug e)
  | .chan hole, e => .chan (hole.plug e)
  | .mapKey hole value, e => .map (hole.plug e) value
  | .mapValue key hole, e => .map key (hole.plug e)
  | .arg name path before hole after, e => .ident name path (before ++ hole.plug e :: after)

end TypeHole

theorem TypeHole.typeNames_subset (hole : TypeHole) (e : TypeExpr) :
    e.typeNames ⊆ (hole.plug e).typeNames := by
  induction hole with
  | here => exact List.Subset.refl _
  | pointer hole ih => exact ih
  | slice hole ih => exact ih
  | array n hole ih => exact ih
  | chan hole ih => exact ih
  | mapKey hole value ih => exact List.subset_append_of_subset_left _ ih
  | mapValue key hole ih => exact List.subset_append_of_subset_right _ ih
  | arg name path before hole after ih =>
    have hmem : hole.plug e ∈ before ++ hole.plug e :: after := by simp
    have hargs := typeNames_subset_typeNamesOf hmem
    exact List.subset_cons_of_subset _ (List.Subset.trans ih hargs)

theorem mem_zip_append_cons {α : Type} {us vs : List α} {a b : α} {q : α × α}
    (h : q ∈ (us ++ a :: vs).zip (us ++ b :: vs)) : q.1 = q.2 ∨ q = (a, b) := by
  rw [List.zip_append rfl, List.zip_cons_cons, List.mem_append, List.mem_cons] at h
  rcases h with h | h | h
  · exact .inl (TypeExpr.mem_zip_self h).1
  · exact .inr h
  · exact .inl (TypeExpr.mem_zip_self h).1

theorem exists_append_of_getElem? {α : Type} {l : List α} {i : Nat} {a : α} (h : l[i]? = some a) :
    ∃ before after, l = before ++ a :: after ∧ before.length = i := by
  obtain ⟨hi, rfl⟩ := List.getElem?_eq_some_iff.1 h
  refine ⟨l.take i, l.drop (i + 1), ?_, List.length_take_of_le (Nat.le_of_lt hi)⟩
  rw [List.getElem_cons_drop hi, List.take_append_drop]

/-- In lists of which one element is edited, every element is. -/
theorem edit_of_mem_zip {before after : List TypeExpr} {e e' : TypeExpr}
    (h : TypeExpr.Edit base free e e') {q : TypeExpr × TypeExpr}
    (hq : q ∈ (before ++ e :: after).zip (before ++ e' :: after)) :
    TypeExpr.Edit base free q.1 q.2 := by
  rcases mem_zip_append_cons hq with same | rfl
  · rw [same]
    exact .refl _
  · exact h

theorem TypeHole.edit (hole : TypeHole) {e e' : TypeExpr} (h : base e e') :
    TypeExpr.Edit base free (hole.plug e) (hole.plug e') := by
  induction hole with
  | here => exact .base h
  | pointer hole ih => exact .pointer ih
  | slice hole ih => exact .slice ih
  | array n hole ih => exact .array ih
  | chan hole ih => exact .chan ih
  | mapKey hole value ih => exact .map ih (.refl _)
  | mapValue key hole ih => exact .map (.refl _) ih
  | arg name path before hole after ih => exact .ident (by simp) fun q hq => edit_of_mem_zip ih hq

namespace MemberHole

def plug : MemberHole → Field → TypeExpr
  | .here before after, f => .struct (before ++ f :: after)
  | .within before owner hole after, f =>
    .struct (before ++ { owner with type := hole.plug f } :: after)
  | .pointer hole, f => .pointer (hole.plug f)
  | .slice hole, f => .slice (hole.plug f)
  | .array n hole, f => .array n (hole.plug f)
  | .chan hole, f => .chan (hole.plug f)
  | .mapKey hole value, f => .map (hole.plug f) value
  | .mapValue key hole, f => .map key (hole.plug f)
  | .arg name path before hole after, f => .ident name path (before ++ hole.plug f :: after)
  | .term before hole after, f => .interface (before ++ hole.plug f :: after)

def address : MemberHole → Address
  | .here before _ => [.member before.length]
  | .within before _ hole _ => .member before.length :: hole.address
  | .pointer hole => .elem :: hole.address
  | .slice hole => .elem :: hole.address
  | .array _ hole => .elem :: hole.address
  | .chan hole => .elem :: hole.address
  | .mapKey hole _ => .key :: hole.address
  | .mapValue _ hole => .value :: hole.address
  | .arg _ _ before hole _ => .arg before.length :: hole.address
  | .term before hole _ => .term before.length :: hole.address

/-- Rules look at the fields that stand in no argument and in no term. -/
def isEntered (hole : MemberHole) : Bool :=
  hole.address.all (·.isEntered)

theorem fieldAt_plug (hole : MemberHole) (f : Field) : (hole.plug f).FieldAt hole.address f := by
  induction hole with
  | here before after => exact .here (by simp)
  | within before owner hole after ih => exact .inside (by simp [plug, TypeExpr.part?]) ih
  | arg name path before hole after ih => exact .inside (by simp [plug, TypeExpr.part?]) ih
  | term before hole after ih => exact .inside (by simp [plug, TypeExpr.part?]) ih
  | _ => exact .inside rfl (by assumption)

/-- Every field of a type expression stands in a hole. -/
theorem exists_plug_eq {e : TypeExpr} {a : Address} {f : Field} (h : e.FieldAt a f) :
    ∃ hole : MemberHole, hole.address = a ∧ hole.plug f = e := by
  induction h with
  | here member =>
    obtain ⟨before, after, rfl, rfl⟩ := exists_append_of_getElem? member
    exact ⟨.here before after, rfl, rfl⟩
  | inside leads _ ih =>
    obtain ⟨hole, rfl, rfl⟩ := ih
    rw [TypeExpr.part?.eq_def] at leads
    split at leads
    case h_1 => cases leads; exact ⟨.pointer hole, rfl, rfl⟩
    case h_2 => cases leads; exact ⟨.slice hole, rfl, rfl⟩
    case h_3 n e => cases leads; exact ⟨.array n hole, rfl, rfl⟩
    case h_4 => cases leads; exact ⟨.chan hole, rfl, rfl⟩
    case h_5 k v => cases leads; exact ⟨.mapKey hole v, rfl, rfl⟩
    case h_6 k v => cases leads; exact ⟨.mapValue k hole, rfl, rfl⟩
    case h_7 fs i =>
      obtain ⟨owner, member, type⟩ := Option.map_eq_some_iff.1 leads
      obtain ⟨before, after, rfl, rfl⟩ := exists_append_of_getElem? member
      refine ⟨.within before owner hole after, rfl, ?_⟩
      rw [plug, ← type]
      cases owner
      rfl
    case h_8 name path args i =>
      obtain ⟨before, after, rfl, rfl⟩ := exists_append_of_getElem? leads
      exact ⟨.arg name path before hole after, rfl, rfl⟩
    case h_9 terms i =>
      obtain ⟨before, after, rfl, rfl⟩ := exists_append_of_getElem? leads
      exact ⟨.term before hole after, rfl, rfl⟩
    case h_10 => cases leads

theorem typeNames_subset (hole : MemberHole) (f : Field) :
    f.type.typeNames ⊆ (hole.plug f).typeNames := by
  induction hole with
  | here before after => exact typeNames_subset_of_member (by simp)
  | within before owner hole after ih =>
    have member : { owner with type := hole.plug f } ∈
        before ++ { owner with type := hole.plug f } :: after := by simp
    exact List.Subset.trans ih (typeNames_subset_of_member member)
  | pointer hole ih => exact ih
  | slice hole ih => exact ih
  | array n hole ih => exact ih
  | chan hole ih => exact ih
  | mapKey hole value ih => exact List.subset_append_of_subset_left _ ih
  | mapValue key hole ih => exact List.subset_append_of_subset_right _ ih
  | arg name path before hole after ih =>
    have mem : hole.plug f ∈ before ++ hole.plug f :: after := by simp
    have args := List.Subset.trans ih (typeNames_subset_typeNamesOf mem)
    exact List.subset_cons_of_subset _ args
  | term before hole after ih =>
    have mem : hole.plug f ∈ before ++ hole.plug f :: after := by simp
    exact List.Subset.trans ih (typeNames_subset_typeNamesOf mem)

theorem pointee_plug (hole : MemberHole) (f f' : Field) :
    (hole.plug f).pointee.name? = (hole.plug f').pointee.name? := by
  induction hole with
  | pointer hole ih => exact ih
  | _ => rfl

theorem sameHead_owner (hole : MemberHole) (owner f f' : Field) :
    Field.SameHead { owner with type := hole.plug f } { owner with type := hole.plug f' } := by
  refine ⟨rfl, rfl, rfl, rfl, ?_⟩
  simp only [Field.displayName, hole.pointee_plug f f']

theorem structEdit {before after : List Field} {f f' : Field} (head : f.SameHead f')
    (ht : ¬ free f → TypeExpr.Edit base free f.type f'.type) :
    TypeExpr.Edit base free (.struct (before ++ f :: after)) (.struct (before ++ f' :: after)) := by
  have refl (fs : List Field) : List.Forall₂ Field.SameHead fs fs :=
    List.forall₂_same.2 fun g _ => .refl g
  refine .struct (List.rel_append (refl before) (.cons head (refl after))) fun q hq hf => ?_
  rcases mem_zip_append_cons hq with hq | rfl
  · rw [hq]
    exact .refl _
  · exact ht hf

section Structs

variable {f f' : Field}
  (structs : ∀ us vs, TypeExpr.Edit base free (.struct (us ++ f :: vs)) (.struct (us ++ f' :: vs)))

include structs

/-- Filling a hole is an edit if it is one of the struct around the hole. -/
theorem edit_of_structs (hole : MemberHole) :
    TypeExpr.Edit base free (hole.plug f) (hole.plug f') := by
  induction hole with
  | here before after => exact structs before after
  | within before owner hole after ih =>
    exact structEdit (hole.sameHead_owner owner f f') fun _ => ih
  | pointer hole ih => exact .pointer ih
  | slice hole ih => exact .slice ih
  | array n hole ih => exact .array ih
  | chan hole ih => exact .chan ih
  | mapKey hole value ih => exact .map ih (.refl _)
  | mapValue key hole ih => exact .map (.refl _) ih
  | arg name path before hole after ih => exact .ident (by simp) fun q hq => edit_of_mem_zip ih hq
  | term before hole after ih => exact .interface (by simp) fun q hq => edit_of_mem_zip ih hq

/-- The fields before a hole may have the hole in their types; those after it do not. -/
theorem exists_fields_plug (hole : MemberHole) (entered : hole.isEntered = true)
    (type : f'.type = f.type) :
    ∃ us us' vs, (hole.plug f).fields = us ++ f :: vs ∧ (hole.plug f').fields = us' ++ f' :: vs ∧
      List.Forall₂ (fun g g' => g.SameHead g' ∧ TypeExpr.Edit base free g.type g'.type) us us' := by
  have refl (gs : List Field) :
      List.Forall₂ (fun g g' => g.SameHead g' ∧ TypeExpr.Edit base free g.type g'.type) gs gs :=
    List.forall₂_same.2 fun g _ => ⟨.refl g, .refl g.type⟩
  induction hole with
  | here before after =>
    refine ⟨fieldsOfMembers before, fieldsOfMembers before, f.type.fields ++ fieldsOfMembers after,
      ?_, ?_, refl _⟩
    · simp [plug, TypeExpr.fields, fieldsOfMembers_eq]
    · simp [plug, TypeExpr.fields, fieldsOfMembers_eq, type]
  | within before owner hole after ih =>
    obtain ⟨us, us', vs, h, h', each⟩ := ih entered
    refine ⟨fieldsOfMembers before ++ { owner with type := hole.plug f } :: us,
      fieldsOfMembers before ++ { owner with type := hole.plug f' } :: us',
      vs ++ fieldsOfMembers after, ?_, ?_, List.rel_append (refl _) (.cons ⟨?_, ?_⟩ each)⟩
    · simp [plug, TypeExpr.fields, fieldsOfMembers_eq, h]
    · simp [plug, TypeExpr.fields, fieldsOfMembers_eq, h']
    · exact hole.sameHead_owner owner f f'
    · exact hole.edit_of_structs structs
  | pointer hole ih => exact ih entered
  | slice hole ih => exact ih entered
  | array n hole ih => exact ih entered
  | chan hole ih => exact ih entered
  | mapKey hole value ih =>
    obtain ⟨us, us', vs, h, h', each⟩ := ih entered
    refine ⟨us, us', vs ++ value.fields, ?_, ?_, each⟩
    · simp [plug, TypeExpr.fields, h]
    · simp [plug, TypeExpr.fields, h']
  | mapValue key hole ih =>
    obtain ⟨us, us', vs, h, h', each⟩ := ih entered
    refine ⟨key.fields ++ us, key.fields ++ us', vs, ?_, ?_, List.rel_append (refl _) each⟩
    · simp [plug, TypeExpr.fields, h]
    · simp [plug, TypeExpr.fields, h']
  | arg name path before hole after ih => cases entered
  | term before hole after ih => cases entered

end Structs

theorem edit (hole : MemberHole) {f f' : Field} (head : f.SameHead f')
    (ht : ¬ free f → TypeExpr.Edit base free f.type f'.type) :
    TypeExpr.Edit base free (hole.plug f) (hole.plug f') :=
  hole.edit_of_structs fun _ _ => structEdit head ht

end MemberHole

/-! ## Sites -/

/-- A program without one field. -/
structure Site where
  packagesBefore : List Package
  packagesAfter : List Package
  path : String
  name : String
  filesBefore : List SourceFile
  filesAfter : List SourceFile
  filePath : String
  declsBefore : List TypeDecl
  declsAfter : List TypeDecl
  /-- The declaration around the field, up to its type. -/
  owner : TypeDecl
  hole : MemberHole

namespace Site

variable (s : Site)

def decl (f : Field) : TypeDecl :=
  { s.owner with type := s.hole.plug f }

def file (f : Field) : SourceFile :=
  { path := s.filePath, decls := s.declsBefore ++ s.decl f :: s.declsAfter }

def package (f : Field) : Package :=
  { path := s.path, name := s.name, files := s.filesBefore ++ s.file f :: s.filesAfter }

def program (f : Field) : Program :=
  ⟨s.packagesBefore ++ s.package f :: s.packagesAfter⟩

def context (registry : Registry) (f : Field) : FileContext :=
  { program := s.program f, package := s.package f, file := s.file f, registry }

def place : FieldPlace :=
  ⟨s.declsBefore.length, s.hole.address⟩

theorem fieldAt (f : Field) : (s.file f).FieldAt s.place f (s.decl f) :=
  ⟨by simp [file, place], s.hole.fieldAt_plug f⟩

theorem typeNames_subset (f : Field) : f.type.typeNames ⊆ (s.decl f).typeNames :=
  List.subset_append_of_subset_right _ (s.hole.typeNames_subset f)

theorem decls_eq (f : Field) : (s.package f).decls =
    (s.filesBefore.flatMap (·.decls) ++ s.declsBefore) ++ s.decl f ::
      (s.declsAfter ++ s.filesAfter.flatMap (·.decls)) := by
  simp [Package.decls, package, file]

theorem forall₂_decls {R : TypeDecl → TypeDecl → Prop} {f f' : Field}
    (refl : ∀ d ∈ (s.package f).decls, R d d) (h : R (s.decl f) (s.decl f')) :
    List.Forall₂ R (s.package f).decls (s.package f').decls := by
  rw [decls_eq] at refl
  rw [decls_eq, decls_eq]
  exact forall₂_append_cons refl h

end Site

/-- Every field that stands in a file of a program stands at a site. -/
theorem exists_site {p : Program} {P : Package} {F : SourceFile} {place : FieldPlace} {f : Field}
    {d : TypeDecl} (hP : P ∈ p.packages) (hF : F ∈ P.files) (hf : F.FieldAt place f d) :
    ∃ s : Site, s.program f = p ∧ s.package f = P ∧ s.file f = F ∧ s.decl f = d ∧
      s.place = place := by
  obtain ⟨hd, hf⟩ := hf
  obtain ⟨packagesBefore, packagesAfter, hp⟩ := List.append_of_mem hP
  obtain ⟨filesBefore, filesAfter, hfiles⟩ := List.append_of_mem hF
  obtain ⟨declsBefore, declsAfter, hdecls, index⟩ := exists_append_of_getElem? hd
  obtain ⟨hole, address, htype⟩ := MemberHole.exists_plug_eq hf
  let s : Site :=
    { packagesBefore, packagesAfter, path := P.path, name := P.name, filesBefore, filesAfter,
      filePath := F.path, declsBefore, declsAfter, owner := d, hole }
  have decl : s.decl f = d := by
    rw [Site.decl, htype]
  have file : s.file f = F := by
    rw [Site.file, decl, ← hdecls]
  have package : s.package f = P := by
    rw [Site.package, file, ← hfiles]
  have program : s.program f = p := by
    rw [Site.program, package, ← hp]
  exact ⟨s, program, package, file, decl, by rw [Site.place, index, address]⟩

/-- A program with room for declarations between two declarations of a file. -/
structure DeclSite where
  packagesBefore : List Package
  packagesAfter : List Package
  path : String
  name : String
  filesBefore : List SourceFile
  filesAfter : List SourceFile
  filePath : String
  declsBefore : List TypeDecl
  declsAfter : List TypeDecl

namespace DeclSite

variable (s : DeclSite)

def file (ds : List TypeDecl) : SourceFile :=
  { path := s.filePath, decls := s.declsBefore ++ ds ++ s.declsAfter }

def package (ds : List TypeDecl) : Package :=
  { path := s.path, name := s.name, files := s.filesBefore ++ s.file ds :: s.filesAfter }

def program (ds : List TypeDecl) : Program :=
  ⟨s.packagesBefore ++ s.package ds :: s.packagesAfter⟩

def context (registry : Registry) (ds : List TypeDecl) : FileContext :=
  { program := s.program ds, package := s.package ds, file := s.file ds, registry }

theorem decls_eq (ds : List TypeDecl) : (s.package ds).decls =
    (s.filesBefore.flatMap (·.decls) ++ s.declsBefore) ++ ds ++
      (s.declsAfter ++ s.filesAfter.flatMap (·.decls)) := by
  simp [Package.decls, package, file]

end DeclSite
end ApiConventions
