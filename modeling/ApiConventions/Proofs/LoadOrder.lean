import ApiConventions.Analysis
import ApiConventions.Proofs.Correspondence.Revision
import ApiConventions.Proofs.Correspondence.Rules
import ApiConventions.Proofs.Model.Lookup
import ApiConventions.Proofs.Report.Sort

/-!
# ApiConventions.Proofs.LoadOrder

The order in which packages and files are loaded is not visible in the report. Where no path and
no type name is repeated, every lookup finds the same declaration in either order, so that each
file has the same violations. Violations at one place are all from one file, and the sort of the
report keeps their order.
-/

namespace ApiConventions

structure Package.Reordering (P P' : Package) : Prop where
  path : P.path = P'.path
  name : P.name = P'.name
  files : P.files.Perm P'.files

/-- A program with its packages, and the files in each of them, in another order. -/
def Program.Reordering (p p' : Program) : Prop :=
  ∃ mid, p.packages.Perm mid ∧ List.Forall₂ Package.Reordering mid p'.packages

/-- A program in which no path and no type name is repeated. -/
structure Program.Distinct (p : Program) : Prop where
  packages : (p.packages.map (·.path)).Nodup
  /-- Paths of files are the same when their components are. -/
  files : ((p.packages.flatMap (·.files)).map fun f => Path.parts f.path).Nodup
  decls : ∀ P ∈ p.packages, (P.decls.map (·.name)).Nodup

variable {p p' : Program} {P P' : Package}

/-! ## Lookups -/

theorem Package.Reordering.decl? (h : P.Reordering P') (hn : (P.decls.map (·.name)).Nodup)
    (name : String) : P.decl? name = P'.decl? name := by
  have perm : P.decls.Perm P'.decls := h.files.flatMap_right _
  have hn' : (P'.decls.map (·.name)).Nodup := (perm.map _).nodup_iff.1 hn
  refine Option.ext fun d => ?_
  rw [Package.decl?_eq_some_iff hn, Package.decl?_eq_some_iff hn', perm.mem_iff]

/-- What loading in another order changes: nothing but the places of packages and files. -/
def reorderingRevision (p p' : Program) : Revision where
  before := p
  after := p'
  names _ := True
  exchanged _ _ _ _ := False
  free _ := False
  detours := False

theorem reordering_decls (d : TypeDecl) : (reorderingRevision p p').Decls P' d d :=
  .refl P' fun _ _ => trivial

theorem reordering_packages (h : P.Reordering P') (hn : (P.decls.map (·.name)).Nodup) :
    (reorderingRevision p p').Packages P P' where
  path := h.path
  decl name _ := by
    rw [h.decl? hn name]
    cases P'.decl? name with
    | none => exact .none
    | some d => exact .some (reordering_decls d)

theorem reordering_sound (h : p.Reordering p') (hd : p.Distinct) :
    (reorderingRevision p p').Sound where
  package path := by
    obtain ⟨mid, perm, each⟩ := h
    have paths : mid.map (·.path) = p'.packages.map (·.path) :=
      map_eq_of_forall₂ each fun P P' _ hP => hP.path
    have hn' : (p'.packages.map (·.path)).Nodup :=
      paths ▸ (perm.map _).nodup_iff.1 hd.packages
    show Option.Rel _ (p.package? path) (p'.package? path)
    cases hP : p.package? path with
    | some P =>
      obtain ⟨hmem, hpath⟩ := (Program.package?_eq_some_iff hd.packages).1 hP
      obtain ⟨P', hmem', hPP⟩ := exists_right_of_mem each (perm.mem_iff.1 hmem)
      rw [(Program.package?_eq_some_iff hn').2 ⟨hmem', hPP.path ▸ hpath⟩]
      exact .some (reordering_packages hPP (hd.decls P hmem))
    | none =>
      cases hP' : p'.package? path with
      | none => exact .none
      | some P' =>
        obtain ⟨hmem', hpath⟩ := (Program.package?_eq_some_iff hn').1 hP'
        obtain ⟨P, hmem, hPP⟩ := exists_left_of_mem each hmem'
        rw [(Program.package?_eq_some_iff hd.packages).2
          ⟨perm.mem_iff.2 hmem, hPP.path.trans hpath⟩] at hP
        cases hP
  exchanged _ h := h.elim

/-! ## Files -/

theorem Analysis.runFile_eq_of_reordering (a : Analysis) (h : p.Reordering p') (hd : p.Distinct)
    (hP : P ∈ p.packages) (hPP : P.Reordering P') (F : SourceFile) :
    a.runFile ⟨p, P, F, a.registry⟩ = a.runFile ⟨p', P', F, a.registry⟩ := by
  have sound := reordering_sound h hd
  have files : (reorderingRevision p p').correspondence.Files ⟨p, P, F, a.registry⟩
      ⟨p', P', F, a.registry⟩ :=
    sound.files (reordering_packages hPP (hd.decls P hP)) a.registry (fun _ hf => hf)
      (fun _ _ _ hex => hex.elim) rfl (List.forall₂_same.2 fun d _ => reordering_decls d)
  have faithful := Revision.faithful (v := reorderingRevision p p') fun _ _ hf => hf
  rw [Analysis.runFile, Analysis.runFile]
  congr 1
  funext rule
  rw [Analysis.runRule, Analysis.runRule,
    files.run sound.lawful faithful rule fun detours => detours.elim]

theorem Analysis.file_of_mem_runFile {a : Analysis} {ctx : FileContext} {v : Violation}
    (h : v ∈ a.runFile ctx) : v.location.file = ctx.file.path := by
  rw [Analysis.runFile, List.mem_flatMap] at h
  obtain ⟨rule, -, h⟩ := h
  rw [Analysis.runRule] at h
  split at h
  · obtain ⟨w, hw, rfl⟩ := List.mem_map.1 h
    rw [Rule.run, List.mem_map] at hw
    obtain ⟨d, -, rfl⟩ := hw
    rfl
  · cases h

/-! ## Reports -/

/-- Lists of which at most one is not empty can be joined in any order. -/
theorem flatMap_eq_of_perm {α β : Type} {f : α → List β} {l l' : List α} (h : l.Perm l')
    (hp : l.Pairwise fun x y => f x = [] ∨ f y = []) : l.flatMap f = l'.flatMap f := by
  induction h with
  | nil => rfl
  | cons x _ ih =>
    rw [List.flatMap_cons, List.flatMap_cons, ih (List.pairwise_cons.1 hp).2]
  | swap x y l =>
    have hxy := (List.pairwise_cons.1 hp).1 x List.mem_cons_self
    simp only [List.flatMap_cons]
    rcases hxy with hy | hx
    · rw [hy, List.nil_append, List.nil_append]
    · rw [hx, List.nil_append, List.nil_append]
  | trans h1 _ ih1 ih2 =>
    rw [ih1 hp, ih2 (h1.pairwise hp fun hxy => hxy.symm)]

theorem flatMap_perm_of_forall₂ {α β γ : Type} {R : α → β → Prop} {l : List α} {l' : List β}
    {f : α → List γ} {f' : β → List γ} (h : List.Forall₂ R l l')
    (hf : ∀ x y, x ∈ l → R x y → (f x).Perm (f' y)) : (l.flatMap f).Perm (l'.flatMap f') := by
  induction h with
  | nil => exact .refl _
  | cons hxy _ ih =>
    rw [List.flatMap_cons, List.flatMap_cons]
    exact (hf _ _ List.mem_cons_self hxy).append
      (ih fun x y hx => hf x y (List.mem_cons_of_mem _ hx))

namespace Analysis

variable (a : Analysis)

/-- The violations of each file, with the path of the file. -/
def blocks (p : Program) : List (String × List Violation) :=
  p.packages.flatMap fun P => P.files.map fun F => (F.path, a.runFile ⟨p, P, F, a.registry⟩)

theorem blocks_eq (p : Program) :
    a.blocks p = (a.contexts p).map fun ctx => (ctx.file.path, a.runFile ctx) := by
  simp only [blocks, contexts, List.map_flatMap, List.map_map]
  rfl

theorem run_eq (p : Program) : a.run p = Report.sort
    { violations := (a.blocks p).flatMap (·.2), filesChecked := (a.blocks p).length } := by
  rw [run, blocks_eq, List.flatMap_map, List.length_map]

theorem file_of_mem_blocks {p : Program} {x : String × List Violation} (hx : x ∈ a.blocks p)
    {v : Violation} (hv : v ∈ x.2) : v.location.file = x.1 := by
  rw [blocks_eq, List.mem_map] at hx
  obtain ⟨ctx, -, rfl⟩ := hx
  exact file_of_mem_runFile hv

theorem blocks_perm (h : p.Reordering p') (hd : p.Distinct) :
    (a.blocks p).Perm (a.blocks p') := by
  obtain ⟨mid, perm, each⟩ := id h
  refine (perm.flatMap_right _).trans (flatMap_perm_of_forall₂ each fun P P' hP hPP => ?_)
  have same : ∀ F ∈ P.files, (F.path, a.runFile ⟨p, P, F, a.registry⟩) =
      (F.path, a.runFile ⟨p', P', F, a.registry⟩) := fun F _ => by
    rw [a.runFile_eq_of_reordering h hd (perm.mem_iff.2 hP) hPP F]
  rw [List.map_congr_left same]
  exact hPP.files.map _

/-- At most one file has violations that are tied with a given one. -/
theorem blocks_pairwise (hd : p.Distinct) (v : Violation) : (a.blocks p).Pairwise fun x y =>
    x.2.filter (isTied (fun v w => v.location.le w.location) v) = [] ∨
      y.2.filter (isTied (fun v w => v.location.le w.location) v) = [] := by
  have paths : (a.blocks p).map (fun x => Path.parts x.1) =
      (p.packages.flatMap (·.files)).map fun f => Path.parts f.path := by
    simp only [blocks, List.map_flatMap, List.map_map]
    rfl
  have nodup : ((a.blocks p).map fun x => Path.parts x.1).Nodup := paths ▸ hd.files
  have file {x : String × List Violation} {w : Violation} (hx : x ∈ a.blocks p)
      (hw : w ∈ x.2.filter (isTied (fun v w => v.location.le w.location) v)) :
      Path.parts v.location.file = Path.parts x.1 := by
    obtain ⟨hw, tied⟩ := List.mem_filter.1 hw
    rw [isTied, Bool.and_eq_true] at tied
    rw [← a.file_of_mem_blocks hx hw]
    exact Location.parts_eq_of_le_of_le tied.1 tied.2
  refine (List.pairwise_map.1 nodup).imp_of_mem fun {x y} hx hy hne => ?_
  by_contra hnil
  obtain ⟨hx', hy'⟩ := not_or.1 hnil
  obtain ⟨w, hw⟩ := List.exists_mem_of_ne_nil _ hx'
  obtain ⟨w', hw'⟩ := List.exists_mem_of_ne_nil _ hy'
  exact hne ((file hx hw).symm.trans (file hy hw'))

/--
The report does not depend on the order in which packages and files are loaded, provided that no
path and no type name is repeated.
-/
theorem run_eq_of_reordering (h : p.Reordering p') (hd : p.Distinct) : a.run p = a.run p' := by
  have perm := a.blocks_perm h hd
  have sorted : ((a.blocks p).flatMap (·.2)).mergeSort (fun v w => v.location.le w.location) =
      ((a.blocks p').flatMap (·.2)).mergeSort fun v w => v.location.le w.location := by
    refine mergeSort_eq_of_filter (fun u v w => Location.le_trans _ _ _)
      (fun v w => Location.le_total _ _) fun v => ?_
    rw [List.filter_flatMap, List.filter_flatMap]
    exact flatMap_eq_of_perm perm (a.blocks_pairwise hd v)
  rw [run_eq, run_eq, Report.sort, Report.sort, sorted, perm.length_eq]

end Analysis

namespace LoadOrder

def widgetFile : SourceFile where
  path := "api/widget.go"
  decls :=
    [{ name := "Widget"
       pos := { line := 4, column := 6 }
       doc := []
       isAlias := false
       params := []
       type := .struct
         [{ name := some "Size"
            pos := { line := 5, column := 2 }
            doc := []
            type := .ident "Count" (some "example.com/units") []
            tag := none }] }]

def gadgetFile : SourceFile where
  path := "api/gadget.go"
  decls :=
    [{ name := "Gadget"
       pos := { line := 4, column := 6 }
       doc := []
       isAlias := false
       params := []
       type := .map (.ident "string" none []) (.ident "Widget" none []) }]

def unitsFile : SourceFile where
  path := "units/units.go"
  decls :=
    [{ name := "Count"
       pos := { line := 3, column := 6 }
       doc := []
       isAlias := false
       params := []
       type := .ident "uint" none [] }]

def unitsPackage : Package :=
  { path := "example.com/units", name := "units", files := [unitsFile] }

def apiPackage (files : List SourceFile) : Package :=
  { path := "example.com/api", name := "api", files }

def loaded : Program := ⟨[apiPackage [widgetFile, gadgetFile], unitsPackage]⟩
def reloaded : Program := ⟨[unitsPackage, apiPackage [gadgetFile, widgetFile]]⟩

theorem loaded_reordering : loaded.Reordering reloaded := by
  refine ⟨[unitsPackage, apiPackage [widgetFile, gadgetFile]], .swap _ _ _, ?_⟩
  refine .cons ⟨rfl, rfl, .refl _⟩ (.cons ⟨rfl, rfl, .swap _ _ _⟩ .nil)

theorem loaded_distinct : loaded.Distinct where
  packages := by decide
  files := by decide +kernel
  decls P hP := by
    rcases List.mem_cons.1 hP with rfl | hP
    · decide
    · rw [List.mem_singleton.1 hP]
      decide

/-- All rules, under the configuration that sets nothing. -/
def everyRule : Analysis :=
  Analysis.ofConfig {} (RuleId.all.map Rule.default)

theorem run_loaded_eq_run_reloaded :
    (loaded.Reordering reloaded ∧ loaded.Distinct) ∧
      everyRule.run loaded = everyRule.run reloaded :=
  ⟨⟨loaded_reordering, loaded_distinct⟩,
    everyRule.run_eq_of_reordering loaded_reordering loaded_distinct⟩

end LoadOrder
end ApiConventions
