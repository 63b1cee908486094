import ApiConventions.Proofs.Resolution.Peeling
import ApiConventions.Rule.TypeUsage

/-!
# ApiConventions.Proofs.Rule.Leaves

The type names at the leaves of a type. `Leaves` lists them from left to right, each under the
words for the parts of the type it is in, once parameters and aliases are expanded. The search for
uses finds these, as long as the type is not nested too deeply and every expansion ends.
-/

namespace ApiConventions
namespace Program

variable {p : Program} {t u : TypeRef} {n : Nat}

/-! ## Bytes -/

/-- The name of the byte type, or a name that stands for it at most so many names further on. -/
inductive NamesByte (p : Program) : Nat → TypeRef → Prop where
  | byte {n : Nat} {t : TypeRef} (refers : p.referent? t = some (.predeclared (.basic .uint8))) :
      NamesByte p n t
  | param {n : Nat} {t u : TypeRef} (refers : p.referent? t = some (.param u))
      (rest : NamesByte p n u) : NamesByte p (n + 1) t
  | declared {n : Nat} {t u : TypeRef} {P : Package} {d : TypeDecl}
      (refers : p.referent? t = some (.decl P d u)) (rest : NamesByte p n u) :
      NamesByte p (n + 1) t

theorem NamesByte.isByteWithin (h : p.NamesByte n t) : p.isByteWithin (n + 1) t = true := by
  induction h with
  | byte refers => simp [Program.isByteWithin, refers]
  | param refers _ ih =>
    rw [Program.isByteWithin, refers]
    exact ih
  | declared refers _ ih =>
    rw [Program.isByteWithin, refers]
    exact ih

theorem namesByte_iff : p.NamesByte n t ↔ p.isByteWithin (n + 1) t = true := by
  refine ⟨NamesByte.isByteWithin, ?_⟩
  induction n generalizing t with
  | zero =>
    intro h
    rw [isByteWithin] at h
    split at h
    · cases h
    · cases h
    · rename_i refers
      cases eq_of_beq h
      exact .byte refers
    · cases h
  | succ n ih =>
    intro h
    rw [isByteWithin] at h
    split at h
    · rename_i refers
      exact .param refers (ih h)
    · rename_i refers
      exact .declared refers (ih h)
    · rename_i refers
      cases eq_of_beq h
      exact .byte refers
    · cases h

/-- A slice whose element is called a byte. -/
theorem isByteSlice_of_slice {e : TypeExpr} (expr : t.expr = .slice e) :
    p.isByteSlice t = true ↔ p.NamesByte 63 (t.withExpr e) := by
  rw [isByteSlice, expr, namesByte_iff]
  rfl

/-! ## Leaves -/

/-- Leaves in a part of a type. -/
def under (part : String) (leaves : List (Referent × LayerPath)) : List (Referent × LayerPath) :=
  leaves.map fun leaf => (leaf.1, part :: leaf.2)

/--
The leaves of a type from left to right. Nothing is a leaf below a defined type, a slice of bytes,
a struct, a function, a channel, or an interface unless it has a single term.
-/
inductive Leaves (p : Program) : TypeRef → List (Referent × LayerPath) → Prop where
  | expand {t u : TypeRef} {leaves : List (Referent × LayerPath)}
      (stands : p.lookThrough? t = some u) (rest : Leaves p u leaves) : Leaves p t leaves
  | name {t : TypeRef} {r : Referent} (last : p.lookThrough? t = none)
      (refers : p.referent? t = some r) : Leaves p t [(r, [])]
  | pointer {t : TypeRef} {e : TypeExpr} {leaves : List (Referent × LayerPath)}
      (expr : t.expr = .pointer e) (elem : Leaves p (t.withExpr e) leaves) :
      Leaves p t (under "pointer" leaves)
  | slice {t : TypeRef} {e : TypeExpr} {leaves : List (Referent × LayerPath)}
      (expr : t.expr = .slice e) (other : ¬ p.NamesByte 63 (t.withExpr e))
      (elem : Leaves p (t.withExpr e) leaves) : Leaves p t (under "array element" leaves)
  | bytes {t : TypeRef} {e : TypeExpr} (expr : t.expr = .slice e)
      (byte : p.NamesByte 63 (t.withExpr e)) : Leaves p t []
  | array {t : TypeRef} {length : UInt64} {e : TypeExpr} {leaves : List (Referent × LayerPath)}
      (expr : t.expr = .array length e) (elem : Leaves p (t.withExpr e) leaves) :
      Leaves p t (under "array element" leaves)
  | map {t : TypeRef} {k v : TypeExpr} {keys values : List (Referent × LayerPath)}
      (expr : t.expr = .map k v) (key : Leaves p (t.withExpr k) keys)
      (value : Leaves p (t.withExpr v) values) :
      Leaves p t (under "map key" keys ++ under "map value" values)
  | term {t : TypeRef} {e : TypeExpr} {leaves : List (Referent × LayerPath)}
      (expr : t.expr = .interface [e]) (only : Leaves p (t.withExpr e) leaves) : Leaves p t leaves
  | interface {t : TypeRef} {es : List TypeExpr} (expr : t.expr = .interface es)
      (several : es.length ≠ 1) : Leaves p t []
  | struct {t : TypeRef} {fs : List Field} (expr : t.expr = .struct fs) : Leaves p t []
  | func {t : TypeRef} (expr : t.expr = .func) : Leaves p t []
  | chan {t : TypeRef} {e : TypeExpr} (expr : t.expr = .chan e) : Leaves p t []

/-- The parts of a type in which leaves are looked for. -/
def parts (p : Program) (t : TypeRef) : List TypeRef :=
  match t.expr with
  | .pointer e | .array _ e | .interface [e] => [t.withExpr e]
  | .slice e => if p.isByteSlice t then [] else [t.withExpr e]
  | .map k v => [t.withExpr k, t.withExpr v]
  | _ => []

/-- Parts are nested at most so many levels deep, and every expansion on the way ends. -/
def nestsWithin (p : Program) : Nat → TypeRef → Bool
  | 0, t => p.peelEndsWithin maxSteps t && (p.parts (p.peelAliases t)).isEmpty
  | n + 1, t => p.peelEndsWithin maxSteps t && (p.parts (p.peelAliases t)).all (p.nestsWithin n)

/-! ## Expansion -/

theorem lookThrough_of_name (other : t.expr.name? = none) : p.lookThrough? t = none := by
  cases expr : t.expr with
  | ident name path args =>
    rw [expr] at other
    cases other
  | _ => simp [lookThrough?, referent?, expr]

theorem Leaves.of_peelWithin {leaves : List (Referent × LayerPath)}
    (h : p.Leaves (p.peelWithin n t) leaves) : p.Leaves t leaves := by
  induction n generalizing t with
  | zero => exact h
  | succ n ih =>
    cases stands : p.lookThrough? t with
    | none =>
      rw [peelWithin_of_lookThrough_none stands] at h
      exact h
    | some u =>
      rw [peelWithin_of_lookThrough stands] at h
      exact .expand stands (ih h)

/-! ## Nesting -/

theorem ends_of_nestsWithin (nests : p.nestsWithin n t = true) :
    p.peelEndsWithin maxSteps t = true := by
  cases n <;> rw [nestsWithin, Bool.and_eq_true] at nests <;> exact nests.1

theorem nestsWithin_of_lookThrough (stands : p.lookThrough? t = some u)
    (nests : p.nestsWithin n t = true) : p.nestsWithin n u = true := by
  obtain ⟨ends, same⟩ := peelAliases_of_lookThrough stands (ends_of_nestsWithin nests)
  cases n <;>
  · rw [nestsWithin, Bool.and_eq_true, same] at nests
    rw [nestsWithin, ends, nests.2]
    rfl

/-- A part is nested one level less deep. -/
theorem nestsWithin_part (nests : p.nestsWithin n t = true) {q : TypeRef}
    (part : q ∈ p.parts (p.peelAliases t)) : ∃ m, n = m + 1 ∧ p.nestsWithin m q = true := by
  cases n with
  | zero =>
    rw [nestsWithin, Bool.and_eq_true, List.isEmpty_iff] at nests
    rw [nests.2] at part
    cases part
  | succ m =>
    rw [nestsWithin, Bool.and_eq_true, List.all_eq_true] at nests
    exact ⟨m, rfl, nests.2 q part⟩

/-! ## Uses -/

/-- The place where a search starts comes in front of every place that it finds. -/
theorem usesWithin_layer (layer : LayerPath) (n : Nat) (t : TypeRef) :
    p.usesWithin n layer t = (p.usesWithin n [] t).map fun use => (use.1, layer ++ use.2) := by
  induction n generalizing layer t with
  | zero => rfl
  | succ n ih =>
    have below (part : String) (u : TypeRef) : p.usesWithin n (layer ++ [part]) u =
        (p.usesWithin n ([] ++ [part]) u).map fun use => (use.1, layer ++ use.2) := by
      rw [ih, ih ([] ++ [part]), List.map_map]
      simp [Function.comp_def]
    rw [usesWithin, usesWithin]
    cases (p.peelAliases t).expr with
    | pointer e => exact below _ _
    | slice e =>
      cases p.isByteSlice (p.peelAliases t) with
      | true => rfl
      | false => exact below _ _
    | array length e => exact below _ _
    | map k v => simp only [below, List.map_append]
    | interface es =>
      rcases es with - | ⟨e, - | ⟨e', es⟩⟩
      · rfl
      · exact ih _ _
      · rfl
    | ident name path args => cases p.referent? (p.peelAliases t) <;> simp
    | struct fs => rfl
    | func => rfl
    | chan e => rfl

theorem usesWithin_of_lookThrough (stands : p.lookThrough? t = some u)
    (ends : p.peelEndsWithin maxSteps t = true) (layer : LayerPath) :
    p.usesWithin (n + 1) layer t = p.usesWithin (n + 1) layer u := by
  rw [usesWithin, usesWithin, (peelAliases_of_lookThrough stands ends).2]

/-- The leaves of an expression that does not expand, where `inner` gives those of its parts. -/
def leavesOf (p : Program) (inner : TypeRef → List (Referent × LayerPath)) (t : TypeRef) :
    List (Referent × LayerPath) :=
  match t.expr with
  | .pointer e => under "pointer" (inner (t.withExpr e))
  | .slice e => if p.isByteSlice t then [] else under "array element" (inner (t.withExpr e))
  | .array _ e => under "array element" (inner (t.withExpr e))
  | .map k v => under "map key" (inner (t.withExpr k)) ++ under "map value" (inner (t.withExpr v))
  | .interface [e] => inner (t.withExpr e)
  | .ident _ _ _ => (p.referent? t).toList.map (·, [])
  | _ => []

theorem usesWithin_succ (n : Nat) (t : TypeRef) :
    p.usesWithin (n + 1) [] t = p.leavesOf (p.usesWithin n []) (p.peelAliases t) := by
  have part (part : String) (u : TypeRef) :
      p.usesWithin n ([] ++ [part]) u = under part (p.usesWithin n [] u) :=
    usesWithin_layer [part] n u
  cases expr : (p.peelAliases t).expr with
  | interface es =>
    rcases es with - | ⟨e, - | ⟨e', es⟩⟩ <;> simp only [usesWithin, leavesOf, expr]
  | _ => simp only [usesWithin, leavesOf, expr, part]

theorem leaves_leavesOf {inner : TypeRef → List (Referent × LayerPath)}
    (last : p.lookThrough? t = none) (below : ∀ q ∈ p.parts t, p.Leaves q (inner q)) :
    p.Leaves t (p.leavesOf inner t) := by
  cases expr : t.expr with
  | ident name path args =>
    have refers : ∃ r, p.referent? t = some r := by cases path <;> simp [referent?, expr]
    obtain ⟨r, refers⟩ := refers
    simp only [leavesOf, expr, refers]
    exact .name last refers
  | pointer e =>
    simp only [parts, leavesOf, expr] at below ⊢
    exact .pointer expr (below _ List.mem_cons_self)
  | slice e =>
    simp only [parts, leavesOf, expr] at below ⊢
    by_cases bytes : p.isByteSlice t = true
    · rw [if_pos bytes]
      exact .bytes expr ((isByteSlice_of_slice expr).1 bytes)
    · rw [if_neg bytes] at below ⊢
      exact .slice expr (mt (isByteSlice_of_slice expr).2 bytes) (below _ List.mem_cons_self)
  | array length e =>
    simp only [parts, leavesOf, expr] at below ⊢
    exact .array expr (below _ List.mem_cons_self)
  | map k v =>
    simp only [parts, leavesOf, expr] at below ⊢
    exact .map expr (below _ List.mem_cons_self)
      (below _ (List.mem_cons_of_mem _ List.mem_cons_self))
  | interface es =>
    rcases es with - | ⟨e, - | ⟨e', es⟩⟩
    · simp only [leavesOf, expr]
      exact .interface expr (by simp)
    · simp only [parts, leavesOf, expr] at below ⊢
      exact .term expr (below _ List.mem_cons_self)
    · simp only [leavesOf, expr]
      exact .interface expr (by simp)
  | struct fs =>
    simp only [leavesOf, expr]
    exact .struct expr
  | func =>
    simp only [leavesOf, expr]
    exact .func expr
  | chan e =>
    simp only [leavesOf, expr]
    exact .chan expr

/-- What the search finds are the leaves. -/
theorem leaves_usesWithin (nests : p.nestsWithin n t = true) :
    p.Leaves t (p.usesWithin (n + 1) [] t) := by
  induction n using Nat.strongRecOn generalizing t with
  | _ n ih =>
    have last := lookThrough_peelWithin (ends_of_nestsWithin nests)
    rw [usesWithin_succ]
    refine .of_peelWithin (leaves_leavesOf last fun q part => ?_)
    obtain ⟨m, rfl, below⟩ := nestsWithin_part nests part
    exact ih m (Nat.lt_succ_self m) below

/-- There are no other leaves. -/
theorem Leaves.eq_usesWithin {leaves : List (Referent × LayerPath)} (h : p.Leaves t leaves)
    (nests : p.nestsWithin n t = true) : leaves = p.usesWithin (n + 1) [] t := by
  -- What is not a name does not expand, so the search looks at the expression that is there.
  have head {t : TypeRef} (other : t.expr.name? = none) : p.peelAliases t = t :=
    peelAliases_of_last (lookThrough_of_name other)
  induction h generalizing n with
  | expand stands _ ih =>
    rw [usesWithin_of_lookThrough stands (ends_of_nestsWithin nests)]
    exact ih (nestsWithin_of_lookThrough stands nests)
  | name last refers =>
    obtain ⟨name, path, args, expr⟩ := expr_of_referent refers
    rw [usesWithin_succ, peelAliases_of_last last]
    simp [leavesOf, expr, refers]
  | @pointer t e _ expr _ ih =>
    have same := head (by rw [expr]; rfl)
    obtain ⟨m, rfl, below⟩ := nestsWithin_part nests (q := t.withExpr e)
      (by simp [same, parts, expr])
    rw [usesWithin_succ, same, ih below]
    simp [leavesOf, expr]
  | @slice t e _ expr other _ ih =>
    have same := head (by rw [expr]; rfl)
    rw [← isByteSlice_of_slice expr] at other
    obtain ⟨m, rfl, below⟩ := nestsWithin_part nests (q := t.withExpr e)
      (by simp [same, parts, expr, other])
    rw [usesWithin_succ, same, ih below]
    simp [leavesOf, expr, other]
  | bytes expr byte =>
    rw [← isByteSlice_of_slice expr] at byte
    rw [usesWithin_succ, head (by rw [expr]; rfl)]
    simp [leavesOf, expr, byte]
  | @array t _ e _ expr _ ih =>
    have same := head (by rw [expr]; rfl)
    obtain ⟨m, rfl, below⟩ := nestsWithin_part nests (q := t.withExpr e)
      (by simp [same, parts, expr])
    rw [usesWithin_succ, same, ih below]
    simp [leavesOf, expr]
  | @map t k v _ _ expr _ _ ihk ihv =>
    have same := head (by rw [expr]; rfl)
    obtain ⟨m, rfl, key⟩ := nestsWithin_part nests (q := t.withExpr k)
      (by simp [same, parts, expr])
    obtain ⟨_, eq, value⟩ := nestsWithin_part nests (q := t.withExpr v)
      (by simp [same, parts, expr])
    cases eq
    rw [usesWithin_succ, same, ihk key, ihv value]
    simp [leavesOf, expr]
  | @term t e _ expr _ ih =>
    have same := head (by rw [expr]; rfl)
    obtain ⟨m, rfl, below⟩ := nestsWithin_part nests (q := t.withExpr e)
      (by simp [same, parts, expr])
    rw [usesWithin_succ, same, ih below]
    simp [leavesOf, expr]
  | @interface t es expr several =>
    rw [usesWithin_succ, head (by rw [expr]; rfl)]
    rcases es with - | ⟨e, - | ⟨e', es⟩⟩
    · simp [leavesOf, expr]
    · cases several rfl
    · simp [leavesOf, expr]
  | struct expr | func expr | chan expr =>
    rw [usesWithin_succ, head (by rw [expr]; rfl)]
    simp [leavesOf, expr]

end Program
end ApiConventions
