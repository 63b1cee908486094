import ApiConventions.Constraint.Extract

/-!
# ApiConventions.Proofs.Constraint.Parts

The parts of an extraction: the constraints on the subject itself, those on the elements of a list
and the shape of a struct. The first are read off the layers alone, however deep lists and inline
structs are followed.
-/

namespace ApiConventions

/-- The constraints on a subject itself, without those on its elements and members. -/
def Constraints.ownPart (c : Constraints) : Constraints :=
  { c with items := none, optional := false, required := false, json := {}, structShape := none }

namespace Extractor

variable {x : Extractor} {levels : Nat} {own : List MarkerSet} {r : Resolved}

/-- What is read for the elements of a list, under the layers of the list. -/
def elements? (x : Extractor) (levels : Nat) (layers : List MarkerSet) (r : Resolved) :
    Option Extraction :=
  (listElem? r).map fun elem =>
    Layers.overElements layers (x.extractWithin levels [] (x.program.resolve elem))

theorem extractWithin_succ (levels : Nat) (own : List MarkerSet) (r : Resolved) :
    x.extractWithin (levels + 1) own r =
      { constraints :=
          { (Layers.own (own ++ x.typeLayers r) r.kind).constraints with
            items := (x.elements? levels (own ++ x.typeLayers r) r).map (·.constraints)
            structShape := if r.kind = .struct then some (x.structShape (levels + 1) r) else none }
        errors := (Layers.own (own ++ x.typeLayers r) r.kind).errors ++
          ((x.elements? levels (own ++ x.typeLayers r) r).map (·.errors)).getD [] } := by
  rw [extractWithin, withShape, elements?]
  cases listElem? r with
  | none => split <;> simp [Layers.own]
  | some elem => split <;> simp [Layers.own, withItems]

theorem extractWithin_ownPart : (x.extractWithin levels own r).constraints.ownPart =
    (Layers.own (own ++ x.typeLayers r) r.kind).constraints := by
  cases levels with
  | zero =>
    rw [extractWithin, withShape]
    split <;> rfl
  | succ levels =>
    rw [extractWithin_succ]
    rfl

theorem extractWithin_structShape (hk : r.kind = .struct) :
    (x.extractWithin levels own r).constraints.structShape = some (x.structShape levels r) := by
  cases levels with
  | zero => rw [extractWithin, withShape, if_pos hk]
  | succ levels => rw [extractWithin, withShape, if_pos hk]

end Extractor
end ApiConventions
