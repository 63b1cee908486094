import ApiConventions.Proofs.Correspondence.Inspection
import ApiConventions.Rule.Basic

/-!
# ApiConventions.Proofs.Rule.Probes

The questions a check puts to the program about one file. A type is resolved, or it is peeled of
the parameters and aliases in front of it; nothing else in a check depends on types. Five checks
ask nothing.
-/

namespace ApiConventions

inductive Probe where
  | resolve (t : TypeRef)
  | peel (t : TypeRef)

namespace Program

/-- Whether the step limit plays no part in the answer. -/
def answers (p : Program) : Probe → Bool
  | .resolve t => p.settles t
  | .peel t => p.peelEndsWithin maxSteps t

/-- The questions of a search for type names. -/
def usesProbes (p : Program) : Nat → TypeRef → List Probe
  | 0, _ => []
  | n + 1, t =>
    let u := p.peelAliases t
    .peel t ::
      match u.expr with
      | .pointer elem => p.usesProbes n (u.withExpr elem)
      | .slice elem =>
        .resolve u :: if p.isByteSlice u then [] else p.usesProbes n (u.withExpr elem)
      | .array _ elem => p.usesProbes n (u.withExpr elem)
      | .map key value =>
        p.usesProbes n (u.withExpr key) ++ p.usesProbes n (u.withExpr value)
      | .interface [term] => p.usesProbes n (u.withExpr term)
      | _ => []

/-- The types that are resolved to see whether a type is a map that is tolerated. -/
def mapProbes (p : Program) (t : TypeRef) : List TypeRef :=
  let r := p.resolve t
  t ::
    match r.kind, r.mapParts? with
    | .map, some (key, value) => [key, value]
    | _, _ => []

end Program

namespace FileContext

def declProbes {α : Type} (ctx : FileContext) (selects : TypeDecl → Bool)
    (ask : TypeRef → List α) : List α :=
  (ctx.file.decls.filter selects).flatMap fun d => ask (ctx.declType d)

def fieldProbes {α : Type} (ctx : FileContext) (selects : Field → Bool)
    (ask : TypeRef → List α) : List α :=
  (ctx.file.fields.filter fun q => selects q.1).flatMap fun q => ask (ctx.typeRef q.1.type q.2)

end FileContext

/-- The questions of a check about a file. -/
def Check.probes (c : Check) (ctx : FileContext) : List Probe :=
  match c with
  | .minLength | .maxLength =>
    (ctx.declProbes (fun d => !(d.isAlias || !d.params.isEmpty)) ctx.extractor.subjectProbes ++
      ctx.fieldProbes (!·.isSkipped) ctx.extractor.subjectProbes).map .resolve
  | .noMaps o =>
    (ctx.declProbes (!·.isAlias) ctx.program.mapProbes ++
      ctx.fieldProbes (fun f => !(f.isEmbedded || o.allowedFieldNames.contains f.displayName))
        ctx.program.mapProbes).map .resolve
  | .optionalFields _ | .requiredFields _ | .listTags _ =>
    (ctx.fieldProbes (!·.isSkipped) ctx.extractor.subjectProbes).map .resolve
  | .noDurations | .noFloats | .noBools | .integers =>
    ctx.declProbes (fun _ => true) (ctx.program.usesProbes maxUsageDepth) ++
      ctx.fieldProbes (!·.isEmbedded) (ctx.program.usesProbes maxUsageDepth)
  | .noReferences _ | .requirementMarkers _ | .duplicateMarkers | .jsonNames _ | .commentStart => []

end ApiConventions
