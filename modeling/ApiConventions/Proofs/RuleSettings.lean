import Mathlib.Data.List.Forall2
import ApiConventions.Analysis
import ApiConventions.Proofs.Report.Sort

/-!
# ApiConventions.Proofs.RuleSettings

The section of one rule reaches the violations of that rule only. The report is in order of place;
to disable a rule is to delete its violations from the report, and to set its severity is to
change the severity of its violations. Both go through a stable sort, which commutes with deleting
(`mergeSort_filter`) and with every change that keeps the places (`forall₂_mergeSort`).
-/

namespace ApiConventions

/-! ## The section of a rule -/

theorem lookup_filter_of_ne {α : Type} {key other : String} (h : other ≠ key)
    (l : List (String × α)) : (l.filter (·.1 != key)).lookup other = l.lookup other := by
  induction l with
  | nil => rfl
  | cons q l ih =>
    rw [List.filter_cons, List.lookup_cons]
    by_cases hq : q.1 = key
    · have hne : (other == q.1) = false := beq_false_of_ne (hq ▸ h)
      rw [if_neg (by simp [hq]), hne, ih]
    · have hk : (q.1 != key) = true := bne_iff_ne.2 hq
      rw [if_pos hk, List.lookup_cons, ih]

namespace Config

variable {c : Config} {rule other : String} {f : RuleConfig → RuleConfig}

/-- The configuration with another section for a rule; without a section, from an empty one. -/
def updateSection (c : Config) (rule : String) (f : RuleConfig → RuleConfig) : Config :=
  { c with rules := (rule, f ((c.section? rule).getD {})) :: c.rules.filter (·.1 != rule) }

def disable (c : Config) (rule : String) : Config :=
  c.updateSection rule fun s => { s with enabled := some false }

def setSeverity (c : Config) (rule : String) (severity : Option Severity) : Config :=
  c.updateSection rule fun s => { s with severity }

theorem section?_updateSection :
    (c.updateSection rule f).section? rule = some (f ((c.section? rule).getD {})) := by
  rw [section?, updateSection, List.lookup_cons, beq_self_eq_true]

theorem section?_updateSection_of_ne (h : other ≠ rule) :
    (c.updateSection rule f).section? other = c.section? other := by
  rw [section?, updateSection, List.lookup_cons, beq_false_of_ne h]
  exact lookup_filter_of_ne h c.rules

/-- A setting that the update leaves alone has its value for every rule. -/
theorem setting_updateSection {α : Type} {setting : RuleConfig → Option α}
    (empty : setting {} = none) (same : ∀ s, setting (f s) = setting s) :
    ((c.updateSection rule f).section? other).bind setting =
      (c.section? other).bind setting := by
  by_cases h : other = rule
  · subst h
    rw [section?_updateSection, Option.bind_some, same]
    cases c.section? other with
    | none => exact empty
    | some s => rfl
  · rw [section?_updateSection_of_ne h]

theorem isEnabled_disable : (c.disable rule).isEnabled other = (c.isEnabled other && other != rule) := by
  by_cases h : other = rule
  · subst h
    simp [isEnabled, disable, section?_updateSection]
  · simp [isEnabled, disable, section?_updateSection_of_ne h, h]

theorem severity?_disable : (c.disable rule).severity? other = c.severity? other :=
  setting_updateSection rfl fun _ => rfl

theorem isEnabled_setSeverity {severity : Option Severity} :
    (c.setSeverity rule severity).isEnabled other = c.isEnabled other := by
  have enabled : ((c.setSeverity rule severity).section? other).bind (·.enabled) =
    (c.section? other).bind (·.enabled) := setting_updateSection rfl fun _ => rfl
  rw [isEnabled, enabled, isEnabled]

theorem severity?_setSeverity {severity : Option Severity} :
    (c.setSeverity rule severity).severity? other =
      if other = rule then severity else c.severity? other := by
  by_cases h : other = rule
  · subst h
    rw [if_pos rfl, severity?, setSeverity, section?_updateSection]
    rfl
  · rw [if_neg h, severity?, severity?, setSeverity, section?_updateSection_of_ne h]

end Config

/-! ## The violations of a rule -/

theorem Rule.of_mem_run {r : Rule} {ctx : FileContext} {v : Violation} (h : v ∈ r.run ctx) :
    v.rule = r.name ∧ v.severity = r.severity := by
  obtain ⟨d, -, rfl⟩ := List.mem_map.1 h
  exact ⟨rfl, rfl⟩

/--
A violation under another severity for a rule: that of the section, or without one there that of
one of the rules with the name. Nothing else of it differs, and nothing at all if it is of another
rule.
-/
structure Violation.Regraded (rules : List Rule) (rule : String) (severity : Option Severity)
    (v w : Violation) : Prop where
  same : w = { v with severity := w.severity }
  other : v.rule ≠ rule → w.severity = v.severity
  graded : v.rule = rule →
    ∃ r ∈ rules, r.name = rule ∧ w.severity = severity.getD r.severity

namespace Analysis

section RunRule

variable {a : Analysis} {ctx : FileContext} {r : Rule}

theorem runRule_of_enabled (h : a.config.isEnabled r.name = true) :
    a.runRule ctx r = (r.run ctx).map (a.adjust r) :=
  if_pos h

theorem runRule_of_disabled (h : a.config.isEnabled r.name = false) : a.runRule ctx r = [] :=
  if_neg (Bool.eq_false_iff.1 h)

theorem rule_of_mem_runRule {v : Violation} (h : v ∈ a.runRule ctx r) : v.rule = r.name := by
  rw [runRule] at h
  split at h
  · obtain ⟨w, hw, rfl⟩ := List.mem_map.1 h
    exact (Rule.of_mem_run hw).1
  · cases h

end RunRule

variable {c : Config} {rules : List Rule} {rule : String} {severity : Option Severity}

theorem runRule_disable (ctx : FileContext) (r : Rule) :
    (ofConfig (c.disable rule) rules).runRule ctx r =
      ((ofConfig c rules).runRule ctx r).filter fun v => v.rule != rule := by
  have adjust : (ofConfig (c.disable rule) rules).adjust r = (ofConfig c rules).adjust r := by
    funext v
    rw [Analysis.adjust, Analysis.adjust]
    simp only [ofConfig, Config.severity?_disable]
  have enabled : (ofConfig (c.disable rule) rules).config.isEnabled r.name =
    (c.isEnabled r.name && r.name != rule) := Config.isEnabled_disable
  by_cases hr : r.name = rule
  · have off : (ofConfig (c.disable rule) rules).config.isEnabled r.name = false := by
      rw [enabled, hr, bne_self_eq_false, Bool.and_false]
    rw [runRule_of_disabled off, eq_comm, List.filter_eq_nil_iff]
    intro v hv
    simp [rule_of_mem_runRule hv, hr]
  · have same : (ofConfig (c.disable rule) rules).runRule ctx r =
        (ofConfig c rules).runRule ctx r := by
      cases he : c.isEnabled r.name with
      | true => rw [runRule_of_enabled (by simp [enabled, he, hr]), runRule_of_enabled he, adjust]
      | false => rw [runRule_of_disabled (by simp [enabled, he]), runRule_of_disabled he]
    rw [same, eq_comm, List.filter_eq_self]
    intro v hv
    simp [rule_of_mem_runRule hv, hr]

theorem runRule_setSeverity (ctx : FileContext) {r : Rule} (hr : r ∈ rules) :
    List.Forall₂ (Violation.Regraded rules rule severity)
      ((ofConfig c rules).runRule ctx r)
      ((ofConfig (c.setSeverity rule severity) rules).runRule ctx r) := by
  have enabled : (ofConfig (c.setSeverity rule severity) rules).config.isEnabled r.name =
    c.isEnabled r.name := Config.isEnabled_setSeverity
  have adjusted (v : Violation) :
      ((ofConfig (c.setSeverity rule severity) rules).adjust r v).severity =
        (if r.name = rule then severity else c.severity? r.name).getD v.severity := by
    rw [← Config.severity?_setSeverity]
    rfl
  cases he : c.isEnabled r.name with
  | false =>
    rw [runRule_of_disabled he, runRule_of_disabled (enabled.trans he)]
    exact .nil
  | true =>
    rw [runRule_of_enabled he, runRule_of_enabled (enabled.trans he),
      List.forall₂_map_left_iff, List.forall₂_map_right_iff]
    refine List.forall₂_same.2 ?_
    intro v hv
    obtain ⟨name, own⟩ := Rule.of_mem_run hv
    refine ⟨rfl, ?other, ?graded⟩
    case other =>
      intro hne
      have hne' : r.name ≠ rule := fun h => hne (name.trans h)
      rw [adjusted, if_neg hne']
      rfl
    case graded =>
      intro heq
      have heq' : r.name = rule := name.symm.trans heq
      exact ⟨r, hr, heq', by rw [adjusted, if_pos heq', own]⟩

end Analysis

/-! ## Reports -/

namespace Violation

/-- The order of a report: by file, line and column. -/
def le (v w : Violation) : Bool :=
  v.location.le w.location

theorem le_trans (u v w : Violation) (h : u.le v = true) (h' : v.le w = true) : u.le w = true :=
  Location.le_trans _ _ _ h h'

theorem le_total (v w : Violation) : (v.le w || w.le v) = true :=
  Location.le_total _ _

end Violation

/-- Lists that go together, and whose elements compare alike, go together when they are sorted. -/
theorem forall₂_mergeSort {α β : Type} {R : α → β → Prop} {le : α → α → Bool} {le' : β → β → Bool}
    {l : List α} {l' : List β} (h : List.Forall₂ R l l')
    (alike : ∀ a b c d, R a b → R c d → le a c = le' b d) :
    List.Forall₂ R (l.mergeSort le) (l'.mergeSort le') := by
  have each : ∀ q ∈ l.zip l', R q.1 q.2 := fun q hq => List.forall₂_zip h hq
  have fst : (l.zip l').map Prod.fst = l := List.map_fst_zip (Nat.le_of_eq h.length_eq)
  have snd : (l.zip l').map Prod.snd = l' := List.map_snd_zip (Nat.le_of_eq h.length_eq.symm)
  -- Both sorts do what the sort of the pairs does.
  have left : ((l.zip l').mergeSort fun q q' => le q.1 q'.1).map Prod.fst =
      ((l.zip l').map Prod.fst).mergeSort le := List.map_mergeSort fun _ _ _ _ => rfl
  have right : ((l.zip l').mergeSort fun q q' => le q.1 q'.1).map Prod.snd =
      ((l.zip l').map Prod.snd).mergeSort le' :=
    List.map_mergeSort fun q hq q' hq' => alike _ _ _ _ (each q hq) (each q' hq')
  rw [fst] at left
  rw [snd] at right
  rw [← left, ← right, List.forall₂_map_left_iff, List.forall₂_map_right_iff]
  exact List.forall₂_same.2 fun q hq => each q (List.mem_mergeSort.1 hq)

namespace Analysis

variable {c : Config} {rules : List Rule} {rule : String} {severity : Option Severity}

theorem run_sorted (a : Analysis) (p : Program) :
    (a.run p).violations.Pairwise fun v w => v.le w = true :=
  List.pairwise_mergeSort Violation.le_trans Violation.le_total ((a.contexts p).flatMap a.runFile)

theorem runFile_disable (ctx : FileContext) : (ofConfig (c.disable rule) rules).runFile ctx =
    ((ofConfig c rules).runFile ctx).filter fun v => v.rule != rule := by
  rw [runFile, runFile, List.filter_flatMap]
  exact congrArg (List.flatMap · rules) (funext (runRule_disable ctx))

theorem runFile_setSeverity (ctx : FileContext) :
    List.Forall₂ (Violation.Regraded rules rule severity) ((ofConfig c rules).runFile ctx)
      ((ofConfig (c.setSeverity rule severity) rules).runFile ctx) := by
  have all : List.Forall₂ (fun r r' => r = r' ∧ r ∈ rules) rules rules :=
    List.forall₂_same.2 fun r hr => ⟨rfl, hr⟩
  refine List.rel_flatMap all ?_
  rintro r r' ⟨rfl, hr⟩
  exact runRule_setSeverity ctx hr

theorem run_disable (c : Config) (rules : List Rule) (rule : String) (p : Program) :
    (ofConfig (c.disable rule) rules).run p =
      { (ofConfig c rules).run p with
        violations := ((ofConfig c rules).run p).violations.filter fun v => v.rule != rule } := by
  let contexts := (ofConfig c rules).contexts p
  have files : contexts.flatMap (ofConfig (c.disable rule) rules).runFile =
      (contexts.flatMap (ofConfig c rules).runFile).filter fun v => v.rule != rule := by
    rw [List.filter_flatMap]
    exact congrArg contexts.flatMap (funext runFile_disable)
  have sorted : (contexts.flatMap (ofConfig (c.disable rule) rules).runFile).mergeSort
        Violation.le =
      ((contexts.flatMap (ofConfig c rules).runFile).mergeSort Violation.le).filter
        fun v => v.rule != rule := by
    rw [files, mergeSort_filter Violation.le_trans Violation.le_total]
  exact congrArg (Report.mk · contexts.length) sorted

theorem run_setSeverity (c : Config) (rules : List Rule) (rule : String)
    (severity : Option Severity) (p : Program) :
    List.Forall₂ (Violation.Regraded rules rule severity) ((ofConfig c rules).run p).violations
        ((ofConfig (c.setSeverity rule severity) rules).run p).violations ∧
      ((ofConfig (c.setSeverity rule severity) rules).run p).filesChecked =
        ((ofConfig c rules).run p).filesChecked := by
  let contexts := (ofConfig c rules).contexts p
  have files : List.Forall₂ (Violation.Regraded rules rule severity)
      (contexts.flatMap (ofConfig c rules).runFile)
      (contexts.flatMap (ofConfig (c.setSeverity rule severity) rules).runFile) := by
    refine List.rel_flatMap (List.forall₂_same.2 fun ctx _ => (rfl : ctx = ctx)) ?_
    rintro ctx ctx' rfl
    exact runFile_setSeverity ctx
  have alike (v w v' w' : Violation) (h : Violation.Regraded rules rule severity v w)
      (h' : Violation.Regraded rules rule severity v' w') : v.le v' = w.le w' := by
    rw [h.same, h'.same]
    rfl
  exact ⟨forall₂_mergeSort files alike, rfl⟩

/--
The report is in order of place. Without a rule it is the same report without the violations of
that rule, and another severity for a rule changes no more than the severity of its violations.
-/
theorem run_independent (c : Config) (rules : List Rule) (p : Program) :
    (((ofConfig c rules).run p).violations.Pairwise fun v w => v.le w = true) ∧
    (∀ rule, (ofConfig (c.disable rule) rules).run p =
      { (ofConfig c rules).run p with
        violations := ((ofConfig c rules).run p).violations.filter fun v => v.rule != rule }) ∧
    ∀ rule severity,
      List.Forall₂ (Violation.Regraded rules rule severity) ((ofConfig c rules).run p).violations
          ((ofConfig (c.setSeverity rule severity) rules).run p).violations ∧
        ((ofConfig (c.setSeverity rule severity) rules).run p).filesChecked =
          ((ofConfig c rules).run p).filesChecked :=
  ⟨run_sorted _ p, fun rule => run_disable c rules rule p,
    fun rule severity => run_setSeverity c rules rule severity p⟩

end Analysis
end ApiConventions
