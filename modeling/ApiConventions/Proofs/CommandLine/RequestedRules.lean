import Mathlib.Data.List.Basic
import ApiConventions.CommandLine.Run
import ApiConventions.Model.Encode
import ApiConventions.Proofs.RuleSettings

/-!
# ApiConventions.Proofs.CommandLine.RequestedRules

The rules that a check is asked for. An entry of the list asks for the rule that it names or codes,
and the check builds a rule for every such entry. So a rule that is asked for more than once is
built more than once, and each of its violations is reported as many times.
-/

namespace ApiConventions

/-- The entry is the name or the code of the rule. -/
def RuleId.isNamed (id : RuleId) (entry : String) : Bool :=
  entry == id.name || entry == id.code

namespace CommandLine

variable {config : Config} {list entry : String} {id : RuleId} {ids : List RuleId}
  {rules : List Rule} {v : Violation}

/-- The entries of a list with commas, without the blanks around them. -/
def entries (list : String) : List String :=
  (Text.fieldsOf ',' list).map Text.trimmed

/-- The number of times that a list asks for a rule. -/
def requests (list : String) (id : RuleId) : Nat :=
  (entries list).countP id.isNamed

/-- The number of entries in front of the first one that asks for a rule. -/
def firstRequest (list : String) (id : RuleId) : Nat :=
  (entries list).findIdx id.isNamed

/-! ## Names -/

theorem ofNameOrCode?_of_isNamed (h : id.isNamed entry = true) :
    RuleId.ofNameOrCode? entry = some id := by
  rw [RuleId.isNamed, Bool.or_eq_true, beq_iff_eq, beq_iff_eq] at h
  rcases h with rfl | rfl <;> cases id <;> decide +kernel

/-- An entry asks for one rule at most. -/
theorem isNamed_eq (id : RuleId) : id.isNamed = (RuleId.ofNameOrCode? · == some id) := by
  funext entry
  rw [Bool.eq_iff_iff, beq_iff_eq]
  refine ⟨ofNameOrCode?_of_isNamed, fun found => ?_⟩
  have named := List.find?_some found
  rw [RuleId.isNamed, Bool.or_eq_true, beq_iff_eq, beq_iff_eq]
  rw [Bool.or_eq_true, beq_iff_eq, beq_iff_eq] at named
  exact named.symm.imp Eq.symm Eq.symm

theorem ofNameOrCode?_name (id : RuleId) : RuleId.ofNameOrCode? id.name = some id :=
  ofNameOrCode?_of_isNamed (by simp [RuleId.isNamed])

theorem name_inj {other : RuleId} (h : id.name = other.name) : id = other := by
  have same := ofNameOrCode?_name id
  rw [h, ofNameOrCode?_name other] at same
  exact (Option.some.inj same).symm

theorem id_rule [RegexLibrary] (config : Config) (id : RuleId) : (config.rule id).id = id := by
  cases id <;> rfl

/-! ## Rules -/

/-- The rules that the entries ask for, in the order of the entries. -/
def requestedIds (list : String) : List RuleId :=
  (entries list).filterMap RuleId.ofNameOrCode?

theorem rulesFor_eq [RegexLibrary] (config : Config) (list : String) :
    rulesFor config (some list) = .ok ((requestedIds list).map config.rule) := by
  have empty (entry : String) : (if (!entry.isEmpty) = true then RuleId.ofNameOrCode? entry
      else none) = RuleId.ofNameOrCode? entry := by
    split
    · rfl
    · rename_i blank
      have same : entry = "" := by simpa using blank
      rw [same]
      decide +kernel
  simp only [rulesFor, Config.rulesNamed, requestedNames, requestedIds, entries,
    List.filterMap_filter, empty]

theorem count_requestedIds (list : String) (id : RuleId) :
    (requestedIds list).count id = requests list id := by
  rw [requestedIds, List.count_filterMap, requests, isNamed_eq]

theorem mem_requestedIds : id ∈ requestedIds list ↔ 0 < requests list id := by
  rw [← count_requestedIds, List.count_pos_iff]

/-- Of two things that are looked for, the same one is found first after a `filterMap`. -/
theorem findIdx_filterMap_lt_iff {α β : Type} [BEq β] {f : α → Option β} {b b' : β} (l : List α) :
    (l.filterMap f).findIdx (· == b) < (l.filterMap f).findIdx (· == b') ↔
      l.findIdx (f · == some b) < l.findIdx (f · == some b') := by
  induction l with
  | nil => rfl
  | cons a l ih =>
    cases found : f a with
    | none =>
      rw [List.filterMap_cons_none found, List.findIdx_cons, List.findIdx_cons, found, ih]
      exact Nat.succ_lt_succ_iff.symm
    | some c =>
      rw [List.filterMap_cons_some found]
      simp only [List.findIdx_cons, found, Option.some_beq_some]
      cases c == b <;> cases c == b' <;> simp only [cond_true, cond_false, Nat.add_lt_add_iff_right,
        Nat.not_lt_zero, Nat.succ_pos, ih]

theorem findIdx_requestedIds {other : RuleId} :
    (requestedIds list).findIdx (· == id) < (requestedIds list).findIdx (· == other) ↔
      firstRequest list id < firstRequest list other := by
  rw [requestedIds, findIdx_filterMap_lt_iff, firstRequest, firstRequest, isNamed_eq, isNamed_eq]

/-! ## Violations -/

theorem count_flatMap_of_mul {α β : Type} [BEq β] {f g : α → List β} {b : β} {n : Nat}
    (h : ∀ a, (f a).count b = n * (g a).count b) (l : List α) :
    (l.flatMap f).count b = n * (l.flatMap g).count b := by
  induction l with
  | nil => rfl
  | cons a l ih =>
    rw [List.flatMap_cons, List.flatMap_cons, List.count_append, List.count_append, h, ih,
      Nat.mul_add]

/-- A violation of a rule occurs among those of its rule only, and once for every time it runs. -/
theorem count_runFile [RegexLibrary] (ctx : FileContext) (ofRule : v.rule = id.name)
    (ids : List RuleId) :
    ((Analysis.ofConfig config (ids.map config.rule)).runFile ctx).count v =
      ids.count id * ((Analysis.ofConfig config [config.rule id]).runFile ctx).count v := by
  let found (id : RuleId) := (Analysis.ofConfig config []).runRule ctx (config.rule id)
  have runFile_eq (ids : List RuleId) :
      (Analysis.ofConfig config (ids.map config.rule)).runFile ctx = ids.flatMap found :=
    List.flatMap_map ..
  have absent {other : RuleId} (h : other ≠ id) : (found other).count v = 0 := by
    refine List.count_eq_zero_of_not_mem fun mem => h (name_inj ?_)
    have name := Analysis.rule_of_mem_runRule mem
    rw [ofRule, Rule.name, id_rule] at name
    exact name.symm
  have alone := runFile_eq [id]
  rw [List.flatMap_singleton] at alone
  rw [runFile_eq, ← List.map_singleton, alone]
  induction ids with
  | nil => simp
  | cons other ids ih =>
    rw [List.flatMap_cons, List.count_append, ih]
    by_cases same : other = id
    · rw [same, List.count_cons_self, Nat.add_mul, Nat.one_mul, Nat.add_comm]
    · rw [absent same, List.count_cons_of_ne same, Nat.zero_add]

theorem count_violations_run (a : Analysis) (p : Program) :
    (a.run p).violations.count v = ((a.contexts p).flatMap a.runFile).count v :=
  (List.mergeSort_perm _ _).count_eq v

theorem count_run [RegexLibrary] (config : Config) (p : Program) (ofRule : v.rule = id.name)
    (ids : List RuleId) :
    ((Analysis.ofConfig config (ids.map config.rule)).run p).violations.count v =
      ids.count id * ((Analysis.ofConfig config [config.rule id]).run p).violations.count v := by
  rw [count_violations_run, count_violations_run]
  exact count_flatMap_of_mul (fun ctx => count_runFile ctx ofRule ids) _

/-! ## Checks -/

section Check

variable {s : Surroundings} {given : Option String} {request : CheckRequest}

/-- The packages that are read do not depend on the rules. -/
theorem exists_runDirectory_eq (config : Config) (fs : FileSystem) (path : String)
    (filter : FileFilter) (strict : Bool) :
    ∃ packages? : Except AnalysisError (List Package), ∀ rules,
      (Analysis.ofConfig config rules).runDirectory fs path filter strict =
        packages?.map fun packages => (Analysis.ofConfig config rules).run ⟨packages⟩ := by
  cases found : PackageDump.discover? fs path filter config.analyzer.respectGitignore with
  | none => exact ⟨.error .noSuchPath, fun rules => by
      simp only [Analysis.runDirectory, Analysis.ofConfig, found]; rfl⟩
  | some dumps => exact ⟨PackageDump.packages strict dumps, fun rules => by
      simp only [Analysis.runDirectory, Analysis.ofConfig, found]⟩

theorem check_of_rules [RegexLibrary] (request : CheckRequest)
    (loaded : loadConfig s given request.path = .ok config)
    (selected : rulesFor config request.rules = .ok rules) (any : rules ≠ []) :
    check s given request =
      match config.threshold with
      | .error _ => .error .threshold
      | .ok threshold =>
        match FileFilter.ofConfig? config request.exclude [] with
        | none => .error .globs
        | some filter =>
          match (Analysis.ofConfig config rules).runDirectory s.files request.path filter false with
          | .error cause => .error (.analysis cause)
          | .ok report => .ok (report, !report.hasAtLeast threshold) := by
  rw [check, loaded]
  simp only [selected]
  cases config.threshold with
  | error _ => rfl
  | ok threshold =>
    cases rules with
    | nil => contradiction
    | cons r rs => rfl

theorem requestedIds_name (id : RuleId) : requestedIds id.name = [id] := by
  cases id <;> decide +kernel

theorem count_check [RegexLibrary] (ofRule : v.rule = id.name)
    (requested : 0 < requests list id) :
    (check s given { request with rules := some list }).map (·.1.violations.count v) =
      (check s given { request with rules := some id.name }).map
        (requests list id * ·.1.violations.count v) := by
  cases loaded : loadConfig s given request.path with
  | error failure => simp only [check, loaded]; rfl
  | ok config =>
    have any : (requestedIds list).map config.rule ≠ [] := by
      simpa using List.ne_nil_of_mem (mem_requestedIds.2 requested)
    have alone : rulesFor config (some id.name) = .ok [config.rule id] := by
      rw [rulesFor_eq, requestedIds_name, List.map_singleton]
    rw [check_of_rules { request with rules := some list } loaded (rulesFor_eq config list) any,
      check_of_rules { request with rules := some id.name } loaded alone (List.cons_ne_nil _ _)]
    cases config.threshold with
    | error _ => rfl
    | ok threshold =>
      cases FileFilter.ofConfig? config request.exclude [] with
      | none => rfl
      | some filter =>
        obtain ⟨packages?, reads⟩ :=
          exists_runDirectory_eq config s.files request.path filter false
        simp only [reads]
        cases packages? with
        | error cause => rfl
        | ok packages =>
          have counts := count_run config ⟨packages⟩ ofRule (requestedIds list)
          rw [count_requestedIds] at counts
          exact congrArg Except.ok counts

end Check

/--
The rules of a check that is asked for a list. Each is built from its own section as often as the
list asks for it, so once only if it is asked for once, and there are no others. They come in the
order in which they are first asked for. A violation is reported as often as the check of its rule
alone reports it, times the number of requests for the rule.
-/
theorem rules_as_requested [RegexLibrary] (list : String) :
    (∀ config, ∃ rules, rulesFor config (some list) = .ok rules ∧
      (∀ r, r ∈ rules ↔ ∃ id, 0 < requests list id ∧
        r = Rule.ofConfig id ((config.section? id.name).getD {})) ∧
      (∀ id, rules.countP (·.id == id) = requests list id) ∧
      ∀ id other, rules.findIdx (·.id == id) < rules.findIdx (·.id == other) ↔
        firstRequest list id < firstRequest list other) ∧
    ∀ (s : Surroundings) given (request : CheckRequest) (v : Violation) (id : RuleId),
      v.rule = id.name → 0 < requests list id →
      (check s given { request with rules := some list }).map (·.1.violations.count v) =
        (check s given { request with rules := some id.name }).map
          (requests list id * ·.1.violations.count v) := by
  refine ⟨fun config => ⟨_, rulesFor_eq config list, ?rules, ?counts, ?order⟩,
    fun _ _ _ _ _ ofRule requested => count_check ofRule requested⟩
  case rules =>
    intro r
    rw [List.mem_map]
    exact exists_congr fun id => and_congr mem_requestedIds eq_comm
  case counts =>
    intro id
    rw [List.countP_map, ← count_requestedIds, List.count]
    exact List.countP_congr fun other _ => by rw [Function.comp, id_rule]
  case order =>
    intro id other
    rw [List.findIdx_map, List.findIdx_map, ← findIdx_requestedIds]
    simp only [Function.comp_def, id_rule]

namespace PodClaim

/-! ## A reference to a pod -/

def reference : Field where
  name := some "PodReference"
  pos := ⟨4, 2⟩
  doc := []
  type := .ident "string" none []
  tag := some "json:\"podReference\""

def claim : TypeDecl where
  name := "Claim"
  pos := ⟨3, 6⟩
  doc := []
  isAlias := false
  params := []
  type := .struct [reference]

def package : Package := ⟨"example.com/api", "api", [{ path := "api/claim.go", decls := [claim] }]⟩

def spelledOut : Violation where
  code := "KAL004"
  rule := "noreferences"
  severity := .warning
  location := ⟨"api/claim.go", 4, 2⟩
  message := "field PodReference: field names should use 'Ref' instead of 'Reference'"

/-- The package where the check runs. -/
def surroundings : Surroundings where
  files :=
    { workingDirectory := ["api"]
      files := [(["api", "api.json"], some (package.toJson.compress))] }
  environment := []

/-- With blanks, an empty entry and one that is no rule, and no more requests than one for a rule. -/
theorem rules_as_requested_mixed :
    (∃ rules, rulesFor {} (some " KAL004, bogus ,nomaps,,") = .ok rules ∧
      rules.countP (·.id == .noReferences) = 1 ∧ rules.countP (·.id == .noMaps) = 1 ∧
      rules.findIdx (·.id == .noReferences) < rules.findIdx (·.id == .noMaps)) ∧
    (check surroundings none { rules := some " KAL004, bogus ,nomaps,," }).map
        (·.1.violations.count spelledOut) =
      (check surroundings none { rules := some "noreferences" }).map
        (1 * ·.1.violations.count spelledOut) := by
  have references : requests " KAL004, bogus ,nomaps,," .noReferences = 1 := by decide +kernel
  obtain ⟨selected, reported⟩ := rules_as_requested " KAL004, bogus ,nomaps,,"
  obtain ⟨rules, equal, -, counts, order⟩ := selected {}
  refine ⟨⟨rules, equal, (counts _).trans references, (counts _).trans ?maps,
    (order _ _).2 ?first⟩, ?_⟩
  case maps => decide +kernel
  case first => decide +kernel
  have same := reported surroundings none {} spelledOut .noReferences rfl (by decide +kernel)
  rw [references] at same
  exact same

/-- By its name and by its code, a rule is built twice, and its one violation is reported twice. -/
theorem built_twice :
    (∃ rules, rulesFor {} (some "noreferences,KAL004") = .ok rules ∧
      rules.countP (·.id == .noReferences) = 2 ∧
      ((Analysis.ofConfig {} rules).run ⟨[package]⟩).violations.count spelledOut = 2) ∧
    ∃ rules, rulesFor {} (some "noreferences") = .ok rules ∧
      ((Analysis.ofConfig {} rules).run ⟨[package]⟩).violations.count spelledOut = 1 := by
  refine ⟨⟨_, rulesFor_eq _ _, by decide +kernel, ?twice⟩, _, rulesFor_eq _ _, ?once⟩
  all_goals
    rw [count_violations_run]
    decide +kernel

end PodClaim

end CommandLine
end ApiConventions
