import Opsia.Graph.ResourceGraph

/-!
# Selectors on labels that are not all known

Where labels may be missing, a selector may be unknown; where it is not, no label that turns up later
changes its result (`selectorResult_stays`). On complete labels a selector that Kubernetes
takes is never unknown, and it matches what Kubernetes selects (`selectorResult_of_reads`).
-/

namespace Opsia.Graph

/-! ## What Kubernetes selects -/

inductive SelectorOperator where
  | isIn | isNotIn | exists | doesNotExist
  deriving DecidableEq

def SelectorOperator.name : SelectorOperator → String
  | .isIn => "In"
  | .isNotIn => "NotIn"
  | .exists => "Exists"
  | .doesNotExist => "DoesNotExist"

structure SelectorExpression where
  key : String
  operator : SelectorOperator
  values : List String

/-- A label selector; a plain map of labels has no expressions. -/
structure LabelSelector where
  matchLabels : Labels
  matchExpressions : List SelectorExpression

/-- The expression accepts a label; an absent one is in no list. -/
def SelectorExpression.Accepts (expression : SelectorExpression) (label : Option String) : Prop :=
  match expression.operator with
  | .isIn => ∃ value ∈ expression.values, label = some value
  | .isNotIn => ∀ value ∈ expression.values, label ≠ some value
  | .exists => label ≠ none
  | .doesNotExist => label = none

instance (expression : SelectorExpression) (label : Option String) :
    Decidable (expression.Accepts label) := by
  unfold SelectorExpression.Accepts
  cases expression.operator
  all_goals infer_instance

/-- All of its requirements accept the labels. -/
def LabelSelector.Accepts (selector : LabelSelector) (labels : Labels) : Prop :=
  (∀ pair ∈ selector.matchLabels, labels.lookup pair.1 = some pair.2) ∧
    ∀ expression ∈ selector.matchExpressions,
      expression.Accepts (labels.lookup expression.key)

instance (selector : LabelSelector) (labels : Labels) : Decidable (selector.Accepts labels) :=
  inferInstanceAs (Decidable (_ ∧ _))

/-- `In` and `NotIn` have values, the others have none; a key has no blanks around it. -/
def SelectorExpression.WellFormed (expression : SelectorExpression) : Prop :=
  (expression.key ≠ "" ∧ PyText.strip expression.key = expression.key) ∧
    match expression.operator with
    | .isIn | .isNotIn => expression.values ≠ []
    | .exists | .doesNotExist => expression.values = []

/-- The fields are those of the expression; no values may be left out. -/
def SelectorExpression.Reads (expression : SelectorExpression) (value : PyValue) : Prop :=
  ∃ fields, value = .dict fields ∧ fields.lookup "key" = some (.str expression.key) ∧
    fields.lookup "operator" = some (.str expression.operator.name) ∧
    (fields.lookup "values").getD (.list []) = .list (expression.values.map .str)

/-- The labels of a mapping. -/
def labelFields (labels : Labels) : Fields := labels.map fun pair => (pair.1, .str pair.2)

/-- The fields are those of the selector, as a map of labels or as a label selector; what is empty
may be left out. -/
def LabelSelector.Reads (selector : LabelSelector) (fields : Fields) (structured : Bool) : Prop :=
  if structured then
    (∀ field ∈ fields, field.1 = "matchLabels" ∨ field.1 = "matchExpressions") ∧
    (fields.lookup "matchLabels").getD (.dict []) = .dict (labelFields selector.matchLabels) ∧
    ∃ expressions, (fields.lookup "matchExpressions").getD (.list []) = .list expressions ∧
      List.Forall₂ SelectorExpression.Reads selector.matchExpressions expressions
  else fields = labelFields selector.matchLabels ∧ selector.matchExpressions = []

/-! ## Later labels -/

/-- The labels, and maybe more. -/
def Completion (labels complete : Labels) : Prop :=
  ∀ key value, labels.lookup key = some value → complete.lookup key = some value

/-- A result that tells something is the later result. -/
def SelectorResult.Stays (result later : SelectorResult) : Prop :=
  result = .unknown ∨ later = result

variable {env : GraphEnv} {labels complete : Labels}

theorem equalsRequirement_stays (h : Completion labels complete) (key value : String) :
    (equalsRequirement key value labels false).Stays (equalsRequirement key value complete true) := by
  rw [equalsRequirement, equalsRequirement]
  cases hlabel : labels.lookup key with
  | none => exact .inl rfl
  | some label =>
    rw [h key label hlabel]
    exact .inr rfl

theorem operatorResult_stays (h : Completion labels complete) (operator key : String)
    (values : List String) : (operatorResult operator values (labels.lookup key) false).Stays
      (operatorResult operator values (complete.lookup key) true) := by
  cases hlabel : labels.lookup key with
  | none =>
    -- nothing is told of a label that is not there
    left
    simp [operatorResult]
  | some label =>
    rw [h key label hlabel]
    right
    unfold operatorResult
    rfl

theorem expressionResult_stays (h : Completion labels complete) (expression : PyValue) :
    (expressionResult env expression labels false).Stays
      (expressionResult env expression complete true) := by
  cases expression with
  | dict fields =>
    simp only [expressionResult]
    split
    · exact operatorResult_stays h _ _ _
    · exact .inl rfl
  | _ => exact .inl rfl

theorem combinedResult_some (results : List SelectorResult) : combinedResult (some results) =
    if .noMatch ∈ results then .noMatch
    else if results = [] ∨ .unknown ∈ results then .unknown
    else .isMatch := by
  cases results with
  | nil => rfl
  | cons result results =>
    simp only [combinedResult, List.cons_ne_nil, false_or]

variable {results later : List SelectorResult}

theorem noMatch_mem_of_stays (h : List.Forall₂ SelectorResult.Stays results later)
    (hmem : .noMatch ∈ results) :
    .noMatch ∈ later := by
  induction h with
  | nil => cases hmem
  | cons hstays hrest ih =>
    rcases List.mem_cons.mp hmem with rfl | hmem
    · rcases hstays with hstays | rfl
      · cases hstays
      · exact List.mem_cons_self
    · exact List.mem_cons_of_mem _ (ih hmem)

theorem eq_of_stays (h : List.Forall₂ SelectorResult.Stays results later)
    (hmem : .unknown ∉ results) :
    later = results := by
  induction h with
  | nil => rfl
  | cons hstays hrest ih =>
    rw [List.mem_cons, not_or] at hmem
    rcases hstays with hstays | rfl
    · exact absurd hstays.symm hmem.1
    · rw [ih hmem.2]

theorem combinedResult_stays (h : List.Forall₂ SelectorResult.Stays results later) :
    (combinedResult (some results)).Stays (combinedResult (some later)) := by
  rw [combinedResult_some, combinedResult_some]
  by_cases hno : .noMatch ∈ results
  · -- one requirement that does not match settles it
    rw [if_pos hno, if_pos (noMatch_mem_of_stays h hno)]
    exact .inr rfl
  rw [if_neg hno]
  by_cases hunknown : results = [] ∨ .unknown ∈ results
  · rw [if_pos hunknown]
    exact .inl rfl
  · obtain rfl := eq_of_stays h (not_or.mp hunknown).2
    rw [if_neg hno]
    exact .inr rfl

theorem forall₂_map_same {α : Type} {f g : α → SelectorResult} (items : List α)
    (h : ∀ item, (f item).Stays (g item)) :
    List.Forall₂ SelectorResult.Stays (items.map f) (items.map g) := by
  rw [List.forall₂_map_left_iff, List.forall₂_map_right_iff]
  exact List.forall₂_same.mpr fun item _ => h item

/-- **What a selector tells of some labels, it tells of all of them.** -/
theorem selectorResult_stays (h : Completion labels complete) (selector : Fields)
    (structured : Bool) : (selectorResult env selector labels false structured).Stays
      (selectorResult env selector complete true structured) := by
  have hequals : ∀ fields : Fields, List.Forall₂ SelectorResult.Stays
      (fields.map fun field => equalsRequirement field.1 (env.str field.2) labels false)
      (fields.map fun field => equalsRequirement field.1 (env.str field.2) complete true) :=
    fun fields => forall₂_map_same fields fun field => equalsRequirement_stays h _ _
  simp only [selectorResult, selectorRequirements]
  cases structured with
  | false => exact combinedResult_stays (hequals selector)
  | true =>
    simp only [if_true]
    split
    · exact .inl rfl
    split
    · exact combinedResult_stays (List.rel_append (hequals _)
        (forall₂_map_same _ (expressionResult_stays h)))
    · exact .inl rfl

/-! ## Complete labels -/

theorem combinedResult_of_known (hne : results ≠ []) (h : .unknown ∉ results) :
    combinedResult (some results) =
      if ∀ result ∈ results, result = .isMatch then .isMatch else .noMatch := by
  rw [combinedResult_some]
  by_cases hno : .noMatch ∈ results
  · rw [if_pos hno, if_neg fun hall => by cases hall _ hno]
  · rw [if_neg hno, if_neg (not_or.mpr ⟨hne, h⟩), if_pos]
    intro result hmem
    cases result with
    | isMatch => rfl
    | noMatch => exact absurd hmem hno
    | unknown => exact absurd hmem h

theorem equalsRequirement_complete (key value : String) (labels : Labels) :
    equalsRequirement key value labels true =
      if labels.lookup key = some value then .isMatch else .noMatch := by
  rw [equalsRequirement]
  cases labels.lookup key with
  | none => rfl
  | some label => simp

theorem operatorResult_complete {expression : SelectorExpression} (h : expression.WellFormed)
    (label : Option String) :
    operatorResult expression.operator.name expression.values label true =
      if expression.Accepts label then .isMatch else .noMatch := by
  obtain ⟨key, operator, values⟩ := expression
  obtain ⟨-, hvalues⟩ := h
  cases operator with
  | isIn =>
    have hvalues : values ≠ [] := hvalues
    cases label with
    | none => simp [operatorResult, SelectorOperator.name, SelectorExpression.Accepts, hvalues]
    | some label => simp [operatorResult, SelectorOperator.name, SelectorExpression.Accepts, hvalues]
  | isNotIn =>
    have hvalues : values ≠ [] := hvalues
    cases label with
    | none => simp [operatorResult, SelectorOperator.name, SelectorExpression.Accepts, hvalues]
    | some label =>
      have hnot : (∀ value ∈ values, some label ≠ some value) ↔ label ∉ values :=
        ⟨fun h hmem => h label hmem rfl, fun h value hmem he => h (Option.some.inj he ▸ hmem)⟩
      simp only [operatorResult, SelectorOperator.name, SelectorExpression.Accepts, hvalues, hnot]
      simp
  | «exists» =>
    have hvalues : values = [] := hvalues
    cases label with
    | none => simp [operatorResult, SelectorOperator.name, SelectorExpression.Accepts, hvalues]
    | some label => simp [operatorResult, SelectorOperator.name, SelectorExpression.Accepts, hvalues]
  | doesNotExist =>
    have hvalues : values = [] := hvalues
    cases label with
    | none => simp [operatorResult, SelectorOperator.name, SelectorExpression.Accepts, hvalues]
    | some label => simp [operatorResult, SelectorOperator.name, SelectorExpression.Accepts, hvalues]

theorem optionalField_of_lookup (hstr : ∀ s, env.str (.str s) = s) {fields : Fields}
    {field text : String} (h : fields.lookup field = some (.str text)) (hne : text ≠ "")
    (hstrip : PyText.strip text = text) : optionalField env fields field = some text := by
  have hsome : optionalText (some text) = some text := by
    rw [optionalText, Option.getD_some, hstrip]
    exact if_neg hne
  simp only [optionalField, h, PyValue.isNone, Bool.false_eq_true, if_false, hstr, hsome]

theorem expressionResult_complete (hstr : ∀ s, env.str (.str s) = s)
    {expression : SelectorExpression} (h : expression.WellFormed) {value : PyValue}
    (hreads : expression.Reads value) (labels : Labels) :
    expressionResult env value labels true =
      if expression.Accepts (labels.lookup expression.key) then .isMatch else .noMatch := by
  obtain ⟨fields, rfl, hkey, hoperator, hvalues⟩ := hreads
  have hname : expression.operator.name ≠ "" ∧
      PyText.strip expression.operator.name = expression.operator.name := by
    cases expression.operator <;> decide
  have htexts : (expression.values.map PyValue.str).map env.str = expression.values := by
    rw [List.map_map]
    exact (List.map_congr_left fun value _ => hstr value).trans (List.map_id _)
  simp only [expressionResult, optionalField_of_lookup hstr hkey h.1.1 h.1.2,
    optionalField_of_lookup hstr hoperator hname.1 hname.2, hvalues, htexts]
  exact operatorResult_complete h _

theorem expressionResults_complete (hstr : ∀ s, env.str (.str s) = s)
    {expressions : List SelectorExpression} {values : List PyValue}
    (h : ∀ expression ∈ expressions, expression.WellFormed)
    (hreads : List.Forall₂ SelectorExpression.Reads expressions values) (labels : Labels) :
    (values.map fun value => expressionResult env value labels true) =
      expressions.map fun expression =>
        if expression.Accepts (labels.lookup expression.key) then .isMatch else .noMatch := by
  induction hreads with
  | nil => rfl
  | cons hread hrest ih =>
    obtain ⟨hformed, hall⟩ := List.forall_mem_cons.mp h
    rw [List.map_cons, List.map_cons, ih hall, expressionResult_complete hstr hformed hread]

theorem equalsResults_complete (hstr : ∀ s, env.str (.str s) = s) (matchLabels labels : Labels) :
    ((labelFields matchLabels).map fun field =>
      equalsRequirement field.1 (env.str field.2) labels true) =
      matchLabels.map fun pair =>
        if labels.lookup pair.1 = some pair.2 then .isMatch else .noMatch := by
  rw [labelFields, List.map_map]
  refine List.map_congr_left fun pair _ => ?_
  rw [Function.comp_apply, hstr, equalsRequirement_complete]

/-- **What the requirements of a selector say of complete labels.** -/
theorem selectorRequirements_complete (hstr : ∀ s, env.str (.str s) = s) {selector : LabelSelector}
    (h : ∀ expression ∈ selector.matchExpressions, expression.WellFormed) {fields : Fields}
    {structured : Bool} (hreads : selector.Reads fields structured) (labels : Labels) :
    selectorRequirements env fields labels true structured = some
      ((selector.matchLabels.map fun pair =>
          if labels.lookup pair.1 = some pair.2 then .isMatch else .noMatch) ++
        selector.matchExpressions.map fun expression =>
          if expression.Accepts (labels.lookup expression.key) then .isMatch else .noMatch) := by
  cases structured with
  | false =>
    obtain ⟨rfl, hnone⟩ := hreads
    simp only [selectorRequirements, Bool.false_eq_true, if_false, equalsResults_complete hstr,
      hnone, List.map_nil, List.append_nil]
  | true =>
    obtain ⟨hfields, hlabels, values, hvalues, hexpressions⟩ := hreads
    have hknown : (fields.any fun field => field.1 ∉ ["matchLabels", "matchExpressions"]) = false := by
      rw [List.any_eq_false]
      intro field hfield
      rcases hfields field hfield with he | he <;> simp [he]
    simp only [selectorRequirements, if_true, hknown, Bool.false_eq_true, if_false, hlabels, hvalues,
      equalsResults_complete hstr, expressionResults_complete hstr h hexpressions]

/-- **A selector that Kubernetes takes matches what Kubernetes selects.** -/
theorem selectorResult_of_reads (hstr : ∀ s, env.str (.str s) = s) {selector : LabelSelector}
    (h : ∀ expression ∈ selector.matchExpressions, expression.WellFormed)
    (hne : selector.matchLabels ≠ [] ∨ selector.matchExpressions ≠ []) {fields : Fields}
    {structured : Bool} (hreads : selector.Reads fields structured) (labels : Labels) :
    selectorResult env fields labels true structured =
      if selector.Accepts labels then .isMatch else .noMatch := by
  have hchoice : ∀ (p : Prop) [Decidable p], (if p then SelectorResult.isMatch else .noMatch) =
      .isMatch ↔ p := by
    intro p _
    by_cases hp : p <;> simp [hp]
  rw [selectorResult, selectorRequirements_complete hstr h hreads, combinedResult_of_known]
  · refine if_congr ?_ rfl rfl
    simp only [List.forall_mem_append, List.forall_mem_map, hchoice, LabelSelector.Accepts]
  · rw [ne_eq, List.append_eq_nil_iff, List.map_eq_nil_iff, List.map_eq_nil_iff, not_and_or]
    exact hne
  · intro hmem
    rw [List.mem_append, List.mem_map, List.mem_map] at hmem
    rcases hmem with ⟨_, _, he⟩ | ⟨_, _, he⟩
    · split at he <;> cases he
    · split at he <;> cases he

/-- **A selector is evaluated soundly**: what it tells of incomplete labels it tells of every
completion, and on complete labels it tells what Kubernetes selects. -/
theorem selectors_are_sound (env : GraphEnv) (hstr : ∀ s, env.str (.str s) = s) :
    (∀ (selector : Fields) (structured : Bool) (labels complete : Labels),
      Completion labels complete →
      selectorResult env selector labels false structured ≠ .unknown →
        selectorResult env selector complete true structured =
          selectorResult env selector labels false structured) ∧
    ∀ (selector : LabelSelector) (fields : Fields) (structured : Bool) (labels : Labels),
      (∀ expression ∈ selector.matchExpressions, expression.WellFormed) →
      (selector.matchLabels ≠ [] ∨ selector.matchExpressions ≠ []) →
      selector.Reads fields structured →
        selectorResult env fields labels true structured =
          if selector.Accepts labels then .isMatch else .noMatch := by
  refine ⟨fun selector structured labels complete hcompletion hknown => ?_,
    fun selector fields structured labels h hne hreads =>
      selectorResult_of_reads hstr h hne hreads labels⟩
  exact (selectorResult_stays hcompletion selector structured).resolve_left hknown

/-- Texts of strings only. -/
def sampleGraphEnv : GraphEnv where
  casefold := id
  str value := value.str?.getD ""
  edgeDigest := id
  edgeDigest_injective := Function.injective_id
  graphDigest _ := ""

/-- A label that matched still does among others, and Pods without a label are not excluded. -/
theorem selectors_are_sound_sample :
    selectorResult sampleGraphEnv [("app", .str "web")] [("tier", "ui"), ("app", "web")] true false =
        selectorResult sampleGraphEnv [("app", .str "web")] [("app", "web")] false false ∧
      selectorResult sampleGraphEnv [("matchExpressions", .list [.dict [("key", .str "app"),
        ("operator", .str "NotIn"), ("values", .list [.str "db"])]])] [("tier", "ui")] true true =
        .isMatch := by
  have hsound := selectors_are_sound sampleGraphEnv fun _ => rfl
  constructor
  · refine hsound.1 [("app", .str "web")] false [("app", "web")] _ ?_ (by decide)
    intro key value h
    obtain rfl : key = "app" := by
      by_contra hne
      rw [List.lookup_cons, beq_eq_false_iff_ne.mpr hne] at h
      cases h
    exact h
  · refine hsound.2 ⟨[], [⟨"app", .isNotIn, ["db"]⟩]⟩ _ true [("tier", "ui")] ?_
      (.inr (List.cons_ne_nil _ _)) ⟨by simp, rfl, _, rfl, .cons ⟨_, rfl, rfl, rfl, rfl⟩ .nil⟩
    simp only [List.forall_mem_singleton, SelectorExpression.WellFormed]
    exact ⟨by decide, List.cons_ne_nil _ _⟩

end Opsia.Graph
