import Opsia.Gitops.RecoveryMerge

/-!
# Evidence of a Safe PR

`domains/release_flow/policy.py` compares the evidence of a pull request with what a release step
expects, twice: `safe_pr_evidence_matches` decides, `safe_pr_evidence_mismatch_reasons` explains.
Both go through the same `Condition`s, and each reason names one that fails; the decision asks for
one thing more, a rollback that is required to be available, and so the explanation is empty where
nothing but the rollback is missing (`explanation_agrees_iff`).
-/

namespace Opsia.Release

open Gitops (PyFields PyTexts textOf)

/-! ## What both functions read -/

/-- What `datetime.fromisoformat` makes of a text, in microseconds of UTC. -/
inductive IsoText where
  | invalid
  /-- `astimezone` raises -/
  | outOfRange
  | at (microseconds : ℤ)
  deriving DecidableEq

/-- `urlparse`, as far as it is read. -/
structure ParsedUrl where
  scheme : String
  netloc : String
  path : String

/-- The text functions of the language that are left open. -/
structure EvidenceTexts extends PyTexts where
  fromisoformat : String → IsoText
  /-- none where it raises -/
  urlparse : String → Option ParsedUrl
  unquote : String → String
  isDigit : String → Bool

/-- The instant at which the evidence is judged, and how old it may be, in microseconds. -/
structure Clock where
  now : ℤ
  maxAge : ℤ

variable (texts : EvidenceTexts) (clock : Clock) (evidence expected : PyFields)

/-- `str(fields.get(field) or "").strip()`. -/
def strippedField (fields : PyFields) (field : String) : String :=
  textOf texts.toPyTexts ((fields.lookup field).getD .none)

/-- `bool(fields.get(field))`. -/
def flag (fields : PyFields) (field : String) : Bool := ((fields.lookup field).getD .none).truthy

/-- `parse_release_window_time`; none is the exception. -/
def parseReleaseWindowTime (value : PyValue) : Option (Option ℤ) :=
  match value.str? with
  | none => some none
  | some text =>
    let raw := PyText.strip text
    if raw = "" then some none
    else
      let raw := if raw.endsWith "Z" then (raw.dropEnd 1).copy ++ "+00:00" else raw
      match texts.fromisoformat raw with
      | .invalid => some none
      | .outOfRange => none
      | .at microseconds => some (some microseconds)

/-- `APPROVAL_CLOCK_SKEW_MINUTES`, in microseconds. -/
def approvalClockSkew : ℤ := 5 * 60 * 1000000

def safePrEvidenceIsCurrent : Option Bool :=
  (parseReleaseWindowTime texts ((evidence.lookup "created_at").getD .none)).map fun createdAt =>
    match createdAt with
    | none => false
    | some createdAt =>
      if clock.now + approvalClockSkew < createdAt then false
      else decide (clock.now - createdAt ≤ clock.maxAge)

def safePrEvidenceFieldMatches (field : String) : Bool :=
  let expectedValue := strippedField texts expected field
  let evidenceValue := strippedField texts evidence field
  expectedValue = "" || evidenceValue = expectedValue

def safePrRequiredEvidenceFieldMatches (field : String) : Bool :=
  let expectedValue := strippedField texts expected field
  let evidenceValue := strippedField texts evidence field
  expectedValue ≠ "" && evidenceValue ≠ "" && evidenceValue = expectedValue

def safePrEvidencePrUrlMatchesProvider : Option Bool :=
  let provider := texts.lower (strippedField texts expected "provider")
  if provider ≠ "github" then some true
  else
    let repoRef := strippedField texts expected "repo_ref"
    match PyText.split repoRef '/' with
    | owner :: rest@(_ :: _) =>
      (texts.urlparse (strippedField texts evidence "pr_url")).map fun parsed =>
        if parsed.scheme ∉ ["http", "https"] ∨ parsed.netloc = "" then false
        else
          let pathParts := ((PyText.split parsed.path '/').filter (· ≠ "")).map fun part =>
            texts.lower (texts.unquote part)
          match pathParts with
          | first :: second :: third :: fourth :: _ =>
            first = texts.lower owner && second = texts.lower (PyText.join '/' rest) &&
              third = "pull" && texts.isDigit fourth
          | _ => false
    | _ => some false

/-- The items that a loop over a value goes through; none where it raises. -/
def iterate : PyValue → Option (List PyValue)
  | .list items => some items
  | .str text => some (text.toList.map fun c => .str (String.singleton c))
  | .dict fields => some (fields.map fun field => .str field.1)
  | .none | .bool _ | .int _ | .float _ => none

/-- The set of expected manifest paths. -/
def expectedManifestPaths : Option (List String) :=
  (iterate ((expected.lookup "manifest_paths").getD (.list []))).map fun items =>
    ((items.map fun path => PyText.strip (Gitops.pyStr texts.toPyTexts path)).filter
      (· ≠ "")).dedup

/-! ## The decision -/

/-- `safe_pr_evidence_matches`; none is the exception. -/
def safePrEvidenceMatches : Option Bool := do
  if strippedField texts evidence "pr_url" = "" then return false
  if !(← safePrEvidenceIsCurrent texts clock evidence) then return false
  if !safePrRequiredEvidenceFieldMatches texts evidence expected "provider" then return false
  if !safePrEvidenceFieldMatches texts evidence expected "pr_url" then return false
  if !safePrRequiredEvidenceFieldMatches texts evidence expected "repo_ref" then return false
  if !(← safePrEvidencePrUrlMatchesProvider texts evidence expected) then return false
  if !safePrRequiredEvidenceFieldMatches texts evidence expected "base_branch" then return false
  if !safePrRequiredEvidenceFieldMatches texts evidence expected "commit_sha" then return false
  if !safePrRequiredEvidenceFieldMatches texts evidence expected "patch_sha256" then return false
  if flag expected "rollback_required" && !flag expected "rollback_available" then return false
  let evidenceManifestPath := strippedField texts evidence "manifest_path"
  let expectedManifestPaths ← expectedManifestPaths texts expected
  if expectedManifestPaths = [] ∨ evidenceManifestPath ∉ expectedManifestPaths then return false
  let evidenceEnvironment := strippedField texts evidence "environment"
  let expectedEnvironment := strippedField texts expected "environment"
  return evidenceEnvironment ≠ "" && expectedEnvironment ≠ "" &&
    evidenceEnvironment = expectedEnvironment

/-! ## The explanation -/

def safePrShortValue (value : String) : String :=
  if value = "" then "<missing>"
  else if value.length ≤ 32 then value
  else String.ofList (value.toList.take 16) ++ "..." ++
    String.ofList (value.toList.drop (value.length - 8))

def safePrShortValues (values : List String) : String :=
  ", ".intercalate ((values.take 3).map safePrShortValue)

def safePrEvidenceFieldReason (field : String) : String :=
  field ++ " expected " ++ safePrShortValue (strippedField texts expected field) ++ " but got " ++
    safePrShortValue (strippedField texts evidence field)

def manifestPathReason (expectedManifestPaths : List String) (evidenceManifestPath : String) :
    String :=
  "manifest_path expected one of " ++
    safePrShortValues (expectedManifestPaths.insertionSort (· ≤ ·)) ++ " but got " ++
    safePrShortValue evidenceManifestPath

def environmentReason (expectedEnvironment evidenceEnvironment : String) : String :=
  "environment expected " ++ safePrShortValue expectedEnvironment ++ " but got " ++
    safePrShortValue evidenceEnvironment

def uniqueNonEmpty (values : List String) : List String :=
  values.foldl (fun result value =>
    let normalized := PyText.strip value
    if normalized = "" ∨ normalized ∈ result then result else result ++ [normalized]) []

/-- The fields that are compared whatever is expected, in the order of the reasons. -/
def requiredFields : List String :=
  ["provider", "repo_ref", "base_branch", "commit_sha", "patch_sha256"]

/-- `safe_pr_evidence_mismatch_reasons`; none is the exception. -/
def safePrEvidenceMismatchReasons : Option (List String) := do
  let missing := if strippedField texts evidence "pr_url" = "" then ["pr_url is missing"] else []
  let stale := if !(← safePrEvidenceIsCurrent texts clock evidence) then
    ["created_at is missing, stale, or in the future"] else []
  let fields := (requiredFields.filter fun field =>
    !safePrRequiredEvidenceFieldMatches texts evidence expected field).map
      (safePrEvidenceFieldReason texts evidence expected)
  let prUrl := if !safePrEvidenceFieldMatches texts evidence expected "pr_url" then
    [safePrEvidenceFieldReason texts evidence expected "pr_url"] else []
  let path := if !(← safePrEvidencePrUrlMatchesProvider texts evidence expected) then
    ["pr_url path does not match the expected GitHub repo_ref"] else []
  let evidenceManifestPath := strippedField texts evidence "manifest_path"
  let expectedManifestPaths ← expectedManifestPaths texts expected
  let manifestPath :=
    if expectedManifestPaths = [] then ["expected manifest_path could not be derived"]
    else if evidenceManifestPath ∉ expectedManifestPaths then
      [manifestPathReason expectedManifestPaths evidenceManifestPath]
    else []
  let evidenceEnvironment := strippedField texts evidence "environment"
  let expectedEnvironment := strippedField texts expected "environment"
  let environment :=
    if evidenceEnvironment = "" ∨ expectedEnvironment = "" ∨
        evidenceEnvironment ≠ expectedEnvironment then
      [environmentReason expectedEnvironment evidenceEnvironment]
    else []
  return uniqueNonEmpty
    (missing ++ stale ++ fields ++ prUrl ++ path ++ manifestPath ++ environment)

variable {texts clock evidence expected}

theorem mem_foldl_uniqueNonEmpty (values result : List String) (reason : String) :
    reason ∈ values.foldl (fun result value =>
      let normalized := PyText.strip value
      if normalized = "" ∨ normalized ∈ result then result else result ++ [normalized]) result ↔
    reason ∈ result ∨ reason ≠ "" ∧ ∃ value ∈ values, PyText.strip value = reason := by
  induction values generalizing result with
  | nil => simp
  | cons value values ih =>
    rw [List.foldl_cons, ih]
    simp only [List.exists_mem_cons_iff]
    split
    next h => grind
    next h => grind

theorem mem_uniqueNonEmpty {values : List String} {reason : String} :
    reason ∈ uniqueNonEmpty values ↔
      reason ≠ "" ∧ ∃ value ∈ values, PyText.strip value = reason := by
  rw [uniqueNonEmpty, mem_foldl_uniqueNonEmpty]
  simp

/-! ## The conditions -/

/-- What both functions ask of an evidence. -/
inductive Condition where
  | prUrlIsThere | isCurrent
  | required (field : String)
  | prUrlIsExpected | prUrlMatchesProvider | manifestPathIsExpected | environmentIsExpected

/-- The conditions, in the order of the reasons. -/
def conditions : List Condition :=
  [Condition.prUrlIsThere, .isCurrent] ++ requiredFields.map Condition.required ++
    [Condition.prUrlIsExpected, .prUrlMatchesProvider, .manifestPathIsExpected,
      .environmentIsExpected]

variable (texts clock evidence expected)

def Condition.holds : Condition → Bool
  | .prUrlIsThere => strippedField texts evidence "pr_url" ≠ ""
  | .isCurrent => safePrEvidenceIsCurrent texts clock evidence = some true
  | .required field => safePrRequiredEvidenceFieldMatches texts evidence expected field
  | .prUrlIsExpected => safePrEvidenceFieldMatches texts evidence expected "pr_url"
  | .prUrlMatchesProvider => safePrEvidencePrUrlMatchesProvider texts evidence expected = some true
  | .manifestPathIsExpected =>
    ((expectedManifestPaths texts expected).getD []).contains
      (strippedField texts evidence "manifest_path")
  | .environmentIsExpected =>
    strippedField texts evidence "environment" ≠ "" &&
      strippedField texts expected "environment" ≠ "" &&
      strippedField texts evidence "environment" = strippedField texts expected "environment"

/-- How a failed condition is named. -/
def Condition.reason : Condition → String
  | .prUrlIsThere => "pr_url is missing"
  | .isCurrent => "created_at is missing, stale, or in the future"
  | .required field => safePrEvidenceFieldReason texts evidence expected field
  | .prUrlIsExpected => safePrEvidenceFieldReason texts evidence expected "pr_url"
  | .prUrlMatchesProvider => "pr_url path does not match the expected GitHub repo_ref"
  | .manifestPathIsExpected =>
    if (expectedManifestPaths texts expected).getD [] = [] then
      "expected manifest_path could not be derived"
    else manifestPathReason ((expectedManifestPaths texts expected).getD [])
      (strippedField texts evidence "manifest_path")
  | .environmentIsExpected =>
    environmentReason (strippedField texts expected "environment")
      (strippedField texts evidence "environment")

/-- A rollback that is required is available. -/
def RollbackIsAvailable (expected : PyFields) : Prop :=
  flag expected "rollback_required" = true → flag expected "rollback_available" = true

variable {texts clock evidence expected}

theorem forall_conditions {P : Condition → Prop} : (∀ condition ∈ conditions, P condition) ↔
    P .prUrlIsThere ∧ P .isCurrent ∧ P (.required "provider") ∧ P (.required "repo_ref") ∧
      P (.required "base_branch") ∧ P (.required "commit_sha") ∧ P (.required "patch_sha256") ∧
      P .prUrlIsExpected ∧ P .prUrlMatchesProvider ∧ P .manifestPathIsExpected ∧
      P .environmentIsExpected := by
  simp [conditions, requiredFields]

theorem stop_iff {p : Prop} [Decidable p] {rest : Option Bool} :
    (if p then some false else rest) = some true ↔ ¬p ∧ rest = some true := by
  by_cases hp : p
  · simp [hp]
  · simp [hp]

theorem manifestPath_holds_iff :
    Condition.manifestPathIsExpected.holds texts clock evidence expected = true ↔
      ∃ paths, expectedManifestPaths texts expected = some paths ∧
        ¬(paths = [] ∨ strippedField texts evidence "manifest_path" ∉ paths) := by
  rw [Condition.holds, List.contains_iff_mem]
  rcases expectedManifestPaths texts expected with _ | paths
  · simp
  · simp only [Option.getD_some, Option.some.injEq, exists_eq_left', not_or, not_not]
    exact ⟨fun h => ⟨List.ne_nil_of_mem h, h⟩, fun h => h.2⟩

theorem safePrEvidenceMatches_iff :
    safePrEvidenceMatches texts clock evidence expected = some true ↔
      (∀ condition ∈ conditions, condition.holds texts clock evidence expected = true) ∧
        RollbackIsAvailable expected := by
  have hnot (b : Bool) : ¬(!b) = true ↔ b = true := by cases b <;> decide
  have hrollback : ¬(flag expected "rollback_required" && !flag expected "rollback_available") =
      true ↔ RollbackIsAvailable expected := by
    rw [RollbackIsAvailable]
    cases flag expected "rollback_required" <;> cases flag expected "rollback_available" <;> decide
  rw [forall_conditions, manifestPath_holds_iff]
  simp only [Condition.holds, safePrEvidenceMatches, Option.pure_def, Option.bind_eq_bind, stop_iff,
    Option.bind_eq_some_iff, decide_eq_true_eq, hnot, hrollback, Option.some.injEq]
  constructor
  · rintro ⟨hurl, _, hcurrent, rfl, hprovider, hprUrl, hrepo, _, hmatched, rfl, hbranch, hcommit,
      hpatch, havailable, paths, hpaths, hmem, henvironment⟩
    exact ⟨⟨hurl, hcurrent, hprovider, hrepo, hbranch, hcommit, hpatch, hprUrl, hmatched,
      ⟨paths, hpaths, hmem⟩, henvironment⟩, havailable⟩
  · rintro ⟨⟨hurl, hcurrent, hprovider, hrepo, hbranch, hcommit, hpatch, hprUrl, hmatched,
      ⟨paths, hpaths, hmem⟩, henvironment⟩, havailable⟩
    exact ⟨hurl, true, hcurrent, rfl, hprovider, hprUrl, hrepo, true, hmatched, rfl, hbranch,
      hcommit, hpatch, havailable, paths, hpaths, hmem, henvironment⟩

/-- The reasons of the conditions of a list that fail. -/
def failed (texts : EvidenceTexts) (clock : Clock) (evidence expected : PyFields)
    (conditions : List Condition) : List String :=
  (conditions.filter fun condition => !condition.holds texts clock evidence expected).map
    (Condition.reason texts evidence expected)

theorem failed_append (first second : List Condition) :
    failed texts clock evidence expected (first ++ second) =
      failed texts clock evidence expected first ++ failed texts clock evidence expected second := by
  rw [failed, List.filter_append, List.map_append]
  rfl

theorem conditions_eq : conditions = ([Condition.prUrlIsThere] ++ [Condition.isCurrent] ++
    requiredFields.map Condition.required ++ [Condition.prUrlIsExpected] ++
    [Condition.prUrlMatchesProvider] ++ [Condition.manifestPathIsExpected] ++
    [Condition.environmentIsExpected] : List Condition) := rfl

theorem failed_singleton (condition : Condition) (p : Prop) [Decidable p]
    (h : condition.holds texts clock evidence expected = true ↔ ¬p) :
    failed texts clock evidence expected [condition] =
      if p then [condition.reason texts evidence expected] else [] := by
  rw [failed, List.filter_singleton]
  by_cases hp : p
  · have hfails : condition.holds texts clock evidence expected = false := by
      simpa [hp] using h
    rw [if_pos hp, hfails]
    rfl
  · rw [if_neg hp, h.mpr hp]
    rfl

theorem failed_required :
    failed texts clock evidence expected (requiredFields.map .required) =
      (requiredFields.filter fun field =>
        !safePrRequiredEvidenceFieldMatches texts evidence expected field).map
        (safePrEvidenceFieldReason texts evidence expected) := by
  rw [failed, List.filter_map, List.map_map]
  simp only [Function.comp_def, Condition.holds, Condition.reason]

theorem safePrEvidenceMismatchReasons_eq {reasons : List String}
    (h : safePrEvidenceMismatchReasons texts clock evidence expected = some reasons) :
    reasons = uniqueNonEmpty (failed texts clock evidence expected conditions) := by
  simp only [safePrEvidenceMismatchReasons, Option.pure_def, Option.bind_eq_bind,
    Option.bind_eq_some_iff, Option.some.injEq] at h
  obtain ⟨current, hcurrent, matched, hmatched, paths, hpaths, rfl⟩ := h
  have hthere : failed texts clock evidence expected [.prUrlIsThere] =
      if strippedField texts evidence "pr_url" = "" then ["pr_url is missing"] else [] := by
    refine failed_singleton .prUrlIsThere _ ?_
    rw [Condition.holds, decide_eq_true_eq]
  have hstale : failed texts clock evidence expected [.isCurrent] =
      if !current then ["created_at is missing, stale, or in the future"] else [] := by
    refine failed_singleton .isCurrent _ ?_
    rw [Condition.holds, hcurrent]
    cases current <;> decide
  have hprUrl : failed texts clock evidence expected [.prUrlIsExpected] =
      if !safePrEvidenceFieldMatches texts evidence expected "pr_url" then
        [safePrEvidenceFieldReason texts evidence expected "pr_url"] else [] := by
    refine failed_singleton .prUrlIsExpected _ ?_
    rw [Condition.holds]
    cases safePrEvidenceFieldMatches texts evidence expected "pr_url" <;> decide
  have hprovider : failed texts clock evidence expected [.prUrlMatchesProvider] =
      if !matched then ["pr_url path does not match the expected GitHub repo_ref"] else [] := by
    refine failed_singleton .prUrlMatchesProvider _ ?_
    rw [Condition.holds, hmatched]
    cases matched <;> decide
  have henvironment : failed texts clock evidence expected [.environmentIsExpected] =
      if strippedField texts evidence "environment" = "" ∨
          strippedField texts expected "environment" = "" ∨
          strippedField texts evidence "environment" ≠ strippedField texts expected "environment" then
        [environmentReason (strippedField texts expected "environment")
          (strippedField texts evidence "environment")]
      else [] := by
    refine failed_singleton .environmentIsExpected _ ?_
    rw [Condition.holds, Bool.and_eq_true, Bool.and_eq_true, decide_eq_true_eq, decide_eq_true_eq,
      decide_eq_true_eq, not_or, not_or, not_not, and_assoc]
  have hpath : failed texts clock evidence expected [.manifestPathIsExpected] =
      if paths = [] then ["expected manifest_path could not be derived"]
      else if strippedField texts evidence "manifest_path" ∉ paths then
        [manifestPathReason paths (strippedField texts evidence "manifest_path")]
      else [] := by
    have hholds : Condition.manifestPathIsExpected.holds texts clock evidence expected = true ↔
        ¬(paths = [] ∨ strippedField texts evidence "manifest_path" ∉ paths) := by
      rw [manifestPath_holds_iff, hpaths]
      simp only [Option.some.injEq, exists_eq_left']
    rw [failed_singleton _ _ hholds, Condition.reason, hpaths, Option.getD_some]
    by_cases hnone : paths = []
    · rw [if_pos (.inl hnone), if_pos hnone, if_pos hnone]
    · by_cases hmem : strippedField texts evidence "manifest_path" ∉ paths
      · rw [if_pos (.inr hmem), if_neg hnone, if_neg hnone, if_pos hmem]
      · rw [if_neg (not_or.mpr ⟨hnone, hmem⟩), if_neg hnone, if_neg hmem]
  rw [conditions_eq]
  simp only [failed_append, failed_required, hthere, hstale, hprUrl, hprovider, hpath, henvironment]

theorem mem_failed {reason : String} :
    reason ∈ failed texts clock evidence expected conditions ↔ ∃ condition ∈ conditions,
      condition.holds texts clock evidence expected = false ∧
        condition.reason texts evidence expected = reason := by
  simp only [failed, List.mem_map, List.mem_filter, Bool.not_eq_true', and_assoc]

/-! ## Agreement -/

theorem strip_fieldReason_ne_empty (field : String) :
    PyText.strip (safePrEvidenceFieldReason texts evidence expected field) ≠ "" := by
  refine PyText.strip_ne_empty (c := 'e') ?_ (by decide)
  delta safePrEvidenceFieldReason
  simp only [String.toList_append, List.mem_append]
  exact .inl (.inl (.inl (.inr (by decide))))

theorem strip_manifestPathReason_ne_empty (paths : List String) (path : String) :
    PyText.strip (manifestPathReason paths path) ≠ "" := by
  refine PyText.strip_ne_empty (c := 'b') ?_ (by decide)
  delta manifestPathReason
  simp only [String.toList_append, List.mem_append]
  exact .inl (.inr (by decide))

theorem strip_environmentReason_ne_empty (expected evidence : String) :
    PyText.strip (environmentReason expected evidence) ≠ "" := by
  refine PyText.strip_ne_empty (c := 'b') ?_ (by decide)
  delta environmentReason
  simp only [String.toList_append, List.mem_append]
  exact .inl (.inr (by decide))

theorem strip_reason_ne_empty (condition : Condition) :
    PyText.strip (condition.reason texts evidence expected) ≠ "" := by
  have hliteral (text : String) (c : Char) (hc : c ∈ text.toList)
      (hspace : PyText.isSpace c = false) : PyText.strip text ≠ "" :=
    PyText.strip_ne_empty hc hspace
  cases condition with
  | prUrlIsThere => exact hliteral "pr_url is missing" 'p' (by decide) (by decide)
  | isCurrent =>
    exact hliteral "created_at is missing, stale, or in the future" 'c' (by decide) (by decide)
  | required field => exact strip_fieldReason_ne_empty field
  | prUrlIsExpected => exact strip_fieldReason_ne_empty "pr_url"
  | prUrlMatchesProvider =>
    exact hliteral "pr_url path does not match the expected GitHub repo_ref" 'p' (by decide)
      (by decide)
  | manifestPathIsExpected =>
    rw [Condition.reason]
    split
    · exact hliteral "expected manifest_path could not be derived" 'e' (by decide) (by decide)
    · exact strip_manifestPathReason_ne_empty _ _
  | environmentIsExpected => exact strip_environmentReason_ne_empty _ _

theorem safePrEvidenceMismatchReasons_eq_nil {reasons : List String}
    (h : safePrEvidenceMismatchReasons texts clock evidence expected = some reasons) :
    reasons = [] ↔
      ∀ condition ∈ conditions, condition.holds texts clock evidence expected = true := by
  rw [safePrEvidenceMismatchReasons_eq h, List.eq_nil_iff_forall_not_mem]
  simp only [mem_uniqueNonEmpty, mem_failed]
  constructor
  · intro hnone condition hcondition
    by_contra hfails
    refine hnone (PyText.strip (condition.reason texts evidence expected))
      ⟨strip_reason_ne_empty condition, _, ⟨condition, hcondition, ?_, rfl⟩, rfl⟩
    exact Bool.not_eq_true _ ▸ hfails
  · rintro hall reason ⟨-, -, ⟨condition, hcondition, hfails, -⟩, -⟩
    exact absurd ((hall condition hcondition).symm.trans hfails) nofun

theorem safePrEvidenceMismatchReasons_of_all
    (h : ∀ condition ∈ conditions, condition.holds texts clock evidence expected = true) :
    safePrEvidenceMismatchReasons texts clock evidence expected = some [] := by
  obtain ⟨-, hcurrent, -, -, -, -, -, -, hmatched, hpath, -⟩ := forall_conditions.mp h
  obtain ⟨paths, hpaths, -⟩ := manifestPath_holds_iff.mp hpath
  have hreasons : ∃ reasons, safePrEvidenceMismatchReasons texts clock evidence expected =
      some reasons := by
    rw [safePrEvidenceMismatchReasons, of_decide_eq_true hcurrent, of_decide_eq_true hmatched,
      hpaths]
    exact ⟨_, rfl⟩
  obtain ⟨reasons, hreasons⟩ := hreasons
  rw [hreasons, (safePrEvidenceMismatchReasons_eq_nil hreasons).mpr h]

/-- The explanation is empty where the decision is positive and only there, and each of its reasons
names a condition that fails and without which no evidence matches. -/
structure Agrees (texts : EvidenceTexts) (clock : Clock) (evidence expected : PyFields) : Prop where
  empty_iff : safePrEvidenceMismatchReasons texts clock evidence expected = some [] ↔
    safePrEvidenceMatches texts clock evidence expected = some true
  named : ∀ reasons, safePrEvidenceMismatchReasons texts clock evidence expected = some reasons →
    ∀ reason ∈ reasons, ∃ condition : Condition,
      reason = PyText.strip (condition.reason texts evidence expected) ∧
      condition.holds texts clock evidence expected = false ∧
      ∀ clock' evidence' expected', condition.holds texts clock' evidence' expected' = false →
        safePrEvidenceMatches texts clock' evidence' expected' ≠ some true

/-- The explanation agrees with the decision unless nothing but the rollback is missing. -/
theorem explanation_agrees_iff (texts : EvidenceTexts) (clock : Clock)
    (evidence expected : PyFields) : Agrees texts clock evidence expected ↔
      RollbackIsAvailable expected ∨
        ∃ condition ∈ conditions, condition.holds texts clock evidence expected = false := by
  have hempty : safePrEvidenceMismatchReasons texts clock evidence expected = some [] ↔
      ∀ condition ∈ conditions, condition.holds texts clock evidence expected = true :=
    ⟨fun h => (safePrEvidenceMismatchReasons_eq_nil h).mp rfl, safePrEvidenceMismatchReasons_of_all⟩
  constructor
  · intro h
    by_cases hall : ∀ condition ∈ conditions, condition.holds texts clock evidence expected = true
    · exact .inl (safePrEvidenceMatches_iff.mp (h.empty_iff.mp (hempty.mpr hall))).2
    · push Not at hall
      obtain ⟨condition, hcondition, hfails⟩ := hall
      exact .inr ⟨condition, hcondition, Bool.eq_false_iff.mpr hfails⟩
  · intro h
    refine ⟨?_, fun reasons hreasons reason hreason => ?_⟩
    · rw [hempty, safePrEvidenceMatches_iff]
      refine ⟨fun hall => ⟨hall, ?_⟩, fun hboth => hboth.1⟩
      rcases h with hrollback | ⟨condition, hcondition, hfails⟩
      · exact hrollback
      · exact absurd ((hall condition hcondition).symm.trans hfails) nofun
    · rw [safePrEvidenceMismatchReasons_eq hreasons, mem_uniqueNonEmpty] at hreason
      obtain ⟨-, value, hvalue, rfl⟩ := hreason
      obtain ⟨condition, hcondition, hfails, rfl⟩ := mem_failed.mp hvalue
      refine ⟨condition, rfl, hfails, fun clock' evidence' expected' hfails' hmatches => ?_⟩
      have hholds := (safePrEvidenceMatches_iff.mp hmatches).1 condition hcondition
      exact absurd (hholds.symm.trans hfails') nofun

/-! ## A release without a reason -/

/-- Texts of plain records. -/
def sampleTexts : EvidenceTexts where
  strOf _ := ""
  lower := id
  casefold := id
  fromisoformat _ := .at 0
  urlparse _ := none
  unquote := id
  isDigit _ := false

/-- What the evidence and the expectation of a release to production share. -/
def sampleFields : PyFields :=
  [("provider", .str "gitlab"), ("pr_url", .str "u"), ("repo_ref", .str "team/app"),
    ("base_branch", .str "main"), ("commit_sha", .str "c0"), ("patch_sha256", .str "p0"),
    ("environment", .str "prod"), ("manifest_path", .str "deploy.yaml"),
    ("created_at", .str "1970-01-01T00:00:00Z")]

/-- The rollback that a release to production requires is not available, and nothing says so. -/
theorem blocked_without_reason : ¬Agrees sampleTexts ⟨0, 1⟩ sampleFields
    (sampleFields ++ [("manifest_paths", .list [.str "deploy.yaml"]),
      ("rollback_required", .bool true), ("rollback_available", .bool false)]) := by
  intro h
  have hmatches := h.empty_iff.mp (by decide)
  exact absurd hmatches (by decide)

end Opsia.Release
