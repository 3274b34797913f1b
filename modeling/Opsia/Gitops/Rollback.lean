import Opsia.Gitops.DesiredDiff

/-!
# Rolling a manifest back

`build_rollback_manifest` of the diff-analyze worker: the desired manifest, with what the cluster
shows put in at every path of a change. A path is split at its dots outside brackets and followed
step by step; what it leads through must be there. The manifest that is changed in place is an
argument and the result; a step that `return`s `False` or `None` has no result.
-/

namespace Opsia.Gitops

/-! ## Paths -/

/-- `bracket_depth` after a character. -/
def bracketDepth (depth : ℕ) (c : Char) : ℕ :=
  if c = '[' then depth + 1 else if c = ']' then depth - 1 else depth

/-- The loop of `split_field_path`. -/
def splitChars (depth : ℕ) (current : List Char) : List Char → List String
  | [] => if current = [] then [] else [String.ofList current]
  | c :: rest =>
    let depth := bracketDepth depth c
    if c = '.' ∧ depth = 0 then String.ofList current :: splitChars depth [] rest
    else splitChars depth (current ++ [c]) rest

def splitFieldPath (fieldPath : String) : List String := splitChars 0 [] fieldPath.toList

/-- `parse_list_selector`: the name of a list, and a key with the value that an item must have. -/
def parseListSelector (part : String) : Option (String × String × String) :=
  let chars := part.toList
  if '[' ∉ chars ∨ chars.getLast? ≠ some ']' then none
  else
    let name := chars.takeWhile (· ≠ '[')
    let rawSelector := ((chars.dropWhile (· ≠ '[')).drop 1).dropLast
    let key := rawSelector.takeWhile (· ≠ '=')
    if name = [] ∨ '=' ∉ rawSelector ∨ key = [] then none
    else some (String.ofList name, String.ofList key,
      String.ofList ((rawSelector.dropWhile (· ≠ '=')).drop 1))

/-! ## Following a path -/

section

variable (texts : PyTexts)

/-- The item that a selector asks for. -/
def isSelected (key value : String) : PyValue → Bool
  | .dict fields => textAt texts fields key "" = value
  | _ => false

def descendManifestPath (parent : PyValue) (part : String) : Option PyValue :=
  match parent with
  | .dict fields =>
    match parseListSelector part with
    | none =>
      match fields.lookup part with
      | some (.dict child) => some (.dict child)
      | some (.list child) => some (.list child)
      | _ => none
    | some (name, key, value) =>
      match fields.lookup name with
      | some (.list items) => items.find? (isSelected texts key value)
      | _ => none
  | _ => none

/-- The first item that is selected, changed. -/
def changeItem (p : PyValue → Bool) (child : PyValue) : List PyValue → List PyValue
  | [] => []
  | item :: items => if p item then child :: items else item :: changeItem p child items

/-- The parent, once the child that `descend_manifest_path` found has been changed. -/
def changeManifestPath (parent : PyValue) (part : String) (child : PyValue) : PyValue :=
  match parent with
  | .dict fields =>
    match parseListSelector part with
    | none => .dict (PyValue.setField fields part child)
    | some (name, key, value) =>
      match fields.lookup name with
      | some (.list items) =>
        .dict (PyValue.setField fields name
          (.list (changeItem (isSelected texts key value) child items)))
      | _ => parent
  | _ => parent

/-- The value that is set, or `none` for `MISSING`. -/
def rolledBack (value : PyValue) : Option PyValue :=
  if value.eq (.str missingText) then none else some value

def setManifestValue (parent : PyValue) (part : String) (value : PyValue) : Option PyValue :=
  match parseListSelector part with
  | some (_, key, _) =>
    match descendManifestPath texts parent part with
    | some (.dict target) =>
      some (changeManifestPath texts parent part
        (.dict (PyValue.putField target key (rolledBack value))))
    | _ => none
  | none =>
    match parent with
    | .dict fields => some (.dict (PyValue.putField fields part (rolledBack value)))
    | _ => none

/-- The parts of `apply_rollback_value`, followed from a parent. -/
def applyParts (value : PyValue) : PyValue → List String → Option PyValue
  | _, [] => none
  | parent, [part] => setManifestValue texts parent part value
  | parent, part :: part' :: parts => do
    let child ← descendManifestPath texts parent part
    let changed ← applyParts value child (part' :: parts)
    pure (changeManifestPath texts parent part changed)

def applyRollbackValue (manifest : PyValue) (fieldPath : String) (value : PyValue) :
    Option PyValue :=
  applyParts texts value manifest (splitFieldPath fieldPath)

/-- One round of the loop of `build_rollback_manifest`, with `applied`. -/
def rollbackStep (state : PyValue × Bool) (change : FieldChange) : PyValue × Bool :=
  if change.classification = .alreadyConverged ∨ change.fieldPath = "" then state
  else
    match applyRollbackValue texts state.1 change.fieldPath change.before with
    | some manifest => (manifest, true)
    | none => state

def buildRollbackManifest (desired : PyFields) (changes : List FieldChange) : PyFields :=
  if desired = [] ∨ changes = [] then []
  else
    let result := changes.foldl (rollbackStep texts) (.dict desired, false)
    if result.2 then mappingOf result.1 else []

end

attribute [grind =] bracketDepth splitChars parseListSelector descendManifestPath
  changeManifestPath setManifestValue applyParts

end Opsia.Gitops
