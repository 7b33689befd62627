import CortexHarness.Journal.Operation

/-!
# Specialised constructors of an operation

Model of `for_node_contract`, `for_incremental_cleanup` and `operation_for_custom_query`
(`operation.py:196-247`, `318-361`). `_SAFE_NODE_QUERY_PATTERN` is a backtracking matcher: a
pattern maps a text to the ways to split off a beginning, in the order `re` tries them.

Results: `forLabel_writes`, `forNodeContract_writes`, `forIncrementalCleanup_writes`: of the four
constructors only the one for a custom query declares a node that is matched and not merged.
-/

namespace CortexHarness.Journal

variable (py : Python)

/-! ## Patterns -/

/-- What `re.IGNORECASE` knows of characters. -/
structure Regex where
  /-- `[A-Za-z_]` -/
  identStart : Char → Bool
  /-- `\w` -/
  word : Char → Bool
  /-- the characters a literal one stands for -/
  same : Char → Char → Bool

/-- A pattern, with the text of its groups. -/
def Pattern (α : Type) : Type := List Char → List (α × List Char)

namespace Pattern

variable {α : Type}

instance : Monad Pattern where
  pure a cs := [(a, cs)]
  bind p f cs := (p cs).flatMap fun m => f m.1 m.2

/-- One character of a class. -/
def one (p : Char → Bool) : Pattern (List Char)
  | [] => []
  | c :: cs => if p c then [([c], cs)] else []

/-- `[…]*`, the longest first. -/
def star (p : Char → Bool) : Pattern (List Char)
  | [] => [([], [])]
  | c :: cs =>
    if p c then ((star p cs).map fun m => (c :: m.1, m.2)) ++ [([], c :: cs)] else [([], c :: cs)]

/-- `[…]+` -/
def plus (p : Char → Bool) : Pattern (List Char) := do
  let c ← one p
  let cs ← star p
  return c ++ cs

/-- A literal, or the text of an earlier group. -/
def lit (rx : Regex) : List Char → Pattern (List Char)
  | [] => return []
  | c :: cs => do
    let d ← one (rx.same c)
    let ds ← lit rx cs
    return d ++ ds

/-- `(?:p)?` -/
def opt (p : Pattern α) : Pattern (Option α) :=
  fun cs => ((p cs).map fun m => (some m.1, m.2)) ++ [(none, cs)]

/-- `p|q` -/
def either (p q : Pattern α) : Pattern α := fun cs => p cs ++ q cs

/-- `pattern.fullmatch(text)` -/
def fullmatch (p : Pattern α) (text : String) : Option α :=
  ((p text.toList).find? fun m => m.2.isEmpty).map Prod.fst

end Pattern

/-- The groups of `_SAFE_NODE_QUERY_PATTERN`. -/
structure SafeNodeQuery where
  verb : String
  label : String
  identity : String
  rowIdentity : String
  properties : Option String
  deriving Repr, DecidableEq

open Pattern in
/-- `_SAFE_NODE_QUERY_PATTERN`. -/
def safeNodeQueryPattern (rx : Regex) : Pattern SafeNodeQuery := do
  let text (s : String) : Pattern (List Char) := lit rx s.toList
  let blanks : Pattern (List Char) := plus isSpace
  let spaces : Pattern (List Char) := star isSpace
  let ident : Pattern (List Char) := do
    let c ← one rx.identStart
    let cs ← star rx.word
    return c ++ cs
  let _ ← spaces
  let _ ← text "UNWIND"
  let _ ← blanks
  let _ ← text "$rows"
  let _ ← blanks
  let _ ← text "AS"
  let _ ← blanks
  let _ ← text "row"
  let _ ← blanks
  let verb ← either (text "MERGE") (text "MATCH")
  let _ ← spaces
  let _ ← text "("
  let _ ← spaces
  let variable_ ← ident
  let _ ← spaces
  let _ ← text ":"
  let label ← ident
  let _ ← spaces
  let _ ← text "\x7b"
  let _ ← spaces
  let identity ← ident
  let _ ← spaces
  let _ ← text ":"
  let _ ← spaces
  let _ ← text "row."
  let rowIdentity ← ident
  let _ ← spaces
  let _ ← text "\x7d"
  let _ ← spaces
  let _ ← text ")"
  let _ ← blanks
  let _ ← text "SET"
  let _ ← blanks
  let _ ← lit rx variable_
  let _ ← spaces
  let _ ← text "+="
  let _ ← spaces
  let _ ← text "row"
  let properties ← opt (do
    let _ ← text "."
    ident)
  let _ ← spaces
  let _ ← opt (do
    let _ ← text "RETURN"
    let _ ← blanks
    let _ ← text "count("
    let _ ← lit rx variable_
    let _ ← text ")"
    let _ ← blanks
    let _ ← text "AS"
    let _ ← blanks
    let _ ← text "count"
    spaces)
  return {
    verb := String.ofList verb, label := String.ofList label, identity := String.ofList identity,
    rowIdentity := String.ofList rowIdentity, properties := properties.map String.ofList }

/-! ## The constructors -/

namespace GraphWriteOperation

/-- `for_node_contract`; a blank label raises. -/
def forNodeContract (label nodeLabel identityProperty rowIdentityProperty : String)
    (rowPropertiesProperty : Option String) : Except Failure GraphWriteOperation :=
  if h : blank label = false then
    .ok {
      label, phase := .nodes, reconciliation := "node_identity", nodeLabel := some nodeLabel,
      identityProperty := some identityProperty, rowIdentityProperty, rowPropertiesProperty,
      label_named := h, version_pos := first_version }
  else .error (.value "operation label must not be empty")

/-- `for_incremental_cleanup`. -/
def forIncrementalCleanup (label reconciliation : String) (nodeLabel : Option String) :
    Except Failure GraphWriteOperation :=
  if reconciliation ≠ "file_cleanup" ∧ reconciliation ≠ "orphan_unknown_cleanup" then
    .error (.value "unsupported incremental cleanup contract")
  else if h : blank label = false then
    .ok {
      label, phase := .nodes, version := 2, reconciliation, nodeLabel, mutationKind := .match_,
      label_named := h, version_pos := by decide }
  else .error (.value "operation label must not be empty")

end GraphWriteOperation

/-- `text.split()` -/
def words (text : String) : List String :=
  ((text.toList.splitOnP isSpace).filter fun w => !w.isEmpty).map String.ofList

/-- `query_fingerprint` of `operation_for_custom_query`. -/
def fingerprintOf (cypher : String) : String :=
  String.ofList ((py.sha256Hex (" ".intercalate (words cypher))).toList.take 16)

/-- `operation_for_custom_query`. -/
def operationForCustomQuery (rx : Regex) (label cypher : String) : Except Failure GraphWriteOperation :=
  if h : blank label = false then
    match (safeNodeQueryPattern rx).fullmatch cypher with
    | some groups =>
      let kind := py.casefold groups.verb
      if kind ≠ "merge" ∧ kind ≠ "match" then
        .error (.value "unsupported persisted mutation kind")
      else
        .ok {
          label, phase := .nodes, reconciliation := "node_identity",
          nodeLabel := some groups.label, identityProperty := some groups.identity,
          rowIdentityProperty := groups.rowIdentity, rowPropertiesProperty := groups.properties,
          mutationKind := if kind = "merge" then .merge else .match_,
          queryFingerprint := some (fingerprintOf py cypher), label_named := h,
          version_pos := GraphWriteOperation.first_version }
    | none =>
      .ok {
        label, phase := phaseForLabel py label, queryFingerprint := some (fingerprintOf py cypher),
        label_named := h, version_pos := GraphWriteOperation.first_version }
  else .error (.value "operation label must not be empty")

/-! ## Nodes that are merged -/

namespace GraphWriteOperation

/-- Every node this operation declares is merged. -/
def Writes (op : GraphWriteOperation) : Prop :=
  op.reconciliation = "node_identity" → op.mutationKind = .merge

variable {py} {op : GraphWriteOperation} {label : String}

theorem forLabel_writes (h : forLabel py label = .ok op) : op.Writes := by
  intro _
  unfold forLabel at h
  split at h
  · dsimp only at h
    split at h
    · cases h
      rfl
    · split_ifs at h <;>
      · cases h
        rfl
  · cases h

theorem forNodeContract_writes {nodeLabel identity rowIdentity : String} {properties : Option String}
    (h : forNodeContract label nodeLabel identity rowIdentity properties = .ok op) : op.Writes := by
  intro _
  unfold forNodeContract at h
  split at h
  · cases h
    rfl
  · cases h

theorem forIncrementalCleanup_writes {reconciliation : String} {nodeLabel : Option String}
    (h : forIncrementalCleanup label reconciliation nodeLabel = .ok op) : op.Writes := by
  intro hnode
  unfold forIncrementalCleanup at h
  split_ifs at h with hkind
  cases h
  change reconciliation = "node_identity" at hnode
  subst hnode
  exact absurd ⟨by decide, by decide⟩ hkind

end GraphWriteOperation

end CortexHarness.Journal
