import CortexHarness.Library.Measure
import Mathlib.Data.String.Basic
import Mathlib.Algebra.GroupWithZero.Nat

/-!
# The damage of a syntax tree

Model of `collect_tree_sitter_damage` (`code-tiny/tools/common/parse_quality.py`): one walk over the
tree with a stack, the span of every ERROR or MISSING node clamped to the source, and the sweep that
merges the spans.

* A node has what the walk reads of it; a missing `end_byte` is `none`, and any other missing
  attribute is the default that the source reads.
* `damaged_span_ratio` is left out: it is a rounded float, and nothing here reads it.

Results:
* `walk_eq`: the walk goes through the nodes from the root down, the children in their order;
* **`damage_measure`**: `damaged_bytes` is the number of positions that the recorded spans cover.
-/

namespace CortexHarness.Common

open Sweep

/-! ## Trees -/

/-- What the walk reads of a node. -/
structure NodeData where
  type : String
  isError : Bool
  isMissing : Bool
  startByte : Int
  endByte : Option Int
  startPoint : Int × Int
  deriving DecidableEq

inductive Node where
  | mk (data : NodeData) (children : List Node)

def Node.data : Node → NodeData
  | .mk data _ => data

def Node.children : Node → List Node
  | .mk _ children => children

/-- `is_error` -/
def NodeData.error (node : NodeData) : Bool := node.isError || node.type == "ERROR"

/-- The node is an ERROR or a MISSING node. -/
def NodeData.damaged (node : NodeData) : Bool := node.error || node.isMissing

/-! ## The walk -/

section Walk

variable (sourceSize : Nat)

/-- `max(low, min(n, source_size))` -/
def clamp (low n : Int) : Int :=
  let least := if n < sourceSize then n else sourceSize
  if low < least then least else low

/-- The span of a damaged node: clamped to the source, and one byte long if it is empty. -/
def NodeData.span (node : NodeData) : Interval :=
  let start := clamp sourceSize 0 node.startByte
  let endByte := match node.endByte with
    | some n => if n = 0 then start else n
    | none => start
  let stop := clamp sourceSize start endByte
  if stop = start ∧ sourceSize ≠ 0 then
    (start, if start + 1 < (sourceSize : Int) then start + 1 else sourceSize)
  else (start, stop)

/-- `_CRITICAL_STRUCTURAL_KINDS` -/
def criticalStructuralKinds : List String :=
  ["function_definition", "function_declarator", "declaration", "parameter_declaration",
    "parameter_list", "class_specifier", "struct_specifier", "union_specifier", "enum_specifier",
    "namespace_definition", "compound_statement", "field_declaration", "template_declaration"]

/-- `MAX_DAMAGE_SIGNATURES` -/
def maxDamageSignatures : Nat := 32

/-- What the walk has collected. -/
structure Damage where
  errorCount : Nat := 0
  missingCount : Nat := 0
  intervals : List Interval := []
  contexts : List String := []
  signatures : List String := []
  critical : Bool := false

/-- The part of the loop body for one node. -/
def Damage.visit (d : Damage) (node : NodeData) (parentKind : Option String) : Damage :=
  if node.damaged then
    let span := node.span sourceSize
    let contextKind := match parentKind with
      | some kind => if kind = "" then "root" else kind
      | none => "root"
    { errorCount := if node.error then d.errorCount + 1 else d.errorCount
      missingCount := if node.isMissing then d.missingCount + 1 else d.missingCount
      intervals := if span.1 < span.2 then d.intervals ++ [span] else d.intervals
      contexts := d.contexts ++ [contextKind]
      signatures :=
        if d.signatures.length < maxDamageSignatures then
          d.signatures ++ [node.type ++ "@" ++ toString (node.startPoint.1 + 1) ++ ":" ++
            toString (node.startPoint.2 + 1) ++ ":" ++ contextKind]
        else d.signatures
      critical := d.critical || criticalStructuralKinds.contains contextKind }
  else d

/-- `while stack`, the top of the stack first; `fuel` bounds the nodes to visit. -/
def walk : Nat → List (Node × Option String) → Damage → Damage
  | 0, _, d => d
  | _ + 1, [], d => d
  | fuel + 1, (node, parentKind) :: stack, d =>
    walk fuel (node.children.map (·, some node.data.type) ++ stack)
      (d.visit sourceSize node.data parentKind)

mutual

/-- The number of nodes. -/
def Node.size : Node → Nat
  | .mk _ children => sizes children + 1

def sizes : List Node → Nat
  | [] => 0
  | node :: nodes => node.size + sizes nodes

end

/-- `DamageSummary`, without the ratio. -/
structure DamageSummary where
  errorCount : Nat
  missingCount : Nat
  damagedBytes : Int
  sourceBytes : Nat
  criticalStructuralDamage : Bool
  structuralContexts : List String
  signatures : List String
  deriving DecidableEq

/-- `collect_tree_sitter_damage` -/
def collectTreeSitterDamage (root : Node) : DamageSummary :=
  let d := walk sourceSize root.size [(root, none)] {}
  { errorCount := d.errorCount
    missingCount := d.missingCount
    damagedBytes := mergeIntervals d.intervals
    sourceBytes := sourceSize
    criticalStructuralDamage := d.critical
    structuralContexts := d.contexts.dedup.mergeSort fun a b => decide (a ≤ b)
    signatures := d.signatures }

end Walk

/-! ## The nodes in their order -/

mutual

/-- The nodes of a tree from the root down, each with the type of its parent. -/
def Node.preorder : Node → Option String → List (NodeData × Option String)
  | .mk data children, parentKind => (data, parentKind) :: preorders children (some data.type)

def preorders : List Node → Option String → List (NodeData × Option String)
  | [], _ => []
  | node :: nodes, parentKind => node.preorder parentKind ++ preorders nodes parentKind

end

/-- The ERROR and MISSING nodes of a tree. -/
def Node.damagedNodes (root : Node) : List NodeData :=
  ((root.preorder none).map Prod.fst).filter (·.damaged)

/-- The spans that are recorded of a tree. -/
def Node.recordedSpans (root : Node) (sourceSize : Nat) : List Interval :=
  (root.damagedNodes.map (·.span sourceSize)).filter fun i => i.1 < i.2

variable {sourceSize : Nat}

/-- The number of nodes that are left to visit. -/
def stackSize (stack : List (Node × Option String)) : Nat := (stack.map (·.1.size)).sum

theorem stackSize_children (children : List Node) (kind : Option String)
    (stack : List (Node × Option String)) :
    stackSize (children.map (·, kind) ++ stack) = sizes children + stackSize stack := by
  induction children with
  | nil => simp [stackSize, sizes]
  | cons child children ih =>
    simp only [stackSize, List.map_cons, List.cons_append, List.sum_cons] at ih ⊢
    rw [ih, sizes]
    omega

theorem preorders_eq (children : List Node) (kind : Option String) :
    preorders children kind = (children.map (·, kind)).flatMap fun np => np.1.preorder np.2 := by
  induction children with
  | nil => rfl
  | cons child children ih => rw [preorders, ih, List.map_cons, List.flatMap_cons]

/-- **The walk**, with fuel for the nodes that are left. -/
theorem walk_eq (fuel : Nat) (stack : List (Node × Option String)) (d : Damage)
    (h : stackSize stack ≤ fuel) :
    walk sourceSize fuel stack d =
      (stack.flatMap fun np => np.1.preorder np.2).foldl
        (fun d np => d.visit sourceSize np.1 np.2) d := by
  induction fuel generalizing stack d with
  | zero =>
    cases stack with
    | nil => rfl
    | cons np stack =>
      obtain ⟨⟨data, children⟩, kind⟩ := np
      simp [stackSize, Node.size] at h
  | succ fuel ih =>
    match stack with
    | [] => rfl
    | (⟨data, children⟩, kind) :: stack =>
      have hsize : stackSize (children.map (·, some data.type) ++ stack) ≤ fuel := by
        rw [stackSize_children]
        simp only [stackSize, List.map_cons, List.sum_cons, Node.size] at h
        simp only [stackSize]
        omega
      rw [walk]
      simp only [Node.children, Node.data]
      rw [ih _ _ hsize, List.flatMap_append, ← preorders_eq, List.flatMap_cons]
      rfl

theorem visit_intervals (d : Damage) (node : NodeData) (kind : Option String) :
    (d.visit sourceSize node kind).intervals =
      d.intervals ++
        ((([node].filter (·.damaged)).map (·.span sourceSize)).filter fun i => i.1 < i.2) := by
  unfold Damage.visit
  cases hdamaged : node.damaged with
  | false => simp [hdamaged]
  | true =>
    by_cases hspan : (node.span sourceSize).1 < (node.span sourceSize).2
    · simp [hdamaged, hspan]
    · simp [hdamaged, hspan]

theorem foldl_visit_intervals (nodes : List (NodeData × Option String)) (d : Damage) :
    (nodes.foldl (fun d np => d.visit sourceSize np.1 np.2) d).intervals =
      d.intervals ++
        ((((nodes.map Prod.fst).filter (·.damaged)).map (·.span sourceSize)).filter
          fun i => i.1 < i.2) := by
  induction nodes generalizing d with
  | nil => simp
  | cons np nodes ih =>
    rw [List.foldl_cons, ih, visit_intervals, List.append_assoc, ← List.filter_append,
      ← List.map_append, ← List.filter_append]
    rfl

theorem damagedBytes_eq (root : Node) :
    (collectTreeSitterDamage sourceSize root).damagedBytes =
      mergeIntervals (root.recordedSpans sourceSize) := by
  have hwalk := @walk_eq sourceSize root.size [(root, none)] {} (by simp [stackSize])
  have hintervals : (walk sourceSize root.size [(root, none)] {}).intervals =
      root.recordedSpans sourceSize := by
    rw [hwalk, List.flatMap_singleton, foldl_visit_intervals]
    rfl
  simp only [collectTreeSitterDamage, hintervals]

theorem clamp_bounds (low n : Int) (hlow : low ≤ sourceSize) :
    low ≤ clamp sourceSize low n ∧ clamp sourceSize low n ≤ sourceSize := by
  unfold clamp
  dsimp only
  split <;> split <;> omega

/-- A span lies in the source, and does not end before it starts. -/
theorem span_bounds (node : NodeData) :
    0 ≤ (node.span sourceSize).1 ∧ (node.span sourceSize).1 ≤ (node.span sourceSize).2 ∧
      (node.span sourceSize).2 ≤ sourceSize := by
  have hstart := @clamp_bounds sourceSize 0 node.startByte (by omega)
  unfold NodeData.span
  dsimp only
  generalize (match node.endByte with
    | some n => if n = 0 then clamp sourceSize 0 node.startByte else n
    | none => clamp sourceSize 0 node.startByte) = endByte
  have hstop := @clamp_bounds sourceSize (clamp sourceSize 0 node.startByte) endByte hstart.2
  split
  · split <;> dsimp only <;> omega
  · exact ⟨hstart.1, hstop.1, hstop.2⟩

theorem recordedSpans_covered (root : Node) :
    covered (root.recordedSpans sourceSize) ⊆ points (0, (sourceSize : Int)) := by
  intro x hx
  obtain ⟨i, hi, hle, hlt⟩ := mem_covered.mp hx
  obtain ⟨node, -, rfl⟩ := List.mem_map.mp (List.mem_of_mem_filter hi)
  have hbounds := @span_bounds sourceSize node
  rw [mem_points]
  dsimp only
  omega

/-- **`damaged_bytes` measures the recorded spans.** It is the number of positions that they cover,
hence at most the size of the source; it depends on the damaged nodes and not on their order, and
does not decrease with more of them. -/
theorem damage_measure (root : Node) (sourceSize : Nat) :
    (collectTreeSitterDamage sourceSize root).damagedBytes =
        (covered (root.recordedSpans sourceSize)).card ∧
      (collectTreeSitterDamage sourceSize root).damagedBytes ≤ sourceSize ∧
      (∀ root' : Node, root.damagedNodes.Perm root'.damagedNodes →
        (collectTreeSitterDamage sourceSize root).damagedBytes =
          (collectTreeSitterDamage sourceSize root').damagedBytes) ∧
      ∀ root' : Node, root.damagedNodes ⊆ root'.damagedNodes →
        (collectTreeSitterDamage sourceSize root).damagedBytes ≤
          (collectTreeSitterDamage sourceSize root').damagedBytes := by
  have hmeasure : ∀ node : Node, (collectTreeSitterDamage sourceSize node).damagedBytes =
      (covered (node.recordedSpans sourceSize)).card := by
    intro node
    rw [damagedBytes_eq]
    refine mergeIntervals_card fun i hi => ?_
    exact Int.le_of_lt (by simpa using (List.mem_filter.mp hi).2)
  have hmono : ∀ root' : Node, root.damagedNodes ⊆ root'.damagedNodes →
      (collectTreeSitterDamage sourceSize root).damagedBytes ≤
        (collectTreeSitterDamage sourceSize root').damagedBytes := by
    intro root' hsub
    rw [hmeasure, hmeasure]
    have hspans : root.recordedSpans sourceSize ⊆ root'.recordedSpans sourceSize := by
      intro i hi
      obtain ⟨hmem, hlt⟩ := List.mem_filter.mp hi
      exact List.mem_filter.mpr ⟨List.map_subset _ hsub hmem, hlt⟩
    exact_mod_cast Finset.card_le_card (covered_subset hspans)
  refine ⟨hmeasure root, ?_, ?_, hmono⟩
  · rw [hmeasure]
    have hcard := Finset.card_le_card (@recordedSpans_covered sourceSize root)
    rw [card_points] at hcard
    omega
  · intro root' hperm
    rw [hmeasure, hmeasure]
    have hspans : (root.recordedSpans sourceSize).Perm (root'.recordedSpans sourceSize) :=
      (hperm.map _).filter _
    rw [covered_perm hspans]

end CortexHarness.Common
