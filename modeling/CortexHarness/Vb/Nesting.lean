import CortexHarness.Library.Reorder
import CortexHarness.Vb.Blocks
import Mathlib.Data.List.Forall2

/-!
# Nested VB blocks

`Nests` are the sources made of nested blocks, line by line: a line opens a block, closes one, or
does neither (`marks`). A procedure may stand without an `End` line, as in an interface or with
`MustOverride`, and an `End` line of a procedure may stand on its own between the members of a
type, as of a property that is declared without `Get`, `Set` or `Let`.

`readLines` leaves the stacks of namespaces and types as they were, and what it emits or leaves
open are the declarations (`nests_grown`). The path of a declaration is the dotted name of what it
stands in; the id of a function has it (`functions_apart`), that of a class only has the
namespaces, and that of a property nothing of it.

Result: **`blocks_sound_iff`**.
-/

namespace CortexHarness.Vb

open Messages (splitLines)

variable (rules : Rules)

/-! ## Sources of nested blocks -/

/-- What the loop body finds in a line. -/
structure Marks where
  funcEnd : Bool := false
  typeEnd : Bool := false
  namespaceEnd : Bool := false
  namespaceStart : Option String := none
  typeStart : Option (String × String) := none
  funcStart : Option FuncHead := none
  deriving DecidableEq

def marks (raw : String) : Marks :=
  let stripped := strip raw
  if stripped = "" then {}
  else
    { funcEnd := isFuncEnd rules stripped
      typeEnd := isTypeEnd rules stripped
      namespaceEnd := isNamespaceEnd rules stripped
      namespaceStart := (namespaceStart rules).match? stripped.toList
      typeStart := (typeStart rules).match? stripped.toList
      funcStart := (funcStart rules).match? stripped.toList }

/-- What a declaration stands in: the names of the namespaces and types, the innermost first. -/
structure Scope where
  namespaces : List String
  types : List String
  deriving DecidableEq

/-- The dotted name of a scope. -/
def Scope.path (scope : Scope) : String :=
  qualify [(dotted scope.namespaces).getD "", (dotted scope.types).getD ""]

/-- The first line of a procedure. -/
structure Procedure where
  scope : Scope
  header : String
  head : FuncHead
  line : Nat

/-- A type, from its first line to its last. -/
structure TypeBlock where
  scope : Scope
  name : String
  kind : String
  line : Nat
  endLine : Nat

/-- A namespace, from its first line to its last. -/
structure NamespaceBlock where
  outer : List String
  name : String
  line : Nat
  endLine : Nat

/-- The dotted name of a type. -/
def TypeBlock.path (block : TypeBlock) : String :=
  Scope.path ⟨block.scope.namespaces, block.name :: block.scope.types⟩

/-- What a source declares: the procedures with the line that ends them, those without one, the
types and the namespaces, each in the order of the last lines. -/
structure Declared where
  ended : List (Procedure × Nat) := []
  bare : List Procedure := []
  types : List TypeBlock := []
  namespaces : List NamespaceBlock := []

def Declared.append (d d' : Declared) : Declared where
  ended := d.ended ++ d'.ended
  bare := d.bare ++ d'.bare
  types := d.types ++ d'.types
  namespaces := d.namespaces ++ d'.namespaces

/-- The lines from line `n` on, inside `scope`, are nested blocks and declare `d`. -/
inductive Nests : Scope → Nat → List String → Declared → Prop where
  | done (scope : Scope) (n : Nat) : Nests scope n [] {}
  | plain {scope : Scope} {n : Nat} {raw : String} {rest : List String} {d : Declared}
      (h : marks rules raw = {}) (hrest : Nests scope (n + 1) rest d) :
      Nests scope n (raw :: rest) d
  | stray {scope : Scope} {n : Nat} {raw : String} {rest : List String} {d : Declared}
      (h : marks rules raw = { funcEnd := true }) (hrest : Nests scope (n + 1) rest d) :
      Nests scope n (raw :: rest) d
  | bare {scope : Scope} {n : Nat} {raw : String} {head : FuncHead} {rest : List String}
      {d : Declared} (h : marks rules raw = { funcStart := some head })
      (hrest : Nests scope (n + 1) rest d) :
      Nests scope n (raw :: rest)
        (Declared.append { bare := [⟨scope, strip raw, head, n⟩] } d)
  | procedure {scope : Scope} {n : Nat} {raw last : String} {head : FuncHead}
      {body rest : List String} {d : Declared} (h : marks rules raw = { funcStart := some head })
      (hbody : ∀ line ∈ body, marks rules line = {})
      (hlast : marks rules last = { funcEnd := true })
      (hrest : Nests scope (n + 1 + body.length + 1) rest d) :
      Nests scope n (raw :: (body ++ last :: rest))
        (Declared.append { ended := [(⟨scope, strip raw, head, n⟩, n + 1 + body.length)] } d)
  | typeBlock {scope : Scope} {n : Nat} {raw last kind name : String} {inner rest : List String}
      {d d' : Declared} (h : marks rules raw = { typeStart := some (kind, name) })
      (hinner : Nests ⟨scope.namespaces, name :: scope.types⟩ (n + 1) inner d)
      (hlast : marks rules last = { typeEnd := true })
      (hrest : Nests scope (n + 1 + inner.length + 1) rest d') :
      Nests scope n (raw :: (inner ++ last :: rest))
        ((d.append { types := [⟨scope, name, kind, n, n + 1 + inner.length⟩] }).append d')
  | namespaceBlock {scope : Scope} {n : Nat} {raw last name : String} {inner rest : List String}
      {d d' : Declared} (hscope : scope.types = [])
      (h : marks rules raw = { namespaceStart := some name })
      (hinner : Nests ⟨name :: scope.namespaces, scope.types⟩ (n + 1) inner d)
      (hlast : marks rules last = { namespaceEnd := true })
      (hrest : Nests scope (n + 1 + inner.length + 1) rest d') :
      Nests scope n (raw :: (inner ++ last :: rest))
        ((d.append { namespaces := [⟨scope.namespaces, name, n, n + 1 + inner.length⟩] }).append d')

/-! ## One line -/

section Lines

variable {rules} {relPath : String} {lines : List String} {s : State} {idx : Nat} {raw : String}

theorem marks_tests {m : Marks} (h : marks rules raw = m) (hm : m ≠ {}) :
    strip raw ≠ "" ∧ isFuncEnd rules (strip raw) = m.funcEnd ∧
      isTypeEnd rules (strip raw) = m.typeEnd ∧
      isNamespaceEnd rules (strip raw) = m.namespaceEnd ∧
      (namespaceStart rules).match? (strip raw).toList = m.namespaceStart ∧
      (typeStart rules).match? (strip raw).toList = m.typeStart ∧
      (funcStart rules).match? (strip raw).toList = m.funcStart := by
  subst h
  unfold marks at hm ⊢
  dsimp only at hm ⊢
  by_cases hblank : strip raw = ""
  · rw [if_pos hblank] at hm
    exact absurd rfl hm
  · simp only [hblank, if_false, ne_eq, not_false_eq_true, and_self]

theorem readLine_plain (h : marks rules raw = {}) :
    readLine rules relPath lines s idx raw = s := by
  unfold marks at h
  unfold readLine
  dsimp only at h ⊢
  split
  · rfl
  · rw [if_neg (by assumption)] at h
    simp only [Marks.mk.injEq] at h
    simp [closeType, closeNamespace, openBlock_nothing, h]

theorem readLine_stray (h : marks rules raw = { funcEnd := true }) :
    readLine rules relPath lines s idx raw = s ∧ s.funcStack = [] ∨
      ∃ open_ rest, s.funcStack = open_ :: rest ∧ readLine rules relPath lines s idx raw =
        { s with
          funcStack := rest
          functions := s.functions ++ [functionDef relPath lines open_ idx] } := by
  obtain ⟨hblank, hfunc, htype, hnamespace, hopen⟩ := marks_tests h (by decide)
  unfold readLine
  dsimp only
  rw [if_neg hblank, hfunc]
  cases hstack : s.funcStack with
  | nil =>
    exact .inl
      ⟨by simp [closeType, closeNamespace, openBlock_nothing, htype, hnamespace, hopen], rfl⟩
  | cons open_ rest => exact .inr ⟨open_, rest, rfl, rfl⟩

theorem readLine_funcEnd (h : marks rules raw = { funcEnd := true }) {open_ : OpenFunc}
    {rest : List OpenFunc} (hstack : s.funcStack = open_ :: rest) :
    readLine rules relPath lines s idx raw =
      { s with
        funcStack := rest
        functions := s.functions ++ [functionDef relPath lines open_ idx] } := by
  rcases readLine_stray h with ⟨-, hnone⟩ | ⟨open_', rest', hstack', hline⟩
  · exact absurd (hstack.symm.trans hnone) (by simp)
  · obtain ⟨rfl, rfl⟩ := List.cons.inj (hstack.symm.trans hstack')
    exact hline

theorem readLine_func {head : FuncHead} (h : marks rules raw = { funcStart := some head }) :
    readLine rules relPath lines s idx raw =
      { s with
        funcStack :=
          openFunc rules (s.typeStack.map (·.name)) (s.nsStack.map (·.name)) (strip raw) head idx ::
            s.funcStack } := by
  obtain ⟨hblank, hfunc, htype, hnamespace, hopen⟩ := marks_tests h (by simp)
  simp [readLine_open, openBlock, hblank, hfunc, htype, hnamespace, hopen]

theorem readLine_type {kind name : String}
    (h : marks rules raw = { typeStart := some (kind, name) }) :
    readLine rules relPath lines s idx raw =
      { s with typeStack := ⟨name, kind, idx⟩ :: s.typeStack } := by
  obtain ⟨hblank, hfunc, htype, hnamespace, hopen⟩ := marks_tests h (by simp)
  simp [readLine_open, openBlock, hblank, hfunc, htype, hnamespace, hopen]

theorem readLine_namespace {name : String}
    (h : marks rules raw = { namespaceStart := some name }) :
    readLine rules relPath lines s idx raw =
      { s with nsStack := ⟨name, idx⟩ :: s.nsStack } := by
  obtain ⟨hblank, hfunc, htype, hnamespace, hopen⟩ := marks_tests h (by simp)
  simp [readLine_open, openBlock, hblank, hfunc, htype, hnamespace, hopen]

theorem readLine_typeEnd (h : marks rules raw = { typeEnd := true }) {open_ : OpenType}
    {rest : List OpenType} (hstack : s.typeStack = open_ :: rest) :
    readLine rules relPath lines s idx raw =
      { s with
        typeStack := rest
        classes := s.classes ++
          [classDef rules relPath lines (s.nsStack.map (·.name)) open_ idx] } := by
  obtain ⟨hblank, hfunc, htype, -⟩ := marks_tests h (by decide)
  simp [readLine, closeType, hblank, hfunc, htype, hstack]

theorem readLine_namespaceEnd (h : marks rules raw = { namespaceEnd := true })
    {open_ : OpenNamespace} {rest : List OpenNamespace} (hstack : s.nsStack = open_ :: rest) :
    readLine rules relPath lines s idx raw =
      { s with
        nsStack := rest
        namespaces := s.namespaces ++
          [namespaceDef relPath lines (rest.map (·.name)) open_ idx] } := by
  obtain ⟨hblank, hfunc, htype, hnamespace, -⟩ := marks_tests h (by decide)
  simp [readLine, closeType, closeNamespace, hblank, hfunc, htype, hnamespace, hstack]

theorem readLines_append (raws raws' : List String) :
    readLines rules relPath lines s idx (raws ++ raws') =
      readLines rules relPath lines (readLines rules relPath lines s idx raws)
        (idx + raws.length) raws' := by
  induction raws generalizing s idx with
  | nil => rfl
  | cons raw raws ih =>
    rw [List.cons_append, readLines, readLines, ih, List.length_cons]
    congr 1
    omega

theorem readLines_plain {body : List String} (h : ∀ line ∈ body, marks rules line = {}) :
    readLines rules relPath lines s idx body = s := by
  induction body generalizing idx with
  | nil => rfl
  | cons line body ih =>
    rw [readLines, readLine_plain (h line List.mem_cons_self)]
    exact ih fun l hl => h l (List.mem_cons_of_mem _ hl)

end Lines

/-! ## The declarations -/

section Declarations

variable {rules} (relPath : String) (lines : List String)

/-- The entry of a procedure. -/
def Procedure.entry (rules : Rules) (p : Procedure) : OpenFunc :=
  openFunc rules p.scope.types p.scope.namespaces p.header p.head p.line

/-- The function of a procedure that ends at a line. -/
def Procedure.function (rules : Rules) (ended : Procedure × Nat) : FunctionDef :=
  functionDef relPath lines (ended.1.entry rules) ended.2

def TypeBlock.class (rules : Rules) (block : TypeBlock) : ClassDef :=
  classDef rules relPath lines block.scope.namespaces ⟨block.name, block.kind, block.line⟩
    block.endLine

def NamespaceBlock.def (block : NamespaceBlock) : NamespaceDef :=
  namespaceDef relPath lines block.outer ⟨block.name, block.line⟩ block.endLine

/-- From `s` to `s'` the lines before `n` have declared `d`: what has been emitted or is open now is
what was before, and the declarations. The procedures of `early` are closed by a line that is not
theirs. -/
structure Grown (rules : Rules) (s s' : State) (d : Declared) (n : Nat) : Prop where
  nsStack : s'.nsStack = s.nsStack
  typeStack : s'.typeStack = s.typeStack
  classes : s'.classes = s.classes ++ d.types.map (TypeBlock.class relPath lines rules)
  namespaces : s'.namespaces = s.namespaces ++ d.namespaces.map (NamespaceBlock.def relPath lines)
  functions : ∃ early : List (OpenFunc × Nat),
    s'.functions.Perm (s.functions ++ (d.ended.map (Procedure.function relPath lines rules) ++
      early.map fun e => functionDef relPath lines e.1 e.2)) ∧
    (s'.funcStack ++ early.map Prod.fst).Perm
      (s.funcStack ++ d.bare.map (Procedure.entry rules)) ∧
    ∀ e ∈ early, e.1.startLine ≤ e.2
  before : ∀ open_ ∈ s'.funcStack, open_.startLine < n

variable {relPath lines} {s s' s'' : State} {d d' : Declared} {n n' : Nat}

theorem Grown.refl (h : ∀ open_ ∈ s.funcStack, open_.startLine < n) :
    Grown relPath lines rules s s {} n where
  nsStack := rfl
  typeStack := rfl
  classes := by simp
  namespaces := by simp
  functions := ⟨[], by simp, by simp, by simp⟩
  before := h

theorem Grown.trans (h : Grown relPath lines rules s s' d n)
    (h' : Grown relPath lines rules s' s'' d' n') :
    Grown relPath lines rules s s'' (d.append d') n' := by
  obtain ⟨early, hfunctions, hstack, hearly⟩ := h.functions
  obtain ⟨early', hfunctions', hstack', hearly'⟩ := h'.functions
  refine ⟨h'.nsStack.trans h.nsStack, h'.typeStack.trans h.typeStack, ?_, ?_,
    ⟨early ++ early', ?_, ?_, ?_⟩, h'.before⟩
  · rw [h'.classes, h.classes, List.append_assoc, ← List.map_append]
    rfl
  · rw [h'.namespaces, h.namespaces, List.append_assoc, ← List.map_append]
    rfl
  · refine hfunctions'.trans ((hfunctions.append_right _).trans ?_)
    simp only [Declared.append, List.map_append, List.append_assoc]
    refine List.Perm.append_left _ (List.Perm.append_left _ ?_)
    rw [← List.append_assoc, ← List.append_assoc]
    exact List.perm_append_comm.append_right _
  · -- what the second part closes early was open before it or is declared by it
    simp only [Declared.append, List.map_append]
    rw [← List.append_assoc, ← List.append_assoc]
    have hswap : (s''.funcStack ++ early.map Prod.fst ++ early'.map Prod.fst).Perm
        (s''.funcStack ++ early'.map Prod.fst ++ early.map Prod.fst) := by
      rw [List.append_assoc, List.append_assoc]
      exact List.perm_append_comm.append_left _
    refine hswap.trans ((hstack'.append_right _).trans ?_)
    rw [List.append_assoc]
    refine (List.perm_append_comm.append_left _).trans ?_
    rw [← List.append_assoc]
    exact hstack.append_right _
  · intro e he
    rcases List.mem_append.mp he with he | he
    · exact hearly e he
    · exact hearly' e he

/-- A procedure without an `End` line stays open. -/
theorem Grown.bare {p : Procedure} (h : ∀ open_ ∈ s.funcStack, open_.startLine < n)
    (hline : p.line = n) :
    Grown relPath lines rules s { s with funcStack := p.entry rules :: s.funcStack }
      { bare := [p] } (n + 1) where
  nsStack := rfl
  typeStack := rfl
  classes := by simp
  namespaces := by simp
  functions := ⟨[], by simp, by simpa using (List.perm_append_singleton _ _).symm, by simp⟩
  before := by
    intro open_ hopen
    rcases List.mem_cons.mp hopen with rfl | hopen
    · show p.line < n + 1
      omega
    · exact Nat.lt_succ_of_lt (h open_ hopen)

/-- A line that ends the procedure on top. -/
theorem Grown.early {open_ : OpenFunc} {rest : List OpenFunc} (hstack : s.funcStack = open_ :: rest)
    (h : ∀ open_ ∈ s.funcStack, open_.startLine < n) :
    Grown relPath lines rules s
      { s with
        funcStack := rest
        functions := s.functions ++ [functionDef relPath lines open_ n] } {} (n + 1) where
  nsStack := rfl
  typeStack := rfl
  classes := by simp
  namespaces := by simp
  functions := by
    refine ⟨[(open_, n)], by simp, ?_, ?_⟩
    · rw [hstack]
      simp
    · intro e he
      rw [List.mem_singleton.mp he]
      exact Nat.le_of_lt (h open_ (by simp [hstack]))
  before := by
    intro o ho
    exact Nat.lt_succ_of_lt (h o (by simp [hstack, ho]))

theorem Grown.procedure {p : Procedure} {m : Nat}
    (h : ∀ open_ ∈ s.funcStack, open_.startLine < n) (hm : n ≤ m) :
    Grown relPath lines rules s
      { s with functions := s.functions ++ [functionDef relPath lines (p.entry rules) m] }
      { ended := [(p, m)] } (m + 1) where
  nsStack := rfl
  typeStack := rfl
  classes := by simp
  namespaces := by simp
  functions := ⟨[], by simp [Procedure.function], by simp, by simp⟩
  before := fun open_ hopen => by
    have hlt := h open_ hopen
    omega

theorem Grown.type {block : TypeBlock} (hscope : s.nsStack.map (·.name) = block.scope.namespaces)
    (h : Grown relPath lines rules
      { s with typeStack := ⟨block.name, block.kind, block.line⟩ :: s.typeStack } s' d n) :
    Grown relPath lines rules s
      { s' with
        typeStack := s.typeStack
        classes := s'.classes ++
          [classDef rules relPath lines (s'.nsStack.map (·.name))
            ⟨block.name, block.kind, block.line⟩ block.endLine] }
      (d.append { types := [block] }) (n + 1) where
  nsStack := h.nsStack
  typeStack := rfl
  classes := by
    have hnames : s'.nsStack.map (·.name) = block.scope.namespaces := by rw [h.nsStack, hscope]
    rw [h.classes, hnames]
    simp [Declared.append, TypeBlock.class]
  namespaces := by
    rw [h.namespaces]
    simp [Declared.append]
  functions := by
    obtain ⟨early, hfunctions, hstack, hearly⟩ := h.functions
    exact ⟨early, by simpa [Declared.append] using hfunctions,
      by simpa [Declared.append] using hstack, hearly⟩
  before := fun open_ hopen => Nat.lt_succ_of_lt (h.before open_ hopen)

theorem Grown.namespace {block : NamespaceBlock} (hscope : s.nsStack.map (·.name) = block.outer)
    (h : Grown relPath lines rules
      { s with nsStack := ⟨block.name, block.line⟩ :: s.nsStack } s' d n) :
    Grown relPath lines rules s
      { s' with
        nsStack := s.nsStack
        namespaces := s'.namespaces ++
          [namespaceDef relPath lines (s.nsStack.map (·.name)) ⟨block.name, block.line⟩
            block.endLine] }
      (d.append { namespaces := [block] }) (n + 1) where
  nsStack := rfl
  typeStack := h.typeStack
  classes := by
    rw [h.classes]
    simp [Declared.append]
  namespaces := by
    rw [h.namespaces, hscope]
    simp [Declared.append, NamespaceBlock.def]
  functions := by
    obtain ⟨early, hfunctions, hstack, hearly⟩ := h.functions
    exact ⟨early, by simpa [Declared.append] using hfunctions,
      by simpa [Declared.append] using hstack, hearly⟩
  before := fun open_ hopen => Nat.lt_succ_of_lt (h.before open_ hopen)

theorem Declared.nil_append (d : Declared) : Declared.append {} d = d := by simp [Declared.append]

/-- **What the loop makes of nested blocks**, by induction on how the lines are nested. -/
theorem nests_grown {scope : Scope} {raws : List String} (h : Nests rules scope n raws d)
    (s : State) (htypes : s.typeStack.map (·.name) = scope.types)
    (hnamespaces : s.nsStack.map (·.name) = scope.namespaces)
    (hbefore : ∀ open_ ∈ s.funcStack, open_.startLine < n) :
    Grown relPath lines rules s (readLines rules relPath lines s n raws) d (n + raws.length) := by
  induction h generalizing s with
  | done scope n => exact .refl hbefore
  | @plain scope n raw rest d h _ ih =>
    rw [readLines, readLine_plain h, List.length_cons, Nat.add_comm rest.length, ← Nat.add_assoc]
    exact ih s htypes hnamespaces fun o ho => Nat.lt_succ_of_lt (hbefore o ho)
  | @stray scope n raw rest d h _ ih =>
    rw [readLines, List.length_cons, Nat.add_comm rest.length, ← Nat.add_assoc]
    have hstray := @readLine_stray rules relPath lines s n raw h
    rcases hstray with ⟨hline, -⟩ | ⟨open_, below, hstack, hline⟩
    · rw [hline]
      exact ih s htypes hnamespaces fun o ho => Nat.lt_succ_of_lt (hbefore o ho)
    · have hstep : Grown relPath lines rules s _ {} (n + 1) := .early hstack hbefore
      rw [hline, ← Declared.nil_append d]
      exact hstep.trans (ih _ htypes hnamespaces hstep.before)
  | @bare scope n raw head rest d h _ ih =>
    have hstep : Grown relPath lines rules s _ { bare := [⟨scope, strip raw, head, n⟩] } (n + 1) :=
      .bare hbefore rfl
    rw [readLines, readLine_func h, htypes, hnamespaces, List.length_cons,
      Nat.add_comm rest.length, ← Nat.add_assoc]
    exact hstep.trans (ih _ htypes hnamespaces hstep.before)
  | @procedure scope n raw last head body rest d h hbody hlast _ ih =>
    have hstep : Grown relPath lines rules s _
        { ended := [(⟨scope, strip raw, head, n⟩, n + 1 + body.length)] }
        (n + 1 + body.length + 1) := .procedure hbefore (by omega)
    rw [readLines, readLines_append, readLines_plain hbody, readLine_func h, readLines,
      readLine_funcEnd hlast rfl, htypes, hnamespaces]
    have hlength : n + (raw :: (body ++ last :: rest)).length =
        n + 1 + body.length + 1 + rest.length := by
      simp only [List.length_cons, List.length_append]
      omega
    rw [hlength]
    exact hstep.trans (ih _ htypes hnamespaces hstep.before)
  | @typeBlock scope n raw last kind name inner rest d d' h _ hlast _ ih ih' =>
    have hinner := ih { s with typeStack := ⟨name, kind, n⟩ :: s.typeStack } (by simp [htypes])
      hnamespaces fun o ho => Nat.lt_succ_of_lt (hbefore o ho)
    have hstep : Grown relPath lines rules s _
        (d.append { types := [⟨scope, name, kind, n, n + 1 + inner.length⟩] }) _ :=
      .type hnamespaces hinner
    rw [readLines, readLines_append, readLine_type h, readLines,
      readLine_typeEnd hlast hinner.typeStack]
    have hlength : n + (raw :: (inner ++ last :: rest)).length =
        n + 1 + inner.length + 1 + rest.length := by
      simp only [List.length_cons, List.length_append]
      omega
    rw [hlength]
    exact hstep.trans (ih' _ htypes (by rw [hstep.nsStack, hnamespaces]) hstep.before)
  | @namespaceBlock scope n raw last name inner rest d d' hscope h _ hlast _ ih ih' =>
    have hinner := ih { s with nsStack := ⟨name, n⟩ :: s.nsStack } htypes (by simp [hnamespaces])
      fun o ho => Nat.lt_succ_of_lt (hbefore o ho)
    have hstep : Grown relPath lines rules s _
        (d.append { namespaces := [⟨scope.namespaces, name, n, n + 1 + inner.length⟩] }) _ :=
      .namespace hnamespaces hinner
    rw [readLines, readLines_append, readLine_namespace h, readLines,
      readLine_namespaceEnd hlast hinner.nsStack]
    have hlength : n + (raw :: (inner ++ last :: rest)).length =
        n + 1 + inner.length + 1 + rest.length := by
      simp only [List.length_cons, List.length_append]
      omega
    rw [hlength]
    exact hstep.trans (ih' _ (by rw [hstep.typeStack, htypes]) hnamespaces hstep.before)

end Declarations

/-! ## Paths and ids -/

theorem qualify_pair (a b : String) :
    qualify [a, b] = if a = "" then b else if b = "" then a else a ++ "." ++ b := by
  by_cases ha : a = ""
  · by_cases hb : b = "" <;> simp [qualify, ha, hb]
  · by_cases hb : b = "" <;> simp [qualify, ha, hb]

/-- The name of what stands in a path is the path and the name. -/
theorem qualify_three (a b c : String) : qualify [a, b, c] = qualify [qualify [a, b], c] := by
  rw [qualify_pair, qualify_pair]
  by_cases ha : a = ""
  · by_cases hb : b = "" <;> by_cases hc : c = "" <;> simp [qualify, ha, hb, hc]
  · by_cases hb : b = "" <;> by_cases hc : c = "" <;>
      simp [qualify, ha, hb, hc, String.append_assoc]

theorem append_left_cancel {a b c : String} (h : a ++ c = b ++ c) : a = b := by
  have hchars := congrArg String.toList h
  rw [String.toList_append, String.toList_append] at hchars
  exact String.toList_inj.mp (List.append_cancel_right hchars)

/-- A longer text is not its own end. -/
theorem ne_append {a b : String} (h : b ≠ "") : a ≠ b ++ a := by
  intro he
  have hlength := congrArg String.length he
  rw [String.length_append] at hlength
  exact h (String.length_eq_zero_iff.mp (by omega))

theorem dot_ne_empty (a : String) : a ++ "." ≠ "" := by
  intro he
  have hlength := congrArg String.length he
  rw [String.length_append] at hlength
  exact absurd hlength (by simp)

/-- Names in different paths are different. -/
theorem qualify_left_inj {a b c : String} (h : qualify [a, c] = qualify [b, c]) : a = b := by
  rw [qualify_pair, qualify_pair] at h
  by_cases ha : a = "" <;> by_cases hb : b = ""
  · rw [ha, hb]
  · rw [if_pos ha, if_neg hb] at h
    by_cases hc : c = ""
    · rw [if_pos hc] at h
      exact absurd (h.symm.trans hc) hb
    · rw [if_neg hc] at h
      exact absurd h (ne_append (dot_ne_empty b))
  · rw [if_neg ha, if_pos hb] at h
    by_cases hc : c = ""
    · rw [if_pos hc] at h
      exact absurd (h.trans hc) ha
    · rw [if_neg hc] at h
      exact absurd h.symm (ne_append (dot_ne_empty a))
  · rw [if_neg ha, if_neg hb] at h
    by_cases hc : c = ""
    · rwa [if_pos hc, if_pos hc] at h
    · rw [if_neg hc, if_neg hc] at h
      exact append_left_cancel (append_left_cancel h)

theorem eq_empty_of_qualify {a b : String} (h : qualify [a, b] = "") : b = "" := by
  rw [qualify_pair] at h
  by_cases ha : a = ""
  · rwa [if_pos ha] at h
  · by_contra hb
    rw [if_neg ha, if_neg hb] at h
    have hlength := congrArg String.length h
    rw [String.length_append] at hlength
    simp at hlength

theorem qualified_or_name (a b : String) :
    (if qualify [a, b] ≠ "" then qualify [a, b] else b) = qualify [a, b] := by
  by_cases h : qualify [a, b] = ""
  · rw [if_neg (by simpa using h), h, eq_empty_of_qualify h]
  · rw [if_pos h]

section Ids

variable {relPath : String} {lines : List String}

/-- The id of a function says where it stands, its name and its arity. -/
def FunctionDef.Shaped (relPath : String) (f : FunctionDef) : Prop :=
  f.symbolId =
    qualify [qualify [f.namespaceName.getD "", f.className.getD ""], f.name] ++ "/" ++
      toString f.arity ++ "@" ++ relPath

/-- The id of a class says its namespaces and its name. -/
def ClassDef.Shaped (relPath : String) (c : ClassDef) : Prop :=
  c.symbolId = qualify [c.namespaceName.getD "", c.name] ++ "@" ++ relPath

theorem functionDef_shaped (open_ : OpenFunc) (endLine : Nat) :
    (functionDef relPath lines open_ endLine).Shaped relPath := by
  simp only [FunctionDef.Shaped, functionDef, qualify_three]
  rw [qualified_or_name]

theorem classDef_shaped (names : List String) (open_ : OpenType) (endLine : Nat) :
    (classDef rules relPath lines names open_ endLine).Shaped relPath := by
  simp only [ClassDef.Shaped, classDef]
  rw [qualified_or_name]

end Ids

/-! ## What is promised -/

/-- The procedures that a source declares, with the line that ends them. -/
def Declared.procedures (d : Declared) : List (Procedure × Option Nat) :=
  d.ended.map (fun e => (e.1, some e.2)) ++ d.bare.map fun p => (p, none)

/-- A function is that of the procedure. -/
structure FunctionOf (p : Procedure × Option Nat) (f : FunctionDef) : Prop where
  name : f.name = p.1.head.name
  kind : f.kind = rules.lower p.1.head.kind
  arity : f.arity = guessArity (p.1.head.params.getD "")
  namespaceName : f.namespaceName = dotted p.1.scope.namespaces
  className : f.className = dotted p.1.scope.types
  startLine : f.startLine = p.1.line
  endLine : ∀ line, p.2 = some line → f.endLine = line

/-- A class is that of the type. -/
structure ClassOf (block : TypeBlock) (c : ClassDef) : Prop where
  name : c.name = block.name
  kind : c.kind = rules.lower block.kind
  namespaceName : c.namespaceName = dotted block.scope.namespaces
  startLine : c.startLine = block.line
  endLine : c.endLine = block.endLine

/-- An emitted namespace is that of the block. -/
structure NamespaceOf (block : NamespaceBlock) (c : NamespaceDef) : Prop where
  name : c.name = block.name
  startLine : c.startLine = block.line
  endLine : c.endLine = block.endLine

/-- The number of the line in which the character after `n` others stands. -/
def lineAt (source : String) (n : Nat) : Nat :=
  (splitLines [] (source.toList.take n ++ ['x'])).length

/-- The dotted name of what a line stands in. -/
def Declared.pathAt (d : Declared) (line : Nat) : String :=
  Scope.path
    { namespaces := (d.namespaces.filter fun b => b.line ≤ line ∧ line ≤ b.endLine).map (·.name)
      types := (d.types.filter fun b => b.line ≤ line ∧ line ≤ b.endLine).map (·.name) }

/-- The dotted name of what a property is declared in. -/
def Declared.propertyPath (d : Declared) (source : String)
    (found : Matcher.Found PropertyHead) : String :=
  d.pathAt (lineAt source found.captured.nameAt)

/-- **What is promised of a file of nested blocks.** One function for each procedure, one class for
each type and one namespace for each namespace, all of them with the line that ends them; no
interval that ends before it starts; and no id that two declarations in differently qualified types
share. -/
structure BlocksSound (source : String) (d : Declared) (out : Parsed) : Prop where
  functions : ∃ defs, defs.Perm out.functions ∧
    List.Forall₂ (FunctionOf rules) d.procedures defs ∧
    ∀ x ∈ d.procedures.zip defs, ∀ y ∈ d.procedures.zip defs,
      x.1.1.scope.path ≠ y.1.1.scope.path → x.2.name = y.2.name → x.2.arity = y.2.arity →
        x.2.symbolId ≠ y.2.symbolId
  classes : ∃ defs, defs.Perm out.classes ∧ List.Forall₂ (ClassOf rules) d.types defs ∧
    ∀ x ∈ d.types.zip defs, ∀ y ∈ d.types.zip defs, x.1.path ≠ y.1.path →
      x.2.symbolId ≠ y.2.symbolId
  namespaces : ∃ defs, defs.Perm out.namespaces ∧ List.Forall₂ NamespaceOf d.namespaces defs
  properties : ∀ x ∈ (Matcher.findAll (property rules) source.toList).zip out.properties,
    ∀ y ∈ (Matcher.findAll (property rules) source.toList).zip out.properties,
      d.propertyPath source x.1 ≠ d.propertyPath source y.1 → x.2.symbolId ≠ y.2.symbolId
  functionLines : ∀ f ∈ out.functions, f.startLine ≤ f.endLine
  classLines : ∀ c ∈ out.classes, c.startLine ≤ c.endLine
  namespaceLines : ∀ c ∈ out.namespaces, c.startLine ≤ c.endLine
  propertyLines : ∀ p ∈ out.properties, p.startLine ≤ p.endLine

/-- No two types in different places have the same namespaces and name. -/
def TypesApart (d : Declared) : Prop :=
  ∀ t ∈ d.types, ∀ u ∈ d.types, t.path ≠ u.path →
    qualify [(dotted t.scope.namespaces).getD "", t.name] ≠
      qualify [(dotted u.scope.namespaces).getD "", u.name]

/-- No two properties in different places have the same name. -/
def PropertiesApart (source : String) (d : Declared) : Prop :=
  ∀ x ∈ Matcher.findAll (property rules) source.toList,
    ∀ y ∈ Matcher.findAll (property rules) source.toList,
      d.propertyPath source x ≠ d.propertyPath source y → x.captured.name ≠ y.captured.name

/-! ## The file -/

section File

variable {rules} {relPath source : String} {d : Declared}

/-- No block ends before it starts. -/
structure Declared.Ordered (d : Declared) : Prop where
  ended : ∀ e ∈ d.ended, e.1.line ≤ e.2
  types : ∀ t ∈ d.types, t.line ≤ t.endLine
  namespaces : ∀ b ∈ d.namespaces, b.line ≤ b.endLine

theorem Declared.Ordered.append {d d' : Declared} (h : d.Ordered) (h' : d'.Ordered) :
    (d.append d').Ordered where
  ended := fun e he => (List.mem_append.mp he).elim (h.ended e) (h'.ended e)
  types := fun t ht => (List.mem_append.mp ht).elim (h.types t) (h'.types t)
  namespaces := fun b hb => (List.mem_append.mp hb).elim (h.namespaces b) (h'.namespaces b)

theorem nests_ordered {scope : Scope} {n : Nat} {raws : List String}
    (h : Nests rules scope n raws d) : d.Ordered := by
  induction h with
  | done => exact ⟨by simp, by simp, by simp⟩
  | plain _ _ ih => exact ih
  | stray _ _ ih => exact ih
  | bare _ _ ih => exact .append ⟨by simp, by simp, by simp⟩ ih
  | procedure _ _ _ _ ih =>
    refine .append ⟨?_, by simp, by simp⟩ ih
    simp only [List.mem_singleton, forall_eq]
    omega
  | typeBlock _ _ _ _ ih ih' =>
    refine .append (.append ih ⟨by simp, ?_, by simp⟩) ih'
    simp only [List.mem_singleton, forall_eq]
    omega
  | namespaceBlock _ _ _ _ _ ih ih' =>
    refine .append (.append ih ⟨by simp, by simp, ?_⟩) ih'
    simp only [List.mem_singleton, forall_eq]
    omega

theorem late_of_entries {procedures : List Procedure} {entries : List (OpenFunc × Nat)}
    (h : List.Forall₂ (fun p e => e.1 = Procedure.entry rules p) procedures entries) :
    ∃ late : List (Procedure × Nat), late.map Prod.fst = procedures ∧
      late.map (fun l => (l.1.entry rules, l.2)) = entries := by
  induction h with
  | nil => exact ⟨[], rfl, rfl⟩
  | @cons p e _ _ he _ ih =>
    obtain ⟨late, hprocedures, hentries⟩ := ih
    exact ⟨(p, e.2) :: late, by simp [hprocedures], by simp [hentries, ← he]⟩

/-- **What the file's blocks come to.** The procedures without an `End` line are those of `late`,
each closed somewhere after its first line. -/
theorem parsed_of_nests (h : Nests rules ⟨[], []⟩ 1 (splitLines [] source.toList) d) :
    ∃ late : List (Procedure × Nat), late.map Prod.fst = d.bare ∧
      (∀ e ∈ late, e.1.line ≤ e.2) ∧
      (parseVbFile rules relPath source).functions.Perm
        ((d.ended ++ late).map
          (Procedure.function relPath (splitLines [] source.toList) rules)) ∧
      (parseVbFile rules relPath source).classes =
        d.types.map (TypeBlock.class relPath (splitLines [] source.toList) rules) ∧
      (parseVbFile rules relPath source).namespaces =
        d.namespaces.map (NamespaceBlock.def relPath (splitLines [] source.toList)) := by
  generalize hlines : splitLines [] source.toList = lines at h ⊢
  have hgrown : Grown relPath lines rules ⟨[], [], [], [], [], []⟩ _ d _ :=
    nests_grown h ⟨[], [], [], [], [], []⟩ rfl rfl (by simp)
  obtain ⟨early, hfunctions, hstack, hearly⟩ := hgrown.functions
  have hns := hgrown.nsStack
  have htypes := hgrown.typeStack
  have hclasses := hgrown.classes
  have hnamespaces := hgrown.namespaces
  have hbefore := hgrown.before
  unfold parseVbFile
  dsimp only
  rw [hlines]
  generalize readLines rules relPath lines ⟨[], [], [], [], [], []⟩ 1 lines = s at *
  -- what is open at the end is closed at the last line
  generalize hend : (if lines.isEmpty then 1 else lines.length) = last
  have hlast : ∀ e ∈ early ++ s.funcStack.map (·, last), e.1.startLine ≤ e.2 := by
    intro e he
    rcases List.mem_append.mp he with he | he
    · exact hearly e he
    · obtain ⟨open_, hopen, rfl⟩ := List.mem_map.mp he
      have hlt := hbefore open_ hopen
      dsimp only
      rw [← hend]
      cases lines with
      | nil =>
        rw [List.length_nil] at hlt
        exact Nat.le_of_lt hlt
      | cons line lines =>
        rw [List.isEmpty_cons, if_neg Bool.false_ne_true]
        omega
  have hentries : (d.bare.map (Procedure.entry rules)).Perm
      ((early ++ s.funcStack.map (·, last)).map Prod.fst) := by
    rw [List.map_append, List.map_map]
    have hfst : s.funcStack.map (Prod.fst ∘ (·, last)) = s.funcStack := List.map_id _
    have hopen : (s.funcStack ++ early.map Prod.fst).Perm (d.bare.map (Procedure.entry rules)) :=
      hstack
    rw [hfst]
    exact hopen.symm.trans List.perm_append_comm
  have hsame : List.Forall₂ (fun (o : OpenFunc) (e : OpenFunc × Nat) => e.1 = o)
      ((early ++ s.funcStack.map (·, last)).map Prod.fst) (early ++ s.funcStack.map (·, last)) := by
    rw [List.forall₂_map_left_iff, List.forall₂_same]
    exact fun _ _ => rfl
  obtain ⟨entries, hof, hperm⟩ := List.perm_comp_forall₂ hentries hsame
  obtain ⟨late, hbare, hlate⟩ := late_of_entries (List.forall₂_map_left_iff.mp hof)
  refine ⟨late, hbare, ?_, ?_, ?_, ?_⟩
  · intro l hl
    have hmem : (l.1.entry rules, l.2) ∈ early ++ s.funcStack.map (·, last) :=
      hperm.subset (hlate ▸ List.mem_map_of_mem hl)
    exact hlast _ hmem
  · have hfunction : late.map (Procedure.function relPath lines rules) =
        entries.map fun e => functionDef relPath lines e.1 e.2 := by
      rw [← hlate, List.map_map]
      rfl
    rw [List.map_append, hfunction]
    simp only [closeBlocks, hend]
    refine (hfunctions.append_right _).trans ?_
    rw [List.nil_append, List.append_assoc]
    refine List.Perm.append_left _ ?_
    have hclosed := (hperm.map fun e => functionDef relPath lines e.1 e.2).symm
    rw [List.map_append, List.map_map] at hclosed
    exact hclosed
  · simpa [closeBlocks, htypes] using hclasses
  · simpa [closeBlocks, hns, closeNamespaces] using hnamespaces

theorem functionOf_late (e : Procedure × Nat) (lines : List String) (line : Option Nat)
    (hline : ∀ l, line = some l → e.2 = l) :
    FunctionOf rules (e.1, line) (Procedure.function relPath lines rules e) := by
  constructor
  case endLine => exact hline
  all_goals simp only [Procedure.function, functionDef, Procedure.entry, openFunc]

theorem endLineNum_ge (lines : List String) (line : Nat) : line ≤ endLineNum rules lines line := by
  unfold endLineNum
  split
  · omega
  · exact Nat.le_refl _

theorem propertyDef_symbolId (lines : List String) (found : Matcher.Found PropertyHead) :
    (propertyDef rules source.toList lines relPath [] [] found).symbolId =
      found.captured.name ++ "@" ++ relPath := by
  have hname : qualify ["", "", found.captured.name] = found.captured.name := by
    rw [qualify_three, qualify_pair, qualify_pair, if_pos rfl, if_pos rfl]
  simp only [propertyDef]
  exact congrArg (· ++ "@" ++ relPath) hname

theorem parse_properties :
    (parseVbFile rules relPath source).properties =
      (Matcher.findAll (property rules) source.toList).map
        (propertyDef rules source.toList (splitLines [] source.toList) relPath [] []) := by
  simp only [parseVbFile, closeBlocks, List.map_nil]

/-- Ids of one file are the same when the texts before the file are. -/
theorem id_inj {a b : String} (h : a ++ "@" ++ relPath = b ++ "@" ++ relPath) : a = b :=
  append_left_cancel (append_left_cancel h)

theorem properties_apart_iff :
    (∀ x ∈ (Matcher.findAll (property rules) source.toList).zip
        (parseVbFile rules relPath source).properties,
      ∀ y ∈ (Matcher.findAll (property rules) source.toList).zip
        (parseVbFile rules relPath source).properties,
        d.propertyPath source x.1 ≠ d.propertyPath source y.1 → x.2.symbolId ≠ y.2.symbolId) ↔
      PropertiesApart rules source d := by
  rw [parse_properties, Table.zip_map_self]
  constructor
  · intro hall x hx y hy hpath hname
    refine hall _ (List.mem_map_of_mem hx) _ (List.mem_map_of_mem hy) hpath ?_
    rw [propertyDef_symbolId, propertyDef_symbolId, hname]
  · intro hapart x hx y hy hpath hid
    obtain ⟨m, hm, rfl⟩ := List.mem_map.mp hx
    obtain ⟨m', hm', rfl⟩ := List.mem_map.mp hy
    rw [propertyDef_symbolId, propertyDef_symbolId] at hid
    exact hapart m hm m' hm' hpath (id_inj hid)

/-- Functions of procedures in different places have different ids. -/
theorem functions_apart {procedures : List (Procedure × Option Nat)}
    {defs : List FunctionDef} (hof : List.Forall₂ (FunctionOf rules) procedures defs)
    (hshaped : ∀ f ∈ defs, f.Shaped relPath)
    {x y : (Procedure × Option Nat) × FunctionDef} (hx : x ∈ procedures.zip defs)
    (hy : y ∈ procedures.zip defs) (hpath : x.1.1.scope.path ≠ y.1.1.scope.path)
    (hname : x.2.name = y.2.name) (harity : x.2.arity = y.2.arity) :
    x.2.symbolId ≠ y.2.symbolId := by
  have hshape : ∀ z ∈ procedures.zip defs, z.2.symbolId =
      qualify [z.1.1.scope.path, z.2.name] ++ "/" ++ toString z.2.arity ++ "@" ++ relPath := by
    intro z hz
    have hz' := List.forall₂_zip hof hz
    have hpath' : z.1.1.scope.path =
        qualify [z.2.namespaceName.getD "", z.2.className.getD ""] := by
      rw [hz'.namespaceName, hz'.className]
      rfl
    rw [hpath']
    exact hshaped z.2 (List.of_mem_zip hz).2
  intro hsame
  rw [hshape x hx, hshape y hy, harity, hname] at hsame
  exact hpath (qualify_left_inj (append_left_cancel (append_left_cancel (id_inj hsame))))

theorem classes_apart_iff (lines : List String) :
    (∃ defs, defs.Perm (d.types.map (TypeBlock.class relPath lines rules)) ∧
      List.Forall₂ (ClassOf rules) d.types defs ∧
      ∀ x ∈ d.types.zip defs, ∀ y ∈ d.types.zip defs, x.1.path ≠ y.1.path →
        x.2.symbolId ≠ y.2.symbolId) ↔ TypesApart d := by
  have hshape : ∀ defs, defs.Perm (d.types.map (TypeBlock.class relPath lines rules)) →
      List.Forall₂ (ClassOf rules) d.types defs → ∀ z ∈ d.types.zip defs, z.2.symbolId =
        qualify [(dotted z.1.scope.namespaces).getD "", z.1.name] ++ "@" ++ relPath := by
    intro defs hperm hof z hz
    have hz' := List.forall₂_zip hof hz
    have hshaped : z.2.Shaped relPath := by
      obtain ⟨block, -, hblock⟩ := List.mem_map.mp (hperm.subset (List.of_mem_zip hz).2)
      rw [← hblock]
      exact classDef_shaped rules _ _ _
    rw [← hz'.namespaceName, ← hz'.name]
    exact hshaped
  constructor
  · rintro ⟨defs, hperm, hof, hapart⟩ t ht u hu hpath hname
    obtain ⟨c, hc⟩ := Table.exists_zip_of_mem hof.length_eq ht
    obtain ⟨c', hc'⟩ := Table.exists_zip_of_mem hof.length_eq hu
    refine hapart _ hc _ hc' hpath ?_
    rw [hshape defs hperm hof _ hc, hshape defs hperm hof _ hc', hname]
  · intro hapart
    have hof : List.Forall₂ (ClassOf rules) d.types
        (d.types.map (TypeBlock.class relPath lines rules)) := by
      rw [List.forall₂_map_right_iff, List.forall₂_same]
      exact fun _ _ => ⟨rfl, rfl, rfl, rfl, rfl⟩
    refine ⟨_, .refl _, hof, fun x hx y hy hpath hid => ?_⟩
    rw [hshape _ (.refl _) hof x hx, hshape _ (.refl _) hof y hy] at hid
    exact hapart _ (List.of_mem_zip hx).1 _ (List.of_mem_zip hy).1 hpath (id_inj hid)

/-- **When the promise is kept.** Of a file of nested blocks, exactly when types in different places
differ in their namespaces or their names, and properties in different places in their names. -/
theorem blocks_sound_iff (rules : Rules) (relPath source : String) (d : Declared)
    (h : Nests rules ⟨[], []⟩ 1 (splitLines [] source.toList) d) :
    BlocksSound rules source d (parseVbFile rules relPath source) ↔
      TypesApart d ∧ PropertiesApart rules source d := by
  obtain ⟨late, hbare, hlate, hfunctions, hclasses, hnamespaces⟩ :=
    @parsed_of_nests _ relPath _ _ h
  have hordered := nests_ordered h
  constructor
  · intro hsound
    refine ⟨?_, properties_apart_iff.mp hsound.properties⟩
    have hdefs := hsound.classes
    rw [hclasses] at hdefs
    exact (classes_apart_iff _).mp hdefs
  · rintro ⟨htypes, hproperties⟩
    have hof : List.Forall₂ (FunctionOf rules) d.procedures
        ((d.ended ++ late).map
          (Procedure.function relPath (splitLines [] source.toList) rules)) := by
      rw [Declared.procedures, ← hbare, List.map_append, List.map_map]
      refine List.rel_append ?_ ?_
      · rw [List.forall₂_map_left_iff, List.forall₂_map_right_iff, List.forall₂_same]
        exact fun e _ => functionOf_late e _ _ fun _ hl => Option.some.inj hl
      · rw [List.forall₂_map_left_iff, List.forall₂_map_right_iff, List.forall₂_same]
        exact fun e _ => functionOf_late e _ _ fun _ hl => nomatch hl
    have hshaped : ∀ f ∈ (d.ended ++ late).map
        (Procedure.function relPath (splitLines [] source.toList) rules), f.Shaped relPath := by
      intro f hf
      obtain ⟨e, -, rfl⟩ := List.mem_map.mp hf
      exact functionDef_shaped _ _
    refine ⟨⟨_, hfunctions.symm, hof, fun x hx y hy => functions_apart hof hshaped hx hy⟩, ?_, ?_,
      properties_apart_iff.mpr hproperties, ?_, ?_, ?_, ?_⟩
    · rw [hclasses]
      exact (classes_apart_iff _).mpr htypes
    · refine ⟨_, .refl _, ?_⟩
      rw [hnamespaces, List.forall₂_map_right_iff, List.forall₂_same]
      exact fun _ _ => ⟨rfl, rfl, rfl⟩
    · intro f hf
      obtain ⟨e, he, rfl⟩ := List.mem_map.mp (hfunctions.subset hf)
      exact (List.mem_append.mp he).elim (hordered.ended e) (hlate e)
    · intro c hc
      rw [hclasses] at hc
      obtain ⟨block, hblock, rfl⟩ := List.mem_map.mp hc
      exact hordered.types block hblock
    · intro c hc
      rw [hnamespaces] at hc
      obtain ⟨block, hblock, rfl⟩ := List.mem_map.mp hc
      exact hordered.namespaces block hblock
    · intro p hp
      rw [parse_properties] at hp
      obtain ⟨found, -, rfl⟩ := List.mem_map.mp hp
      exact endLineNum_ge _ _

end File

/-! ## Types of one name in two types -/

/-- ASCII sources. -/
def sampleRules : Rules where
  alphabet := Matcher.ascii
  lower text := String.ofList (text.toList.map Char.toLower)

/-- A class with a procedure. -/
def sampleSource : String := "Class A\nSub F(n)\nEnd Sub\nEnd Class\n"

def sampleDeclared : Declared where
  ended := [(⟨⟨[], ["A"]⟩, strip "Sub F(n)", ⟨"Sub", "F", some "n"⟩, 2⟩, 3)]
  types := [⟨⟨[], []⟩, "A", "Class", 1, 4⟩]

theorem blocks_sound_sample :
    BlocksSound sampleRules sampleSource sampleDeclared
      (parseVbFile sampleRules "a.vb" sampleSource) := by
  have hlines : splitLines [] sampleSource.toList =
      ["Class A", "Sub F(n)", "End Sub", "End Class"] := by decide +kernel
  have hinner : Nests sampleRules ⟨[], ["A"]⟩ 2 ["Sub F(n)", "End Sub"]
      { ended := sampleDeclared.ended } :=
    @Nests.procedure sampleRules ⟨[], ["A"]⟩ 2 "Sub F(n)" "End Sub" ⟨"Sub", "F", some "n"⟩ [] []
      {} (by decide +kernel) (by simp) (by decide +kernel) (.done _ _)
  have hnests : Nests sampleRules ⟨[], []⟩ 1 (splitLines [] sampleSource.toList)
      sampleDeclared := by
    rw [hlines]
    exact @Nests.typeBlock sampleRules ⟨[], []⟩ 1 "Class A" "End Class" "Class" "A"
      ["Sub F(n)", "End Sub"] [] _ {} (by decide +kernel) hinner (by decide +kernel) (.done _ _)
  refine (blocks_sound_iff sampleRules "a.vb" sampleSource _ hnests).mpr ⟨?_, ?_⟩
  · intro t ht u hu hpath
    rw [List.mem_singleton.mp ht, List.mem_singleton.mp hu] at hpath
    exact absurd rfl hpath
  · have hnone : (Matcher.findAll (property sampleRules) sampleSource.toList).length = 0 := by
      decide +kernel
    intro x hx
    rw [List.length_eq_zero_iff.mp hnone] at hx
    cases hx

/-- Two classes with a class `C` each. -/
def twinSource : String :=
  "Class A\nClass C\nEnd Class\nEnd Class\nClass B\nClass C\nEnd Class\nEnd Class\n"

def twinDeclared : Declared where
  types := [⟨⟨[], ["A"]⟩, "C", "Class", 2, 3⟩, ⟨⟨[], []⟩, "A", "Class", 1, 4⟩,
    ⟨⟨[], ["B"]⟩, "C", "Class", 6, 7⟩, ⟨⟨[], []⟩, "B", "Class", 5, 8⟩]

theorem twin_nests :
    Nests sampleRules ⟨[], []⟩ 1 (splitLines [] twinSource.toList) twinDeclared := by
  have hlines : splitLines [] twinSource.toList =
      ["Class A", "Class C", "End Class", "End Class", "Class B", "Class C", "End Class",
        "End Class"] := by decide +kernel
  have hinner : ∀ (outer : String) (n : Nat), Nests sampleRules ⟨[], [outer]⟩ n
      ["Class C", "End Class"] { types := [⟨⟨[], [outer]⟩, "C", "Class", n, n + 1⟩] } :=
    fun outer n =>
      @Nests.typeBlock sampleRules ⟨[], [outer]⟩ n "Class C" "End Class" "Class" "C" [] [] {} {}
        (by decide +kernel) (.done _ _) (by decide +kernel) (.done _ _)
  rw [hlines]
  refine @Nests.typeBlock sampleRules ⟨[], []⟩ 1 "Class A" "End Class" "Class" "A"
    ["Class C", "End Class"] ["Class B", "Class C", "End Class", "End Class"] _
    { types := [⟨⟨[], ["B"]⟩, "C", "Class", 6, 7⟩, ⟨⟨[], []⟩, "B", "Class", 5, 8⟩] }
    (by decide +kernel) (hinner "A" 2) (by decide +kernel) ?_
  exact @Nests.typeBlock sampleRules ⟨[], []⟩ 5 "Class B" "End Class" "Class" "B"
    ["Class C", "End Class"] [] _ {} (by decide +kernel) (hinner "B" 6) (by decide +kernel)
    (.done _ _)

/-- The two inner classes have one id. -/
theorem inner_types_collide :
    (parseVbFile sampleRules "a.vb" twinSource).classes.map (·.symbolId) =
        ["C@a.vb", "A@a.vb", "C@a.vb", "B@a.vb"] ∧
      Nests sampleRules ⟨[], []⟩ 1 (splitLines [] twinSource.toList) twinDeclared ∧
      ¬ BlocksSound sampleRules twinSource twinDeclared
        (parseVbFile sampleRules "a.vb" twinSource) := by
  refine ⟨by decide +kernel, twin_nests, fun hsound => ?_⟩
  obtain ⟨-, -, -, -, hclasses, -⟩ := @parsed_of_nests _ "a.vb" _ _ twin_nests
  have hdefs := hsound.classes
  rw [hclasses] at hdefs
  exact (classes_apart_iff _).mp hdefs ⟨⟨[], ["A"]⟩, "C", "Class", 2, 3⟩ (by simp [twinDeclared])
    ⟨⟨[], ["B"]⟩, "C", "Class", 6, 7⟩ (by simp [twinDeclared]) (by decide +kernel) rfl

end CortexHarness.Vb
