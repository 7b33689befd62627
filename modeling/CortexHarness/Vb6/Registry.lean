import CortexHarness.Library.Firsts
import CortexHarness.Library.Python
import CortexHarness.Sync.Routing

/-!
# The project model that VB6 calls are resolved in

Model of `code-tiny/tools/vb/vb6_resolver.py`: `_norm`, `VariableInfo`, `ModuleInfo` and the
tables of `VB6ModuleRegistry` that a call is looked up in, built by `from_payloads` or, with no
payload, from the module names of the functions.

* A payload is what the worker reports of one file. A payload field that is `None` or missing is the
  empty text or the empty list, as `from_payloads` reads it.
* `modules` is a dict in the order of its entries; `setdefault` keeps the first module of a name.
  A module's functions stay in the order of the source, and `functionsNamed` filters them, where
  the dict of the source holds one list for each name.
* What only `resolve_anchor_planes` reads (controls, constants, parameter types, the file of a
  module) is left out: that pass writes to rows of the payloads and to nothing a call holds.

Results:
* `publicByName_public`: no private procedure is found as a public one;
* `resolverTables_built`, `resolverTables_raises`: when the tables can be built.
-/

namespace CortexHarness.Vb6

open Table
open Sync (basename extension)

/-- What `str.lower` and the class `\d` compute. -/
structure Text where
  lower : String → String
  digit : Char → Bool

variable (text : Text)

/-- `_norm` -/
def Text.norm (name : String) : String :=
  text.lower (String.ofList ((strip name).toList.dropWhile (· == '.')))

/-! ## What the worker reports -/

/-- A procedure, and what the resolver reads of it (`FunctionDef`). -/
structure FunctionDef where
  symbolId : String
  name : String
  arity : Int
  moduleName : String
  isPrivate : Bool
  minArity : Int
  hasOptionalArgs : Bool
  hasParamarray : Bool
  deriving DecidableEq

/-- A row of a payload's `variables`. -/
structure VariableRow where
  name : String
  typeName : String
  moduleName : String
  procedureName : String

/-- What the worker reports of one file. -/
structure Payload where
  /-- `file_def.file_path` -/
  filePath : String
  functions : List FunctionDef
  /-- `parse_meta.module_attributes["vb_predeclaredid"]` -/
  predeclaredId : String
  /-- `parse_meta.implements` -/
  implements : List String
  /-- the names of the `declares` -/
  declares : List String
  variableRows : List VariableRow

/-! ## The tables -/

/-- A declared variable (`VariableInfo`). -/
structure VariableInfo where
  name : String
  typeName : String
  moduleName : String
  procedureName : Option String

/-- `VariableInfo.type_key` -/
def VariableInfo.typeKey (v : VariableInfo) : String := text.norm v.typeName

/-- `VariableInfo.late_bound` -/
def VariableInfo.lateBound (v : VariableInfo) : Bool :=
  ["object", "variant", ""].contains (v.typeKey text)

/-- The kinds of module, named by the extensions of their files. -/
inductive ModuleKind where
  | bas
  | cls
  | frm
  | ctl
  | pag
  deriving DecidableEq

/-- The kind of a module whose file has extension `ext`. -/
def moduleKind (ext : String) : ModuleKind :=
  if ext = "cls" then .cls
  else if ext = "frm" then .frm
  else if ext = "ctl" then .ctl
  else if ext = "pag" then .pag
  else .bas

/-- A module of the project (`ModuleInfo`). -/
structure ModuleInfo where
  kind : ModuleKind
  functions : List FunctionDef
  predeclared : Bool

/-- `ModuleInfo.functions_named` -/
def ModuleInfo.functionsNamed (m : ModuleInfo) (member : String) : List FunctionDef :=
  m.functions.filter fun fn => text.norm fn.name = text.norm member

/-- The tables of `VB6ModuleRegistry` that calls are looked up in. -/
structure Registry where
  modules : List (String × ModuleInfo)
  variableInfos : List VariableInfo
  /-- An interface and a module that implements it, in the order of the payloads. -/
  implementersOf : List (String × String)
  apiNames : List String

/-- The name of a payload's module: of its first function that has one, else of its file. -/
def Payload.moduleName (p : Payload) : String :=
  match p.functions.find? (·.moduleName ≠ "") with
  | some fn => fn.moduleName
  | none =>
    let base := basename p.filePath
    String.ofList (base.toList.take (base.length - (extension base).length))

/-- The module a payload describes. -/
def Payload.module (p : Payload) : ModuleInfo where
  kind := moduleKind
    (String.ofList ((text.lower (extension p.filePath)).toList.dropWhile (· == '.')))
  functions := p.functions
  predeclared := text.lower (strip p.predeclaredId) == "true"

/-- A variable row, in the module of its payload unless it names another. -/
def Payload.variableInfo (p : Payload) (row : VariableRow) : VariableInfo where
  name := row.name
  typeName := row.typeName
  moduleName := if row.moduleName = "" then p.moduleName else row.moduleName
  procedureName := if row.procedureName = "" then none else some row.procedureName

/-- `VB6ModuleRegistry.from_payloads` -/
def fromPayloads (payloads : List Payload) : Registry :=
  let read := payloads.filter (·.filePath ≠ "")
  { modules := firsts Prod.fst (read.map fun p => (text.norm p.moduleName, p.module text))
    variableInfos := read.flatMap fun p => p.variableRows.map p.variableInfo
    implementersOf := read.flatMap fun p =>
      ((p.implements.map text.norm).filter (· ≠ "")).map fun key => (key, text.norm p.moduleName)
    apiNames := read.flatMap fun p => (p.declares.filter (· ≠ "")).map text.norm }

namespace Registry

variable (reg : Registry)

/-- `registry.modules.get(key)` -/
def getModule (key : String) : Option ModuleInfo := (lookup Prod.fst key reg.modules).map Prod.snd

/-- Every registered procedure, with the key of its module. -/
def registered : List (String × FunctionDef) :=
  reg.modules.flatMap fun km => km.2.functions.map (km.1, ·)

/-- `registry.any_by_name.get(key)` -/
def anyByName (key : String) : List (String × FunctionDef) :=
  reg.registered.filter fun kf => text.norm kf.2.name = key

/-- `registry.public_by_name.get(key)`: the procedures of standard modules that are not private. -/
def publicByName (key : String) : List (String × FunctionDef) :=
  reg.modules.flatMap fun km =>
    (km.2.functions.filter fun fn =>
      text.norm fn.name = key && !fn.isPrivate && km.2.kind = .bas).map (km.1, ·)

/-- `qualified_candidates` -/
def qualifiedCandidates (moduleName member : String) : List FunctionDef :=
  match reg.getModule (text.norm moduleName) with
  | some m => m.functionsNamed text member
  | none => []

/-- `find_late_bound_variable`: a variable of the procedure before one of the module. -/
def findLateBoundVariable (receiver callerModule callerProc : String) : Option VariableInfo :=
  let named := reg.variableInfos.filter fun v =>
    text.norm v.name = text.norm receiver && text.norm v.moduleName = text.norm callerModule
  (named.find? fun v => match v.procedureName with
    | some proc => text.norm proc = text.norm callerProc
    | none => false).or
  (named.find? fun v => v.procedureName.isNone)

/-- `interface_member_candidates`, each symbol once. -/
def interfaceMemberCandidates (interfaceName member : String) : List (String × FunctionDef) :=
  let implementers := (reg.implementersOf.filter (·.1 = text.norm interfaceName)).map Prod.snd
  firsts (fun kf => kf.2.symbolId) (implementers.flatMap fun key =>
    match reg.getModule key with
    | some m => (m.functionsNamed text member).map (key, ·)
    | none => [])

end Registry

/-! ## The payload-less path -/

/-- A module of the fallback: one function under each name, where `from_payloads` has a list. -/
structure FallbackModule where
  functions : List FunctionDef

/-- The modules that the payload-less path makes of the functions that name one. -/
def fallbackModules (functions : List FunctionDef) : List FallbackModule :=
  let named := functions.filter fun fn => text.norm fn.moduleName ≠ ""
  (firsts (fun fn => text.norm fn.moduleName) named).map fun head =>
    { functions := firsts (fun fn => text.norm fn.name)
        (named.filter fun fn => text.norm fn.moduleName = text.norm head.moduleName) }

/-- The exceptions of the pass. -/
inductive Raised where
  /-- `TypeError: 'FunctionDef' object is not iterable` -/
  | typeError
  deriving DecidableEq

/-- `for fn in fns`, with the function the fallback stored in the place of a list. -/
def iterate (_fns : FunctionDef) : Except Raised (List FunctionDef) := .error .typeError

/-- The loop that indexes the modules of the fallback. -/
def indexFallback (modules : List FallbackModule) : Except Raised Unit :=
  modules.forM fun m => m.functions.forM fun fns => discard (iterate fns)

/-- The tables of a run. The fallback runs when the payloads register no module; the loop that
indexes its modules gets through only when it made none, so it leaves the tables as they are. -/
def resolverTables (payloads : List Payload) (functions : List FunctionDef) :
    Except Raised Registry :=
  let reg := fromPayloads text payloads
  if reg.modules.isEmpty then
    (indexFallback (fallbackModules text functions)).map fun _ => reg
  else .ok reg

/-! ## What the tables hold -/

/-- A public lookup finds no private procedure. -/
theorem publicByName_public {reg : Registry} {key : String} {kf : String × FunctionDef}
    (h : kf ∈ reg.publicByName text key) : kf.2.isPrivate = false := by
  obtain ⟨km, -, hkf⟩ := List.mem_flatMap.mp h
  obtain ⟨fn, hfn, rfl⟩ := List.mem_map.mp hkf
  have hpublic := (List.mem_filter.mp hfn).2
  simp only [Bool.and_eq_true, Bool.not_eq_true'] at hpublic
  exact hpublic.1.2

theorem fromPayloads_modules {payloads : List Payload} :
    (fromPayloads text payloads).modules = [] ↔ ∀ p ∈ payloads, p.filePath = "" := by
  simp [fromPayloads, firsts_eq_nil, List.filter_eq_nil_iff]

theorem fallbackModules_eq_nil {functions : List FunctionDef} :
    fallbackModules text functions = [] ↔ ∀ fn ∈ functions, text.norm fn.moduleName = "" := by
  simp [fallbackModules, firsts_eq_nil, List.filter_eq_nil_iff]

theorem fallbackModules_functions {functions : List FunctionDef} {m : FallbackModule}
    (h : m ∈ fallbackModules text functions) : m.functions ≠ [] := by
  obtain ⟨head, hhead, rfl⟩ := List.mem_map.mp h
  have hnamed := mem_of_mem_firsts hhead
  intro hnone
  have hempty := firsts_eq_nil.mp hnone
  have hself := List.filter_eq_nil_iff.mp hempty head hnamed
  simp at hself

theorem indexFallback_stops {modules : List FallbackModule} (h : ∀ m ∈ modules, m.functions ≠ [])
    (hne : modules ≠ []) : indexFallback modules = .error .typeError := by
  obtain ⟨m, ms, rfl⟩ := List.exists_cons_of_ne_nil hne
  obtain ⟨fn, fns, hfns⟩ := List.exists_cons_of_ne_nil (h m List.mem_cons_self)
  simp only [indexFallback, List.forM_eq_forM, List.forM_cons, hfns]
  rfl

/-- The payloads and functions whose tables can be built: a payload registers a module, or no
function names one. -/
def TablesBuilt (payloads : List Payload) (functions : List FunctionDef) : Prop :=
  (∃ p ∈ payloads, p.filePath ≠ "") ∨ ∀ fn ∈ functions, text.norm fn.moduleName = ""

theorem resolverTables_built {payloads : List Payload} {functions : List FunctionDef}
    (h : TablesBuilt text payloads functions) :
    resolverTables text payloads functions = .ok (fromPayloads text payloads) := by
  unfold resolverTables
  by_cases hmodules : (fromPayloads text payloads).modules = []
  · have hread := (fromPayloads_modules text).mp hmodules
    rcases h with ⟨p, hp, hpath⟩ | hall
    · exact absurd (hread p hp) hpath
    · simp only [hmodules, List.isEmpty_nil, if_true, (fallbackModules_eq_nil text).mpr hall]
      rfl
  · simp only [List.isEmpty_iff, hmodules, if_false]

/-- With no module from the payloads and a function that names one, the run raises. -/
theorem resolverTables_raises {payloads : List Payload} {functions : List FunctionDef}
    (h : ¬ TablesBuilt text payloads functions) :
    resolverTables text payloads functions = .error .typeError := by
  obtain ⟨hread, hnames⟩ := not_or.mp h
  have hmodules : (fromPayloads text payloads).modules = [] := by
    refine (fromPayloads_modules text).mpr fun p hp => ?_
    by_contra hpath
    exact hread ⟨p, hp, hpath⟩
  have hstop := indexFallback_stops (fun _ => fallbackModules_functions text)
    (mt (fallbackModules_eq_nil text).mp hnames)
  simp only [resolverTables, hmodules, List.isEmpty_nil, if_true, hstop]
  rfl

end CortexHarness.Vb6
