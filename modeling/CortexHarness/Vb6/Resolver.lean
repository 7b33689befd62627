import CortexHarness.Vb6.Registry

/-!
# Resolving VB6 calls

Model of `resolve_vb6_calls` in `code-tiny/tools/vb/vb6_resolver.py`, with `_split_callee`,
`_parse_caller` and `_arity_accepts`. Every call is settled on its own, against the tables of the
run: `resolveCall` goes through the exits in the order of the source, and each exit writes the
fields that the source writes there and no other.

* `calleeId` is `None` or a text; an empty text is no binding (`bound`).
* `candidateIds` made of a set: `sorted` where the source sorts it, else one copy of every id. The
  order of a Python set is not specified and nothing here depends on it.

Result: `foldl_record_sum`, what the counters add up to.
-/

namespace CortexHarness.Vb6

variable (text : Text)

/-! ## Calls -/

/-- A call the worker found (`CallEdge`). -/
structure CallEdge where
  callerId : String
  callerScope : String
  calleeName : String
  calleeId : Option String
  calleeArity : Option Int
  callType : String
  resolutionStatus : String
  candidateIds : List String
  calleeMember : String
  deriving DecidableEq

/-- `bool(call.callee_id)` -/
def CallEdge.bound (call : CallEdge) : Bool :=
  match call.calleeId with
  | some id => id ≠ ""
  | none => false

@[simp] theorem CallEdge.bound_status (call : CallEdge) (status : String) :
    { call with resolutionStatus := status }.bound = call.bound := rfl

/-- `call.callee_id or id` -/
def CallEdge.calleeOr (call : CallEdge) (id : String) : Option String :=
  if call.bound then call.calleeId else some id

/-- `text[:stop]`, where a negative `stop` counts from the end. -/
def sliceTo (chars : List Char) (stop : Int) : String :=
  String.ofList (chars.take (if 0 ≤ stop then stop else chars.length + stop).toNat)

/-- `text.rpartition(separator)`, without the separator. -/
def rpartition (chars : List Char) (separator : Char) : String × String :=
  let tail := chars.reverse.takeWhile (· != separator)
  (String.ofList (chars.take (chars.length - tail.length - 1)), String.ofList tail.reverse)

/-- `_split_callee`: the receiver, or the empty text, and the member. -/
def splitCallee (call : CallEdge) : String × String :=
  let member := strip call.calleeMember
  let name := strip call.calleeName
  let chars := name.toList
  if member ≠ "" then
    if endsWith (text.lower name) ("." ++ text.lower member) ||
        endsWith (text.lower name) ("!" ++ text.lower member) then
      (sliceTo chars (name.length - member.length - 1), member)
    else if endsWith (text.lower name) (text.lower member) then
      let receiver := sliceTo chars (name.length - member.length)
      let kept := receiver.toList.reverse.dropWhile fun c => c == '.' || c == '!'
      (String.ofList kept.reverse, member)
    else ("", member)
  else if chars.contains '!' then rpartition chars '!'
  else if chars.contains '.' then rpartition chars '.'
  else ("", String.ofList (chars.dropWhile (· == '.')))

/-- `_parse_caller`: the module and the procedure of the caller, by `_CALLER_ID_RE`. -/
def parseCaller (call : CallEdge) : String × String :=
  let chars := call.callerId.toList
  let module := chars.takeWhile fun c => c != '.' && c != '/'
  let afterModule := chars.drop module.length
  let proc := (afterModule.drop 1).takeWhile (· != '/')
  let afterProc := (afterModule.drop 1).drop proc.length
  let digits := (afterProc.drop 1).takeWhile text.digit
  let afterDigits := (afterProc.drop 1).drop digits.length
  if !module.isEmpty && afterModule.head? = some '.' && !proc.isEmpty &&
      afterProc.head? = some '/' && !digits.isEmpty && afterDigits.head? = some '@' then
    (String.ofList module, String.ofList proc)
  else (call.callerScope, "")

namespace CallEdge

variable (call : CallEdge)

def receiver : String := (splitCallee text call).1

def member : String := (splitCallee text call).2

/-- `_norm(member)` -/
def calleeKey : String := text.norm (call.member text)

def callerModule : String := (parseCaller text call).1

def callerProc : String := (parseCaller text call).2

end CallEdge

/-! ## Names with a fixed meaning -/

/-- `_BUILTIN_FUNCTIONS` -/
def builtinFunctions : List String :=
  ["msgbox", "inputbox", "print", "cint", "clng", "cstr", "cdbl", "cbool",
    "cbyte", "cdate", "cvar", "cverr", "val", "len", "left", "right", "mid",
    "trim", "rtrim", "ltrim", "ucase", "lcase", "instr", "instrrev", "replace",
    "split", "join", "format", "isnull", "isempty", "isobject", "isnumeric",
    "isarray", "isdate", "ismissing", "createobject", "getobject", "array",
    "abs", "int", "fix", "sgn", "sqr", "atn", "cos", "sin", "tan", "exp",
    "log", "rnd", "randomize", "now", "date", "time", "timer", "doevents",
    "beep", "environ", "shell", "sendkeys", "load", "unload", "me", "strconv",
    "hex", "oct", "chr", "asc", "dir", "curdir", "chdir", "mkdir", "rmdir",
    "kill", "filecopy", "name", "freefile", "lopen", "close", "eof", "loc",
    "lof", "lineinput", "appactivate"]

/-- `_INTRINSIC_OBJECTS` -/
def intrinsicObjects : List String :=
  ["debug", "err", "app", "screen", "printer", "clipboard", "forms", "screen.twipsperpixelx"]

/-- `_FORM_INTRINSIC_MEMBERS` -/
def formIntrinsicMembers : List String :=
  ["show", "hide", "refresh", "cls", "print", "move", "scale", "setfocus",
    "line", "circle", "pset", "point", "textwidth", "textheight",
    "popupmenu", "validatecontrols", "showwhatsthismode", "zorder",
    "linkexecute", "linkpoke", "linkrequest", "linksend"]

/-! ## Arity -/

/-- `_arity_accepts`, for a call whose arity is known. -/
def arityAccepts (fn : FunctionDef) (argCount : Int) : Bool :=
  (fn.hasParamarray && fn.minArity ≤ argCount) ||
    (fn.hasOptionalArgs && fn.minArity ≤ argCount && argCount ≤ fn.arity) ||
    fn.arity = argCount

/-- The overloads of exactly this arity, or, when there is none, those whose range has it. -/
def byArity {α : Type} (fn : α → FunctionDef) (argCount : Int) (rows : List α) : List α :=
  let exactHits := rows.filter fun r => (fn r).arity = argCount
  if exactHits.isEmpty then rows.filter fun r => arityAccepts (fn r) argCount else exactHits

/-- The rows a call with this arity, if it is known, cannot tell apart: all of them when none
accepts it. -/
def narrow {α : Type} (fn : α → FunctionDef) (arity : Option Int) (rows : List α) : List α :=
  match arity with
  | some argCount =>
    let hits := byArity fn argCount rows
    if hits.isEmpty then rows else hits
  | none => rows

/-! ## The exits -/

section Exits

variable (reg : Registry) (call : CallEdge)

/-- `Me.member` -/
def resolveMe : CallEdge :=
  match reg.qualifiedCandidates text (call.callerModule text) (call.member text) with
  | target :: _ =>
    { call with calleeId := call.calleeOr target.symbolId, resolutionStatus := "asg_resolved" }
  | [] => { call with resolutionStatus := "external" }

/-- `module.member`, for a module of the project whose key is the receiver's. -/
def resolveInModule (module : ModuleInfo) : CallEdge :=
  match module.functionsNamed text (call.member text) with
  | target :: _ =>
    if target.isPrivate && text.norm (call.receiver text) ≠ text.norm (call.callerModule text) then
      { call with resolutionStatus := "unresolved" }
    else
      { call with calleeId := call.calleeOr target.symbolId, resolutionStatus := "asg_resolved" }
  | [] =>
    if ([.frm, .ctl, .pag].contains module.kind || module.predeclared) &&
        formIntrinsicMembers.contains (call.calleeKey text) then
      { call with resolutionStatus := "external" }
    else { call with resolutionStatus := "unresolved" }

/-- The ids of some procedures, each once. -/
def symbolIds (fns : List FunctionDef) : List String := (fns.map (·.symbolId)).dedup

/-- `sorted(ids)` -/
def sorted (ids : List String) : List String := ids.mergeSort fun a b => decide (a ≤ b)

/-- A member of the modules that implement the receiver's type. -/
def resolveImplementers (target : FunctionDef) (fns : List FunctionDef) : CallEdge :=
  let uniqueIds := symbolIds (target :: fns)
  if uniqueIds.length = 1 then
    if target.isPrivate then { call with resolutionStatus := "unresolved" }
    else { call with calleeId := some target.symbolId, resolutionStatus := "name_resolved" }
  else
    { call with
      calleeId := none, candidateIds := sorted uniqueIds, resolutionStatus := "ambiguous" }

/-- A member of the module that is the receiver's type. -/
def resolveTypeMember (target : FunctionDef) (fns : List FunctionDef) : CallEdge :=
  let unique := symbolIds (target :: fns)
  if unique.length = 1 then
    if target.isPrivate then { call with resolutionStatus := "unresolved" }
    else
      { call with calleeId := call.calleeOr target.symbolId, resolutionStatus := "asg_resolved" }
  else if call.bound && call.calleeId.any unique.contains then
    { call with resolutionStatus := "asg_resolved" }
  else
    { call with calleeId := none, candidateIds := sorted unique, resolutionStatus := "ambiguous" }

/-- The variable that the receiver names. -/
def receiverVariable : Option VariableInfo :=
  reg.findLateBoundVariable text (call.receiver text) (call.callerModule text)
    (call.callerProc text)

/-- The member in the module that is the type of `v`. -/
def typeMembers (v : VariableInfo) : List FunctionDef :=
  match reg.getModule (v.typeKey text) with
  | some module => module.functionsNamed text (call.member text)
  | none => []

/-- The member in the modules that implement the type of `v`. -/
def implementerMembers (v : VariableInfo) : List (String × FunctionDef) :=
  reg.interfaceMemberCandidates text (v.typeKey text) (call.member text)

/-- A member of something whose type says nothing: the worker's binding, if it made one. -/
def resolveBare (found : Option VariableInfo) : CallEdge :=
  if call.bound then { call with resolutionStatus := "asg_resolved" }
  else if found.any (·.lateBound text) then { call with resolutionStatus := "late_bound" }
  else { call with resolutionStatus := "unresolved" }

/-- A member of a variable that has a type. -/
def resolveTyped (v : VariableInfo) : CallEdge :=
  match implementerMembers text reg call v with
  | hit :: hits => resolveImplementers call hit.2 (hits.map Prod.snd)
  | [] =>
    match typeMembers text reg call v with
    | target :: fns => resolveTypeMember call target fns
    | [] => resolveBare text call (some v)

/-- A call with a receiver. -/
def resolveReceiver : CallEdge :=
  let receiverKey := text.norm (call.receiver text)
  if receiverKey = "me" then resolveMe text reg call
  else
    match reg.getModule receiverKey with
    | some module => resolveInModule text call module
    | none =>
      if intrinsicObjects.contains receiverKey then { call with resolutionStatus := "external" }
      else
        match receiverVariable text reg call with
        | some v =>
          if v.lateBound text then resolveBare text call (some v) else resolveTyped text reg call v
        | none => resolveBare text call none

/-- The procedures of the caller's module with the callee's name. -/
def localCandidates : List FunctionDef :=
  reg.qualifiedCandidates text (call.callerModule text) (call.member text)

/-- A name the caller's module has. -/
def resolveLocal (locals : List FunctionDef) : CallEdge :=
  if call.bound && call.calleeId.any (symbolIds locals).contains then
    { call with resolutionStatus := "asg_resolved" }
  else
    match locals with
    | [fn] =>
      { call with calleeId := some fn.symbolId, resolutionStatus := "name_resolved" }
    | _ =>
      if call.bound then { call with resolutionStatus := "asg_resolved" }
      else
        match call.calleeArity.map fun argCount => byArity id argCount locals with
        | some [fn] =>
          { call with calleeId := some fn.symbolId, resolutionStatus := "name_resolved" }
        | _ =>
          { call with
            calleeId := none, candidateIds := symbolIds locals, resolutionStatus := "ambiguous" }

/-- The public procedures with the callee's name, narrowed by arity. -/
def publicCandidates : List (String × FunctionDef) :=
  narrow Prod.snd call.calleeArity (reg.publicByName text (call.calleeKey text))

/-- A name the caller's module does not have. -/
def resolveGlobal : CallEdge :=
  let anyCandidates := reg.anyByName text (call.calleeKey text)
  match publicCandidates text reg call with
  | [kf] => { call with calleeId := some kf.2.symbolId, resolutionStatus := "name_resolved" }
  | publics =>
    if anyCandidates.length > 1 || publics.length > 1 then
      { call with
        calleeId := none
        candidateIds := anyCandidates.map (·.2.symbolId)
        resolutionStatus := "ambiguous" }
    else if reg.apiNames.contains (call.calleeKey text) then
      { call with resolutionStatus := "external" }
    else if builtinFunctions.contains (call.calleeKey text) then
      { call with resolutionStatus := "external" }
    else { call with resolutionStatus := "unresolved" }

/-- A dictionary call, `rs!Field`. -/
def CallEdge.isDictionary : Bool :=
  call.callType = "dictionary_call" || call.calleeName.toList.contains '!'

def resolveDictionary : CallEdge :=
  { call with
    calleeId := none
    resolutionStatus :=
      if call.receiver text ≠ "" && (receiverVariable text reg call).any (·.lateBound text)
      then "late_bound" else "external" }

/-- One turn of the loop of `resolve_vb6_calls`. -/
def resolveCall : CallEdge :=
  if call.member text = "" then
    { call with resolutionStatus :=
        if call.resolutionStatus = "" then "unresolved" else call.resolutionStatus }
  else if call.isDictionary then resolveDictionary text reg call
  else if startsWith call.calleeName "." && call.bound then
    { call with resolutionStatus := "asg_resolved" }
  else if call.receiver text ≠ "" then resolveReceiver text reg call
  else
    match localCandidates text reg call with
    | fn :: fns => resolveLocal call (fn :: fns)
    | [] => resolveGlobal text reg call

end Exits

/-! ## The run -/

/-- `counts[status] = counts.get(status, 0) + 1` -/
def record : List (String × Nat) → String → List (String × Nat)
  | [], status => [(status, 1)]
  | (key, n) :: counts, status =>
    if key = status then (key, n + 1) :: counts else (key, n) :: record counts status

/-- `resolve_vb6_calls`: the calls as it leaves them, and the counters it returns. -/
def resolveVb6Calls (functions : List FunctionDef) (calls : List CallEdge)
    (payloads : List Payload) : Except Raised (List CallEdge × List (String × Nat)) := do
  let reg ← resolverTables text payloads functions
  let resolved := calls.map (resolveCall text reg)
  return (resolved, (resolved.map (·.resolutionStatus)).foldl record [])

/-! ## The counters -/

theorem record_sum (counts : List (String × Nat)) (status : String) :
    ((record counts status).map Prod.snd).sum = (counts.map Prod.snd).sum + 1 := by
  induction counts with
  | nil => simp [record]
  | cons entry counts ih =>
    unfold record
    split
    · simp
      omega
    · simp [ih]
      omega

/-- The counters add up to the number of statuses they counted. -/
theorem foldl_record_sum (statuses : List String) (counts : List (String × Nat)) :
    ((statuses.foldl record counts).map Prod.snd).sum =
      (counts.map Prod.snd).sum + statuses.length := by
  induction statuses generalizing counts with
  | nil => simp
  | cons status statuses ih =>
    rw [List.foldl_cons, ih, record_sum, List.length_cons]
    omega

end CortexHarness.Vb6
