import Addon.Ace.Registry
import Addon.Annotated.Method
import Addon.Static.Environment

/-!
# Extraction

Reads the marked classes of a script, registers a record for each exported method and cuts the
markers out of the text. Records that were registered before a failure stay registered. Markers of
methods in classes that are not marked are only warned about.
-/

namespace Addon.Annotated

open Script Source

/-- A script that was read to its end. -/
structure Extracted where
  name : String
  source : List Char
  stripped : List Char
  spans : List Span
  records : List Ace.Record

/-- The name of a script that has none. -/
def defaultModuleName : String := "<module>"

/-- How far the reading of scripts has come. -/
structure Progress where
  registry : Ace.Registry := {}
  warnings : List String := []
  spans : List Span := []
  records : List Ace.Record := []

/-- A step of the reading. What was reached before a failure counts. -/
abbrev Outcome := Progress × Attempt Unit

namespace Progress

/-- A failed step. -/
def fail (p : Progress) (f : Failure) : Outcome :=
  (p, .error f)

/-- A step that is done. -/
def done (p : Progress) : Outcome :=
  (p, .ok ())

end Progress

/-- Goes on with the next step unless the last one failed. -/
def Outcome.next (o : Outcome) (step : Progress → Outcome) : Outcome :=
  match o with
  | (p, .ok ()) => step p
  | (p, .error f) => (p, .error f)

/-- The warning about the marker of a method whose class is not marked. -/
def unclaimedMessage (className method : String) : String :=
  s!"Method '{method}' is marked as an ACE but class '{className}' is not marked with " ++
    "@AceClass(); the marker is ignored."

/-- The warning about a decorator, if it is the marker of a method. -/
def unclaimedWarning (scope : Scope) (r : Reading) (className method : String) (decorator : Expr) :
    Attempt (Option String) := do
  match ← r.markerOf decorator with
  | some (.method _) =>
    match scope.locate (some (.ofExtent decorator.extent)) with
    | .ok location => return some (Location.attach (unclaimedMessage className method) location)
    | .error e => throw (.cut e)
  | _ => return none

/-- Warns about the markers among decorators. -/
def warnDecorators (scope : Scope) (r : Reading) (className method : String) :
    List Expr → Progress → Outcome
  | [], p => p.done
  | e :: rest, p =>
    match unclaimedWarning scope r className method e with
    | .ok (some text) =>
      warnDecorators scope r className method rest { p with warnings := p.warnings ++ [text] }
    | .ok none => warnDecorators scope r className method rest p
    | .error f => p.fail f

/-- Warns about the markers of methods. -/
def warnMembers (scope : Scope) (r : Reading) (className : String) : List Stmt → Progress → Outcome
  | [], p => p.done
  | s :: rest, p =>
    match Method.ofStmt? s with
    | some m =>
      (warnDecorators scope r className m.name m.decorators p).next
        (warnMembers scope r className rest)
    | none => warnMembers scope r className rest p

/-- Registers the record of a method. -/
def registerMethod (scope : Scope) (moduleName className : String) (m : Method)
    (record : Ace.Record) (spans : List Span) (p : Progress) : Outcome :=
  match Ace.Registry.register record ⟨className, m.name⟩ moduleName p.registry with
  | .ok _ registry => Progress.done
    { p with
      registry := registry
      spans := p.spans ++ spans
      records := p.records ++ [record] }
  | .error v registry => ({ p with registry := registry }, complain scope v)

/-- Reads and registers a method. Complaints are about the method unless they know better. -/
def readMember (scope : Scope) (r : Reading) (moduleName className : String) (m : Method)
    (p : Progress) : Outcome :=
  let scope := { scope with place := some (.ofExtent m.extent) }
  match readMethod scope r m with
  | .ok none => p.done
  | .ok (some (record, spans)) => registerMethod scope moduleName className m record spans p
  | .error f => p.fail f

/-- Reads and registers the methods of a marked class. -/
def readMembers (scope : Scope) (r : Reading) (moduleName className : String) :
    List Stmt → Progress → Outcome
  | [], p => p.done
  | s :: rest, p =>
    match Method.ofStmt? s with
    | some m =>
      (readMember scope r moduleName className m p).next
        (readMembers scope r moduleName className rest)
    | none => readMembers scope r moduleName className rest p

/-- The decorators of a class that are container markers. -/
def containerMarkers (r : Reading) (decorators : List Expr) : Attempt (List Expr) := do
  let marked ← markedDecorators r decorators
  return (marked.filter fun m => m.2 = .container).map (·.1)

/-- The spans of decorators. -/
def decoratorSpans (scope : Scope) (index : Index) : List Expr → Attempt (List Span)
  | [] => .ok []
  | e :: rest => do
    let s ← decoratorSpan scope index e
    let others ← decoratorSpans scope index rest
    return s :: others

/-- Reads a class. -/
def readClass (scope : Scope) (r : Reading) (moduleName className : String) (body : List Stmt)
    (decorators : List Expr) (p : Progress) : Outcome :=
  match containerMarkers r decorators with
  | .error f => p.fail f
  | .ok [] => warnMembers scope r className body p
  | .ok containers =>
    match decoratorSpans scope r.index containers with
    | .error f => p.fail f
    | .ok spans =>
      readMembers scope r moduleName className body { p with spans := p.spans ++ spans }

/-- Reads the classes among statements. -/
def readClasses (scope : Scope) (r : Reading) (moduleName : String) :
    List Stmt → Progress → Outcome
  | [], p => p.done
  | .classDef _ name _ _ body decorators :: rest, p =>
    (readClass scope r moduleName name body decorators p).next (readClasses scope r moduleName rest)
  | _ :: rest, p => readClasses scope r moduleName rest p

/-- What is fixed for a script. -/
def reading (source : List Char) (m : Module) : Attempt Reading := do
  let env ← .ofValue (Static.environment m)
  return ⟨Index.ofSource source, env, MarkerNames.ofModule m⟩

/-- The order of spans by their starts. -/
def startsBefore (a b : Span) : Bool :=
  a.start ≤ b.start

/-- The script as it is left by a reading that came to its end. -/
def finish (source : List Char) (moduleName : String) (p : Progress) : Attempt Extracted := do
  let stripped ← .ofSpans (applyRemovals source p.spans)
  return {
    name := moduleName
    source := source
    stripped := stripped
    spans := p.spans.mergeSort startsBefore
    records := p.records }

/-- What is known after the reading of a script. -/
structure Extraction where
  registry : Ace.Registry
  warnings : List String
  result : Attempt Extracted

/-- Reads a script into a registry. -/
def extract (registry : Ace.Registry) (source : String) (moduleName : String := defaultModuleName) :
    Extraction :=
  let chars := source.toList
  let prepared : Attempt (Module × Reading) := do
    let m ← .ofParse (parseModule source)
    let r ← reading chars m
    return (m, r)
  match prepared with
  | .error f => ⟨registry, [], .error f⟩
  | .ok (m, r) =>
    let (p, outcome) :=
      readClasses { source := some chars } r moduleName m.body { registry := registry }
    let result := match outcome with
      | .ok () => finish chars moduleName p
      | .error f => .error f
    ⟨p.registry, p.warnings, result⟩

/-- What scripts are read into: a registry, and the scripts that were read to their ends. -/
structure Context where
  registry : Ace.Registry := {}
  modules : List Extracted := []

namespace Context

/-- The context after a reading. Only a script that was read to its end is among the modules. -/
def after (c : Context) (x : Extraction) : Context where
  registry := x.registry
  modules := match x.result with
    | .ok e => c.modules ++ [e]
    | .error _ => c.modules

/-- Reads a script into a context. -/
def extract (c : Context) (source : String) (moduleName : String := defaultModuleName) :
    Context × Extraction :=
  let x := Annotated.extract c.registry source moduleName
  (c.after x, x)

/-- Reads scripts, each a text with a name, in turn, and goes on behind failures. -/
def extractAll (c : Context) : List (String × String) → Context × List Extraction
  | [] => (c, [])
  | (source, name) :: rest =>
    let (next, x) := c.extract source name
    let (last, others) := next.extractAll rest
    (last, x :: others)

/-- The names of the modules with what is left of them. -/
def stripped (c : Context) : List (String × String) :=
  c.modules.map fun e => (e.name, String.ofList e.stripped)

end Context

end Addon.Annotated
