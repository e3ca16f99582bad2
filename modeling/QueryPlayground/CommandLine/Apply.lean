import QueryPlayground.CommandLine.World

/-!
# Applying a query once

The document is read, the query is applied in a session with auto-apply off, and the output is
written. Recording the query is the session's business; without a history nothing is recorded. How
the apply ends does not depend on the history.
-/

namespace QueryPlayground.CommandLine

open QueryPlayground.Coordinator

/-! ## §1 One apply -/

def queryDocument (template : Bool) (query : String) : Document :=
  ⟨query, if template then .template else .query⟩

def applySettings (c : Configuration) (indent : Option Nat) : Settings :=
  let s := c.apply.settings
  { s with autoApply := false, indent := indent.getD s.indent }

/-- Applies a query to a document in a session. -/
def applyOnce (s : Session) (now : Int) (i : Inputs) : Session × Option Outcome :=
  let s := (s.step now (.setInput i.input)).1
  let s := (s.step now (.setQuery i.query)).1
  let s := (s.step now (.setOutput i.outputType)).1
  s.apply now

/-- The line about the evaluator and the history. -/
def usingText (c : Configuration) : String :=
  let engine := match c.evaluator.engine with
    | .builtin => "Builtin"
    | .command => "Command"
  "Using " ++ engine ++ " evaluator, history at " ++ c.store.path

/-- A session for the history of the world. -/
def sessionIn (w : World) (c : Configuration) (settings : Settings) (records : Bool) : Session :=
  .assemble (c.evaluator.start w.launcher) settings records w.handle w.disk

/-- Starts a session with a history. -/
def openSession (s : Setup) (settings : Settings) : Job Session := do
  orFail s.config.validate
  s.explain (usingText s.config)
  return sessionIn (← get) s.config settings true

/-- Ends a session and keeps its history. -/
def closeSession (s : Session) : Job Unit :=
  modify fun w => { w with handle := s.close.1, disk := s.close.2 }

/-! ## §2 The command -/

/-- Applies a query once. -/
def runApply (s : Setup) (o : ApplyOptions) : Job Unit := do
  let input ← readDocument o.input.file o.input.inputType
  let settings := applySettings s.config o.indent
  let inputs : Inputs := ⟨input, queryDocument o.template o.query, o.input.outputType⟩
  let now := (← get).now
  let outcome ←
    if o.noHistory then do
      s.explain "History recording disabled"
      pure (applyOnce (sessionIn (← get) s.config settings false) now inputs).2
    else do
      let (session, outcome) := applyOnce (← openSession s settings) now inputs
      closeSession session
      pure outcome
  match outcome with
  | some (.applied d) => say d.content
  | some (.failed message) => throw (.evaluation message)
  | some .dropped => throw (.custom "apply dropped: evaluation already running")
  | none => throw .evaluationCancelled

end QueryPlayground.CommandLine
