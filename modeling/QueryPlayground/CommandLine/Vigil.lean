import QueryPlayground.CommandLine.Watch
import QueryPlayground.History.Relay

/-!
# A watch at work

While queries are watched several tasks act at the same time. The main task takes one edit after the
other, and each edit lets the debouncer wait anew. A quiet time that is over asks for an apply, which
nobody can take back then. Of the applies that were asked for, one at a time is let in; one that comes
while another is in is turned away. The printer looks at the view when it comes to it and may miss
what was shown meanwhile, and the recorder's task puts texts into the store when it comes to it. At the
end the main task gives up what waits, waits until it finds no apply in, asks for one itself, and then
waits until everything that the others still hold has gone.
-/

namespace QueryPlayground.CommandLine

open QueryPlayground.Coordinator

/-! ## §1 Tasks -/

/-- What an apply works on, with how many edits there were before. -/
structure Snapshot where
  edits : Nat
  inputs : Inputs

/-- How far the apply has come that keeps others out. -/
inductive Progress where
  | entered
  | holding (p : Snapshot)
  | evaluating (p : Snapshot)
  -- The output is shown, and the text is to be handed to the recorder.
  | recording (x : History.Record)
  | leaving

/-- What the main task is at. -/
inductive Vigil.Stage where
  | editing (rest : List (Inputs → Inputs))
  -- The inputs are edited, and the debouncer is to wait anew.
  | arming (rest : List (Inputs → Inputs))
  | awaiting
  | applying
  -- The coordinator is let go; recorder and printer are to end.
  | closed
  | returned

/-- Whether the main task has let the coordinator go. -/
def Vigil.Stage.isClosed : Vigil.Stage → Bool
  | .closed | .returned => true
  | .editing _ | .arming _ | .awaiting | .applying => false

/-- A watch at work. -/
structure Vigil where
  stage : Vigil.Stage
  inputs : Inputs
  /-- Whether an edit waits for the quiet time. -/
  armed : Bool
  /-- The applies that were asked for and have not begun. -/
  asked : List Origin
  /-- The apply that keeps others out. -/
  flight : Option (Origin × Progress)
  /-- The applies that let others in again and are still to clear the line about them. -/
  parting : List Origin
  view : View
  /-- Whether the printer has not seen the view. -/
  fresh : Bool
  printer : Printer
  printed : List Printed
  relay : History.Relay
  -- The rest is what has happened so far, and decides nothing.
  edits : Nat
  /-- What was evaluated to the end. -/
  log : List Snapshot

namespace Vigil

/-- What can happen next. -/
inductive Act where
  -- The main task has its turn.
  | main
  -- The quiet time is over.
  | fire
  -- An apply that was asked for comes to begin.
  | call (origin : Origin)
  -- The apply goes on that keeps others out.
  | proceed
  -- An apply clears the line about it.
  | part (origin : Origin)
  -- The recorder's task has its turn, at a time of the clock.
  | work (now : Int)
  -- The last one that holds the coordinator lets it go.
  | drop
  -- The printer looks at the view.
  | see

/-- The apply of the main task. -/
def own : Origin := .request 0

/-- A watch that is to make some edits. -/
def start (fs : List (Inputs → Inputs)) (handle : History.Handle) (disk : History.Disk) : Vigil :=
  ⟨.editing fs, .default, false, [], none, [], .empty, false, .new, [], .new handle disk, 0, []⟩

/-- Whether an apply was asked for and has not ended. -/
def occupies (s : Vigil) (o : Origin) : Bool :=
  s.asked.contains o || s.flight.any (·.1 = o) || s.parting.contains o

/-- What the main task does with its turn. -/
def turn (s : Vigil) : Vigil :=
  match s.stage with
  | .editing [] => { s with stage := .awaiting, armed := false }
  | .editing (f :: rest) =>
    { s with stage := .arming rest, inputs := f s.inputs, edits := s.edits + 1 }
  | .arming rest => { s with stage := .editing rest, armed := true }
  | .awaiting =>
    if s.flight.isSome then s else { s with stage := .applying, asked := s.asked ++ [own] }
  | .applying => if s.occupies own then s else { s with stage := .closed }
  | .closed =>
    match s.relay.stage, s.fresh with
    | .stopped, false => { s with stage := .returned }
    | _, _ => s
  | .returned => s

/-- An apply begins, unless another one keeps it out. -/
def call (s : Vigil) (o : Origin) : Vigil :=
  if s.asked.contains o then
    match s.flight with
    | none => { s with asked := s.asked.erase o, flight := some (o, .entered) }
    | some _ => { s with asked := s.asked.erase o }
  else s

/-- The evaluation of a snapshot ends, and what came out of it is shown. -/
def conclude (s : Vigil) (o : Origin) (p : Snapshot) : Except Error Document → Vigil
  | .ok d =>
    { s with
      flight := some (o, .recording ⟨p.inputs.query.kind.historyKind, p.inputs.query.content⟩)
      view := s.view.showOutput d, fresh := true, log := s.log ++ [p] }
  | .error e =>
    { s with
      flight := some (o, .leaving), view := s.view.showError e.message, fresh := true
      log := s.log ++ [p] }

/-- The apply goes on that keeps others out. -/
def proceed (indent : Nat) (s : Vigil) : Vigil :=
  match s.flight with
  | none => s
  | some (o, .entered) => { s with flight := some (o, .holding ⟨s.edits, s.inputs⟩) }
  | some (o, .holding p) =>
    { s with
      flight := some (o, .evaluating p), view := s.view.showLoading (some p.inputs.loadingText)
      fresh := true }
  | some (o, .evaluating p) => s.conclude o p (p.inputs.request indent).answer
  | some (o, .recording x) =>
    { s with flight := some (o, .leaving), relay := s.relay.act (.record x) }
  | some (o, .leaving) => { s with flight := none, parting := s.parting ++ [o] }

/-- An apply that has let others in clears the line, even if it is about another one by now. -/
def part (s : Vigil) (o : Origin) : Vigil :=
  if s.parting.contains o then
    { s with parting := s.parting.erase o, view := s.view.showLoading none, fresh := true }
  else s

/-- Whether nobody holds the coordinator any more. -/
def isReleased (s : Vigil) : Bool :=
  s.stage.isClosed && s.asked.isEmpty && s.flight.isNone && s.parting.isEmpty

/-- The printer looks at the view if it has changed. -/
def see (s : Vigil) : Vigil :=
  if s.fresh then
    let (printer, printed) := s.printer.see s.view
    { s with fresh := false, printer := printer, printed := s.printed ++ printed.toList }
  else s

def act (indent : Nat) (s : Vigil) : Act → Vigil
  | .main => s.turn
  | .fire => if s.armed then { s with armed := false, asked := s.asked ++ [.auto] } else s
  | .call o => s.call o
  | .proceed => s.proceed indent
  | .part o => s.part o
  | .work now => { s with relay := s.relay.act (.work now) }
  | .drop => if s.isReleased then { s with relay := s.relay.act .drop } else s
  | .see => s.see

def actAll (indent : Nat) (s : Vigil) (acts : List Act) : Vigil :=
  acts.foldl (act indent) s

end Vigil

/-! ## §2 What is watched -/

/-- What is watched: a document with the kind of the output, and lines that are queries, or
templates. -/
structure Script where
  input : Document
  output : DocumentKind
  template : Bool
  lines : List String

namespace Script

/-- The edits: the kind of the output, the document, and then one line after the other. -/
def edits (w : Script) : List (Inputs → Inputs) :=
  (fun i => { i with outputType := w.output }) :: (fun i => { i with input := w.input }) ::
    w.lines.map fun line i => { i with query := queryDocument w.template line }

def inputsOf (w : Script) (line : String) : Inputs :=
  ⟨w.input, queryDocument w.template line, w.output⟩

/-- The inputs with the last line, or with the empty query if there is no line. -/
def last (w : Script) : Inputs :=
  match w.lines.getLast? with
  | some line => w.inputsOf line
  | none => ⟨w.input, .empty .query, w.output⟩

/-- The history of the lines. -/
def kind (w : Script) : HistoryKind :=
  (queryDocument w.template "").kind.historyKind

end Script

end QueryPlayground.CommandLine
