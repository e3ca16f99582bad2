import QueryPlayground.CommandLine.Apply

/-!
# Applying queries as they are edited

Every line of the standard input is an edit of the query, which is applied once no other edit has
followed for the quiet time. At the end the last edit is applied at once.

A printer shows what becomes of the view. It may see only some of the views, and writes what a view
adds to the one it saw before: an error that is new, or an output that is new or no longer hidden by
an error.
-/

namespace QueryPlayground.CommandLine

open QueryPlayground.Coordinator

/-! ## §1 The printer -/

/-- What a printer writes. -/
inductive Printed where
  | output (content : String)
  | error (message : String)
  deriving DecidableEq, Repr

/-- What a printer remembers of the view that it saw last. -/
structure Printer where
  output : Option Document
  error : Option String
  deriving DecidableEq, Repr

namespace Printer

/-- A printer that has seen nothing. -/
def new : Printer :=
  ⟨none, none⟩

/-- What is written for a view. -/
def news (p : Printer) (v : View) : Option Printed :=
  match v.error with
  | some e => if p.error = some e then none else some (.error e)
  | none =>
    if v.output ≠ p.output ∨ p.error.isSome then v.output.map fun d => .output d.content else none

def see (p : Printer) (v : View) : Printer × Option Printed :=
  (⟨v.output, v.error⟩, p.news v)

def seeAll (p : Printer) : List View → Printer × List Printed
  | [] => (p, [])
  | v :: vs =>
    let (p, printed) := p.see v
    let (p, more) := seeAll p vs
    (p, printed.toList ++ more)

end Printer

/-! ## §2 Watching -/

/-- What happens while queries are watched. -/
inductive WatchEvent where
  | edit (query : String)
  /-- Time passes, in milliseconds. -/
  | pause (duration : Nat)
  deriving DecidableEq, Repr

/-- A session with its printer and what that has written. -/
structure Watch where
  session : Session
  printer : Printer
  printed : List Printed

namespace Watch

/-- Shows the view to the printer. -/
def present (w : Watch) (session : Session) : Watch :=
  let (printer, printed) := w.printer.see session.coordinator.view
  ⟨session, printer, w.printed ++ printed.toList⟩

/-- Does a step of the session. -/
def step (w : Watch) (now : Int) (what : Machine.Step) : Watch :=
  w.present (w.session.step now what).1

def start (session : Session) (now : Int) (input : Document) (output : DocumentKind) : Watch :=
  ((Watch.mk session .new []).step now (.setOutput output)).step now (.setInput input)

def take (w : Watch) (now : Int) (template : Bool) : WatchEvent → Watch
  | .edit query => w.step now (.setQuery (queryDocument template query))
  | .pause duration => w.step now (.advance duration)

/-- Ends: the last edit is applied at once, after an evaluation that is still in progress. -/
def finish (w : Watch) (now : Int) : Watch :=
  let w := w.step now .cancelPending
  let w := w.present ((Session.awaitIdle Session.patience w.session).1.join fun _ => now)
  w.present (w.session.apply now).1

/-- Watches from the beginning to the end. -/
def run (session : Session) (now : Int) (input : Document) (output : DocumentKind) (template : Bool)
    (events : List WatchEvent) : Watch :=
  (events.foldl (fun w e => w.take now template e) (start session now input output)).finish now

end Watch

/-! ## §3 The command -/

/-- The lines of a text without their ends. -/
def linesOf (text : String) : List String :=
  go [] text.toList
where
  /-- The lines of the rest, where the characters of the first one so far are in reverse. -/
  go (done : List Char) : List Char → List String
    | [] => if done.isEmpty then [] else [String.ofList done.reverse]
    | '\n' :: cs =>
      let line := match done with
        | '\r' :: done => done
        | done => done
      String.ofList line.reverse :: go [] cs
    | c :: cs => go (c :: done) cs

def watchSettings (c : Configuration) (debounceMs : Option Nat) : Settings :=
  let s := c.apply.settings
  { s with autoApply := true, debounceMs := debounceMs.getD s.debounceMs }

/-- Writes what a printer has written. -/
def writePrinted : Printed → Job Unit
  | .output content => say content
  | .error message => complain ("error: " ++ message)

/-- Applies queries as they are edited. -/
def runWatch (s : Setup) (o : WatchOptions) : Job Unit := do
  if o.input.file == standardInput then
    throw (.invalidArguments "watch reads query edits from stdin; pass the input as a file")
  let input ← readDocument o.input.file o.input.inputType
  let session ← openSession s (watchSettings s.config o.debounceMs)
  let lines := linesOf (← readInput)
  for line in lines do
    s.explain ("Query edit: " ++ line)
  let w := Watch.run session (← get).now input o.input.outputType o.template (lines.map .edit)
  closeSession w.session
  for p in w.printed do
    writePrinted p

end QueryPlayground.CommandLine
