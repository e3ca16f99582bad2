import QueryPlayground.Text.Blank

/-!
# Documents and their kinds

A document is text together with its kind. The kind says how the text is read, and into which of
the two histories a query of that kind is recorded.
-/

namespace QueryPlayground

/-! ## §1 History kinds -/

/-- One of the two histories. -/
inductive HistoryKind where
  | queries
  | templates
  deriving DecidableEq, Repr, Inhabited

namespace HistoryKind

/-- Both kinds, in the order in which they are listed. -/
def all : List HistoryKind := [queries, templates]

def name : HistoryKind → String
  | queries => "queries"
  | templates => "templates"

def ofName? (s : String) : Option HistoryKind :=
  all.find? (·.name == s)

end HistoryKind

/-! ## §2 Document kinds -/

/-- How the text of a document is meant. -/
inductive DocumentKind where
  | json
  | yaml
  | query
  | template
  deriving DecidableEq, Repr, Inhabited

namespace DocumentKind

def all : List DocumentKind := [json, yaml, query, template]

def name : DocumentKind → String
  | json => "json"
  | yaml => "yaml"
  | query => "query"
  | template => "template"

def ofName? (s : String) : Option DocumentKind :=
  all.find? (·.name == s)

/-- The spellings that are understood, with the kind each one means. -/
def spellings : List (String × DocumentKind) :=
  [("json", json), ("yaml", yaml), ("yml", yaml), ("query", query), ("query-language", query),
    ("template", template)]

/-- The kind that a user names: blanks around the name and the case of ASCII letters do not
matter. -/
def parse? (s : String) : Option DocumentKind :=
  spellings.lookup (String.ofList ((Text.trimBlanks s.toList).map Char.toLower))

/-- The history into which text of this kind is recorded. -/
def historyKind : DocumentKind → HistoryKind
  | template => .templates
  | _ => .queries

/-- Templates have a history of their own, and everything else goes to that of the queries. -/
theorem historyKind_eq (k : DocumentKind) :
    k.historyKind = if k = .template then .templates else .queries := by
  cases k <;> rfl

/-- A kind is found by its name. -/
@[simp]
theorem ofName?_name (k : DocumentKind) : ofName? k.name = some k := by
  cases k <;> decide

end DocumentKind

/-! ## §3 Documents -/

/-- Text with its kind. -/
structure Document where
  content : String
  kind : DocumentKind
  deriving DecidableEq, Repr, Inhabited

def Document.empty (kind : DocumentKind) : Document :=
  ⟨"", kind⟩

end QueryPlayground
