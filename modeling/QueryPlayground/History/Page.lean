import QueryPlayground.History.Table
import QueryPlayground.Text.Lowercase
import QueryPlayground.MachineWord

/-!
# Pages of a history

A page is a stretch of the entries that match a search, in order of time. The entries are gone through
once: those before the page are passed over, those of the page are kept, and one entry more shows that
another page follows.
-/

namespace QueryPlayground.History

/-! ## §1 Requests -/

inductive Order where
  /-- Newest first. -/
  | descending
  /-- Oldest first. -/
  | ascending
  deriving DecidableEq, Repr

/-- Which page to show. -/
structure PageRequest where
  /-- The number of the page, from zero. -/
  page : Nat
  /-- The most entries of a page. -/
  limit : Nat
  /-- What the entries have to contain. -/
  search : Option String
  order : Order
  deriving DecidableEq, Repr

namespace PageRequest

/-- The first page of the newest entries. -/
def default : PageRequest :=
  ⟨0, 20, none, .descending⟩

/-- Looks for a text; the empty one is in every entry. -/
def searching (r : PageRequest) (needle : String) : PageRequest :=
  { r with search := if needle.isEmpty then none else some needle }

/-- The largest number of entries that can be passed over. -/
def maxOffset : Nat := MachineWord.maxUnsigned

/-- How many matching entries come before the page. -/
def offset (r : PageRequest) : Nat :=
  min (r.page * r.limit) maxOffset

end PageRequest

structure Page where
  items : List Entry
  /-- Whether more entries follow. -/
  hasMore : Bool
  deriving DecidableEq, Repr

/-! ## §2 Searching -/

def containsChars (needle : List Char) : List Char → Bool
  | [] => needle.isEmpty
  | c :: cs => needle.isPrefixOf (c :: cs) || containsChars needle cs

/-- Whether an entry matches a search, in which case does not count. -/
def Entry.matchesSearch (search : Option String) (e : Entry) : Bool :=
  match search with
  | none => true
  | some needle =>
    containsChars (Text.lowerChars needle.toList) (Text.lowerChars e.content.toList)

/-! ## §3 Pages -/

namespace Page

/-- Goes through entries: `skip` of them are still to be passed over and `room` to be kept, and those
kept so far are in reverse. -/
def collect (isMatch : Entry → Bool) : Nat → Nat → List Entry → List Entry → Page
  | _, _, done, [] => ⟨done.reverse, false⟩
  | skip, room, done, e :: rest =>
    if !isMatch e then collect isMatch skip room done rest
    else
      match skip, room with
      | skip + 1, room => collect isMatch skip room done rest
      | 0, 0 => ⟨done.reverse, true⟩
      | 0, room + 1 => collect isMatch 0 room (e :: done) rest

end Page

def Table.ordered (t : Table) (order : Order) : List Entry :=
  match order with
  | .ascending => t.listing
  | .descending => t.listing.reverse

/-- The page that a request asks for. -/
def Table.query (t : Table) (r : PageRequest) : Page :=
  Page.collect (·.matchesSearch r.search) r.offset r.limit [] (t.ordered r.order)

end QueryPlayground.History
