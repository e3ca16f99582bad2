import Mathlib
import QueryPlayground.Proofs.Url.Percent
import QueryPlayground.Url.Parser

/-!
# Web addresses that go on

A web address that ends in a slash and has neither a query nor a fragment goes on with any text: its
scheme, host and port stay, and what is added is resolved against the segments that are there.

Main statements: `exists_parse?_append`, `IsDirectory.parse?_append_eq_iff` and
`IsDirectory.enter`.
-/

namespace QueryPlayground.Url

/-! ## §1 Pieces -/

section Pieces

variable {f : Char → Bool} {cs : List Char}

/-- There is a piece in every text, if only an empty one. -/
theorem splitAt_ne_nil (f : Char → Bool) (cs : List Char) : splitAt f cs ≠ [] := by
  cases cs with
  | nil => exact List.cons_ne_nil _ _
  | cons c cs =>
    rw [splitAt]
    split_ifs
    · exact List.cons_ne_nil _ _
    · split <;> exact List.cons_ne_nil _ _

/-- A separator ends one piece and begins another. -/
theorem splitAt_append {c : Char} (hc : f c = true) (cs ds : List Char) :
    splitAt f (cs ++ c :: ds) = splitAt f cs ++ splitAt f ds := by
  induction cs with
  | nil => simp [splitAt, hc]
  | cons e cs ih =>
    rw [List.cons_append, splitAt, splitAt, ih]
    split_ifs
    · rfl
    -- A character that is no separator goes to the first piece, of which there is one.
    · obtain ⟨piece, pieces, h⟩ := List.exists_cons_of_ne_nil (splitAt_ne_nil f cs)
      rw [h]
      rfl

/-- A text without separators is one piece. -/
theorem splitAt_of_forall (h : ∀ c ∈ cs, f c = false) : splitAt f cs = [cs] := by
  induction cs with
  | nil => rfl
  | cons c cs ih =>
    rw [splitAt, ih fun e he => h e (List.mem_cons_of_mem _ he)]
    simp [h c List.mem_cons_self]

/-- A piece is a part of the text without separators. -/
theorem of_mem_splitAt {piece : List Char} (h : piece ∈ splitAt f cs) :
    piece.Sublist cs ∧ ∀ c ∈ piece, f c = false := by
  induction cs generalizing piece with
  | nil =>
    obtain rfl : piece = [] := by simpa [splitAt] using h
    simp
  | cons c cs ih =>
    -- By induction on the text: a separator begins a piece that is new, any other character
    -- lengthens the first one.
    rw [splitAt] at h
    split_ifs at h with hc
    · rcases List.mem_cons.mp h with rfl | h
      · simp
      · exact ⟨(ih h).1.cons c, (ih h).2⟩
    · obtain ⟨first, pieces, hpieces⟩ := List.exists_cons_of_ne_nil (splitAt_ne_nil f cs)
      rw [hpieces] at h
      rcases List.mem_cons.mp h with rfl | h
      · have hfirst := ih (hpieces ▸ List.mem_cons_self)
        refine ⟨hfirst.1.cons_cons c, fun e he => ?_⟩
        rcases List.mem_cons.mp he with rfl | he
        · simpa using hc
        · exact hfirst.2 e he
      · have hlater := ih (hpieces ▸ List.mem_cons_of_mem _ h)
        exact ⟨hlater.1.cons c, hlater.2⟩

end Pieces

/-! ## §2 Segments -/

/-- The segments, in reverse, at which some more arrive that others follow. -/
def descend (done : List String) : List (List Char) → List String
  | [] => done
  | s :: rest =>
    if isDoubleDot s then descend (done.drop 1) rest
    else if isSingleDot s then descend done rest
    else descend (String.ofList (percentEncode keptInPath s) :: done) rest

/-- More segments are resolved against where the first ones have led. -/
theorem resolve_append {later : List (List Char)} (hlater : later ≠ []) :
    ∀ (done : List String) (ss : List (List Char)),
      resolve done (ss ++ later) = resolve (descend done ss) later
  | _, [] => rfl
  | done, s :: ss => by
    have hne : ss ++ later ≠ [] := by simp [hlater]
    rw [List.cons_append, resolve.eq_def, descend]
    split
    -- There is always something later, so neither the case of no segment nor that of the last one
    -- occurs.
    · exact absurd ‹_› (List.cons_ne_nil _ _)
    · exact absurd (List.cons.inj ‹_›).2 hne
    · obtain ⟨rfl, rfl⟩ := List.cons.inj ‹_›
      split_ifs <;> exact resolve_append hlater _ _

/-- An empty segment at the end leaves the path where it is, with a slash behind it. -/
theorem resolve_nil_piece (done : List String) : resolve done [[]] = done.reverse ++ [""] := by
  have hdouble : isDoubleDot [] = false := by decide
  have hsingle : isSingleDot [] = false := by decide
  simp [resolve, hdouble, hsingle, percentEncode]

/-- The last segment is the last piece as a path writes it, or nothing if that is dots. -/
theorem getLast?_resolve (done : List String) (ss : List (List Char)) (last : List Char) :
    (resolve done (ss ++ [last])).getLast? =
      some (if isDoubleDot last ∨ isSingleDot last then ""
        else String.ofList (percentEncode keptInPath last)) := by
  rw [resolve_append (List.cons_ne_nil _ _), resolve]
  split_ifs <;> simp_all

/-! ## §3 What does not count -/

/-- The characters that count of a text that goes on a URL. -/
def tidyEnd (cs : List Char) : List Char :=
  ((cs.reverse.dropWhile isEdge).reverse).filter (!isLineEnd ·)

/-- What is dropped ends at a character that stays, whatever is behind it. -/
theorem dropWhile_append_cons {p : Char → Bool} {c : Char} (hc : p c = false) (cs ds : List Char) :
    (cs ++ c :: ds).dropWhile p = cs.dropWhile p ++ c :: ds := by
  induction cs with
  | nil => simp [hc]
  | cons e cs ih =>
    rw [List.cons_append, List.dropWhile_cons, List.dropWhile_cons, ih]
    split <;> rfl

/-- What is taken ends at a character that does not belong to it. -/
theorem takeWhile_append_cons {p : Char → Bool} {c : Char} (hc : p c = false) (cs ds : List Char) :
    (cs ++ c :: ds).takeWhile p = (cs ++ [c]).takeWhile p := by
  induction cs with
  | nil => simp [hc]
  | cons e cs ih =>
    rw [List.cons_append, List.cons_append, List.takeWhile_cons, List.takeWhile_cons, ih]

/-- Where a character counts, what is added behind it is tidied alone. -/
theorem tidy_append {c : Char} (hedge : isEdge c = false) (hline : isLineEnd c = false)
    (cs ds : List Char) :
    tidy (cs ++ c :: ds) = (cs.dropWhile isEdge).filter (!isLineEnd ·) ++ c :: tidyEnd ds := by
  rw [tidy, dropWhile_append_cons hedge, List.reverse_append, List.reverse_cons, List.append_assoc,
    List.singleton_append, dropWhile_append_cons hedge]
  simp [tidyEnd, hline]

/-! ## §4 The parts of a web address -/

/-- The host and the port of a web address. -/
def authority? (scheme : String) (cs : List Char) : Option (String × Option Nat) := do
  let (hostText, portText) := splitPort false (afterUser cs)
  if hostText.isEmpty then none
  else
    let host ← webHost? hostText
    let port ← port? scheme portText
    return (host, port)

/-- Whether a character belongs to the host and what stands around it. -/
def inAuthority (c : Char) : Bool :=
  !(isSlash true c || endsPath c)

/-- The path of a web address from its first slash on, which may be missing. -/
def pathFrom (cs : List Char) : List String :=
  match cs with
  | [] => [""]
  | _ :: cs => segmentsOf true cs

/-- A web address from its path on. -/
def webAddress (scheme : String) (rest : List Char) (at? : String × Option Nat) : Url :=
  let (query, fragment) := tailOf true (rest.dropWhile (!endsPath ·))
  ⟨scheme, some at?.1, at?.2, .segments (pathFrom (rest.takeWhile (!endsPath ·))), query, fragment⟩

/-- A web address is its authority followed by its path, query and fragment. -/
theorem withHost?_eq {scheme : String} (hweb : isWeb scheme = true) (cs : List Char) :
    withHost? scheme cs =
      (authority? scheme (cs.takeWhile inAuthority)).map
        (webAddress scheme (cs.dropWhile inAuthority)) := by
  have hin : (fun c => !(isSlash true c || endsPath c)) = inAuthority := rfl
  rw [withHost?, hweb, authority?]
  simp only [hin, Bool.true_or, Bool.and_true, if_true]
  -- A host that is empty or is none fails on both sides, and so does a port that is none.
  split
  · rfl
  · rcases webHost? (splitPort false (afterUser (cs.takeWhile inAuthority))).1 with _ | host
    · rfl
    · rcases port? scheme (splitPort false (afterUser (cs.takeWhile inAuthority))).2 with _ | port
      · rfl
      · rfl

/-- A path that goes on behind a slash. -/
theorem pathFrom_append {cs : List Char} (hslash : ∀ c, cs.head? = some c → isSlash true c = true)
    (ds : List Char) :
    pathFrom (cs ++ '/' :: ds) =
      resolve (descend [] (splitAt (isSlash true) cs).tail) (splitAt (isSlash true) ds) := by
  have hsplit := splitAt_append (by decide : isSlash true '/' = true)
  rw [← resolve_append (splitAt_ne_nil _ _)]
  cases cs with
  | nil => rfl
  | cons c cs =>
    have hc : isSlash true c = true := hslash c rfl
    show segmentsOf true (cs ++ '/' :: ds) = _
    rw [segmentsOf, hsplit, splitAt, if_pos hc]
    -- The first piece of a path is the empty one in front of its first slash.
    rfl

/-- A web address that goes on behind a slash of its path. -/
theorem webAddress_append (scheme : String) {path : List Char} (at? : String × Option Nat)
    (hplain : ∀ c ∈ path, endsPath c = false)
    (hslash : ∀ c, path.head? = some c → isSlash true c = true) (ds : List Char) :
    webAddress scheme (path ++ '/' :: ds) at? =
      ⟨scheme, some at?.1, at?.2,
        .segments (resolve (descend [] (splitAt (isSlash true) path).tail)
          (splitAt (isSlash true) (ds.takeWhile (!endsPath ·)))),
        (tailOf true (ds.dropWhile (!endsPath ·))).1,
        (tailOf true (ds.dropWhile (!endsPath ·))).2⟩ := by
  -- Neither the path nor the slash behind it ends the path, so that what ends it is in what is
  -- added.
  have hplain' : ∀ c ∈ path ++ ['/'], (!endsPath c) = true := by
    intro c hc
    rcases List.mem_append.mp hc with hc | hc
    · simp [hplain c hc]
    · obtain rfl : c = '/' := by simpa using hc
      decide
  have htake : (path ++ ['/'] ++ ds).takeWhile (!endsPath ·) =
      path ++ ['/'] ++ ds.takeWhile (!endsPath ·) := List.takeWhile_append_of_pos hplain'
  have hdrop : (path ++ ['/'] ++ ds).dropWhile (!endsPath ·) = ds.dropWhile (!endsPath ·) :=
    List.dropWhile_append_of_pos hplain'
  simp only [List.append_assoc, List.singleton_append] at htake hdrop
  rw [webAddress, hdrop, htake, pathFrom_append hslash]

/-- Where neither a query nor a fragment is read no character begins one. -/
theorem all_of_tailOf (special : Bool) {cs : List Char}
    (hquery : (tailOf special (cs.dropWhile (!endsPath ·))).1 = none)
    (hfragment : (tailOf special (cs.dropWhile (!endsPath ·))).2 = none) :
    ∀ c ∈ cs, endsPath c = false := by
  induction cs with
  | nil => simp
  | cons c cs ih =>
    -- The first character that ends the path would begin a query or a fragment.
    by_cases hc : endsPath c
    · rw [List.dropWhile_cons_of_neg (by simp [hc])] at hquery hfragment
      simp only [endsPath, Bool.or_eq_true, beq_iff_eq] at hc
      rcases hc with rfl | rfl
      · simp [tailOf] at hquery
      · simp [tailOf] at hfragment
    · rw [List.dropWhile_cons_of_pos (by simp [hc])] at hquery hfragment
      intro e he
      rcases List.mem_cons.mp he with rfl | he
      · simpa using hc
      · exact ih hquery hfragment e he

/-! ## §5 Going on -/

/-- The scheme of a text that goes on behind a slash. -/
theorem scheme?_append {cs : List Char} {scheme : String} {rest : List Char}
    (h : scheme? (cs ++ ['/']) = some (scheme, rest)) :
    ∃ left, rest = left ++ ['/'] ∧
      ∀ ds, scheme? (cs ++ '/' :: ds) = some (scheme, left ++ '/' :: ds) := by
  have hslash : isSchemeChar '/' = false := by decide
  cases cs with
  | nil => simp [scheme?] at h
  | cons c cs =>
    -- A slash does not belong to a scheme, so it ends the scheme where the text has not done so.
    have hdrop (ds : List Char) := dropWhile_append_cons hslash (c :: cs) ds
    have htake (ds : List Char) := takeWhile_append_cons hslash (c :: cs) ds
    rcases hleft : (c :: cs).dropWhile isSchemeChar with _ | ⟨e, left⟩
    · simp only [List.cons_append] at hdrop
      simp [scheme?, hdrop, hleft] at h
    · simp only [List.cons_append] at hdrop htake
      simp only [List.cons_append, scheme?, hdrop, hleft] at h ⊢
      split_ifs at h with halpha
      split at h
      · obtain ⟨rfl, rfl⟩ : e = ':' ∧ left ++ ['/'] = _ := by simpa using ‹e :: _ = ':' :: _›
        obtain ⟨rfl, rfl⟩ : _ = scheme ∧ _ = rest := by simpa using h
        exact ⟨left, rfl, fun ds => by simp [halpha, htake ds]⟩
      · cases h

/-- A web address without a query and a fragment that ends in a slash goes on behind it. -/
theorem withHost?_append {scheme : String} (hweb : isWeb scheme = true) {cs : List Char} {u : Url}
    (h : withHost? scheme (cs ++ ['/']) = some u) (hquery : u.query = none)
    (hfragment : u.fragment = none) :
    u.scheme = scheme ∧ ∃ dir : List String, u.path = .segments (dir ++ [""]) ∧
      ∀ ds, withHost? scheme (cs ++ '/' :: ds) =
        some { u with
          path := .segments (resolve dir.reverse
            (splitAt (isSlash true) (ds.takeWhile (!endsPath ·))))
          query := (tailOf true (ds.dropWhile (!endsPath ·))).1
          fragment := (tailOf true (ds.dropWhile (!endsPath ·))).2 } := by
  have hslash : inAuthority '/' = false := by decide
  have hdrop (ds : List Char) := dropWhile_append_cons hslash cs ds
  have htake (ds : List Char) := takeWhile_append_cons hslash cs ds
  rw [withHost?_eq hweb, hdrop] at h
  -- The host and the port stand in front of the slash, so they are the same whatever is added.
  obtain ⟨place, hplace, rfl⟩ := Option.map_eq_some_iff.mp h
  generalize hpath : cs.dropWhile inAuthority = path at *
  have hplain : ∀ c ∈ path, endsPath c = false := fun c hc =>
    all_of_tailOf true hquery hfragment c (List.mem_append_left _ hc)
  -- A path begins where the authority ends, and what ends it is a slash, as no query begins there.
  have hhead : ∀ c, path.head? = some c → isSlash true c = true := by
    intro c hc
    have hnot : inAuthority c = false := by
      rw [← hpath, ← List.find?_not_eq_head?_dropWhile] at hc
      simpa using List.find?_some hc
    simpa [inAuthority, hplain c (List.mem_of_mem_head? hc)] using hnot
  rw [webAddress_append scheme place hplain hhead]
  refine ⟨rfl, (descend [] (splitAt (isSlash true) path).tail).reverse, ?_, fun ds => ?_⟩
  · simp [splitAt, resolve_nil_piece]
  · rw [withHost?_eq hweb, htake, hplace, hdrop, Option.map_some,
      webAddress_append scheme place hplain hhead, List.reverse_reverse]

/-! ## §6 Addresses that end in a slash -/

/-- What a text is as a web address if the characters that count come in these two parts. -/
theorem parse?_of_tidy {text : String} {cs : List Char} {scheme : String} {left : List Char}
    (htidy : tidy text.toList = cs) (hscheme : scheme? cs = some (scheme, left))
    (hweb : isWeb scheme = true) :
    parse? text = withHost? scheme (left.dropWhile (isSlash true)) := by
  simp [parse?, htidy, hscheme, hweb]

/-- What is read with a host has that scheme and a host. -/
theorem scheme_host_of_withHost? {scheme : String} {cs : List Char} {u : Url}
    (h : withHost? scheme cs = some u) : u.scheme = scheme ∧ u.host.isSome = true := by
  simp only [withHost?] at h
  split_ifs at h
  all_goals
    simp only [Option.bind_eq_bind, Option.bind_eq_some_iff, Option.pure_def] at h
    obtain ⟨_, -, _, -, h⟩ := h
    rw [← Option.some.inj h]
    exact ⟨rfl, rfl⟩

/-- What is read without a host has that scheme. -/
theorem scheme_withoutHost (scheme : String) (cs : List Char) :
    (withoutHost scheme cs).scheme = scheme := by
  simp only [withoutHost]
  split <;> rfl

/-- A web address is read from its scheme and its host on. -/
theorem withHost?_of_parse? {text : String} {u : Url} (h : parse? text = some u)
    (hweb : isWeb u.scheme = true) :
    ∃ left, scheme? (tidy text.toList) = some (u.scheme, left) ∧
      withHost? u.scheme (left.dropWhile (isSlash true)) = some u := by
  simp only [parse?, Option.bind_eq_bind, Option.bind_eq_some_iff] at h
  obtain ⟨⟨scheme, left⟩, hscheme, h⟩ := h
  -- Only a web scheme makes a web address, so the first case is the only one.
  by_cases hfirst : isWeb scheme = true
  · rw [if_pos hfirst] at h
    obtain rfl := (scheme_host_of_withHost? h).1
    exact ⟨left, hscheme, h⟩
  · rw [if_neg hfirst] at h
    suffices u.scheme = scheme from absurd (this ▸ hweb) hfirst
    split at h
    · split_ifs at h
      · exact Option.some.inj h ▸ scheme_withoutHost scheme _
      · exact (scheme_host_of_withHost? h).1
    · exact Option.some.inj h ▸ scheme_withoutHost scheme _

/-- A web address that ends in a slash, without a query and a fragment, is a directory of some
segments, and what is added to it is resolved against them. -/
theorem exists_parse?_append {text : String} {u : Url} (h : parse? (text ++ "/") = some u)
    (hweb : isWeb u.scheme = true) (hquery : u.query = none) (hfragment : u.fragment = none) :
    ∃ dir : List String, u.path = .segments (dir ++ [""]) ∧ ∀ s : String,
      parse? (text ++ "/" ++ s) =
        some { u with
          path := .segments (resolve dir.reverse
            (splitAt (isSlash true) ((tidyEnd s.toList).takeWhile (!endsPath ·))))
          query := (tailOf true ((tidyEnd s.toList).dropWhile (!endsPath ·))).1
          fragment := (tailOf true ((tidyEnd s.toList).dropWhile (!endsPath ·))).2 } := by
  have htidy := tidy_append (by decide : isEdge '/' = false) (by decide) text.toList
  generalize (text.toList.dropWhile isEdge).filter (!isLineEnd ·) = cs at htidy
  -- The two parts are the text without its slash, and the slash with what is added.
  obtain ⟨rest, hrest, -⟩ := withHost?_of_parse? h hweb
  have hslash : (text ++ "/").toList = text.toList ++ '/' :: [] := by simp
  rw [hslash, htidy []] at hrest
  obtain ⟨left, rfl, hscheme⟩ := scheme?_append hrest
  have hparse (s : String) : parse? (text ++ "/" ++ s) =
      withHost? u.scheme ((left ++ '/' :: tidyEnd s.toList).dropWhile (isSlash true)) :=
    parse?_of_tidy (by simp [htidy]) (hscheme _) hweb
  have hempty := hparse ""
  rw [String.append_empty, h] at hempty
  simp only [List.dropWhile_append] at hparse hempty
  rcases hleft : left.dropWhile (isSlash true) with _ | ⟨c, ds⟩
  · -- slashes alone have no host
    simp [hleft, tidyEnd, isSlash, withHost?_eq hweb, authority?, splitPort, afterUser] at hempty
  · simp only [hleft, List.isEmpty_cons, Bool.false_eq_true, if_false] at hparse hempty
    obtain ⟨-, dir, hdir, happend⟩ := withHost?_append hweb hempty.symm hquery hfragment
    exact ⟨dir, hdir, fun s => (hparse s).trans (happend _)⟩

/-- A text that, with a slash behind it, is a web address without a query and a fragment; `dir` are
the segments in front of that slash. -/
structure IsDirectory (text : String) (u : Url) (dir : List String) : Prop where
  parse : parse? (text ++ "/") = some u
  web : isWeb u.scheme = true
  path : u.path = .segments (dir ++ [""])
  query : u.query = none
  fragment : u.fragment = none

/-- A web address of that form is a directory of some segments. -/
theorem exists_isDirectory {text : String} {u : Url} (h : parse? (text ++ "/") = some u)
    (hweb : isWeb u.scheme = true) (hquery : u.query = none) (hfragment : u.fragment = none) :
    ∃ dir, IsDirectory text u dir := by
  obtain ⟨dir, hdir, -⟩ := exists_parse?_append h hweb hquery hfragment
  exact ⟨dir, h, hweb, hdir, hquery, hfragment⟩

/-- A directory has a host. -/
theorem IsDirectory.host {text : String} {u : Url} {dir : List String}
    (h : IsDirectory text u dir) : u.host.isSome = true := by
  obtain ⟨left, -, hhost⟩ := withHost?_of_parse? h.parse h.web
  exact (scheme_host_of_withHost? hhost).2

/-- What is added to a directory is resolved against its segments. -/
theorem IsDirectory.parse?_append {text : String} {u : Url} {dir : List String}
    (h : IsDirectory text u dir) (s : String) :
    parse? (text ++ "/" ++ s) =
      some { u with
        path := .segments (resolve dir.reverse
          (splitAt (isSlash true) ((tidyEnd s.toList).takeWhile (!endsPath ·))))
        query := (tailOf true ((tidyEnd s.toList).dropWhile (!endsPath ·))).1
        fragment := (tailOf true ((tidyEnd s.toList).dropWhile (!endsPath ·))).2 } := by
  obtain ⟨other, hother, happend⟩ := exists_parse?_append h.parse h.web h.query h.fragment
  -- A path has its segments in only one way.
  obtain rfl : dir = other := by simpa [h.path] using hother
  exact happend s

/-! ## §7 Single segments -/

/-- A text that is one segment of a path where it is put behind a slash: nothing of it is left out or
ends the segment, and it is no step to another place. -/
structure IsSegment (s : String) : Prop where
  inside : ∀ c ∈ s.toList, isLineEnd c = false ∧ isSlash true c = false ∧ endsPath c = false
  last : ∀ c, s.toList.getLast? = some c → isEdge c = false
  notSingleDot : isSingleDot s.toList = false
  notDoubleDot : isDoubleDot s.toList = false

/-- A segment as a path writes it. -/
def segmentText (s : String) : String :=
  String.ofList (percentEncode keptInPath s.toList)

/-- What counts of a text is a part of it, in order. -/
theorem tidyEnd_sublist (cs : List Char) : (tidyEnd cs).Sublist cs := by
  have hdrop := (List.dropWhile_sublist (l := cs.reverse) isEdge).reverse
  rw [List.reverse_reverse] at hdrop
  exact List.filter_sublist.trans hdrop

/-- Nothing of a text is left out if it has no line ends and does not end in an edge. -/
theorem tidyEnd_eq_self_iff {cs : List Char} :
    tidyEnd cs = cs ↔
      (∀ c ∈ cs, isLineEnd c = false) ∧ ∀ c, cs.getLast? = some c → isEdge c = false := by
  rcases List.eq_nil_or_concat cs with rfl | ⟨l, c, rfl⟩
  · simp [tidyEnd]
  · rw [List.concat_eq_append]
    cases hedge : isEdge c with
    | true =>
      have hcut : tidyEnd (l ++ [c]) = tidyEnd l := by simp [tidyEnd, hedge]
      have hlength := (tidyEnd_sublist l).length_le
      constructor
      · intro h
        rw [hcut] at h
        simp [h] at hlength
      · rintro ⟨-, hlast⟩
        simpa [hedge] using hlast c
    | false =>
      have hfilter : tidyEnd (l ++ [c]) = (l ++ [c]).filter (!isLineEnd ·) := by
        simp [tidyEnd, hedge]
      rw [hfilter, List.filter_eq_self]
      simp [hedge]

theorem isSegment_empty : IsSegment "" := by
  constructor <;> simp [isSingleDot, isDoubleDot]

theorem segmentText_eq_empty_iff {s : String} : segmentText s = "" ↔ s = "" := by
  rw [segmentText, String.ofList_eq_empty_iff, percentEncode_eq_nil_iff, String.toList_eq_nil_iff]

theorem IsSegment.tidyEnd {s : String} (hs : IsSegment s) : tidyEnd s.toList = s.toList :=
  tidyEnd_eq_self_iff.mpr ⟨fun c hc => (hs.inside c hc).1, hs.last⟩

/-- A text without marks is a path to its end. -/
theorem span_of_plain {cs : List Char} (h : ∀ c ∈ cs, endsPath c = false) (ds : List Char) :
    (cs ++ ds).takeWhile (!endsPath ·) = cs ++ ds.takeWhile (!endsPath ·) ∧
      (cs ++ ds).dropWhile (!endsPath ·) = ds.dropWhile (!endsPath ·) := by
  have hplain : ∀ c ∈ cs, (!endsPath c) = true := fun c hc => by simp [h c hc]
  exact ⟨List.takeWhile_append_of_pos hplain, List.dropWhile_append_of_pos hplain⟩

theorem resolve_segment {s : String} (hs : IsSegment s) (done : List String)
    (later : List (List Char)) :
    resolve done (s.toList :: later) =
      if later = [] then done.reverse ++ [segmentText s]
      else resolve (segmentText s :: done) later := by
  cases later <;> simp [resolve, hs.notSingleDot, hs.notDoubleDot, segmentText]

theorem IsDirectory.parse?_segment {text : String} {u : Url} {dir : List String}
    (h : IsDirectory text u dir) {s : String} (hs : IsSegment s) :
    parse? (text ++ "/" ++ s) = some { u with path := .segments (dir ++ [segmentText s]) } := by
  obtain ⟨htake, hdrop⟩ := span_of_plain (fun c hc => (hs.inside c hc).2.2) []
  simp only [List.append_nil, List.takeWhile_nil, List.dropWhile_nil] at htake hdrop
  rw [h.parse?_append, hs.tidyEnd, htake, hdrop,
    splitAt_of_forall fun c hc => (hs.inside c hc).2.1, resolve_segment hs]
  simp [tailOf, h.query, h.fragment]

/-- Nothing but one segment is put behind a slash as one segment. -/
theorem IsDirectory.isSegment {text : String} {u : Url} {dir : List String}
    (h : IsDirectory text u dir) {s : String}
    (hs : parse? (text ++ "/" ++ s) = some { u with path := .segments (dir ++ [segmentText s]) }) :
    IsSegment s := by
  rw [h.parse?_append] at hs
  simp only [Option.some.injEq, Url.mk.injEq, UrlPath.segments.injEq, h.query, h.fragment,
    true_and] at hs
  obtain ⟨hpath, hquery, hfragment⟩ := hs
  have hplain := all_of_tailOf true hquery hfragment
  have htake := (span_of_plain hplain []).1
  simp only [List.append_nil, List.takeWhile_nil] at htake
  rw [htake] at hpath
  -- the last piece is written as the whole text is, so it is the whole text
  obtain ⟨pieces, last, hlast⟩ :=
    (List.eq_nil_or_concat (splitAt (isSlash true) (tidyEnd s.toList))).resolve_left
      (splitAt_ne_nil _ _)
  rw [List.concat_eq_append] at hlast
  have hwritten := getLast?_resolve dir.reverse pieces last
  rw [← hlast, hpath] at hwritten
  simp only [List.getLast?_append, List.getLast?_singleton, Option.some_or, Option.some.injEq]
    at hwritten
  obtain ⟨hsub, hslash⟩ := of_mem_splitAt (hlast ▸ List.mem_append_right pieces List.mem_cons_self)
  rcases eq_or_ne s "" with rfl | hne
  · exact isSegment_empty
  split_ifs at hwritten with hdots
  · exact absurd (segmentText_eq_empty_iff.mp hwritten) hne
  have hwhole : last = s.toList := eq_of_percentEncode_sublist (hsub.trans (tidyEnd_sublist _))
    (String.ofList_injective hwritten).symm
  subst hwhole
  have htidy := (tidyEnd_sublist s.toList).antisymm hsub
  obtain ⟨hline, hedge⟩ := tidyEnd_eq_self_iff.mp htidy
  rw [htidy] at hplain
  simp only [not_or, Bool.not_eq_true] at hdots
  exact ⟨fun c hc => ⟨hline c hc, hslash c hc, hplain c hc⟩, hedge, hdots.2, hdots.1⟩

/-- What is put behind a slash adds one segment exactly if it is one. -/
theorem IsDirectory.parse?_append_eq_iff {text : String} {u : Url} {dir : List String}
    (h : IsDirectory text u dir) {s : String} :
    parse? (text ++ "/" ++ s) = some { u with path := .segments (dir ++ [segmentText s]) } ↔
      IsSegment s :=
  ⟨h.isSegment, h.parse?_segment⟩

/-- A segment makes another directory. -/
theorem IsDirectory.enter {text : String} {u : Url} {dir : List String} (h : IsDirectory text u dir)
    {s : String} (hs : IsSegment s) :
    IsDirectory (text ++ "/" ++ s) { u with path := .segments (dir ++ [segmentText s, ""]) }
      (dir ++ [segmentText s]) where
  parse := by
    obtain ⟨htake, hdrop⟩ := span_of_plain (fun c hc => (hs.inside c hc).2.2) ['/']
    have htidy : Url.tidyEnd (s.toList ++ ['/']) = s.toList ++ ['/'] := by
      refine tidyEnd_eq_self_iff.mpr ⟨fun c hc => ?_, by simp; decide⟩
      rcases List.mem_append.mp hc with hc | hc
      · exact (hs.inside c hc).1
      · obtain rfl : c = '/' := by simpa using hc
        decide
    have hsplit := splitAt_append (by decide : isSlash true '/' = true) s.toList []
    rw [splitAt_of_forall fun c hc => (hs.inside c hc).2.1] at hsplit
    have hslash : (s ++ "/").toList = s.toList ++ ['/'] := by simp
    have hmark : endsPath '/' = false := by decide
    rw [String.append_assoc, h.parse?_append, hslash, htidy, htake, hdrop]
    simp [hmark, hsplit, splitAt, resolve_segment hs, resolve_nil_piece, tailOf, h.query,
      h.fragment]
  web := h.web
  path := by simp
  query := h.query
  fragment := h.fragment

end QueryPlayground.Url
