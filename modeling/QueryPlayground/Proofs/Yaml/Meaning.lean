import QueryPlayground.Yaml.Compose
import QueryPlayground.Proofs.Json.Normal
import QueryPlayground.Proofs.Yaml.Node

/-!
# What a node means

A scalar means what its style and its spelling say, and a collection means the array or the object of
what is in it. A text whose tokens are those of a node is read to what the node means.

Main statement: `parseChars_of_supplies`.
-/

namespace QueryPlayground.Yaml

open QueryPlayground.Json (Value SortedKeys)

/-! ## §1 Meaning -/

mutual

/-- The value of a node with at most so many levels of collections, in which keys come in order. -/
inductive Means : Nat → Node → Value → Prop where
  | scalar {d : Nat} {content : String} {style : ScalarStyle} {x : Value} :
      Source.scalarValue none content style = .ok x → Means d (.scalar content style) x
  | seq {d : Nat} {vs : List Node} {xs : List Value} :
      MeansItems d vs xs → Means (d + 1) (.seq vs) (.arr xs)
  | map {d : Nat} {ms : List (Key × Node)} {xs : List (String × Value)} :
      MeansMembers d ms xs → SortedKeys xs → Means (d + 1) (.map ms) (.obj xs)

inductive MeansItems : Nat → List Node → List Value → Prop where
  | nil {d : Nat} : MeansItems d [] []
  | cons {d : Nat} {v : Node} {vs : List Node} {x : Value} {xs : List Value} :
      Means d v x → MeansItems d vs xs → MeansItems d (v :: vs) (x :: xs)

inductive MeansMembers : Nat → List (Key × Node) → List (String × Value) → Prop where
  | nil {d : Nat} : MeansMembers d [] []
  | cons {d : Nat} {k : Key} {v : Node} {ms : List (Key × Node)} {x : Value} {xs : List (String × Value)} :
      Means d v x → MeansMembers d ms xs → MeansMembers d ((k, v) :: ms) ((k.text, x) :: xs)

end

/-! ## §2 Events that were collected -/

/-- An event as it is collected. -/
def EventKind.node : EventKind → NodeEvent
  | .scalar p content style => .scalar p.tag (String.ofList content) style
  | .sequenceStart p => .sequenceStart p.tag
  | .sequenceEnd => .sequenceEnd
  | .mappingStart p => .mappingStart p.tag
  | .mappingEnd => .mappingEnd
  | _ => .void

/-- The events inside a document that have no anchor. -/
def EventKind.Nameless : EventKind → Prop
  | .scalar p _ _ | .sequenceStart p | .mappingStart p => p.anchor = none
  | .sequenceEnd | .mappingEnd => True
  | _ => False

theorem Node.events_pos (v : Node) : 0 < v.events.length := by
  cases v <;> simp [Node.events]

mutual

theorem Node.nameless : (v : Node) → ∀ k ∈ v.events, k.Nameless
  | .scalar .. => by simp [Node.events, EventKind.Nameless]
  | .seq vs => by
    simpa [Node.events, EventKind.Nameless, or_imp, forall_and] using nameless_itemEvents vs
  | .map ms => by
    simpa [Node.events, EventKind.Nameless, or_imp, forall_and] using nameless_memberEvents ms

theorem nameless_itemEvents : (vs : List Node) → ∀ k ∈ itemEvents vs, k.Nameless
  | [] => by simp [itemEvents]
  | v :: vs => by
    simpa [itemEvents, or_imp, forall_and] using And.intro v.nameless (nameless_itemEvents vs)

theorem nameless_memberEvents : (ms : List (Key × Node)) → ∀ k ∈ memberEvents ms, k.Nameless
  | [] => by simp [memberEvents]
  | (k, v) :: ms => by
    simpa [memberEvents, EventKind.Nameless, or_imp, forall_and] using
      And.intro v.nameless (nameless_memberEvents ms)

end

/-- Events as they are collected, with their marks. -/
def collectedEvents (es : List Event) : Array (NodeEvent × Mark) :=
  (es.map fun e => (e.kind.node, e.mark)).toArray

theorem collect_append {failure : Option Failure} {es rest : List Event}
    (hes : ∀ e ∈ es, e.kind.Nameless) (d : Collected) :
    collect failure (es ++ rest) d =
      collect failure rest { d with events := d.events ++ collectedEvents es } := by
  induction es generalizing d with
  | nil => simp [collectedEvents]
  | cons e es ih =>
    have hadd : collect failure (e :: (es ++ rest)) d =
        collect failure (es ++ rest) (d.add e.kind.node e.mark) := by
      have he := hes e List.mem_cons_self
      obtain ⟨k, m⟩ := e
      cases k <;> first
        | exact he.elim
        | rfl
        | simp_all [collect, EventKind.Nameless, Collected.addNode, EventKind.node]
    rw [List.cons_append, hadd, ih fun e he => hes e (List.mem_cons_of_mem _ he)]
    simp [Collected.add, collectedEvents]

/-- A document whose node has no anchors is collected as it is. -/
theorem collect_document {v : Node} {es : List Event}
    (hes : es.map (·.kind) = .documentStart :: (v.events ++ [.documentEnd, .streamEnd])) :
    ∃ ns, ns.toList.map (·.1) = v.events.map (·.node) ∧
      collect none es .empty = (⟨ns, [], []⟩, none, false) := by
  obtain ⟨start, es, rfl, hstart, hes⟩ := List.map_eq_cons_iff.mp hes
  obtain ⟨inner, es, rfl, hinner, hes⟩ := List.map_eq_append_iff.mp hes
  obtain ⟨stop, es, rfl, hstop, hes⟩ := List.map_eq_cons_iff.mp hes
  obtain ⟨final, es, rfl, hfinal, hes⟩ := List.map_eq_cons_iff.mp hes
  obtain rfl := List.map_eq_nil_iff.mp hes
  -- The node lies between the events of the document, and none of its own has an anchor.
  have hnameless : ∀ e ∈ inner, e.kind.Nameless := fun e he =>
    v.nameless _ (hinner ▸ List.mem_map_of_mem he)
  refine ⟨collectedEvents inner, ?_, ?_⟩
  · simp [collectedEvents, ← hinner]
  · have hopen : collect none (start :: (inner ++ [stop, final])) .empty =
        collect none (inner ++ [stop, final]) .empty := by
      simp [collect, hstart]
    rw [hopen, collect_append hnameless]
    simp [collect, hstop, hfinal, Collected.empty]

/-! ## §3 Reading a node -/

namespace Source

/-- From a place on, a document has these events. -/
def Holds (s : Source) (pos : Nat) (ks : List EventKind) : Prop :=
  ∀ i k, ks[i]? = some k → ∃ m, s.events[pos + i]? = some (k.node, m)

variable {s : Source}

theorem Holds.left {pos : Nat} {ks ks' : List EventKind} (h : s.Holds pos (ks ++ ks')) :
    s.Holds pos ks := fun i k hk =>
  h i k (by rw [List.getElem?_append_left (List.getElem?_eq_some_iff.mp hk).1, hk])

theorem Holds.right {pos : Nat} {ks ks' : List EventKind} (h : s.Holds pos (ks ++ ks')) :
    s.Holds (pos + ks.length) ks' := fun i k hk => by
  rw [Nat.add_assoc]
  exact h (ks.length + i) k (by rw [List.getElem?_append_right (Nat.le_add_right _ _)]; simpa using hk)

theorem Holds.exists_at {pos : Nat} {k : EventKind} {ks : List EventKind} (h : s.Holds pos (k :: ks)) :
    ∃ m, s.at? pos = .ok (k.node, m) := by
  obtain ⟨m, hm⟩ := h 0 k rfl
  rw [Nat.add_zero] at hm
  exact ⟨m, by rw [at?, hm]⟩

theorem Holds.tail {pos : Nat} {k : EventKind} {ks : List EventKind} (h : s.Holds pos (k :: ks)) :
    s.Holds (pos + 1) ks :=
  Holds.right (show s.Holds pos ([k] ++ ks) from h)

theorem holds_of_map {ks : List EventKind} (h : s.events.toList.map (·.1) = ks.map (·.node)) :
    s.Holds 0 ks := by
  intro i k hk
  have hnode : (s.events.toList.map (·.1))[i]? = some k.node := by simp [h, hk]
  obtain ⟨⟨n, m⟩, hm, rfl⟩ := Option.map_eq_some_iff.mp (List.getElem?_map .. ▸ hnode)
  exact ⟨m, by simpa using hm⟩

theorem key_of_holds {pos : Nat} {content : List Char} {style : ScalarStyle} {ks : List EventKind}
    (h : s.Holds pos (.scalar ⟨none, none⟩ content style :: ks)) (expected : String) (path : List PathStep)
    (fuel jumps : Nat) :
    s.key expected path (fuel + 1) pos jumps = .ok (String.ofList content, jumps) := by
  obtain ⟨m, hm⟩ := h.exists_at
  simp [key, hm, EventKind.node, bind, Except.bind, pure, Except.pure]

/-- An item is read, and then the others. -/
theorem items_of_value {v : Node} {ks : List EventKind} {fuel depth pos pos' jumps jumps' index : Nat}
    {path : List PathStep} {done : List Value} {x : Value} (h : s.Holds pos (v.events ++ ks))
    (hv : s.value fuel depth (.item index :: path) pos jumps = .ok (x, pos', jumps')) :
    s.items (fuel + 1) depth path done index pos jumps =
      s.items fuel depth path (x :: done) (index + 1) pos' jumps' := by
  cases v <;>
  · obtain ⟨m, hm⟩ := h.exists_at
    simp [items, hm, hv, EventKind.node, bind, Except.bind]

/-- A member is read, and then the others. -/
theorem members_of_value {k : Key} {ks : List EventKind} {fuel depth pos pos' jumps jumps' : Nat}
    {path : List PathStep} {first : Bool} {done : List (String × Value)} {x : Value}
    (h : s.Holds pos (.scalar ⟨none, none⟩ k.text.toList k.style :: ks))
    (hv : s.value fuel depth (s.keyStep pos :: path) (pos + 1) jumps = .ok (x, pos', jumps')) :
    s.members (fuel + 1) depth path first done pos jumps =
      s.members fuel depth path false (Json.Members.insert k.text x done) pos' jumps' := by
  obtain ⟨m, hm⟩ := h.exists_at
  have hkey := fun e => key_of_holds h e path s.events.size jumps
  simp [members, hm, hkey, hv, EventKind.node, bind, Except.bind]

mutual

/-- The value of a node is read from its events with as much fuel as there are events, and the reader
stands behind them then. -/
theorem value_of_means {d : Nat} {v : Node} {x : Value} : Means d v x →
    ∀ {fuel depth pos jumps : Nat} {path : List PathStep}, d ≤ depth → v.events.length ≤ fuel →
    s.Holds pos v.events → s.value fuel depth path pos jumps = .ok (x, pos + v.events.length, jumps)
  | .scalar hx, fuel, depth, pos, jumps, path, _, hfuel, h => by
    obtain ⟨fuel, rfl⟩ := Nat.exists_eq_add_of_le' hfuel
    obtain ⟨m, hm⟩ := h.exists_at
    simp [value, hm, EventKind.node, isLocal, hx, Node.events, bind, Except.bind, pure, Except.pure]
  | @Means.seq d vs xs hvs, fuel, depth, pos, jumps, path, hdepth, hfuel, h => by
    obtain ⟨depth, rfl⟩ : ∃ n, depth = n + 1 := ⟨depth - 1, by omega⟩
    obtain ⟨m, hm⟩ := h.exists_at
    have hlength : (Node.seq vs).events.length = (itemEvents vs).length + 1 + 1 := by simp [Node.events]
    obtain ⟨fuel, rfl⟩ : ∃ n, fuel = n + 1 := ⟨fuel - 1, by omega⟩
    have hitems : s.items fuel depth path [] 0 (pos + 1) jumps = .ok (.arr xs, _, jumps) :=
      items_of_means hvs (by omega) (by omega) h.tail
    have hend : pos + 1 + (itemEvents vs).length + 1 = pos + (Node.seq vs).events.length := by omega
    rw [hend] at hitems
    simp [value, hm, hitems, EventKind.node, isLocal, bind, Except.bind]
  | @Means.map d ms xs hms hsorted, fuel, depth, pos, jumps, path, hdepth, hfuel, h => by
    obtain ⟨depth, rfl⟩ : ∃ n, depth = n + 1 := ⟨depth - 1, by omega⟩
    obtain ⟨m, hm⟩ := h.exists_at
    have hlength : (Node.map ms).events.length = (memberEvents ms).length + 1 + 1 := by simp [Node.events]
    obtain ⟨fuel, rfl⟩ : ∃ n, fuel = n + 1 := ⟨fuel - 1, by omega⟩
    have hmembers : s.members fuel depth path true [] (pos + 1) jumps = .ok (.obj xs, _, jumps) :=
      members_of_means hms (by omega) (by omega) hsorted h.tail
    have hend : pos + 1 + (memberEvents ms).length + 1 = pos + (Node.map ms).events.length := by omega
    rw [hend] at hmembers
    simp [value, hm, hmembers, EventKind.node, isLocal, bind, Except.bind]

theorem items_of_means {d : Nat} {vs : List Node} {xs : List Value} : MeansItems d vs xs →
    ∀ {fuel depth pos jumps index : Nat} {path : List PathStep} {done : List Value}, d ≤ depth →
    (itemEvents vs).length < fuel → s.Holds pos (itemEvents vs ++ [.sequenceEnd]) →
    s.items fuel depth path done index pos jumps =
      .ok (.arr (done.reverse ++ xs), pos + (itemEvents vs).length + 1, jumps)
  | .nil, fuel, depth, pos, jumps, index, path, done, _, hfuel, h => by
    obtain ⟨fuel, rfl⟩ := Nat.exists_eq_add_of_le' hfuel
    obtain ⟨m, hm⟩ := h.exists_at
    simp [items, hm, itemEvents, EventKind.node, bind, Except.bind, pure, Except.pure]
  | @MeansItems.cons d v vs x xs hv hvs, fuel, depth, pos, jumps, index, path, done, hdepth, hfuel, h => by
    have hlength : (itemEvents (v :: vs)).length = v.events.length + (itemEvents vs).length := by
      simp [itemEvents]
    have hpos := v.events_pos
    obtain ⟨fuel, rfl⟩ : ∃ n, fuel = n + 1 := ⟨fuel - 1, by omega⟩
    have h : s.Holds pos (v.events ++ (itemEvents vs ++ [.sequenceEnd])) := by simpa [itemEvents] using h
    have hvalue : s.value fuel depth (.item index :: path) pos jumps = .ok (x, _, jumps) :=
      value_of_means hv hdepth (by omega) h.left
    rw [items_of_value h hvalue, items_of_means hvs hdepth (by omega) h.right, hlength]
    simp [Nat.add_assoc]

theorem members_of_means {d : Nat} {ms : List (Key × Node)} {xs : List (String × Value)} :
    MeansMembers d ms xs → ∀ {fuel depth pos jumps : Nat} {path : List PathStep} {first : Bool}
    {done : List (String × Value)}, d ≤ depth →
    (memberEvents ms).length < fuel → SortedKeys (done ++ xs) →
    s.Holds pos (memberEvents ms ++ [.mappingEnd]) →
    s.members fuel depth path first done pos jumps =
      .ok (.obj (done ++ xs), pos + (memberEvents ms).length + 1, jumps)
  | .nil, fuel, depth, pos, jumps, path, first, done, _, hfuel, _, h => by
    obtain ⟨fuel, rfl⟩ := Nat.exists_eq_add_of_le' hfuel
    obtain ⟨m, hm⟩ := h.exists_at
    simp [members, hm, memberEvents, EventKind.node, bind, Except.bind, pure, Except.pure]
  | @MeansMembers.cons d k v ms x xs hv hms, fuel, depth, pos, jumps, path, first, done, hdepth, hfuel,
      hsorted, h => by
    have hlength : (memberEvents ((k, v) :: ms)).length =
        v.events.length + (memberEvents ms).length + 1 := by
      simp [memberEvents]
    obtain ⟨fuel, rfl⟩ : ∃ n, fuel = n + 1 := ⟨fuel - 1, by omega⟩
    have h : s.Holds pos (.scalar ⟨none, none⟩ k.text.toList k.style ::
        (v.events ++ (memberEvents ms ++ [.mappingEnd]))) := by
      simpa [memberEvents] using h
    have hvalue : s.value fuel depth (s.keyStep pos :: path) (pos + 1) jumps = .ok (x, _, jumps) :=
      value_of_means hv hdepth (by omega) h.tail.left
    -- The keys come in order, so this one goes behind all that were read.
    have hlast : Json.Members.insert k.text x done = done ++ [(k.text, x)] :=
      Json.insert_of_forall_lt fun m hm => (List.pairwise_append.mp hsorted).2.2 m hm _ List.mem_cons_self
    rw [members_of_value h hvalue, hlast,
      members_of_means hms hdepth (by omega) (by simpa using hsorted) h.tail.right, hlength]
    simp [Nat.add_assoc, Nat.add_comm 1]

end

end Source

/-! ## §4 Whole texts -/

/-- A text whose tokens are those of a node is read to what the node means. -/
theorem parseChars_of_supplies {text : List Char} {v : Node} {x : Value} {d : Nat}
    (hallowed : forbiddenAt? 0 text = none)
    (hsupplies : (Scanner.ofText text).Supplies (v.tokens false ++ [.streamEnd]))
    (hlength : v.events.length ≤ 6 * text.length + 12) (hmeans : Means d v x) (hd : d ≤ Source.maxDepth) :
    parseChars text = .ok x := by
  -- The tokens give the events, the events the nodes of a document, and these the value.
  have hsupplies : (Reader.ofText text).scanner.Supplies (v.tokens false ++ [.streamEnd]) := hsupplies
  obtain ⟨r, hemits⟩ := Reader.emits_of_supplies rfl hsupplies
  have hinner : EventKind.streamEnd ∉ EventKind.documentStart :: (v.events ++ [.documentEnd]) := by
    have hnode : EventKind.streamEnd ∉ v.events := fun h => v.nameless _ h
    simp [hnode]
  have hfuel :
      (EventKind.documentStart :: (v.events ++ [.documentEnd])).length < 6 * text.length + 16 := by
    simp
    omega
  obtain ⟨es, hes, hevents⟩ := Reader.eventsFrom_of_emits [] (by simpa using hemits) hinner hfuel
  have hes : es.map (·.kind) = .documentStart :: (v.events ++ [.documentEnd, .streamEnd]) := by
    simpa using hes
  obtain ⟨ns, hns, hcollect⟩ := collect_document hes
  have hread : events text = (es, none) := by simpa [events, hallowed] using hevents
  have hholds (f : Refusal) : Source.Holds ⟨ns, [], f⟩ 0 v.events := Source.holds_of_map hns
  have hfuel (f : Refusal) : v.events.length ≤ Source.enough ⟨ns, [], f⟩ := by
    have hsize : ns.size = v.events.length := by simpa using congrArg List.length hns
    simp only [Source.enough, hsize, Nat.add_mul]
    omega
  have hvalue (f : Refusal) : Source.value ⟨ns, [], f⟩ (Source.enough ⟨ns, [], f⟩) Source.maxDepth [] 0 0 =
      .ok (x, _, 0) := Source.value_of_means hmeans hd (hfuel f) (hholds f)
  simp [parseChars, hread, hcollect, hvalue, bind, Except.bind, pure, Except.pure]

end QueryPlayground.Yaml
