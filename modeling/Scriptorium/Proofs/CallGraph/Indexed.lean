import Std.Data.HashMap.Lemmas
import Scriptorium.Proofs.CallGraph.NodeLink

/-! # Graphs with an index of names

A graph may be kept by a library of directed graphs that knows nodes by numbers, beside an index of
the numbers of names. Each entry keeps library and index in step. While they are, every number that
is looked up stands for a name, and the answers are those of the graph of names.
-/

namespace Scriptorium

/-- A library of directed graphs. Nodes carry names and are known by numbers; nothing is given for
an edge between numbers that stand for no node, and no name for such a number. -/
class NumberedGraph (G : Type) where
  empty : G
  addNode : G → String → G × Nat
  addEdge : G → Nat → Nat → String → Option G
  nodeCount : G → Nat
  edgeCount : G → Nat
  name? : G → Nat → Option String
  targets : G → Nat → List Nat
  sources : G → Nat → List Nat

namespace NumberedGraph

variable {G : Type} [NumberedGraph G]

structure NodeAdded (g g' : G) (name : String) : Prop where
  nodeCount : nodeCount g' = nodeCount g + 1
  edgeCount : edgeCount g' = edgeCount g
  name? : ∀ i, name? g' i = if i = NumberedGraph.nodeCount g then some name else name? g i
  targets : ∀ i j, j ∈ targets g' i ↔ j ∈ targets g i
  sources : ∀ i j, j ∈ sources g' i ↔ j ∈ sources g i

structure EdgeAdded (g g' : G) (s t : Nat) : Prop where
  nodeCount : nodeCount g' = nodeCount g
  edgeCount : edgeCount g' = edgeCount g + 1
  name? : ∀ i, name? g' i = name? g i
  targets : ∀ i j, j ∈ targets g' i ↔ j ∈ targets g i ∨ i = s ∧ j = t
  sources : ∀ i j, j ∈ sources g' i ↔ j ∈ sources g i ∨ i = t ∧ j = s

end NumberedGraph

open NumberedGraph

/-- A library that numbers nodes as they come, stores each edge between them and tells both ends of
each edge from the other. -/
class LawfulNumberedGraph (G : Type) [NumberedGraph G] : Prop where
  nodeCount_empty : nodeCount (empty : G) = 0
  edgeCount_empty : edgeCount (empty : G) = 0
  name?_empty : ∀ i, name? (empty : G) i = none
  targets_empty : ∀ i, targets (empty : G) i = []
  sources_empty : ∀ i, sources (empty : G) i = []
  addNode : ∀ (g : G) name, NodeAdded g (addNode g name).1 name ∧ (addNode g name).2 = nodeCount g
  addEdge : ∀ (g : G) s t kind, s < nodeCount g → t < nodeCount g →
    ∃ g', addEdge g s t kind = some g' ∧ EdgeAdded g g' s t

structure Indexed (G : Type) where
  graph : G
  index : Std.HashMap String Nat

namespace Indexed

variable {G : Type} [NumberedGraph G]

def addNode (x : Indexed G) (name : String) : Indexed G × Nat :=
  match x.index[name]? with
  | some i => (x, i)
  | none =>
    let added := NumberedGraph.addNode x.graph name
    (⟨added.1, x.index.insert name added.2⟩, added.2)

def addEdge (x : Indexed G) (e : Edge) : Option (Indexed G) :=
  let source := x.addNode e.source
  let target := source.1.addNode e.target
  (NumberedGraph.addEdge target.1.graph source.2 target.2 e.kind).map fun g =>
    ⟨g, target.1.index⟩

def put (x : Indexed G) : CallGraph.Entry → Option (Indexed G)
  | .node name => some (x.addNode name).1
  | .edge e => x.addEdge e

def build (entries : List CallGraph.Entry) : Option (Indexed G) :=
  entries.foldlM put ⟨empty, ∅⟩

def contains (x : Indexed G) (name : String) : Bool := x.index.contains name

def collect (x : Indexed G) (self : Nat) (numbers : List Nat) : Option (List String) :=
  ((numbers.filter (· ≠ self)).mapM (name? x.graph)).map Text.sortedNames

def neighbors (x : Indexed G) (name : String) : Option Neighbors :=
  match x.index[name]? with
  | some i => do
    let callers ← x.collect i (sources x.graph i)
    let callees ← x.collect i (targets x.graph i)
    some ⟨callers, callees⟩
  | none => some {}

end Indexed

/-! ## Numbers of names -/

namespace CallGraph

variable {g : CallGraph} {name x : String} {i : Nat}

theorem getElem?_concat (names : List String) (name : String) (i : Nat) :
    (names ++ [name])[i]? = if i = names.length then some name else names[i]? := by
  rcases Nat.lt_trichotomy i names.length with hlt | rfl | hgt
  · rw [if_neg (Nat.ne_of_lt hlt), List.getElem?_append_left hlt]
  · simp
  · rw [if_neg (Nat.ne_of_gt hgt), List.getElem?_eq_none (Nat.le_of_lt hgt)]
    exact List.getElem?_eq_none (by simpa using Nat.succ_le_of_lt hgt)

theorem addNode_of_mem (h : name ∈ g.nodes) : g.addNode name = g := if_pos h

theorem addNode_of_not_mem (h : name ∉ g.nodes) :
    g.addNode name = ⟨g.nodes ++ [name], g.edges⟩ := if_neg h

theorem nodeIndex?_eq_none_iff : g.nodeIndex? name = none ↔ name ∉ g.nodes :=
  List.idxOf?_eq_none_iff

theorem exists_nodeIndex?_iff : (∃ i, g.nodeIndex? name = some i) ↔ name ∈ g.nodes := by
  rw [← Option.ne_none_iff_exists', ne_eq, nodeIndex?_eq_none_iff, not_not]

theorem mem_of_nodeIndex? (h : g.nodeIndex? name = some i) : name ∈ g.nodes :=
  exists_nodeIndex?_iff.mp ⟨i, h⟩

theorem getElem?_of_nodeIndex? (h : g.nodeIndex? name = some i) : g.nodes[i]? = some name := by
  obtain ⟨hlt, hname, -⟩ := List.idxOf?_eq_some_iff.mp h
  rw [List.getElem?_eq_getElem hlt, hname]

theorem lt_of_nodeIndex? (h : g.nodeIndex? name = some i) : i < g.nodes.length :=
  (List.idxOf?_eq_some_iff.mp h).choose

theorem nodeIndex?_inj (hname : g.nodeIndex? name = some i) (hx : g.nodeIndex? x = some i) :
    name = x := by
  have hsame := (getElem?_of_nodeIndex? hname).symm.trans (getElem?_of_nodeIndex? hx)
  exact Option.some.inj hsame

theorem nodeIndex?_addNode_self (h : name ∉ g.nodes) :
    (g.addNode name).nodeIndex? name = some g.nodes.length := by
  have hnone : g.nodes.findIdx? (· == name) = none := nodeIndex?_eq_none_iff.mpr h
  rw [addNode_of_not_mem h, nodeIndex?, List.idxOf?, List.findIdx?_append, hnone]
  simp

theorem nodeIndex?_addNode_of_ne (h : x ≠ name) :
    (g.addNode name).nodeIndex? x = g.nodeIndex? x := by
  by_cases hname : name ∈ g.nodes
  · rw [addNode_of_mem hname]
  · have hlast : [name].findIdx? (· == x) = none := by simp [Ne.symm h]
    rw [addNode_of_not_mem hname, nodeIndex?, List.idxOf?, List.findIdx?_append, hlast]
    exact Option.or_none

theorem nodeIndex?_addNode_of_mem (h : x ∈ g.nodes) :
    (g.addNode name).nodeIndex? x = g.nodeIndex? x := by
  by_cases hname : name ∈ g.nodes
  · rw [addNode_of_mem hname]
  · exact nodeIndex?_addNode_of_ne (ne_of_mem_of_not_mem h hname)

def Linked (g : CallGraph) (near far : Edge → String) (i j : Nat) : Prop :=
  ∃ e ∈ g.edges, g.nodeIndex? (near e) = some i ∧ g.nodeIndex? (far e) = some j

theorem linked_addNode {near far : Edge → String} {j : Nat}
    (h : ∀ e ∈ g.edges, near e ∈ g.nodes ∧ far e ∈ g.nodes) :
    (g.addNode name).Linked near far i j ↔ g.Linked near far i j := by
  unfold Linked
  rw [edges_addNode]
  refine exists_congr fun e => and_congr_right fun he => ?_
  rw [nodeIndex?_addNode_of_mem (h e he).1, nodeIndex?_addNode_of_mem (h e he).2]

theorem linked_addEdge {near far : Edge → String} {j : Nat} (g : CallGraph) (e : Edge) :
    (g.addEdge e).Linked near far i j ↔
      ((g.addNode e.source).addNode e.target).Linked near far i j ∨
        ((g.addNode e.source).addNode e.target).nodeIndex? (near e) = some i ∧
          ((g.addNode e.source).addNode e.target).nodeIndex? (far e) = some j := by
  have hnumber (name : String) : (g.addEdge e).nodeIndex? name =
      ((g.addNode e.source).addNode e.target).nodeIndex? name := rfl
  have hedges : (g.addEdge e).edges = ((g.addNode e.source).addNode e.target).edges ++ [e] := rfl
  simp only [Linked, hnumber, hedges, List.mem_append, List.mem_singleton, or_and_right, exists_or,
    exists_eq_left]

end CallGraph

/-! ## Index and library in step -/

namespace Indexed

variable {G : Type} [NumberedGraph G] {x : Indexed G} {g : CallGraph} {name : String}

/-- A graph with an index is in step with a graph of names: the index gives the numbers of names in
the order of the nodes, and the library has the names and the edges between the numbers. -/
structure InStep (x : Indexed G) (g : CallGraph) : Prop where
  nodeCount : nodeCount x.graph = g.nodes.length
  edgeCount : edgeCount x.graph = g.edges.length
  index : ∀ name, x.index[name]? = g.nodeIndex? name
  name? : ∀ i, name? x.graph i = g.nodes[i]?
  ends : ∀ e ∈ g.edges, e.source ∈ g.nodes ∧ e.target ∈ g.nodes
  targets : ∀ i j, j ∈ targets x.graph i ↔ g.Linked Edge.source Edge.target i j
  sources : ∀ i j, j ∈ sources x.graph i ↔ g.Linked Edge.target Edge.source i j

theorem addNode_of_known {i : Nat} (h : x.index[name]? = some i) : x.addNode name = (x, i) := by
  rw [addNode, h]

theorem addNode_of_new (h : x.index[name]? = none) :
    x.addNode name = (⟨(NumberedGraph.addNode x.graph name).1,
      x.index.insert name (NumberedGraph.addNode x.graph name).2⟩,
      (NumberedGraph.addNode x.graph name).2) := by
  rw [addNode, h]

/-- What is collected for a name: the far ends of the edges that have it at the near one. -/
theorem InStep.collect (h : InStep x g) {near far : Edge → String} {i : Nat} {numbers : List Nat}
    (hname : g.nodeIndex? name = some i) (hends : ∀ e ∈ g.edges, far e ∈ g.nodes)
    (hnumbers : ∀ j, j ∈ numbers ↔ g.Linked near far i j) :
    x.collect i numbers =
      some (Text.sortedNames ((g.edges.filter fun e => near e = name ∧ far e ≠ name).map far)) := by
  have hnamed (j : Nat) (hj : j ∈ numbers.filter (· ≠ i)) :
      ∃ t, NumberedGraph.name? x.graph j = some t := by
    obtain ⟨e, -, -, hfar⟩ := (hnumbers j).mp (List.mem_filter.mp hj).1
    exact ⟨far e, (h.name? j).trans (CallGraph.getElem?_of_nodeIndex? hfar)⟩
  rw [Indexed.collect, mapM_eq_some_filterMap hnamed, Option.map_some]
  refine congrArg some (Text.sortedNames_congr fun t => ?_)
  simp only [List.mem_filterMap, List.mem_filter, hnumbers, h.name?, List.mem_map, decide_eq_true_eq]
  constructor
  · rintro ⟨j, ⟨⟨e, he, hnear, hfar⟩, hne⟩, ht⟩
    have hnamed := CallGraph.getElem?_of_nodeIndex? hfar
    obtain rfl : far e = t := Option.some.inj (hnamed.symm.trans ht)
    refine ⟨e, ⟨he, CallGraph.nodeIndex?_inj hnear hname, fun hself => hne ?_⟩, rfl⟩
    rw [hself, hname] at hfar
    exact (Option.some.inj hfar).symm
  · rintro ⟨e, ⟨he, rfl, hne⟩, rfl⟩
    obtain ⟨j, hj⟩ := CallGraph.exists_nodeIndex?_iff.mpr (hends e he)
    refine ⟨j, ⟨⟨e, he, hname, hj⟩, ?_⟩, CallGraph.getElem?_of_nodeIndex? hj⟩
    rintro rfl
    exact hne (CallGraph.nodeIndex?_inj hj hname)

theorem InStep.neighbors (h : InStep x g) (name : String) :
    x.neighbors name = some (g.neighbors name) := by
  unfold Indexed.neighbors
  rw [h.index]
  cases hname : g.nodeIndex? name with
  | none =>
      have hnew := CallGraph.nodeIndex?_eq_none_iff.mp hname
      rw [CallGraph.neighbors_of_not_mem h.ends hnew]
  | some i =>
      have hcallers := h.collect hname (fun e he => (h.ends e he).1) (h.sources i)
      have hcallees := h.collect hname (fun e he => (h.ends e he).2) (h.targets i)
      simp only [hcallers, hcallees]
      rfl

/-- Index and library answer what the graph of names answers. -/
theorem InStep.answers (h : InStep x g) {entries : List CallGraph.Entry}
    (hholds : g.Holds entries) :
    CallGraph.Answers entries (NumberedGraph.nodeCount x.graph)
      (NumberedGraph.edgeCount x.graph) x.contains g.neighbors := by
  have hcontains : x.contains = g.contains := by
    funext name
    rw [Bool.eq_iff_iff, contains, Std.HashMap.contains_eq_isSome_getElem?, h.index,
      Option.isSome_iff_exists, CallGraph.exists_nodeIndex?_iff, CallGraph.contains,
      List.contains_iff_mem]
  rw [h.nodeCount, h.edgeCount, hcontains]
  exact hholds.answers

/-! ## Steps -/

variable [LawfulNumberedGraph G]

theorem inStep_empty : InStep (⟨empty, ∅⟩ : Indexed G) {} where
  nodeCount := LawfulNumberedGraph.nodeCount_empty
  edgeCount := LawfulNumberedGraph.edgeCount_empty
  index name := Std.HashMap.getElem?_empty
  name? i := LawfulNumberedGraph.name?_empty i
  ends e he := absurd he List.not_mem_nil
  targets i j := by simp [LawfulNumberedGraph.targets_empty, CallGraph.Linked]
  sources i j := by simp [LawfulNumberedGraph.sources_empty, CallGraph.Linked]

/-- Adding a node keeps index and library in step, and gives the number of the name. -/
theorem InStep.addNode (h : InStep x g) (name : String) :
    InStep (x.addNode name).1 (g.addNode name) ∧
      (g.addNode name).nodeIndex? name = some (x.addNode name).2 := by
  cases hindex : x.index[name]? with
  | some i =>
      have hnumber : g.nodeIndex? name = some i := by rw [← h.index, hindex]
      rw [addNode_of_known hindex, CallGraph.addNode_of_mem (CallGraph.mem_of_nodeIndex? hnumber)]
      exact ⟨h, hnumber⟩
  | none =>
      have hnew : name ∉ g.nodes := by
        rw [← CallGraph.nodeIndex?_eq_none_iff, ← h.index, hindex]
      obtain ⟨hadded, hnumber⟩ := LawfulNumberedGraph.addNode x.graph name
      rw [h.nodeCount] at hnumber
      rw [addNode_of_new hindex, CallGraph.nodeIndex?_addNode_self hnew, hnumber]
      refine ⟨?_, rfl⟩
      constructor
      case nodeCount =>
        rw [hadded.nodeCount, h.nodeCount, CallGraph.addNode_of_not_mem hnew]
        simp
      case edgeCount => rw [hadded.edgeCount, h.edgeCount, CallGraph.edges_addNode]
      case index =>
        intro y
        rw [Std.HashMap.getElem?_insert, h.index]
        by_cases hy : name = y
        · rw [← hy, CallGraph.nodeIndex?_addNode_self hnew]
          simp
        · rw [CallGraph.nodeIndex?_addNode_of_ne (Ne.symm hy)]
          simp [hy]
      case name? =>
        intro i
        rw [hadded.name?, h.nodeCount, h.name?, CallGraph.addNode_of_not_mem hnew]
        exact (CallGraph.getElem?_concat g.nodes name i).symm
      case ends =>
        intro e he
        rw [CallGraph.edges_addNode] at he
        rw [CallGraph.mem_addNode, CallGraph.mem_addNode]
        exact (h.ends e he).imp .inl .inl
      case targets =>
        intro i j
        rw [hadded.targets, h.targets, CallGraph.linked_addNode h.ends]
      case sources =>
        intro i j
        rw [hadded.sources, h.sources, CallGraph.linked_addNode fun e he => (h.ends e he).symm]

/-- Adding an edge is possible, and keeps index and library in step. -/
theorem InStep.addEdge (h : InStep x g) (e : Edge) :
    ∃ x' : Indexed G, x.addEdge e = some x' ∧ InStep x' (g.addEdge e) := by
  obtain ⟨hfirst, hsource⟩ := h.addNode e.source
  obtain ⟨hboth, htarget⟩ := hfirst.addNode e.target
  rw [← CallGraph.nodeIndex?_addNode_of_mem (CallGraph.mem_of_nodeIndex? hsource)] at hsource
  obtain ⟨library, hadd, hadded⟩ := LawfulNumberedGraph.addEdge _ _ _ e.kind
    (hboth.nodeCount ▸ CallGraph.lt_of_nodeIndex? hsource)
    (hboth.nodeCount ▸ CallGraph.lt_of_nodeIndex? htarget)
  refine ⟨⟨library, _⟩, by rw [Indexed.addEdge, hadd, Option.map_some], ?_⟩
  constructor
  case nodeCount => exact hadded.nodeCount.trans hboth.nodeCount
  case edgeCount =>
    rw [hadded.edgeCount, hboth.edgeCount]
    simp [CallGraph.addEdge]
  case index => exact hboth.index
  case name? =>
    intro i
    exact (hadded.name? i).trans (hboth.name? i)
  case ends =>
    intro f hf
    rcases List.mem_append.mp hf with hf | hf
    · exact hboth.ends f hf
    · obtain rfl := List.mem_singleton.mp hf
      exact ⟨CallGraph.mem_of_nodeIndex? hsource, CallGraph.mem_of_nodeIndex? htarget⟩
  case targets =>
    intro i j
    rw [hadded.targets, hboth.targets, CallGraph.linked_addEdge, hsource, htarget]
    simp [eq_comm]
  case sources =>
    intro i j
    rw [hadded.sources, hboth.sources, CallGraph.linked_addEdge, hsource, htarget]
    simp [eq_comm]

theorem InStep.put (h : InStep x g) (entry : CallGraph.Entry) :
    ∃ x' : Indexed G, x.put entry = some x' ∧ InStep x' (g.put entry) := by
  cases entry with
  | node name => exact ⟨_, rfl, (h.addNode name).1⟩
  | edge e => exact h.addEdge e

theorem InStep.foldlM (h : InStep x g) (entries : List CallGraph.Entry) :
    ∃ x' : Indexed G, entries.foldlM Indexed.put x = some x' ∧
      InStep x' (entries.foldl CallGraph.put g) := by
  induction entries generalizing x g with
  | nil => exact ⟨x, rfl, h⟩
  | cons entry entries ih =>
      obtain ⟨x', hput, hstep⟩ := h.put entry
      obtain ⟨x'', hrest, hlast⟩ := ih hstep
      exact ⟨x'', by rw [List.foldlM_cons, hput]; exact hrest, hlast⟩

theorem exists_build (G : Type) [NumberedGraph G] [LawfulNumberedGraph G]
    (entries : List CallGraph.Entry) :
    ∃ x : Indexed G, build entries = some x ∧ InStep x (CallGraph.build entries) :=
  inStep_empty.foldlM entries

end Indexed

/-! ## Answers -/

/-- A graph answers from the entries that it was built from, also when a library keeps it behind an
index of names, and a graph that is read from a text was built from the entries of a document. -/
theorem CallGraph.answers_from_entries (G : Type) [NumberedGraph G] [LawfulNumberedGraph G] :
    (∀ entries, Answers entries (build entries).nodes.length (build entries).edges.length
        (build entries).contains (build entries).neighbors ∧
      ∃ x : Indexed G, Indexed.build entries = some x ∧
        (∀ name, x.neighbors name = some ((build entries).neighbors name)) ∧
        Answers entries (nodeCount x.graph) (edgeCount x.graph) x.contains
          (build entries).neighbors) ∧
    ∀ text g, ofText text = .ok g → ∃ v entries,
      Json.parse? text = some v ∧ IsDocument v.canonical entries ∧ g = build entries := by
  refine ⟨fun entries => ⟨(holds_build entries).answers, ?_⟩, fun _ _ => isDocument_of_ofText⟩
  obtain ⟨x, hbuild, hstep⟩ := Indexed.exists_build G entries
  exact ⟨x, hbuild, hstep.neighbors, hstep.answers (holds_build entries)⟩

/-- A library that keeps names and edges in lists, the newest edge first. -/
structure ListedGraph where
  names : List String
  edges : List (Nat × Nat × String)

instance : NumberedGraph ListedGraph where
  empty := ⟨[], []⟩
  addNode g name := (⟨g.names ++ [name], g.edges⟩, g.names.length)
  addEdge g s t kind :=
    if s < g.names.length ∧ t < g.names.length then some ⟨g.names, (s, t, kind) :: g.edges⟩
    else none
  nodeCount g := g.names.length
  edgeCount g := g.edges.length
  name? g i := g.names[i]?
  targets g i := (g.edges.filter (·.1 = i)).map (·.2.1)
  sources g i := (g.edges.filter (·.2.1 = i)).map (·.1)

instance : LawfulNumberedGraph ListedGraph where
  nodeCount_empty := rfl
  edgeCount_empty := rfl
  name?_empty _ := rfl
  targets_empty _ := rfl
  sources_empty _ := rfl
  addNode g name := by
    refine ⟨⟨List.length_append, rfl, fun i => ?_, fun _ _ => Iff.rfl, fun _ _ => Iff.rfl⟩, rfl⟩
    exact CallGraph.getElem?_concat g.names name i
  addEdge g s t kind hs ht := by
    refine ⟨_, if_pos ⟨hs, ht⟩, rfl, rfl, fun _ => rfl, fun i j => ?_, fun i j => ?_⟩
    · by_cases hi : s = i <;> simp [NumberedGraph.targets, hi, or_comm, eq_comm]
    · by_cases hi : t = i <;> simp [NumberedGraph.sources, hi, or_comm, eq_comm]

def CallGraph.smallText : String :=
  "\x7b\"nodes\": [\x7b\"id\": 1\x7d], \"edges\": [[\"1\", \"b\"], [\"b\", \"b\"], " ++
    "\x7b\"source\": \"a\", \"target\": 1, \"kind\": \"uses\"\x7d, [1, \"b\"], [1, 1]]\x7d"

theorem CallGraph.answers_from_entries_small :
    (∃ x : Indexed ListedGraph,
      Indexed.build [.node "b", .edge ⟨"a", "b", "calls"⟩, .edge ⟨"b", "b", "calls"⟩] = some x ∧
      nodeCount x.graph = 2 ∧ edgeCount x.graph = 2 ∧
      x.neighbors "b" = some ⟨["a"], []⟩ ∧ x.neighbors "c" = some {}) ∧
    ∃ g v entries, ofText smallText = .ok g ∧ Json.parse? smallText = some v ∧
      IsDocument v.canonical entries ∧ g = build entries ∧ g.neighbors "1" = ⟨["a"], ["b"]⟩ := by
  obtain ⟨hentries, htexts⟩ := answers_from_entries ListedGraph
  constructor
  · obtain ⟨-, x, hbuild, hneighbors, hanswers⟩ := hentries
      [.node "b", .edge ⟨"a", "b", "calls"⟩, .edge ⟨"b", "b", "calls"⟩]
    refine ⟨x, hbuild, hanswers.nodes, hanswers.edges, ?_, ?_⟩
    · rw [hneighbors]
      decide +kernel
    · rw [hneighbors, hanswers.unknown "c" (by decide)]
  · have hread : (ofText smallText).toOption =
        some ⟨["1", "b", "a"], [⟨"1", "b", "calls"⟩, ⟨"b", "b", "calls"⟩, ⟨"a", "1", "uses"⟩,
          ⟨"1", "b", "calls"⟩, ⟨"1", "1", "calls"⟩]⟩ := by decide +kernel
    cases htext : ofText smallText with
    | error e => simp [htext, Except.toOption] at hread
    | ok g =>
        rw [htext] at hread
        obtain rfl := Option.some.inj hread
        obtain ⟨v, entries, hparse, hdocument, hbuild⟩ := htexts _ _ htext
        exact ⟨_, v, entries, rfl, hparse, hdocument, hbuild, by decide +kernel⟩

end Scriptorium
