import Mathlib.Data.Finset.Card
import Scriptorium.CallGraph
import Scriptorium.Proofs.Text.Table

/-! # Graphs as they are built

A graph answers from what was put into it. Its nodes are the names that were mentioned and its edges
those that were added; the neighbours of a name are the other ends of its edges, so that two names
agree on which of them calls the other.
-/

namespace Scriptorium.CallGraph

/-- What is put into a graph: a name, or an edge with the names at its ends. -/
inductive Entry where
  | node (name : String)
  | edge (e : Edge)
  deriving DecidableEq

def Entry.names : Entry → List String
  | .node name => [name]
  | .edge e => [e.source, e.target]

def Entry.edge? : Entry → Option Edge
  | .node _ => none
  | .edge e => some e

def put (g : CallGraph) : Entry → CallGraph
  | .node name => g.addNode name
  | .edge e => g.addEdge e

def build (entries : List Entry) : CallGraph := entries.foldl put {}

def mentioned (entries : List Entry) : List String := entries.flatMap Entry.names

def edgesOf (entries : List Entry) : List Edge := entries.filterMap Entry.edge?

variable {g : CallGraph} {entries : List Entry} {x y : String}

theorem mentioned_concat (entries : List Entry) (entry : Entry) :
    mentioned (entries ++ [entry]) = mentioned entries ++ entry.names := by
  simp [mentioned]

theorem edgesOf_concat (entries : List Entry) (entry : Entry) :
    edgesOf (entries ++ [entry]) = edgesOf entries ++ entry.edge?.toList := by
  rw [edgesOf, List.filterMap_append, ← edgesOf]
  cases entry <;> rfl

theorem ends_mentioned {e : Edge} (h : e ∈ edgesOf entries) :
    e.source ∈ mentioned entries ∧ e.target ∈ mentioned entries := by
  obtain ⟨entry, hentry, hedge⟩ := List.mem_filterMap.mp h
  cases entry with
  | node name => cases hedge
  | edge f =>
      obtain rfl := Option.some.inj hedge
      exact ⟨List.mem_flatMap.mpr ⟨.edge f, hentry, List.mem_cons_self⟩,
        List.mem_flatMap.mpr ⟨.edge f, hentry, List.mem_cons_of_mem _ List.mem_cons_self⟩⟩

/-! ## What a graph holds -/

/-- The nodes of a graph are the names in some entries, each once, and its edges are theirs. -/
structure Holds (g : CallGraph) (entries : List Entry) : Prop where
  nodup : g.nodes.Nodup
  mem_nodes : ∀ x, x ∈ g.nodes ↔ x ∈ mentioned entries
  edges : g.edges = edgesOf entries

theorem mem_addNode (g : CallGraph) (name x : String) :
    x ∈ (g.addNode name).nodes ↔ x ∈ g.nodes ∨ x = name := by
  unfold addNode
  split
  · rename_i hknown
    exact (or_iff_left_of_imp fun h => h ▸ hknown).symm
  · simp

theorem nodup_addNode (h : g.nodes.Nodup) (name : String) : (g.addNode name).nodes.Nodup := by
  unfold addNode
  split
  · exact h
  · rename_i hnew
    simpa [List.nodup_append, h] using fun x hx => ne_of_mem_of_not_mem hx hnew

theorem edges_addNode (g : CallGraph) (name : String) : (g.addNode name).edges = g.edges := by
  unfold addNode
  split <;> rfl

theorem Holds.put (h : g.Holds entries) (entry : Entry) :
    (g.put entry).Holds (entries ++ [entry]) := by
  cases entry with
  | node name =>
      refine ⟨nodup_addNode h.nodup name, fun x => ?_, ?_⟩
      · rw [CallGraph.put, mem_addNode, h.mem_nodes, mentioned_concat]
        simp [Entry.names]
      · rw [CallGraph.put, edges_addNode, h.edges, edgesOf_concat]
        exact (List.append_nil _).symm
  | edge e =>
      refine ⟨nodup_addNode (nodup_addNode h.nodup e.source) e.target, fun x => ?_, ?_⟩
      · change x ∈ ((g.addNode e.source).addNode e.target).nodes ↔ _
        rw [mem_addNode, mem_addNode, h.mem_nodes, mentioned_concat]
        simp [Entry.names, or_assoc]
      · change ((g.addNode e.source).addNode e.target).edges ++ [e] = _
        rw [edges_addNode, edges_addNode, h.edges, edgesOf_concat]
        rfl

theorem holds_build (entries : List Entry) : (build entries).Holds entries := by
  induction entries using List.reverseRecOn with
  | nil => exact ⟨List.nodup_nil, fun _ => Iff.rfl, rfl⟩
  | append_singleton entries entry ih =>
      rw [build, List.foldl_append]
      exact ih.put entry

theorem Holds.length_nodes (h : g.Holds entries) :
    g.nodes.length = (mentioned entries).toFinset.card := by
  rw [← List.toFinset_card_of_nodup h.nodup]
  congr 1
  ext x
  rw [List.mem_toFinset, List.mem_toFinset, h.mem_nodes]

/-! ## Neighbours -/

theorem mem_ends {edges : List Edge} (near far : Edge → String) :
    y ∈ Text.sortedNames ((edges.filter fun e => near e = x ∧ far e ≠ x).map far) ↔
      y ≠ x ∧ ∃ e ∈ edges, near e = x ∧ far e = y := by
  simp only [Text.mem_sortedNames, List.mem_map, List.mem_filter, decide_eq_true_eq]
  constructor
  · rintro ⟨e, ⟨he, hnear, hfar⟩, rfl⟩
    exact ⟨hfar, e, he, hnear, rfl⟩
  · rintro ⟨hne, e, he, hnear, rfl⟩
    exact ⟨e, ⟨he, hnear, hne⟩, rfl⟩

theorem mem_callees :
    y ∈ (g.neighbors x).callees ↔ y ≠ x ∧ ∃ e ∈ g.edges, e.source = x ∧ e.target = y :=
  mem_ends Edge.source Edge.target

theorem mem_callers :
    y ∈ (g.neighbors x).callers ↔ y ≠ x ∧ ∃ e ∈ g.edges, e.target = x ∧ e.source = y :=
  mem_ends Edge.target Edge.source

theorem mem_callees_comm : y ∈ (g.neighbors x).callees ↔ x ∈ (g.neighbors y).callers := by
  rw [mem_callees, mem_callers, ne_comm]
  simp only [and_comm]

/-- A name that is no node of a graph whose edges lie between nodes has no neighbours. -/
theorem neighbors_of_not_mem (hends : ∀ e ∈ g.edges, e.source ∈ g.nodes ∧ e.target ∈ g.nodes)
    (hx : x ∉ g.nodes) : g.neighbors x = {} := by
  have hcallees : (g.neighbors x).callees = [] := by
    refine List.eq_nil_iff_forall_not_mem.mpr fun y hy => ?_
    obtain ⟨-, e, he, hsource, -⟩ := mem_callees.mp hy
    exact hx (hsource ▸ (hends e he).1)
  have hcallers : (g.neighbors x).callers = [] := by
    refine List.eq_nil_iff_forall_not_mem.mpr fun y hy => ?_
    obtain ⟨-, e, he, htarget, -⟩ := mem_callers.mp hy
    exact hx (htarget ▸ (hends e he).2)
  exact congrArg₂ Neighbors.mk hcallers hcallees

theorem Holds.ends_mem (h : g.Holds entries) :
    ∀ e ∈ g.edges, e.source ∈ g.nodes ∧ e.target ∈ g.nodes := by
  intro e he
  rw [h.mem_nodes, h.mem_nodes]
  exact ends_mentioned (h.edges ▸ he)

/-- What a graph answers from some entries: how many distinct names and how many edges there are,
which names it knows, and for each name its neighbours in order, without the name itself. -/
structure Answers (entries : List Entry) (nodeCount edgeCount : Nat) (contains : String → Bool)
    (neighbors : String → Neighbors) : Prop where
  nodes : nodeCount = (mentioned entries).toFinset.card
  edges : edgeCount = (edgesOf entries).length
  known : ∀ x, contains x = true ↔ x ∈ mentioned entries
  callees_inOrder : ∀ x, (neighbors x).callees.Pairwise (· < ·)
  callers_inOrder : ∀ x, (neighbors x).callers.Pairwise (· < ·)
  callees : ∀ x y, y ∈ (neighbors x).callees ↔
    y ≠ x ∧ ∃ e ∈ edgesOf entries, e.source = x ∧ e.target = y
  callers : ∀ x y, y ∈ (neighbors x).callers ↔
    y ≠ x ∧ ∃ e ∈ edgesOf entries, e.target = x ∧ e.source = y
  callees_comm : ∀ x y, y ∈ (neighbors x).callees ↔ x ∈ (neighbors y).callers
  unknown : ∀ x, x ∉ mentioned entries → neighbors x = {}

theorem Holds.answers (h : g.Holds entries) :
    Answers entries g.nodes.length g.edges.length g.contains g.neighbors where
  nodes := h.length_nodes
  edges := by rw [h.edges]
  known x := by rw [contains, List.contains_iff_mem, h.mem_nodes]
  callees_inOrder _ := Text.pairwise_sortedNames _
  callers_inOrder _ := Text.pairwise_sortedNames _
  callees x y := by rw [mem_callees, h.edges]
  callers x y := by rw [mem_callers, h.edges]
  callees_comm _ _ := mem_callees_comm
  unknown x hx := neighbors_of_not_mem h.ends_mem (mt (h.mem_nodes x).mp hx)

end Scriptorium.CallGraph
