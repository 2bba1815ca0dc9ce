import Scriptorium.Proofs.CallGraph
import Scriptorium.Proofs.Json.Record

/-! # Node-link documents

An accepted document is a list of entries: its nodes by the printed forms of their identifiers, and
behind them its links by those of their ends. The graph that is read is the one that these entries
build, whether its links mention known names or not.
-/

namespace Scriptorium.CallGraph

open Json

def kindOf : Option Json → String
  | some (.str kind) => kind
  | _ => "calls"

inductive IsNode : Json → Entry → Prop where
  | named {v id : Json} (h : fieldValues [["id"]] v = [some id]) : IsNode v (.node (nameOf id))

inductive IsLink : Json → Entry → Prop where
  | between {v source target : Json} {kind : Option Json}
      (h : fieldValues [["source"], ["target"], ["type", "kind", "relation"]] v =
        [some source, some target, kind]) :
      IsLink v (.edge ⟨nameOf source, nameOf target, kindOf kind⟩)

/-- The entries of a document, its nodes before its links. -/
inductive IsDocument : Json → List Entry → Prop where
  | parts {ms : List (String × Json)} {nodes links : Option Json} {before after : List Entry}
      (hfields : fieldValues [["nodes"], ["links", "edges"]] (.obj ms) = [nodes, links])
      (hnodes : List.Forall₂ IsNode (itemsOf nodes) before)
      (hlinks : List.Forall₂ IsLink (itemsOf links) after) :
      IsDocument (.obj ms) (before ++ after)

theorem isNode_of_node? {v : Json} {name : String} (h : node? v = some name) :
    IsNode v (.node name) := by
  unfold node? at h
  split at h
  · rename_i slot hslots
    obtain ⟨id, hid, rfl⟩ := Option.map_eq_some_iff.mp h
    have hvalues := values_of_slots (List.pairwise_singleton _ _) hslots
    refine .named ?_
    rw [← hvalues, List.map_cons, value?_of_required hid, List.map_nil]
  · cases h

theorem kindOf_of_optionalDefault {slot : Slot} {kind : Option String}
    (h : slot.optionalDefault asString? = some kind) : kindOf slot.value? = kind.getD "calls" := by
  cases slot with
  | given v =>
      cases v with
      | null | str =>
          obtain rfl := Option.some.inj h
          rfl
      | bool | num | arr | obj => cases h
  | absent | cutOff =>
      obtain rfl := Option.some.inj h
      rfl

theorem isLink_of_link? {v : Json} {e : Edge} (h : link? v = some e) : IsLink v (.edge e) := by
  unfold link? at h
  split at h
  · rename_i source target kind hslots
    obtain ⟨s, hs, h⟩ := Option.bind_eq_some_iff.mp h
    obtain ⟨t, ht, h⟩ := Option.bind_eq_some_iff.mp h
    obtain ⟨k, hk, h⟩ := Option.bind_eq_some_iff.mp h
    obtain rfl := Option.some.inj h
    have hvalues := values_of_slots (by simp [List.Disjoint]) hslots
    rw [← kindOf_of_optionalDefault hk]
    refine .between ?_
    rw [← hvalues, List.map_cons, List.map_cons, value?_of_required hs, value?_of_required ht]
    rfl
  · cases h

theorem build_append (names : List String) (edges : List Edge) :
    build (names.map .node ++ edges.map .edge) = edges.foldl addEdge (names.foldl addNode {}) := by
  rw [build, List.foldl_append, List.foldl_map, List.foldl_map]
  rfl

/-- A graph that is read from a value is built from the entries of a document. -/
theorem isDocument_of_ofJson {v : Json} {g : CallGraph} (h : ofJson v = .ok g) :
    ∃ entries, IsDocument v entries ∧ g = build entries := by
  cases v with
  | obj ms =>
      simp only [ofJson] at h
      split at h
      · rename_i nodes links hslots
        split at h
        · rename_i names edges hnames hedges
          obtain rfl := Except.ok.inj h
          have hvalues := values_of_slots (by simp [List.Disjoint]) hslots
          have hnodes : List.Forall₂ IsNode (itemsOf nodes.value?) (names.map .node) :=
            List.forall₂_map_right_iff.mpr
              ((forall₂_of_withDefault hnames).imp fun _ _ => isNode_of_node?)
          have hlinks : List.Forall₂ IsLink (itemsOf links.value?) (edges.map .edge) :=
            List.forall₂_map_right_iff.mpr
              ((forall₂_of_withDefault hedges).imp fun _ _ => isLink_of_link?)
          exact ⟨_, .parts hvalues.symm hnodes hlinks, (build_append names edges).symm⟩
        · cases h
      · cases h
  | null | bool | num | str | arr => cases h

/-- An accepted text is a document, whose entries build the graph. -/
theorem isDocument_of_ofText {text : String} {g : CallGraph} (h : ofText text = .ok g) :
    ∃ v entries, parse? text = some v ∧ IsDocument v.canonical entries ∧ g = build entries := by
  unfold ofText at h
  cases hparse : parse? text with
  | none =>
      rw [hparse] at h
      cases h
  | some v =>
      rw [hparse] at h
      obtain ⟨entries, hdocument, hbuild⟩ := isDocument_of_ofJson h
      exact ⟨v, entries, rfl, hdocument, hbuild⟩

end Scriptorium.CallGraph
