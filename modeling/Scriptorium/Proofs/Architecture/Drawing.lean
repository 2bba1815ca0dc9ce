import Scriptorium.Architecture.Diagram
import Scriptorium.Proofs.Architecture
import Scriptorium.Proofs.Architecture.NodeId
import Scriptorium.Proofs.Settings

/-! # What a drawing shows

A drawing declares the components layer by layer and then the ends of links that are no components,
and it has a line for every link. Identifiers are handed out on the way, but as each name keeps its
own, all lines are written with one assignment of identifiers, under which no two names are one node.
-/

namespace Scriptorium

namespace Architecture

namespace Model

variable {m : Model} {offers : List Extraction}

theorem Holds.names_eq (h : m.Holds offers) : m.components.map (·.name) = m.names := by
  rw [components, names, List.map_map]
  exact List.map_congr_left fun p hp => (h.table.2 p hp).1

/-- The components of a model are in the order of their names, each name once. -/
theorem Holds.increasing (h : m.Holds offers) :
    m.components.Pairwise fun r s => r.name < s.name := by
  rw [components, List.pairwise_map]
  refine h.table.1.imp_of_mem fun {p q} hp hq hlt => ?_
  rwa [(h.table.2 p hp).1, (h.table.2 q hq).1]

theorem Holds.nodup_names (h : m.Holds offers) : m.names.Nodup := by
  rw [← h.names_eq, List.nodup_iff_pairwise_ne, List.pairwise_map]
  exact h.increasing.imp fun hlt => ne_of_lt hlt

end Model

namespace Diagram

/-! ## Lines under an assignment of identifiers -/

def inLayer (m : Model) (l : Layer) : List Record := m.components.filter (·.layer = l)

def recordNode (id : String → String) (r : Record) : String := "        " ++ node (id r.name) r

def layerBlock (id : String → String) (m : Model) (l : Layer) : List String :=
  match inLayer m l with
  | [] => []
  | records =>
    ("    subgraph " ++ l.tag ++ "[" ++ label l.title ++ "]") ::
      (records.map (recordNode id) ++ ["    end"])

def plainNode (id : String → String) (name : String) : String :=
  "    " ++ id name ++ "[" ++ label name ++ "]"

def edge (id : String → String) (l : Link) : String :=
  "    " ++ id l.source ++ " " ++ arrow l.kind ++ "|" ++ l.kind.verb ++ "| " ++ id l.target

def ends (links : List Link) : List String := links.flatMap fun l => [l.source, l.target]

/-- The names that are not declared yet, in the order of their first appearance. -/
def undeclared (declared names : List String) : List String :=
  (names.filter (· ∉ declared)).eraseDups

def layerNames (m : Model) (layers : List Layer) : List String :=
  layers.flatMap fun l => (inLayer m l).map (·.name)

def declared (m : Model) : List String :=
  layerNames m Layer.all ++ undeclared m.names (ends m.links)

variable {m : Model} {ids later : NodeIds}

/-! ## Lines as they are written -/

theorem nodeLines_spec (hids : ids.Proper) (records : List Record) :
    (nodeLines ids records).1 = ids.getAll (records.map (·.name)) ∧
      ∀ later, (nodeLines ids records).1.Before later →
        (nodeLines ids records).2 = records.map (recordNode later.idOf) := by
  induction records generalizing ids with
  | nil => exact ⟨rfl, fun _ _ => rfl⟩
  | cons r records ih =>
      obtain ⟨hproper, -, hid, hnames⟩ := NodeIds.get_spec hids r.name
      obtain ⟨hrest, hlines⟩ := ih hproper
      refine ⟨hrest, fun later hlater => ?_⟩
      have hgrown := (NodeIds.getAll_spec hproper (records.map (·.name))).2.1
      rw [← hrest] at hgrown
      have hkept := (hgrown.trans hlater).idOf ((hnames r.name).mpr (.inr rfl))
      rw [List.map_cons, recordNode, hkept, ← hid, ← hlines later hlater]
      rfl

theorem layerLines_spec (m : Model) (hids : ids.Proper) (layers : List Layer) :
    (layerLines m ids layers).1 = ids.getAll (layerNames m layers) ∧
      ∀ later, (layerLines m ids layers).1.Before later →
        (layerLines m ids layers).2 = layers.flatMap (layerBlock later.idOf m) := by
  induction layers generalizing ids with
  | nil => exact ⟨rfl, fun _ _ => rfl⟩
  | cons l layers ih =>
      have hnames : layerNames m (l :: layers) =
          (inLayer m l).map (·.name) ++ layerNames m layers := List.flatMap_cons
      cases hrecords : inLayer m l with
      | nil =>
          have hskip : layerLines m ids (l :: layers) = layerLines m ids layers := by
            rw [layerLines, ← inLayer, hrecords]
          obtain ⟨hrest, hlines⟩ := ih hids
          rw [hskip, hnames, hrecords]
          refine ⟨hrest, fun later hlater => ?_⟩
          rw [hlines later hlater, List.flatMap_cons, layerBlock, hrecords]
          rfl
      | cons r records =>
          obtain ⟨hfirst, hnodes⟩ := nodeLines_spec hids (r :: records)
          have hproper := (NodeIds.getAll_spec hids ((r :: records).map (·.name))).1
          rw [← hfirst] at hproper
          obtain ⟨hrest, hlines⟩ := ih hproper
          have hstep : layerLines m ids (l :: layers) =
              ((layerLines m (nodeLines ids (r :: records)).1 layers).1,
                ("    subgraph " ++ l.tag ++ "[" ++ label l.title ++ "]") ::
                  (nodeLines ids (r :: records)).2 ++ "    end" ::
                    (layerLines m (nodeLines ids (r :: records)).1 layers).2) := by
            rw [layerLines, ← inLayer, hrecords]
          rw [hstep, hnames, hrecords, NodeIds.getAll_append, ← hfirst]
          refine ⟨hrest, fun later hlater => ?_⟩
          have hgrown := (NodeIds.getAll_spec hproper (layerNames m layers)).2.1
          rw [← hrest] at hgrown
          rw [hlines later hlater, hnodes later (hgrown.trans hlater), List.flatMap_cons, layerBlock,
            hrecords]
          simp

theorem undeclared_cons_of_mem {known names : List String} {name : String} (h : name ∈ known) :
    undeclared known (name :: names) = undeclared known names := by
  simp [undeclared, h]

theorem undeclared_cons_of_not_mem {known names : List String} {name : String} (h : name ∉ known) :
    undeclared known (name :: names) = name :: undeclared (name :: known) names := by
  have hfilter : (names.filter (· ∉ known)).filter (fun n => !n == name) =
      names.filter (· ∉ name :: known) := by
    rw [List.filter_filter]
    refine List.filter_congr fun n _ => ?_
    by_cases hn : n = name <;> simp [hn]
  rw [undeclared, List.filter_cons_of_pos (by simpa using h), List.eraseDups_cons, hfilter,
    undeclared]

theorem endpointLines_spec (hids : ids.Proper) (known names : List String) :
    (endpointLines known ids names).1 = ids.getAll (undeclared known names) ∧
      ∀ later, (endpointLines known ids names).1.Before later →
        (endpointLines known ids names).2 =
          (undeclared known names).map (plainNode later.idOf) := by
  induction names generalizing ids known with
  | nil => exact ⟨rfl, fun _ _ => rfl⟩
  | cons name names ih =>
      by_cases hknown : name ∈ known
      · rw [endpointLines, if_pos hknown, undeclared_cons_of_mem hknown]
        exact ih hids known
      · obtain ⟨hproper, -, hid, hnames⟩ := NodeIds.get_spec hids name
        obtain ⟨hrest, hlines⟩ := ih hproper (name :: known)
        rw [endpointLines, if_neg hknown, undeclared_cons_of_not_mem hknown]
        refine ⟨hrest, fun later hlater => ?_⟩
        have hgrown := (NodeIds.getAll_spec hproper (undeclared (name :: known) names)).2.1
        rw [← hrest] at hgrown
        have hkept := (hgrown.trans hlater).idOf ((hnames name).mpr (.inr rfl))
        rw [List.map_cons, plainNode, hkept, ← hid, ← hlines later hlater]

theorem linkLines_eq {links : List Link} (h : ∀ n ∈ ends links, n ∈ ids.names) :
    linkLines ids links = links.map (edge ids.idOf) := by
  induction links with
  | nil => rfl
  | cons l links ih =>
      have hends : ends (l :: links) = [l.source, l.target] ++ ends links := List.flatMap_cons
      rw [hends] at h
      have hsource := NodeIds.get_of_mem (h l.source (by simp))
      have htarget := NodeIds.get_of_mem (h l.target (by simp))
      rw [linkLines, hsource]
      simp only [htarget]
      rw [ih fun n hn => h n (List.mem_append_right _ hn)]
      rfl

/-! ## Declared names -/

theorem mem_undeclared {known names : List String} {n : String} :
    n ∈ undeclared known names ↔ n ∈ names ∧ n ∉ known := by
  simp [undeclared, List.mem_eraseDups]

theorem mem_inLayer {l : Layer} {r : Record} :
    r ∈ inLayer m l ↔ r ∈ m.components ∧ r.layer = l := by
  simp [inLayer]

theorem mem_layerNames {n : String} :
    n ∈ layerNames m Layer.all ↔ n ∈ m.components.map (·.name) := by
  simp only [layerNames, List.mem_flatMap, List.mem_map, mem_inLayer]
  constructor
  · rintro ⟨-, -, r, ⟨hr, -⟩, rfl⟩
    exact ⟨r, hr, rfl⟩
  · rintro ⟨r, hr, rfl⟩
    exact ⟨r.layer, by cases r.layer <;> decide, r, ⟨hr, rfl⟩, rfl⟩

variable {offers : List Extraction}

theorem mem_declared (h : m.Holds offers) {n : String} :
    n ∈ declared m ↔ n ∈ m.names ∨ n ∈ ends m.links := by
  rw [declared, List.mem_append, mem_layerNames, h.names_eq, mem_undeclared]
  by_cases hn : n ∈ m.names <;> simp [hn]

/-- A drawing declares no name twice: a component is in one layer, and what comes after the layers is
no component. -/
theorem nodup_declared (h : m.Holds offers) : (declared m).Nodup := by
  have hnames : (m.components.map (·.name)).Nodup := h.names_eq ▸ h.nodup_names
  rw [declared, List.nodup_append]
  refine ⟨List.nodup_flatMap.mpr ⟨fun l _ => ?_, ?_⟩, nodup_eraseDups _, fun a ha b hb hab => ?_⟩
  · exact hnames.sublist (List.filter_sublist.map _)
  · refine List.Nodup.pairwise_of_forall_ne (by decide) fun k _ l _ hne => ?_
    intro n hk hl
    obtain ⟨r, hr, rfl⟩ := List.mem_map.mp hk
    obtain ⟨s, hs, hname⟩ := List.mem_map.mp hl
    rw [mem_inLayer] at hr hs
    obtain rfl := List.inj_on_of_nodup_map hnames hs.1 hr.1 hname
    exact hne (hr.2.symm.trans hs.2)
  · subst hab
    rw [mem_layerNames, h.names_eq] at ha
    exact (mem_undeclared.mp hb).2 ha

/-! ## Drawings -/

/-- A model that is not empty is drawn with the identifiers that its declared names get in order. -/
theorem sourceLines_eq (h : m.Holds offers) (hne : m.isEmpty = false) :
    sourceLines m = "graph TD" :: (Layer.all.flatMap
        (layerBlock (NodeIds.getAll {} (declared m)).idOf m) ++
      (undeclared m.names (ends m.links)).map
        (plainNode (NodeIds.getAll {} (declared m)).idOf) ++
      m.links.map (edge (NodeIds.getAll {} (declared m)).idOf)) := by
  obtain ⟨hlayers, hblocks⟩ := layerLines_spec m NodeIds.proper_empty Layer.all
  have hproper := (NodeIds.getAll_spec NodeIds.proper_empty (layerNames m Layer.all)).1
  rw [← hlayers] at hproper
  obtain ⟨hends, hplain⟩ := endpointLines_spec hproper m.names (ends m.links)
  have hgrown := (NodeIds.getAll_spec hproper (undeclared m.names (ends m.links))).2.1
  have hall := (NodeIds.getAll_spec NodeIds.proper_empty (declared m)).2.2
  rw [← hends] at hgrown
  have hlast : (endpointLines m.names (layerLines m {} Layer.all).1 (ends m.links)).1 =
      NodeIds.getAll {} (declared m) := by
    rw [hends, hlayers, declared, NodeIds.getAll_append]
  have hlinks : linkLines (NodeIds.getAll {} (declared m)) m.links =
      m.links.map (edge (NodeIds.getAll {} (declared m)).idOf) :=
    linkLines_eq fun n hn => (hall n).mpr (.inr ((mem_declared h).mpr (.inr hn)))
  have hstep : sourceLines m = "graph TD" :: (layerLines m {} Layer.all).2 ++
      (endpointLines m.names (layerLines m {} Layer.all).1 (ends m.links)).2 ++
      linkLines (endpointLines m.names (layerLines m {} Layer.all).1 (ends m.links)).1 m.links := by
    rw [sourceLines, if_neg (by simp [hne])]
    rfl
  rw [hlast] at hgrown hplain
  rw [hstep, hlast, hlinks, hblocks _ hgrown, hplain _ (.refl _)]
  simp

end Diagram

end Architecture

end Scriptorium
