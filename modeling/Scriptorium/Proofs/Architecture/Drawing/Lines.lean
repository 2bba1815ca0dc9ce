import Scriptorium.Proofs.Architecture.Drawing
import Scriptorium.Proofs.Architecture.NodeId.Search
import Scriptorium.Proofs.Text.Lines

/-! # The lines of a drawing

A drawing is one text, with a line feed after each of its entries. An entry for a node shows a name
between two quotes: quotes in the name are written in another way, but line feeds as they are. So
the lines of the text are the entries as long as no name has a line feed. A name that has some takes
up as many more lines, which may look like anything, but all of them lie between the two quotes.
-/

namespace Scriptorium

namespace Architecture

namespace Diagram

open NodeIds (Plain)
open Text (EndsSolid)

variable {id : String → String} {m : Model}

/-! ## Quoted names -/

def Bare (s : String) : Prop := '\n' ∉ s.toList ∧ '"' ∉ s.toList

/-- An entry shows a name: between its only two quotes, the quotes of the name aside, and with no
line feeds but those of the name. -/
structure Shows (entry name : String) : Prop where
  quoted : ∃ front back, Bare front ∧ Bare back ∧
    entry = front ++ "\"" ++ Text.replaceChar '"' "#quot;" name ++ "\"" ++ back
  inner : '"' ∉ (Text.replaceChar '"' "#quot;" name).toList
  lines : (Text.lines entry).length = name.toList.count '\n' + 1

theorem Bare.append {s t : String} (hs : Bare s) (ht : Bare t) : Bare (s ++ t) := by
  simp [Bare, hs.1, hs.2, ht.1, ht.2]

theorem quote_not_mem_replaceChar (name : String) :
    '"' ∉ (Text.replaceChar '"' "#quot;" name).toList := by
  simp only [Text.replaceChar, String.toList_ofList, List.mem_flatMap, not_exists, not_and]
  intro d _
  by_cases hd : d = '"'
  · simp [hd]
  · simp [hd, Ne.symm hd]

theorem count_replaceChar (name : String) :
    (Text.replaceChar '"' "#quot;" name).toList.count '\n' = name.toList.count '\n' := by
  rw [Text.replaceChar, String.toList_ofList]
  induction name.toList with
  | nil => rfl
  | cons d cs ih =>
      rw [List.flatMap_cons, List.count_append, ih]
      by_cases hd : d = '"'
      · simp [hd]
      · simp [hd, List.count_cons, Nat.add_comm]

theorem lines_of_not_mem {entry : String} (hsolid : EndsSolid entry) (h : '\n' ∉ entry.toList) :
    Text.lines entry = [entry] := by
  rw [Text.lines, Text.splitLines_of_not_mem h (Text.endsSolid_iff.mp hsolid).1]
  simp

theorem shows_of_eq {entry front name back : String} (hfront : Bare front) (hback : Bare back)
    (hsolid : EndsSolid back) (h : entry = front ++ label name ++ back) : Shows entry name where
  quoted := ⟨front, back, hfront, hback, by rw [h, label]; simp only [String.append_assoc]⟩
  inner := quote_not_mem_replaceChar name
  lines := by
    obtain ⟨hne, hlast⟩ := Text.endsSolid_iff.mp (h ▸ hsolid.append _ : EndsSolid entry)
    have hfeed : entry.toList.getLast? ≠ some '\n' := fun hend =>
      absurd (hlast '\n' hend) (by decide)
    rw [Text.lines, List.length_map, Text.length_splitLines hne hfeed, h]
    simp [label, List.count_append, List.count_eq_zero.mpr hfront.1,
      List.count_eq_zero.mpr hback.1, count_replaceChar]

theorem Shows.not_mem_feed {entry name : String} (h : Shows entry name)
    (hname : '\n' ∉ name.toList) : '\n' ∉ entry.toList := by
  obtain ⟨front, back, hfront, hback, rfl⟩ := h.quoted
  have hshown := count_replaceChar name
  rw [List.count_eq_zero.mpr hname, List.count_eq_zero] at hshown
  simp [hfront.1, hback.1, hshown]

/-! ## Entries -/

/-- What an identifier is made of is neither blank nor a quote. -/
theorem isBlank_of_plain {c : Char} (h : c.isAlphanum = true ∨ c = '_') :
    Text.isBlank c = false ∧ c ≠ '"' := by
  rcases h with h | rfl
  · refine ⟨Text.isBlank_of_isAlphanum h, ?_⟩
    rintro rfl
    exact absurd h (by decide)
  · decide

theorem mem_plain {s : String} (h : Plain s) {c : Char} (hc : c ∈ s.toList) :
    c.isAlphanum = true ∨ c = '_' := by
  obtain ⟨first, rest, hs, hfirst, hrest⟩ := h
  rw [hs] at hc
  rcases List.mem_cons.mp hc with rfl | hc
  · exact hfirst.imp_left fun halpha => by simp [Char.isAlphanum, halpha]
  · exact hrest c hc

theorem bare_of_plain {s : String} (h : Plain s) : Bare s := by
  constructor
  · intro hc
    exact absurd (isBlank_of_plain (mem_plain h hc)).1 (by decide)
  · intro hc
    exact (isBlank_of_plain (mem_plain h hc)).2 rfl

theorem endsSolid_of_plain {s : String} (h : Plain s) : EndsSolid s := by
  refine Text.endsSolid_iff.mpr ⟨?_, fun c hc => ?_⟩
  · obtain ⟨first, rest, hs, -⟩ := h
    rw [hs]
    exact List.cons_ne_nil first rest
  · exact (isBlank_of_plain (mem_plain h (List.mem_of_getLast? hc))).1

def brackets : Kind → String × String
  | .apiEndpoint => ("[/", "/]")
  | .database => ("[(", ")]")
  | .external => ("\x7b\x7b", "\x7d\x7d")
  | .ui => ("([", "])")
  | .model => ("[[", "]]")
  | .queue => (">", "]")
  | _ => ("[", "]")

theorem node_eq (s : String) (r : Record) :
    node s r = s ++ (brackets r.kind).1 ++ label r.name ++ (brackets r.kind).2 := by
  unfold node brackets
  cases r.kind <;> rfl

theorem brackets_spec (k : Kind) :
    Bare (brackets k).1 ∧ Bare (brackets k).2 ∧ EndsSolid (brackets k).2 := by
  cases k <;> exact ⟨⟨by decide, by decide⟩, ⟨by decide, by decide⟩,
    Text.endsSolid_of_getLast? rfl rfl⟩

theorem recordNode_shows {r : Record} (h : Plain (id r.name)) :
    Shows (recordNode id r) r.name ∧ EndsSolid (recordNode id r) := by
  obtain ⟨hfront, hback, hsolid⟩ := brackets_spec r.kind
  have hentry : recordNode id r =
      "        " ++ (id r.name ++ (brackets r.kind).1) ++ label r.name ++ (brackets r.kind).2 := by
    rw [recordNode, node_eq]
    simp only [String.append_assoc]
  have hbare : Bare ("        " ++ (id r.name ++ (brackets r.kind).1)) :=
    .append ⟨by decide, by decide⟩ ((bare_of_plain h).append hfront)
  exact ⟨shows_of_eq hbare hback hsolid hentry, hentry ▸ hsolid.append _⟩

theorem plainNode_shows {n : String} (h : Plain (id n)) :
    Shows (plainNode id n) n ∧ EndsSolid (plainNode id n) := by
  have hsolid : EndsSolid "]" := Text.endsSolid_of_getLast? rfl rfl
  have hbare : Bare ("    " ++ id n ++ "[") :=
    .append (.append ⟨by decide, by decide⟩ (bare_of_plain h)) ⟨by decide, by decide⟩
  exact ⟨shows_of_eq hbare ⟨by decide, by decide⟩ hsolid rfl, hsolid.append _⟩

theorem edge_spec {l : Link} (hsource : Plain (id l.source)) (htarget : Plain (id l.target)) :
    Bare (edge id l) ∧ EndsSolid (edge id l) := by
  have hmiddle : Bare (" " ++ arrow l.kind ++ "|" ++ l.kind.verb ++ "| ") := by
    cases l.kind <;> exact ⟨by decide, by decide⟩
  have hentry : edge id l = "    " ++ id l.source ++
      (" " ++ arrow l.kind ++ "|" ++ l.kind.verb ++ "| ") ++ id l.target := by
    simp only [edge, String.append_assoc]
  have hfront : Bare ("    " ++ id l.source) :=
    .append ⟨by decide, by decide⟩ (bare_of_plain hsource)
  rw [hentry]
  exact ⟨(hfront.append hmiddle).append (bare_of_plain htarget),
    (endsSolid_of_plain htarget).append _⟩

def opening (l : Layer) : String := "    subgraph " ++ l.tag ++ "[" ++ label l.title ++ "]"

theorem opening_spec (l : Layer) : '\n' ∉ (opening l).toList ∧ EndsSolid (opening l) := by
  have hsolid : EndsSolid "]" := Text.endsSolid_of_getLast? rfl rfl
  have htag : Bare l.tag := by cases l <;> exact ⟨by decide, by decide⟩
  have htitle : '\n' ∉ l.title.toList := by cases l <;> decide
  have hfront : Bare ("    subgraph " ++ l.tag ++ "[") :=
    .append (.append ⟨by decide, by decide⟩ htag) ⟨by decide, by decide⟩
  have hshows : Shows (opening l) l.title :=
    shows_of_eq hfront ⟨by decide, by decide⟩ hsolid rfl
  exact ⟨hshows.not_mem_feed htitle, hsolid.append _⟩

/-! ## The text -/

/-- The entries of a drawing: the header, the layers with their components, the ends of links that
are no components, and the links. -/
def entries (id : String → String) (m : Model) : List String :=
  "graph TD" :: (Layer.all.flatMap (layerBlock id m) ++
    (undeclared m.names (ends m.links)).map (plainNode id) ++ m.links.map (edge id))

def blockLines (id : String → String) (m : Model) (l : Layer) : List String :=
  match inLayer m l with
  | [] => []
  | records =>
    opening l :: (records.flatMap (fun r => Text.lines (recordNode id r)) ++ ["    end"])

theorem layerBlock_of_cons {l : Layer} {r : Record} {records : List Record}
    (h : inLayer m l = r :: records) :
    layerBlock id m l = opening l :: ((r :: records).map (recordNode id) ++ ["    end"]) := by
  rw [layerBlock, h]
  rfl

theorem mem_layerBlock {l : Layer} {e : String} (h : e ∈ layerBlock id m l) :
    e = opening l ∨ (∃ r ∈ m.components, e = recordNode id r) ∨ e = "    end" := by
  cases hrecords : inLayer m l with
  | nil =>
      rw [layerBlock, hrecords] at h
      cases h
  | cons r records =>
      rw [layerBlock_of_cons hrecords, List.mem_cons, List.mem_append, List.mem_map,
        List.mem_singleton, ← hrecords] at h
      rcases h with h | ⟨r', hr', rfl⟩ | h
      · exact .inl h
      · exact .inr (.inl ⟨r', (mem_inLayer.mp hr').1, rfl⟩)
      · exact .inr (.inr h)

theorem layerBlock_lines (id : String → String) (m : Model) (l : Layer) :
    (layerBlock id m l).flatMap Text.lines = blockLines id m l := by
  obtain ⟨hline, hsolid⟩ := opening_spec l
  have hopen := lines_of_not_mem hsolid hline
  have hclose : Text.lines "    end" = ["    end"] := by decide
  cases hrecords : inLayer m l with
  | nil =>
      rw [layerBlock, blockLines, hrecords]
      rfl
  | cons r records =>
      rw [layerBlock_of_cons hrecords, blockLines, hrecords, List.flatMap_cons, hopen,
        List.flatMap_append, List.flatMap_map, List.flatMap_singleton, hclose]
      rfl

variable {offers : List Extraction}

theorem mem_declared_of_link (h : m.Holds offers) {l : Link} (hl : l ∈ m.links) :
    l.source ∈ declared m ∧ l.target ∈ declared m := by
  simp only [mem_declared h, ends, List.mem_flatMap]
  exact ⟨.inr ⟨l, hl, by simp⟩, .inr ⟨l, hl, by simp⟩⟩

theorem mem_declared_of_component (h : m.Holds offers) {r : Record} (hr : r ∈ m.components) :
    r.name ∈ declared m :=
  (mem_declared h).mpr (.inl (h.names_eq ▸ List.mem_map_of_mem hr))

/-- Every entry shows one of the declared names or is a line. -/
theorem mem_entries (h : m.Holds offers) (hplain : ∀ n ∈ declared m, Plain (id n)) {e : String}
    (he : e ∈ entries id m) :
    EndsSolid e ∧ ('\n' ∉ e.toList ∨ ∃ n ∈ declared m, Shows e n) := by
  rw [entries, List.mem_cons, List.mem_append, List.mem_append, List.mem_flatMap] at he
  rcases he with rfl | (⟨l, -, he⟩ | he) | he
  · exact ⟨Text.endsSolid_of_getLast? rfl rfl, .inl (by decide)⟩
  · rcases mem_layerBlock he with rfl | ⟨r, hr, rfl⟩ | rfl
    · exact ⟨(opening_spec l).2, .inl (opening_spec l).1⟩
    · have hname := mem_declared_of_component h hr
      obtain ⟨hshows, hsolid⟩ := recordNode_shows (hplain _ hname)
      exact ⟨hsolid, .inr ⟨_, hname, hshows⟩⟩
    · exact ⟨Text.endsSolid_of_getLast? rfl rfl, .inl (by decide)⟩
  · obtain ⟨n, hn, rfl⟩ := List.mem_map.mp he
    have hdeclared := (mem_declared h).mpr (.inr (mem_undeclared.mp hn).1)
    obtain ⟨hshows, hsolid⟩ := plainNode_shows (hplain n hdeclared)
    exact ⟨hsolid, .inr ⟨n, hdeclared, hshows⟩⟩
  · obtain ⟨l, hl, rfl⟩ := List.mem_map.mp he
    obtain ⟨hsource, htarget⟩ := mem_declared_of_link h hl
    obtain ⟨hbare, hsolid⟩ := edge_spec (hplain _ hsource) (hplain _ htarget)
    exact ⟨hsolid, .inl hbare.1⟩

theorem flatMap_lines {es : List String} (h : ∀ e ∈ es, Text.lines e = [e]) :
    es.flatMap Text.lines = es := by
  rw [List.flatMap_congr h, List.flatMap_singleton']

/-- No line has parts of two entries. -/
theorem lines_draw (h : m.Holds offers) (hplain : ∀ n ∈ declared m, Plain (id n))
    (hentries : sourceLines m = entries id m) :
    Text.lines (draw m) = (entries id m).flatMap Text.lines := by
  have hne : entries id m ≠ [] := List.cons_ne_nil _ _
  rw [draw, hentries, ← Text.join_append_eq "\n" hne,
    Text.lines_join_newline fun e he => (mem_entries h hplain he).1]

/-- Only the entries for nodes may take up more than one line. -/
theorem flatMap_lines_entries (h : m.Holds offers) (hplain : ∀ n ∈ declared m, Plain (id n)) :
    (entries id m).flatMap Text.lines = "graph TD" :: (Layer.all.flatMap (blockLines id m) ++
      (undeclared m.names (ends m.links)).flatMap (fun n => Text.lines (plainNode id n)) ++
        m.links.map (edge id)) := by
  have hheader : Text.lines "graph TD" = ["graph TD"] := by decide
  have hedges : (m.links.map (edge id)).flatMap Text.lines = m.links.map (edge id) := by
    refine flatMap_lines fun e he => ?_
    obtain ⟨l, hl, rfl⟩ := List.mem_map.mp he
    obtain ⟨hsource, htarget⟩ := mem_declared_of_link h hl
    obtain ⟨hbare, hsolid⟩ := edge_spec (hplain _ hsource) (hplain _ htarget)
    exact lines_of_not_mem hsolid hbare.1
  rw [entries, List.flatMap_cons, hheader, List.flatMap_append, List.flatMap_append, hedges,
    List.flatMap_assoc, List.flatMap_map]
  simp only [layerBlock_lines]
  rfl

/-- A model that is not empty, whatever it was built by, is drawn with one assignment of
identifiers. Each layer with components is a block with an entry for each of them in the order of
names, the ends of links that are no components follow, each once, and every link has its entry. The
text has the lines of these entries, in order: an entry for a node takes up a line and as many more
as its name has line feeds, which lie between its quotes, and every other entry is one line; so
where no name has a line feed, the entries are the lines. The names that are declared there are the
components and the ends of links, each once, and no two of them, nor one of them and a layer, have
one identifier. -/
theorem draw_build (edits : List Edit) (hne : (Model.build edits).isEmpty = false) :
    let m := Model.build edits
    ∃ id : String → String,
      sourceLines m = entries id m ∧ draw m = "\n".intercalate (sourceLines m) ++ "\n" ∧
      Text.lines (draw m) = "graph TD" :: (Layer.all.flatMap (blockLines id m) ++
        (undeclared m.names (ends m.links)).flatMap (fun n => Text.lines (plainNode id n)) ++
          m.links.map (edge id)) ∧
      (∀ r ∈ m.components, Shows (recordNode id r) r.name) ∧
      (∀ n ∈ undeclared m.names (ends m.links), Shows (plainNode id n) n) ∧
      ((∀ n ∈ declared m, '\n' ∉ n.toList) → Text.lines (draw m) = entries id m) ∧
      (∀ l, (inLayer m l).Pairwise (fun r s => r.name < s.name) ∧
        ∀ r, r ∈ inLayer m l ↔ r ∈ m.components ∧ r.layer = l) ∧
      (declared m).Nodup ∧ (∀ n, n ∈ declared m ↔ n ∈ m.names ∨ n ∈ ends m.links) ∧
      (∀ a ∈ declared m, ∀ b ∈ declared m, id a = id b → a = b) ∧
      (∀ a ∈ declared m, ∀ l : Layer, id a ≠ l.tag) ∧ m.links.Nodup := by
  have hholds := Model.build_holds edits
  obtain ⟨hproper, -, hall⟩ :=
    NodeIds.getAll_spec NodeIds.proper_empty (declared (Model.build edits))
  have hgiven : ∀ a ∈ declared (Model.build edits),
      a ∈ (NodeIds.getAll {} (declared (Model.build edits))).names :=
    fun a ha => (hall a).mpr (.inr ha)
  have hplain : ∀ a ∈ declared (Model.build edits),
      Plain ((NodeIds.getAll {} (declared (Model.build edits))).idOf a) := fun a ha =>
    (NodeIds.usable_getAll (fun _ h => absurd h List.not_mem_nil) _ _
      (NodeIds.mem_given (hgiven a ha))).plain
  have hentries := sourceLines_eq hholds hne
  have hlines := (lines_draw hholds hplain hentries).trans (flatMap_lines_entries hholds hplain)
  refine ⟨_, hentries, rfl, hlines, fun r hr => ?_, fun n hn => ?_, fun hfeeds => ?_,
    fun l => ⟨?_, fun r => mem_inLayer⟩,
    nodup_declared hholds, fun n => mem_declared hholds,
    fun a ha b hb => hproper.idOf_injOn (hgiven a ha) (hgiven b hb),
    fun a ha => hproper.idOf_ne_tag (hgiven a ha), ?_⟩
  · exact (recordNode_shows (hplain _ (mem_declared_of_component hholds hr))).1
  · exact (plainNode_shows
      (hplain n ((mem_declared hholds).mpr (.inr (mem_undeclared.mp hn).1)))).1
  · rw [lines_draw hholds hplain hentries]
    refine flatMap_lines fun e he => ?_
    obtain ⟨hsolid, hline | ⟨n, hn, hshows⟩⟩ := mem_entries hholds hplain he
    · exact lines_of_not_mem hsolid hline
    · exact lines_of_not_mem hsolid (hshows.not_mem_feed (hfeeds n hn))
  · exact hholds.increasing.sublist List.filter_sublist
  · rw [hholds.links]
    exact nodup_eraseDups _

/-- A worker that calls a component with the name of a layer and one that was never recorded. -/
theorem draw_build_small :
    let edits : List Edit := [.upsert ⟨"EXTERNAL", .service, .external, "", true⟩,
      .upsert ⟨"worker", .service, .business, "", true⟩,
      .relate ⟨"worker", "EXTERNAL", .calls⟩, .relate ⟨"worker", "a.b", .reads⟩]
    let m := Model.build edits
    m.isEmpty = false ∧
      Text.lines (draw m) = ["graph TD", "    subgraph BUSINESS[\"Business Layer\"]",
        "        worker[\"worker\"]", "    end", "    subgraph EXTERNAL[\"External Systems\"]",
        "        EXTERNAL_2[\"EXTERNAL\"]", "    end", "    a_b[\"a.b\"]",
        "    worker -->|calls| EXTERNAL_2", "    worker ==>|reads from| a_b"] ∧
      ∃ id : String → String, Text.lines (draw m) = "graph TD" ::
        (Layer.all.flatMap (layerBlock id m) ++ [plainNode id "a.b"] ++ m.links.map (edge id)) := by
  intro edits m
  have hne : (Model.build edits).isEmpty = false := by decide
  obtain ⟨id, hentries, -, -, -, -, hlines, -⟩ := draw_build edits hne
  have hplain : Text.lines (draw m) = entries id m := hlines (by decide)
  have hends : undeclared m.names (ends m.links) = ["a.b"] := by decide
  refine ⟨hne, ?_, id, ?_⟩
  · rw [hplain, ← hentries]
    decide +kernel
  · rw [hplain, entries, hends]
    rfl

/-- The lines of a drawing are not its entries where a name has line feeds: here one of them tells
of a relationship between two nodes, though the model has no relationships and no such nodes. -/
theorem lines_draw_ne_entries :
    let m := Model.build [.upsert ⟨"a\n    b -->|calls| c\nd", .service, .business, "", true⟩]
    m.isEmpty = false ∧ m.links = [] ∧
      Text.lines (draw m) = ["graph TD", "    subgraph BUSINESS[\"Business Layer\"]",
        "        a_____b_____calls__c_d[\"a", "    b -->|calls| c", "d\"]", "    end"] ∧
      ¬ ∃ id : String → String, Text.lines (draw m) = entries id m := by
  intro m
  have hlines : Text.lines (draw m) = ["graph TD", "    subgraph BUSINESS[\"Business Layer\"]",
      "        a_____b_____calls__c_d[\"a", "    b -->|calls| c", "d\"]", "    end"] := by
    decide +kernel
  refine ⟨by decide, rfl, hlines, ?_⟩
  rintro ⟨id, hentries⟩
  have hlength : (entries id m).length = 4 := rfl
  rw [← hentries, hlines] at hlength
  cases hlength

end Diagram

end Architecture

end Scriptorium
