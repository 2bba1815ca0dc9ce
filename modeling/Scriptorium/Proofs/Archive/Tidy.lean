import Scriptorium.Proofs.Archive.Laid

/-! # Disks that are sure to keep documents and drawings

Where nothing is in the root of a disk but the directories for checkpoints and for snapshots, a
document finds its name free, and a drawing finds no directory and makes it. Neither is in the way
of the other unless the document has the name of a directory. What is in the directories for
checkpoints and snapshots, and whether any of them is kept, makes no difference.
-/

namespace Scriptorium.Archive

/-! ## New files in a directory -/

/-- A directory that is there, with none of some names in it. -/
structure Vacant (dir : String) (names : List String) (t : FileTree) : Prop where
  opened : Open dir t
  free : ∀ name ∈ names, t.get? (place dir ++ [name]) = none

variable {dir name root top : String} {names tops : List String} {t : FileTree} {d e : Disk}
  {f : Filing} {answer : Except Fault String}

/-- A directory that was just made, or that is there, takes a file of a name that is not in it. -/
theorem Vacant.writeNew (hmade : d.tree.makeAll (Path.parts dir).reverse = (t, .ok ()))
    (h : Vacant dir (name :: names) t) (hname : IsName name)
    (hshort : FileTree.tooLong name = false) (hnot : name ∉ names) (content : ByteArray) :
    ∃ u, d.writeNew dir name content = (.ok (Path.join dir name), { d with tree := u }) ∧
      Vacant dir names u := by
  obtain ⟨hfree, hothers⟩ := List.forall_mem_cons.mp h.free
  rw [← place_join hname] at hfree
  have hwrite : d.writeNew dir name content = (.ok (Path.join dir (versioned name 0)), _) :=
    Disk.writeNew_of_open hmade h.opened hname (fun k hk => by rwa [Nat.le_zero.mp hk])
      (by decide) (by simp) hfree
  refine ⟨_, hwrite, h.opened.within (FileTree.within_set hfree _), fun other hother => ?_⟩
  rw [FileTree.get?_set_of_ne ?_, hothers other hother]
  rw [versioned, if_pos rfl, place_join hname, Ne, List.append_cancel_left_eq, List.singleton_inj]
  rintro rfl
  exact hnot hother

theorem Drawing.names_ne (g : Drawing) : g.sourceName ∉ [g.descriptionName, g.fragmentsName] ∧
    g.descriptionName ∉ [g.fragmentsName] := by
  simp [sourceName, descriptionName, fragmentsName, ← String.toList_inj]

/-! ## Tidy disks -/

/-- A disk of the usual layout whose root is there, with nothing in it but what has one of some
names. -/
structure Tidy (root : String) (tops : List String) (d : Disk) : Prop where
  rootPath : d.rootPath = root
  layout : d.layout = {}
  opened : Open root d.tree
  apart : Apart root
  only : ∀ name rest, name ≠ ".." → d.tree.get? (place root ++ name :: rest) ≠ none → name ∈ tops

namespace Tidy

/-- A root that is there and empty. -/
theorem start (hlayout : d.layout = {}) (hopen : Open d.rootPath d.tree)
    (hempty : ∀ name rest, name ≠ ".." → d.tree.get? (place d.rootPath ++ name :: rest) = none)
    (tops : List String) : Tidy d.rootPath tops d where
  rootPath := rfl
  layout := hlayout
  opened := hopen
  apart := (Disk.Fresh.start ⟨d.tree, hopen.makeAll, hempty⟩).1
  only name rest hup hthere := absurd (hempty name rest hup) hthere

theorem mono {more : List String} (h : Tidy root tops d) (hmore : tops ⊆ more) :
    Tidy root more d :=
  { h with only := fun name rest hup hthere => hmore (h.only name rest hup hthere) }

theorem wrote (h : Tidy root tops d) (hf : f.Shaped) (htop : (Path.parts f.dir).head? = some top)
    (hmem : top ∈ tops) (hwrote : Disk.Wrote d (f.job root) answer e) : Tidy root tops e where
  rootPath := hwrote.rootPath.trans h.rootPath
  layout := hwrote.layout.trans h.layout
  opened := h.opened.within hwrote.within
  apart := h.apart
  only name rest hup hthere := by
    obtain ⟨tail, hdir⟩ := List.head?_eq_some_iff.mp htop
    rcases hwrote.below h.apart hf hup hthere with hold | hleads | ⟨v, hrow, -⟩
    · exact h.only name rest hup hold
    · rw [hdir, List.cons_prefix_cons] at hleads
      exact hleads.1 ▸ hmem
    · rw [Filing.row, hdir] at hrow
      exact (List.cons.inj hrow).1 ▸ hmem

/-- A checkpoint or a snapshot goes into a directory of its own. -/
theorem perform (h : Tidy root tops d) (call : Call) (hone : call.records = [f])
    (hnone : call.filings = []) (htop : call.top? = some top) (hmem : top ∈ tops) :
    Tidy root tops (Store.perform d call).2 := by
  have hdisk := d.perform_jobs h.layout call
  rw [h.rootPath, hone, hnone, List.append_nil, List.map_singleton, Disk.writeAll_one] at hdisk
  have hfile : f ∈ call.records ++ call.filings := by simp [hone]
  obtain ⟨hf, hhead⟩ := Call.shaped hfile
  rw [hdisk]
  exact h.wrote hf (hhead.trans htop) hmem (d.wrote (f.job root))

theorem free (h : Tidy root tops d) (hname : IsName name) (hnot : name ∉ tops)
    (rest : List String) : d.tree.get? (place root ++ name :: rest) = none := by
  by_contra hthere
  exact hnot (h.only name rest hname.above hthere)

/-- A document whose name is not taken goes into the root. -/
theorem document (h : Tidy root tops d) (hshort : FileTree.tooLong (sanitize name) = false)
    (hnot : sanitize name ∉ tops) (text : String) :
    (Store.saveDocument d name text).1 = .ok (Path.join root (sanitize name)) ∧
      Tidy root (sanitize name :: tops) (Store.saveDocument d name text).2 := by
  obtain rfl := h.rootPath
  have hname := isName_sanitize name
  have hvacant : Vacant d.rootPath [sanitize name] d.tree :=
    ⟨h.opened, List.forall_mem_singleton.mpr (h.free hname hnot [])⟩
  obtain ⟨u, hwrite, hafter⟩ := hvacant.writeNew h.opened.makeAll hname hshort List.not_mem_nil
    text.toUTF8
  have hsave : Store.saveDocument d name text =
      (.ok (Path.join d.rootPath (sanitize name)), { d with tree := u }) := hwrite
  -- The same write as that of a file in the root, to tell what is there after it.
  have hfile : (⟨"", sanitize name, text⟩ : Filing).Shaped := Filing.shaped hname .root
  have hwrote := d.wrote ((⟨"", sanitize name, text⟩ : Filing).job d.rootPath)
  change Disk.Wrote d _ (Store.saveDocument d name text).1 (Store.saveDocument d name text).2
    at hwrote
  rw [hsave] at hwrote ⊢
  refine ⟨rfl, rfl, h.layout, hafter.opened, h.apart, fun other rest hup hthere => ?_⟩
  rcases hwrote.below h.apart hfile hup hthere with hold | hleads | ⟨v, hrow, hpath⟩
  · exact List.mem_cons_of_mem _ (h.only other rest hup hold)
  · cases List.prefix_nil.mp hleads
  · rw [← hfile.row_eq (u := 0) (Except.ok.inj hpath)] at hrow
    exact (List.cons.inj hrow).1 ▸ List.mem_cons_self

/-- A drawing makes its directory where there is none. -/
theorem drawing (h : Tidy root tops d) (hnot : "diagrams" ∉ tops) (g : Drawing)
    (hsource : FileTree.tooLong g.sourceName = false)
    (hdescription : FileTree.tooLong g.descriptionName = false)
    (hfragments : FileTree.tooLong g.fragmentsName = false) :
    (Store.saveDrawing d g).1.map DrawingPaths.unnamed =
      .ok ⟨"", "", g.fragments.map fun _ => ""⟩ := by
  obtain ⟨path, layout, tree⟩ := d
  obtain rfl : path = root := h.rootPath
  obtain rfl : layout = {} := h.layout
  have hname : IsName "diagrams" := ⟨by decide, by decide, by decide, by decide⟩
  have hplace := place_join hname path
  obtain ⟨hmade, hopen⟩ := h.opened.makeAll_join hname (by decide)
    (by rw [hplace]; exact h.free hname hnot [])
  have hvacant : Vacant (Path.join path "diagrams")
      [g.sourceName, g.descriptionName, g.fragmentsName]
      (tree.set (place (Path.join path "diagrams")) .directory) := by
    refine ⟨hopen, fun other _ => ?_⟩
    rw [FileTree.get?_set_of_ne (by simp), hplace, List.append_assoc]
    exact h.free hname hnot [other]
  obtain ⟨hother, hlast⟩ := g.names_ne
  obtain ⟨t, hfirst, hvacant⟩ := Vacant.writeNew (d := ⟨path, {}, tree⟩) hmade hvacant
    g.isName_source hsource hother g.source.toUTF8
  obtain ⟨u, hsecond, hvacant⟩ := Vacant.writeNew (d := ⟨path, {}, t⟩) hvacant.opened.makeAll
    hvacant g.isName_description hdescription hlast g.description.toUTF8
  change (Disk.saveDrawing ⟨path, {}, tree⟩ g).1.map DrawingPaths.unnamed = _
  cases htext : g.fragments with
  | none =>
      simp only [Disk.saveDrawing, Disk.diagramDir, hfirst, hsecond, htext, Except.map,
        DrawingPaths.unnamed, Option.map_none]
  | some text =>
      obtain ⟨v, hthird, -⟩ := Vacant.writeNew (d := ⟨path, {}, u⟩) hvacant.opened.makeAll
        hvacant g.isName_fragments hfragments List.not_mem_nil text.toUTF8
      simp only [Disk.saveDrawing, Disk.diagramDir, hfirst, hsecond, hthird, htext, Except.map,
        DrawingPaths.unnamed, Option.map_some]

end Tidy

/-- A time whose text leaves room in the name of a file. -/
def Timestamp.Short (t : Timestamp) : Prop := t.slug.utf8ByteSize ≤ 200

theorem Drawing.short {g : Drawing} (h : g.time.Short) :
    FileTree.tooLong g.sourceName = false ∧ FileTree.tooLong g.descriptionName = false ∧
      FileTree.tooLong g.fragmentsName = false := by
  have hsize : g.time.slug.utf8ByteSize ≤ 200 := h
  have hfronts : "architecture_".utf8ByteSize = 13 ∧ "fragments_".utf8ByteSize = 10 := by decide
  have hbacks : ".mmd".utf8ByteSize = 4 ∧ ".md".utf8ByteSize = 3 := by decide
  simp only [FileTree.tooLong, sourceName, descriptionName, fragmentsName, decide_eq_false_iff_not,
    String.utf8ByteSize_append, hfronts, hbacks]
  omega

/-- A disk with an empty root is sure to keep a document whose name is short and not that of a
directory, and a drawing of a time that is short. -/
theorem Disk.sure {doc : String} (root : String) (hshort : FileTree.tooLong (sanitize doc) = false)
    (hname : sanitize doc ∉ ["checkpoints", "sections", "diagrams"]) :
    Store.Sure doc (Path.join root (sanitize doc)) Timestamp.Short
      (Tidy root ["checkpoints", "sections"])
      (Tidy root [sanitize doc, "checkpoints", "sections"]) where
  checkpoint d c h := h.perform (.checkpoint c) rfl rfl rfl (by simp)
  snapshot d n h := h.perform (.snapshot n) rfl rfl rfl (by simp)
  checkpointAfter d c h := h.perform (.checkpoint c) rfl rfl rfl (by simp)
  later d h := h.mono (List.subset_cons_self _ _)
  document d text h :=
    h.document hshort (fun hmem => hname (List.mem_append_left ["diagrams"] hmem)) text
  drawing d g h htime := by
    have hnot : "diagrams" ∉ [sanitize doc, "checkpoints", "sections"] := by
      refine List.not_mem_cons_of_ne_of_not_mem (fun heq => hname ?_) (by decide)
      rw [← heq]
      decide
    obtain ⟨hsource, hdescription, hfragments⟩ := Drawing.short htime
    exact h.drawing hnot g hsource hdescription hfragments

end Scriptorium.Archive
