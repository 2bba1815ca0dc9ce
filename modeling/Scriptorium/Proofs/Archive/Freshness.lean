import Scriptorium.Proofs.Archive.Filing
import Scriptorium.Proofs.Archive.Traffic

/-! # Nothing is overwritten and nothing is lost

On disk this holds at every moment of any number of calls at once; a shelf takes one call at a time, so
there it is said of calls one after the other.
-/

namespace Scriptorium.Archive

/-- Whatever the calls do in between each other, every file is made where nothing was, under the first
form of its name that is free, and stays as it is; calls one after the other are one of the orders. -/
theorem stores_never_overwrite (d : Disk) (calls : List Call) {t : Traffic}
    (hdisk : Traffic.Reaches (Traffic.start d calls) t) {empty s : Shelf}
    (hempty : empty.files = []) (hshelf : Store.Becomes empty s) (filed : List Call) :
    Traffic.Sound d calls t ∧
    (∃ u, Traffic.Reaches (Traffic.start d calls) u ∧
      u.tree.get? = (Store.performAll d calls).2.tree.get? ∧
      u.calls.map Traffic.answer? = (Store.performAll d calls).1.map some) ∧
    s.Sound filed ∧
    ∀ dir name, Function.Injective (Shelf.candidate dir name) ∧
      ∃ v ≤ s.files.length, Shelf.candidate dir name v ∉ s.paths ∧
        (∀ u < v, Shelf.candidate dir name u ∈ s.paths) ∧
        ∀ fuel, s.files.length ≤ fuel → s.freePath dir name fuel 0 = Shelf.candidate dir name v :=
  ⟨Traffic.sound_of_reaches hdisk, Traffic.reaches_performAll d calls,
    (Shelf.proper_of_becomes hempty hshelf).sound filed,
    fun dir name => ⟨Shelf.candidate_injective dir name, s.freePath_ends dir name⟩⟩

/-- Two documents of one name at once: both have made their files before either fills its own. -/
theorem stores_never_overwrite_small :
    let d : Disk := ⟨"", {}, {}⟩
    let calls := [Call.document "a.md" "one", .document "a.md" "two"]
    ∃ t u : Traffic, Traffic.Reaches (Traffic.start d calls) t ∧
      t.calls.map (·.map (·.stage)) = [[.filling "a.md"], [.filling "a_1.md"]] ∧
      Traffic.Reaches t u ∧
      u.calls.map Traffic.answer? = [some (.ok ["a.md"]), some (.ok ["a_1.md"])] ∧
      Traffic.Sound d calls u ∧ (Shelf.saveDocument {} "a.md" "old").2.Sound calls := by
  intro d calls
  let first : Job := ⟨"", "a.md", "one".toUTF8⟩
  let second : Job := ⟨"", "a.md", "two".toUTF8⟩
  have hname : IsName "a.md" := isName_sanitize "a.md"
  have hopen (t : FileTree) : Open "" t := ⟨rfl, rfl⟩
  have hpath (n : Nat) : place (first.path n) = [versioned "a.md" n] :=
    place_join (hname.versioned n) ""
  have hwalk (t : FileTree) {n : Nat} (hn : n < 2) : t.walk [] (Path.parts (first.path n)) =
      .ok (place (first.path n)) := by
    refine (hopen t).walk_join (hname.versioned n) ?_
    obtain rfl | rfl : n = 0 ∨ n = 1 := by omega
    · decide
    · decide
  have hfree (n : Nat) : ({} : FileTree).get? (place (first.path n)) = none := by
    rw [hpath]
    exact FileTree.get?_empty [] (hname.versioned n).above
  have hready (j : Job) (hj : j.dir = "") (t : FileTree) :
      Job.Alone j (t, j.start) (t, .trying 0) := by
    have hparts : (Path.parts j.dir).reverse = [] := by rw [hj]; rfl
    rw [Job.start, hparts]
    exact (Job.alone_one rfl).trans (Job.alone_one rfl)
  have hcreates (j : Job) {n : Nat} (hn : n < 2) {t : FileTree} (hj : j.path n = first.path n)
      (h : t.get? (place (first.path n)) = none) : Job.Alone j (t, .trying n)
        (t.set (place (first.path n)) (.file .empty), .filling (first.path n)) := by
    refine Job.alone_one ?_
    have hnew := FileTree.createNew_of_free (hwalk t hn) h .empty
    simp only [Job.work, if_pos (show n < Disk.maxVersions by unfold Disk.maxVersions; omega), hj,
      hnew]
    rfl
  have hsafe : sanitize "a.md" = "a.md" := by decide
  have hstart : Traffic.start d calls =
      ⟨{}, [[⟨first, first.start⟩], [⟨second, second.start⟩]]⟩ := by
    simp only [Traffic.start, calls, List.map_cons, List.map_nil, Call.jobs, hsafe]
    rfl
  have hapart : place (first.path 1) ≠ place (first.path 0) := by
    rw [hpath, hpath]
    decide
  -- The first writer makes its file; the second one finds the name taken and makes the next.
  have hone := (hready first rfl {}).trans (hcreates first (by decide) rfl (hfree 0))
  have htaken : (({} : FileTree).set (place (first.path 0)) (.file .empty)).get?
      (place (first.path 0)) ≠ none := FileTree.get?_set_self_ne_none _ _ _
  have hfreeOne : (({} : FileTree).set (place (first.path 0)) (.file .empty)).get?
      (place (first.path 1)) = none := by
    rw [FileTree.get?_set_of_ne hapart, hfree]
  generalize ({} : FileTree).set (place (first.path 0)) (.file .empty) = mid at hone htaken hfreeOne
  have hpass : Job.Alone second (mid, .trying 0) (mid, .trying 1) := by
    refine Job.alone_one ?_
    have hnew := FileTree.createNew_of_taken (hwalk mid (by decide)) htaken .empty
    simp only [Job.work, if_pos (show 0 < Disk.maxVersions by decide),
      show second.path 0 = first.path 0 from rfl, hnew]
  have htwo := ((hready second rfl mid).trans hpass).trans
    (hcreates second (by decide) rfl hfreeOne)
  generalize mid.set (place (first.path 1)) (.file .empty) = last at htwo
  have hmade : Traffic.Reaches (Traffic.start d calls)
      ⟨last, [[⟨first, .filling (first.path 0)⟩], [⟨second, .filling (first.path 1)⟩]]⟩ := by
    rw [hstart]
    exact (Traffic.reaches_of_alone [] [] [[⟨second, second.start⟩]] (List.forall_mem_nil _)
      hone).trans (Traffic.reaches_of_alone [] [[⟨first, _⟩]] [] (List.forall_mem_nil _) htwo)
  -- The second writer fills its file before the first one does.
  have hfills (j : Job) (path : String) (t : FileTree) : Job.Alone j (t, .filling path)
      (t.set (place path) (.file j.content), .kept path) := Job.alone_one rfl
  have hfilled := (Traffic.reaches_of_alone [] [[⟨first, .filling (first.path 0)⟩]] []
    (List.forall_mem_nil _) (hfills second (first.path 1) last)).trans
      (Traffic.reaches_of_alone [] [] [[⟨second, .kept (first.path 1)⟩]] (List.forall_mem_nil _)
        (hfills first (first.path 0) _))
  have hempty : ({} : Shelf).files = [] := rfl
  obtain ⟨hsound, -, hshelf, -⟩ := stores_never_overwrite d calls (hmade.trans hfilled) hempty
    (.document "a.md" "old" .same) calls
  have hnames : first.path 0 = "a.md" ∧ first.path 1 = "a_1.md" := by decide
  refine ⟨_, _, hmade, ?_, hfilled, ?_, hsound, hshelf⟩
  · simp [hnames.1, hnames.2]
  · simp [Traffic.answer?, hnames.1, hnames.2, Except.map]

end Scriptorium.Archive
