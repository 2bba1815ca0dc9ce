import Scriptorium.Proofs.Archive.Shape

/-! # What lies below the root of a disk

On a disk whose root was empty there are the files that calls made and the directories that lead to them,
and nothing else. So a file gets the first form of its name that none of these has.
-/

namespace Scriptorium.Archive

/-- The root can be made, and then nothing is below it. -/
def Disk.Fresh (d : Disk) : Prop :=
  ∃ t, d.tree.makeAll (Path.parts d.rootPath).reverse = (t, .ok ()) ∧
    ∀ name rest, name ≠ ".." → t.get? (place d.rootPath ++ name :: rest) = none

/-- Files that were made, each with the number of its name, or directories that lead to them. -/
def Taken (done : List (Filing × Nat)) (names : List String) : Prop :=
  ∃ p ∈ done, names = p.1.row p.2 ∨ names <+: Path.parts p.1.dir

/-- The way to the root does not lead below it. -/
def Apart (root : String) : Prop :=
  ∀ front, front <+: Path.parts root → ∀ name rest, name ≠ ".." →
    FileTree.settle front ≠ place root ++ name :: rest

/-- Below a root are the files that were made and their directories, and nothing else. -/
structure Laid (root : String) (t : FileTree) (done : List (Filing × Nat)) : Prop where
  file : ∀ p ∈ done, ∃ content, t.get? (place root ++ p.1.row p.2) = some (.file content)
  directory : ∀ p ∈ done, ∀ names, names <+: Path.parts p.1.dir →
    t.get? (place root ++ names) = some .directory
  only : ∀ name rest, name ≠ ".." → t.get? (place root ++ name :: rest) ≠ none →
    Taken done (name :: rest)
  nodup : (done.map fun p => p.1.row p.2).Nodup

variable {root : String} {t u : FileTree} {d e : Disk} {done : List (Filing × Nat)} {f : Filing}
  {v : Nat}

theorem taken_append {more : List (Filing × Nat)} {names : List String} :
    Taken (done ++ more) names ↔ Taken done names ∨ Taken more names := by
  simp only [Taken, List.mem_append, or_and_right, exists_or]

theorem Disk.Fresh.start (h : d.Fresh) : Apart d.rootPath ∧ Laid d.rootPath d.tree [] := by
  obtain ⟨t, hmade, hnone⟩ := h
  have hopen : Open d.rootPath t := open_of_makeAll hmade
  have hwithin : FileTree.Within d.tree t := by
    have hadds := (d.tree.makeAll_adds (Path.parts d.rootPath).reverse).1
    rwa [hmade] at hadds
  refine ⟨fun front hfront name rest hup heq => ?_, by simp, by simp, fun name rest hup hthere => ?_,
    by simp⟩
  · have hdirectory := hopen.way hfront
    rw [heq, hnone name rest hup] at hdirectory
    cases hdirectory
  · obtain ⟨node, hnode⟩ := Option.ne_none_iff_exists'.mp hthere
    have hgone := hnone name rest hup
    rw [hwithin _ _ hnode] at hgone
    cases hgone

theorem Disk.fresh_empty : (⟨"", {}, {}⟩ : Disk).Fresh := by
  have hopen : Open "" {} := ⟨rfl, rfl⟩
  exact ⟨{}, hopen.makeAll, fun _ _ hup => FileTree.get?_empty _ hup⟩

theorem Laid.free (h : Laid root t done) {names : List String}
    (hfree : t.get? (place root ++ names) = none) : ¬ Taken done names := by
  rintro ⟨p, hp, rfl | hbegins⟩
  · obtain ⟨content, hfile⟩ := h.file p hp
    rw [hfile] at hfree
    cases hfree
  · rw [h.directory p hp names hbegins] at hfree
    cases hfree

/-- The first numbered form that is not taken. -/
structure FirstUntaken (done : List (Filing × Nat)) (f : Filing) (v : Nat) : Prop where
  free : ¬ Taken done (f.row v)
  taken : ∀ u < v, Taken done (f.row u)

theorem FirstUntaken.eq_zero {v : Nat} (h : FirstUntaken done f v)
    (hfree : ¬ Taken done (f.row 0)) : v = 0 := by
  by_contra hv
  exact hfree (h.taken 0 (Nat.pos_of_ne_zero hv))

theorem taken_singleton {names : List String} :
    Taken [(f, v)] names ↔ names = f.row v ∨ names <+: Path.parts f.dir := by
  simp [Taken]

/-- A file is in the way of no other form of its name. -/
theorem taken_of_taken_append {n : Nat} (h : Taken (done ++ [(f, v)]) (f.row n)) (hne : n ≠ v) :
    Taken done (f.row n) := by
  rw [taken_append, taken_singleton] at h
  rcases h with hold | hown | hbegins
  · exact hold
  · exact absurd (f.row_injective hown) hne
  · have hlength := hbegins.length_le
    simp only [Filing.row, List.length_append, List.length_singleton] at hlength
    omega

/-- What is there after a write was there before, or it leads to the file or is the file. -/
theorem Disk.Wrote.below {answer : Except Fault String} (hapart : Apart root) (hf : f.Shaped)
    (hwrote : Disk.Wrote d (f.job root) answer e) {name : String} {rest : List String}
    (hup : name ≠ "..") (hthere : e.tree.get? (place root ++ name :: rest) ≠ none) :
    d.tree.get? (place root ++ name :: rest) ≠ none ∨ name :: rest <+: Path.parts f.dir ∨
      ∃ v, name :: rest = f.row v ∧ answer = .ok (Path.join root (f.path v)) := by
  obtain ⟨node, hnode⟩ := Option.ne_none_iff_exists'.mp hthere
  rcases hwrote.added _ node hnode with hold | ⟨-, front, hfront, hq⟩ | ⟨path, hpath, hq, -⟩
  · exact .inl (by simp [hold])
  · rw [hf.parts_dir] at hfront
    rcases List.prefix_or_prefix_of_prefix hfront (List.prefix_append _ _) with habove | hbelow
    · exact absurd hq.symm (hapart front habove name rest hup)
    · obtain ⟨names, rfl⟩ := hbelow
      have hbegins := (List.prefix_append_right_inj _).mp hfront
      rw [hf.settle_parts hbegins] at hq
      exact .inr (.inl (List.append_cancel_left hq ▸ hbegins))
  · obtain ⟨-, -, -, v, rfl, -⟩ := hwrote.made path hpath
    rw [hf.job_path] at hpath hq
    rw [hf.place_path] at hq
    exact .inr (.inr ⟨v, List.append_cancel_left hq, hpath⟩)

theorem Laid.taken_of_wrote (hapart : Apart root) (h : Laid root d.tree done) (hf : f.Shaped)
    (hwrote : Disk.Wrote d (f.job root) (.ok (Path.join root (f.path v))) e) {name : String}
    {rest : List String} (hup : name ≠ "..")
    (hthere : e.tree.get? (place root ++ name :: rest) ≠ none) :
    Taken (done ++ [(f, v)]) (name :: rest) := by
  rw [taken_append, taken_singleton]
  rcases hwrote.below hapart hf hup hthere with hold | hbegins | ⟨u, hrow, hpath⟩
  · exact .inl (h.only name rest hup hold)
  · exact .inr (.inr hbegins)
  · exact .inr (.inl (hrow.trans (hf.row_eq (Except.ok.inj hpath)).symm))

/-- One more file with the directories that lead to it. -/
theorem Laid.append (h : Laid root t done) (hwithin : FileTree.Within t u)
    (hnew : ¬ Taken done (f.row v))
    (hfile : ∃ content, u.get? (place root ++ f.row v) = some (.file content))
    (hdirectory : ∀ names, names <+: Path.parts f.dir →
      u.get? (place root ++ names) = some .directory)
    (honly : ∀ name rest, name ≠ ".." → u.get? (place root ++ name :: rest) ≠ none →
      Taken (done ++ [(f, v)]) (name :: rest)) : Laid root u (done ++ [(f, v)]) where
  file p hp := by
    rcases List.mem_append.mp hp with hp | hp
    · obtain ⟨content, hcontent⟩ := h.file p hp
      exact ⟨content, hwithin _ _ hcontent⟩
    · obtain rfl := List.mem_singleton.mp hp
      exact hfile
  directory p hp names hbegins := by
    rcases List.mem_append.mp hp with hp | hp
    · exact hwithin _ _ (h.directory p hp names hbegins)
    · obtain rfl := List.mem_singleton.mp hp
      exact hdirectory names hbegins
  only := honly
  nodup := by
    rw [List.map_append]
    refine h.nodup.append (by simp) ?_
    simp only [List.map_cons, List.map_nil, List.disjoint_singleton, List.mem_map, not_exists,
      not_and]
    exact fun p hp hrow => hnew ⟨p, hp, .inl hrow.symm⟩

/-! ## Writing -/

/-- A write takes the first form that is not taken. -/
theorem Laid.write (hapart : Apart root) (h : Laid root d.tree done) (hf : f.Shaped) {path : String}
    (hwrote : Disk.Wrote d (f.job root) (.ok path) e) :
    ∃ v, path = Path.join root (f.path v) ∧ FirstUntaken done f v ∧
      Laid root e.tree (done ++ [(f, v)]) := by
  obtain ⟨hfree, hfile, hwalk, v, rfl, htaken⟩ := hwrote.made path rfl
  have hopen : Open (f.job root).dir e.tree := open_of_walk (hf.name.versioned v) hwalk
  rw [hf.job_path] at hwrote hfree hfile
  rw [hf.place_path] at hfree hfile
  have honly (name : String) (rest : List String) (hup : name ≠ "..")
      (hthere : e.tree.get? (place root ++ name :: rest) ≠ none) :
      Taken (done ++ [(f, v)]) (name :: rest) := h.taken_of_wrote hapart hf hwrote hup hthere
  have hdirectory (names : List String) (hbegins : names <+: Path.parts f.dir) :
      e.tree.get? (place root ++ names) = some .directory := by
    rw [← hf.settle_parts hbegins]
    refine hopen.way ?_
    rw [hf.parts_dir]
    exact (List.prefix_append_right_inj _).mpr hbegins
  have hnew := h.free hfree
  refine ⟨v, hf.job_path v, ⟨hnew, fun n hn => ?_⟩,
    h.append hwrote.within hnew ⟨_, hfile⟩ hdirectory honly⟩
  obtain ⟨name, rest, hrow, hup⟩ := hf.exists_row n
  have hthere := htaken n hn
  rw [hf.job_path, hf.place_path, hrow] at hthere
  refine taken_of_taken_append ?_ (Nat.ne_of_lt hn)
  rw [hrow]
  exact honly name rest hup hthere

theorem Disk.writeAll_cons_eq_ok {path : String} {jobs : List Job} {paths : List String}
    (h : ((e.writeAll jobs).1.map (path :: ·)) = .ok paths) :
    ∃ more, (e.writeAll jobs).1 = .ok more ∧ path :: more = paths := by
  cases hmore : (e.writeAll jobs).1 with
  | error fault => simp [hmore, Except.map] at h
  | ok more => exact ⟨more, rfl, by simpa [hmore, Except.map] using h⟩

theorem Laid.writeAll (hapart : Apart root) (h : Laid root d.tree done) {fs : List Filing}
    (hfs : ∀ f ∈ fs, f.Shaped) {paths : List String}
    (hok : (d.writeAll (fs.map (Filing.job root))).1 = .ok paths) :
    ∃ more, more.map Prod.fst = fs ∧
      paths = more.map (fun p => Path.join root (p.1.path p.2)) ∧
      Laid root (d.writeAll (fs.map (Filing.job root))).2.tree (done ++ more) := by
  induction fs generalizing d done paths with
  | nil =>
      obtain rfl := Except.ok.inj hok
      exact ⟨[], rfl, rfl, by rw [List.append_nil]; exact h⟩
  | cons f fs ih =>
      obtain ⟨hf, hrest⟩ := List.forall_mem_cons.mp hfs
      have hwrote := d.wrote (f.job root)
      rw [List.map_cons, Disk.writeAll] at hok ⊢
      rcases hanswer : d.writeNew (f.job root).dir (f.job root).name (f.job root).content with
        ⟨fault | path, e⟩ <;> rw [hanswer] at hwrote hok
      · cases hok
      · obtain ⟨v, hpath, -, hlaid⟩ := h.write hapart hf hwrote
        obtain ⟨paths, hpaths, rfl⟩ := Disk.writeAll_cons_eq_ok hok
        obtain ⟨more, hmore, hall, hlast⟩ := ih hlaid hrest hpaths
        rw [List.append_assoc] at hlast
        exact ⟨(f, v) :: more, by rw [List.map_cons, hmore], by rw [List.map_cons, ← hpath, hall],
          hlast⟩

def pathsOf : Except Fault (List String) → List String
  | .ok paths => paths
  | .error _ => []

theorem Laid.performAll (hapart : Apart d.rootPath) (h : Laid d.rootPath d.tree done)
    (hlayout : d.layout = {}) {calls : List Call}
    (hok : ∀ a ∈ (Store.performAll d calls).1, ∃ paths, a = .ok paths) :
    ∃ more, more.map Prod.fst = calls.flatMap (fun call => call.records ++ call.filings) ∧
      (Store.performAll d calls).1.flatMap pathsOf =
        more.map (fun p => Path.join d.rootPath (p.1.path p.2)) ∧
      Laid d.rootPath (Store.performAll d calls).2.tree (done ++ more) := by
  induction calls generalizing d done with
  | nil => exact ⟨[], rfl, rfl, by rw [List.append_nil]; exact h⟩
  | cons call calls ih =>
      obtain ⟨⟨paths, hpaths⟩, hrest⟩ := List.forall_mem_cons.mp hok
      have hdisk := d.perform_jobs hlayout call
      obtain ⟨answer, t, hsame⟩ := d.writeAll_eq
        ((call.records ++ call.filings).map (Filing.job d.rootPath))
      obtain ⟨first, hfirst, hfirstPaths, hlaid⟩ :=
        h.writeAll hapart (fun f hf => (Call.shaped hf).1) (hdisk ▸ hpaths)
      have hafter : (Store.perform d call).2 = { d with tree := t } := by rw [hdisk, hsame]
      rw [← hdisk, hafter] at hlaid
      change ∀ a ∈ (Store.performAll (Store.perform d call).2 calls).1, _ at hrest
      rw [Store.performAll, hafter]
      rw [hafter] at hrest
      obtain ⟨more, hmore, hall, hlast⟩ := ih (d := { d with tree := t }) hapart hlaid hlayout hrest
      refine ⟨first ++ more, ?_, ?_, ?_⟩
      · rw [List.map_append, List.flatMap_cons, hfirst, hmore]
      · rw [List.flatMap_cons, List.map_append, hpaths, hall, ← hfirstPaths]
        rfl
      · rw [← List.append_assoc]
        exact hlast

/-- Different files have different paths. -/
theorem Laid.nodup_paths (h : Laid root t done) (hshaped : ∀ p ∈ done, p.1.Shaped) :
    (done.map fun p => Path.join root (p.1.path p.2)).Nodup := by
  refine List.Nodup.of_map place ?_
  have hplaces : (done.map fun p => Path.join root (p.1.path p.2)).map place =
      (done.map fun p => p.1.row p.2).map (place root ++ ·) := by
    rw [List.map_map, List.map_map]
    exact List.map_congr_left fun p hp => (hshaped p hp).place_path p.2
  rw [hplaces]
  exact h.nodup.map fun _ _ => List.append_cancel_left

end Scriptorium.Archive
