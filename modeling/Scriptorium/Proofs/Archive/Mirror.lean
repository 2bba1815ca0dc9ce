import Scriptorium.Proofs.Archive.Laid

/-! # A shelf as a mirror of a disk

On an empty disk of the usual layout and on an empty shelf the same calls are given the same paths, as
long as no two checkpoints and no two snapshots have one name, and no document has the name of a
directory that is used: a shelf numbers neither checkpoints nor snapshots, and it knows no directories.
-/

namespace Scriptorium.Archive

variable {root : String} {t : FileTree} {d e : Disk} {s : Shelf} {done : List (Filing × Nat)}
  {f : Filing}

/-! ## Both stores -/

def Clashes (f : Filing) (top? : Option String) : Prop := f.dir = "" ∧ top? = some f.name

/-- A disk and a shelf after the same calls. -/
structure Mirror (root : String) (d : Disk) (s : Shelf) (done : List (Filing × Nat)) : Prop where
  rootPath : d.rootPath = root
  layout : d.layout = {}
  laid : Laid root d.tree done
  shaped : ∀ p ∈ done, p.1.Shaped
  filed : ∀ f : Filing, f.Shaped → Shelf.IsFiling f → ∀ v,
    f.path v ∈ s.paths ↔ ∃ p ∈ done, f.row v = p.1.row p.2
  quiet : s.failCheckpoints = false ∧ s.failSnapshots = false

theorem Mirror.of_files {r : Shelf} (h : Mirror root d s done) (hfiles : r.files = s.files)
    (hquiet : r.failCheckpoints = false ∧ r.failSnapshots = false) : Mirror root d r done := by
  refine ⟨h.rootPath, h.layout, h.laid, h.shaped, fun f hf hfiling v => ?_, hquiet⟩
  rw [Shelf.paths, hfiles]
  exact h.filed f hf hfiling v

/-- What is taken on disk is taken on the shelf. -/
theorem Mirror.taken_iff (h : Mirror root d s done) (hf : f.Shaped) (hfiling : Shelf.IsFiling f)
    (hclear : ∀ p ∈ done, ¬ Clashes f (Path.parts p.1.dir).head?) (v : Nat) :
    Taken done (f.row v) ↔ f.path v ∈ s.paths := by
  rw [h.filed f hf hfiling v]
  constructor
  · rintro ⟨p, hp, hrow | hbegins⟩
    · exact ⟨p, hp, hrow⟩
    · exfalso
      obtain ⟨hempty, hhead⟩ := hf.dir.not_prefix (h.shaped p hp).dir hbegins
      have hdir : f.dir = "" := by rw [hf.dir.eq_intercalate, hempty]; rfl
      by_cases hv : v = 0
      · subst hv
        exact hclear p hp ⟨hdir, hhead⟩
      · refine (h.shaped p hp).dir.head?_plain hhead ?_
        rw [versioned_toList f.name hv]
        simp
  · rintro ⟨p, hp, hrow⟩
    exact ⟨p, hp, .inl hrow⟩

/-- A checkpoint or a snapshot is written on disk and leaves the files of the shelf as they are. -/
theorem Mirror.record (hapart : Apart root) (h : Mirror root d s done) (hf : f.Shaped)
    (hrecord : ¬ Shelf.IsFiling f) {path : String}
    (hwrote : Disk.Wrote d (f.job root) (.ok path) e) :
    ∃ v, path = Path.join root (f.path v) ∧ FirstUntaken done f v ∧
      Mirror root e s (done ++ [(f, v)]) := by
  obtain ⟨v, hpath, hfirst, hlaid⟩ := h.laid.write hapart hf hwrote
  refine ⟨v, hpath, hfirst, hwrote.rootPath.trans h.rootPath, hwrote.layout.trans h.layout, hlaid,
    fun p hp => ?_, fun g hg hfiling u => ?_, h.quiet⟩
  · rcases List.mem_append.mp hp with hp | hp
    · exact h.shaped p hp
    · exact List.mem_singleton.mp hp ▸ hf
  · have hother : g.row u ≠ f.row v := fun hrow =>
      hrecord ⟨hg.dir_eq hf hrow ▸ hfiling.dir, hf.name⟩
    simp [h.filed g hg hfiling u, List.mem_append, or_and_right, exists_or, hother]

/-- A document or a part of a drawing is written in the same place on both. -/
theorem Mirror.insertNew (hapart : Apart root) (h : Mirror root d s done) (hf : f.Shaped)
    (hfiling : Shelf.IsFiling f)
    (hclear : ∀ p ∈ done, ¬ Clashes f (Path.parts p.1.dir).head?) {path : String}
    (hwrote : Disk.Wrote d (f.job root) (.ok path) e) :
    path = Path.join root (s.insertNew f.dir f.name f.text).1 ∧
      ∃ v, Mirror root e (s.insertNew f.dir f.name f.text).2 (done ++ [(f, v)]) := by
  obtain ⟨v, hpath, hfirst, hlaid⟩ := h.laid.write hapart hf hwrote
  have htaken := h.taken_iff hf hfiling hclear
  have hshelf : (s.insertNew f.dir f.name f.text).1 = f.path v :=
    (s.firstFree_insertNew f.dir f.name f.text).eq_candidate (mt (htaken v).mpr hfirst.free)
      fun u hu => (htaken u).mp (hfirst.taken u hu)
  have hpaths : (s.insertNew f.dir f.name f.text).2.paths = s.paths ++ [f.path v] := by
    rw [← hshelf]
    simp [Shelf.paths, Shelf.insertNew]
  refine ⟨by rw [hpath, hshelf], v, hwrote.rootPath.trans h.rootPath,
    hwrote.layout.trans h.layout, hlaid, fun p hp => ?_, fun g hg hgfiling u => ?_, h.quiet⟩
  · rcases List.mem_append.mp hp with hp | hp
    · exact h.shaped p hp
    · exact List.mem_singleton.mp hp ▸ hf
  · rw [hpaths]
    simp [h.filed g hg hgfiling u, List.mem_append, or_and_right, exists_or, hg.path_eq_iff hf]

/-- Documents and parts of drawings one after the other. -/
theorem Mirror.fileAll (hapart : Apart root) (h : Mirror root d s done) {fs : List Filing}
    (hfs : ∀ f ∈ fs, f.Shaped ∧ Shelf.IsFiling f)
    (hclear : ∀ f ∈ fs, (∀ p ∈ done, ¬ Clashes f (Path.parts p.1.dir).head?) ∧
      ∀ g ∈ fs, ¬ Clashes f (Path.parts g.dir).head?) {paths : List String}
    (hok : (d.writeAll (fs.map (Filing.job root))).1 = .ok paths) :
    paths = (s.fileAll fs).1.map (Path.join root) ∧ ∃ more, more.map Prod.fst = fs ∧
      Mirror root (d.writeAll (fs.map (Filing.job root))).2 (s.fileAll fs).2 (done ++ more) := by
  induction fs generalizing d s done paths with
  | nil =>
      obtain rfl := Except.ok.inj hok
      exact ⟨rfl, [], rfl, by rw [List.append_nil]; exact h⟩
  | cons f fs ih =>
      obtain ⟨⟨hf, hfiling⟩, hrest⟩ := List.forall_mem_cons.mp hfs
      have hwrote := d.wrote (f.job root)
      rw [List.map_cons, Disk.writeAll] at hok ⊢
      rcases hanswer : d.writeNew (f.job root).dir (f.job root).name (f.job root).content with
        ⟨fault | path, e⟩ <;> rw [hanswer] at hwrote hok
      · cases hok
      · obtain ⟨hpath, v, hmirror⟩ :=
          h.insertNew hapart hf hfiling (hclear f List.mem_cons_self).1 hwrote
        obtain ⟨paths, hpaths, rfl⟩ := Disk.writeAll_cons_eq_ok hok
        have hcleared : ∀ g ∈ fs, (∀ p ∈ done ++ [(f, v)],
            ¬ Clashes g (Path.parts p.1.dir).head?) ∧
            ∀ g' ∈ fs, ¬ Clashes g (Path.parts g'.dir).head? := by
          intro g hg
          obtain ⟨hdone, hothers⟩ := hclear g (List.mem_cons_of_mem f hg)
          refine ⟨fun p hp => ?_, fun g' hg' => hothers g' (List.mem_cons_of_mem f hg')⟩
          rcases List.mem_append.mp hp with hp | hp
          · exact hdone p hp
          · exact List.mem_singleton.mp hp ▸ hothers f List.mem_cons_self
        obtain ⟨hall, more, hmore, hlast⟩ := ih hmirror hrest hcleared hpaths
        refine ⟨by rw [hpath, hall]; rfl, (f, v) :: more, by rw [List.map_cons, hmore], ?_⟩
        rw [List.append_assoc] at hlast
        exact hlast

def Alike (root : String) (d : Disk) (s : Shelf) (call : Call) : Prop :=
  (Store.perform d call).1 = (Store.perform s call).1.map (List.map (Path.join root))

/-- A shelf that is not told to fail answers the plain path of a checkpoint or a snapshot. -/
theorem Shelf.perform_record (hquiet : s.failCheckpoints = false ∧ s.failSnapshots = false)
    {call : Call} (hf : f ∈ call.records) :
    call.records = [f] ∧ call.filings = [] ∧ (Store.perform s call).1 = .ok [f.path 0] := by
  cases call with
  | checkpoint c =>
      obtain rfl := List.mem_singleton.mp hf
      refine ⟨rfl, rfl, ?_⟩
      change (s.saveCheckpoint c).1.map ([·]) = _
      rw [saveCheckpoint, if_neg (by simp [hquiet.1])]
      rfl
  | snapshot n =>
      obtain rfl := List.mem_singleton.mp hf
      refine ⟨rfl, rfl, ?_⟩
      change (s.saveSnapshot n).1.map ([·]) = _
      rw [saveSnapshot, if_neg (by simp [hquiet.2])]
      simp [Except.map, Filing.path, candidate, pathIn, versioned, Snapshot.path,
        String.append_assoc]
  | document name text => cases hf
  | drawing g => cases hf

theorem Shelf.perform_quiet (s : Shelf) (call : Call) :
    (Store.perform s call).2.failCheckpoints = s.failCheckpoints ∧
      (Store.perform s call).2.failSnapshots = s.failSnapshots := by
  cases call with
  | checkpoint c =>
      change (s.saveCheckpoint c).2.failCheckpoints = _ ∧ (s.saveCheckpoint c).2.failSnapshots = _
      unfold saveCheckpoint
      split <;> exact ⟨rfl, rfl⟩
  | snapshot n =>
      change (s.saveSnapshot n).2.failCheckpoints = _ ∧ (s.saveSnapshot n).2.failSnapshots = _
      unfold saveSnapshot
      split <;> exact ⟨rfl, rfl⟩
  | document name text => exact ⟨rfl, rfl⟩
  | drawing g =>
      change (s.saveDrawing g).2.failCheckpoints = _ ∧ (s.saveDrawing g).2.failSnapshots = _
      unfold saveDrawing
      cases g.fragments <;> exact ⟨rfl, rfl⟩

/-- Documents and drawings are answered alike; checkpoints and snapshots have a number on disk. -/
theorem Mirror.perform (hapart : Apart root) (h : Mirror root d s done) {call : Call}
    (hclear : ∀ f ∈ call.filings, (∀ p ∈ done, ¬ Clashes f (Path.parts p.1.dir).head?) ∧
      ∀ g ∈ call.filings, ¬ Clashes f (Path.parts g.dir).head?) {paths : List String}
    (hok : (Store.perform d call).1 = .ok paths) :
    ∃ more, more.map Prod.fst = call.records ++ call.filings ∧
      Mirror root (Store.perform d call).2 (Store.perform s call).2 (done ++ more) ∧
      (call.records = [] → Alike root d s call) ∧
      ∀ f ∈ call.records, ∃ v, more = [(f, v)] ∧ paths = [Path.join root (f.path v)] ∧
        FirstUntaken done f v ∧ (Store.perform s call).1 = .ok [f.path 0] := by
  have hfiles := s.perform_files call
  have hquiet := s.perform_quiet call
  rw [h.quiet.1, h.quiet.2] at hquiet
  have hdisk := d.perform_jobs h.layout call
  rw [h.rootPath] at hdisk
  cases hrecords : call.records with
  | nil =>
      rw [hrecords, List.nil_append] at hdisk
      rw [hdisk] at hok ⊢
      have hfilings (f : Filing) (hf : f ∈ call.filings) : f.Shaped ∧ Shelf.IsFiling f :=
        ⟨(Call.shaped (List.mem_append_right _ hf)).1, Shelf.isFiling_of_mem hf⟩
      obtain ⟨hpaths, more, hmore, hmirror⟩ := h.fileAll hapart hfilings hclear hok
      refine ⟨more, hmore, hmirror.of_files hfiles hquiet, fun _ => ?_, by simp⟩
      have hsome : call.filings ≠ [] := by
        cases call <;> simp [Call.records, Call.filings] at hrecords ⊢
      rw [Alike, hdisk, hok, s.perform_answer call hsome, hpaths]
      rfl
  | cons f rest =>
      have hf : f ∈ call.records := hrecords ▸ List.mem_cons_self
      obtain ⟨hone, hnone, hanswer⟩ := Shelf.perform_record h.quiet hf
      have hwrote := d.wrote (f.job root)
      rw [hone, hnone, List.append_nil, List.map_singleton, Disk.writeAll_one] at hdisk
      rw [hdisk] at hok ⊢
      rw [hnone] at hfiles ⊢
      obtain ⟨path, hpath, rfl⟩ : ∃ path,
          (d.writeNew (f.job root).dir (f.job root).name (f.job root).content).1 = .ok path ∧
            [path] = paths := by
        cases hwritten :
            (d.writeNew (f.job root).dir (f.job root).name (f.job root).content).1 with
        | error fault => simp [hwritten, Except.map] at hok
        | ok path => exact ⟨path, rfl, by simpa [hwritten, Except.map] using hok⟩
      rw [hpath] at hwrote
      obtain ⟨v, hnumber, hfirst, hmirror⟩ := h.record hapart
        (Call.shaped (List.mem_append_left _ hf)).1 (Call.not_isFiling hf) hwrote
      obtain ⟨-, rfl⟩ := List.cons.inj (hrecords.symm.trans hone)
      refine ⟨[(f, v)], rfl, hmirror.of_files hfiles hquiet, by simp, fun g hg => ?_⟩
      obtain rfl := List.mem_singleton.mp hg
      exact ⟨v, rfl, by rw [hnumber], hfirst, hanswer⟩

/-! ## Calls one after the other -/

def Single (calls : List Call) : Prop :=
  ((calls.flatMap Call.records).map (Filing.path · 0)).Nodup

def Unmistaken (calls : List Call) : Prop :=
  ∀ name text, Call.document name text ∈ calls → ∀ call ∈ calls,
    call.top? ≠ some (sanitize name)

theorem Call.of_clash {call : Call} {top : Option String} (hf : f ∈ call.filings)
    (h : Clashes f top) : ∃ name text, call = .document name text ∧ top = some (sanitize name) := by
  obtain ⟨hdir, htop⟩ := h
  cases call with
  | checkpoint c => cases hf
  | snapshot n => cases hf
  | document name text =>
      obtain rfl := List.mem_singleton.mp hf
      exact ⟨name, text, rfl, htop⟩
  | drawing g =>
      have hhead := (Call.shaped (List.mem_append_right (Call.drawing g).records hf)).2
      rw [hdir] at hhead
      cases hhead

/-- No document to come has the name of a directory that was used. -/
def Spared (done : List (Filing × Nat)) (calls : List Call) : Prop :=
  ∀ p ∈ done, ∀ name text, Call.document name text ∈ calls →
    (Path.parts p.1.dir).head? ≠ some (sanitize name)

/-- No checkpoint and no snapshot to come has a path that was given. -/
def Unused (done : List (Filing × Nat)) (calls : List Call) : Prop :=
  ∀ f ∈ calls.flatMap Call.records, ∀ p ∈ done, f.path 0 ≠ p.1.path p.2

section Later

variable {call : Call} {calls : List Call} {more : List (Filing × Nat)}

@[simp] theorem spared_nil (calls : List Call) : Spared [] calls := by
  simp [Spared]

@[simp] theorem unused_nil (calls : List Call) : Unused [] calls := by
  simp [Unused]

theorem Spared.clear (hdone : Spared done calls) (hnames : Unmistaken calls) (hcall : call ∈ calls) :
    ∀ f ∈ call.filings, (∀ p ∈ done, ¬ Clashes f (Path.parts p.1.dir).head?) ∧
      ∀ g ∈ call.filings, ¬ Clashes f (Path.parts g.dir).head? := by
  refine fun f hf => ⟨fun p hp hclash => ?_, fun g hg hclash => ?_⟩
  · obtain ⟨name, text, rfl, htop⟩ := Call.of_clash hf hclash
    exact hdone p hp name text hcall htop
  · rw [(Call.shaped (List.mem_append_right _ hg)).2] at hclash
    obtain ⟨name, text, rfl, htop⟩ := Call.of_clash hf hclash
    exact hnames name text hcall _ hcall htop

theorem Unmistaken.tail (h : Unmistaken (call :: calls)) : Unmistaken calls :=
  fun name text hname other hother =>
    h name text (List.mem_cons_of_mem _ hname) other (List.mem_cons_of_mem _ hother)

theorem mem_filings (hmore : more.map Prod.fst = call.records ++ call.filings) :
    ∀ p ∈ more, p.1 ∈ call.records ++ call.filings := by
  intro p hp
  rw [← hmore]
  exact List.mem_map_of_mem hp

theorem Spared.later (h : Spared done (call :: calls)) (hnames : Unmistaken (call :: calls))
    (hmore : more.map Prod.fst = call.records ++ call.filings) : Spared (done ++ more) calls := by
  intro p hp name text hname
  rcases List.mem_append.mp hp with hp | hp
  · exact h p hp name text (List.mem_cons_of_mem _ hname)
  · rw [(Call.shaped (mem_filings hmore p hp)).2]
    exact hnames name text (List.mem_cons_of_mem _ hname) call List.mem_cons_self

theorem Single.tail (h : Single (call :: calls)) : Single calls := by
  rw [Single, List.flatMap_cons, List.map_append] at h
  exact (List.nodup_append.mp h).2.1

theorem Single.path_ne (h : Single (call :: calls)) {g : Filing} (hf : f ∈ call.records)
    (hg : g ∈ calls.flatMap Call.records) : f.path 0 ≠ g.path 0 := by
  rw [Single, List.flatMap_cons, List.map_append] at h
  exact (List.nodup_append.mp h).2.2 _ (List.mem_map_of_mem hf) _ (List.mem_map_of_mem hg)

/-- What a call makes takes no path from the checkpoints and snapshots after it, if its own have the
plain paths. -/
theorem Unused.later (h : Unused done (call :: calls)) (hsingle : Single (call :: calls))
    (hmore : more.map Prod.fst = call.records ++ call.filings)
    (hplain : ∀ f ∈ call.records, more = [(f, 0)]) : Unused (done ++ more) calls := by
  intro g hg p hp
  rw [Unused, List.flatMap_cons] at h
  rcases List.mem_append.mp hp with hp | hp
  · exact h g (List.mem_append_right _ hg) p hp
  · rcases List.mem_append.mp (mem_filings hmore p hp) with hrecord | hfiling
    · rw [hplain p.1 hrecord, List.mem_singleton] at hp
      rw [hp]
      exact (hsingle.path_ne hrecord hg).symm
    · obtain ⟨other, -, hg⟩ := List.mem_flatMap.mp hg
      have hshaped := (Call.shaped (List.mem_append_left other.filings hg)).1
      have howned := (Call.shaped (mem_filings hmore p hp)).1
      refine fun hpath => Call.not_isFiling hg ⟨?_, hshaped.name⟩
      rw [hshaped.dir_eq howned ((hshaped.path_eq_iff howned).mp hpath)]
      exact (Shelf.isFiling_of_mem hfiling).dir

end Later

/-- A checkpoint or a snapshot whose path was not given yet is not in the way of anything. -/
theorem Mirror.untaken (h : Mirror root d s done) {call : Call} (hf : f ∈ call.records)
    (hfresh : ∀ p ∈ done, f.path 0 ≠ p.1.path p.2) : ¬ Taken done (f.row 0) := by
  obtain ⟨hshaped, htop⟩ := Call.shaped (List.mem_append_left call.filings hf)
  rintro ⟨p, hp, hrow | hbegins⟩
  · exact hfresh p hp ((hshaped.path_eq_iff (h.shaped p hp)).mpr hrow)
  · rw [(hshaped.dir.not_prefix (h.shaped p hp).dir hbegins).1] at htop
    cases call <;> simp [Call.records, Call.top?] at hf htop

/-- Documents and drawings are always answered alike, and the rest while no path comes twice. -/
theorem Mirror.alike (hapart : Apart root) (h : Mirror root d s done) {calls : List Call}
    (hnames : Unmistaken calls) (hdone : Spared done calls)
    (hok : ∀ a ∈ (Store.performAll d calls).1, ∃ paths, a = .ok paths) :
    (∀ front call back, calls = front ++ call :: back → call.records = [] →
      Alike root (Store.performAll d front).2 (Store.performAll s front).2 call) ∧
    (Single calls → Unused done calls → (Store.performAll d calls).1 =
      (Store.performAll s calls).1.map (Except.map (List.map (Path.join root)))) := by
  induction calls generalizing d s done with
  | nil => exact ⟨fun front call back hsplit => by simp at hsplit, fun _ _ => rfl⟩
  | cons call calls ih =>
      obtain ⟨⟨paths, hpaths⟩, hrest⟩ := List.forall_mem_cons.mp hok
      obtain ⟨more, hmore, hmirror, halike, hrecord⟩ :=
        h.perform hapart (hdone.clear hnames List.mem_cons_self) hpaths
      obtain ⟨hdocuments, hall⟩ := ih hmirror hnames.tail (hdone.later hnames hmore) hrest
      refine ⟨fun front other back hsplit hnone => ?_, fun hsingle hfresh => ?_⟩
      · cases front with
        | nil =>
            obtain ⟨rfl, rfl⟩ := List.cons.inj hsplit
            exact halike hnone
        | cons first front =>
            obtain ⟨rfl, hback⟩ := List.cons.inj hsplit
            exact hdocuments front other back hback hnone
      · have hplain (f : Filing) (hf : f ∈ call.records) : more = [(f, 0)] ∧ Alike root d s call := by
          obtain ⟨v, hone, hanswer, hfirst, hshelf⟩ := hrecord f hf
          have hunused := hfresh f (List.mem_flatMap.mpr ⟨call, List.mem_cons_self, hf⟩)
          obtain rfl := hfirst.eq_zero (h.untaken hf hunused)
          refine ⟨hone, ?_⟩
          rw [Alike, hpaths, hanswer, hshelf]
          rfl
        have hfirst : Alike root d s call := by
          cases hrecords : call.records with
          | nil => exact halike hrecords
          | cons f rest => exact (hplain f (hrecords ▸ List.mem_cons_self)).2
        have hlater := hfresh.later hsingle hmore fun f hf => (hplain f hf).1
        exact List.cons_eq_cons.mpr ⟨hfirst, hall hsingle.tail hlater⟩

/-! ## What alike answers tell -/

/-- A shelf answers the plain paths of checkpoints and snapshots. -/
theorem Shelf.plain_sublist (hquiet : s.failCheckpoints = false ∧ s.failSnapshots = false)
    (calls : List Call) : ((calls.flatMap Call.records).map (Filing.path · 0)).Sublist
      ((Store.performAll s calls).1.flatMap pathsOf) := by
  induction calls generalizing s with
  | nil => exact .slnil
  | cons call calls ih =>
      have hrest := s.perform_quiet call
      rw [hquiet.1, hquiet.2] at hrest
      rw [List.flatMap_cons, List.map_append]
      refine List.Sublist.append ?_ (ih hrest)
      cases hrecords : call.records with
      | nil => exact List.nil_sublist _
      | cons f rest =>
          obtain ⟨hone, -, hanswer⟩ := perform_record hquiet (hrecords ▸ List.mem_cons_self : f ∈ call.records)
          rw [← hrecords, hone, hanswer]
          exact List.Sublist.refl _

theorem Shelf.paths_perform (s : Shelf) (call : Call) :
    (Store.perform s call).2.paths = s.paths ++ (s.fileAll call.filings).1 := by
  rw [paths, s.perform_files call, files_fileAll, List.map_append, List.map_map]
  congr 1
  exact List.map_snd_zip (Nat.le_of_eq (s.length_fileAll call.filings))

/-- One of the documents of a name has it for a path. -/
theorem Shelf.title_mem (s : Shelf) {calls : List Call} {name text : String}
    (hmem : Call.document name text ∈ calls) :
    sanitize name ∈ s.paths ∨
      sanitize name ∈ (Store.performAll s calls).1.flatMap pathsOf := by
  induction calls generalizing s with
  | nil => cases hmem
  | cons call calls ih =>
      rw [Store.performAll, List.flatMap_cons, List.mem_append]
      rcases List.mem_cons.mp hmem with rfl | hmem
      · obtain ⟨v, hpath, -, htaken⟩ := s.firstFree_insertNew "" (sanitize name) text
        by_cases hv : v = 0
        · subst hv
          exact .inr (.inl (List.mem_singleton.mpr hpath.symm))
        · exact .inl (htaken 0 (Nat.pos_of_ne_zero hv))
      · rcases ih (Store.perform s call).2 hmem with hthere | hlater
        · rw [s.paths_perform call, List.mem_append] at hthere
          rcases hthere with hthere | hthere
          · exact .inl hthere
          · refine .inr (.inl ?_)
            by_cases hnone : call.filings = []
            · rw [hnone] at hthere
              cases hthere
            · rw [s.perform_answer call hnone]
              exact hthere
        · exact .inr (.inr hlater)

/-- The paths of answers that are alike. -/
theorem flatMap_pathsOf {answers : List (Except Fault (List String))} :
    (answers.map (Except.map (List.map (Path.join root)))).flatMap pathsOf =
      (answers.flatMap pathsOf).map (Path.join root) := by
  induction answers with
  | nil => rfl
  | cons answer answers ih =>
      rw [List.map_cons, List.flatMap_cons, List.flatMap_cons, List.map_append, ih]
      cases answer <;> rfl

/-- The files of calls are made below the root, and a shelf gives the same paths. -/
structure Matched (root : String) (t : FileTree) (s : Shelf) (calls : List Call)
    (done : List (Filing × Nat)) : Prop where
  laid : Laid root t done
  files : done.map Prod.fst = calls.flatMap fun call => call.records ++ call.filings
  paths : ((Store.performAll s calls).1.flatMap pathsOf).map (Path.join root) =
    done.map fun p => Path.join root (p.1.path p.2)

theorem Matched.shaped {calls : List Call} (h : Matched root t s calls done) :
    ∀ p ∈ done, p.1.Shaped := by
  intro p hp
  have hmem := List.mem_map_of_mem (f := Prod.fst) hp
  rw [h.files] at hmem
  obtain ⟨call, -, hcall⟩ := List.mem_flatMap.mp hmem
  exact (Call.shaped hcall).1

theorem Matched.single {calls : List Call} (h : Matched root t s calls done)
    (hquiet : s.failCheckpoints = false ∧ s.failSnapshots = false) : Single calls := by
  have hnodup := h.laid.nodup_paths h.shaped
  rw [← h.paths] at hnodup
  exact (List.Nodup.of_map _ hnodup).sublist (Shelf.plain_sublist hquiet calls)

/-- Where a document has its own name for a path, there is no directory. -/
theorem Matched.unmistaken {calls : List Call} (h : Matched root t s calls done)
    (hempty : s.files = []) : Unmistaken calls := by
  intro name text hname call hcall htop
  have hsafe := isName_sanitize name
  have hmem : sanitize name ∈ (Store.performAll s calls).1.flatMap pathsOf :=
    (s.title_mem hname).resolve_left (by simp [Shelf.paths, hempty])
  have hjoined := List.mem_map_of_mem (f := Path.join root) hmem
  rw [h.paths] at hjoined
  obtain ⟨p, hp, hpath⟩ := List.mem_map.mp hjoined
  have hshaped := h.shaped p hp
  have hrow : p.1.row p.2 = [sanitize name] := by
    rw [← hshaped.parts_path, Path.join_injective (hshaped.relative p.2)
      (Path.isAbsolute_of_isName hsafe) hpath, Path.parts_of_isName hsafe]
  obtain ⟨content, hfile⟩ := h.laid.file p hp
  obtain ⟨f, hf⟩ : ∃ f, f ∈ call.records ++ call.filings := by
    cases call with
    | checkpoint c => exact ⟨_, List.mem_cons_self⟩
    | snapshot n => exact ⟨_, List.mem_cons_self⟩
    | document name text => cases htop
    | drawing g => exact ⟨_, List.mem_cons_self⟩
  have hdone : f ∈ done.map Prod.fst := by
    rw [h.files]
    exact List.mem_flatMap.mpr ⟨call, hcall, hf⟩
  obtain ⟨q, hq, rfl⟩ := List.mem_map.mp hdone
  have hhead := (Call.shaped hf).2.trans htop
  have hbegins : [sanitize name] <+: Path.parts q.1.dir := by
    obtain ⟨rest, hrest⟩ := List.head?_eq_some_iff.mp hhead
    exact ⟨rest, hrest.symm⟩
  have hdirectory := h.laid.directory q hq _ hbegins
  rw [← hrow, hfile] at hdirectory
  cases hdirectory

/-- A shelf gives the paths of a disk exactly if no path comes twice where it does not number them, and
no document has the name of a directory. -/
theorem shelf_mirrors_disk (hfresh : d.Fresh) (hlayout : d.layout = {}) (hempty : s.files = [])
    (hquiet : s.failCheckpoints = false ∧ s.failSnapshots = false) {calls : List Call}
    (hok : ∀ a ∈ (Store.performAll d calls).1, ∃ paths, a = .ok paths) :
    ((Store.performAll d calls).1 =
        (Store.performAll s calls).1.map (Except.map (List.map (Path.join d.rootPath))) ↔
      Single calls ∧ Unmistaken calls) ∧
    (Unmistaken calls → ∀ front call back, calls = front ++ call :: back → call.records = [] →
      Alike d.rootPath (Store.performAll d front).2 (Store.performAll s front).2 call) := by
  obtain ⟨hapart, hlaid⟩ := hfresh.start
  have hmirror : Mirror d.rootPath d s [] :=
    ⟨rfl, hlayout, hlaid, by simp, by simp [Shelf.paths, hempty], hquiet⟩
  refine ⟨⟨fun heq => ?_, fun hnamed => ?_⟩, fun hnames => ?_⟩
  · obtain ⟨done, hdone, hpaths, hlast⟩ := hlaid.performAll hapart hlayout hok
    rw [List.nil_append] at hlast
    rw [heq, flatMap_pathsOf] at hpaths
    have hmatched : Matched d.rootPath _ s calls done := ⟨hlast, hdone, hpaths⟩
    exact ⟨hmatched.single hquiet, hmatched.unmistaken hempty⟩
  · obtain ⟨hsingle, hnames⟩ := hnamed
    exact (hmirror.alike hapart hnames (by simp) hok).2 hsingle (by simp)
  · exact (hmirror.alike hapart hnames (by simp) hok).1

/-- One checkpoint on an empty disk, and then the same again. -/
theorem shelf_mirrors_disk_small :
    let c : Checkpoint := ⟨⟨List.replicate 32 '0'⟩, ⟨0, 0⟩, "save", "IDLE", none, none, none, {},
      [], [], {}⟩
    let d : Disk := ⟨"", {}, {}⟩
    let s : Shelf := {}
    d.Fresh ∧
      (Store.performAll d [.checkpoint c]).1 =
        (Store.performAll s [.checkpoint c]).1.map (Except.map (List.map (Path.join ""))) ∧
      (Store.performAll d [.checkpoint c, .checkpoint c]).1 ≠
        (Store.performAll s [.checkpoint c, .checkpoint c]).1.map
          (Except.map (List.map (Path.join ""))) := by
  intro c d s
  obtain ⟨t, u, hfirst, hsecond, -, -⟩ :=
    Disk.saveCheckpoint_twice (c := c) (by decide) (by decide)
  have hone : ∀ a ∈ (Store.performAll d [.checkpoint c]).1, ∃ paths, a = .ok paths := by
    simp [Store.performAll, Store.perform, Store.saveCheckpoint, d, hfirst, Except.map]
  have htwo : ∀ a ∈ (Store.performAll d [.checkpoint c, .checkpoint c]).1,
      ∃ paths, a = .ok paths := by
    simp [Store.performAll, Store.perform, Store.saveCheckpoint, d, hfirst, hsecond, Except.map]
  refine ⟨Disk.fresh_empty, (shelf_mirrors_disk Disk.fresh_empty rfl rfl ⟨rfl, rfl⟩ hone).1.mpr ?_,
    fun heq => ?_⟩
  · exact ⟨by simp [Single, Call.records], by simp [Unmistaken]⟩
  · have hsingle :=
      ((shelf_mirrors_disk Disk.fresh_empty rfl rfl ⟨rfl, rfl⟩ htwo).1.mp heq).1
    simp [Single, Call.records] at hsingle

/-- The second of two equal checkpoints has a number on disk and none on a shelf. -/
theorem shelf_repeats_path :
    let c : Checkpoint := ⟨⟨List.replicate 32 '0'⟩, ⟨0, 0⟩, "save", "IDLE", none, none, none, {},
      [], [], {}⟩
    let calls := [Call.checkpoint c, .checkpoint c]
    (Store.performAll (⟨"", {}, {}⟩ : Disk) calls).1 =
        [.ok ["checkpoints/19700101_000000_000000_save_pipeline.json"],
          .ok ["checkpoints/19700101_000000_000000_save_pipeline_1.json"]] ∧
      (Store.performAll ({} : Shelf) calls).1 =
        [.ok ["checkpoints/19700101_000000_000000_save_pipeline.json"],
          .ok ["checkpoints/19700101_000000_000000_save_pipeline.json"]] := by
  intro c calls
  obtain ⟨t, u, hfirst, hsecond, -, -⟩ :=
    Disk.saveCheckpoint_twice (c := c) (by decide) (by decide)
  refine ⟨?_, by decide⟩
  simp only [calls, Store.performAll, Store.perform, Store.saveCheckpoint, hfirst, hsecond,
    Except.map]
  decide

end Scriptorium.Archive
