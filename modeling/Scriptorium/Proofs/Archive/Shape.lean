import Scriptorium.Proofs.Archive.Filing
import Scriptorium.Proofs.Archive.Writing

/-! # Where the files of calls lie

Each call makes its files in one directory below the root, and the parts of that are known. So a file on
disk and one on a shelf are compared by the parts of their paths.
-/

namespace Scriptorium.Archive

/-! ## Directories -/

/-- The files that a call makes on disk but not on a shelf. -/
def Call.records : Call → List Filing
  | .checkpoint c => [⟨"checkpoints", c.fileName, c.text⟩]
  | .snapshot n => [⟨"sections" ++ "/" ++ n.directory, n.fileName, n.content⟩]
  | .document _ _ => []
  | .drawing _ => []

/-- The directory below the root in which a call makes its files. -/
def Call.top? : Call → Option String
  | .checkpoint _ => some "checkpoints"
  | .snapshot _ => some "sections"
  | .document _ _ => none
  | .drawing _ => some "diagrams"

/-- The directories below the root with their parts. -/
inductive Shape : String → List String → Prop where
  | root : Shape "" []
  | checkpoints : Shape "checkpoints" ["checkpoints"]
  | diagrams : Shape "diagrams" ["diagrams"]
  | sections {name : String} (h : IsName name) :
    Shape ("sections" ++ "/" ++ name) ["sections", name]

namespace Shape

variable {dir dir' : String} {names names' : List String}

theorem parts_eq (h : Shape dir names) : Path.parts dir = names := by
  cases h with
  | root => rfl
  | checkpoints => decide
  | diagrams => decide
  | sections h =>
      rw [Path.parts_append_slash, Path.parts_of_isName h]
      rfl

theorem inner (h : Shape dir names) : dir = "" ∨ Path.Inner dir := by
  cases h with
  | root => exact .inl rfl
  | checkpoints => exact .inr ⟨by decide, by decide, by decide⟩
  | diagrams => exact .inr ⟨by decide, by decide, by decide⟩
  | sections h =>
      have hsections : Path.Inner "sections" := ⟨by decide, by decide, by decide⟩
      exact .inr (hsections.append (Path.inner_of_isName h))

theorem settled (h : Shape dir names) : ∀ name ∈ names, name ≠ "." ∧ name ≠ ".." := by
  cases h with
  | root => simp
  | checkpoints => decide
  | diagrams => decide
  | sections h => simp [h.here, h.above]

theorem eq_intercalate (h : Shape dir names) : dir = "/".intercalate names := by
  cases h with
  | root => rfl
  | checkpoints => simp
  | diagrams => simp
  | sections h => simp

/-- No file lies where a directory is, but in the root. -/
theorem not_prefix (h : Shape dir names) (h' : Shape dir' names') {name : String}
    (hbegins : names ++ [name] <+: names') : names = [] ∧ names'.head? = some name := by
  cases h <;> cases h' <;> simp_all [List.cons_prefix_cons]

theorem head?_plain (h : Shape dir names) {name : String} (hname : names.head? = some name) :
    '_' ∉ name.toList := by
  cases h <;> simp_all <;> subst hname <;> decide

end Shape

/-! ## Files -/

namespace Filing

def path (f : Filing) (v : Nat) : String := Shelf.candidate f.dir f.name v

def row (f : Filing) (v : Nat) : List String := Path.parts f.dir ++ [versioned f.name v]

def job (root : String) (f : Filing) : Job :=
  ⟨if f.dir = "" then root else Path.join root f.dir, f.name, f.text.toUTF8⟩

/-- A file whose directory is known. -/
structure Shaped (f : Filing) : Prop where
  name : IsName f.name
  dir : Shape f.dir (Path.parts f.dir)

variable {f g : Filing} {root : String}

theorem shaped (hname : IsName f.name) {names : List String} (h : Shape f.dir names) : f.Shaped :=
  ⟨hname, h.parts_eq.symm ▸ h⟩

theorem Shaped.relative (h : f.Shaped) (v : Nat) : Path.isAbsolute (f.path v) = false := by
  have hname := Path.inner_of_isName (h.name.versioned v)
  unfold path Shelf.candidate Shelf.pathIn
  rcases h.dir.inner with hdir | hdir
  · rw [if_pos hdir]
    exact hname.relative
  · rw [if_neg hdir.nonempty]
    exact (hdir.append hname).relative

theorem Shaped.parts_path (h : f.Shaped) (v : Nat) : Path.parts (f.path v) = f.row v := by
  unfold path Shelf.candidate Shelf.pathIn row
  split
  · rename_i hdir
    rw [hdir, Path.parts_of_isName (h.name.versioned v)]
    rfl
  · rw [Path.parts_append_slash, Path.parts_of_isName (h.name.versioned v)]

theorem Shaped.job_path (h : f.Shaped) (v : Nat) :
    (f.job root).path v = Path.join root (f.path v) := by
  unfold Job.path job path Shelf.candidate Shelf.pathIn
  rcases h.dir.inner with hdir | hdir
  · simp only [if_pos hdir]
  · simp only [if_neg hdir.nonempty]
    exact Path.join_join hdir (h.name.versioned v) root

theorem Shaped.parts_dir (h : f.Shaped) :
    Path.parts (f.job root).dir = Path.parts root ++ Path.parts f.dir := by
  unfold job
  rcases h.dir.inner with hdir | hdir
  · simp [hdir, show Path.parts "" = [] from rfl]
  · simp only [if_neg hdir.nonempty]
    rw [Path.join_eq hdir.relative, Path.parts_lead]

theorem Shaped.settled (h : f.Shaped) (v : Nat) :
    ∀ name ∈ f.row v, name ≠ "." ∧ name ≠ ".." := by
  have hname := h.name.versioned v
  simp only [row, List.mem_append, List.mem_singleton]
  rintro name (hmem | rfl)
  · exact h.dir.settled name hmem
  · exact ⟨hname.here, hname.above⟩

theorem Shaped.exists_row (h : f.Shaped) (v : Nat) :
    ∃ name rest, f.row v = name :: rest ∧ name ≠ ".." := by
  cases hrow : f.row v with
  | nil => simp [row] at hrow
  | cons name rest => exact ⟨name, rest, rfl, (h.settled v name (by simp [hrow])).2⟩

theorem Shaped.settle_parts (h : f.Shaped) {names : List String}
    (hbegins : names <+: Path.parts f.dir) :
    FileTree.settle (Path.parts root ++ names) = place root ++ names :=
  FileTree.settle_append fun name hname => h.dir.settled name (hbegins.subset hname)

theorem Shaped.place_path (h : f.Shaped) (v : Nat) :
    place (Path.join root (f.path v)) = place root ++ f.row v := by
  rw [place, Path.join_eq (h.relative v), Path.parts_lead, h.parts_path,
    FileTree.settle_append (h.settled v)]
  rfl

theorem Shaped.row_eq (h : f.Shaped) {u v : Nat}
    (hpath : Path.join root (f.path u) = Path.join root (f.path v)) : f.row u = f.row v := by
  have hplace := congrArg place hpath
  rw [h.place_path, h.place_path] at hplace
  exact List.append_cancel_left hplace

theorem row_injective (f : Filing) : Function.Injective f.row := fun u v h =>
  versioned_injective f.name (by simpa [row] using h)

theorem Shaped.dir_eq (hf : f.Shaped) (hg : g.Shaped) {u v : Nat} (h : f.row u = g.row v) :
    f.dir = g.dir := by
  have hparts := (List.append_inj' h rfl).1
  rw [hf.dir.eq_intercalate, hg.dir.eq_intercalate, hparts]

/-- Files in the same place have the same path. -/
theorem Shaped.path_eq_iff (hf : f.Shaped) (hg : g.Shaped) {u v : Nat} :
    f.path u = g.path v ↔ f.row u = g.row v := by
  constructor
  · intro h
    rw [← hf.parts_path, ← hg.parts_path, h]
  · intro h
    have hname := List.singleton_inj.mp (List.append_inj' h rfl).2
    rw [path, path, Shelf.candidate, Shelf.candidate, hf.dir_eq hg h, hname]

end Filing

/-! ## Calls -/

/-- Every file that a call makes is in the directory of the call. -/
theorem Call.shaped {call : Call} {f : Filing} (h : f ∈ call.records ++ call.filings) :
    f.Shaped ∧ (Path.parts f.dir).head? = call.top? := by
  have hshape : IsName f.name ∧ ∃ names, Shape f.dir names ∧ names.head? = call.top? := by
    rcases List.mem_append.mp h with h | h
    · cases call with
      | checkpoint c =>
          obtain rfl := List.mem_singleton.mp h
          exact ⟨isName_checkpoint c, _, .checkpoints, rfl⟩
      | snapshot n =>
          obtain rfl := List.mem_singleton.mp h
          exact ⟨isName_snapshot n, _, .sections (isName_sanitize n.component), rfl⟩
      | document name text => cases h
      | drawing g => cases h
    · refine ⟨(Shelf.isFiling_of_mem h).name, ?_⟩
      cases call with
      | checkpoint c => cases h
      | snapshot n => cases h
      | document name text =>
          obtain rfl := List.mem_singleton.mp h
          exact ⟨_, .root, rfl⟩
      | drawing g =>
          have hdir : f.dir = "diagrams" := by
            simp only [Call.filings, List.mem_append, List.mem_cons, List.not_mem_nil, or_false,
              List.mem_map] at h
            rcases h with (rfl | rfl) | ⟨text, -, rfl⟩ <;> rfl
          rw [hdir]
          exact ⟨_, .diagrams, rfl⟩
  obtain ⟨hname, names, hdir, htop⟩ := hshape
  exact ⟨Filing.shaped hname hdir, by rw [hdir.parts_eq, htop]⟩

/-- A checkpoint or a snapshot is in no directory of a shelf. -/
theorem Call.not_isFiling {call : Call} {f : Filing} (h : f ∈ call.records) :
    ¬ Shelf.IsFiling f := by
  intro hfiling
  obtain ⟨hshaped, htop⟩ := shaped (List.mem_append_left call.filings h)
  have hhead : (Path.parts f.dir).head? = none ∨ (Path.parts f.dir).head? = some "diagrams" := by
    rcases hfiling.dir with hdir | hdir
    · exact .inl (by rw [hdir]; rfl)
    · exact .inr (by rw [hdir]; decide)
  cases call with
  | checkpoint c => simp [htop, top?] at hhead
  | snapshot n => simp [htop, top?] at hhead
  | document name text => cases h
  | drawing g => cases h

theorem Call.jobs_eq (d : Disk) (hlayout : d.layout = {}) (call : Call) :
    call.jobs d = (call.records ++ call.filings).map (Filing.job d.rootPath) := by
  have hsections : Path.Inner "sections" := ⟨by decide, by decide, by decide⟩
  cases call with
  | checkpoint c => simp [Call.jobs, records, filings, Filing.job, Disk.checkpointDir, hlayout]
  | snapshot n =>
      simp [Call.jobs, records, filings, Filing.job, Disk.sectionDir, hlayout,
        Path.join_join hsections (isName_sanitize n.component), Snapshot.directory]
  | document name text => simp [Call.jobs, records, filings, Filing.job]
  | drawing g =>
      simp [Call.jobs, records, filings, Filing.job, Disk.diagramDir, hlayout, Function.comp_def]

theorem Disk.perform_jobs (d : Disk) (hlayout : d.layout = {}) (call : Call) :
    Store.perform d call =
      d.writeAll ((call.records ++ call.filings).map (Filing.job d.rootPath)) := by
  rw [Disk.perform_eq, call.jobs_eq d hlayout]

end Scriptorium.Archive
