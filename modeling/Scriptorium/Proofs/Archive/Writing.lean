import Scriptorium.Proofs.Archive.Call
import Scriptorium.Proofs.Archive.FileTree

/-! # Writes one after the other

A write that succeeds makes one file where nothing was, under the first numbered form of the name that
is free once the directory is there; one that fails makes no file.
-/

namespace Scriptorium.Archive

def place (path : String) : List String := FileTree.settle (Path.parts path)

theorem place_join {name : String} (h : IsName name) (dir : String) :
    place (Path.join dir name) = place dir ++ [name] := by
  rw [place, Path.parts_join h, FileTree.settle_append (by simp [h.here, h.above])]
  rfl

variable {t u : FileTree} {dir name path : String} {content : ByteArray} {d : Disk}

/-! ## Directories that are there -/

/-- The directory with everything above it is there. -/
structure Open (dir : String) (t : FileTree) : Prop where
  walk : t.walk [] (Path.parts dir) = .ok (place dir)
  get? : t.get? (place dir) = some .directory

theorem Open.way (h : Open dir t) {front : List String} (hfront : front <+: Path.parts dir) :
    t.get? (FileTree.settle front) = some .directory := by
  by_cases hwhole : front = Path.parts dir
  · rw [hwhole]
    exact h.get?
  · exact FileTree.get?_of_walk h.walk hfront hwhole

/-- A walk to a name in a directory goes through the directory. -/
theorem open_of_walk {path : List String} (hname : IsName name)
    (hwalk : t.walk [] (Path.parts (Path.join dir name)) = .ok path) : Open dir t := by
  rw [Path.parts_join hname] at hwalk
  refine ⟨?_, FileTree.get?_of_walk hwalk (List.prefix_append _ _) (by simp)⟩
  rw [FileTree.walk_append] at hwalk
  cases hdir : t.walk [] (Path.parts dir) with
  | error e => rw [hdir] at hwalk; cases hwalk
  | ok reached => rw [FileTree.walk_eq_ok hdir]; rfl

theorem Open.within (h : Open dir t) (hwithin : FileTree.Within t u) : Open dir u :=
  ⟨FileTree.walk_of_directories (fun q => hwithin q .directory) h.walk, hwithin _ _ h.get?⟩

theorem Open.entries (h : Open dir t) : ∃ names, t.entries (Path.parts dir) = .ok names := by
  simp only [FileTree.entries, h.walk, h.get?, bind, Except.bind]
  exact ⟨_, rfl⟩

/-- A name in a directory that is there is reached, unless it is too long. -/
theorem Open.walk_join (h : Open dir t) (hname : IsName name)
    (hshort : FileTree.tooLong name = false) :
    t.walk [] (Path.parts (Path.join dir name)) = .ok (place (Path.join dir name)) := by
  rw [place_join hname, Path.parts_join hname, FileTree.walk_append, h.walk, Except.bind,
    FileTree.walk_cons, h.get?]
  simp [hshort, FileTree.walk, FileTree.step, hname.here, hname.above]

/-- A directory that is there need not be made. -/
theorem Open.makeAll (h : Open dir t) : t.makeAll (Path.parts dir).reverse = (t, .ok ()) := by
  have hthere : t.isDirectory (Path.parts dir) = true := by
    simp [FileTree.isDirectory, h.walk, h.get?]
  have hexists : t.makeDirectory (Path.parts dir) = .error .exists_ := by
    simp [FileTree.makeDirectory, h.walk, h.get?, bind, Except.bind]
  cases hparts : (Path.parts dir).reverse with
  | nil => rw [FileTree.makeAll]
  | cons last rest =>
      have hreverse : (last :: rest).reverse = Path.parts dir := by
        rw [← hparts, List.reverse_reverse]
      rw [FileTree.makeAll_cons_of_not_missing (by simp [hreverse, hexists]), hreverse]
      simp [FileTree.furnish, hexists, hthere]

/-- A directory that was made is there. -/
theorem open_of_makeAll (h : t.makeAll (Path.parts dir).reverse = (u, .ok ())) : Open dir u := by
  have hfurnish {t : FileTree} (h : t.furnish (Path.parts dir) = (u, .ok ())) : Open dir u := by
    unfold FileTree.furnish at h
    split at h
    · rename_i v hmade
      obtain ⟨rfl, -⟩ := Prod.mk.inj h
      obtain ⟨hfree, rfl, hwalk⟩ := FileTree.makeDirectory_eq_ok hmade
      have hwithin := FileTree.within_set hfree .directory
      exact ⟨FileTree.walk_of_directories (fun q => hwithin q .directory) hwalk,
        FileTree.get?_set_self (by simp [hfree]) _⟩
    · obtain ⟨rfl, hanswer⟩ := Prod.mk.inj h
      split at hanswer
      · rename_i hdirectory
        unfold FileTree.isDirectory at hdirectory
        split at hdirectory
        · rename_i path hwalk
          obtain rfl := FileTree.walk_eq_ok hwalk
          exact ⟨hwalk, beq_iff_eq.mp hdirectory⟩
        · cases hdirectory
      · cases hanswer
  cases hparts : (Path.parts dir).reverse with
  | nil =>
      have hempty : Path.parts dir = [] := List.reverse_eq_nil_iff.mp hparts
      exact ⟨by rw [place, hempty]; rfl, by rw [place, hempty]; rfl⟩
  | cons last rest =>
      have hreverse : (last :: rest).reverse = Path.parts dir := by
        rw [← hparts, List.reverse_reverse]
      rw [hparts] at h
      by_cases hmissing : t.makeDirectory (last :: rest).reverse = .error .notFound
      · rw [FileTree.makeAll_cons_of_missing hmissing, hreverse] at h
        split at h
        · exact hfurnish h
        · cases h
      · rw [FileTree.makeAll_cons_of_not_missing hmissing, hreverse] at h
        exact hfurnish h

/-- A directory in one that is there is made. -/
theorem Open.makeAll_join (h : Open dir t) (hname : IsName name)
    (hshort : FileTree.tooLong name = false) (hfree : t.get? (place (Path.join dir name)) = none) :
    t.makeAll (Path.parts (Path.join dir name)).reverse =
        (t.set (place (Path.join dir name)) .directory, .ok ()) ∧
      Open (Path.join dir name) (t.set (place (Path.join dir name)) .directory) := by
  have hwalk := h.walk_join hname hshort
  have hwithin := FileTree.within_set hfree .directory
  have hmade : t.makeDirectory (Path.parts (Path.join dir name)) =
      .ok (t.set (place (Path.join dir name)) .directory) := by
    simp only [FileTree.makeDirectory, hwalk, hfree, bind, Except.bind]
    rfl
  refine ⟨?_, FileTree.walk_of_directories (fun q => hwithin q .directory) hwalk,
    FileTree.get?_set_self (by simp [hfree]) _⟩
  cases hparts : (Path.parts (Path.join dir name)).reverse with
  | nil => simp [Path.parts_join hname] at hparts
  | cons last rest =>
      have hreverse : (last :: rest).reverse = Path.parts (Path.join dir name) := by
        rw [← hparts, List.reverse_reverse]
      rw [FileTree.makeAll_cons_of_not_missing (by simp [hreverse, hmade]), hreverse]
      simp only [FileTree.furnish, hmade]

/-! ## One write -/

namespace Disk

/-- The first form that is free is taken. -/
theorem createFree_of_free {fuel n v : Nat} (hn : n ≤ v) (hfuel : v < n + fuel)
    (hwalk : ∀ k ≤ v, t.walk [] (Path.parts (Path.join dir (versioned name k))) =
      .ok (place (Path.join dir (versioned name k))))
    (htaken : ∀ k < v, t.get? (place (Path.join dir (versioned name k))) ≠ none)
    (hfree : t.get? (place (Path.join dir (versioned name v))) = none) :
    createFree t dir name content fuel n = .ok (Path.join dir (versioned name v),
      t.set (place (Path.join dir (versioned name v))) (.file content)) := by
  induction fuel generalizing n with
  | zero => omega
  | succ fuel ih =>
      unfold createFree
      by_cases heq : n = v
      · subst heq
        simp only [FileTree.createNew_of_free (hwalk n (Nat.le_refl n)) hfree]
        rfl
      · have hlt : n < v := by omega
        simp only [FileTree.createNew_of_taken (hwalk n hn) (htaken n hlt)]
        exact ih hlt (by omega)

/-- A write into a directory that is there or was just made. -/
theorem writeNew_of_open {v : Nat}
    (hmade : d.tree.makeAll (Path.parts dir).reverse = (t, .ok ())) (hopen : Open dir t)
    (hname : IsName name) (hshort : ∀ k ≤ v, FileTree.tooLong (versioned name k) = false)
    (hv : v < maxVersions)
    (htaken : ∀ k < v, t.get? (place (Path.join dir (versioned name k))) ≠ none)
    (hfree : t.get? (place (Path.join dir (versioned name v))) = none) :
    d.writeNew dir name content = (.ok (Path.join dir (versioned name v)),
      { d with tree := t.set (place (Path.join dir (versioned name v))) (.file content) }) := by
  have hwalk (k : Nat) (hk : k ≤ v) := hopen.walk_join (hname.versioned k) (hshort k hk)
  have hfuel : v < 0 + maxVersions := by omega
  unfold writeNew
  simp only [hmade, createFree_of_free (Nat.zero_le v) hfuel hwalk htaken hfree]

theorem createFree_eq_ok {fuel n : Nat}
    (h : createFree t dir name content fuel n = .ok (path, u)) :
    ∃ v, n ≤ v ∧ path = Path.join dir (versioned name v) ∧ t.get? (place path) = none ∧
      u = t.set (place path) (.file content) ∧ t.walk [] (Path.parts path) = .ok (place path) ∧
      ∀ k, n ≤ k → k < v → t.get? (place (Path.join dir (versioned name k))) ≠ none := by
  induction fuel generalizing n with
  | zero => cases h
  | succ fuel ih =>
      unfold createFree at h
      dsimp only at h
      split at h
      · rename_i v hcreated
        obtain ⟨rfl, rfl⟩ := Prod.mk.inj (Except.ok.inj h)
        obtain ⟨hfree, hset, hwalk⟩ := FileTree.createNew_eq_ok hcreated
        exact ⟨n, Nat.le_refl n, rfl, hfree, hset, hwalk, fun k hn hk => by omega⟩
      · rename_i hexists
        obtain ⟨v, hv, hpath, hfree, hset, hwalk, htaken⟩ := ih h
        refine ⟨v, Nat.le_of_succ_le hv, hpath, hfree, hset, hwalk, fun k hn hk => ?_⟩
        by_cases heq : k = n
        · subst heq
          exact FileTree.createNew_eq_exists hexists
        · exact htaken k (by omega) hk
      · cases h

/-- What a write does to the files, given its answer. -/
structure Wrote (d : Disk) (j : Job) (answer : Except Fault String) (e : Disk) : Prop where
  same : e = { d with tree := e.tree }
  within : FileTree.Within d.tree e.tree
  added : ∀ q node, e.tree.get? q = some node → d.tree.get? q = some node ∨
    (node = .directory ∧ ∃ front, front <+: Path.parts j.dir ∧ q = FileTree.settle front) ∨
    ∃ path, answer = .ok path ∧ q = place path ∧ node = .file j.content
  made : ∀ path, answer = .ok path → d.tree.get? (place path) = none ∧
    e.tree.get? (place path) = some (.file j.content) ∧
    e.tree.walk [] (Path.parts path) = .ok (place path) ∧
    ∃ v, path = j.path v ∧ ∀ k < v, e.tree.get? (place (j.path k)) ≠ none

theorem Wrote.rootPath {j : Job} {answer : Except Fault String} (h : Wrote d j answer e) :
    e.rootPath = d.rootPath := by
  rw [h.same]

theorem Wrote.layout {j : Job} {answer : Except Fault String} (h : Wrote d j answer e) :
    e.layout = d.layout := by
  rw [h.same]

theorem wrote (d : Disk) (j : Job) :
    Wrote d j (d.writeNew j.dir j.name j.content).1 (d.writeNew j.dir j.name j.content).2 := by
  obtain ⟨hwithin, hadded⟩ := d.tree.makeAll_adds (Path.parts j.dir).reverse
  rw [List.reverse_reverse] at hadded
  unfold writeNew
  rcases hmade : d.tree.makeAll (Path.parts j.dir).reverse with ⟨t, e | _⟩ <;>
    rw [hmade] at hwithin hadded
  · exact ⟨rfl, hwithin, fun q node h => (hadded q node h).imp_right .inl, fun path h => nomatch h⟩
  · dsimp only
    rcases hcreated : createFree t j.dir j.name j.content maxVersions 0 with fault | ⟨path, u⟩
    · exact ⟨rfl, hwithin, fun q node h => (hadded q node h).imp_right .inl,
        fun path h => nomatch h⟩
    · obtain ⟨v, -, hpath, hfree, rfl, hwalk, htaken⟩ := createFree_eq_ok hcreated
      have hset := FileTree.within_set hfree (.file j.content)
      have hfile : (t.set (place path) (.file j.content)).get? (place path) =
          some (.file j.content) := FileTree.get?_set_self (by simp [hfree]) _
      refine ⟨rfl, hwithin.trans hset, fun q node h => ?_, fun p hp => ?_⟩
      · by_cases heq : q = place path
        · subst heq
          rw [hfile] at h
          exact .inr (.inr ⟨path, rfl, rfl, (Option.some.inj h).symm⟩)
        · rw [FileTree.get?_set_of_ne heq] at h
          exact (hadded q node h).imp_right .inl
      · obtain rfl := Except.ok.inj hp
        refine ⟨?_, hfile, ?_, v, hpath, fun k hk => ?_⟩
        · by_contra hthere
          obtain ⟨node, hnode⟩ := Option.ne_none_iff_exists'.mp hthere
          rw [hwithin _ _ hnode] at hfree
          cases hfree
        · exact FileTree.walk_of_directories (fun q => hset q .directory) hwalk
        · obtain ⟨node, hnode⟩ := Option.ne_none_iff_exists'.mp (htaken k (Nat.zero_le k) hk)
          rw [Job.path, hset _ _ hnode]
          exact Option.some_ne_none node

/-! ## On an empty disk -/

/-- The directory of an empty disk can be made, and then is empty. -/
theorem made_empty : ∃ t, ({} : FileTree).makeAll
      (Path.parts (⟨"", {}, {}⟩ : Disk).checkpointDir).reverse = (t, .ok ()) ∧
    Open (⟨"", {}, {}⟩ : Disk).checkpointDir t ∧
    ∀ name, name ≠ ".." → t.get? (place (⟨"", {}, {}⟩ : Disk).checkpointDir ++ [name]) = none := by
  have hname : IsName "checkpoints" := ⟨by decide, by decide, by decide, by decide⟩
  have hopen : Open "" {} := ⟨rfl, rfl⟩
  obtain ⟨hmade, hthere⟩ :=
    hopen.makeAll_join hname (by decide) (FileTree.get?_empty [] hname.above)
  refine ⟨_, hmade, hthere, fun name hup => ?_⟩
  rw [FileTree.get?_set_of_ne fun heq => ?_]
  · exact FileTree.get?_empty _ hup
  · exact absurd (congrArg List.length heq) (by simp [checkpointDir])

/-- A checkpoint that is saved twice is in two files. -/
theorem saveCheckpoint_twice {c : Checkpoint} (hshort : FileTree.tooLong c.fileName = false)
    (hshortOne : FileTree.tooLong (versioned c.fileName 1) = false) :
    let d : Disk := ⟨"", {}, {}⟩
    let path (n : Nat) := Path.join d.checkpointDir (versioned c.fileName n)
    ∃ t u, d.saveCheckpoint c = (.ok (path 0), { d with tree := t }) ∧
      saveCheckpoint { d with tree := t } c = (.ok (path 1), { d with tree := u }) ∧
      u.get? (place (path 1)) = some (.file c.text.toUTF8) ∧ place (path 1) ≠ place (path 0) := by
  intro d path
  have hname := isName_checkpoint c
  obtain ⟨t, hmade, hthere, hnone⟩ := made_empty
  have hplace (n : Nat) : place (path n) = place d.checkpointDir ++ [versioned c.fileName n] :=
    place_join (hname.versioned n) _
  have hfree (n : Nat) : t.get? (place (path n)) = none := by
    rw [hplace]
    exact hnone _ (hname.versioned n).above
  have hother : place (path 1) ≠ place (path 0) := by
    rw [hplace, hplace]
    simpa using (versioned_injective c.fileName).ne (by decide : 1 ≠ 0)
  have hwithin := FileTree.within_set (hfree 0) (.file c.text.toUTF8)
  have hfreeAgain : (t.set (place (path 0)) (.file c.text.toUTF8)).get? (place (path 1)) = none := by
    rw [FileTree.get?_set_of_ne hother, hfree]
  refine ⟨_, _, writeNew_of_open hmade hthere hname ?_ (by decide) (by simp) (hfree 0),
    writeNew_of_open (hthere.within hwithin).makeAll (hthere.within hwithin) hname ?_ (by decide) ?_
      hfreeAgain, FileTree.get?_set_self ?_ _, hother⟩
  · intro k hk
    obtain rfl : k = 0 := by omega
    exact hshort
  · intro k hk
    obtain rfl | rfl : k = 0 ∨ k = 1 := by omega
    · exact hshort
    · exact hshortOne
  · intro k hk
    obtain rfl : k = 0 := by omega
    exact FileTree.get?_set_self_ne_none _ _ _
  · exact fun hdirectory => Option.some_ne_none _ (hdirectory.symm.trans hfreeAgain)

end Disk

end Scriptorium.Archive
