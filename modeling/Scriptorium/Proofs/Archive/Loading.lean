import Mathlib.Data.List.Nodup
import Mathlib.Data.List.Perm.Subperm
import Scriptorium.Proofs.Archive.Checkpoint
import Scriptorium.Proofs.Archive.Writing

/-! # Checkpoints read back from disk

Every checkpoint that was saved is in a file of its own, whole unless the file was cut. So reading the
directory gives the ones that are whole, whatever else was put there under names without the extension
of a checkpoint.
-/

namespace Scriptorium.Archive

/-! ## Names and order -/

theorem Checkpoint.hasExtension_fileName (c : Checkpoint) :
    hasExtension "json" c.fileName = true := by
  obtain ⟨stem, hstem, hname⟩ : ∃ stem : List Char, stem ≠ [] ∧
      c.fileName.toList = stem ++ '.' :: "json".toList :=
    ⟨(c.time.slug ++ "_" ++ sanitize c.operation ++ "_" ++
      sanitize (c.component.getD "pipeline")).toList, by simp, by simp [fileName]⟩
  rw [hasExtension, hname, splitExtension_of_dot hstem (by decide)]
  exact beq_self_eq_true _

theorem ne_up_of_hasExtension {name : String} (h : hasExtension "json" name = true) :
    name ≠ ".." := by
  rintro rfl
  exact absurd h (by decide)

theorem Timestamp.le_trans {a b c : Timestamp} (hab : a.le b = true) (hbc : b.le c = true) :
    a.le c = true := by
  simp only [le, Bool.or_eq_true, Bool.and_eq_true, decide_eq_true_eq, beq_iff_eq] at *
  omega

theorem Timestamp.le_total (a b : Timestamp) : (a.le b || b.le a) = true := by
  simp only [le, Bool.or_eq_true, Bool.and_eq_true, decide_eq_true_eq, beq_iff_eq]
  omega

theorem inOrder_perm (l : List Checkpoint) : (inOrder l).Perm l := List.mergeSort_perm _ _

theorem inOrder_sorted (l : List Checkpoint) :
    (inOrder l).Pairwise fun a b => a.time.le b.time = true := by
  refine List.pairwise_mergeSort ?_ ?_ l
  · exact fun a b c => Timestamp.le_trans
  · exact fun a b => Timestamp.le_total a.time b.time

/-! ## Saving, cutting and adding -/

def Disk.saveAll (d : Disk) : List Checkpoint → List (String × Checkpoint) × Disk
  | [] => ([], d)
  | c :: cs =>
    match d.saveCheckpoint c with
    | (.error _, e) => e.saveAll cs
    | (.ok path, e) => ((path, c) :: (e.saveAll cs).1, (e.saveAll cs).2)

theorem Disk.mem_of_mem_saveAll (d : Disk) (cs : List Checkpoint) {p : String × Checkpoint}
    (h : p ∈ (d.saveAll cs).1) : p.2 ∈ cs := by
  induction cs generalizing d with
  | nil => cases h
  | cons c cs ih =>
      unfold saveAll at h
      split at h
      · exact List.mem_cons_of_mem _ (ih _ h)
      · rcases List.mem_cons.mp h with rfl | h
        · exact List.mem_cons_self
        · exact List.mem_cons_of_mem _ (ih _ h)

/-- The directory for checkpoints can be made, and nothing in it has the name of a checkpoint. -/
def Disk.Clear (d : Disk) : Prop :=
  ∃ t names, d.tree.makeAll (Path.parts d.checkpointDir).reverse = (t, .ok ()) ∧
    t.entriesAt d.checkpointDir = .ok names ∧ ∀ name ∈ names, hasExtension "json" name = false

/-- What happens to files afterwards: some are cut, and some are put into the directory. The paths of
those that were cut are listed. -/
inductive Damage (dir : String) (t : FileTree) : List (List String) → FileTree → Prop where
  | none : Damage dir t [] t
  | cut {cuts : List (List String)} {u : FileTree} {path : List String} {b rest : ByteArray}
      (h : Damage dir t cuts u) (hfile : u.get? path = some (.file (b ++ rest)))
      (hrest : rest ≠ .empty) : Damage dir t (path :: cuts) (u.set path (.file b))
  | add {cuts : List (List String)} {u v : FileTree} {name : String} {content : ByteArray}
      (h : Damage dir t cuts u) (hname : IsName name) (hother : hasExtension "json" name = false)
      (hnew : u.createNew (Path.parts (Path.join dir name)) content = .ok v) : Damage dir t cuts v

/-! ## Where the files are -/

/-- A directory whose way is not one of its own entries. -/
structure Room (dir : String) : Prop where
  named : dir ≠ ""
  short : ∀ part ∈ Path.parts dir, FileTree.tooLong part = false
  outside : ∀ front, front <+: Path.parts dir → ∀ name, hasExtension "json" name = true →
    FileTree.settle front ≠ place dir ++ [name]

/-- A checkpoint is in its file, all of it if the file was not cut. -/
def Kept (dir : String) (cuts : List (List String)) (t : FileTree) (p : String × Checkpoint) : Prop :=
  ∃ name, IsName name ∧ hasExtension "json" name = true ∧ p.1 = Path.join dir name ∧
    t.walk [] (Path.parts p.1) = .ok (place p.1) ∧
    ∃ b rest, t.get? (place p.1) = some (.file b) ∧ b ++ rest = p.2.text.toUTF8 ∧
      (rest = .empty ↔ place p.1 ∉ cuts)

/-- All checkpoints are in their files, and nothing else has the name of a checkpoint. -/
structure Keeps (dir : String) (saved : List (String × Checkpoint)) (cuts : List (List String))
    (t : FileTree) : Prop where
  way : ∀ front, front <+: Path.parts dir → ∀ content,
    t.get? (FileTree.settle front) ≠ some (.file content)
  only : ∀ name, hasExtension "json" name = true → t.get? (place dir ++ [name]) ≠ none →
    place dir ++ [name] ∈ saved.map (place ·.1)
  kept : ∀ p ∈ saved, Kept dir cuts t p
  distinct : (saved.map (place ·.1)).Nodup

variable {dir : String} {saved : List (String × Checkpoint)} {cuts : List (List String)}
  {t u : FileTree} {d : Disk}

theorem Kept.opened {p : String × Checkpoint} (h : Kept dir cuts t p) : Open dir t := by
  obtain ⟨name, hname, -, hpath, hwalk, -⟩ := h
  rw [hpath] at hwalk
  exact open_of_walk hname hwalk

theorem Disk.Clear.start (h : d.Clear) :
    Room d.checkpointDir ∧ Keeps d.checkpointDir [] [] d.tree := by
  obtain ⟨t, names, hmade, hentries, hother⟩ := h
  have hwithin : FileTree.Within d.tree t := by
    have hadds := (d.tree.makeAll_adds (Path.parts d.checkpointDir).reverse).1
    rwa [hmade] at hadds
  unfold FileTree.entriesAt at hentries
  split at hentries
  · cases hentries
  · rename_i hnamed
    obtain ⟨hwalk, hdirectory, -, hlisted⟩ := FileTree.entries_eq_ok hentries
    have hopen : Open d.checkpointDir t := ⟨hwalk, hdirectory⟩
    have hnone (name : String) (hjson : hasExtension "json" name = true) :
        t.get? (place d.checkpointDir ++ [name]) = none := by
      by_contra hthere
      have hfalse := hother name ((hlisted name (ne_up_of_hasExtension hjson)).mpr hthere)
      rw [hjson] at hfalse
      cases hfalse
    refine ⟨⟨hnamed, FileTree.short_of_walk hwalk, fun front hfront name hjson heq => ?_⟩,
      ⟨fun front hfront content hfile => ?_, fun name hjson hthere => ?_, by simp, by simp⟩⟩
    · have hdirectory := hopen.way hfront
      rw [heq, hnone name hjson] at hdirectory
      cases hdirectory
    · have hdirectory := hopen.way hfront
      rw [hwithin _ _ hfile] at hdirectory
      cases hdirectory
    · obtain ⟨node, hnode⟩ := Option.ne_none_iff_exists'.mp hthere
      have hgone := hnone name hjson
      rw [hwithin _ _ hnode] at hgone
      cases hgone

/-! ## What each step keeps -/

theorem Kept.within {p : String × Checkpoint} (h : Kept dir cuts t p)
    (hwithin : FileTree.Within t u) : Kept dir cuts u p := by
  obtain ⟨name, hname, hjson, hpath, hwalk, b, rest, hfile, hbytes⟩ := h
  exact ⟨name, hname, hjson, hpath,
    FileTree.walk_of_directories (fun q => hwithin q .directory) hwalk, b, rest,
    hwithin _ _ hfile, hbytes⟩

/-- Nodes are added: directories on the way, files of new checkpoints, and others that are in no way. -/
theorem Keeps.more {extra : List (String × Checkpoint)} (h : Keeps dir saved cuts t)
    (hwithin : FileTree.Within t u)
    (hnew : ∀ q node, u.get? q = some node → t.get? q = some node ∨
      (node = .directory ∧ ∃ front, front <+: Path.parts dir ∧ q = FileTree.settle front) ∨
      ((∀ front, front <+: Path.parts dir → q ≠ FileTree.settle front) ∧
        ∀ name, hasExtension "json" name = true → q = place dir ++ [name] →
          q ∈ extra.map (place ·.1)))
    (hroom : Room dir) (hextra : ∀ p ∈ extra, Kept dir cuts u p)
    (hfree : ∀ p ∈ extra, t.get? (place p.1) = none)
    (hdistinct : (extra.map (place ·.1)).Nodup) : Keeps dir (saved ++ extra) cuts u := by
  refine ⟨fun front hfront content hfile => ?_, fun name hjson hthere => ?_, fun p hp => ?_, ?_⟩
  · rcases hnew _ _ hfile with hold | ⟨hnode, -⟩ | ⟨hoff, -⟩
    · exact h.way front hfront content hold
    · cases hnode
    · exact hoff front hfront rfl
  · obtain ⟨node, hnode⟩ := Option.ne_none_iff_exists'.mp hthere
    rw [List.map_append, List.mem_append]
    rcases hnew _ _ hnode with hold | ⟨-, front, hfront, hq⟩ | ⟨-, hmem⟩
    · exact .inl (h.only name hjson (by simp [hold]))
    · exact absurd hq.symm (hroom.outside front hfront name hjson)
    · exact .inr (hmem name hjson rfl)
  · rcases List.mem_append.mp hp with hp | hp
    · exact (h.kept p hp).within hwithin
    · exact hextra p hp
  · rw [List.map_append]
    refine h.distinct.append hdistinct fun q hq hq' => ?_
    obtain ⟨p, hp, rfl⟩ := List.mem_map.mp hq
    obtain ⟨p', hp', heq⟩ := List.mem_map.mp hq'
    obtain ⟨-, -, -, -, -, b, -, hfile, -⟩ := h.kept p hp
    rw [← heq, hfree p' hp'] at hfile
    cases hfile

theorem Disk.wrote_checkpoint (d : Disk) (c : Checkpoint) :
    Wrote d ⟨d.checkpointDir, c.fileName, c.text.toUTF8⟩ (d.saveCheckpoint c).1
      (d.saveCheckpoint c).2 := by
  have hwrote := d.wrote ⟨d.checkpointDir, c.fileName, c.text.toUTF8⟩
  dsimp only at hwrote
  rw [saveCheckpoint]
  exact hwrote

/-- Saving a checkpoint adds one file if it succeeds, and none if it fails. -/
theorem Keeps.save (hroom : Room d.checkpointDir) (h : Keeps d.checkpointDir saved [] d.tree)
    (c : Checkpoint) :
    Keeps d.checkpointDir (saved ++ (d.saveCheckpoint c).1.toOption.toList.map (·, c)) []
      (d.saveCheckpoint c).2.tree := by
  have hwrote := d.wrote_checkpoint c
  rcases hanswer : d.saveCheckpoint c with ⟨fault | path, e⟩ <;> rw [hanswer] at hwrote
  · refine h.more hwrote.within (fun q node hnode => ?_) hroom (by simp [Except.toOption])
      (by simp [Except.toOption]) (by simp [Except.toOption])
    rcases hwrote.added q node hnode with hold | hway | ⟨path, hpath, -⟩
    · exact .inl hold
    · exact .inr (.inl hway)
    · cases hpath
  · obtain ⟨hfree, hfile, hwalk, v, hpath, -⟩ := hwrote.made path rfl
    have hname := (isName_checkpoint c).versioned v
    have hjson := hasExtension_versioned (by decide) c.hasExtension_fileName v
    have hplace : place path = place d.checkpointDir ++ [versioned c.fileName v] := by
      rw [hpath]
      exact place_join hname _
    simp only [Except.toOption, Option.toList_some, List.map_cons, List.map_nil]
    refine h.more hwrote.within (fun q node hnode => ?_) hroom ?_ (by simpa using hfree) (by simp)
    · rcases hwrote.added q node hnode with hold | hway | ⟨path', hpath', hq, -⟩
      · exact .inl hold
      · exact .inr (.inl hway)
      · obtain rfl := Except.ok.inj hpath'
        refine .inr (.inr ⟨fun front hfront heq => ?_, fun _ _ _ => by simp [hq]⟩)
        exact hroom.outside front hfront _ hjson (by rw [← heq, hq, hplace])
    · rw [List.forall_mem_singleton]
      exact ⟨_, hname, hjson, hpath, hwalk, _, .empty, hfile, by simp, by simp⟩

theorem Disk.checkpointDir_saveCheckpoint (d : Disk) (c : Checkpoint) :
    (d.saveCheckpoint c).2.checkpointDir = d.checkpointDir := by
  rw [(d.wrote_checkpoint c).same]
  rfl

theorem Keeps.saveAll (hroom : Room d.checkpointDir) (h : Keeps d.checkpointDir saved [] d.tree)
    (cs : List Checkpoint) :
    Keeps d.checkpointDir (saved ++ (d.saveAll cs).1) [] (d.saveAll cs).2.tree := by
  induction cs generalizing d saved with
  | nil => simpa [Disk.saveAll] using h
  | cons c cs ih =>
      have hsaved := h.save hroom c
      rw [← d.checkpointDir_saveCheckpoint c] at hsaved hroom ⊢
      have hrest := ih hroom hsaved
      unfold Disk.saveAll
      rcases hanswer : d.saveCheckpoint c with ⟨fault | path, e⟩ <;> rw [hanswer] at hrest
      · simpa [Except.toOption] using hrest
      · simpa [Except.toOption] using hrest

/-- A file was cut: what was whole or already cut is now cut. -/
theorem Keeps.cut (h : Keeps dir saved cuts t) {path : List String} {b rest : ByteArray}
    (hfile : t.get? path = some (.file (b ++ rest))) (hrest : rest ≠ .empty) :
    Keeps dir saved (path :: cuts) (t.set path (.file b)) := by
  have hself : (t.set path (.file b)).get? path = some (.file b) :=
    FileTree.get?_set_self (by simp [hfile]) _
  have hdirectories (q : List String) (hq : t.get? q = some .directory) :
      (t.set path (.file b)).get? q = some .directory := by
    have hne : q ≠ path := by
      rintro rfl
      rw [hfile] at hq
      cases hq
    rwa [FileTree.get?_set_of_ne hne]
  refine ⟨fun front hfront content hnode => ?_, fun name hjson hthere => ?_, fun p hp => ?_,
    h.distinct⟩
  · by_cases heq : FileTree.settle front = path
    · exact h.way front hfront _ (heq ▸ hfile)
    · rw [FileTree.get?_set_of_ne heq] at hnode
      exact h.way front hfront _ hnode
  · by_cases heq : place dir ++ [name] = path
    · exact h.only name hjson (by simp [heq, hfile])
    · rw [FileTree.get?_set_of_ne heq] at hthere
      exact h.only name hjson hthere
  · obtain ⟨name, hname, hjson, hpath, hwalk, b', rest', hfile', hbytes, hwhole⟩ := h.kept p hp
    refine ⟨name, hname, hjson, hpath, FileTree.walk_of_directories hdirectories hwalk, ?_⟩
    by_cases heq : place p.1 = path
    · subst heq
      rw [hfile] at hfile'
      obtain rfl : b ++ rest = b' := FileNode.file.inj (Option.some.inj hfile')
      refine ⟨b, rest ++ rest', hself, by rw [← hbytes, ByteArray.append_assoc], ?_⟩
      simp [hrest]
    · rw [FileTree.get?_set_of_ne heq]
      exact ⟨b', rest', hfile', hbytes, by simp [heq, hwhole]⟩

theorem Keeps.damage (hroom : Room dir) (h : Keeps dir saved [] t) (hdamage : Damage dir t cuts u) :
    Keeps dir saved cuts u := by
  induction hdamage with
  | none => exact h
  | cut _ hfile hrest ih => exact ih.cut hfile hrest
  | @add cuts u v name content _ hname hother hnew ih =>
      obtain ⟨hfree, rfl, hwalk⟩ := FileTree.createNew_eq_ok hnew
      have hopen := open_of_walk hname hwalk
      have hplace : FileTree.settle (Path.parts (Path.join dir name)) = place dir ++ [name] :=
        place_join hname dir
      rw [hplace] at hfree ⊢
      rw [← List.append_nil saved]
      refine ih.more (FileTree.within_set hfree _) (fun q node hnode => ?_) hroom (by simp)
        (by simp) (by simp)
      by_cases heq : q = place dir ++ [name]
      · refine .inr (.inr ⟨fun front hfront hway => ?_, fun name' hjson hq => ?_⟩)
        · have hdirectory := hopen.way hfront
          rw [← hway, heq, hfree] at hdirectory
          cases hdirectory
        · rw [heq] at hq
          obtain rfl : name = name' := by simpa using hq
          rw [hother] at hjson
          cases hjson
      · rw [FileTree.get?_set_of_ne heq] at hnode
        exact .inl hnode

/-! ## Reading -/

def FileTree.checkpoint? (t : FileTree) (path : List String) : Option Checkpoint :=
  match t.get? path with
  | some (.file content) => Checkpoint.ofBytes? content
  | _ => none

theorem readCheckpoints_eq {parts names : List String}
    (h : ∀ name ∈ names, hasExtension "json" name = true → ∃ content,
      t.read (parts ++ [name]) = .ok content ∧
      t.get? (FileTree.settle parts ++ [name]) = some (.file content)) :
    Disk.readCheckpoints t parts names = .ok
      (((names.filter (hasExtension "json")).map (FileTree.settle parts ++ [·])).filterMap
        t.checkpoint?) := by
  induction names with
  | nil => rfl
  | cons name names ih =>
      obtain ⟨hfirst, hrest⟩ := List.forall_mem_cons.mp h
      unfold Disk.readCheckpoints
      split
      · rename_i hjson
        obtain ⟨content, hread, hfile⟩ := hfirst hjson
        have hheld : t.checkpoint? (FileTree.settle parts ++ [name]) =
            Checkpoint.ofBytes? content := by
          simp only [FileTree.checkpoint?, hfile]
        simp only [hread, ih hrest, List.filter_cons_of_pos hjson, List.map_cons,
          List.filterMap_cons, hheld]
        cases Checkpoint.ofBytes? content <;> rfl
      · rename_i hjson
        rw [List.filter_cons_of_neg hjson]
        exact ih hrest

/-- A file that was cut holds no checkpoint. -/
theorem Kept.checkpoint? {p : String × Checkpoint} (h : Kept dir cuts t p) (hregular : p.2.Regular) :
    t.checkpoint? (place p.1) = if place p.1 ∈ cuts then none else some p.2 := by
  obtain ⟨-, -, -, -, -, b, rest, hfile, hbytes, hwhole⟩ := h
  simp only [FileTree.checkpoint?, hfile]
  split
  · rename_i hcut
    exact Checkpoint.ofBytes?_of_prefix hregular hbytes fun hempty => hwhole.mp hempty hcut
  · rename_i hcut
    obtain rfl := hwhole.mpr hcut
    rw [ByteArray.append_empty] at hbytes
    rw [hbytes]
    exact Checkpoint.ofBytes?_text hregular

/-- The directory is listed, unless it is missing and nothing was kept. -/
theorem Keeps.entries (hroom : Room dir) (h : Keeps dir saved cuts t) :
    (t.entries (Path.parts dir) = .error .notFound ∧ saved = []) ∨
      ∃ names, t.entries (Path.parts dir) = .ok names := by
  by_cases hopen : Open dir t
  · exact .inr hopen.entries
  · refine .inl ⟨?_, List.eq_nil_iff_forall_not_mem.mpr fun p hp => hopen (h.kept p hp).opened⟩
    unfold FileTree.entries
    rcases FileTree.walk_of_clear hroom.short h.way with hwalk | hwalk
    · change t.walk [] (Path.parts dir) = .ok (place dir) at hwalk
      simp only [hwalk, bind, Except.bind]
      cases hget : t.get? (place dir) with
      | none => rfl
      | some node =>
          cases node with
          | file content => exact absurd hget (h.way _ (List.prefix_refl _) content)
          | directory => exact absurd ⟨hwalk, hget⟩ hopen
    · simp only [hwalk, bind, Except.bind]

/-- The files that are read are those of the checkpoints. -/
theorem Keeps.listed (h : Keeps dir saved cuts t) {names : List String}
    (hentries : t.entries (Path.parts dir) = .ok names) :
    ((names.filter (hasExtension "json")).map (place dir ++ [·])).Perm
      (saved.map (place ·.1)) := by
  obtain ⟨-, -, hnodup, hlisted⟩ := FileTree.entries_eq_ok hentries
  refine (List.perm_ext_iff_of_nodup ?_ h.distinct).mpr fun q => ?_
  · refine (hnodup.filter _).map fun name name' heq => ?_
    simpa using heq
  · simp only [List.mem_map, List.mem_filter]
    constructor
    · rintro ⟨name, ⟨hname, hjson⟩, rfl⟩
      exact List.mem_map.mp
        (h.only name hjson ((hlisted name (ne_up_of_hasExtension hjson)).mp hname))
    · rintro ⟨p, hp, rfl⟩
      obtain ⟨name, hname, hjson, hpath, -, b, -, hfile, -⟩ := h.kept p hp
      rw [hpath, place_join hname] at hfile ⊢
      refine ⟨name, ⟨(hlisted name (ne_up_of_hasExtension hjson)).mpr ?_, hjson⟩, rfl⟩
      exact Option.ne_none_iff_exists'.mpr ⟨_, hfile⟩

theorem filterMap_checkpoint? (hkept : ∀ p ∈ saved, Kept dir cuts t p)
    (hregular : ∀ p ∈ saved, p.2.Regular) :
    (saved.map (place ·.1)).filterMap t.checkpoint? =
      (saved.filter (place ·.1 ∉ cuts)).map Prod.snd := by
  induction saved with
  | nil => rfl
  | cons p saved ih =>
      obtain ⟨hp, hsaved⟩ := List.forall_mem_cons.mp hkept
      obtain ⟨hpregular, hsavedregular⟩ := List.forall_mem_cons.mp hregular
      rw [List.map_cons, List.filterMap_cons, hp.checkpoint? hpregular, ih hsaved hsavedregular]
      by_cases hcut : place p.1 ∈ cuts <;> simp [hcut]

/-- What is read are the checkpoints whose files were not cut. -/
theorem Keeps.load (hroom : Room d.checkpointDir) (h : Keeps d.checkpointDir saved cuts d.tree)
    (hregular : ∀ p ∈ saved, p.2.Regular) :
    ∃ l, d.loadCheckpoints = .ok (inOrder l) ∧
      l.Perm ((saved.filter (place ·.1 ∉ cuts)).map Prod.snd) := by
  unfold Disk.loadCheckpoints FileTree.entriesAt
  rw [if_neg hroom.named]
  rcases h.entries hroom with ⟨hmissing, rfl⟩ | ⟨names, hentries⟩
  · rw [hmissing]
    exact ⟨[], by simp [inOrder], .refl _⟩
  · have hlisted := h.listed hentries
    have hread : ∀ name ∈ names, hasExtension "json" name = true → ∃ content,
        d.tree.read (Path.parts d.checkpointDir ++ [name]) = .ok content ∧
        d.tree.get? (place d.checkpointDir ++ [name]) = some (.file content) := by
      intro name hname hjson
      have hmem : place d.checkpointDir ++ [name] ∈ saved.map (place ·.1) :=
        hlisted.mem_iff.mp (List.mem_map.mpr ⟨name, List.mem_filter.mpr ⟨hname, hjson⟩, rfl⟩)
      obtain ⟨p, hp, hplace⟩ := List.mem_map.mp hmem
      obtain ⟨name', hname', -, hpath, hwalk, b, -, hfile, -⟩ := h.kept p hp
      rw [hpath, place_join hname'] at hplace
      obtain rfl : name' = name := by simpa using hplace
      have hsettle : FileTree.settle (Path.parts d.checkpointDir ++ [name']) =
          place d.checkpointDir ++ [name'] := by
        rw [← Path.parts_join hname']
        exact place_join hname' _
      rw [hpath, Path.parts_join hname', place_join hname', ← hsettle] at hwalk
      rw [hpath, place_join hname', ← hsettle] at hfile
      exact ⟨b, FileTree.read_eq_ok hwalk hfile, hsettle ▸ hfile⟩
    rw [hentries]
    simp only [readCheckpoints_eq hread, Except.map]
    exact ⟨_, rfl, (hlisted.filterMap _).trans
      (.of_eq (filterMap_checkpoint? h.kept hregular))⟩

/-! ## Checkpoints survive -/

theorem Disk.clear_empty : (⟨"", {}, {}⟩ : Disk).Clear := by
  obtain ⟨t, hmade, hthere, hnone⟩ := made_empty
  obtain ⟨names, hentries⟩ := hthere.entries
  obtain ⟨-, -, -, hlisted⟩ := FileTree.entries_eq_ok hentries
  refine ⟨t, names, hmade, (if_neg (by decide)).trans hentries, fun name hname => ?_⟩
  by_contra hjson
  have hup := ne_up_of_hasExtension (Bool.eq_true_of_not_eq_false hjson)
  exact (hlisted name hup).mp hname (hnone name hup)

/-- Checkpoints survive the disk, and a file that was cut only loses its own. -/
theorem checkpoints_survive (hclear : d.Clear) (cs : List Checkpoint)
    (hregular : ∀ c ∈ cs, c.Regular)
    (hdamage : Damage d.checkpointDir (d.saveAll cs).2.tree cuts t) :
    (∀ c : Checkpoint, c.Regular → Checkpoint.ofText? c.text = some c ∧
      Checkpoint.ofBytes? c.text.toUTF8 = some c ∧
      (∀ s x, s.toList ++ x = c.text.toList → x ≠ [] → Checkpoint.ofText? s = none) ∧
      ∀ b rest, b ++ rest = c.text.toUTF8 → rest ≠ .empty → Checkpoint.ofBytes? b = none) ∧
    ∃ l, Disk.loadCheckpoints { d with tree := t } = .ok l ∧
      l.Perm (((d.saveAll cs).1.filter (place ·.1 ∉ cuts)).map Prod.snd) ∧
      l.Pairwise fun a b => a.time.le b.time = true := by
  refine ⟨fun c hc => ⟨Checkpoint.ofText?_text hc, Checkpoint.ofBytes?_text hc,
    fun s x => Checkpoint.ofText?_of_prefix hc, fun b rest => Checkpoint.ofBytes?_of_prefix hc⟩, ?_⟩
  obtain ⟨hroom, hstart⟩ := hclear.start
  have hkeeps := (hstart.saveAll hroom cs).damage hroom hdamage
  rw [List.nil_append] at hkeeps
  obtain ⟨l, hload, hperm⟩ := Keeps.load (d := { d with tree := t }) hroom hkeeps
    fun p hp => hregular _ (d.mem_of_mem_saveAll cs hp)
  exact ⟨_, hload, (inOrder_perm l).trans hperm, inOrder_sorted l⟩

/-- Two saves of one checkpoint on an empty disk; the second file is then cut. -/
theorem checkpoints_survive_small :
    let c : Checkpoint := ⟨⟨List.replicate 32 '0'⟩, ⟨0, 0⟩, "save", "IDLE", none, none, none, {},
      [], [], {}⟩
    let d : Disk := ⟨"", {}, {}⟩
    d.Clear ∧ c.Regular ∧ ∃ cuts t, Damage d.checkpointDir (d.saveAll [c, c]).2.tree cuts t ∧
      cuts ≠ [] ∧ (d.saveAll [c, c]).1.length = 2 ∧
      Disk.loadCheckpoints { d with tree := t } = .ok [c] := by
  intro c d
  have hrun : c.run.Regular := ⟨rfl, fun digit hdigit => by rw [List.eq_of_mem_replicate hdigit]; rfl⟩
  have hregular : c.Regular := ⟨hrun, by decide +kernel, by decide, .nil, by simp [c], by decide⟩
  have htext : c.text.toUTF8 ≠ .empty := fun h =>
    absurd (String.toByteArray_inj.mp h : c.text = "") (by decide +kernel)
  obtain ⟨t, u, hfirst, hsecond, hfile, hother⟩ :=
    Disk.saveCheckpoint_twice (c := c) (by decide) (by decide)
  let path (n : Nat) := Path.join d.checkpointDir (versioned c.fileName n)
  have hsaved : d.saveAll [c, c] = ([(path 0, c), (path 1, c)], { d with tree := u }) := by
    simp only [Disk.saveAll, d, hfirst, hsecond, path]
  have hcut : Damage d.checkpointDir (d.saveAll [c, c]).2.tree [place (path 1)]
      (u.set (place (path 1)) (.file .empty)) := by
    rw [hsaved]
    exact .cut .none (by rw [ByteArray.empty_append]; exact hfile) htext
  obtain ⟨-, l, hload, hperm, -⟩ :=
    checkpoints_survive Disk.clear_empty [c, c] (by simpa using hregular) hcut
  refine ⟨Disk.clear_empty, hregular, _, _, hcut, by simp, by simp [hsaved], ?_⟩
  have hkept : l.Perm (((d.saveAll [c, c]).1.filter
      (place ·.1 ∉ [place (path 1)])).map Prod.snd) := hperm
  rw [hsaved] at hkept
  have hone : l = [c] := by simpa [path, d, hother.symm] using hkept
  rw [hload, hone]

end Scriptorium.Archive
