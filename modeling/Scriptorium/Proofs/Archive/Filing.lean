import Mathlib.Data.List.Nodup
import Mathlib.Data.List.Perm.Subperm
import Mathlib.Data.Nat.Find
import Scriptorium.Proofs.Archive.Call
import Scriptorium.Proofs.Archive.Naming

/-! # Files on a shelf

A shelf files a text under the first numbered form of its name that is free. There always is one among
as many forms as the shelf has files and one more, since the forms are pairwise different.
-/

namespace Scriptorium.Archive.Shelf

variable {s t : Shelf} {dir name path : String} {filings : List Filing}

def paths (s : Shelf) : List String := s.files.map Prod.fst

def candidate (dir name : String) (v : Nat) : String := pathIn dir (versioned name v)

def FirstFree (taken : List String) (dir name path : String) : Prop :=
  ∃ v, path = candidate dir name v ∧ path ∉ taken ∧ ∀ u < v, candidate dir name u ∈ taken

/-! ## The search for a free path -/

theorem pathIn_injective (dir : String) : Function.Injective (pathIn dir) := by
  intro a b h
  unfold pathIn at h
  split at h
  · exact h
  · have hchars := congrArg String.toList h
    simp only [String.toList_append] at hchars
    exact String.toList_inj.mp (List.append_cancel_left hchars)

theorem candidate_injective (dir name : String) : Function.Injective (candidate dir name) :=
  (pathIn_injective dir).comp (versioned_injective name)

theorem exists_free (taken : List String) (dir name : String) :
    ∃ v ≤ taken.length, candidate dir name v ∉ taken := by
  by_contra hnone
  have hall : (List.range (taken.length + 1)).map (candidate dir name) ⊆ taken := by
    intro path hpath
    obtain ⟨v, hv, rfl⟩ := List.mem_map.mp hpath
    by_contra hfree
    exact hnone ⟨v, Nat.lt_succ_iff.mp (List.mem_range.mp hv), hfree⟩
  have hnodup : ((List.range (taken.length + 1)).map (candidate dir name)).Nodup :=
    List.nodup_range.map (candidate_injective dir name)
  have hlength := (hnodup.subperm hall).length_le
  simp only [List.length_map, List.length_range] at hlength
  omega

/-- The search ends at the first candidate that is free, and looking further would change nothing. -/
theorem freePath_eq {n fuel v : Nat} (hn : n ≤ v) (hv : v ≤ n + fuel)
    (hfree : candidate dir name v ∉ s.paths)
    (htaken : ∀ u, n ≤ u → u < v → candidate dir name u ∈ s.paths) :
    s.freePath dir name fuel n = candidate dir name v := by
  have hany (u : Nat) : s.files.any (·.1 = pathIn dir (versioned name u)) = true ↔
      candidate dir name u ∈ s.paths := by
    simp [paths, candidate]
  induction fuel generalizing n with
  | zero =>
      obtain rfl : n = v := by omega
      rfl
  | succ fuel ih =>
      unfold freePath
      by_cases heq : n = v
      · subst heq
        rw [if_neg (mt (hany n).mp hfree)]
        rfl
      · have hlt : n < v := by omega
        rw [if_pos ((hany n).mpr (htaken n (Nat.le_refl n) hlt))]
        exact ih hlt (by omega) fun u hu => htaken u (Nat.le_of_succ_le hu)

/-- The search of a shelf ends. -/
theorem freePath_ends (s : Shelf) (dir name : String) :
    ∃ v ≤ s.files.length, candidate dir name v ∉ s.paths ∧
      (∀ u < v, candidate dir name u ∈ s.paths) ∧
      ∀ fuel, s.files.length ≤ fuel → s.freePath dir name fuel 0 = candidate dir name v := by
  obtain ⟨v, hv, hfree⟩ := exists_free s.paths dir name
  have hsome : ∃ v, candidate dir name v ∉ s.paths := ⟨v, hfree⟩
  have hleast : Nat.find hsome ≤ s.files.length := by
    have hle := Nat.find_min' hsome hfree
    simp only [paths, List.length_map] at hv
    omega
  have htaken (u : Nat) (hu : u < Nat.find hsome) : candidate dir name u ∈ s.paths :=
    not_not.mp (Nat.find_min hsome hu)
  exact ⟨Nat.find hsome, hleast, Nat.find_spec hsome, htaken, fun fuel hfuel =>
    freePath_eq (Nat.zero_le _) (by omega) (Nat.find_spec hsome) fun u _ => htaken u⟩

theorem firstFree_insertNew (s : Shelf) (dir name content : String) :
    FirstFree s.paths dir name (s.insertNew dir name content).1 := by
  obtain ⟨v, -, hfree, htaken, hpath⟩ := s.freePath_ends dir name
  have heq : (s.insertNew dir name content).1 = candidate dir name v := hpath _ (Nat.le_refl _)
  exact ⟨v, heq, heq ▸ hfree, htaken⟩

/-- There is only one first candidate that is not taken. -/
theorem FirstFree.eq_candidate {taken : List String} (h : FirstFree taken dir name path) {v : Nat}
    (hfree : candidate dir name v ∉ taken) (htaken : ∀ u < v, candidate dir name u ∈ taken) :
    path = candidate dir name v := by
  obtain ⟨w, rfl, hwfree, hwtaken⟩ := h
  rcases Nat.lt_trichotomy v w with hlt | rfl | hlt
  · exact absurd (hwtaken v hlt) hfree
  · rfl
  · exact absurd (htaken w hlt) hwfree

/-! ## Several files -/

theorem length_fileAll (s : Shelf) (filings : List Filing) :
    (s.fileAll filings).1.length = filings.length := by
  induction filings generalizing s with
  | nil => rfl
  | cons f filings ih => exact congrArg (· + 1) (ih _)

/-- Files come after those that are there. -/
theorem files_fileAll (s : Shelf) (filings : List Filing) : (s.fileAll filings).2.files =
    s.files ++ (filings.zip (s.fileAll filings).1).map fun r => (r.2, r.1.text) := by
  induction filings generalizing s with
  | nil => exact (List.append_nil _).symm
  | cons f filings ih =>
      have hrest := ih (s.insertNew f.dir f.name f.text).2
      rw [fileAll, hrest]
      simp [insertNew]

theorem firstFree_fileAll {front back : List (Filing × String)} {f : Filing}
    (h : filings.zip (s.fileAll filings).1 = front ++ (f, path) :: back) :
    FirstFree (s.paths ++ front.map Prod.snd) f.dir f.name path := by
  induction filings generalizing s front with
  | nil => simp at h
  | cons g filings ih =>
      rw [fileAll, List.zip_cons_cons] at h
      cases front with
      | nil =>
          obtain ⟨heq, -⟩ := List.cons.inj h
          obtain ⟨rfl, rfl⟩ := Prod.mk.inj heq
          simpa using firstFree_insertNew s g.dir g.name g.text
      | cons r front =>
          obtain ⟨rfl, hrest⟩ := List.cons.inj h
          have hfree := ih hrest
          have hpaths : (s.insertNew g.dir g.name g.text).2.paths =
              s.paths ++ [(s.insertNew g.dir g.name g.text).1] := by simp [paths, insertNew]
          rw [hpaths, List.append_assoc] at hfree
          exact hfree

/-- What is filed depends on the files only. -/
theorem fileAll_congr (h : s.files = t.files) (filings : List Filing) :
    (s.fileAll filings).1 = (t.fileAll filings).1 ∧
      (s.fileAll filings).2.files = (t.fileAll filings).2.files := by
  have hpath (s t : Shelf) (h : s.files = t.files) (dir name : String) (fuel n : Nat) :
      s.freePath dir name fuel n = t.freePath dir name fuel n := by
    induction fuel generalizing n with
    | zero => rfl
    | succ fuel ih => unfold freePath; rw [h, ih]
  induction filings generalizing s t with
  | nil => exact ⟨rfl, h⟩
  | cons f filings ih =>
      have hfirst : (s.insertNew f.dir f.name f.text).1 = (t.insertNew f.dir f.name f.text).1 := by
        simp only [insertNew, h, hpath s t h]
      have hfiles : (s.insertNew f.dir f.name f.text).2.files =
          (t.insertNew f.dir f.name f.text).2.files := by
        simp only [insertNew, h, hpath s t h]
      obtain ⟨hpaths, hrest⟩ := ih hfiles
      exact ⟨List.cons_eq_cons.mpr ⟨hfirst, hpaths⟩, hrest⟩

theorem fileAll_append (s : Shelf) (filings more : List Filing) :
    s.fileAll (filings ++ more) =
      ((s.fileAll filings).1 ++ ((s.fileAll filings).2.fileAll more).1,
        ((s.fileAll filings).2.fileAll more).2) := by
  induction filings generalizing s with
  | nil => rfl
  | cons f filings ih =>
      rw [List.cons_append, fileAll, ih]
      rfl

/-! ## What is read back -/

def Plain (path : String) : Prop := path = "/".intercalate (Path.named path).2

/-- A text that goes to a directory that is known, under a name. -/
structure IsFiling (f : Filing) : Prop where
  dir : f.dir = "" ∨ f.dir = "diagrams"
  name : IsName f.name

theorem plain_pathIn (hdir : dir = "" ∨ dir = "diagrams") (hname : IsName name) :
    Plain (pathIn dir name) := by
  rcases hdir with rfl | rfl
  · have hnamed : Path.named name = (false, [name]) := by
      simp [Path.named, Path.isAbsolute_of_isName hname, Path.parts_of_isName hname]
    change name = "/".intercalate (Path.named name).2
    rw [hnamed]
    simp
  · have hdiagrams : Path.parts "diagrams" = ["diagrams"] := by decide
    have habsolute : Path.isAbsolute ("diagrams" ++ "/" ++ name) = false := by
      simp [Path.isAbsolute]
    have hnamed : Path.named ("diagrams" ++ "/" ++ name) = (false, ["diagrams", name]) := by
      rw [Path.named, habsolute, Path.parts_append_slash, Path.parts_of_isName hname, hdiagrams]
      simp [hname.here]
    change "diagrams" ++ "/" ++ name = "/".intercalate (Path.named ("diagrams" ++ "/" ++ name)).2
    rw [hnamed]
    simp

/-- A shelf whose files have different paths, each written as it is read. -/
structure Proper (s : Shelf) : Prop where
  plain : ∀ path ∈ s.paths, Plain path
  nodup : s.paths.Nodup

theorem Proper.of_files (h : s.Proper) (hfiles : t.files = s.files) : t.Proper := by
  have hpaths : t.paths = s.paths := congrArg (List.map Prod.fst) hfiles
  exact ⟨hpaths ▸ h.plain, hpaths ▸ h.nodup⟩

theorem Proper.insertNew (h : s.Proper) {f : Filing} (hf : IsFiling f) :
    (s.insertNew f.dir f.name f.text).2.Proper := by
  obtain ⟨v, hpath, hfree, -⟩ := s.firstFree_insertNew f.dir f.name f.text
  have hpaths : (s.insertNew f.dir f.name f.text).2.paths =
      s.paths ++ [(s.insertNew f.dir f.name f.text).1] := by simp [paths, Shelf.insertNew]
  constructor
  · intro path hmem
    rw [hpaths, List.mem_append, List.mem_singleton] at hmem
    rcases hmem with hmem | rfl
    · exact h.plain path hmem
    · rw [hpath]
      exact plain_pathIn hf.dir (hf.name.versioned v)
  · rw [hpaths]
    exact h.nodup.append (List.nodup_singleton _) (by simpa using hfree)

theorem Proper.fileAll (h : s.Proper) (hf : ∀ f ∈ filings, IsFiling f) :
    (s.fileAll filings).2.Proper := by
  induction filings generalizing s with
  | nil => exact h
  | cons f filings ih =>
      exact ih (h.insertNew (hf f List.mem_cons_self)) fun g hg => hf g (List.mem_cons_of_mem _ hg)

/-- A file of a proper shelf is read back. -/
theorem Proper.file?_eq (h : s.Proper) {text : String} (hmem : (path, text) ∈ s.files) :
    s.file? path = some text := by
  unfold file?
  generalize hfound : s.files.find? _ = found
  cases found with
  | none =>
      have hnone := List.find?_eq_none.mp hfound (path, text) hmem
      simp at hnone
  | some r =>
      have hr : r ∈ s.files := List.mem_of_find?_eq_some hfound
      have hnamed : Path.named r.1 = Path.named path := by simpa using List.find?_some hfound
      have hpath : r.1 = path := by
        rw [h.plain r.1 (List.mem_map_of_mem hr), hnamed]
        exact (h.plain path (List.mem_map_of_mem hmem)).symm
      have heq : r = (path, text) := List.inj_on_of_nodup_map h.nodup hr hmem hpath
      rw [heq]
      rfl

theorem Proper.file?_eq_none (h : s.Proper) (hplain : Plain path) (hfree : path ∉ s.paths) :
    s.file? path = none := by
  refine Option.map_eq_none_iff.mpr (List.find?_eq_none.mpr fun r hr hnamed => hfree ?_)
  have hpath : r.1 = path := by
    rw [h.plain r.1 (List.mem_map_of_mem hr), of_decide_eq_true hnamed]
    exact hplain.symm
  exact hpath ▸ List.mem_map_of_mem hr

/-- What was read is read again when files were added. -/
theorem file?_append {more : List (String × String)} (h : t.files = s.files ++ more) {text : String}
    (hread : s.file? path = some text) : t.file? path = some text := by
  obtain ⟨r, hr, htext⟩ := Option.map_eq_some_iff.mp hread
  unfold file?
  rw [h, List.find?_append, hr]
  exact congrArg some htext

/-! ## Calls -/

theorem isFiling_of_mem {call : Call} {f : Filing} (h : f ∈ call.filings) : IsFiling f := by
  cases call with
  | checkpoint c => cases h
  | snapshot n => cases h
  | document name text =>
      obtain rfl := List.mem_singleton.mp h
      exact ⟨.inl rfl, isName_sanitize name⟩
  | drawing g =>
      simp only [Call.filings, List.mem_append, List.mem_cons, List.not_mem_nil, or_false,
        List.mem_map] at h
      rcases h with (rfl | rfl) | ⟨text, -, rfl⟩
      · exact ⟨.inr rfl, g.isName_source⟩
      · exact ⟨.inr rfl, g.isName_description⟩
      · exact ⟨.inr rfl, g.isName_fragments⟩

theorem Proper.perform (h : s.Proper) (call : Call) : (Store.perform s call).2.Proper :=
  (h.fileAll fun _ hf => isFiling_of_mem hf).of_files (s.perform_files call)

/-- Every shelf that an empty one becomes is proper. -/
theorem proper_of_becomes {empty : Shelf} (hempty : empty.files = [])
    (h : Store.Becomes empty s) : s.Proper := by
  induction h with
  | same => constructor <;> simp [paths, hempty]
  | checkpoint c _ ih => exact ih.perform (.checkpoint c)
  | snapshot n _ ih => exact ih.perform (.snapshot n)
  | document name text _ ih => exact ih.perform (.document name text)
  | drawing g _ ih => exact ih.perform (.drawing g)

def reported (call : Call) : Except Fault (List String) → List (Filing × String)
  | .ok paths => call.filings.zip paths
  | .error _ => []

def reports (s : Shelf) (calls : List Call) : List (Filing × String) :=
  (calls.zip (Store.performAll s calls).1).flatMap fun r => reported r.1 r.2

theorem reported_perform (s : Shelf) (call : Call) :
    reported call (Store.perform s call).1 = call.filings.zip (s.fileAll call.filings).1 := by
  by_cases hnone : call.filings = []
  · rw [hnone]
    cases (Store.perform s call).1 <;> simp [reported, hnone]
  · rw [s.perform_answer call hnone]
    rfl

/-- Calls file what they have to file, all in one row. -/
theorem performAll_eq (s : Shelf) (calls : List Call) :
    s.reports calls = (calls.flatMap Call.filings).zip (s.fileAll (calls.flatMap Call.filings)).1 ∧
      (Store.performAll s calls).2.files = (s.fileAll (calls.flatMap Call.filings)).2.files := by
  induction calls generalizing s with
  | nil => exact ⟨rfl, rfl⟩
  | cons call calls ih =>
      obtain ⟨hreports, hfiles⟩ := ih (Store.perform s call).2
      obtain ⟨hpaths, hrest⟩ := fileAll_congr (s.perform_files call) (calls.flatMap Call.filings)
      have hfirst : s.reports (call :: calls) = reported call (Store.perform s call).1 ++
          (Store.perform s call).2.reports calls := rfl
      rw [List.flatMap_cons, fileAll_append]
      constructor
      · rw [hfirst, hreports, hpaths, reported_perform,
          List.zip_append (s.length_fileAll call.filings).symm]
      · exact hfiles.trans hrest

/-- What holds of calls one after the other. -/
structure Sound (s : Shelf) (calls : List Call) : Prop where
  answered : ∀ r ∈ calls.zip (Store.performAll s calls).1, r.1.filings ≠ [] →
    ∃ paths, r.2 = .ok paths ∧ paths.length = r.1.filings.length
  files : (Store.performAll s calls).2.files =
    s.files ++ (s.reports calls).map fun r => (r.2, r.1.text)
  first : ∀ front r back, s.reports calls = front ++ r :: back →
    FirstFree (s.paths ++ front.map Prod.snd) r.1.dir r.1.name r.2
  apart : ((s.reports calls).map Prod.snd).Nodup
  fresh : ∀ r ∈ s.reports calls, s.file? r.2 = none
  whole : ∀ r ∈ s.reports calls, (Store.performAll s calls).2.file? r.2 = some r.1.text
  unchanged : ∀ path text, s.file? path = some text →
    (Store.performAll s calls).2.file? path = some text

theorem answered (s : Shelf) (calls : List Call) :
    ∀ r ∈ calls.zip (Store.performAll s calls).1, r.1.filings ≠ [] →
      ∃ paths, r.2 = .ok paths ∧ paths.length = r.1.filings.length := by
  induction calls generalizing s with
  | nil => exact fun r hr => absurd hr List.not_mem_nil
  | cons call calls ih =>
      intro r hr hfiling
      rcases List.mem_cons.mp hr with rfl | hr
      · exact ⟨_, s.perform_answer call hfiling, s.length_fileAll call.filings⟩
      · exact ih _ r hr hfiling

theorem Proper.sound (h : s.Proper) (calls : List Call) : s.Sound calls := by
  obtain ⟨hreports, hfiles⟩ := s.performAll_eq calls
  have hall : (Store.performAll s calls).2.files =
      s.files ++ (s.reports calls).map fun r => (r.2, r.1.text) := by
    rw [hfiles, files_fileAll, hreports]
  have hpaths : (Store.performAll s calls).2.paths = s.paths ++ (s.reports calls).map Prod.snd := by
    simp [paths, hall, Function.comp_def]
  have hfilings (f : Filing) (hf : f ∈ calls.flatMap Call.filings) : IsFiling f := by
    obtain ⟨call, -, hf⟩ := List.mem_flatMap.mp hf
    exact isFiling_of_mem hf
  have hproper := (h.fileAll hfilings).of_files hfiles
  have hnodup := List.nodup_append.mp (hpaths ▸ hproper.nodup)
  refine ⟨s.answered calls, hall, fun front r back hsplit => ?_, hnodup.2.1, fun r hr => ?_,
    fun r hr => ?_, fun path text hread => file?_append hall hread⟩
  · exact firstFree_fileAll (hreports.symm.trans hsplit)
  · have hmem := List.mem_map_of_mem (f := Prod.snd) hr
    refine h.file?_eq_none (hproper.plain r.2 ?_) fun hold => hnodup.2.2 r.2 hold r.2 hmem rfl
    rw [hpaths]
    exact List.mem_append_right _ hmem
  · refine hproper.file?_eq ?_
    rw [hall]
    exact List.mem_append_right _ (List.mem_map.mpr ⟨r, hr, rfl⟩)

end Scriptorium.Archive.Shelf
