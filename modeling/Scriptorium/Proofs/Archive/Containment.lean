import Scriptorium.Proofs.Archive.Traffic

/-! # Files stay in their directories

Names come from catalogs and replies, and a generated name is made of them: safe names, a time and
a number. Whatever they are, each generated name is one step down from its directory, so every file
that a store on disk makes is at a path of its root or of a directory of its layout with generated
names below.
-/

namespace Scriptorium.Archive

/-! ## Safe names -/

def IsPortable (c : Char) : Prop :=
  ('A' ≤ c ∧ c ≤ 'Z') ∨ ('a' ≤ c ∧ c ≤ 'z') ∨ ('0' ≤ c ∧ c ≤ '9') ∨ c = '.' ∨ c = '_' ∨ c = '-'

theorem isPortable_of_isSafe {c : Char} (h : isSafe c = true) : IsPortable c := by
  unfold isSafe at h
  delta Char.isAlphanum Char.isAlpha Char.isUpper Char.isLower Char.isDigit at h
  simp only [Bool.or_eq_true, Bool.and_eq_true, beq_iff_eq, decide_eq_true_eq] at h
  rcases h with ((⟨-, (hupper | hlower) | hdigit⟩ | hdot) | hunderscore) | hhyphen
  · exact .inl hupper
  · exact .inr (.inl hlower)
  · exact .inr (.inr (.inl hdigit))
  · exact .inr (.inr (.inr (.inl hdot)))
  · exact .inr (.inr (.inr (.inr (.inl hunderscore))))
  · exact .inr (.inr (.inr (.inr (.inr hhyphen))))

/-- A name that is safe stays as it is. -/
theorem sanitize_of_isName {name : String} (h : IsName name)
    (hsafe : ∀ c ∈ name.toList, isSafe c = true) : sanitize name = name := by
  have hplain : name.toList.map (fun c => if isSafe c then c else '_') = name.toList :=
    (List.map_congr_left fun c hc => if_pos (hsafe c hc)).trans (List.map_id _)
  have hchars : sanitizeChars name.toList = name.toList := by
    unfold sanitizeChars
    dsimp only
    rw [hplain, if_neg]
    rintro (hempty | hhere | habove)
    · exact h.nonempty (String.toList_inj.mp hempty)
    · exact h.here (String.toList_inj.mp hhere)
    · exact h.above (String.toList_inj.mp habove)
  rw [sanitize, hchars, String.ofList_toList]

theorem sanitize_sanitize (name : String) : sanitize (sanitize name) = sanitize name :=
  sanitize_of_isName (isName_sanitize name) fun _ => isSafe_of_mem_sanitize

/-! ## Generated names -/

/-- A text of safe characters; the sign stands before years after the year 9999. -/
def Shown (text : String) : Prop := ∀ c ∈ text.toList, isSafe c = true ∨ c = '+'

instance (text : String) : Decidable (Shown text) :=
  decidable_of_iff (text.toList.all fun c => isSafe c || c == '+') (by simp [Shown])

theorem Shown.append {front back : String} (hfront : Shown front) (hback : Shown back) :
    Shown (front ++ back) := by
  intro c hc
  rw [String.toList_append, List.mem_append] at hc
  exact hc.elim (hfront c) (hback c)

theorem isSafe_of_isDigit {c : Char} (h : c.isDigit = true) : isSafe c = true := by
  have hascii : Text.isAscii c = true := by
    simp only [Char.isDigit, Bool.and_eq_true, decide_eq_true_eq, UInt32.le_iff_toNat_le] at h
    exact decide_eq_true (Nat.lt_of_le_of_lt h.2 (by decide))
  simp [isSafe, hascii, Char.isAlphanum, h]

theorem shown_sanitize (name : String) : Shown (sanitize name) := fun _ hc =>
  .inl (isSafe_of_mem_sanitize hc)

theorem shown_slug (t : Timestamp) : Shown t.slug := by
  intro c hc
  rcases mem_slug hc with hdigit | rfl | rfl | rfl
  · exact .inl (isSafe_of_isDigit hdigit)
  · exact .inl (by decide)
  · exact .inl (by decide)
  · exact .inr rfl

theorem Shown.versioned {name : String} (h : Shown name) (v : Nat) : Shown (versioned name v) := by
  intro c hc
  rcases mem_versioned hc with hc | hdigit | rfl | rfl
  · exact h c hc
  · exact .inl (isSafe_of_isDigit hdigit)
  · exact .inl (by decide)
  · exact .inl (by decide)

theorem shown_checkpoint (c : Checkpoint) : Shown c.fileName :=
  (((((shown_slug _).append (by decide)).append (shown_sanitize _)).append (by decide)).append
    (shown_sanitize _)).append (by decide)

theorem shown_snapshot (n : Snapshot) : Shown n.fileName :=
  (((shown_sanitize _).append (by decide)).append (shown_slug _)).append (by decide)

/-- The names that a call generates below a directory of the store; its file may have any numbered
form of its name. -/
inductive Call.Generates (d : Disk) : Call → String → List String → Prop where
  | checkpoint (c : Checkpoint) (v : Nat) :
      Generates d (.checkpoint c) d.checkpointDir [versioned c.fileName v]
  | snapshot (n : Snapshot) (v : Nat) :
      Generates d (.snapshot n) d.sectionDir [n.directory, versioned n.fileName v]
  | document (name text : String) (v : Nat) :
      Generates d (.document name text) d.rootPath [versioned (sanitize name) v]
  | source (g : Drawing) (v : Nat) :
      Generates d (.drawing g) d.diagramDir [versioned g.sourceName v]
  | description (g : Drawing) (v : Nat) :
      Generates d (.drawing g) d.diagramDir [versioned g.descriptionName v]
  | fragments (g : Drawing) (v : Nat) :
      Generates d (.drawing g) d.diagramDir [versioned g.fragmentsName v]

variable {d : Disk} {call : Call} {calls : List Call} {dir name path : String} {names : List String}
  {j : Job}

theorem Call.Generates.isName (h : call.Generates d dir names) :
    ∀ name ∈ names, IsName name ∧ Shown name := by
  cases h with
  | checkpoint c v =>
      exact List.forall_mem_singleton.mpr
        ⟨(isName_checkpoint c).versioned v, (shown_checkpoint c).versioned v⟩
  | snapshot n v =>
      refine List.forall_mem_cons.mpr ⟨⟨isName_sanitize _, shown_sanitize _⟩, ?_⟩
      exact List.forall_mem_singleton.mpr
        ⟨(isName_snapshot n).versioned v, (shown_snapshot n).versioned v⟩
  | document name text v =>
      exact List.forall_mem_singleton.mpr
        ⟨(isName_sanitize name).versioned v, (shown_sanitize name).versioned v⟩
  | source g v =>
      have hshown : Shown g.sourceName :=
        (Shown.append (by decide) (shown_slug _)).append (by decide)
      exact List.forall_mem_singleton.mpr ⟨g.isName_source.versioned v, hshown.versioned v⟩
  | description g v =>
      have hshown : Shown g.descriptionName :=
        (Shown.append (by decide) (shown_slug _)).append (by decide)
      exact List.forall_mem_singleton.mpr ⟨g.isName_description.versioned v, hshown.versioned v⟩
  | fragments g v =>
      have hshown : Shown g.fragmentsName :=
        (Shown.append (by decide) (shown_slug _)).append (by decide)
      exact List.forall_mem_singleton.mpr ⟨g.isName_fragments.versioned v, hshown.versioned v⟩

def Path.below (dir : String) (names : List String) : String := names.foldl Path.join dir

/-- Names lead down, one step each. -/
theorem place_below (h : ∀ name ∈ names, IsName name) (dir : String) :
    place (Path.below dir names) = place dir ++ names := by
  induction names generalizing dir with
  | nil => exact (List.append_nil _).symm
  | cons name names ih =>
      obtain ⟨hname, hnames⟩ := List.forall_mem_cons.mp h
      rw [Path.below, List.foldl_cons]
      exact (ih hnames _).trans (by rw [place_join hname, List.append_assoc, List.singleton_append])

def Generated (d : Disk) (calls : List Call) (path : String) : Prop :=
  ∃ call ∈ calls, ∃ dir names, call.Generates d dir names ∧ path = Path.below dir names

theorem generated_of_mem_jobs (hcall : call ∈ calls) (hj : j ∈ call.jobs d) (v : Nat) :
    Generated d calls (j.path v) := by
  refine ⟨call, hcall, ?_⟩
  cases call with
  | checkpoint c =>
      obtain rfl := List.mem_singleton.mp hj
      exact ⟨_, _, .checkpoint c v, rfl⟩
  | snapshot n =>
      obtain rfl := List.mem_singleton.mp hj
      exact ⟨_, _, .snapshot n v, rfl⟩
  | document name text =>
      obtain rfl := List.mem_singleton.mp hj
      exact ⟨_, _, .document name text v, rfl⟩
  | drawing g =>
      simp only [Call.jobs, List.mem_append, List.mem_cons, List.not_mem_nil, or_false,
        List.mem_map] at hj
      rcases hj with (rfl | rfl) | ⟨text, -, rfl⟩
      · exact ⟨_, _, .source g v, rfl⟩
      · exact ⟨_, _, .description g v, rfl⟩
      · exact ⟨_, _, .fragments g v, rfl⟩

/-! ## Files -/

namespace Traffic

variable {t : Traffic} {ws : List Writer} {w : Writer}

theorem job_mem_of_mem_writers (h : Reaches (start d calls) t) (hw : w ∈ t.writers) :
    ∃ call ∈ calls, w.job ∈ call.jobs d := by
  obtain ⟨ws, hws, hw⟩ := List.mem_flatten.mp hw
  have hjobs : ws.map Writer.job ∈ calls.map (Call.jobs d) := by
    rw [← jobs_of_reaches h]
    exact List.mem_map_of_mem hws
  obtain ⟨call, hcall, heq⟩ := List.mem_map.mp hjobs
  exact ⟨call, hcall, heq ▸ List.mem_map_of_mem hw⟩

/-- A writer has its file at a generated path. -/
theorem generated_of_reaches (h : Reaches (start d calls) t) (hw : w ∈ t.writers)
    (hpath : w.stage.path? = some path) : Generated d calls path := by
  obtain ⟨v, -, -, -, -, -, rfl, -⟩ := made_of_reaches h hw hpath
  obtain ⟨call, hcall, hj⟩ := job_mem_of_mem_writers h hw
  exact generated_of_mem_jobs hcall hj v

/-- The paths that a call answers are those of its writers. -/
theorem exists_kept_of_answer? {paths : List String} (h : answer? ws = some (.ok paths)) :
    ∀ path ∈ paths, ∃ w ∈ ws, w.stage = .kept path := by
  induction ws generalizing paths with
  | nil =>
      obtain rfl : [] = paths := Except.ok.inj (Option.some.inj h)
      simp
  | cons w ws ih =>
      obtain ⟨path, rest, hkept, rfl, hrest⟩ := answer?_cons h
      refine List.forall_mem_cons.mpr ⟨⟨w, List.mem_cons_self, hkept⟩, fun other hother => ?_⟩
      obtain ⟨x, hx, hkept⟩ := ih hrest other hother
      exact ⟨x, List.mem_cons_of_mem _ hx, hkept⟩

end Traffic

/-- Safe names are safe in every part and stay as they are. Whatever calls do in between each other,
each file that they make is at a path of the root or of a directory of the layout with generated
names below, which all lead down, at every number: the file of a snapshot is two steps down and any
other file one. The paths that are answered, of calls one after the other, are such paths. -/
theorem files_stay_below (d : Disk) (calls : List Call) {t : Traffic}
    (h : Traffic.Reaches (Traffic.start d calls) t) :
    (∀ name, sanitize name ≠ "" ∧ (∀ c ∈ (sanitize name).toList, IsPortable c) ∧
      sanitize name ≠ "." ∧ sanitize name ≠ ".." ∧ sanitize (sanitize name) = sanitize name) ∧
    (∀ call dir names, Call.Generates d call dir names → ∀ name ∈ names, IsName name ∧ Shown name) ∧
    (∀ w ∈ t.writers, ∀ path, w.stage.path? = some path → Generated d calls path) ∧
    (∀ q bytes, t.tree.get? q = some (.file bytes) → d.tree.get? q = some (.file bytes) ∨
      ∃ call ∈ calls, ∃ dir names, call.Generates d dir names ∧ q = place dir ++ names) ∧
    ∀ paths, .ok paths ∈ (Store.performAll d calls).1 → ∀ path ∈ paths, Generated d calls path := by
  refine ⟨fun name => ?_, fun call dir names hnames => hnames.isName,
    fun w hw path => Traffic.generated_of_reaches h hw, fun q bytes hq => ?_,
    fun paths hpaths path hpath => ?_⟩
  · obtain ⟨-, hempty, hhere, habove⟩ := isName_sanitize name
    exact ⟨hempty, fun c hc => isPortable_of_isSafe (isSafe_of_mem_sanitize hc), hhere, habove,
      sanitize_sanitize name⟩
  · rcases (Traffic.orderly_of_reaches h).files q bytes hq with hold | ⟨w, hw, hplace⟩
    · exact .inl hold
    · obtain ⟨path, hpath, rfl⟩ := Option.map_eq_some_iff.mp hplace
      obtain ⟨call, hcall, dir, names, hnames, rfl⟩ := Traffic.generated_of_reaches h hw hpath
      exact .inr ⟨call, hcall, dir, names, hnames,
        place_below (fun name hname => (hnames.isName name hname).1) dir⟩
  · obtain ⟨u, hu, -, hanswers⟩ := Traffic.reaches_performAll d calls
    have hmem : some (.ok paths) ∈ u.calls.map Traffic.answer? := by
      rw [hanswers]
      exact List.mem_map_of_mem hpaths
    obtain ⟨ws, hws, hanswer⟩ := List.mem_map.mp hmem
    obtain ⟨w, hw, hkept⟩ := Traffic.exists_kept_of_answer? hanswer path hpath
    have hwriter : w ∈ u.writers := List.mem_flatten.mpr ⟨ws, hws, hw⟩
    exact Traffic.generated_of_reaches hu hwriter (by rw [hkept]; rfl)

/-- A document whose name leads up and down. -/
theorem files_stay_below_small :
    let d : Disk := ⟨"", {}, {}⟩
    let calls := [Call.document "../etc" "text"]
    ∃ t : Traffic, Traffic.Reaches (Traffic.start d calls) t ∧
      t.calls.map Traffic.answer? = [some (.ok [".._etc"])] ∧
      ∀ q bytes, t.tree.get? q = some (.file bytes) → ∃ v, q = [versioned ".._etc" v] := by
  intro d calls
  have hsafe : sanitize "../etc" = ".._etc" := by decide
  have hopen : Open "" d.tree := ⟨rfl, rfl⟩
  have hnew (q : List String) (bytes : ByteArray) : d.tree.get? q ≠ some (.file bytes) := by
    by_cases hup : q.all (· = "..") = true <;> simp [d, FileTree.get?, hup]
  have hname : IsName ".._etc" := hsafe ▸ isName_sanitize "../etc"
  have hfree : d.tree.get? (place (Path.join "" (versioned ".._etc" 0))) = none := by
    rw [place_join (hname.versioned 0)]
    exact FileTree.get?_empty _ (hname.versioned 0).above
  have hwrite : (d.writeNew "" ".._etc" "text".toUTF8).1 = .ok ".._etc" := by
    rw [Disk.writeNew_of_open (v := 0) hopen.makeAll hopen hname (by decide) (by decide) (by simp)
      hfree]
    exact congrArg _ (by decide : Path.join "" (versioned ".._etc" 0) = ".._etc")
  have hanswers : (Store.performAll d calls).1 = [.ok [".._etc"]] := by
    simp only [calls, Store.performAll, Disk.perform_eq, Call.jobs, Disk.writeAll_one, hsafe]
    rw [show d.rootPath = "" from rfl, hwrite]
    rfl
  obtain ⟨t, hreach, -, hanswer⟩ := Traffic.reaches_performAll d calls
  rw [hanswers] at hanswer
  obtain ⟨-, -, -, hfiles, -⟩ := files_stay_below d calls hreach
  refine ⟨t, hreach, hanswer, fun q bytes hq => ?_⟩
  rcases hfiles q bytes hq with hold | ⟨call, hcall, dir, names, hnames, rfl⟩
  · exact absurd hold (hnew q bytes)
  · obtain rfl := List.mem_singleton.mp hcall
    cases hnames with
    | document _ _ v => exact ⟨v, by rw [hsafe]; rfl⟩

end Scriptorium.Archive
