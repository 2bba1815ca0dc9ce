import Mathlib.Data.List.Nodup
import Scriptorium.Proofs.Archive.Writer

/-! # Many calls at once

Calls on one store on disk may run at the same time: each makes its files one after the other, and
between any two steps of one call any of the others may make steps. The files of all writers stay apart
and whole, whatever the order.
-/

namespace Scriptorium.Archive

structure Writer where
  job : Job
  stage : Stage

def Writer.place? (w : Writer) : Option (List String) := w.stage.place?

structure Traffic where
  tree : FileTree
  calls : List (List Writer)

namespace Traffic

def start (d : Disk) (calls : List Call) : Traffic :=
  ⟨d.tree, calls.map fun call => (call.jobs d).map fun j => ⟨j, j.start⟩⟩

/-- A writer makes a step when the writers before it in its call have kept their files. -/
inductive Step : Traffic → Traffic → Prop where
  | work {tree tree' : FileTree} {front back : List (List Writer)} {done todo : List Writer}
      {j : Job} {s s' : Stage} (hdone : ∀ w ∈ done, ∃ path, w.stage = .kept path)
      (h : j.Step (tree, s) (tree', s')) :
      Step ⟨tree, front ++ (done ++ ⟨j, s⟩ :: todo) :: back⟩
        ⟨tree', front ++ (done ++ ⟨j, s'⟩ :: todo) :: back⟩

def Reaches : Traffic → Traffic → Prop := Relation.ReflTransGen Step

def writers (t : Traffic) : List Writer := t.calls.flatten

def answer? : List Writer → Option (Except Fault (List String))
  | [] => some (.ok [])
  | w :: ws =>
    match w.stage with
    | .kept path => (answer? ws).map (·.map (path :: ·))
    | .failed fault _ => some (.error fault)
    | _ => none

def reported (ws : List Writer) : List (Job × String) :=
  match answer? ws with
  | some (.ok paths) => (ws.map Writer.job).zip paths
  | _ => []

def reports (t : Traffic) : List (Job × String) := t.calls.flatMap reported

variable {t u v : Traffic} {origin tree tree' : FileTree} {ws ws' : List Writer} {w : Writer}

/-- A step, told by the writer that makes it. -/
theorem Step.writers (h : Step t u) :
    ∃ j s s' rest, t.writers.Perm (⟨j, s⟩ :: rest) ∧ u.writers.Perm (⟨j, s'⟩ :: rest) ∧
      Job.Effect j t.tree s u.tree s' := by
  cases h with
  | @work tree tree' front back done todo j s s' hdone h =>
      have hmiddle (w : Writer) : (front ++ (done ++ w :: todo) :: back).flatten.Perm
          (w :: (front.flatten ++ (done ++ todo) ++ back.flatten)) := by
        have hsplit : (front ++ (done ++ w :: todo) :: back).flatten =
            (front.flatten ++ done) ++ w :: (todo ++ back.flatten) := by simp
        rw [hsplit]
        have hperm : (front.flatten ++ done ++ w :: (todo ++ back.flatten)).Perm
            (w :: (front.flatten ++ done ++ (todo ++ back.flatten))) := List.perm_middle
        simpa using hperm
      exact ⟨j, s, s', _, hmiddle _, hmiddle _, h.effect⟩

/-! ## What holds at any moment -/

/-- What holds of a tree that came from another one, and of the writers that worked on it. -/
structure Orderly (origin tree : FileTree) (ws : List Writer) : Prop where
  within : FileTree.Within origin tree
  fresh : ∀ w ∈ ws, ∀ q, w.place? = some q → origin.get? q = none
  held : ∀ w ∈ ws, ∀ q, w.place? = some q → ∃ bytes, tree.get? q = some (.file bytes)
  reached : ∀ w ∈ ws, ∀ path, w.stage.path? = some path →
    tree.walk [] (Path.parts path) = .ok (place path)
  apart : (ws.filterMap Writer.place?).Nodup
  whole : ∀ w ∈ ws, ∀ path, w.stage = .kept path →
    tree.get? (place path) = some (.file w.job.content)
  files : ∀ q bytes, tree.get? q = some (.file bytes) →
    origin.get? q = some (.file bytes) ∨ ∃ w ∈ ws, w.place? = some q
  tried : ∀ w ∈ ws, ∀ n, w.stage = .trying n →
    n ≤ Disk.maxVersions ∧ ∀ m < n, tree.get? (place (w.job.path m)) ≠ none
  exhausted : ∀ w ∈ ws, ∀ fault torn, w.stage = .failed fault torn → fault.kind = .invalidPath →
    torn = none ∧ ∀ m < Disk.maxVersions, tree.get? (place (w.job.path m)) ≠ none

theorem Orderly.perm (h : Orderly origin tree ws) (hperm : ws.Perm ws') :
    Orderly origin tree ws' where
  within := h.within
  fresh w hw := h.fresh w (hperm.mem_iff.mpr hw)
  held w hw := h.held w (hperm.mem_iff.mpr hw)
  reached w hw := h.reached w (hperm.mem_iff.mpr hw)
  apart := (hperm.filterMap _).nodup_iff.mp h.apart
  whole w hw := h.whole w (hperm.mem_iff.mpr hw)
  files q bytes hq := (h.files q bytes hq).imp_right fun ⟨w, hw, hplace⟩ =>
    ⟨w, hperm.mem_iff.mp hw, hplace⟩
  tried w hw := h.tried w (hperm.mem_iff.mpr hw)
  exhausted w hw := h.exhausted w (hperm.mem_iff.mpr hw)

theorem stage_of_start {d : Disk} {calls : List Call} (hw : w ∈ (start d calls).writers) :
    w.stage = w.job.start := by
  simp only [Traffic.writers, start, List.mem_flatten, List.mem_map] at hw
  obtain ⟨_, ⟨call, -, rfl⟩, hw⟩ := hw
  obtain ⟨j, -, rfl⟩ := List.mem_map.mp hw
  rfl

theorem orderly_start (d : Disk) (calls : List Call) :
    Orderly d.tree (start d calls).tree (start d calls).writers := by
  have hplace {w : Writer} (hw : w ∈ (start d calls).writers) : w.place? = none := by
    rw [Writer.place?, stage_of_start hw]
    rfl
  refine ⟨.refl _, ?_, ?_, ?_, ?_, ?_, fun q bytes h => .inl h, ?_, ?_⟩
  · intro w hw q hq
    rw [hplace hw] at hq
    cases hq
  · intro w hw q hq
    rw [hplace hw] at hq
    cases hq
  · intro w hw path hpath
    rw [stage_of_start hw] at hpath
    cases hpath
  · rw [List.filterMap_eq_nil_iff.mpr fun w hw => hplace hw]
    exact List.nodup_nil
  · intro w hw path hkept
    rw [stage_of_start hw] at hkept
    cases hkept
  · intro w hw n htrying
    rw [stage_of_start hw] at htrying
    cases htrying
  · intro w hw fault torn hfailed
    rw [stage_of_start hw] at hfailed
    cases hfailed

section Step

variable {j : Job} {s s' : Stage} {others : List Writer}

theorem Orderly.rest (h : Orderly origin tree (⟨j, s⟩ :: others)) (hw : w ∈ others) {q : List String}
    (hq : w.place? = some q) : s.place? ≠ some q := by
  intro hown
  have hapart := h.apart
  have hplace : Writer.place? ⟨j, s⟩ = some q := hown
  rw [List.filterMap_cons_some hplace] at hapart
  exact (List.nodup_cons.mp hapart).1 (List.mem_filterMap.mpr ⟨w, hw, hq⟩)

/-- Directories stay directories. -/
theorem Orderly.directories (h : Orderly origin tree (⟨j, s⟩ :: others))
    (heffect : Job.Effect j tree s tree' s') (q : List String)
    (hq : tree.get? q = some .directory) : tree'.get? q = some .directory := by
  refine heffect.get?_eq hq fun hown => ?_
  obtain ⟨bytes, hbytes⟩ := h.held _ List.mem_cons_self q hown
  rw [hq] at hbytes
  cases hbytes

theorem Orderly.step (h : Orderly origin tree (⟨j, s⟩ :: others))
    (heffect : Job.Effect j tree s tree' s') : Orderly origin tree' (⟨j, s'⟩ :: others) where
  within q node hq := by
    have hfree : s.place? ≠ some q := fun hown => by
      have hnone := h.fresh _ List.mem_cons_self q hown
      rw [hq] at hnone
      cases hnone
    exact heffect.get?_eq (h.within q node hq) hfree
  fresh w hw q hq := by
    rcases List.mem_cons.mp hw with rfl | hw
    · rcases heffect.place?_eq with hsame | ⟨n, rfl, rfl, hnew, rfl, -⟩
      · exact h.fresh _ List.mem_cons_self q (hsame.symm.trans hq)
      · obtain rfl := Option.some.inj hq
        by_contra hne
        obtain ⟨node, hnode⟩ := Option.ne_none_iff_exists'.mp hne
        have hthere := h.within _ node hnode
        rw [hnew] at hthere
        cases hthere
    · exact h.fresh w (List.mem_cons_of_mem _ hw) q hq
  held w hw q hq := by
    rcases List.mem_cons.mp hw with rfl | hw
    · rcases heffect.place?_eq with hsame | ⟨n, rfl, rfl, hnew, rfl, -⟩
      · obtain ⟨bytes, hbytes⟩ := h.held _ List.mem_cons_self q (hsame.symm.trans hq)
        exact heffect.held hbytes
      · obtain rfl := Option.some.inj hq
        exact ⟨_, FileTree.get?_set_self (by simp [hnew]) _⟩
    · obtain ⟨bytes, hbytes⟩ := h.held w (List.mem_cons_of_mem _ hw) q hq
      exact heffect.held hbytes
  reached w hw path hpath := by
    refine FileTree.walk_of_directories (h.directories heffect) ?_
    rcases List.mem_cons.mp hw with rfl | hw
    · rcases heffect.path?_eq with hsame | ⟨n, rfl, rfl, -, -, hwalk⟩
      · exact h.reached _ List.mem_cons_self path (hsame.symm.trans hpath)
      · obtain rfl := Option.some.inj hpath
        exact hwalk
    · exact h.reached w (List.mem_cons_of_mem _ hw) path hpath
  apart := by
    rcases heffect.place?_eq with hsame | ⟨n, rfl, rfl, hnew, rfl, -⟩
    · have hapart := h.apart
      have hplace : Writer.place? ⟨j, s'⟩ = Writer.place? ⟨j, s⟩ := hsame
      rw [List.filterMap_cons] at hapart ⊢
      rwa [hplace]
    · have hapart := h.apart
      rw [List.filterMap_cons_none rfl] at hapart
      have hplace : Writer.place? ⟨j, .filling (j.path n)⟩ = some (place (j.path n)) := rfl
      rw [List.filterMap_cons_some hplace, List.nodup_cons]
      refine ⟨fun hmem => ?_, hapart⟩
      obtain ⟨w, hw, hplace⟩ := List.mem_filterMap.mp hmem
      obtain ⟨bytes, hbytes⟩ := h.held w (List.mem_cons_of_mem _ hw) _ hplace
      rw [hnew] at hbytes
      cases hbytes
  whole w hw path hkept := by
    rcases List.mem_cons.mp hw with rfl | hw
    · obtain rfl : s' = .kept path := hkept
      obtain ⟨rfl, rfl⟩ := heffect.kept
      obtain ⟨bytes, hbytes⟩ := h.held _ List.mem_cons_self (place path) rfl
      exact FileTree.get?_set_self (by simp [hbytes]) _
    · have hplace : w.place? = some (place path) := by rw [Writer.place?, hkept]; rfl
      exact heffect.get?_eq (h.whole w (List.mem_cons_of_mem _ hw) path hkept) (h.rest hw hplace)
  files q bytes hq := by
    rcases heffect.file hq with hq | hq
    · rcases h.files q bytes hq with horigin | ⟨w, hw, hplace⟩
      · exact .inl horigin
      · refine .inr ?_
        rcases List.mem_cons.mp hw with rfl | hw
        · refine ⟨_, List.mem_cons_self, ?_⟩
          rcases heffect.place?_eq with hsame | ⟨n, rfl, -⟩
          · exact hsame.trans hplace
          · cases hplace
        · exact ⟨w, List.mem_cons_of_mem _ hw, hplace⟩
    · exact .inr ⟨_, List.mem_cons_self, hq⟩
  tried w hw n htrying := by
    rcases List.mem_cons.mp hw with rfl | hw
    · obtain rfl : s' = .trying n := htrying
      rcases heffect.trying with rfl | ⟨m, rfl, hm, rfl, rfl, htaken⟩
      · exact ⟨Nat.zero_le _, fun m hm => absurd hm (Nat.not_lt_zero m)⟩
      · obtain ⟨-, hearlier⟩ := h.tried _ List.mem_cons_self m rfl
        refine ⟨hm, fun k hk => ?_⟩
        rcases Nat.lt_succ_iff_lt_or_eq.mp hk with hk | rfl
        · exact hearlier k hk
        · exact htaken
    · obtain ⟨hn, htaken⟩ := h.tried w (List.mem_cons_of_mem _ hw) n htrying
      exact ⟨hn, fun m hm => heffect.taken (htaken m hm)⟩
  exhausted w hw fault torn hfailed hkind := by
    rcases List.mem_cons.mp hw with rfl | hw
    · obtain rfl : s' = .failed fault torn := hfailed
      rcases heffect.failed with hio | ⟨rfl, rfl, n, hn, rfl⟩
      · rw [hkind] at hio
        cases hio
      · obtain ⟨-, htaken⟩ := h.tried _ List.mem_cons_self n rfl
        exact ⟨rfl, fun m hm => htaken m (Nat.lt_of_lt_of_le hm hn)⟩
    · obtain ⟨htorn, htaken⟩ :=
        h.exhausted w (List.mem_cons_of_mem _ hw) fault torn hfailed hkind
      exact ⟨htorn, fun m hm => heffect.taken (htaken m hm)⟩

end Step

theorem orderly_of_reaches {d : Disk} {calls : List Call} (h : Reaches (start d calls) t) :
    Orderly d.tree t.tree t.writers := by
  induction h with
  | refl => exact orderly_start d calls
  | tail _ hstep ih =>
      obtain ⟨j, s, s', others, hbefore, hafter, heffect⟩ := hstep.writers
      exact ((ih.perm hbefore).step heffect).perm hafter.symm

/-! ## The moment at which a file was made -/

/-- A file was made for a job at a path in a run: at some step, where nothing was, when all numbered
forms before it were taken. -/
def Made (first last : Traffic) (j : Job) (path : String) : Prop :=
  ∃ n before after, Reaches first before ∧ Step before after ∧ Reaches after last ∧
    path = j.path n ∧ before.tree.get? (place path) = none ∧
    after.tree = before.tree.set (place path) (.file .empty) ∧
    ∀ m < n, before.tree.get? (place (j.path m)) ≠ none

theorem Made.step {first : Traffic} {j : Job} {path : String} (h : Made first t j path)
    (hstep : Step t u) : Made first u j path := by
  obtain ⟨n, before, after, hbefore, hmake, hafter, hrest⟩ := h
  exact ⟨n, before, after, hbefore, hmake, hafter.tail hstep, hrest⟩

theorem made_of_reaches {d : Disk} {calls : List Call} (h : Reaches (start d calls) t)
    (hw : w ∈ t.writers) {path : String} (hpath : w.stage.path? = some path) :
    Made (start d calls) t w.job path := by
  induction h generalizing w path with
  | refl =>
      rw [stage_of_start hw] at hpath
      cases hpath
  | @tail t u hreach hstep ih =>
      have horderly := orderly_of_reaches hreach
      obtain ⟨j, s, s', others, hbefore, hafter, heffect⟩ := hstep.writers
      rcases List.mem_cons.mp (hafter.mem_iff.mp hw) with rfl | hw
      · rcases heffect.path?_eq with hsame | ⟨n, rfl, rfl, hnew, htree, -⟩
        · have hearlier : Made (start d calls) t j path :=
            ih (hbefore.mem_iff.mpr List.mem_cons_self) (hsame ▸ hpath)
          exact hearlier.step hstep
        · obtain rfl := Option.some.inj hpath
          obtain ⟨-, htaken⟩ := horderly.tried _ (hbefore.mem_iff.mpr List.mem_cons_self) n rfl
          exact ⟨n, t, u, hreach, hstep, .refl, rfl, hnew, htree, htaken⟩
      · exact (ih (hbefore.mem_iff.mpr (List.mem_cons_of_mem _ hw)) hpath).step hstep

/-! ## What calls report -/

theorem answer?_cons {paths : List String} (h : answer? (w :: ws) = some (.ok paths)) :
    ∃ path rest, w.stage = .kept path ∧ paths = path :: rest ∧ answer? ws = some (.ok rest) := by
  rw [answer?] at h
  split at h
  · rename_i path hkept
    obtain ⟨answer, hanswer, hpaths⟩ := Option.map_eq_some_iff.mp h
    cases answer with
    | error fault => cases hpaths
    | ok rest => exact ⟨path, rest, hkept, (Except.ok.inj hpaths).symm, hanswer⟩
  · simp at h
  · cases h

/-- The writers of a call that succeeded have all kept their files, at the paths that are reported. -/
theorem eq_of_answer? {paths : List String} (h : answer? ws = some (.ok paths)) :
    ws = ((ws.map Writer.job).zip paths).map fun r => ⟨r.1, .kept r.2⟩ := by
  induction ws generalizing paths with
  | nil => rfl
  | cons w ws ih =>
      obtain ⟨path, rest, hkept, rfl, hrest⟩ := answer?_cons h
      obtain ⟨j, s⟩ := w
      obtain rfl : s = .kept path := hkept
      exact congrArg _ (ih hrest)

theorem answer?_append {paths : List String} {done : List Writer} (todo : List Writer)
    (h : answer? done = some (.ok paths)) :
    answer? (done ++ todo) = (answer? todo).map (·.map (paths ++ ·)) := by
  have hmap (answer : Except Fault (List String)) (path : String) (rest : List String) :
      (answer.map (rest ++ ·)).map (path :: ·) = answer.map (path :: rest ++ ·) := by
    cases answer <;> rfl
  induction done generalizing paths with
  | nil =>
      obtain rfl : paths = [] := (Except.ok.inj (Option.some.inj h)).symm
      rw [List.nil_append]
      rcases answer? todo with _ | _ | _ <;> rfl
  | cons w done ih =>
      obtain ⟨path, rest, hkept, rfl, hrest⟩ := answer?_cons h
      rw [List.cons_append, answer?, hkept]
      simp only [ih hrest, Option.map_map, Function.comp_def, hmap]

theorem kept_of_answer? {paths : List String} (h : answer? ws = some (.ok paths)) :
    ∀ w ∈ ws, ∃ path, w.stage = .kept path := by
  induction ws generalizing paths with
  | nil => exact fun w hw => absurd hw List.not_mem_nil
  | cons w ws ih =>
      obtain ⟨path, rest, hkept, rfl, hrest⟩ := answer?_cons h
      intro x hx
      rcases List.mem_cons.mp hx with rfl | hx
      · exact ⟨path, hkept⟩
      · exact ih hrest x hx

theorem reported_eq (ws : List Writer) :
    reported ws = [] ∨ ws = (reported ws).map fun r => ⟨r.1, .kept r.2⟩ := by
  unfold reported
  split
  · rename_i paths h
    exact .inr (eq_of_answer? h)
  · exact .inl rfl

theorem mem_writers_of_mem_reports {r : Job × String} (h : r ∈ t.reports) :
    ⟨r.1, .kept r.2⟩ ∈ t.writers := by
  obtain ⟨ws, hws, hr⟩ := List.mem_flatMap.mp h
  refine List.mem_flatten.mpr ⟨ws, hws, ?_⟩
  rcases reported_eq ws with hnone | hall
  · rw [hnone] at hr
    cases hr
  · rw [hall]
    exact List.mem_map.mpr ⟨r, hr, rfl⟩

theorem reports_sublist (calls : List (List Writer)) :
    List.Sublist ((calls.flatMap reported).map fun r => place r.2)
      (calls.flatten.filterMap Writer.place?) := by
  induction calls with
  | nil => exact .slnil
  | cons ws calls ih =>
      rw [List.flatMap_cons, List.map_append, List.flatten_cons, List.filterMap_append]
      refine List.Sublist.append ?_ ih
      rcases reported_eq ws with hnone | hall
      · rw [hnone]
        exact List.nil_sublist _
      · have hplaces : ws.filterMap Writer.place? = (reported ws).map fun r => place r.2 := by
          rw [congrArg (List.filterMap Writer.place?) hall, List.filterMap_map]
          exact congrFun (List.filterMap_eq_map (f := fun r : Job × String => place r.2)) _
        rw [hplaces]

theorem nodup_reports {d : Disk} {calls : List Call} (h : Reaches (start d calls) t) :
    (t.reports.map fun r => place r.2).Nodup :=
  (orderly_of_reaches h).apart.sublist (reports_sublist t.calls)

/-- Every call has the jobs with which it started. -/
theorem jobs_of_reaches {d : Disk} {calls : List Call} (h : Reaches (start d calls) t) :
    t.calls.map (·.map Writer.job) = calls.map (Call.jobs d) := by
  induction h with
  | refl => simp [start, Function.comp_def]
  | tail _ hstep ih =>
      cases hstep with
      | work => simpa using ih

/-- What holds of calls at once, at any moment. -/
structure Sound (d : Disk) (calls : List Call) (t : Traffic) : Prop where
  jobs : t.calls.map (·.map Writer.job) = calls.map (Call.jobs d)
  unchanged : FileTree.Within d.tree t.tree
  apart : (t.reports.map fun r => place r.2).Nodup
  fresh : ∀ r ∈ t.reports, d.tree.get? (place r.2) = none
  whole : ∀ r ∈ t.reports, t.tree.get? (place r.2) = some (.file r.1.content) ∧
    t.tree.read (Path.parts r.2) = .ok r.1.content
  made : ∀ r ∈ t.reports, Made (start d calls) t r.1 r.2
  files : ∀ q bytes, t.tree.get? q = some (.file bytes) →
    d.tree.get? q = some (.file bytes) ∨ ∃ w ∈ t.writers, w.place? = some q
  exhausted : ∀ w ∈ t.writers, ∀ fault torn, w.stage = .failed fault torn →
    fault.kind = .invalidPath → w.place? = none ∧
      ∀ m < Disk.maxVersions, t.tree.get? (place (w.job.path m)) ≠ none

theorem sound_of_reaches {d : Disk} {calls : List Call} (h : Reaches (start d calls) t) :
    Sound d calls t := by
  have horderly := orderly_of_reaches h
  refine ⟨jobs_of_reaches h, horderly.within, nodup_reports h, fun r hr => ?_, fun r hr => ?_,
    fun r hr => ?_, horderly.files, fun w hw fault torn hfailed hkind => ?_⟩
  · exact horderly.fresh _ (mem_writers_of_mem_reports hr) _ rfl
  · have hwriter := mem_writers_of_mem_reports hr
    have hfile := horderly.whole _ hwriter r.2 rfl
    exact ⟨hfile, FileTree.read_eq_ok (horderly.reached _ hwriter r.2 rfl) hfile⟩
  · exact made_of_reaches h (mem_writers_of_mem_reports hr) rfl
  · obtain ⟨rfl, htaken⟩ := horderly.exhausted w hw fault torn hfailed hkind
    exact ⟨congrArg Stage.place? hfailed, htaken⟩

/-! ## One call after the other -/

/-- The writer whose turn it is may go on alone. -/
theorem reaches_of_alone {j : Job} {s s' : Stage} {done : List Writer} (todo : List Writer)
    (front back : List (List Writer)) (hdone : ∀ w ∈ done, ∃ path, w.stage = .kept path)
    (h : Job.Alone j (tree, s) (tree', s')) :
    Reaches ⟨tree, front ++ (done ++ ⟨j, s⟩ :: todo) :: back⟩
      ⟨tree', front ++ (done ++ ⟨j, s'⟩ :: todo) :: back⟩ := by
  generalize hx : (tree, s) = x at h
  generalize hy : (tree', s') = y at h
  induction h generalizing tree' s' with
  | refl =>
      obtain ⟨rfl, rfl⟩ := Prod.mk.inj (hx.trans hy.symm)
      exact .refl
  | @tail y z _ hstep ih =>
      subst hy
      exact (ih rfl).tail (.work hdone (.works hstep))

/-- A call whose jobs are done alone comes to the answer and the tree of the store. -/
theorem reaches_writeAll (d : Disk) (jobs : List Job) {done : List Writer} {paths : List String}
    (hdone : answer? done = some (.ok paths)) (front back : List (List Writer))
    (hsame : tree.get? = d.tree.get?) :
    ∃ tree' ws, Reaches ⟨tree, front ++ (done ++ jobs.map fun j => ⟨j, j.start⟩) :: back⟩
        ⟨tree', front ++ ws :: back⟩ ∧
      tree'.get? = (d.writeAll jobs).2.tree.get? ∧
      answer? ws = some ((d.writeAll jobs).1.map (paths ++ ·)) := by
  induction jobs generalizing d done paths tree with
  | nil =>
      refine ⟨tree, done, ?_, hsame, ?_⟩
      · rw [List.map_nil, List.append_nil]
        exact .refl
      · rw [hdone]
        simp [Disk.writeAll, Except.map]
  | cons j jobs ih =>
      obtain ⟨t, halone, hget⟩ := Job.alone_writeNew d j
      obtain ⟨u, hu, hget'⟩ := halone.congr hsame.symm
      have hreach := reaches_of_alone (jobs.map fun j => ⟨j, j.start⟩) front back
        (kept_of_answer? hdone) hu
      rw [hget] at hget'
      unfold Disk.writeAll
      rcases hwrite : d.writeNew j.dir j.name j.content with ⟨fault | path, e⟩ <;>
        rw [hwrite] at hreach hget'
      · refine ⟨u, _, hreach, hget'.symm, ?_⟩
        rw [answer?_append _ hdone]
        rfl
      · have hkept : answer? (done ++ [⟨j, .kept path⟩]) = some (.ok (paths ++ [path])) := by
          rw [answer?_append _ hdone]
          rfl
        obtain ⟨tree', ws, hrest, htree, hanswer⟩ := ih e hkept hget'.symm
        rw [List.append_assoc, List.singleton_append] at hrest
        refine ⟨tree', ws, hreach.trans hrest, htree, ?_⟩
        rw [hanswer]
        dsimp only
        rcases (e.writeAll jobs).1 with fault | rest
        · rfl
        · simp [Except.map]

theorem jobs_of_tree (d : Disk) (t : FileTree) : Call.jobs { d with tree := t } = Call.jobs d := by
  funext call
  cases call <;> rfl

/-- Calls one after the other are calls at once in one of their orders. -/
theorem reaches_performAll (d : Disk) (calls : List Call) :
    ∃ t, Reaches (start d calls) t ∧ t.tree.get? = (Store.performAll d calls).2.tree.get? ∧
      t.calls.map answer? = (Store.performAll d calls).1.map some := by
  have hgeneral (tree : FileTree) (hsame : tree.get? = d.tree.get?) (front : List (List Writer)) :
      ∃ tree' ends, Reaches ⟨tree, front ++ calls.map fun call => (call.jobs d).map fun j =>
            ⟨j, j.start⟩⟩ ⟨tree', front ++ ends⟩ ∧
        tree'.get? = (Store.performAll d calls).2.tree.get? ∧
        ends.map answer? = (Store.performAll d calls).1.map some := by
    induction calls generalizing d tree front with
    | nil => exact ⟨tree, [], .refl, hsame, rfl⟩
    | cons call calls ih =>
        have hnone : answer? [] = some (.ok []) := rfl
        obtain ⟨tree', ws, hfirst, htree, hanswer⟩ := reaches_writeAll d (call.jobs d) hnone front
          (calls.map fun call => (call.jobs d).map fun j => ⟨j, j.start⟩) hsame
        obtain ⟨answer, t, hperform⟩ := d.writeAll_eq (call.jobs d)
        rw [hperform] at htree hanswer
        obtain ⟨tree'', ends, hrest, hget, hanswers⟩ := ih { d with tree := t } tree' htree
          (front ++ [ws])
        rw [jobs_of_tree, List.append_assoc, List.append_assoc] at hrest
        refine ⟨tree'', ws :: ends, hfirst.trans hrest, ?_, ?_⟩
        · rw [Store.performAll, d.perform_eq, hperform]
          exact hget
        · rw [Store.performAll, d.perform_eq, hperform]
          refine List.cons_eq_cons.mpr ⟨hanswer.trans ?_, hanswers⟩
          cases answer <;> rfl
  obtain ⟨tree', ends, hreach, htree, hanswers⟩ := hgeneral d.tree rfl []
  exact ⟨⟨tree', ends⟩, hreach, htree, hanswers⟩

end Traffic

end Scriptorium.Archive
