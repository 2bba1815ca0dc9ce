import Mathlib.Data.List.Nodup
import Scriptorium.Archive.FileTree
import Scriptorium.Proofs.Archive.Naming

/-! # What operations do to a tree

Making a file or a directory puts one node where there was none. So nodes are only ever added, what is
at a path stays there, and a directory made with those above it leaves only directories behind that lie
on its path.
-/

namespace Scriptorium.Archive

namespace FileTree

variable {t u v : FileTree} {path : List String} {node : FileNode}

/-! ## Nodes -/

def set (t : FileTree) (path : List String) (node : FileNode) : FileTree :=
  ⟨t.nodes.insert path node⟩

theorem get?_set_of_ne {q : List String} (h : q ≠ path) (node : FileNode) :
    (t.set path node).get? q = t.get? q := by
  have hne : (path == q) = false := beq_false_of_ne (Ne.symm h)
  simp [get?, set, Std.HashMap.getElem?_insert, hne]

theorem get?_set_self (h : t.get? path ≠ some .directory) (node : FileNode) :
    (t.set path node).get? path = some node := by
  have hup : ¬ path.all (· = "..") = true := fun hall => h (by simp [get?, hall])
  simp [get?, set, hup]

theorem get?_set_self_ne_none (t : FileTree) (path : List String) (node : FileNode) :
    (t.set path node).get? path ≠ none := by
  by_cases hup : path.all (· = "..") = true
  · simp [get?, hup]
  · simp [get?, set, hup]

theorem get?_set_set (t : FileTree) (path : List String) (node node' : FileNode) (q : List String) :
    ((t.set path node).set path node').get? q = (t.set path node').get? q := by
  by_cases heq : q = path
  · subst heq
    by_cases hup : q.all (· = "..") = true
    · simp [get?, hup]
    · simp [get?, set, hup]
  · rw [get?_set_of_ne heq, get?_set_of_ne heq, get?_set_of_ne heq]

/-- Nothing is at or below a name in an empty tree. -/
theorem get?_empty (q : List String) {name : String} {rest : List String} (h : name ≠ "..") :
    ({} : FileTree).get? (q ++ name :: rest) = none := by
  simp [get?, h]

def Within (t u : FileTree) : Prop := ∀ path node, t.get? path = some node → u.get? path = some node

theorem Within.refl (t : FileTree) : Within t t := fun _ _ h => h

theorem Within.trans (h : Within t u) (h' : Within u v) : Within t v :=
  fun path node ht => h' path node (h path node ht)

theorem within_set (h : t.get? path = none) (node : FileNode) : Within t (t.set path node) := by
  intro q n hq
  have hne : q ≠ path := by
    intro heq
    rw [heq, h] at hq
    cases hq
  rw [get?_set_of_ne hne]
  exact hq

/-! ## Walking -/

theorem settle_append {parts names : List String}
    (h : ∀ name ∈ names, name ≠ "." ∧ name ≠ "..") :
    settle (parts ++ names) = settle parts ++ names := by
  have hfold (here : List String) : names.foldl step here = here ++ names := by
    induction names generalizing here with
    | nil => exact (List.append_nil here).symm
    | cons name names ih =>
        obtain ⟨hname, hnames⟩ := List.forall_mem_cons.mp h
        rw [List.foldl_cons, ih hnames, step, if_neg hname.1, if_neg hname.2, List.append_assoc]
        rfl
  rw [settle, List.foldl_append, hfold]
  rfl

theorem walk_eq_ok {here parts path : List String} (h : t.walk here parts = .ok path) :
    path = parts.foldl step here := by
  induction parts generalizing here with
  | nil => exact (Except.ok.inj h).symm
  | cons part rest ih =>
      unfold walk at h
      split at h
      · cases h
      · cases h
      · split at h
        · cases h
        · exact ih h

theorem walk_cons (here : List String) (part : String) (rest : List String) :
    t.walk here (part :: rest) =
      match t.get? here with
      | none => .error .notFound
      | some (.file _) => .error .notDirectory
      | some .directory =>
        if tooLong part then .error .nameTooLong else t.walk (step here part) rest := by
  rcases hget : t.get? here with _ | _ | _ <;> simp only [walk, hget]

theorem walk_append (here front rest : List String) :
    t.walk here (front ++ rest) = (t.walk here front).bind (t.walk · rest) := by
  induction front generalizing here with
  | nil => rfl
  | cons part front ih =>
      rw [List.cons_append, walk_cons, walk_cons]
      split
      · rfl
      · rfl
      · split
        · rfl
        · exact ih _

/-- A walk passes directories only. -/
theorem walk_of_directories (h : ∀ q, t.get? q = some .directory → u.get? q = some .directory)
    {here parts path : List String} (hwalk : t.walk here parts = .ok path) : u.walk here parts = .ok path := by
  induction parts generalizing here with
  | nil => exact hwalk
  | cons part rest ih =>
      unfold walk at hwalk ⊢
      split at hwalk
      · cases hwalk
      · cases hwalk
      · rename_i hhere
        rw [h _ hhere]
        dsimp only
        split at hwalk
        · cases hwalk
        · rename_i hshort
          rw [if_neg hshort]
          exact ih hwalk

/-- A walk that succeeds has passed a directory before each of its parts. -/
theorem get?_of_walk {here parts front path : List String} (hwalk : t.walk here parts = .ok path)
    (hfront : front <+: parts) (hproper : front ≠ parts) :
    t.get? (front.foldl step here) = some .directory := by
  obtain ⟨rest, rfl⟩ := hfront
  cases rest with
  | nil => exact absurd (List.append_nil front).symm hproper
  | cons part rest =>
      rw [walk_append] at hwalk
      cases hbefore : t.walk here front with
      | error e => rw [hbefore] at hwalk; cases hwalk
      | ok reached =>
          rw [hbefore, Except.bind, walk_cons] at hwalk
          rw [← walk_eq_ok hbefore]
          split at hwalk
          · cases hwalk
          · cases hwalk
          · assumption

theorem short_of_walk {here parts path : List String} (hwalk : t.walk here parts = .ok path) :
    ∀ part ∈ parts, tooLong part = false := by
  induction parts generalizing here with
  | nil => simp
  | cons part rest ih =>
      rw [walk_cons] at hwalk
      split at hwalk
      · cases hwalk
      · cases hwalk
      · split at hwalk
        · cases hwalk
        · rename_i hshort
          exact List.forall_mem_cons.mpr ⟨by simpa using hshort, ih hwalk⟩

/-- Where no name is too long and no file is in the way, a walk can only miss a directory. -/
theorem walk_of_clear {here parts : List String} (hshort : ∀ part ∈ parts, tooLong part = false)
    (hclear : ∀ front, front <+: parts → ∀ content,
      t.get? (front.foldl step here) ≠ some (.file content)) :
    t.walk here parts = .ok (parts.foldl step here) ∨ t.walk here parts = .error .notFound := by
  induction parts generalizing here with
  | nil => exact .inl rfl
  | cons part rest ih =>
      obtain ⟨hpart, hrest⟩ := List.forall_mem_cons.mp hshort
      rw [walk_cons]
      cases hhere : t.get? here with
      | none => exact .inr rfl
      | some node =>
          cases node with
          | file content => exact absurd hhere (hclear [] (List.nil_prefix) content)
          | directory =>
              simp only [hpart, Bool.false_eq_true, if_false, List.foldl_cons]
              refine ih hrest fun front hfront content => ?_
              exact hclear (part :: front) (List.cons_prefix_cons.mpr ⟨rfl, hfront⟩) content

theorem walk_ne_exists (here parts : List String) : t.walk here parts ≠ .error .exists_ := by
  induction parts generalizing here with
  | nil => simp [walk]
  | cons part rest ih =>
      unfold walk
      split
      · simp
      · simp
      · split
        · simp
        · exact ih _

/-! ## Making one node -/

def makeNode (t : FileTree) (parts : List String) (node : FileNode) : Except OsError FileTree := do
  let path ← t.walk [] parts
  match t.get? path with
  | some _ => .error .exists_
  | none => .ok (t.set path node)

theorem makeDirectory_eq_makeNode (t : FileTree) (parts : List String) :
    t.makeDirectory parts = t.makeNode parts .directory := rfl

theorem createNew_eq_makeNode (t : FileTree) (parts : List String) (content : ByteArray) :
    t.createNew parts content = t.makeNode parts (.file content) := rfl

theorem makeNode_eq_ok {parts : List String} {node : FileNode} (h : t.makeNode parts node = .ok u) :
    t.get? (settle parts) = none ∧ u = t.set (settle parts) node ∧
      t.walk [] parts = .ok (settle parts) := by
  unfold makeNode at h
  cases hwalk : t.walk [] parts with
  | error e => simp [hwalk, bind, Except.bind] at h
  | ok path =>
      obtain rfl := walk_eq_ok hwalk
      simp only [hwalk, bind, Except.bind] at h
      cases hget : t.get? (parts.foldl step []) with
      | some node => simp [hget] at h
      | none =>
          simp only [hget] at h
          exact ⟨hget, (Except.ok.inj h).symm, rfl⟩

theorem makeDirectory_eq_ok {parts : List String} (h : t.makeDirectory parts = .ok u) :
    t.get? (settle parts) = none ∧ u = t.set (settle parts) .directory ∧
      t.walk [] parts = .ok (settle parts) := by
  rw [makeDirectory_eq_makeNode] at h
  exact makeNode_eq_ok h

theorem createNew_eq_ok {parts : List String} {content : ByteArray}
    (h : t.createNew parts content = .ok u) :
    t.get? (settle parts) = none ∧ u = t.set (settle parts) (.file content) ∧
      t.walk [] parts = .ok (settle parts) := by
  rw [createNew_eq_makeNode] at h
  exact makeNode_eq_ok h

theorem createNew_of_free {parts : List String} (hwalk : t.walk [] parts = .ok (settle parts))
    (hfree : t.get? (settle parts) = none) (content : ByteArray) :
    t.createNew parts content = .ok (t.set (settle parts) (.file content)) := by
  simp only [createNew, hwalk, bind, Except.bind, hfree]
  rfl

theorem createNew_of_taken {parts : List String} (hwalk : t.walk [] parts = .ok (settle parts))
    (htaken : t.get? (settle parts) ≠ none) (content : ByteArray) :
    t.createNew parts content = .error .exists_ := by
  obtain ⟨node, hnode⟩ := Option.ne_none_iff_exists'.mp htaken
  simp only [createNew, hwalk, bind, Except.bind, hnode]

theorem createNew_eq_exists {parts : List String} {content : ByteArray}
    (h : t.createNew parts content = .error .exists_) : t.get? (settle parts) ≠ none := by
  unfold createNew at h
  cases hwalk : t.walk [] parts with
  | error e =>
      simp only [hwalk, bind, Except.bind, Except.error.injEq] at h
      exact absurd (h ▸ hwalk) (walk_ne_exists _ _)
  | ok path =>
      obtain rfl := walk_eq_ok hwalk
      simp only [hwalk, bind, Except.bind] at h
      intro hget
      rw [settle] at hget
      simp [hget] at h

theorem createNew_map (t : FileTree) (parts : List String) (content content' : ByteArray) :
    t.createNew parts content' =
      (t.createNew parts content).map fun _ => t.set (settle parts) (.file content') := by
  unfold createNew
  cases hwalk : t.walk [] parts with
  | error e => rfl
  | ok path =>
      obtain rfl := walk_eq_ok hwalk
      simp only [bind, Except.bind]
      cases t.get? (parts.foldl step []) <;> rfl

/-! ## Making directories -/

/-- Makes a directory whose parent is there, unless it is there itself. -/
def furnish (t : FileTree) (parts : List String) : FileTree × Except OsError Unit :=
  match t.makeDirectory parts with
  | .ok t => (t, .ok ())
  | .error e => (t, if t.isDirectory parts then .ok () else .error e)

theorem makeAll_cons_of_missing {last : String} {rest : List String}
    (h : t.makeDirectory (last :: rest).reverse = .error .notFound) :
    t.makeAll (last :: rest) =
      match t.makeAll (Path.above (last :: rest)) with
      | (u, .ok ()) => u.furnish (last :: rest).reverse
      | (u, .error e) => (u, .error e) := by
  rw [makeAll]
  simp only [h]
  rcases t.makeAll (Path.above (last :: rest)) with ⟨u, _ | _⟩
  · rfl
  · dsimp only [furnish]
    cases u.makeDirectory (last :: rest).reverse with
    | ok v => rfl
    | error e =>
        dsimp only
        split <;> rfl

theorem makeAll_cons_of_not_missing {last : String} {rest : List String}
    (h : t.makeDirectory (last :: rest).reverse ≠ .error .notFound) :
    t.makeAll (last :: rest) = t.furnish (last :: rest).reverse := by
  rw [makeAll]
  cases hdir : t.makeDirectory (last :: rest).reverse with
  | ok u => simp only [furnish, hdir]
  | error e =>
      cases e with
      | notFound => exact absurd hdir h
      | _ =>
          simp only [furnish, hdir]
          split <;> rfl

/-- A tree with directories added on a path, and nothing else. -/
structure Furnishes (parts : List String) (t u : FileTree) : Prop where
  within : Within t u
  added : ∀ q node, u.get? q = some node →
    t.get? q = some node ∨ node = .directory ∧ ∃ front, front <+: parts ∧ q = settle front

namespace Furnishes

variable {parts front : List String} {t u v : FileTree}

theorem refl (parts : List String) (t : FileTree) : Furnishes parts t t :=
  ⟨.refl t, fun _ _ h => .inl h⟩

theorem trans (htu : Furnishes parts t u) (huv : Furnishes parts u v) : Furnishes parts t v where
  within := htu.within.trans huv.within
  added q node h := (huv.added q node h).elim (htu.added q node) .inr

theorem mono (h : Furnishes front t u) (hfront : front <+: parts) : Furnishes parts t u where
  within := h.within
  added q node hq := (h.added q node hq).imp_right fun ⟨hnode, begins, hbegins, heq⟩ =>
    ⟨hnode, begins, hbegins.trans hfront, heq⟩

end Furnishes

theorem furnish_adds (t : FileTree) (parts : List String) :
    Furnishes parts t (t.furnish parts).1 := by
  unfold furnish
  cases hmade : t.makeDirectory parts with
  | error e => exact .refl parts t
  | ok u =>
      obtain ⟨hnew, rfl, -⟩ := makeDirectory_eq_ok hmade
      refine ⟨within_set hnew _, fun q node h => ?_⟩
      by_cases heq : q = settle parts
      · subst heq
        rw [get?_set_self (by simp [hnew])] at h
        exact .inr ⟨(Option.some.inj h).symm, parts, List.prefix_refl _, rfl⟩
      · rw [get?_set_of_ne heq] at h
        exact .inl h

/-- Making directories adds directories on the path only. -/
theorem makeAll_adds (t : FileTree) (parts : List String) :
    Furnishes parts.reverse t (t.makeAll parts).1 := by
  induction hlength : parts.length using Nat.strongRecOn generalizing t parts with
  | _ size ih =>
  cases parts with
  | nil =>
      rw [makeAll]
      exact .refl _ t
  | cons last rest =>
      by_cases hmissing : t.makeDirectory (last :: rest).reverse = .error .notFound
      · have habove := ih _ (hlength ▸ Path.length_above_cons last rest) t
          (Path.above (last :: rest)) rfl
        have hbegins : (Path.above (last :: rest)).reverse <+: (last :: rest).reverse := by
          rw [List.reverse_prefix]
          exact (List.drop_suffix _ _).trans (List.dropWhile_suffix _)
        rw [makeAll_cons_of_missing hmissing]
        rcases hmade : t.makeAll (Path.above (last :: rest)) with ⟨u, e | _⟩ <;>
          rw [hmade] at habove
        · exact habove.mono hbegins
        · exact (habove.mono hbegins).trans (u.furnish_adds _)
      · rw [makeAll_cons_of_not_missing hmissing]
        exact t.furnish_adds _

/-! ## Reading -/

theorem read_eq_ok {parts : List String} {content : ByteArray}
    (hwalk : t.walk [] parts = .ok (settle parts))
    (hfile : t.get? (settle parts) = some (.file content)) : t.read parts = .ok content := by
  simp only [read, hwalk, bind, Except.bind, hfile]

/-- What is listed is in the directory, each name once. -/
theorem entries_eq_ok {parts names : List String} (h : t.entries parts = .ok names) :
    t.walk [] parts = .ok (settle parts) ∧ t.get? (settle parts) = some .directory ∧
      names.Nodup ∧ ∀ name, name ≠ ".." →
        (name ∈ names ↔ t.get? (settle parts ++ [name]) ≠ none) := by
  unfold entries at h
  cases hwalk : t.walk [] parts with
  | error e => simp [hwalk, bind, Except.bind] at h
  | ok path =>
      have hpath : path = settle parts := walk_eq_ok hwalk
      simp only [hwalk, bind, Except.bind] at h
      split at h
      · cases h
      · cases h
      · rename_i hdirectory
        have hperm : names.Perm
            (t.nodes.keys.filterMap fun k => if k.dropLast = path then k.getLast? else none) := by
          rw [← Except.ok.inj h]
          exact List.mergeSort_perm _ _
        have hkey {k : List String} {name : String} :
            (if k.dropLast = path then k.getLast? else none) = some name ↔ k = path ++ [name] := by
          rw [Option.ite_none_right_eq_some]
          constructor
          · rintro ⟨rfl, hlast⟩
            exact (List.dropLast_append_getLast? name hlast).symm
          · rintro rfl
            simp
        refine ⟨by rw [hpath], hpath ▸ hdirectory, ?_, fun name hname => ?_⟩
        · rw [hperm.nodup_iff]
          refine List.Nodup.filterMap (fun k k' name hk hk' => ?_) t.nodes.nodup_keys
          rw [hkey.mp hk, hkey.mp hk']
        · have hup : ¬ (path ++ [name]).all (· = "..") = true := by simp [hname]
          rw [hperm.mem_iff, ← hpath, get?, if_neg hup, List.mem_filterMap]
          simp [hkey]

/-! ## Trees with the same nodes -/

theorem set_congr (h : t.get? = u.get?) (path : List String) (node : FileNode) :
    (t.set path node).get? = (u.set path node).get? := by
  funext q
  by_cases heq : q = path
  · subst heq
    by_cases hup : q.all (· = "..") = true
    · simp [get?, hup]
    · simp [get?, set, hup]
  · rw [get?_set_of_ne heq, get?_set_of_ne heq, h]

theorem walk_congr (h : t.get? = u.get?) (here parts : List String) :
    t.walk here parts = u.walk here parts := by
  induction parts generalizing here with
  | nil => rfl
  | cons part rest ih => rw [walk_cons, walk_cons, h, ih]

theorem isDirectory_congr (h : t.get? = u.get?) (parts : List String) :
    t.isDirectory parts = u.isDirectory parts := by
  unfold isDirectory
  rw [walk_congr h, h]

/-- Two answers that are the same reason, or trees with the same nodes. -/
inductive SameAnswer : Except OsError FileTree → Except OsError FileTree → Prop where
  | made {t u : FileTree} (h : t.get? = u.get?) : SameAnswer (.ok t) (.ok u)
  | refused (e : OsError) : SameAnswer (.error e) (.error e)

theorem makeNode_congr (h : t.get? = u.get?) (parts : List String) (node : FileNode) :
    SameAnswer (t.makeNode parts node) (u.makeNode parts node) := by
  unfold makeNode
  rw [walk_congr h, h]
  cases u.walk [] parts with
  | error e => exact .refused e
  | ok path =>
      simp only [bind, Except.bind]
      cases u.get? path with
      | some other => exact .refused .exists_
      | none => exact .made (set_congr h path node)

theorem makeDirectory_congr (h : t.get? = u.get?) (parts : List String) :
    SameAnswer (t.makeDirectory parts) (u.makeDirectory parts) := by
  rw [makeDirectory_eq_makeNode, makeDirectory_eq_makeNode]
  exact makeNode_congr h parts .directory

theorem createNew_congr (h : t.get? = u.get?) (parts : List String) (content : ByteArray) :
    SameAnswer (t.createNew parts content) (u.createNew parts content) := by
  rw [createNew_eq_makeNode, createNew_eq_makeNode]
  exact makeNode_congr h parts (.file content)

end FileTree

end Scriptorium.Archive
