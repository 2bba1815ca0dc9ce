import Mathlib.Logic.Relation
import Scriptorium.Proofs.Archive.Writing

/-! # Writers

A writer makes one file on disk by calls to the system, each of which is one step: it makes the
directories that are missing, tries one numbered form of the name after the other until a file can be
made that was not there, and fills that file. Any call may also break for reasons of the system. What a
step can do to the tree is told once; and a writer that is alone and lucky comes to what the store
comes to.
-/

namespace Scriptorium.Archive

/-- How far a writer has come. On the way down to a directory that is there, and up again, `later`
are the directories still to be made; directories are paths from their last part to their first. A
writer that failed may have left a torn file. -/
inductive Stage where
  | descending (parts : List String) (later : List (List String))
  | checking (parts : List String) (reason : OsError) (later : List (List String))
  | ascending (later : List (List String))
  | trying (n : Nat)
  | filling (path : String)
  | kept (path : String)
  | failed (fault : Fault) (torn : Option String)

namespace Stage

def path? : Stage → Option String
  | filling path | kept path => some path
  | failed _ torn => torn
  | _ => none

def place? (s : Stage) : Option (List String) := s.path?.map place

def ending : Except Fault String → Stage
  | .ok path => .kept path
  | .error fault => .failed fault none

end Stage

namespace Job

def start (j : Job) : Stage := .descending (Path.parts j.dir).reverse []

/-- The next call of a writer and what becomes of it, unless the writer has ended. -/
def work (j : Job) (t : FileTree) : Stage → Option (FileTree × Stage)
  | .descending [] later => some (t, .ascending later)
  | .descending (last :: rest) later =>
    match t.makeDirectory (last :: rest).reverse with
    | .ok t => some (t, .ascending later)
    | .error .notFound => some (t, .descending (Path.above (last :: rest)) ((last :: rest) :: later))
    | .error e => some (t, .checking (last :: rest) e later)
  | .checking parts e later =>
    if t.isDirectory parts.reverse then some (t, .ascending later)
    else some (t, .failed (.cannotCreate j.dir e) none)
  | .ascending [] => some (t, .trying 0)
  | .ascending (parts :: later) =>
    match t.makeDirectory parts.reverse with
    | .ok t => some (t, .ascending later)
    | .error e => some (t, .checking parts e later)
  | .trying n =>
    if n < Disk.maxVersions then
      match t.createNew (Path.parts (j.path n)) .empty with
      | .ok t => some (t, .filling (j.path n))
      | .error .exists_ => some (t, .trying (n + 1))
      | .error e => some (t, .failed (.cannotCreate (j.path n) e) none)
    else some (t, .failed (.noFreeName j.name j.dir Disk.maxVersions) none)
  | .filling path => some (t.set (place path) (.file j.content), .kept path)
  | .kept _ => none
  | .failed _ _ => none

/-- A call does its work, or it breaks; one that fills a file may leave any bytes there. -/
inductive Step (j : Job) : FileTree × Stage → FileTree × Stage → Prop where
  | works {t : FileTree} {s : Stage} {next : FileTree × Stage} (h : j.work t s = some next) :
      Step j (t, s) next
  | breaks {t : FileTree} {s : Stage} {next : FileTree × Stage} (h : j.work t s = some next)
      (hfree : s.path? = none) (fault : Fault) (hfault : fault.kind = .io) :
      Step j (t, s) (t, .failed fault none)
  | tears {t : FileTree} {path : String} (bytes : ByteArray) (fault : Fault)
      (hfault : fault.kind = .io) :
      Step j (t, .filling path) (t.set (place path) (.file bytes), .failed fault (some path))

/-! ## What a step can do -/

/-- What a step does to the tree and what a writer has found out by it. -/
inductive Effect (j : Job) (t : FileTree) : Stage → FileTree → Stage → Prop where
  | furnishes {s s' : Stage} {path : List String} (hs : s.path? = none) (hs' : s'.path? = none)
      (hquiet : ∀ n, s' ≠ .trying n) (hend : ∀ fault torn, s' ≠ .failed fault torn)
      (hnew : t.get? path = none) : Effect j t s (t.set path .directory) s'
  | looks {s s' : Stage} (hs : s.path? = none) (hs' : s'.path? = none)
      (hquiet : ∀ n, s' = .trying n → n = 0)
      (hend : ∀ fault torn, s' = .failed fault torn → fault.kind = .io) : Effect j t s t s'
  | passes {n : Nat} (hn : n < Disk.maxVersions) (htaken : t.get? (place (j.path n)) ≠ none) :
      Effect j t (.trying n) t (.trying (n + 1))
  | exhausts {n : Nat} (hn : Disk.maxVersions ≤ n) :
      Effect j t (.trying n) t (.failed (.noFreeName j.name j.dir Disk.maxVersions) none)
  | creates {n : Nat} (hn : n < Disk.maxVersions) (hnew : t.get? (place (j.path n)) = none)
      (hwalk : t.walk [] (Path.parts (j.path n)) = .ok (place (j.path n))) :
      Effect j t (.trying n) (t.set (place (j.path n)) (.file .empty)) (.filling (j.path n))
  | fills {path : String} : Effect j t (.filling path) (t.set (place path) (.file j.content))
      (.kept path)
  | tears {path : String} (bytes : ByteArray) {fault : Fault} (hfault : fault.kind = .io) :
      Effect j t (.filling path) (t.set (place path) (.file bytes)) (.failed fault (some path))

theorem work_effect {j : Job} {t u : FileTree} {s s' : Stage} (h : j.work t s = some (u, s')) :
    Effect j t s u s' := by
  have hmade {later : List (List String)} {dir : List String} {v : FileTree} {s : Stage}
      (hs : s.path? = none) (hdir : t.makeDirectory dir = .ok v) :
      Effect j t s v (.ascending later) := by
    obtain ⟨hnew, rfl, -⟩ := FileTree.makeDirectory_eq_ok hdir
    exact .furnishes hs rfl (by simp) (by simp) hnew
  have hio (dir : String) (e : OsError) : (Fault.cannotCreate dir e).kind = .io := rfl
  cases s with
  | descending parts later =>
      cases parts with
      | nil =>
          obtain ⟨rfl, rfl⟩ := Prod.mk.inj (Option.some.inj h)
          exact .looks rfl rfl (by simp) (by simp)
      | cons last rest =>
          simp only [work] at h
          split at h <;> obtain ⟨rfl, rfl⟩ := Prod.mk.inj (Option.some.inj h)
          · rename_i hdir
            exact hmade rfl hdir
          · exact .looks rfl rfl (by simp) (by simp)
          · exact .looks rfl rfl (by simp) (by simp)
  | checking parts e later =>
      simp only [work] at h
      split at h <;> obtain ⟨rfl, rfl⟩ := Prod.mk.inj (Option.some.inj h)
      · exact .looks rfl rfl (by simp) (by simp)
      · exact .looks rfl rfl (by simp) (by simp [hio])
  | ascending later =>
      cases later with
      | nil =>
          obtain ⟨rfl, rfl⟩ := Prod.mk.inj (Option.some.inj h)
          exact .looks rfl rfl (by simp) (by simp)
      | cons parts later =>
          simp only [work] at h
          split at h <;> obtain ⟨rfl, rfl⟩ := Prod.mk.inj (Option.some.inj h)
          · rename_i hdir
            exact hmade rfl hdir
          · exact .looks rfl rfl (by simp) (by simp)
  | trying n =>
      simp only [work] at h
      split at h
      · rename_i hn
        split at h <;> obtain ⟨rfl, rfl⟩ := Prod.mk.inj (Option.some.inj h)
        · rename_i hcreated
          obtain ⟨hnew, rfl, hwalk⟩ := FileTree.createNew_eq_ok hcreated
          exact .creates hn hnew hwalk
        · rename_i hexists
          exact .passes hn (FileTree.createNew_eq_exists hexists)
        · exact .looks rfl rfl (by simp) (by simp [hio])
      · rename_i hn
        obtain ⟨rfl, rfl⟩ := Prod.mk.inj (Option.some.inj h)
        exact .exhausts (Nat.le_of_not_lt hn)
  | filling path =>
      obtain ⟨rfl, rfl⟩ := Prod.mk.inj (Option.some.inj h)
      exact .fills
  | kept path => cases h
  | failed fault torn => cases h

theorem Step.effect {j : Job} {t u : FileTree} {s s' : Stage} (h : j.Step (t, s) (u, s')) :
    Effect j t s u s' := by
  cases h with
  | works h => exact work_effect h
  | breaks h hfree fault hfault =>
      exact .looks hfree rfl (by simp) (by simp [hfault])
  | tears bytes fault hfault => exact .tears bytes hfault

variable {j : Job} {t u : FileTree} {s s' : Stage}

/-- A step changes nothing that was there, apart from the file of its own writer. -/
theorem Effect.get?_eq (h : Effect j t s u s') {q : List String} {node : FileNode}
    (hq : t.get? q = some node) (hown : s.place? ≠ some q) : u.get? q = some node := by
  have hother {path : String} (hs : s = .filling path) (node : FileNode) :
      (t.set (place path) node).get? q = t.get? q :=
    FileTree.get?_set_of_ne (fun heq => hown (by rw [hs, heq]; rfl)) node
  cases h with
  | furnishes _ _ _ _ hnew => exact FileTree.within_set hnew _ q node hq
  | looks => exact hq
  | passes => exact hq
  | exhausts => exact hq
  | creates _ hnew => exact FileTree.within_set hnew _ q node hq
  | fills => rw [hother rfl, hq]
  | tears => rw [hother rfl, hq]

/-- What is taken stays taken. -/
theorem Effect.taken (h : Effect j t s u s') {q : List String} (hq : t.get? q ≠ none) :
    u.get? q ≠ none := by
  have hset (path : List String) (node : FileNode) : (t.set path node).get? q ≠ none := by
    by_cases heq : q = path
    · subst heq
      exact FileTree.get?_set_self_ne_none t q node
    · rwa [FileTree.get?_set_of_ne heq]
  cases h with
  | furnishes => exact hset _ _
  | looks => exact hq
  | passes => exact hq
  | exhausts => exact hq
  | creates => exact hset _ _
  | fills => exact hset _ _
  | tears => exact hset _ _

/-- A writer gets its path by making a file where nothing was, and then keeps it. -/
theorem Effect.path?_eq (h : Effect j t s u s') : s'.path? = s.path? ∨
    ∃ n, s = .trying n ∧ s' = .filling (j.path n) ∧ t.get? (place (j.path n)) = none ∧
      u = t.set (place (j.path n)) (.file .empty) ∧
      t.walk [] (Path.parts (j.path n)) = .ok (place (j.path n)) := by
  cases h with
  | furnishes hs hs' => exact .inl (hs'.trans hs.symm)
  | looks hs hs' => exact .inl (hs'.trans hs.symm)
  | passes => exact .inl rfl
  | exhausts => exact .inl rfl
  | @creates n _ hnew hwalk => exact .inr ⟨n, rfl, rfl, hnew, rfl, hwalk⟩
  | fills => exact .inl rfl
  | tears => exact .inl rfl

theorem Effect.place?_eq (h : Effect j t s u s') : s'.place? = s.place? ∨
    ∃ n, s = .trying n ∧ s' = .filling (j.path n) ∧ t.get? (place (j.path n)) = none ∧
      u = t.set (place (j.path n)) (.file .empty) ∧
      t.walk [] (Path.parts (j.path n)) = .ok (place (j.path n)) :=
  h.path?_eq.imp_left (congrArg (Option.map place))

/-- At the place of the writer that makes a step there is a file after it, if there was one before. -/
theorem Effect.held (h : Effect j t s u s') {q : List String} {bytes : ByteArray}
    (hq : t.get? q = some (.file bytes)) : ∃ bytes, u.get? q = some (.file bytes) := by
  have hset {path : List String} {new : ByteArray} :
      ∃ bytes, (t.set path (.file new)).get? q = some (.file bytes) := by
    by_cases heq : q = path
    · subst heq
      exact ⟨new, FileTree.get?_set_self (by simp [hq]) _⟩
    · exact ⟨bytes, (FileTree.get?_set_of_ne heq _).trans hq⟩
  cases h with
  | furnishes _ _ _ _ hnew => exact ⟨bytes, FileTree.within_set hnew _ q _ hq⟩
  | looks => exact ⟨bytes, hq⟩
  | passes => exact ⟨bytes, hq⟩
  | exhausts => exact ⟨bytes, hq⟩
  | creates => exact hset
  | fills => exact hset
  | tears => exact hset

/-- A file that was not there is the file of the writer that made the step. -/
theorem Effect.file (h : Effect j t s u s') {q : List String} {bytes : ByteArray}
    (hq : u.get? q = some (.file bytes)) :
    t.get? q = some (.file bytes) ∨ s'.place? = some q := by
  have hset {path : List String} {node : FileNode}
      (hq : (t.set path node).get? q = some (.file bytes)) :
      t.get? q = some (.file bytes) ∨ q = path := by
    by_cases heq : q = path
    · exact .inr heq
    · rw [FileTree.get?_set_of_ne heq] at hq
      exact .inl hq
  cases h with
  | @furnishes _ _ path _ _ _ _ hnew =>
      by_cases heq : q = path
      · subst heq
        rw [FileTree.get?_set_self (by simp [hnew])] at hq
        cases hq
      · exact (hset hq).imp_right fun h => absurd h heq
  | looks => exact .inl hq
  | passes => exact .inl hq
  | exhausts => exact .inl hq
  | creates => exact (hset hq).imp_right fun heq => congrArg some heq.symm
  | fills => exact (hset hq).imp_right fun heq => congrArg some heq.symm
  | tears => exact (hset hq).imp_right fun heq => congrArg some heq.symm

/-! ## Where a step leads -/

theorem Effect.kept {path : String} (h : Effect j t s u (.kept path)) :
    s = .filling path ∧ u = t.set (place path) (.file j.content) := by
  cases h with
  | furnishes _ hs' => cases hs'
  | looks _ hs' => cases hs'
  | fills => exact ⟨rfl, rfl⟩

theorem Effect.trying {n : Nat} (h : Effect j t s u (.trying n)) : n = 0 ∨
    ∃ m, n = m + 1 ∧ m < Disk.maxVersions ∧ s = .trying m ∧ u = t ∧
      t.get? (place (j.path m)) ≠ none := by
  cases h with
  | furnishes _ _ hquiet => exact absurd rfl (hquiet n)
  | looks _ _ hquiet => exact .inl (hquiet n rfl)
  | @passes m hm htaken => exact .inr ⟨m, rfl, hm, rfl, rfl, htaken⟩

theorem Effect.failed {fault : Fault} {torn : Option String}
    (h : Effect j t s u (.failed fault torn)) : fault.kind = .io ∨
      torn = none ∧ u = t ∧ ∃ n, Disk.maxVersions ≤ n ∧ s = .trying n := by
  cases h with
  | furnishes _ _ _ hend => exact absurd rfl (hend fault torn)
  | looks _ _ _ hend => exact .inl (hend fault torn rfl)
  | exhausts hn => exact .inr ⟨rfl, rfl, _, hn, rfl⟩
  | tears _ hfault => exact .inl hfault

/-! ## A writer that is alone -/

/-- The calls of a writer with nobody else around and none of them breaking. -/
def Alone (j : Job) : FileTree × Stage → FileTree × Stage → Prop :=
  Relation.ReflTransGen fun x y => j.work x.1 x.2 = some y

def furnished (j : Job) (later : List (List String)) : Except OsError Unit → Stage
  | .ok () => .ascending later
  | .error e => .failed (.cannotCreate j.dir e) none

theorem alone_one {x y : FileTree × Stage} (h : j.work x.1 x.2 = some y) : Alone j x y :=
  .single h

theorem Alone.trans {x y z : FileTree × Stage} (h : Alone j x y) (h' : Alone j y z) :
    Alone j x z :=
  Relation.ReflTransGen.trans h h'

/-- After a try that failed, a look decides. -/
theorem alone_checking (t : FileTree) (parts : List String) (e : OsError)
    (later : List (List String)) :
    Alone j (t, .checking parts e later)
      (t, j.furnished later (if t.isDirectory parts.reverse then .ok () else .error e)) := by
  refine alone_one ?_
  simp only [work]
  split <;> rfl

/-- A stage in which the next call makes a directory. -/
theorem alone_furnish {parts : List String} {later : List (List String)}
    (hok : ∀ u, t.makeDirectory parts.reverse = .ok u → j.work t s = some (u, .ascending later))
    (herror : ∀ e, t.makeDirectory parts.reverse = .error e →
      j.work t s = some (t, .checking parts e later)) :
    Alone j (t, s) ((t.furnish parts.reverse).1,
      j.furnished later (t.furnish parts.reverse).2) := by
  cases hdir : t.makeDirectory parts.reverse with
  | ok u =>
      simp only [FileTree.furnish, hdir]
      exact alone_one (hok u hdir)
  | error e =>
      simp only [FileTree.furnish, hdir]
      exact (alone_one (herror e hdir)).trans (alone_checking t parts e later)

theorem alone_makeAll (t : FileTree) (parts : List String) (later : List (List String)) :
    Alone j (t, .descending parts later)
      ((t.makeAll parts).1, j.furnished later (t.makeAll parts).2) := by
  induction h : parts.length using Nat.strongRecOn generalizing t parts later with
  | _ size ih =>
  cases parts with
  | nil =>
      rw [FileTree.makeAll]
      exact alone_one rfl
  | cons last rest =>
      by_cases hmissing : t.makeDirectory (last :: rest).reverse = .error .notFound
      · rw [FileTree.makeAll_cons_of_missing hmissing]
        have hdown : Alone j (t, .descending (last :: rest) later)
            (t, .descending (Path.above (last :: rest)) ((last :: rest) :: later)) :=
          alone_one (by simp only [work, hmissing])
        have habove := ih _ (h ▸ Path.length_above_cons last rest) t
          (Path.above (last :: rest)) ((last :: rest) :: later) rfl
        refine hdown.trans (habove.trans ?_)
        rcases t.makeAll (Path.above (last :: rest)) with ⟨u, e | _⟩
        · exact .refl
        · exact alone_furnish (fun v hv => by simp only [furnished, work, hv])
            (fun e he => by simp only [furnished, work, he])
      · rw [FileTree.makeAll_cons_of_not_missing hmissing]
        refine alone_furnish (fun u hu => by simp only [work, hu]) (fun e he => ?_)
        cases e with
        | notFound => exact absurd he hmissing
        | _ => simp only [work, he]

/-- Filling a file that was made empty comes to making it with its bytes. -/
theorem alone_createFree (t : FileTree) (fuel n : Nat) (hfuel : n + fuel = Disk.maxVersions) :
    match Disk.createFree t j.dir j.name j.content fuel n with
    | .ok (path, u) => ∃ v, Alone j (t, .trying n) (v, .kept path) ∧ ∀ q, v.get? q = u.get? q
    | .error fault => Alone j (t, .trying n) (t, .failed fault none) := by
  induction fuel generalizing n with
  | zero =>
      have hn : ¬ n < Disk.maxVersions := by omega
      exact alone_one (by simp only [work, if_neg hn])
  | succ fuel ih =>
      have hn : n < Disk.maxVersions := by omega
      have hmap := t.createNew_map (Path.parts (j.path n)) .empty j.content
      unfold Disk.createFree
      simp only [show Path.join j.dir (versioned j.name n) = j.path n from rfl, hmap]
      cases hnew : t.createNew (Path.parts (j.path n)) .empty with
      | ok u =>
          obtain ⟨-, rfl, -⟩ := FileTree.createNew_eq_ok hnew
          have hcreate : Alone j (t, .trying n) (t.set (place (j.path n)) (.file .empty),
              .filling (j.path n)) :=
            alone_one (by simp only [work, if_pos hn, hnew]; rfl)
          exact ⟨_, hcreate.trans (alone_one rfl), fun q => FileTree.get?_set_set ..⟩
      | error e =>
          cases e with
          | exists_ =>
              have hpass : Alone j (t, .trying n) (t, .trying (n + 1)) :=
                alone_one (by simp only [work, if_pos hn, hnew])
              have hrest := ih (n + 1) (by omega)
              dsimp only [Except.map]
              split at hrest
              · rename_i path u _
                obtain ⟨v, hv, hget⟩ := hrest
                exact ⟨v, hpass.trans hv, hget⟩
              · exact hpass.trans hrest
          | _ => exact alone_one (by simp only [work, if_pos hn, hnew])

/-- Two next calls that lead to the same stage and to trees with the same nodes. -/
inductive SameNext : Option (FileTree × Stage) → Option (FileTree × Stage) → Prop where
  | next {t u : FileTree} {s : Stage} (h : t.get? = u.get?) : SameNext (some (t, s)) (some (u, s))
  | ended : SameNext none none

/-- What a writer does depends on what is in the tree, not on how it came there. -/
theorem work_congr (hsame : t.get? = u.get?) (s : Stage) :
    SameNext (j.work t s) (j.work u s) := by
  cases s with
  | descending parts later =>
      cases parts with
      | nil => exact .next hsame
      | cons last rest =>
          have hmake := FileTree.makeDirectory_congr hsame (last :: rest).reverse
          simp only [work]
          generalize t.makeDirectory (last :: rest).reverse = a at hmake ⊢
          generalize u.makeDirectory (last :: rest).reverse = b at hmake ⊢
          cases hmake with
          | made h => exact .next h
          | refused e => cases e <;> exact .next hsame
  | checking parts e later =>
      simp only [work, FileTree.isDirectory_congr hsame]
      split <;> exact .next hsame
  | ascending later =>
      cases later with
      | nil => exact .next hsame
      | cons parts later =>
          have hmake := FileTree.makeDirectory_congr hsame parts.reverse
          simp only [work]
          generalize t.makeDirectory parts.reverse = a at hmake ⊢
          generalize u.makeDirectory parts.reverse = b at hmake ⊢
          cases hmake with
          | made h => exact .next h
          | refused e => exact .next hsame
  | trying n =>
      have hnew := FileTree.createNew_congr hsame (Path.parts (j.path n)) .empty
      simp only [work]
      generalize t.createNew (Path.parts (j.path n)) .empty = a at hnew ⊢
      generalize u.createNew (Path.parts (j.path n)) .empty = b at hnew ⊢
      split
      · cases hnew with
        | made h => exact .next h
        | refused e => cases e <;> exact .next hsame
      · exact .next hsame
  | filling path => exact .next (FileTree.set_congr hsame _ _)
  | kept path => exact .ended
  | failed fault torn => exact .ended

theorem Alone.congr {x y : FileTree × Stage} (h : Alone j x y) {t : FileTree}
    (hsame : x.1.get? = t.get?) : ∃ u, Alone j (t, x.2) (u, y.2) ∧ y.1.get? = u.get? := by
  induction h with
  | refl => exact ⟨t, .refl, hsame⟩
  | @tail y z _ hstep ih =>
      obtain ⟨u, hu, hyu⟩ := ih
      have hnext := work_congr (j := j) hyu y.2
      rw [hstep] at hnext
      generalize hwork : j.work u y.2 = next at hnext
      cases hnext with
      | next h => exact ⟨_, hu.trans (alone_one hwork), h⟩

/-- A writer that is alone comes to what the store comes to. -/
theorem alone_writeNew (d : Disk) (j : Job) :
    ∃ t, Alone j (d.tree, j.start) (t, .ending (d.writeNew j.dir j.name j.content).1) ∧
      t.get? = (d.writeNew j.dir j.name j.content).2.tree.get? := by
  have hdown := alone_makeAll (j := j) d.tree (Path.parts j.dir).reverse []
  unfold Disk.writeNew
  rcases hmade : d.tree.makeAll (Path.parts j.dir).reverse with ⟨t, e | _⟩ <;> rw [hmade] at hdown
  · exact ⟨t, hdown, rfl⟩
  · have htry : Alone j (d.tree, j.start) (t, .trying 0) := hdown.trans (alone_one rfl)
    have hfree := alone_createFree (j := j) t Disk.maxVersions 0 (Nat.zero_add _)
    dsimp only
    rcases hcreated : Disk.createFree t j.dir j.name j.content Disk.maxVersions 0
      with fault | ⟨path, u⟩ <;> rw [hcreated] at hfree
    · exact ⟨t, htry.trans hfree, rfl⟩
    · obtain ⟨v, hv, hget⟩ := hfree
      exact ⟨v, htry.trans hv, funext hget⟩

end Job

end Scriptorium.Archive
