import Mathlib.Data.List.Forall2
import Mathlib.Data.List.Nodup

/-! # Lists

First appearances in a list, and work on a list that may fail on a member: it succeeds when it does
so on each member, and otherwise the first member that it fails on decides the error.
-/

namespace Scriptorium

variable {α β ε : Type}

/-! ## First appearances -/

section Appearances

variable [BEq α] [LawfulBEq α]

theorem nodup_eraseDups (l : List α) : l.eraseDups.Nodup := by
  induction hn : l.length using Nat.strongRecOn generalizing l with
  | ind n ih =>
      cases l with
      | nil => simp
      | cons a l =>
          have hlt : (l.filter fun b => !b == a).length < n := by
            rw [← hn]
            exact Nat.lt_succ_of_le (List.length_filter_le _ l)
          rw [List.eraseDups_cons, List.nodup_cons]
          refine ⟨?_, ih _ hlt _ rfl⟩
          simp [List.mem_eraseDups]

theorem eraseDups_of_nodup {l : List α} (h : l.Nodup) : l.eraseDups = l := by
  induction l with
  | nil => rfl
  | cons a l ih =>
      obtain ⟨ha, hl⟩ := List.nodup_cons.mp h
      have hfilter : l.filter (fun b => !b == a) = l := by
        refine List.filter_eq_self.mpr fun b hb => ?_
        simpa using ne_of_mem_of_not_mem hb ha
      rw [List.eraseDups_cons, hfilter, ih hl]

theorem eraseDups_concat [DecidableEq α] (l : List α) (a : α) :
    (l ++ [a]).eraseDups = if a ∈ l then l.eraseDups else l.eraseDups ++ [a] := by
  rw [List.eraseDups_append]
  by_cases ha : a ∈ l <;> simp [List.removeAll, List.eraseDups_cons, ha]

end Appearances

/-! ## Work that may fail -/

theorem bind_eq_ok_iff {x : Except ε α} {f : α → Except ε β} {b : β} :
    x >>= f = .ok b ↔ ∃ a, x = .ok a ∧ f a = .ok b := by
  cases x with
  | error e => simp [bind, Except.bind]
  | ok a => simp [bind, Except.bind]

theorem seq_eq_ok_iff {x : Except ε Unit} {f : Unit → Except ε β} {b : β} :
    x >>= f = .ok b ↔ x = .ok () ∧ f () = .ok b := by
  rw [bind_eq_ok_iff]
  exact ⟨fun ⟨_, hx, hf⟩ => ⟨hx, hf⟩, fun ⟨hx, hf⟩ => ⟨(), hx, hf⟩⟩

theorem bind_isOk {x : Except ε α} {f : α → Except ε β} (hx : ∃ a, x = .ok a)
    (hf : ∀ a, ∃ b, f a = .ok b) : ∃ b, x >>= f = .ok b := by
  obtain ⟨a, rfl⟩ := hx
  exact hf a

theorem exists_of_forall₂ {R : α → β → Prop} {l : List α} {bs : List β} (h : List.Forall₂ R l bs) :
    ∀ b ∈ bs, ∃ a ∈ l, R a b := by
  induction h with
  | nil => exact nofun
  | cons hR _ ih =>
      refine List.forall_mem_cons.mpr ⟨⟨_, List.mem_cons_self, hR⟩, fun b hb => ?_⟩
      obtain ⟨a, ha, hab⟩ := ih b hb
      exact ⟨a, List.mem_cons_of_mem _ ha, hab⟩

section Failing

variable {f : α → Except ε β} {l : List α}

/-- The first error that there is, else what comes of each member. -/
theorem mapM_eq_elim (e : α → Option ε) (g : α → β) (h : ∀ a, f a = (e a).elim (.ok (g a)) .error)
    (l : List α) : l.mapM f = (l.findSome? e).elim (.ok (l.map g)) .error := by
  induction l with
  | nil => rfl
  | cons a l ih =>
      rw [List.mapM_cons, h a, ih, List.findSome?_cons]
      cases e a with
      | some e => rfl
      | none => cases l.findSome? e <;> rfl

theorem mapM_eq_ok_iff_forall₂ {bs : List β} :
    l.mapM f = .ok bs ↔ List.Forall₂ (fun a b => f a = .ok b) l bs := by
  induction l generalizing bs with
  | nil => cases bs <;> simp [pure, Except.pure]
  | cons a l ih =>
      rw [List.mapM_cons, List.forall₂_cons_left_iff]
      cases ha : f a with
      | error e => simp [bind, Except.bind]
      | ok b =>
          cases hl : l.mapM f with
          | error e => simp [bind, Except.bind, ← ih, hl]
          | ok bs' => simp [bind, Except.bind, pure, Except.pure, ← ih, hl, eq_comm]

theorem mapM_eq_ok_iff {q : α → Prop} {g : α → β} (h : ∀ a b, f a = .ok b ↔ q a ∧ b = g a)
    {bs : List β} : l.mapM f = .ok bs ↔ (∀ a ∈ l, q a) ∧ bs = l.map g := by
  simp only [mapM_eq_ok_iff_forall₂, h, List.forall₂_and_left]
  rw [← List.forall₂_eq_eq_eq, List.forall₂_map_right_iff]
  exact and_congr_right fun _ => ⟨.flip, .flip⟩

theorem mapM_isOk (h : ∀ a ∈ l, ∃ b, f a = .ok b) : ∃ bs, l.mapM f = .ok bs := by
  induction l with
  | nil => exact ⟨[], rfl⟩
  | cons a l ih =>
      obtain ⟨b, hb⟩ := h a List.mem_cons_self
      obtain ⟨bs, hbs⟩ := ih fun x hx => h x (List.mem_cons_of_mem a hx)
      exact ⟨b :: bs, by rw [List.mapM_cons, hb, hbs]; rfl⟩

/-- The first member that cannot be read decides the error. -/
theorem mapM_eq_error_iff {e : ε} : l.mapM f = .error e ↔ ∃ before a after,
    l = before ++ a :: after ∧ (∀ x ∈ before, ∃ b, f x = .ok b) ∧ f a = .error e := by
  induction l with
  | nil => simp [pure, Except.pure]
  | cons a l ih =>
      rw [List.mapM_cons]
      cases ha : f a with
      | error e' =>
          constructor
          · intro h
            obtain rfl : e' = e := Except.error.inj h
            exact ⟨[], a, l, rfl, nofun, ha⟩
          · rintro ⟨before, x, after, hl, hbefore, hx⟩
            cases before with
            | nil =>
                obtain ⟨rfl, -⟩ := List.cons.inj hl
                obtain rfl : e' = e := Except.error.inj (ha.symm.trans hx)
                rfl
            | cons y before =>
                obtain ⟨rfl, -⟩ := List.cons.inj hl
                obtain ⟨b, hb⟩ := hbefore a List.mem_cons_self
                cases ha.symm.trans hb
      | ok b =>
          have hrest : (do let bs ← l.mapM f; pure (b :: bs)) = .error e ↔ l.mapM f = .error e := by
            cases l.mapM f <;> simp [bind, Except.bind, pure, Except.pure]
          refine hrest.trans (ih.trans ?_)
          constructor
          · rintro ⟨before, x, after, rfl, hbefore, hx⟩
            exact ⟨a :: before, x, after, rfl, List.forall_mem_cons.mpr ⟨⟨b, ha⟩, hbefore⟩, hx⟩
          · rintro ⟨before, x, after, hl, hbefore, hx⟩
            cases before with
            | nil =>
                obtain ⟨rfl, -⟩ := List.cons.inj hl
                cases ha.symm.trans hx
            | cons y before =>
                obtain ⟨-, rfl⟩ := List.cons.inj hl
                exact ⟨before, x, after, rfl, (List.forall_mem_cons.mp hbefore).2, hx⟩

end Failing

/-! ## Work that may give nothing -/

section Giving

variable {f : α → Option β} {l : List α}

theorem mapM_eq_some_iff_forall₂ {bs : List β} :
    l.mapM f = some bs ↔ List.Forall₂ (fun a b => f a = some b) l bs := by
  induction l generalizing bs with
  | nil => simp [eq_comm]
  | cons a l ih =>
      rw [List.mapM_cons, List.forall₂_cons_left_iff, Option.bind_eq_bind, Option.bind_eq_some_iff]
      refine exists_congr fun b => ?_
      rw [exists_and_left, Option.bind_eq_bind, Option.bind_eq_some_iff]
      refine and_congr_right fun _ => ?_
      exact exists_congr fun rest => and_congr ih (by simp [eq_comm])

theorem mapM_eq_some_filterMap (h : ∀ a ∈ l, ∃ b, f a = some b) :
    l.mapM f = some (l.filterMap f) := by
  induction l with
  | nil => rfl
  | cons a l ih =>
      obtain ⟨b, hb⟩ := h a List.mem_cons_self
      have hrest := ih fun a ha => h a (List.mem_cons_of_mem _ ha)
      rw [List.mapM_cons, hb, hrest, List.filterMap_cons_some hb]
      rfl

end Giving

end Scriptorium
