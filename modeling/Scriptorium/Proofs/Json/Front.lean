import Mathlib.Tactic.SplitIfs
import Scriptorium.Proofs.Json.Token

/-! # Reading off the front

What is read off the front of a text does not depend on what follows it, unless it is a number. So
what was read off the front of a text is read as well when nothing follows it, and when something
else does; and no more fuel is needed than there are characters to read.
-/

namespace Scriptorium.Json

variable {cs r : List Char} {c : Char}

/-! ## Values -/

theorem readValue_nil (fuel room : Nat) (h : skipSpace cs = []) :
    readValue fuel room cs = none := by
  cases fuel with
  | zero => rfl
  | succ fuel =>
      rw [readValue, h]
      rfl

/-- A value by its first character. -/
theorem readValue_cons (fuel room : Nat) {c : Char} (h : skipSpace cs = c :: r) :
    readValue (fuel + 1) room cs =
      if c = 'n' then (readWord "ull".toList r).map (Json.null, ·)
      else if c = 't' then (readWord "rue".toList r).map (Json.bool true, ·)
      else if c = 'f' then (readWord "alse".toList r).map (Json.bool false, ·)
      else if c = '"' then
        (readString (r.length + 1) r).map fun p => (.str (String.ofList p.1), p.2)
      else if c = '-' then (readNumber true r).map fun p => (.num p.1, p.2)
      else if c = '[' then
        if room ≤ 1 then none
        else if (skipSpace r).head? = some ']' then some (.arr [], (skipSpace r).tail)
        else (readItems fuel (room - 1) r).map fun p => (.arr p.1, p.2)
      else if c = '\x7b' then
        if room ≤ 1 then none
        else if (skipSpace r).head? = some '\x7d' then some (.obj [], (skipSpace r).tail)
        else (readMembers fuel (room - 1) r).map fun p => (.obj p.1, p.2)
      else (readNumber false (c :: r)).map fun p => (.num p.1, p.2) := by
  rw [readValue, h]
  split
  case h_6 heq =>
    obtain ⟨rfl, rfl⟩ := List.cons.inj heq
    simp only
    split
    · rfl
    · cases skipSpace r with
      | nil => simp
      | cons d u =>
          by_cases hd : d = ']'
          · subst hd
            simp
          · simp [hd]
  case h_7 heq =>
    obtain ⟨rfl, rfl⟩ := List.cons.inj heq
    simp only
    split
    · rfl
    · cases skipSpace r with
      | nil => simp
      | cons d u =>
          by_cases hd : d = '\x7d'
          · subst hd
            simp
          · simp [hd]
  case h_8 => simp_all
  all_goals
    rename_i heq
    obtain ⟨rfl, rfl⟩ := List.cons.inj heq
    rfl

theorem readItems_nil (room fuel : Nat) (h : skipSpace cs = []) :
    readItems fuel room cs = none := by
  cases fuel with
  | zero => rfl
  | succ fuel => rw [readItems, readValue_nil fuel room h]

theorem readMembers_nil (room fuel : Nat) (h : skipSpace cs = []) :
    readMembers fuel room cs = none := by
  cases fuel with
  | zero => rfl
  | succ fuel =>
      rw [readMembers, h]

section Local

variable {α : Type}

/-- A reader with fuel takes a front off a text that ends as `C` says, and takes it again with as
much fuel as that has characters, whatever else follows; where `P` holds of what is read, only what
begins alike may follow. -/
def Local (P : α → Prop) (C : α → List Char → Prop)
    (read : Nat → List Char → Option (α × List Char)) (fuel : Nat) : Prop :=
  ∀ cs a r, read fuel cs = some (a, r) → ∃ s, cs = s ++ r ∧ C a s ∧
    ∀ x, (P a → InPlaceOf r x) → ∀ more, s.length ≤ more → read more (s ++ x) = some (a, x)

variable {P : α → Prop} {C : α → List Char → Prop} {fuel : Nat}

abbrev LocalUpTo (closing : Char) (read : Nat → List Char → Option (α × List Char)) (fuel : Nat) :
    Prop :=
  Local (fun _ => False) (fun _ s => s.getLast? = some closing) read fuel

/-- A choice that does not depend on the text. -/
theorem Local.ite {p : Prop} [Decidable p] {f g : Nat → List Char → Option (α × List Char)}
    (hf : p → Local P C f fuel) (hg : ¬ p → Local P C g fuel) :
    Local P C (fun fuel cs => if p then f fuel cs else g fuel cs) fuel := by
  by_cases hp : p
  · simpa only [if_pos hp] using hf hp
  · simpa only [if_neg hp] using hg hp

theorem Local.mono {C' : α → List Char → Prop} {read : Nat → List Char → Option (α × List Char)}
    (h : Local P C read fuel) (hC : ∀ a s, C a s → C' a s) : Local P C' read fuel := by
  intro cs a r hread
  obtain ⟨s, hsplit, hends, htake⟩ := h cs a r hread
  exact ⟨s, hsplit, hC a s hends, htake⟩

def IsNumber (v : Json) : Prop := ∃ n, v = .num n

def Closed (v : Json) (s : List Char) : Prop := ∀ ms, v = .obj ms → s.getLast? = some '\x7d'

theorem word_local (word : List Char) {w : Json} (hw : ∀ ms, w ≠ .obj ms) :
    Local IsNumber Closed (fun _ cs => (readWord word cs).map (w, ·)) fuel := by
  intro cs v r h
  obtain ⟨rest, hrest, hpair⟩ := Option.map_eq_some_iff.mp h
  obtain ⟨rfl, rfl⟩ := Prod.mk.inj hpair
  obtain ⟨rfl, hread⟩ := readWord_takes hrest
  refine ⟨word, rfl, fun ms hv => absurd hv (hw ms), fun x _ more _ => ?_⟩
  simp only [hread x, Option.map_some]

theorem string_local :
    Local IsNumber Closed (fun _ cs => (readString (cs.length + 1) cs).map
      fun p => (.str (String.ofList p.1), p.2)) fuel := by
  intro cs v r h
  obtain ⟨p, hp, hpair⟩ := Option.map_eq_some_iff.mp h
  obtain ⟨rfl, rfl⟩ := Prod.mk.inj hpair
  obtain ⟨s, rfl, hread⟩ := readString_takes hp
  refine ⟨s, rfl, fun ms hv => (by cases hv), fun x _ more _ => ?_⟩
  have hfuel : s.length ≤ (s ++ x).length + 1 := by
    rw [List.length_append]
    omega
  simp only [hread x _ hfuel, Option.map_some]

theorem number_local {read : List Char → Option (JsonNumber × List Char)}
    (htake : ∀ cs n r, read cs = some (n, r) → Takes read cs n r) :
    Local IsNumber Closed (fun _ cs => (read cs).map fun p => (.num p.1, p.2)) fuel := by
  intro cs v r h
  obtain ⟨p, hp, hpair⟩ := Option.map_eq_some_iff.mp h
  obtain ⟨rfl, rfl⟩ := Prod.mk.inj hpair
  obtain ⟨s, rfl, hread⟩ := htake cs p.1 p.2 hp
  refine ⟨s, rfl, fun ms hv => (by cases hv), fun x hx more _ => ?_⟩
  simp only [hread x (hx ⟨p.1, rfl⟩), Option.map_some]

def readContainer (wrap : List α → Json) (closing : Char) (room : Nat)
    (read : Nat → List Char → Option (List α × List Char)) (fuel : Nat) (cs : List Char) :
    Option (Json × List Char) :=
  if room ≤ 1 then none
  else if (skipSpace cs).head? = some closing then some (wrap [], (skipSpace cs).tail)
  else (read fuel cs).map fun p => (wrap p.1, p.2)

section Container

variable {wrap : List α → Json} {closing : Char} {room : Nat}
  {read : Nat → List Char → Option (List α × List Char)}

theorem readContainer_full (hroom : room ≤ 1) :
    readContainer wrap closing room read fuel cs = none :=
  if_pos hroom

theorem readContainer_empty (hroom : 1 < room) (hclose : skipSpace cs = closing :: r) :
    readContainer wrap closing room read fuel cs = some (wrap [], r) := by
  rw [readContainer, if_neg (Nat.not_le.mpr hroom), hclose]
  exact if_pos rfl

theorem readContainer_filled (hroom : 1 < room)
    (hopen : (skipSpace cs).head? ≠ some closing) :
    readContainer wrap closing room read fuel cs =
      (read fuel cs).map fun p => (wrap p.1, p.2) := by
  rw [readContainer, if_neg (Nat.not_le.mpr hroom), if_neg hopen]

/-- What a container is read as. -/
theorem eq_of_readContainer {v : Json}
    (h : readContainer wrap closing room read fuel cs = some (v, r)) : ∃ l, v = wrap l := by
  rw [readContainer] at h
  split_ifs at h
  · exact ⟨[], (Prod.mk.inj (Option.some.inj h)).1.symm⟩
  · obtain ⟨p, -, hp⟩ := Option.map_eq_some_iff.mp h
    exact ⟨p.1, (Prod.mk.inj hp).1.symm⟩

end Container

/-- What stands in brackets does not depend on what follows them. -/
theorem container_local (wrap : List α → Json) (closing : Char) (room : Nat)
    {read : Nat → List Char → Option (List α × List Char)}
    (hnil : ∀ fuel cs, skipSpace cs = [] → read fuel cs = none)
    (hread : LocalUpTo closing read fuel) :
    Local IsNumber (fun v s => (∃ l, v = wrap l) ∧ s.getLast? = some closing)
      (readContainer wrap closing room read) fuel := by
  intro cs v r h
  rcases Nat.lt_or_ge 1 room with hroom | hfull
  · by_cases hclose : (skipSpace cs).head? = some closing
    · obtain ⟨u, hfront⟩ := List.head?_eq_some_iff.mp hclose
      rw [readContainer_empty hroom hfront] at h
      obtain ⟨rfl, rfl⟩ := Prod.mk.inj (Option.some.inj h)
      obtain ⟨w, rfl, hskip⟩ := skipSpace_split hfront
      refine ⟨w ++ [closing], by simp, ⟨⟨[], rfl⟩, by simp⟩, fun x _ more _ => ?_⟩
      rw [List.append_assoc, List.singleton_append, readContainer_empty hroom (hskip x)]
    · rw [readContainer_filled hroom hclose] at h
      obtain ⟨p, hp, hpair⟩ := Option.map_eq_some_iff.mp h
      obtain ⟨rfl, rfl⟩ := Prod.mk.inj hpair
      obtain ⟨s, rfl, hlast, htake⟩ := hread cs p.1 p.2 hp
      refine ⟨s, rfl, ⟨⟨p.1, rfl⟩, hlast⟩, fun x _ more hmore => ?_⟩
      have hfilled : skipSpace s ≠ [] := by
        intro hempty
        have hnone := htake [] False.elim more hmore
        rw [List.append_nil, hnil more s hempty] at hnone
        cases hnone
      have hhead : (skipSpace (s ++ x)).head? = (skipSpace (s ++ p.2)).head? := by
        obtain ⟨d, u, hd⟩ := List.exists_cons_of_ne_nil hfilled
        rw [skipSpace_append hfilled, skipSpace_append hfilled, hd]
        rfl
      rw [readContainer_filled hroom (by rwa [hhead]), htake x False.elim more hmore]
      rfl
  · rw [readContainer_full hfull] at h
    cases h

end Local

section Values

variable {fuel : Nat}

def readBehind (c : Char) (room fuel : Nat) (cs : List Char) : Option (Json × List Char) :=
  if c = 'n' then (readWord "ull".toList cs).map (Json.null, ·)
  else if c = 't' then (readWord "rue".toList cs).map (Json.bool true, ·)
  else if c = 'f' then (readWord "alse".toList cs).map (Json.bool false, ·)
  else if c = '"' then
    (readString (cs.length + 1) cs).map fun p => (.str (String.ofList p.1), p.2)
  else if c = '-' then (readNumber true cs).map fun p => (.num p.1, p.2)
  else if c = '[' then
    readContainer .arr ']' room (fun fuel cs => readItems fuel (room - 1) cs) fuel cs
  else if c = '\x7b' then
    readContainer .obj '\x7d' room (fun fuel cs => readMembers fuel (room - 1) cs) fuel cs
  else (readNumber false (c :: cs)).map fun p => (.num p.1, p.2)

theorem readValue_eq_behind (fuel room : Nat) (h : skipSpace cs = c :: r) :
    readValue (fuel + 1) room cs = readBehind c room fuel r :=
  readValue_cons fuel room h

theorem readBehind_quote (room : Nat) (cs : List Char) :
    readBehind '"' room fuel cs =
      (readString (cs.length + 1) cs).map fun p => (.str (String.ofList p.1), p.2) :=
  rfl

theorem readBehind_bracket (room : Nat) (cs : List Char) :
    readBehind '[' room fuel cs =
      readContainer .arr ']' room (fun fuel cs => readItems fuel (room - 1) cs) fuel cs :=
  rfl

theorem readBehind_brace (room : Nat) (cs : List Char) :
    readBehind '\x7b' room fuel cs =
      readContainer .obj '\x7d' room (fun fuel cs => readMembers fuel (room - 1) cs) fuel cs :=
  rfl

theorem ne_of_isDigit (hc : c.isDigit = true) (d : Char)
    (hd : d.isDigit = false := by decide) : c ≠ d := by
  rintro rfl
  rw [hc] at hd
  cases hd

/-- Only a number begins with a digit. -/
theorem readBehind_digit (hc : c.isDigit = true) (room : Nat) (cs : List Char) :
    readBehind c room fuel cs = (readNumber false (c :: cs)).map fun p => (.num p.1, p.2) := by
  rw [readBehind, if_neg (ne_of_isDigit hc 'n'), if_neg (ne_of_isDigit hc 't'),
    if_neg (ne_of_isDigit hc 'f'), if_neg (ne_of_isDigit hc '"'), if_neg (ne_of_isDigit hc '-'),
    if_neg (ne_of_isDigit hc '['), if_neg (ne_of_isDigit hc '\x7b')]

theorem readBehind_local (c : Char) (room : Nat)
    (hitems : LocalUpTo ']' (fun fuel cs => readItems fuel (room - 1) cs) fuel)
    (hmembers : LocalUpTo '\x7d' (fun fuel cs => readMembers fuel (room - 1) cs) fuel) :
    Local IsNumber Closed (readBehind c room) fuel := by
  refine .ite (fun _ => word_local _ nofun) fun _ => .ite (fun _ => word_local _ nofun) fun _ =>
    .ite (fun _ => word_local _ nofun) fun _ => .ite (fun _ => string_local) fun _ =>
    .ite (fun _ => number_local fun _ _ _ => readNumber_takes) fun _ => .ite (fun _ => ?_) fun _ =>
    .ite (fun _ => ?_) fun _ => number_local fun _ _ _ h => (readNumber_takes h).cons rfl
  · refine (container_local .arr ']' room (fun fuel _ => readItems_nil _ fuel) hitems).mono ?_
    rintro v s ⟨⟨l, rfl⟩, -⟩ ms hv
    cases hv
  · refine (container_local .obj '\x7d' room (fun fuel _ => readMembers_nil _ fuel)
      hmembers).mono ?_
    exact fun v s h ms _ => h.2

theorem readValue_local (room : Nat) (h : ∀ c, Local IsNumber Closed (readBehind c room) fuel) :
    Local IsNumber Closed (fun fuel cs => readValue fuel room cs) (fuel + 1) := by
  intro cs v r hread
  change readValue (fuel + 1) room cs = some (v, r) at hread
  cases hfront : skipSpace cs with
  | nil =>
      rw [readValue_nil _ _ hfront] at hread
      cases hread
  | cons c u =>
      rw [readValue_eq_behind _ _ hfront] at hread
      obtain ⟨s, rfl, hclosed, htake⟩ := h c u v r hread
      obtain ⟨w, rfl, hskip⟩ := skipSpace_split hfront
      refine ⟨w ++ c :: s, by simp, fun ms hv => ?_, fun x hx more hmore => ?_⟩
      · simp [List.getLast?_cons, hclosed ms hv]
      · obtain ⟨more, rfl⟩ : ∃ m, more = m + 1 := ⟨more - 1, by simp at hmore; omega⟩
        have hless : s.length ≤ more := by
          simp only [List.length_append, List.length_cons] at hmore
          omega
        change readValue (more + 1) room (w ++ c :: s ++ x) = some (v, x)
        rw [List.append_assoc, List.cons_append, readValue_eq_behind _ _ (hskip (s ++ x))]
        exact htake x hx more hless

/-- Items, once it is known of values. -/
theorem readItems_local (room : Nat)
    (hvalue : Local IsNumber Closed (fun fuel cs => readValue fuel room cs) fuel)
    (hitems : LocalUpTo ']' (fun fuel cs => readItems fuel room cs) fuel) :
    LocalUpTo ']' (fun fuel cs => readItems fuel room cs) (fuel + 1) := by
  intro cs l r h
  change readItems (fuel + 1) room cs = some (l, r) at h
  rw [readItems] at h
  split at h
  · cases h
  · rename_i v u hread
    obtain ⟨s, rfl, -, htake⟩ := hvalue cs v u hread
    split at h
    · rename_i rest hclose
      obtain ⟨rfl, rfl⟩ := Prod.mk.inj (Option.some.inj h)
      obtain ⟨w, rfl, hskip⟩ := skipSpace_split hclose
      refine ⟨s ++ (w ++ [']']), by simp, by simp, fun x _ more hmore => ?_⟩
      simp only [List.length_append, List.length_singleton] at hmore
      obtain ⟨more, rfl⟩ : ∃ m, more = m + 1 := ⟨more - 1, by omega⟩
      have hfirst : readValue more room (s ++ (w ++ ']' :: x)) = some (v, w ++ ']' :: x) :=
        htake (w ++ ']' :: x) (fun _ => inPlaceOf_of_same w _ _ _) more (by omega)
      change readItems (more + 1) room (s ++ (w ++ [']']) ++ x) = _
      rw [List.append_assoc, List.append_assoc, List.singleton_append, readItems]
      simp only [hfirst, hskip]
    · rename_i rest hcomma
      obtain ⟨p, hp, hpair⟩ := Option.map_eq_some_iff.mp h
      obtain ⟨rfl, rfl⟩ := Prod.mk.inj hpair
      obtain ⟨w, rfl, hskip⟩ := skipSpace_split hcomma
      obtain ⟨t, rfl, hlast, hrest⟩ := hitems rest p.1 p.2 hp
      refine ⟨s ++ (w ++ ',' :: t), by simp, by simp [List.getLast?_cons, hlast], ?_⟩
      intro x _ more hmore
      simp only [List.length_append, List.length_cons] at hmore
      obtain ⟨more, rfl⟩ : ∃ m, more = m + 1 := ⟨more - 1, by omega⟩
      have hfirst : readValue more room (s ++ (w ++ ',' :: (t ++ x))) =
          some (v, w ++ ',' :: (t ++ x)) :=
        htake (w ++ ',' :: (t ++ x)) (fun _ => inPlaceOf_of_same w _ _ _) more (by omega)
      have hothers : readItems more room (t ++ x) = some (p.1, x) :=
        hrest x False.elim more (by omega)
      change readItems (more + 1) room (s ++ (w ++ ',' :: t) ++ x) = _
      rw [List.append_assoc, List.append_assoc, List.cons_append, readItems]
      simp only [hfirst, hskip, hothers, Option.map_some]
    · cases h

section Members

variable {room : Nat} {key name u text w : List Char} {v : Json}

/-- The last member. -/
theorem readMembers_last (hquote : skipSpace cs = '"' :: key)
    (hname : readString (key.length + 1) key = some (name, u))
    (hcolon : skipSpace u = ':' :: text) (hvalue : readValue fuel room text = some (v, w))
    (hclose : skipSpace w = '\x7d' :: r) :
    readMembers (fuel + 1) room cs = some ([(String.ofList name, v)], r) := by
  rw [readMembers, hquote]
  simp only [hname, hcolon, hvalue, hclose]

/-- A member with others behind it. -/
theorem readMembers_more (hquote : skipSpace cs = '"' :: key)
    (hname : readString (key.length + 1) key = some (name, u))
    (hcolon : skipSpace u = ':' :: text) (hvalue : readValue fuel room text = some (v, w))
    (hcomma : skipSpace w = ',' :: r) :
    readMembers (fuel + 1) room cs =
      (readMembers fuel room r).map fun p => ((String.ofList name, v) :: p.1, p.2) := by
  rw [readMembers, hquote]
  simp only [hname, hcolon, hvalue, hcomma]

end Members

theorem readMembers_local (room : Nat)
    (hvalue : Local IsNumber Closed (fun fuel cs => readValue fuel room cs) fuel)
    (hmembers : LocalUpTo '\x7d' (fun fuel cs => readMembers fuel room cs) fuel) :
    LocalUpTo '\x7d' (fun fuel cs => readMembers fuel room cs) (fuel + 1) := by
  intro cs l r h
  change readMembers (fuel + 1) room cs = some (l, r) at h
  rw [readMembers] at h
  split at h
  · rename_i key hquote
    obtain ⟨w₀, rfl, hskip₀⟩ := skipSpace_split hquote
    split at h
    · cases h
    · rename_i k u hread
      obtain ⟨q, rfl, hname⟩ := readString_takes hread
      have hname (y : List Char) : readString ((q ++ y).length + 1) (q ++ y) = some (k, y) := by
        refine hname y _ ?_
        rw [List.length_append]
        omega
      split at h
      · rename_i text hcolon
        obtain ⟨w₁, rfl, hskip₁⟩ := skipSpace_split hcolon
        split at h
        · cases h
        · rename_i v w hread
          obtain ⟨s, rfl, -, htake⟩ := hvalue text v w hread
          split at h
          · rename_i rest hclose
            obtain ⟨rfl, rfl⟩ := Prod.mk.inj (Option.some.inj h)
            obtain ⟨w₂, rfl, hskip₂⟩ := skipSpace_split hclose
            refine ⟨w₀ ++ '"' :: (q ++ (w₁ ++ ':' :: (s ++ (w₂ ++ ['\x7d'])))), by simp,
              by simp [List.getLast?_cons], fun x _ more hmore => ?_⟩
            simp only [List.length_append, List.length_cons, List.length_nil] at hmore
            obtain ⟨more, rfl⟩ : ∃ m, more = m + 1 := ⟨more - 1, by omega⟩
            have hvalue : readValue more room (s ++ (w₂ ++ '\x7d' :: x)) =
                some (v, w₂ ++ '\x7d' :: x) :=
              htake _ (fun _ => inPlaceOf_of_same w₂ _ _ _) more (by omega)
            simpa using
              readMembers_last (hskip₀ _) (hname _) (hskip₁ _) hvalue (hskip₂ x)
          · rename_i rest hcomma
            obtain ⟨p, hp, hpair⟩ := Option.map_eq_some_iff.mp h
            obtain ⟨rfl, rfl⟩ := Prod.mk.inj hpair
            obtain ⟨w₂, rfl, hskip₂⟩ := skipSpace_split hcomma
            obtain ⟨t, rfl, hlast, hrest⟩ := hmembers rest p.1 p.2 hp
            refine ⟨w₀ ++ '"' :: (q ++ (w₁ ++ ':' :: (s ++ (w₂ ++ ',' :: t)))), by simp,
              by simp [List.getLast?_cons, hlast], fun x _ more hmore => ?_⟩
            simp only [List.length_append, List.length_cons] at hmore
            obtain ⟨more, rfl⟩ : ∃ m, more = m + 1 := ⟨more - 1, by omega⟩
            have hvalue : readValue more room (s ++ (w₂ ++ ',' :: (t ++ x))) =
                some (v, w₂ ++ ',' :: (t ++ x)) :=
              htake _ (fun _ => inPlaceOf_of_same w₂ _ _ _) more (by omega)
            have hothers : readMembers more room (t ++ x) = some (p.1, x) :=
              hrest x False.elim more (by omega)
            have hread := readMembers_more (hskip₀ _) (hname _) (hskip₁ _) hvalue (hskip₂ _)
            rw [hothers] at hread
            simpa using hread
          · cases h
      · cases h
  · cases h

theorem read_local (fuel : Nat) :
    (∀ room, Local IsNumber Closed (fun fuel cs => readValue fuel room cs) fuel) ∧
    (∀ room, LocalUpTo ']' (fun fuel cs => readItems fuel room cs) fuel) ∧
    ∀ room, LocalUpTo '\x7d' (fun fuel cs => readMembers fuel room cs) fuel := by
  induction fuel with
  | zero =>
      refine ⟨fun room cs v r h => ?_, fun room cs l r h => ?_, fun room cs l r h => ?_⟩ <;> cases h
  | succ fuel ih =>
      obtain ⟨hvalue, hitems, hmembers⟩ := ih
      exact ⟨fun room => readValue_local room fun c =>
          readBehind_local c room (hitems _) (hmembers _),
        fun room => readItems_local room (hvalue room) (hitems room),
        fun room => readMembers_local room (hvalue room) (hmembers room)⟩

/-- What is read off the front of a text is read off the front of every text that has it there. -/
theorem readFront_local {v : Json} (h : readFront cs = some (v, r)) :
    ∃ s, cs = s ++ r ∧ Closed v s ∧
      ∀ x, (IsNumber v → InPlaceOf r x) → readFront (s ++ x) = some (v, x) := by
  obtain ⟨s, hsplit, hclosed, htake⟩ := (read_local _).1 depthLimit cs v r h
  refine ⟨s, hsplit, hclosed, fun x hx => htake x hx _ ?_⟩
  rw [List.length_append]
  omega

/-- Blanks before a value do not matter. -/
theorem readFront_skipSpace {v : Json} (h : readFront cs = some (v, r)) :
    readFront (skipSpace cs) = some (v, r) := by
  cases hfront : skipSpace cs with
  | nil =>
      rw [readFront, readValue_nil _ _ hfront] at h
      cases h
  | cons c u =>
      have hc : isSpace c = false := by
        have hhead := List.head?_dropWhile_not isSpace cs
        rw [show cs.dropWhile isSpace = c :: u from hfront] at hhead
        simpa using hhead
      have hself : skipSpace (c :: u) = c :: u := by simp [skipSpace, hc]
      obtain ⟨-, hitems, hmembers⟩ := read_local (2 * cs.length + 1)
      have hbehind := readBehind_local c depthLimit (hitems _) (hmembers _)
      rw [readFront, readValue_eq_behind _ _ hfront] at h
      obtain ⟨s, rfl, -, htake⟩ := hbehind u v r h
      rw [readFront, readValue_eq_behind _ _ hself]
      refine htake r (fun _ => .inr rfl) _ ?_
      simp only [List.length_cons, List.length_append]
      omega

/-- Only a brace begins an object. -/
theorem skipSpace_of_obj {ms : List (String × Json)} (h : readFront cs = some (.obj ms, r)) :
    ∃ u, skipSpace cs = '\x7b' :: u := by
  cases hfront : skipSpace cs with
  | nil =>
      rw [readFront, readValue_nil _ _ hfront] at h
      cases h
  | cons c u =>
      rw [readFront, readValue_eq_behind _ _ hfront, readBehind] at h
      by_cases hc : c = '\x7b'
      · exact ⟨u, by rw [hc]⟩
      · exfalso
        simp only [if_neg hc, readContainer] at h
        split_ifs at h <;> simp at h

/-- A value that is read off the front of a text is read off the front of every longer text. -/
theorem readFront_append {v : Json} (h : readFront cs = some (v, r)) (hnumber : IsNumber v → r ≠ [])
    (x : List Char) : readFront (cs ++ x) = some (v, r ++ x) := by
  obtain ⟨s, rfl, -, htake⟩ := readFront_local h
  rw [List.append_assoc]
  exact htake (r ++ x) fun hv => inPlaceOf_append (hnumber hv) x

end Values

end Scriptorium.Json
