import Mathlib.Data.List.Infix
import Scriptorium.Text.Template

/-! # Substitution in templates

When no name of a variable holds a brace, the placeholders of known variables cannot overlap. A
template is then cut at them in one way only: each is replaced by its value, and what stands before,
between and behind them is copied.
-/

namespace Scriptorium.Text

variable {vars : Variables} {cs r name rest a b first : List Char} {value : String}

/-! ## The closing brace -/

theorem toBrace_eq_some_iff :
    toBrace cs = some (name, rest) ↔ cs = name ++ '\x7d' :: rest ∧ '\x7d' ∉ name := by
  fun_induction toBrace cs generalizing name with
  | case1 => simp
  | case2 r =>
      constructor
      · intro h
        obtain ⟨rfl, rfl⟩ := Prod.mk.inj (Option.some.inj h)
        exact ⟨rfl, List.not_mem_nil⟩
      · rintro ⟨h, hname⟩
        cases name with
        | nil => simpa using h
        | cons d name =>
            rw [List.cons_append, List.cons.injEq] at h
            exact absurd (h.1 ▸ List.mem_cons_self) hname
  | case3 c r hc ih =>
      rw [Option.map_eq_some_iff]
      constructor
      · rintro ⟨p, hp, hpair⟩
        obtain ⟨rfl, rfl⟩ := Prod.mk.inj hpair
        obtain ⟨hsplit, hname⟩ := ih.mp hp
        refine ⟨by rw [hsplit, List.cons_append], ?_⟩
        rw [List.mem_cons, not_or]
        exact ⟨fun heq => hc heq.symm, hname⟩
      · rintro ⟨h, hname⟩
        cases name with
        | nil =>
            rw [List.nil_append, List.cons.injEq] at h
            exact absurd h.1 hc
        | cons d name =>
            rw [List.cons_append, List.cons.injEq] at h
            obtain ⟨rfl, hsplit⟩ := h
            exact ⟨(name, rest), ih.mpr ⟨hsplit, fun hmem => hname (List.mem_cons_of_mem _ hmem)⟩,
              rfl⟩

theorem toBrace_eq_none_iff : toBrace cs = none ↔ '\x7d' ∉ cs := by
  constructor
  · intro h hmem
    obtain ⟨before, after, rfl, hfirst⟩ := List.eq_append_cons_of_mem hmem
    rw [toBrace_eq_some_iff.mpr ⟨rfl, hfirst⟩] at h
    cases h
  · intro h
    cases hread : toBrace cs with
    | none => rfl
    | some p =>
        obtain ⟨hsplit, -⟩ := toBrace_eq_some_iff.mp (show toBrace cs = some (p.1, p.2) from hread)
        exact absurd (by simp [hsplit]) h

/-! ## One step of substitution -/

theorem fill_nil : fill vars [] = [] := by
  rw [fill]

theorem fill_cons_of_ne {c : Char} (hc : c ≠ '\x7b') : fill vars (c :: r) = c :: fill vars r := by
  rw [fill, if_neg hc]

theorem fill_known (hread : toBrace r = some (name, rest))
    (hvalue : vars.lookup (String.ofList name) = some value) :
    fill vars ('\x7b' :: r) = value.toList ++ fill vars rest := by
  rw [fill, if_pos rfl]
  split
  · rename_i hread'
    obtain ⟨rfl, rfl⟩ := Prod.mk.inj (Option.some.inj (hread.symm.trans hread'))
    rw [hvalue]
  · rename_i hread'
    rw [hread] at hread'
    cases hread'

theorem fill_unknown (h : ∀ name rest, toBrace r = some (name, rest) →
    vars.lookup (String.ofList name) = none) :
    fill vars ('\x7b' :: r) = '\x7b' :: fill vars r := by
  rw [fill, if_pos rfl]
  split
  · rename_i hread
    rw [h _ _ hread]
  · rfl

/-! ## Placeholders -/

def braced (name : List Char) : List Char := '\x7b' :: (name ++ ['\x7d'])

def Braceless (name : List Char) : Prop := '\x7b' ∉ name ∧ '\x7d' ∉ name

theorem braced_append (name rest : List Char) :
    braced name ++ rest = '\x7b' :: (name ++ '\x7d' :: rest) := by
  simp [braced]

theorem braceless_of_lookup (hnames : ∀ p ∈ vars, Braceless p.1.toList) {k : String}
    (hvalue : vars.lookup k = some value) : Braceless k.toList := by
  obtain ⟨front, back, rfl, -⟩ := List.lookup_eq_some_iff.mp hvalue
  exact hnames (k, value) (by simp)

/-- A placeholder of a known variable is replaced, and the texts on its two sides have no part in
each other. -/
theorem fill_append (hnames : ∀ p ∈ vars, Braceless p.1.toList)
    (hvalue : vars.lookup (String.ofList name) = some value) (a b : List Char) :
    fill vars (a ++ (braced name ++ b)) = fill vars a ++ (value.toList ++ fill vars b) := by
  have hname : Braceless name := by simpa using braceless_of_lookup hnames hvalue
  induction a using fill.induct vars with
  | case1 =>
      rw [fill_nil, List.nil_append, List.nil_append, braced_append]
      exact fill_known (toBrace_eq_some_iff.mpr ⟨rfl, hname.2⟩) hvalue
  | case2 r known rest hread v hv ih =>
      obtain ⟨rfl, hclosed⟩ := toBrace_eq_some_iff.mp hread
      have hlonger : toBrace (known ++ '\x7d' :: rest ++ (braced name ++ b)) =
          some (known, rest ++ (braced name ++ b)) :=
        toBrace_eq_some_iff.mpr ⟨by simp, hclosed⟩
      rw [List.cons_append, fill_known hlonger hv, fill_known hread hv, ih, List.append_assoc]
  | case3 r other rest hread hv ih =>
      obtain ⟨rfl, hclosed⟩ := toBrace_eq_some_iff.mp hread
      have hlonger : toBrace (other ++ '\x7d' :: rest ++ (braced name ++ b)) =
          some (other, rest ++ (braced name ++ b)) :=
        toBrace_eq_some_iff.mpr ⟨by simp, hclosed⟩
      rw [List.cons_append, fill_unknown, fill_unknown, ih, List.cons_append]
      · intro n t hnt
        obtain ⟨rfl, -⟩ := Prod.mk.inj (Option.some.inj (hread.symm.trans hnt))
        exact hv
      · intro n t hnt
        obtain ⟨rfl, -⟩ := Prod.mk.inj (Option.some.inj (hlonger.symm.trans hnt))
        exact hv
  | case4 r hread ih =>
      -- The first closing brace is that of the placeholder, so the name would hold its opening one.
      have hopen : '\x7d' ∉ r := toBrace_eq_none_iff.mp hread
      have hlonger : toBrace (r ++ (braced name ++ b)) = some (r ++ '\x7b' :: name, b) := by
        refine toBrace_eq_some_iff.mpr ⟨by simp [braced], ?_⟩
        simp [hopen, hname.2]
      rw [List.cons_append, fill_unknown, fill_unknown, ih, List.cons_append]
      · intro n t hnt
        rw [hread] at hnt
        cases hnt
      · intro n t hnt
        obtain ⟨rfl, -⟩ := Prod.mk.inj (Option.some.inj (hlonger.symm.trans hnt))
        cases hv : vars.lookup (String.ofList (r ++ '\x7b' :: name)) with
        | none => rfl
        | some v => exact absurd (braceless_of_lookup hnames hv).1 (by simp)
  | case5 c r hc ih =>
      rw [List.cons_append, fill_cons_of_ne hc, fill_cons_of_ne hc, ih, List.cons_append]

def Plain (vars : Variables) (cs : List Char) : Prop :=
  ∀ k v, vars.lookup k = some v → ¬ braced k.toList <:+: cs

theorem Plain.tail {c : Char} (h : Plain vars (c :: r)) : Plain vars r :=
  fun k v hv hin => h k v hv (hin.trans (List.suffix_cons c r).isInfix)

theorem fill_of_plain (h : Plain vars cs) : fill vars cs = cs := by
  induction cs using fill.induct vars with
  | case1 => exact fill_nil
  | case2 r name rest hread value hv _ =>
      obtain ⟨rfl, -⟩ := toBrace_eq_some_iff.mp hread
      refine absurd ?_ (h _ _ hv)
      exact ⟨[], rest, by simp [braced]⟩
  | case3 r name rest hread hv ih =>
      rw [fill_unknown, ih h.tail]
      intro n t hnt
      obtain ⟨rfl, -⟩ := Prod.mk.inj (Option.some.inj (hread.symm.trans hnt))
      exact hv
  | case4 r hread ih =>
      rw [fill_unknown, ih h.tail]
      intro n t hnt
      rw [hread] at hnt
      cases hnt
  | case5 c r hc ih => rw [fill_cons_of_ne hc, ih h.tail]

theorem closed_inj {k n : List Char} (hk : '\x7d' ∉ k) (hn : '\x7d' ∉ n)
    (h : k ++ '\x7d' :: rest = n ++ '\x7d' :: b) : n = k ∧ b = rest := by
  have hread := (toBrace_eq_some_iff.mpr ⟨h, hn⟩).symm.trans (toBrace_eq_some_iff.mpr ⟨rfl, hk⟩)
  exact Prod.mk.inj (Option.some.inj hread)

/-- Behind a text without a certain placeholder, and another one, that placeholder is either the one
that follows the text or stands wholly behind it. -/
theorem braced_split {k n : List Char} (hk : Braceless k) (hn : Braceless n)
    (hfirst : ¬ braced n <:+: first) (h : first ++ (braced k ++ rest) = a ++ (braced n ++ b)) :
    (a = first ∧ n = k ∧ b = rest) ∨
      ∃ between, a = first ++ (braced k ++ between) ∧ rest = between ++ (braced n ++ b) := by
  rw [braced_append, braced_append] at h
  obtain ⟨z, rfl, hz⟩ | ⟨z, rfl, hz⟩ := List.append_eq_append_iff.mp h
  · cases z with
    | nil =>
        obtain ⟨hname, hrest⟩ := closed_inj hk.2 hn.2 (by simpa using hz)
        exact .inl ⟨by simp, hname, hrest⟩
    | cons c z =>
        -- `z` begins with the brace that opens the placeholder of `k`, and so has all of it.
        obtain ⟨rfl, htail⟩ := List.cons.inj hz
        obtain ⟨w, rfl, hw⟩ | ⟨w, rfl, hw⟩ := List.append_eq_append_iff.mp htail
        · cases w with
          | nil => simp at hw
          | cons d w =>
              obtain ⟨rfl, rfl⟩ := List.cons.inj hw
              refine .inr ⟨w, by simp [braced], ?_⟩
              rw [braced_append]
              rfl
        · cases w with
          | nil => simp at hw
          | cons d w =>
              obtain ⟨rfl, -⟩ := List.cons.inj hw
              exact absurd hk.1 (by simp)
  · cases z with
    | nil =>
        obtain ⟨hname, hrest⟩ := closed_inj hk.2 hn.2 (by simpa using hz.symm)
        exact .inl ⟨by simp, hname, hrest⟩
    | cons c z =>
        -- The placeholder of `n` would lie in `first`, or hold the brace that opens that of `k`.
        obtain ⟨rfl, htail⟩ := List.cons.inj hz
        obtain ⟨w, rfl, hw⟩ | ⟨w, rfl, hw⟩ := List.append_eq_append_iff.mp htail
        · cases w with
          | nil => simp at hw
          | cons d w =>
              obtain ⟨rfl, -⟩ := List.cons.inj hw
              exact absurd ⟨a, w, by simp [braced]⟩ hfirst
        · cases w with
          | nil => simp at hw
          | cons d w =>
              obtain ⟨rfl, -⟩ := List.cons.inj hw
              exact absurd hn.1 (by simp)

/-! ## Templates cut at their placeholders -/

def placeholder (k : String) : String := "\x7b" ++ k ++ "\x7d"

@[simp] theorem toList_placeholder (k : String) : (placeholder k).toList = braced k.toList := by
  simp [placeholder, braced]

/-- A text, and behind it placeholders, each with the text that follows it. -/
def written : String → List (String × String) → String
  | first, [] => first
  | first, p :: ps => first ++ (placeholder p.1 ++ written p.2 ps)

/-- The same with the values of the variables in the places of their placeholders. -/
def replaced (vars : Variables) : String → List (String × String) → String
  | first, [] => first
  | first, p :: ps => first ++ ((vars.lookup p.1).getD "" ++ replaced vars p.2 ps)

/-- The pieces of a template that has been cut at every placeholder of a known variable. -/
structure Cut (vars : Variables) (first : String) (ps : List (String × String)) : Prop where
  known : ∀ p ∈ ps, (vars.lookup p.1).isSome = true
  plain : Plain vars first.toList
  plains : ∀ p ∈ ps, Plain vars p.2.toList

theorem Cut.tail {s : String} {p : String × String} {ps : List (String × String)}
    (h : Cut vars s (p :: ps)) : Cut vars p.2 ps :=
  ⟨fun q hq => h.known q (List.mem_cons_of_mem p hq), h.plains p List.mem_cons_self,
    fun q hq => h.plains q (List.mem_cons_of_mem p hq)⟩

theorem render_append (hnames : ∀ p ∈ vars, Braceless p.1.toList) {k : String}
    (hvalue : vars.lookup k = some value) (s t : String) :
    render (s ++ (placeholder k ++ t)) vars = render s vars ++ (value ++ render t vars) := by
  have hname : vars.lookup (String.ofList k.toList) = some value := by simpa using hvalue
  rw [render, String.toList_append, String.toList_append, toList_placeholder,
    fill_append hnames hname]
  simp [render]

theorem render_of_plain {t : String} (h : Plain vars t.toList) : render t vars = t := by
  rw [render, fill_of_plain h, String.ofList_toList]

theorem written_append (s t k : String) (ps qs : List (String × String)) :
    written s (ps ++ (k, t) :: qs) = written s ps ++ (placeholder k ++ written t qs) := by
  induction ps generalizing s with
  | nil => rfl
  | cons p ps ih => simp only [List.cons_append, written, ih, String.append_assoc]

/-- Every template can be cut at its known placeholders. -/
theorem exists_cut (vars : Variables) (t : String) : ∃ s ps, Cut vars s ps ∧ written s ps = t := by
  induction hn : t.toList.length using Nat.strong_induction_on generalizing t with
  | _ n ih =>
    subst hn
    by_cases hplain : Plain vars t.toList
    · exact ⟨t, [], ⟨by simp, hplain, by simp⟩, rfl⟩
    · obtain ⟨k, v, hv, a, b, hsplit⟩ :
          ∃ k v, vars.lookup k = some v ∧ braced k.toList <:+: t.toList := by
        simpa [Plain] using hplain
      have hlength := congrArg List.length hsplit
      simp only [List.length_append, braced, List.length_cons, List.length_nil] at hlength
      obtain ⟨s, ps, hs, hsa⟩ := ih a.length (by omega) (String.ofList a) (by simp)
      obtain ⟨u, qs, hu, hub⟩ := ih b.length (by omega) (String.ofList b) (by simp)
      refine ⟨s, ps ++ (k, u) :: qs, ⟨?_, hs.plain, ?_⟩, ?_⟩
      · intro p hp
        rcases List.mem_append.mp hp with hp | hp
        · exact hs.known p hp
        · rcases List.mem_cons.mp hp with rfl | hp
          · simp [hv]
          · exact hu.known p hp
      · intro p hp
        rcases List.mem_append.mp hp with hp | hp
        · exact hs.plains p hp
        · rcases List.mem_cons.mp hp with rfl | hp
          · exact hu.plain
          · exact hu.plains p hp
      · rw [written_append, hsa, hub]
        apply String.toList_injective
        simp [← hsplit]

theorem Cut.render_written (hnames : ∀ p ∈ vars, Braceless p.1.toList)
    {s : String} {ps : List (String × String)} (h : Cut vars s ps) :
    render (written s ps) vars = replaced vars s ps := by
  induction ps generalizing s with
  | nil => exact render_of_plain h.plain
  | cons p ps ih =>
      obtain ⟨v, hv⟩ := Option.isSome_iff_exists.mp (h.known p List.mem_cons_self)
      rw [written, render_append hnames hv, render_of_plain h.plain, ih h.tail, replaced, hv]
      rfl

/-- No placeholder of a known variable lies anywhere but at the cuts. -/
theorem Cut.at_cut (hnames : ∀ p ∈ vars, Braceless p.1.toList)
    {s : String} {ps : List (String × String)} (h : Cut vars s ps) {k v x y : String}
    (hv : vars.lookup k = some v) (hsplit : written s ps = x ++ (placeholder k ++ y)) :
    ∃ before u after, ps = before ++ (k, u) :: after ∧ x = written s before ∧
      y = written u after := by
  have hchars := congrArg String.toList hsplit
  simp only [String.toList_append, toList_placeholder] at hchars
  induction ps generalizing s x with
  | nil => exact absurd ⟨x.toList, y.toList, by simpa [written] using hchars.symm⟩ (h.plain k v hv)
  | cons p ps ih =>
      obtain ⟨w, hw⟩ := Option.isSome_iff_exists.mp (h.known p List.mem_cons_self)
      have hcut : s.toList ++ (braced p.1.toList ++ (written p.2 ps).toList) =
          x.toList ++ (braced k.toList ++ y.toList) := by simpa [written] using hchars
      obtain ⟨hx, hk, hy⟩ | ⟨between, hx, hrest⟩ :=
        braced_split (braceless_of_lookup hnames hw) (braceless_of_lookup hnames hv)
          (h.plain k v hv) hcut
      · obtain rfl := String.toList_injective hk
        exact ⟨[], p.2, ps, rfl, String.toList_injective hx, String.toList_injective hy⟩
      · have hinner : written p.2 ps = String.ofList between ++ (placeholder k ++ y) := by
          apply String.toList_injective
          simp [hrest]
        obtain ⟨before, u, after, rfl, hbetween, hy⟩ := ih h.tail hinner (by simp [hrest])
        refine ⟨p :: before, u, after, rfl, ?_, hy⟩
        apply String.toList_injective
        simp [written, hx, ← hbetween]

/-- With names that hold no braces, a placeholder of a known variable is replaced whatever braces
stand around it, and a text without such placeholders is copied. So every template is cut at all its
known placeholders, and each of them is replaced once. -/
theorem render_placeholders (vars : Variables) (hnames : ∀ p ∈ vars, Braceless p.1.toList) :
    (∀ k v, vars.lookup k = some v → ∀ s t,
      render (s ++ placeholder k ++ t) vars = render s vars ++ v ++ render t vars) ∧
    (∀ t, Plain vars t.toList → render t vars = t) ∧
    ∀ t, ∃ s ps, Cut vars s ps ∧ written s ps = t ∧ render t vars = replaced vars s ps ∧
      ∀ k v x y, vars.lookup k = some v → t = x ++ placeholder k ++ y →
        ∃ before u after, ps = before ++ (k, u) :: after ∧ x = written s before ∧
          y = written u after := by
  refine ⟨fun k v hv s t => ?_, fun t => render_of_plain, fun t => ?_⟩
  · rw [String.append_assoc, String.append_assoc]
    exact render_append hnames hv s t
  · obtain ⟨s, ps, hcut, rfl⟩ := exists_cut vars t
    refine ⟨s, ps, hcut, rfl, hcut.render_written hnames, fun k v x y hv hsplit => ?_⟩
    exact hcut.at_cut hnames hv (by rw [hsplit, String.append_assoc])

theorem render_placeholders_stray :
    let vars : Variables := [("a", "\x7bb\x7d"), ("b", "no")]
    (∀ p ∈ vars, Braceless p.1.toList) ∧ vars.lookup "a" = some "\x7bb\x7d" ∧
      render ("\x7bx" ++ placeholder "a" ++ "\x7d\x7b") vars =
        render "\x7bx" vars ++ "\x7bb\x7d" ++ render "\x7d\x7b" vars := by
  intro vars
  have hnames : ∀ p ∈ vars, Braceless p.1.toList := by
    simp [vars, Braceless]
  have hvalue : vars.lookup "a" = some "\x7bb\x7d" := by decide
  exact ⟨hnames, hvalue, (render_placeholders vars hnames).1 "a" _ hvalue _ _⟩

end Scriptorium.Text
