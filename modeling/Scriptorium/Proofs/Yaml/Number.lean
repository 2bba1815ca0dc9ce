import Scriptorium.Proofs.Json.RoundTrip
import Scriptorium.Proofs.Number.Shortest
import Scriptorium.Settings.Record
import Std.Data.String.ToNat

/-! # Numbers in YAML

What is written of a number can be read. A natural number is read as it is. A single is read by way
of a double, so it may come back as a neighbour where the shortest decimal that is written of it
rounds to a double half way between two singles.
-/

namespace Scriptorium

namespace Yaml

open Number

/-! ## Digits -/

structure IsDigits (ds : List Char) : Prop where
  digits : ∀ c ∈ ds, c.isDigit = true
  ne_nil : ds ≠ []

variable {ds whole fraction rest : List Char}

theorem isDigits_toDigits (n : Nat) : IsDigits (Nat.toDigits 10 n) where
  digits _ hc := Nat.isDigit_of_mem_toDigits (by decide) (by decide) hc
  ne_nil := Nat.toDigits_ne_nil

theorem IsDigits.append (h : IsDigits whole) (hfraction : ∀ c ∈ fraction, c.isDigit = true) :
    IsDigits (whole ++ fraction) where
  digits c hc := (List.mem_append.mp hc).elim (h.digits c) (hfraction c)
  ne_nil := by simp [h.ne_nil]

theorem hexValue_of_isDigit {c : Char} (hc : c.isDigit = true) :
    Text.hexValue c = some (c.toNat - '0'.toNat) ∧ c.toNat - '0'.toNat < 10 := by
  obtain ⟨hlow, hhigh⟩ := Char.isDigit_iff_toNat.mp hc
  refine ⟨if_pos ⟨hlow, hhigh⟩, ?_⟩
  have hzero : '0'.toNat = 48 := rfl
  have hnine : '9'.toNat = 57 := rfl
  omega

theorem digitsIn?_eq (h : IsDigits ds) : digitsIn? 10 ds = some (Nat.ofDigitChars 10 ds 0) := by
  have hfold {cs : List Char} (hcs : ∀ c ∈ cs, c.isDigit = true) (acc : Nat) :
      cs.foldlM (fun acc c => do
        let d ← Text.hexValue c
        if d < 10 then some (acc * 10 + d) else none) acc = some (Nat.ofDigitChars 10 cs acc) := by
    induction cs generalizing acc with
    | nil => rfl
    | cons c cs ih =>
        obtain ⟨hvalue, hlt⟩ := hexValue_of_isDigit (hcs c List.mem_cons_self)
        have hstep : (do
            let d ← Text.hexValue c
            if d < 10 then some (acc * 10 + d) else none) =
              some (10 * acc + (c.toNat - '0'.toNat)) := by
          rw [hvalue, Nat.mul_comm 10 acc]
          exact if_pos hlt
        rw [List.foldlM_cons, hstep, Nat.ofDigitChars_cons]
        exact ih (fun d hd => hcs d (List.mem_cons_of_mem _ hd)) _
  unfold digitsIn?
  rw [if_neg (by simpa using h.ne_nil)]
  exact hfold h.digits 0

/-! ## Natural numbers -/

theorem based_eq_none (h : IsDigits ds) : based ds = none := by
  unfold based
  split
  next r _ =>
    have hx := h.digits 'x' (by simp)
    simp at hx
  next r _ =>
    have ho := h.digits 'o' (by simp)
    simp at ho
  next r _ =>
    have hb := h.digits 'b' (by simp)
    simp at hb
  next => rfl

theorem startsSigned_eq_false (h : IsDigits ds) : startsSigned ds = false := by
  obtain ⟨c, cs, rfl⟩ := List.exists_cons_of_ne_nil h.ne_nil
  have hc := h.digits c List.mem_cons_self
  simp [startsSigned, Json.ne_of_isDigit hc '+', Json.ne_of_isDigit hc '-']

theorem zeroLed_toDigits (n : Nat) : zeroLed (Nat.toDigits 10 n) = false := by
  have hsigned := startsSigned_eq_false (isDigits_toDigits n)
  unfold zeroLed
  rw [hsigned]
  by_cases hzero : n = 0
  · subst hzero
    rfl
  · obtain ⟨c, ds, hds, hc⟩ := Json.toDigits_head hzero
    simp [hds, hc]

theorem naturalOf?_toString (n : Nat) : naturalOf? (toString n) = some n := by
  have h := isDigits_toDigits n
  have hsigned := startsSigned_eq_false h
  have hplus : ¬ (Nat.toDigits 10 n).head? = some '+' := by
    intro hhead
    simp [startsSigned, hhead] at hsigned
  unfold naturalOf?
  rw [Nat.toString_eq_ofList_toDigits, String.toList_ofList]
  dsimp only
  rw [if_neg hplus, based_eq_none h]
  dsimp only
  rw [hsigned, zeroLed_toDigits, digitsIn?_eq h, Nat.ofDigitChars_ten_toDigits]
  rfl

/-! ## Decimals -/

theorem takeWhile_digits (hwhole : ∀ c ∈ whole, c.isDigit = true)
    (hrest : ∀ c ∈ rest.head?, c.isDigit = false) :
    (whole ++ rest).takeWhile Char.isDigit = whole ∧
      (whole ++ rest).dropWhile Char.isDigit = rest := by
  induction whole with
  | nil =>
      cases rest with
      | nil => exact ⟨rfl, rfl⟩
      | cons c rest =>
          have hc := hrest c rfl
          simp [hc]
  | cons c whole ih =>
      have hc := hwhole c List.mem_cons_self
      obtain ⟨htaken, hdropped⟩ := ih fun d hd => hwhole d (List.mem_cons_of_mem _ hd)
      simp [hc, htaken, hdropped]

/-- What may follow the digits of a decimal: nothing or an exponent. -/
inductive Tail : List Char → Int → Prop where
  | nothing : Tail [] 0
  | exponent {cs : List Char} {e : Int} (h : exponentOf? cs = some e) : Tail ('e' :: cs) e

theorem Tail.head {e : Int} (h : Tail rest e) : ∀ c ∈ rest.head?, c.isDigit = false := by
  cases h with
  | nothing => simp
  | exponent _ => simp

/-- A decimal is read by its digits, with the point moved behind the last one. -/
theorem decimalOf?_eq {e : Int} (hwhole : IsDigits whole)
    (hfraction : ∀ c ∈ fraction, c.isDigit = true) (hrest : Tail rest e) :
    decimalOf? (whole ++ if fraction = [] then rest else '.' :: (fraction ++ rest)) =
      some (nearest double (Nat.ofDigitChars 10 (whole ++ fraction) 0) (e - fraction.length)) := by
  have hread := digitsIn?_eq (hwhole.append hfraction)
  unfold decimalOf?
  by_cases hnone : fraction = []
  · subst hnone
    obtain ⟨htaken, -⟩ := takeWhile_digits hwhole.digits hrest.head
    rw [List.append_nil] at hread ⊢
    rw [if_pos rfl, htaken]
    cases hrest with
    | nothing => simp [hread]
    | exponent h => simp [hread, h]
  · have hpointed : ∀ c ∈ ('.' :: (fraction ++ rest)).head?, c.isDigit = false := by simp
    obtain ⟨htaken, -⟩ := takeWhile_digits hwhole.digits hpointed
    obtain ⟨hfront, hback⟩ := takeWhile_digits hfraction hrest.head
    rw [if_neg hnone, htaken]
    simp only [List.drop_left, hfront, hback]
    cases hrest with
    | nothing => simp [hread]
    | exponent h => simp [hread, h]

theorem exponentOf?_digits (h : IsDigits ds) :
    exponentOf? ds = some (Nat.ofDigitChars 10 ds 0 : Int) := by
  have hsigned := startsSigned_eq_false h
  unfold exponentOf?
  split
  next => simp [startsSigned] at hsigned
  next => simp [startsSigned] at hsigned
  next =>
    rw [digitsIn?_eq h]
    rfl

theorem exponentOf?_toString (plus : Bool) {e : Int} (hplus : plus = true → 0 ≤ e) :
    exponentOf? ((if plus then ['+'] else []) ++ (toString e).toList) = some e := by
  rw [Int.toString_eq_repr, Int.repr_eq_if]
  by_cases he : 0 ≤ e
  · obtain ⟨n, rfl⟩ := Int.eq_ofNat_of_zero_le he
    have h := isDigits_toDigits n
    rw [if_pos he, Int.toNat_natCast, Nat.repr_eq_ofList_toDigits, String.toList_ofList]
    cases plus with
    | false =>
        have hread := exponentOf?_digits h
        rw [Nat.ofDigitChars_ten_toDigits] at hread
        simpa using hread
    | true =>
        simp only [if_true, List.singleton_append, exponentOf?]
        rw [digitsIn?_eq h, Nat.ofDigitChars_ten_toDigits]
        rfl
  · have h := isDigits_toDigits (-e).toNat
    obtain rfl : plus = false := by
      cases plus with
      | false => rfl
      | true => exact absurd (hplus rfl) he
    have hminus : "-".toList = ['-'] := rfl
    have hback : -((-e).toNat : Int) = e := by omega
    rw [if_neg he, Nat.repr_eq_ofList_toDigits, String.toList_append, hminus, String.toList_ofList]
    simp only [Bool.false_eq_true, if_false, List.nil_append, List.singleton_append, exponentOf?]
    rw [digitsIn?_eq h, Nat.ofDigitChars_ten_toDigits]
    exact congrArg some hback

/-- Characters that are read as a decimal: they begin with a digit, and the digits and the exponent
that are read make the decimal. -/
structure Says (cs : List Char) (x : Decimal) : Prop where
  begins : ∃ c r, cs = c :: r ∧ c.isDigit = true
  read : ∃ d e, decimalOf? cs = some (nearest double d e) ∧ 0 < d ∧ (d * 10 ^ e : ℚ) = x.value ∧
    (e = -1 ∨ e = x.exponent)

theorem says_of_parts {x : Decimal} {e : Int} (hx : 0 < x.digits) (hwhole : IsDigits whole)
    (hfraction : ∀ c ∈ fraction, c.isDigit = true) (hrest : Tail rest e)
    (h : Nat.ofDigitChars 10 (whole ++ fraction) 0 = x.digits ∧ e - fraction.length = x.exponent ∨
      0 ≤ x.exponent ∧ e - fraction.length = -1 ∧
        Nat.ofDigitChars 10 (whole ++ fraction) 0 = x.digits * 10 ^ (x.exponent.toNat + 1)) :
    Says (whole ++ if fraction = [] then rest else '.' :: (fraction ++ rest)) x := by
  refine ⟨?_, _, _, decimalOf?_eq hwhole hfraction hrest, ?_⟩
  · obtain ⟨c, r, rfl⟩ := List.exists_cons_of_ne_nil hwhole.ne_nil
    exact ⟨c, _, rfl, hwhole.digits c List.mem_cons_self⟩
  · rcases h with ⟨hdigits, hexponent⟩ | ⟨hnonneg, hexponent, hdigits⟩
    · rw [hdigits, hexponent]
      exact ⟨hx, rfl, .inr rfl⟩
    · rw [hdigits, hexponent]
      refine ⟨Nat.mul_pos hx (Nat.pow_pos (by decide)), ?_, .inl rfl⟩
      obtain ⟨n, hn⟩ := Int.eq_ofNat_of_zero_le hnonneg
      rw [Decimal.value, hn, Int.toNat_natCast]
      push_cast
      rw [zpow_natCast, pow_succ, zpow_neg_one, ← mul_assoc,
        mul_inv_cancel_right₀ (by norm_num)]

theorem isDigit_of_mem_replicate {n : Nat} : ∀ c ∈ List.replicate n '0', c.isDigit = true := by
  intro c hc
  rw [List.eq_of_mem_replicate hc]
  rfl

section Render

variable {x : Decimal}

/-- A whole number: zeros up to the point, and one after it. -/
theorem says_padded (hx : 0 < x.digits) (hds : IsDigits ds)
    (hvalue : Nat.ofDigitChars 10 ds 0 = x.digits) (hwhole : 0 ≤ x.exponent) :
    Says (ds ++ List.replicate x.exponent.toNat '0' ++ ['.', '0']) x := by
  have hpadded : IsDigits (ds ++ List.replicate x.exponent.toNat '0') :=
    hds.append isDigit_of_mem_replicate
  have hzero : ∀ c ∈ ['0'], c.isDigit = true := by simp
  have hsays := says_of_parts hx hpadded hzero .nothing (.inr ⟨hwhole, rfl, ?_⟩)
  · exact hsays
  · rw [Nat.ofDigitChars_append, Nat.ofDigitChars_append, hvalue,
      Nat.ofDigitChars_replicate_zero, Nat.ofDigitChars_cons, Nat.ofDigitChars_nil, pow_succ,
      Nat.sub_self]
    ring

/-- The point stands among the digits. -/
theorem says_pointed (hx : 0 < x.digits) (hds : IsDigits ds)
    (hvalue : Nat.ofDigitChars 10 ds 0 = x.digits) {p : Int} (hp : ds.length + x.exponent = p)
    (hpos : 0 < p) (hlt : x.exponent < 0) :
    Says (ds.take p.toNat ++ '.' :: ds.drop p.toNat) x := by
  have hlength : 0 < ds.length := List.length_pos_of_ne_nil hds.ne_nil
  have htake : IsDigits (ds.take p.toNat) := by
    refine ⟨fun c hc => hds.digits c (List.mem_of_mem_take hc), ?_⟩
    rw [← List.length_pos_iff, List.length_take]
    omega
  have hdrop : ∀ c ∈ ds.drop p.toNat, c.isDigit = true := fun c hc =>
    hds.digits c (List.mem_of_mem_drop hc)
  have hne : ds.drop p.toNat ≠ [] := by
    rw [← List.length_pos_iff, List.length_drop]
    omega
  have hsays := says_of_parts (e := 0) hx htake hdrop .nothing (.inl ⟨?_, ?_⟩)
  · rwa [if_neg hne, List.append_nil] at hsays
  · rw [List.take_append_drop, hvalue]
  · rw [List.length_drop]
    omega

/-- Zeros stand between the point and the digits. -/
theorem says_small (hx : 0 < x.digits) (hds : IsDigits ds)
    (hvalue : Nat.ofDigitChars 10 ds 0 = x.digits) {p : Int} (hp : ds.length + x.exponent = p)
    (hle : p ≤ 0) : Says ('0' :: '.' :: (List.replicate (-p).toNat '0' ++ ds)) x := by
  have hzeros : ∀ c ∈ List.replicate (-p).toNat '0' ++ ds, c.isDigit = true := fun c hc =>
    (List.mem_append.mp hc).elim (isDigit_of_mem_replicate c) (hds.digits c)
  have hne : List.replicate (-p).toNat '0' ++ ds ≠ [] := by
    simp [hds.ne_nil]
  have hzero : Nat.ofDigitChars 10 ['0'] 0 = 0 := rfl
  have hwhole : IsDigits ['0'] := ⟨by simp, by simp⟩
  have hsays := says_of_parts (e := 0) hx hwhole hzeros .nothing (.inl ⟨?_, ?_⟩)
  · rwa [if_neg hne, List.append_nil] at hsays
  · rw [← List.append_assoc, Nat.ofDigitChars_append, Nat.ofDigitChars_append,
      Nat.ofDigitChars_replicate_zero, hzero, Nat.mul_zero, hvalue]
  · rw [List.length_append, List.length_replicate]
    omega

/-- One digit before the point, and an exponent. -/
theorem says_scientific (hx : 0 < x.digits) {c : Char} {r exponent : List Char}
    (hds : IsDigits (c :: r)) (hvalue : Nat.ofDigitChars 10 (c :: r) 0 = x.digits)
    (hexponent : exponentOf? exponent = some (r.length + x.exponent)) :
    Says (c :: if r = [] then 'e' :: exponent else '.' :: (r ++ 'e' :: exponent)) x := by
  have hfirst : IsDigits [c] := by
    refine ⟨fun d hd => ?_, by simp⟩
    rw [List.mem_singleton.mp hd]
    exact hds.digits c List.mem_cons_self
  have hrest : ∀ d ∈ r, d.isDigit = true := fun d hd => hds.digits d (List.mem_cons_of_mem _ hd)
  exact says_of_parts hx hfirst hrest (.exponent hexponent) (.inl ⟨hvalue, by ring⟩)

end Render

/-- What is written of a decimal says it, in every notation. -/
theorem says_render (style : Notation) {x : Decimal} (hx : 0 < x.digits) :
    Says (style.render x).toList x := by
  have hds := isDigits_toDigits x.digits
  have hvalue := Nat.ofDigitChars_ten_toDigits (n := x.digits)
  unfold Notation.render
  rw [String.toList_ofList]
  dsimp only
  generalize Nat.toDigits 10 x.digits = ds at hds hvalue
  split
  next hform => exact says_padded hx hds hvalue hform.1
  split
  next hform hmiddle => exact says_pointed hx hds hvalue rfl hmiddle.1 (by omega)
  split
  next hsmall => exact says_small hx hds hvalue rfl hsmall.2
  next =>
    have hexponent := exponentOf?_toString (style.plus && decide (1 ≤ ds.length + x.exponent))
      (e := ds.length + x.exponent - 1) (by
        intro h
        rw [Bool.and_eq_true, decide_eq_true_iff] at h
        omega)
    simp only [Bool.and_eq_true, decide_eq_true_iff] at hexponent
    obtain ⟨c, r, rfl⟩ := List.exists_cons_of_ne_nil hds.ne_nil
    have hshift : ((c :: r).length : Int) + x.exponent - 1 = r.length + x.exponent := by
      rw [List.length_cons]
      push_cast
      ring
    rw [hshift] at hexponent ⊢
    have hsays := says_scientific hx hds hvalue hexponent
    cases r with
    | nil => exact hsays
    | cons d r => exact hsays

/-! ## Exponents of singles -/

section

variable {p : Nat}

theorem nearest_eq (f : Format) {digits : Nat} {exponent : Int} (hdigits : 0 < digits)
    (hlow : -2000 ≤ exponent) (hhigh : exponent ≤ 2000) : nearest f digits exponent =
      f.round (scaleTen digits 1 exponent).1 (scaleTen digits 1 exponent).2 := by
  unfold nearest scaleTen
  rw [if_neg hdigits.ne']
  dsimp only
  split
  · rw [if_neg (by omega)]
  · rw [if_neg (by omega), Nat.one_mul]

/-- Decimals of one value are read as one double. -/
theorem nearest_congr {d d' : Nat} {e e' : Int} (hd : 0 < d) (hd' : 0 < d')
    (he : -2000 ≤ e ∧ e ≤ 2000) (he' : -2000 ≤ e' ∧ e' ≤ 2000)
    (h : (d * 10 ^ e : ℚ) = d' * 10 ^ e') : nearest double d e = nearest double d' e' := by
  rw [nearest_eq double hd he.1 he.2, nearest_eq double hd' he'.1 he'.2]
  refine Format.round_congr double_precision (scaleTen_den_pos Nat.one_pos _)
    (scaleTen_den_pos Nat.one_pos _) ?_
  rw [scaleTen_eq, scaleTen_eq, Nat.cast_one, div_one, div_one, h]

def written (p : Nat) : Decimal := (single.shortest p).trimZeros

def reread (p : Nat) : ℚ := double.value (nearest double (written p).digits (written p).exponent)

/-- The range of singles, in powers of ten. -/
theorem single_bounds (hpos : 0 < p) (hp : p < single.infinite) :
    (10 : ℚ) ^ (-149 : Int) ≤ single.value p ∧ single.midpoint p ≤ 10 ^ (128 : Int) := by
  have hleast : single.Cell 1 0 1 := ⟨by decide, by decide, .inl rfl⟩
  have hgreatest : single.Cell single.infinite 254 single.unit :=
    ⟨by decide, by decide, .inr (Nat.le_refl _)⟩
  constructor
  · calc (10 : ℚ) ^ (-149 : Int) ≤ 2 ^ (-149 : Int) := by norm_num
      _ = single.value 1 := by
        rw [hleast.value_eq]
        norm_num [single]
      _ ≤ single.value p := single.value_strictMono.monotone hpos
  · calc single.midpoint p ≤ single.value (p + 1) := (single.midpoint_lt_value p).le
      _ ≤ single.value single.infinite := single.value_strictMono.monotone hp
      _ = 2 ^ (128 : Int) := by
        rw [hgreatest.value_eq]
        norm_num [single, Format.unit]
      _ ≤ 10 ^ (128 : Int) := by norm_num

theorem written_spec (hpos : 0 < p) (hp : p < single.infinite) :
    single.Nearest p (written p).value ∧ 0 < (written p).digits ∧
      -2000 ≤ (written p).exponent ∧ (written p).exponent ≤ 2000 := by
  obtain ⟨hnearest, hlarge⟩ := Format.shortest_spec single_precision (by decide) hpos
  have hlow : 0 < single.midpoint (p - 1) :=
    (single.value_nonneg _).trans_lt (single.value_lt_midpoint _)
  have hvalue : 0 < (single.shortest p).value :=
    hlow.trans_le (hnearest.lower.elim le_of_lt fun h => h.1.le)
  have hdigits : (single.shortest p).digits ≠ 0 := by
    intro hzero
    rw [Decimal.value, hzero, Nat.cast_zero, zero_mul] at hvalue
    exact lt_irrefl _ hvalue
  obtain ⟨hsame, hpositive, hexponent⟩ := Decimal.trimZeros_spec hdigits
  rw [written, hsame]
  refine ⟨hnearest, hpositive, ?_, ?_⟩
  · have hrange := (single_bounds hpos hp).1.trans_lt hlarge
    rw [zpow_lt_zpow_iff_right₀ (by norm_num)] at hrange
    omega
  · have hone : (1 : ℚ) ≤ (single.shortest p).trimZeros.digits := by exact_mod_cast hpositive
    have hbound : (10 : ℚ) ^ (single.shortest p).trimZeros.exponent ≤ 10 ^ (128 : Int) := by
      calc (10 : ℚ) ^ (single.shortest p).trimZeros.exponent
          ≤ (single.shortest p).trimZeros.digits * 10 ^ (single.shortest p).trimZeros.exponent :=
            le_mul_of_one_le_left (by positivity) hone
        _ = (single.shortest p).value := hsame
        _ ≤ single.midpoint p := hnearest.upper.elim le_of_lt fun h => h.1.le
        _ ≤ 10 ^ (128 : Int) := (single_bounds hpos hp).2
    rw [zpow_le_zpow_iff_right₀ (by norm_num)] at hbound
    omega

/-- What is written of a single is read as the double that is nearest to the decimal. -/
theorem decimalOf?_render (style : Notation) (hpos : 0 < p) (hp : p < single.infinite) :
    decimalOf? (style.render (written p)).toList =
      some (nearest double (written p).digits (written p).exponent) := by
  obtain ⟨-, hdigits, hlow, hhigh⟩ := written_spec hpos hp
  obtain ⟨-, d, e, hread, hd, hvalue, he⟩ := says_render style hdigits
  rw [hread]
  refine congrArg some (nearest_congr hd hdigits ?_ ⟨hlow, hhigh⟩ hvalue)
  rcases he with rfl | rfl
  · exact ⟨by decide, by decide⟩
  · exact ⟨hlow, hhigh⟩

/-! ## Real numbers -/

/-- Infinities and the undefined number have a point in place of the first digit. -/
theorem not_mem_names {s : String} (hplain : ∀ t, s.toList ≠ '.' :: t)
    (hsigned : ∀ t, s.toList ≠ '-' :: '.' :: t) :
    s ∉ [".inf", ".Inf", ".INF"] ∧ s ∉ ["-.inf", "-.Inf", "-.INF"] ∧
      s ∉ [".nan", ".NaN", ".NAN"] := by
  simp only [List.mem_cons, List.not_mem_nil, or_false]
  refine ⟨?_, ?_, ?_⟩
  · rintro (rfl | rfl | rfl) <;> exact hplain _ rfl
  · rintro (rfl | rfl | rfl) <;> exact hsigned _ rfl
  · rintro (rfl | rfl | rfl) <;> exact hplain _ rfl

/-- A sign and characters that begin with a digit. -/
theorem realOf?_signed (negative : Bool) {cs : List Char} {q : Nat}
    (hcs : ∃ c r, cs = c :: r ∧ c.isDigit = true) (hread : decimalOf? cs = some q)
    (hq : q < double.infinite) :
    realOf? ((if negative then "-" else "") ++ String.ofList cs) = some ⟨negative, q⟩ := by
  obtain ⟨c, r, rfl, hc⟩ := hcs
  have hlist : ((if negative then "-" else "") ++ String.ofList (c :: r)).toList =
      if negative then '-' :: c :: r else c :: r := by
    cases negative <;> simp
  generalize (if negative then "-" else "") ++ String.ofList (c :: r) = s at hlist
  have hplus : ¬ s.toList.head? = some '+' := by
    rw [hlist]
    cases negative with
    | false => simpa using Json.ne_of_isDigit hc '+'
    | true => simp
  have hsign : s.toList.head? = some '-' ↔ negative = true := by
    rw [hlist]
    cases negative with
    | false => simpa using Json.ne_of_isDigit hc '-'
    | true => simp
  have hpoint := Json.ne_of_isDigit hc '.'
  obtain ⟨hinfinite, hnegative, hundefined⟩ : s ∉ [".inf", ".Inf", ".INF"] ∧
      s ∉ ["-.inf", "-.Inf", "-.INF"] ∧ s ∉ [".nan", ".NaN", ".NAN"] := by
    refine not_mem_names (fun t => ?_) fun t => ?_
    · rw [hlist]
      cases negative <;> simp [hpoint]
    · rw [hlist]
      cases negative <;> simp [hpoint, Json.ne_of_isDigit hc '-']
  have hbody : (if negative then s.toList.drop 1 else s.toList) = c :: r := by
    rw [hlist]
    cases negative <;> rfl
  unfold realOf?
  dsimp only
  rw [if_neg hplus, decide_eq_false hplus, Bool.false_and, if_neg Bool.false_ne_true,
    if_neg hinfinite, if_neg hnegative, if_neg hundefined]
  simp only [hsign, Bool.decide_coe, hbody, hread]
  exact if_pos hq

/-- What becomes of a single that is written and read. -/
structure Reread (x y : Binary single) : Prop where
  sign : y.negative = x.negative
  same : y = x ↔ ¬ Astray x.pattern (reread x.pattern)
  above : x.pattern % 2 = 1 → reread x.pattern = single.midpoint x.pattern →
    y.pattern = x.pattern + 1
  below : x.pattern % 2 = 1 → reread x.pattern = single.midpoint (x.pattern - 1) →
    y.pattern = x.pattern - 1

theorem Reread.of_even {x : Binary single} (h : x.pattern % 2 = 0) : Reread x x where
  sign := rfl
  same := iff_of_true rfl fun hastray => by
    have hodd := hastray.odd
    omega
  above hodd := by omega
  below hodd := by omega

theorem convert_of_finite (negative : Bool) {q : Nat} (hq : q < double.infinite) :
    (⟨negative, q⟩ : Binary double).convert single =
      ⟨negative, single.round (double.ratio q).1 (double.ratio q).2⟩ := by
  have hnan : ¬ (⟨negative, q⟩ : Binary double).isNan = true := by
    simpa [Binary.isNan] using hq.le
  have hfinite : (⟨negative, q⟩ : Binary double).isFinite = true := by
    simpa [Binary.isFinite] using hq
  unfold Binary.convert
  rw [if_neg hnan, if_pos hfinite]

theorem text_ofSingle {x : Binary single} (hpos : 0 < x.pattern) (hp : x.isFinite = true) :
    ∃ style : Notation, Node.ofSingle x = .scalar { text :=
      (if x.negative then "-" else "") ++ style.render (written x.pattern) } := by
  have hnan : ¬ x.isNan = true := by
    simp only [Binary.isNan, Binary.isFinite, decide_eq_true_eq] at hp ⊢
    omega
  refine ⟨{ low := -6, high := 13, plus := false }, ?_⟩
  rw [Node.ofSingle, if_neg hnan, if_pos hp, Notation.write, if_neg hpos.ne', written]

/-- A single that is written is read as itself, unless its decimal is read as a double half way to
a neighbour. -/
theorem asSingle?_ofSingle {x : Binary single} (h : x.isNan = false) :
    ∃ y, (Node.ofSingle x).asSingle? = some y ∧ Reread x y := by
  obtain ⟨negative, p⟩ := x
  have hle : p ≤ single.infinite := by
    simpa [Binary.isNan] using h
  rcases hle.eq_or_lt with rfl | hfinite
  · have heven : single.infinite % 2 = 0 := by decide
    refine ⟨⟨negative, single.infinite⟩, ?_, .of_even heven⟩
    cases negative <;> decide
  rcases Nat.eq_zero_or_pos p with rfl | hpos
  · refine ⟨⟨negative, 0⟩, ?_, .of_even rfl⟩
    cases negative <;> decide
  obtain ⟨style, hnode⟩ := text_ofSingle (x := ⟨negative, p⟩) hpos (decide_eq_true hfinite)
  obtain ⟨hnearest, hdigits, hlow, hhigh⟩ := written_spec hpos hfinite
  obtain ⟨hbegins, -⟩ := says_render style hdigits
  have hvalue := scaleTen_eq (written p).digits 1 (written p).exponent
  have hden : 0 < (scaleTen (written p).digits 1 (written p).exponent).2 :=
    scaleTen_den_pos Nat.one_pos _
  have hround := nearest_eq double hdigits hlow hhigh
  have hread := decimalOf?_render style hpos hfinite
  generalize scaleTen (written p).digits 1 (written p).exponent = ratio at hvalue hden hround
  rw [Nat.cast_one, div_one] at hvalue
  rw [Decimal.value, ← hvalue] at hnearest
  obtain ⟨hq, hsame, habove, hbelow⟩ := narrow_spec hden hpos hfinite hnearest
  have hdouble : reread p = double.value (double.round ratio.1 ratio.2) := by
    rw [reread, hround]
  rw [hround] at hread
  refine ⟨⟨negative, narrow ratio.1 ratio.2⟩, ?_, rfl, ?_, ?_, ?_⟩
  · have hreal := realOf?_signed negative hbegins hread hq
    rw [String.ofList_toList] at hreal
    rw [hnode]
    simp only [Node.asSingle?, Scalar.numeral?, Option.pure_def, Option.bind_eq_bind,
      Option.bind_some, hreal, convert_of_finite negative hq]
    rfl
  · dsimp only
    rw [hdouble, ← hsame, Binary.mk.injEq]
    exact and_iff_right rfl
  · dsimp only
    rw [hdouble]
    exact habove
  · dsimp only
    rw [hdouble]
    exact hbelow

end

end Yaml

end Scriptorium
