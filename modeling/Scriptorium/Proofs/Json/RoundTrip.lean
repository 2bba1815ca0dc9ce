import Mathlib.Tactic.SplitIfs
import Scriptorium.Json.Printer
import Scriptorium.Proofs.Json.Front
import Scriptorium.Proofs.Json.Record

/-! # What is written is read

A value whose numbers are natural numbers of 64 bits and whose containers are not nested too deep is
read back from its pretty form; and no form of an object is read from less than all of it.
-/

namespace Scriptorium.Json

/-! ## Texts -/

theorem readEscape_control {n : Nat} (h : n < 32) (rest : List Char) :
    readEscape ('u' :: '0' :: '0' :: hexDigit (n / 16) :: hexDigit (n % 16) :: rest) =
      some (Char.ofNat n, rest) := by
  have hall : ∀ n < 32, hexQuad ['0', '0', hexDigit (n / 16), hexDigit (n % 16)] = some (n, []) := by
    decide
  have hquad : hexQuad ('0' :: '0' :: hexDigit (n / 16) :: hexDigit (n % 16) :: rest) =
      some (n, rest) := by
    rw [hexQuad_eq, hall n h]
    rfl
  have hlow : ¬ (0xDC00 ≤ n ∧ n < 0xE000) := by omega
  have hhigh : ¬ (0xD800 ≤ n ∧ n < 0xDC00) := by omega
  simp only [readEscape, hquad, bind, Option.bind, if_neg hlow, if_neg hhigh]

/-- A character is read back from its escaped form. -/
theorem readString_escapeChar (c : Char) (fuel : Nat) (rest : List Char) :
    readString (fuel + 1) (escapeChar c ++ rest) =
      (readString fuel rest).map fun p => (c :: p.1, p.2) := by
  have hescape {d : Char} {u : List Char} (h : readEscape (u ++ rest) = some (d, rest)) :
      readString (fuel + 1) ('\\' :: u ++ rest) =
        (readString fuel rest).map fun p => (d :: p.1, p.2) := by
    have hquote : ¬ '\\' = '"' := by decide
    simp only [List.cons_append, readString, if_neg hquote, if_true, h, bind, Option.bind]
    cases readString fuel rest <;> rfl
  unfold escapeChar
  split_ifs with hquote hslash hline hreturn htab hback hform hcontrol
  · subst hquote
    exact hescape rfl
  · subst hslash
    exact hescape rfl
  · subst hline
    exact hescape rfl
  · subst hreturn
    exact hescape rfl
  · subst htab
    exact hescape rfl
  · subst hback
    exact hescape rfl
  · subst hform
    exact hescape rfl
  · have hread := readEscape_control hcontrol rest
    rw [Char.ofNat_toNat] at hread
    exact hescape hread
  · simp only [List.cons_append, List.nil_append, readString, if_neg hquote, if_neg hslash,
      if_neg hcontrol, bind, Option.bind]
    cases readString fuel rest <;> rfl

theorem readString_quote (s rest : List Char) {fuel : Nat}
    (h : (s.flatMap escapeChar).length < fuel) :
    readString fuel (s.flatMap escapeChar ++ '"' :: rest) = some (s, rest) := by
  have hlength (c : Char) : 0 < (escapeChar c).length := by
    unfold escapeChar
    split_ifs <;> simp
  induction s generalizing fuel with
  | nil =>
      obtain ⟨fuel, rfl⟩ : ∃ f, fuel = f + 1 := ⟨fuel - 1, by omega⟩
      rfl
  | cons c s ih =>
      rw [List.flatMap_cons, List.length_append] at h
      obtain ⟨fuel, rfl⟩ : ∃ f, fuel = f + 1 := ⟨fuel - 1, by omega⟩
      have hc := hlength c
      rw [List.flatMap_cons, List.append_assoc, readString_escapeChar, ih (by omega)]
      rfl

/-! ## Natural numbers -/

/-- What may follow a number: nothing that would belong to it. -/
def Follows (rest : List Char) : Prop :=
  ∀ c ∈ rest.head?, c.isDigit = false ∧ c ≠ '.' ∧ c ≠ 'e' ∧ c ≠ 'E'

theorem takeDigits_eq (ds : List Char) {rest : List Char} (hrest : Follows rest)
    (hdigits : ∀ c ∈ ds, c.isDigit = true) (acc count : Nat)
    (hfits : Nat.ofDigitChars 10 ds acc ≤ wordMax) :
    takeDigits acc count (ds ++ rest) = (Nat.ofDigitChars 10 ds acc, count + ds.length, rest) := by
  have hgrows (ds : List Char) (acc : Nat) : acc ≤ Nat.ofDigitChars 10 ds acc := by
    induction ds generalizing acc with
    | nil => simp
    | cons c ds ih =>
        rw [Nat.ofDigitChars_cons]
        exact Nat.le_trans (by omega) (ih _)
  induction ds generalizing acc count with
  | nil =>
      rw [List.nil_append, Nat.ofDigitChars_nil]
      cases rest with
      | nil => rfl
      | cons c rest =>
          have hc := (hrest c rfl).1
          simp [takeDigits, hc]
  | cons c ds ih =>
      rw [Nat.ofDigitChars_cons] at hfits ⊢
      have hvalue : acc * 10 + digitValue c = 10 * acc + (c.toNat - '0'.toNat) := by
        rw [digitValue, Nat.mul_comm]
      have hsmall : acc * 10 + digitValue c ≤ wordMax := by
        rw [hvalue]
        exact Nat.le_trans (hgrows ds _) hfits
      have hc := hdigits c List.mem_cons_self
      have hrest := ih (fun d hd => hdigits d (List.mem_cons_of_mem _ hd))
        (acc * 10 + digitValue c) (count + 1) (by rwa [hvalue])
      rw [List.cons_append, takeDigits, if_pos (by simp [hc, hsmall]), hrest, hvalue]
      simp only [List.length_cons]
      congr 2
      omega

/-- A number starts with a digit. -/
theorem toDigits_cons (n : Nat) : ∃ c ds, Nat.toDigits 10 n = c :: ds ∧ c.isDigit = true := by
  obtain ⟨c, ds, hds⟩ := List.exists_cons_of_ne_nil (Nat.toDigits_ne_nil (n := n) (b := 10))
  exact ⟨c, ds, hds, Nat.isDigit_of_mem_toDigits (by decide) (by decide)
    (hds ▸ List.mem_cons_self)⟩

/-- The digits of a number other than zero do not start with a zero. -/
theorem toDigits_head {n : Nat} (hn : n ≠ 0) :
    ∃ c ds, Nat.toDigits 10 n = c :: ds ∧ c ≠ '0' := by
  have hsmall : ∀ n < 10, n ≠ 0 → Nat.digitChar n ≠ '0' := by decide
  induction n using Nat.strongRecOn with
  | _ n ih =>
  rw [Nat.toDigits_eq_if (by decide)]
  split
  · rename_i hlt
    exact ⟨_, [], rfl, hsmall n hlt hn⟩
  · obtain ⟨c, ds, hds, hc⟩ := ih (n / 10) (by omega) (by omega)
    exact ⟨c, ds ++ [Nat.digitChar (n % 10)], by rw [hds]; rfl, hc⟩

theorem dropDigits_eq {rest : List Char} (hrest : Follows rest) (count : Nat) :
    dropDigits count rest = (count, rest) := by
  cases rest with
  | nil => rfl
  | cons c rest => simp [dropDigits, (hrest c rfl).1]

theorem readAfter_eq {n : Nat} {rest : List Char} (hrest : Follows rest) :
    readAfter false n 0 rest = some (.natural n, rest) := by
  cases rest with
  | nil => rfl
  | cons c rest =>
      obtain ⟨-, hpoint, hsmall, hlarge⟩ := hrest c rfl
      rw [readAfter]
      · simp [hsmall, hlarge, integer]
      · exact hpoint

theorem readNumber_toDigits {n : Nat} (hn : n ≤ wordMax) {rest : List Char} (hrest : Follows rest) :
    readNumber false (Nat.toDigits 10 n ++ rest) = some (.natural n, rest) := by
  by_cases hzero : n = 0
  · subst hzero
    have hnext : ¬ rest.head?.any Char.isDigit = true := by
      cases rest with
      | nil => simp
      | cons c rest => simp [(hrest c rfl).1]
    change readNumber false ('0' :: rest) = _
    have hdigit : ('0' : Char).isDigit = true := by decide
    simp only [readNumber, hdigit, Bool.not_true, Bool.false_eq_true, if_false, if_true,
      if_neg hnext]
    exact readAfter_eq hrest
  · obtain ⟨c, ds, hds, hc⟩ := toDigits_head hzero
    have hdigits : ∀ d ∈ Nat.toDigits 10 n, d.isDigit = true := fun d hd =>
      Nat.isDigit_of_mem_toDigits (by decide) (by decide) hd
    have htaken := takeDigits_eq (Nat.toDigits 10 n) hrest hdigits 0 0
      (by rwa [Nat.ofDigitChars_ten_toDigits])
    rw [Nat.ofDigitChars_ten_toDigits] at htaken
    have hdigit : c.isDigit = true := hdigits c (by rw [hds]; exact List.mem_cons_self)
    rw [hds, List.cons_append] at htaken ⊢
    simp only [readNumber, hdigit, Bool.not_true, Bool.false_eq_true, if_false, if_neg hc, htaken,
      dropDigits_eq hrest]
    exact readAfter_eq hrest

/-! ## Values -/

mutual
/-- A value that can be read back, given the room for containers. -/
def Fits (room : Nat) : Json → Prop
  | .null => True
  | .bool _ => True
  | .num (.natural n) => n ≤ wordMax
  | .num _ => False
  | .str _ => True
  | .arr l => 1 < room ∧ FitsItems (room - 1) l
  | .obj ms => 1 < room ∧ FitsMembers (room - 1) ms

def FitsItems (room : Nat) : List Json → Prop
  | [] => True
  | v :: r => Fits room v ∧ FitsItems room r

def FitsMembers (room : Nat) : List (String × Json) → Prop
  | [] => True
  | (_, v) :: r => Fits room v ∧ FitsMembers room r
end

theorem follows_newline (depth : Nat) (rest : List Char) : Follows (newline depth ++ rest) := by
  intro c hc
  obtain rfl : '\n' = c := Option.some.inj hc
  decide

theorem follows_prettyItems (depth : Nat) (l : List Json) (rest : List Char) :
    Follows (prettyItems depth l ++ rest) := by
  cases l with
  | nil =>
      rw [prettyItems, List.append_assoc]
      exact follows_newline _ _
  | cons v r =>
      intro c hc
      obtain rfl : ',' = c := Option.some.inj hc
      decide

theorem follows_prettyMembers (depth : Nat) (l : List (String × Json)) (rest : List Char) :
    Follows (prettyMembers depth l ++ rest) := by
  cases l with
  | nil =>
      rw [prettyMembers, List.append_assoc]
      exact follows_newline _ _
  | cons m r =>
      intro c hc
      obtain rfl : ',' = c := Option.some.inj hc
      decide

theorem prettyChars_natural (depth n : Nat) :
    prettyChars depth (.num (.natural n)) = Nat.toDigits 10 n := by
  simp [prettyChars, numberText]

/-- How a value begins. -/
theorem prettyChars_head {room : Nat} {v : Json} (hfits : Fits room v) (depth : Nat) :
    ∃ c u, prettyChars depth v = c :: u ∧ isSpace c = false ∧ c ≠ ']' := by
  cases v with
  | null => exact ⟨'n', _, rfl, by decide, by decide⟩
  | bool b =>
      cases b
      · exact ⟨'f', _, rfl, by decide, by decide⟩
      · exact ⟨'t', _, rfl, by decide, by decide⟩
  | num n =>
      cases n with
      | natural n =>
          obtain ⟨c, u, hu, hc⟩ := toDigits_cons n
          have hspace : isSpace c = false := by
            simp [isSpace, ne_of_isDigit hc ' ', ne_of_isDigit hc '\n', ne_of_isDigit hc '\t',
              ne_of_isDigit hc '\r']
          exact ⟨c, u, (prettyChars_natural depth n).trans hu, hspace, ne_of_isDigit hc ']'⟩
      | negative n => exact hfits.elim
      | real x => exact hfits.elim
  | str s => exact ⟨'"', _, rfl, by decide, by decide⟩
  | arr l => cases l <;> exact ⟨'[', _, rfl, by decide, by decide⟩
  | obj ms => cases ms <;> exact ⟨'\x7b', _, rfl, by decide, by decide⟩

theorem skipSpace_newline (depth : Nat) {c : Char} (hc : isSpace c = false) (u : List Char) :
    skipSpace (newline depth ++ c :: u) = c :: u := by
  have hblanks : ∀ d ∈ newline depth, isSpace d = true := by
    intro d hd
    rcases List.mem_cons.mp hd with rfl | hd
    · rfl
    · rw [List.eq_of_mem_replicate hd]
      rfl
  rw [skipSpace, List.dropWhile_append_of_pos hblanks, List.dropWhile_cons_of_neg (by simp [hc])]

theorem readValue_natural {n : Nat} (hn : n ≤ wordMax) (fuel room : Nat) {cs rest : List Char}
    (hrest : Follows rest) (hcs : skipSpace cs = Nat.toDigits 10 n ++ rest) :
    readValue (fuel + 1) room cs = some (.num (.natural n), rest) := by
  obtain ⟨c, ds, hds, hc⟩ := toDigits_cons n
  have hread := readNumber_toDigits hn hrest
  rw [hds, List.cons_append] at hcs hread
  rw [readValue_eq_behind fuel room hcs, readBehind_digit hc, hread]
  rfl

theorem readValue_quote (s : String) (fuel room : Nat) {cs rest : List Char}
    (hcs : skipSpace cs = '"' :: (s.toList.flatMap escapeChar ++ '"' :: rest)) :
    readValue (fuel + 1) room cs = some (.str s, rest) := by
  have hlength : (s.toList.flatMap escapeChar).length <
      (s.toList.flatMap escapeChar ++ '"' :: rest).length + 1 := by
    rw [List.length_append]
    omega
  rw [readValue_eq_behind fuel room hcs, readBehind_quote, readString_quote s.toList rest hlength]
  simp

mutual
theorem readValue_pretty (v : Json) {room : Nat} (depth fuel : Nat) {cs rest : List Char}
    (hfits : Fits room v) (hrest : Follows rest)
    (hcs : skipSpace cs = prettyChars depth v ++ rest)
    (hfuel : (prettyChars depth v).length ≤ fuel) : readValue fuel room cs = some (v, rest) := by
  obtain ⟨c, u, hhead, -⟩ := prettyChars_head hfits depth
  obtain ⟨fuel, rfl⟩ : ∃ f, fuel = f + 1 := by
    rw [hhead] at hfuel
    exact ⟨fuel - 1, by simp only [List.length_cons] at hfuel; omega⟩
  cases v with
  | null =>
      rw [readValue_eq_behind fuel room hcs]
      rfl
  | bool b =>
      cases b <;>
      · rw [readValue_eq_behind fuel room hcs]
        rfl
  | num n =>
      cases n with
      | natural n =>
          rw [prettyChars_natural] at hcs
          exact readValue_natural hfits fuel room hrest hcs
      | negative n => exact hfits.elim
      | real x => exact hfits.elim
  | str s =>
      refine readValue_quote s fuel room (hcs.trans ?_)
      simp [prettyChars, quote]
  | arr l =>
      obtain ⟨hroom, hl⟩ := hfits
      cases l with
      | nil =>
          have hopen : skipSpace cs = '[' :: ']' :: rest := hcs
          have hclose : skipSpace (']' :: rest) = ']' :: rest := rfl
          rw [readValue_eq_behind fuel room hopen, readBehind_bracket,
            readContainer_empty hroom hclose]
      | cons v r =>
          obtain ⟨hv, hr⟩ := hl
          have hopen : skipSpace cs = '[' :: (newline (depth + 1) ++ prettyChars (depth + 1) v
              ++ prettyItems depth r ++ rest) := hcs
          have hread := readItems_pretty v r depth fuel rest hv hr (by
            simp only [prettyChars, newline, List.length_cons, List.length_append] at hfuel
            omega)
          have hfilled : (skipSpace (newline (depth + 1) ++ prettyChars (depth + 1) v
              ++ prettyItems depth r ++ rest)).head? ≠ some ']' := by
            obtain ⟨d, w, hw, hspace, hd⟩ := prettyChars_head hv (depth + 1)
            rw [hw, List.append_assoc, List.append_assoc, List.cons_append,
              skipSpace_newline _ hspace]
            simpa using hd
          rw [readValue_eq_behind fuel room hopen, readBehind_bracket,
            readContainer_filled hroom hfilled, hread]
          rfl
  | obj ms =>
      obtain ⟨hroom, hms⟩ := hfits
      cases ms with
      | nil =>
          have hopen : skipSpace cs = '\x7b' :: '\x7d' :: rest := hcs
          have hclose : skipSpace ('\x7d' :: rest) = '\x7d' :: rest := rfl
          rw [readValue_eq_behind fuel room hopen, readBehind_brace,
            readContainer_empty hroom hclose]
      | cons m r =>
          obtain ⟨k, v⟩ := m
          obtain ⟨hv, hr⟩ := hms
          have hopen : skipSpace cs = '\x7b' :: (newline (depth + 1) ++ quote k ++ ':' :: ' ' ::
              prettyChars (depth + 1) v ++ prettyMembers depth r ++ rest) := hcs
          have hread := readMembers_pretty k v r depth fuel rest hv hr (by
            simp only [prettyChars, newline, List.length_cons, List.length_append] at hfuel
            omega)
          have hfilled : (skipSpace (newline (depth + 1) ++ quote k ++ ':' :: ' ' ::
              prettyChars (depth + 1) v ++ prettyMembers depth r ++ rest)).head? ≠ some '\x7d' := by
            rw [quote, List.append_assoc, List.append_assoc, List.append_assoc, List.cons_append,
              skipSpace_newline _ (by decide)]
            simp
          rw [readValue_eq_behind fuel room hopen, readBehind_brace,
            readContainer_filled hroom hfilled, hread]
          rfl
termination_by fuel

theorem readItems_pretty (v : Json) (l : List Json) {room : Nat} (depth fuel : Nat)
    (rest : List Char) (hv : Fits room v) (hl : FitsItems room l)
    (hfuel : (prettyChars (depth + 1) v).length + (prettyItems depth l).length < fuel) :
    readItems fuel room (newline (depth + 1) ++ prettyChars (depth + 1) v ++ prettyItems depth l
      ++ rest) = some (v :: l, rest) := by
  obtain ⟨fuel, rfl⟩ : ∃ f, fuel = f + 1 := ⟨fuel - 1, by omega⟩
  obtain ⟨c, u, hu, hspace, -⟩ := prettyChars_head hv (depth + 1)
  have hfront : skipSpace (newline (depth + 1) ++ prettyChars (depth + 1) v
      ++ prettyItems depth l ++ rest) =
        prettyChars (depth + 1) v ++ (prettyItems depth l ++ rest) := by
    rw [hu, List.append_assoc, List.append_assoc, List.cons_append, skipSpace_newline _ hspace]
  have hread := readValue_pretty v (depth + 1) fuel hv (follows_prettyItems depth l rest) hfront
    (by omega)
  rw [readItems, hread]
  cases l with
  | nil =>
      dsimp only
      rw [prettyItems, List.append_assoc, List.singleton_append, skipSpace_newline _ (by decide)]
      rfl
  | cons w r =>
      obtain ⟨hw, hr⟩ := hl
      have hcomma : skipSpace (prettyItems depth (w :: r) ++ rest) = ',' :: (newline (depth + 1)
          ++ prettyChars (depth + 1) w ++ prettyItems depth r ++ rest) := rfl
      have hrest := readItems_pretty w r depth fuel rest hw hr (by
        simp only [prettyItems, newline, List.length_cons, List.length_append] at hfuel
        omega)
      simp only [hcomma, hrest]
      rfl
termination_by fuel

theorem readMembers_pretty (k : String) (v : Json) (l : List (String × Json)) {room : Nat}
    (depth fuel : Nat) (rest : List Char) (hv : Fits room v) (hl : FitsMembers room l)
    (hfuel : (prettyChars (depth + 1) v).length + (prettyMembers depth l).length < fuel) :
    readMembers fuel room (newline (depth + 1) ++ quote k ++ ':' :: ' ' ::
      prettyChars (depth + 1) v ++ prettyMembers depth l ++ rest) = some ((k, v) :: l, rest) := by
  obtain ⟨fuel, rfl⟩ : ∃ f, fuel = f + 1 := ⟨fuel - 1, by omega⟩
  obtain ⟨c, u, hu, hspace, -⟩ := prettyChars_head hv (depth + 1)
  have hkey : skipSpace (newline (depth + 1) ++ quote k ++ ':' :: ' ' ::
      prettyChars (depth + 1) v ++ prettyMembers depth l ++ rest) =
        '"' :: (k.toList.flatMap escapeChar ++ '"' :: (':' :: ' ' ::
          (prettyChars (depth + 1) v ++ (prettyMembers depth l ++ rest)))) := by
    rw [quote]
    simp only [List.append_assoc, List.cons_append, List.nil_append]
    exact skipSpace_newline _ (by decide) _
  have hlength : (k.toList.flatMap escapeChar).length <
      (k.toList.flatMap escapeChar ++ '"' :: (':' :: ' ' ::
        (prettyChars (depth + 1) v ++ (prettyMembers depth l ++ rest)))).length + 1 := by
    rw [List.length_append]
    omega
  have hstring := readString_quote k.toList (':' :: ' ' ::
    (prettyChars (depth + 1) v ++ (prettyMembers depth l ++ rest))) hlength
  have hcolon : skipSpace (':' :: ' ' ::
      (prettyChars (depth + 1) v ++ (prettyMembers depth l ++ rest))) =
        ':' :: ' ' :: (prettyChars (depth + 1) v ++ (prettyMembers depth l ++ rest)) := rfl
  have hfront : skipSpace (' ' :: (prettyChars (depth + 1) v ++ (prettyMembers depth l ++ rest))) =
      prettyChars (depth + 1) v ++ (prettyMembers depth l ++ rest) := by
    rw [hu, List.cons_append, skipSpace, List.dropWhile_cons_of_pos (by decide),
      List.dropWhile_cons_of_neg (by simp [hspace])]
  have hread := readValue_pretty v (depth + 1) fuel hv (follows_prettyMembers depth l rest) hfront
    (by omega)
  cases l with
  | nil =>
      have hclose : skipSpace (prettyMembers depth [] ++ rest) = '\x7d' :: rest := by
        rw [prettyMembers, List.append_assoc, List.singleton_append,
          skipSpace_newline _ (by decide)]
      rw [readMembers_last hkey hstring hcolon hread hclose, String.ofList_toList]
  | cons m r =>
      obtain ⟨k', w⟩ := m
      obtain ⟨hw, hr⟩ := hl
      have hcomma : skipSpace (prettyMembers depth ((k', w) :: r) ++ rest) = ',' ::
          (newline (depth + 1) ++ quote k' ++ ':' :: ' ' :: prettyChars (depth + 1) w
            ++ prettyMembers depth r ++ rest) := rfl
      have hrest := readMembers_pretty k' w r depth fuel rest hw hr (by
        simp only [prettyMembers, newline, List.length_cons, List.length_append] at hfuel
        omega)
      rw [readMembers_more hkey hstring hcolon hread hcomma, hrest, String.ofList_toList]
      rfl
termination_by fuel
end

/-! ## Whole texts -/

theorem readFront_pretty {v : Json} (hfits : Fits depthLimit v) :
    readFront (prettyChars 0 v) = some (v, []) := by
  obtain ⟨c, u, hu, hspace, -⟩ := prettyChars_head hfits 0
  have hfollows : Follows [] := fun c hc => nomatch hc
  have hfront : skipSpace (prettyChars 0 v) = prettyChars 0 v ++ [] := by
    rw [hu, List.append_nil, skipSpace, List.dropWhile_cons_of_neg (by simp [hspace])]
  exact readValue_pretty v 0 _ hfits hfollows hfront (by omega)

/-- What is written is read. -/
theorem parse?_pretty {v : Json} (hfits : Fits depthLimit v) : parse? (pretty v) = some v := by
  unfold parse? pretty
  rw [String.toList_ofList, readFront_pretty hfits]
  rfl

/-- Less than all of the pretty form of an object is no value. -/
theorem parse?_of_prefix {ms : List (String × Json)} (hfits : Fits depthLimit (.obj ms))
    {s : String} {x : List Char} (hsplit : s.toList ++ x = prettyChars 0 (.obj ms)) (hx : x ≠ []) :
    parse? s = none := by
  unfold parse?
  cases hread : readFront s.toList with
  | none => rfl
  | some p =>
      obtain ⟨w, r⟩ := p
      exfalso
      obtain ⟨u, hu⟩ : ∃ u, prettyChars 0 (.obj ms) = '\x7b' :: u := by
        cases ms <;> exact ⟨_, rfl⟩
      have hw : ¬ IsNumber w := by
        cases hs : s.toList with
        | nil =>
            rw [hs] at hread
            cases hread
        | cons c cs =>
            obtain rfl : c = '\x7b' := by
              rw [hs, hu] at hsplit
              exact (List.cons.inj hsplit).1
            have hopen : skipSpace ('\x7b' :: cs) = '\x7b' :: cs := rfl
            rw [hs, readFront, readValue_eq_behind _ _ hopen, readBehind_brace] at hread
            rintro ⟨n, rfl⟩
            obtain ⟨l, hl⟩ := eq_of_readContainer hread
            cases hl
      have hlonger := readFront_append hread (fun h => absurd h hw) x
      rw [hsplit, readFront_pretty hfits] at hlonger
      obtain ⟨-, hrest⟩ := Prod.mk.inj (Option.some.inj hlonger)
      exact hx (List.append_eq_nil_iff.mp hrest.symm).2

theorem fitsItems_iff {room : Nat} {l : List Json} :
    FitsItems room l ↔ ∀ v ∈ l, Fits room v := by
  induction l with
  | nil => simp [FitsItems]
  | cons v r ih => simp [FitsItems, ih]

theorem fitsMembers_iff {room : Nat} {ms : List (String × Json)} :
    FitsMembers room ms ↔ ∀ m ∈ ms, Fits room m.2 := by
  induction ms with
  | nil => simp [FitsMembers]
  | cons m r ih =>
      obtain ⟨k, v⟩ := m
      simp only [FitsMembers, ih, List.forall_mem_cons]

/-! ## Records -/

def members (fields : List (String × Option Json)) : List (String × Json) :=
  fields.filterMap fun f => f.2.map (f.1, ·)

def Slot.ofOption : Option Json → Slot
  | some v => .given v
  | none => .absent

/-- A record is read from its members field by field. -/
theorem slots_members (fields : List (String × Option Json))
    (hnodup : (fields.map Prod.fst).Nodup) :
    slots (fields.map fun f => [f.1]) (.obj (members fields)) =
      some (fields.map fun f => Slot.ofOption f.2) := by
  induction fields with
  | nil => exact slots_obj_nil _
  | cons f fields ih =>
      obtain ⟨k, value⟩ := f
      obtain ⟨hk, hrest⟩ := List.nodup_cons.mp hnodup
      have hkeys : ∀ m ∈ members fields, m.1 ∉ [k] := by
        intro m hm hmem
        obtain ⟨f, hf, hvalue⟩ := List.mem_filterMap.mp hm
        obtain ⟨v, -, rfl⟩ := Option.map_eq_some_iff.mp hvalue
        exact hk (List.mem_map.mpr ⟨f, hf, List.mem_singleton.mp hmem⟩)
      have hnone : (members fields).filter (·.1 ∈ [k]) = [] :=
        List.filter_eq_nil_iff.mpr fun m hm => by simpa using hkeys m hm
      have hall : (members fields).filter (·.1 ∉ [k]) = members fields :=
        List.filter_eq_self.mpr fun m hm => by simpa using hkeys m hm
      rw [List.map_cons, List.map_cons, slots_obj_cons]
      cases value with
      | none =>
          have hmembers : members ((k, none) :: fields) = members fields := rfl
          rw [hmembers, hnone, hall, ih hrest]
          rfl
      | some v =>
          have hmembers : members ((k, some v) :: fields) = (k, v) :: members fields := rfl
          rw [hmembers, List.filter_cons_of_pos (by simp), List.filter_cons_of_neg (by simp),
            hnone, hall, ih hrest]
          rfl

end Scriptorium.Json
