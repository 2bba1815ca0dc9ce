import Mathlib.Logic.Function.Basic
import Std.Data.String.ToNat
import Scriptorium.Archive.Artifact
import Scriptorium.Archive.Name
import Scriptorium.Archive.Path
import Scriptorium.Proofs.Text.Content

/-! # Names of files

The numbered forms of a name are pairwise different, keep its extension, and are names again: not
empty, without a slash, and no dots that lead to a directory. A path extended by a name has that name
as its last part.
-/

namespace Scriptorium.Archive

/-! ## Safe names -/

theorem isSafe_of_mem_sanitize {name : String} {c : Char} (h : c ∈ (sanitize name).toList) :
    isSafe c = true := by
  unfold sanitize sanitizeChars at h
  dsimp only at h
  split at h
  · simp only [String.toList_ofList, List.mem_singleton] at h
    subst h
    decide
  · simp only [String.toList_ofList, List.mem_map] at h
    obtain ⟨d, -, rfl⟩ := h
    split
    · assumption
    · decide

theorem slash_notMem_sanitize (name : String) : '/' ∉ (sanitize name).toList := fun h =>
  absurd (isSafe_of_mem_sanitize h) (by decide)

/-! ## Numbered names -/

theorem splitExtension_subset (cs : List Char) :
    (splitExtension cs).1 ⊆ cs ∧ ∀ c ∈ (splitExtension cs).2, c = '.' ∨ c ∈ cs := by
  unfold splitExtension
  dsimp only
  split
  · refine ⟨List.take_subset _ _, fun c hc => ?_⟩
    rcases List.mem_cons.mp hc with hdot | hc
    · exact .inl hdot
    · exact .inr (List.mem_reverse.mp ((List.takeWhile_subset _) (List.mem_reverse.mp hc)))
  · exact ⟨List.Subset.refl _, fun c hc => absurd hc List.not_mem_nil⟩

/-- Numbering a name puts digits, an underscore and at most a dot into it. -/
theorem mem_versioned {name : String} {n : Nat} {c : Char} (h : c ∈ (versioned name n).toList) :
    c ∈ name.toList ∨ c.isDigit = true ∨ c = '_' ∨ c = '.' := by
  obtain ⟨hstem, hextension⟩ := splitExtension_subset name.toList
  unfold versioned at h
  split at h
  · exact .inl h
  · simp only [String.toList_append, String.toList_ofList, List.mem_append] at h
    rcases h with ((hmem | hmem) | hmem) | hmem
    · exact .inl (hstem hmem)
    · exact .inr (.inr (.inl (List.mem_singleton.mp hmem)))
    · rw [Nat.toString_eq_repr, Nat.toList_repr] at hmem
      exact .inr (.inl (Nat.isDigit_of_mem_toDigits (by decide) (by decide) hmem))
    · rcases hextension c hmem with hdot | hmem
      · exact .inr (.inr (.inr hdot))
      · exact .inl hmem

/-- Numbering a name puts no slash into it. -/
theorem slash_notMem_versioned {name : String} (h : '/' ∉ name.toList) (n : Nat) :
    '/' ∉ (versioned name n).toList := fun hmem =>
  (mem_versioned hmem).elim h (by decide)

/-- A name with a dot after its front and none after that. -/
theorem splitExtension_of_dot {stem tail : List Char} (hstem : stem ≠ []) (htail : '.' ∉ tail) :
    splitExtension (stem ++ '.' :: tail) = (stem, '.' :: tail) := by
  have htaken : ((stem ++ '.' :: tail).reverse.takeWhile (· ≠ '.')).reverse = tail := by
    have hall : ∀ c ∈ tail.reverse, decide (c ≠ '.') = true := by
      intro c hc
      exact decide_eq_true fun heq => htail (heq ▸ List.mem_reverse.mp hc)
    rw [List.reverse_append, List.reverse_cons, List.append_assoc,
      List.takeWhile_append_of_pos hall]
    simp
  unfold splitExtension
  dsimp only
  rw [htaken]
  have htake : (stem ++ '.' :: tail).take ((stem ++ '.' :: tail).length - tail.length - 1) = stem := by
    have hlength : (stem ++ '.' :: tail).length - tail.length - 1 = stem.length := by
      simp only [List.length_append, List.length_cons]
      omega
    rw [hlength, List.take_left]
  rw [htake, if_pos ⟨by simp only [List.length_append, List.length_cons]; omega, hstem⟩]

/-- A numbered form, as characters. -/
theorem versioned_toList (name : String) {n : Nat} (hn : n ≠ 0) :
    (versioned name n).toList = (splitExtension name.toList).1 ++ '_' :: (Nat.repr n).toList ++
      (splitExtension name.toList).2 := by
  simp [versioned, hn, Nat.toString_eq_repr]

theorem splitExtension_length (cs : List Char) :
    (splitExtension cs).1.length + (splitExtension cs).2.length = cs.length := by
  unfold splitExtension
  dsimp only
  split
  · rename_i h
    simp only [List.length_take, List.length_cons, List.length_reverse] at h ⊢
    omega
  · simp

/-- No two numbered forms of a name are the same. -/
theorem versioned_injective (name : String) : Function.Injective (versioned name) := by
  have hlonger {n : Nat} (hn : n ≠ 0) : versioned name n ≠ name := by
    intro heq
    have hlength := congrArg (fun s => s.toList.length) heq
    have hparts := splitExtension_length name.toList
    simp only [versioned_toList name hn, List.length_append, List.length_cons] at hlength
    omega
  intro n m h
  by_cases hn : n = 0
  · subst hn
    by_cases hm : m = 0
    · exact hm.symm
    · exact absurd h.symm (hlonger hm)
  · by_cases hm : m = 0
    · subst hm
      exact absurd h (hlonger hn)
    · have hchars := congrArg String.toList h
      rw [versioned_toList name hn, versioned_toList name hm] at hchars
      have hnumber : (Nat.repr n).toList = (Nat.repr m).toList :=
        (List.cons.inj (List.append_cancel_left (List.append_cancel_right hchars))).2
      exact Nat.repr_injective (String.toList_inj.mp hnumber)

/-- Numbering a name keeps its extension. -/
theorem hasExtension_versioned {extension name : String} (hdot : '.' ∉ extension.toList)
    (h : hasExtension extension name = true) (n : Nat) :
    hasExtension extension (versioned name n) = true := by
  by_cases hn : n = 0
  · subst hn
    exact h
  · have htail : (splitExtension name.toList).2 = '.' :: extension.toList := beq_iff_eq.mp h
    have hsplit := versioned_toList name hn
    rw [htail] at hsplit
    unfold hasExtension
    rw [hsplit, splitExtension_of_dot (by simp) hdot]
    exact beq_self_eq_true _

/-! ## Names in directories -/

/-- A text that can be the name of a file in a directory. -/
structure IsName (s : String) : Prop where
  flat : '/' ∉ s.toList
  nonempty : s ≠ ""
  here : s ≠ "."
  above : s ≠ ".."

theorem IsName.versioned {name : String} (h : IsName name) (n : Nat) :
    IsName (versioned name n) := by
  by_cases hn : n = 0
  · subst hn
    exact h
  · have hmem : '_' ∈ (Archive.versioned name n).toList := by
      rw [versioned_toList name hn]
      simp
    refine ⟨slash_notMem_versioned h.flat n, ?_, ?_, ?_⟩ <;>
      (intro heq; rw [heq] at hmem; exact absurd hmem (by decide))

theorem isName_sanitize (name : String) : IsName (sanitize name) := by
  have hchars : sanitizeChars name.toList ≠ [] ∧ sanitizeChars name.toList ≠ ['.'] ∧
      sanitizeChars name.toList ≠ ['.', '.'] := by
    unfold sanitizeChars
    dsimp only
    split
    · decide
    · rename_i h
      exact not_or.mp (by simpa only [not_or] using h) |>.imp_right not_or.mp
  have hlist {cs : List Char} (hne : sanitizeChars name.toList ≠ cs) :
      sanitize name ≠ String.ofList cs := fun heq => hne (String.ofList_inj.mp heq)
  exact ⟨slash_notMem_sanitize name, hlist hchars.1, hlist hchars.2.1, hlist hchars.2.2⟩

/-- A name with a suffix that is long enough. -/
theorem isName_append {front suffix : String} (hfront : '/' ∉ front.toList)
    (hsuffix : '/' ∉ suffix.toList) (hlength : 2 < suffix.length) : IsName (front ++ suffix) := by
  have hlong : 2 < (front ++ suffix).length := by
    rw [String.length_append]
    omega
  refine ⟨?_, ?_, ?_, ?_⟩
  · rw [String.toList_append, List.mem_append, not_or]
    exact ⟨hfront, hsuffix⟩
  all_goals
    intro heq
    rw [heq] at hlong
    exact absurd hlong (by decide)

/-! ## Names of artifacts -/

theorem isDigit_of_mem_padded {width n : Nat} {c : Char}
    (h : c ∈ (Timestamp.padded width n).toList) : c.isDigit = true := by
  simp only [Timestamp.padded, String.toList_ofList, List.mem_append, List.mem_replicate] at h
  rcases h with ⟨-, rfl⟩ | h
  · decide
  · exact Nat.isDigit_of_mem_toDigits (by decide) (by decide) h

/-- A slug shows digits and underscores, and a sign before a year outside four digits. -/
theorem mem_slug {t : Timestamp} {c : Char} (h : c ∈ t.slug.toList) :
    c.isDigit = true ∨ c = '_' ∨ c = '-' ∨ c = '+' := by
  have hyear {y : Int} (h : c ∈ (Timestamp.yearText y).toList) :
      c.isDigit = true ∨ c = '_' ∨ c = '-' ∨ c = '+' := by
    unfold Timestamp.yearText at h
    split at h
    · exact .inl (isDigit_of_mem_padded h)
    · split at h <;> rw [String.toList_append, List.mem_append] at h
      · exact h.elim (fun h => .inr (.inr (.inl (List.mem_singleton.mp h))))
          fun h => .inl (isDigit_of_mem_padded h)
      · exact h.elim (fun h => .inr (.inr (.inr (List.mem_singleton.mp h))))
          fun h => .inl (isDigit_of_mem_padded h)
  have hmark (h : c ∈ "_".toList) : c.isDigit = true ∨ c = '_' ∨ c = '-' ∨ c = '+' :=
    .inr (.inl (List.mem_singleton.mp h))
  simp only [Timestamp.slug, String.toList_append, List.mem_append] at h
  rcases h with (((((((h | h) | h) | h) | h) | h) | h) | h) | h
  · exact hyear h
  · exact .inl (isDigit_of_mem_padded h)
  · exact .inl (isDigit_of_mem_padded h)
  · exact hmark h
  · exact .inl (isDigit_of_mem_padded h)
  · exact .inl (isDigit_of_mem_padded h)
  · exact .inl (isDigit_of_mem_padded h)
  · exact hmark h
  · exact .inl (isDigit_of_mem_padded h)

theorem slash_notMem_slug (t : Timestamp) : '/' ∉ t.slug.toList := fun h =>
  absurd (mem_slug h) (by decide)

theorem isName_checkpoint (c : Checkpoint) : IsName c.fileName :=
  isName_append (by simp [slash_notMem_slug, slash_notMem_sanitize]) (by decide) (by decide)

theorem isName_snapshot (n : Snapshot) : IsName n.fileName :=
  isName_append (by simp [slash_notMem_slug, slash_notMem_sanitize]) (by decide) (by decide)

theorem Drawing.isName_source (d : Drawing) : IsName d.sourceName :=
  isName_append (by simp [slash_notMem_slug]) (by decide) (by decide)

theorem Drawing.isName_description (d : Drawing) : IsName d.descriptionName :=
  isName_append (by simp [slash_notMem_slug]) (by decide) (by decide)

theorem Drawing.isName_fragments (d : Drawing) : IsName d.fragmentsName :=
  isName_append (by simp [slash_notMem_slug]) (by decide) (by decide)

namespace Path

theorem parts_of_isName {name : String} (h : IsName name) : parts name = [name] := by
  unfold parts
  rw [Text.splitAtChar_of_not_mem h.flat]
  simp [h.nonempty]

theorem parts_append_slash (a b : String) : parts (a ++ "/" ++ b) = parts a ++ parts b := by
  have hsplit : (a ++ "/" ++ b).toList = a.toList ++ '/' :: b.toList := by simp
  unfold parts
  rw [hsplit, Text.splitAtChar_append, List.map_append, List.filter_append]

theorem isAbsolute_of_isName {name : String} (h : IsName name) : isAbsolute name = false := by
  unfold isAbsolute
  cases hchars : name.toList with
  | nil => rfl
  | cons c cs =>
      have hc : c ≠ '/' := fun heq => h.flat (hchars ▸ heq ▸ List.mem_cons_self)
      simp [hc]

def lead (dir : String) : String :=
  if dir = "" then "" else if dir.toList.getLast? = some '/' then dir else dir ++ "/"

theorem join_eq {path : String} (h : isAbsolute path = false) (dir : String) :
    join dir path = lead dir ++ path := by
  unfold join lead
  by_cases hdir : dir = ""
  · simp [hdir]
  · rw [if_neg (by simp [h, hdir]), if_neg hdir]
    split <;> rfl

theorem parts_lead (dir path : String) : parts (lead dir ++ path) = parts dir ++ parts path := by
  unfold lead
  split
  · rename_i hdir
    rw [hdir, String.empty_append]
    rfl
  · split
    · rename_i hlast
      obtain ⟨front, hfront⟩ : ∃ front, dir = front ++ "/" := by
        obtain ⟨cs, hcs⟩ := List.getLast?_eq_some_iff.mp hlast
        exact ⟨String.ofList cs, String.toList_inj.mp (by simp [hcs])⟩
      have hempty : dir = front ++ "/" ++ "" := by rw [hfront, String.append_empty]
      have hdirParts : parts dir = parts front := by
        rw [hempty, parts_append_slash]
        exact List.append_nil _
      rw [hdirParts, hfront, parts_append_slash]
    · exact parts_append_slash dir path

/-- A path extended by a name has that name as its last part. -/
theorem parts_join {name : String} (h : IsName name) (dir : String) :
    parts (join dir name) = parts dir ++ [name] := by
  rw [join_eq (isAbsolute_of_isName h), parts_lead, parts_of_isName h]

theorem join_injective {a b dir : String} (ha : isAbsolute a = false) (hb : isAbsolute b = false)
    (h : join dir a = join dir b) : a = b := by
  rw [join_eq ha, join_eq hb] at h
  have hchars := congrArg String.toList h
  simp only [String.toList_append] at hchars
  exact String.toList_inj.mp (List.append_cancel_left hchars)

/-- A path that neither starts at the top nor ends in a slash. -/
structure Inner (path : String) : Prop where
  relative : isAbsolute path = false
  nonempty : path ≠ ""
  ending : path.toList.getLast? ≠ some '/'

theorem inner_of_isName {name : String} (h : IsName name) : Inner name :=
  ⟨isAbsolute_of_isName h, h.nonempty, fun hlast => h.flat (List.mem_of_getLast? hlast)⟩

theorem Inner.append {front back : String} (hfront : Inner front) (hback : Inner back) :
    Inner (front ++ "/" ++ back) := by
  obtain ⟨c, cs, hchars⟩ := List.exists_cons_of_ne_nil (mt String.toList_eq_nil_iff.mp hfront.nonempty)
  have hlast : back.toList ≠ [] := mt String.toList_eq_nil_iff.mp hback.nonempty
  refine ⟨?_, by simp, ?_⟩
  · have hrelative := hfront.relative
    unfold isAbsolute at hrelative ⊢
    simpa [hchars] using hrelative
  · rw [String.toList_append, List.getLast?_append_of_ne_nil _ hlast]
    exact hback.ending

/-- Extending by a path and then by a name is extending by both at once. -/
theorem join_join {path name : String} (h : Inner path) (hname : IsName name) (dir : String) :
    join (join dir path) name = join dir (path ++ "/" ++ name) := by
  have hpath : path.toList ≠ [] := mt String.toList_eq_nil_iff.mp h.nonempty
  have hlead : lead (lead dir ++ path) = lead dir ++ path ++ "/" := by
    rw [lead, if_neg (by simp [h.nonempty]), if_neg]
    rw [String.toList_append, List.getLast?_append_of_ne_nil _ hpath]
    exact h.ending
  rw [join_eq h.relative, join_eq (isAbsolute_of_isName hname), hlead,
    join_eq (h.append (inner_of_isName hname)).relative]
  simp only [String.append_assoc]

end Path

end Scriptorium.Archive
