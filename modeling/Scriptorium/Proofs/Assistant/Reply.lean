import Scriptorium.Assistant.Reply
import Scriptorium.Proofs.Json.Object
import Scriptorium.Proofs.Text.Enclosed

/-! # Objects in replies

The object in a reply is the first object text in what is left of the reply without its fence. What
follows it can matter only by completing an object that begins before it. A reply with an object is
refused for the form of that object alone. What stands around an object without a brace before it
does not keep it from being found, but for a fence whose opening line it begins on.
-/

namespace Scriptorium

open Text Json

/-! ## Among other text -/

theorem Text.isBlank_of_isSpace {c : Char} (h : Json.isSpace c = true) : isBlank c = true := by
  simp only [Json.isSpace, Bool.or_eq_true, beq_iff_eq] at h
  obtain ((rfl | rfl) | rfl) | rfl := h <;> rfl

theorem Json.IsObject.solid {s : List Char} (h : IsObject s) : Solid s :=
  solid_of_braces h.1 h.getLast?

theorem Json.firstObject?_of_wrapped {t : String} (hwrapped : ∃ body, Wrapped body t.toList)
    (hbrace : '\x7b' ∉ (dropBlanks t.toList).dropWhile (· ≠ '\n')) : firstObject? t = none := by
  obtain ⟨body, h⟩ := hwrapped
  rw [firstObject?, Option.map_eq_none_iff, objectSlice?_eq_none_iff]
  rintro before after hsplit ⟨s, x, rfl, hs⟩
  obtain ⟨u, rfl⟩ := hs.eq_cons
  exact hbrace (h.mem_of_mem_unfenceChars (by rw [hsplit]; simp))

theorem Json.parse?_pair : ∃ ms, parse? "\x7b\"a\": 1\x7d" = some (.obj ms) := by
  have hslice : objectSlice? "\x7b\"a\": 1\x7d".toList = some "\x7b\"a\": 1\x7d".toList := by
    decide +kernel
  obtain ⟨ms, hobject⟩ := parse?_of_objectSlice? hslice
  rw [String.ofList_toList] at hobject
  exact ⟨ms, hobject⟩

/-- An object behind a text without a brace is found whatever follows it, unless a fence wraps the
whole and the object begins on the line of the opening fence. Of a text that is wrapped so, the
objects on that line are lost. -/
theorem Json.object_found_among {p j : String} (q : String) {ms : List (String × Json)}
    (hbrace : '\x7b' ∉ p.toList) (hobject : parse? j = some (.obj ms)) (hreturn : '\r' ∉ j.toList) :
    (¬ (OnFence ((p ++ j).toList.takeWhile (· ≠ '\x7b')) ∧
        ∃ body, Wrapped body (p ++ j ++ q).toList) →
      firstObject? (p ++ j ++ q) = some (trim j)) ∧
    ((∃ body, Wrapped body (p ++ j ++ q).toList) →
      '\x7b' ∉ (dropBlanks (p ++ j ++ q).toList).dropWhile (· ≠ '\n') →
        firstObject? (p ++ j ++ q) = none) := by
  refine ⟨fun hline => ?_, firstObject?_of_wrapped⟩
  obtain ⟨lead, s, trail, hj, hs, hlead, htrail⟩ := exists_object_of_parse? hobject
  obtain ⟨u, hu⟩ := hs.eq_cons
  have hfront : '\x7b' ∉ p.toList ++ lead := by
    intro hmem
    rcases List.mem_append.mp hmem with hp | hl
    · exact hbrace hp
    · exact absurd (hlead _ hl) (by decide)
  have htrim : trim j = String.ofList s := by
    rw [trim, hj, hs.solid.stripBlanks_between (fun c hc => isBlank_of_isSpace (hlead c hc))
      fun c hc => isBlank_of_isSpace (htrail c hc)]
  have htext : (p ++ j ++ q).toList = (p.toList ++ lead) ++ (s ++ (trail ++ q.toList)) := by
    simp [hj]
  have hbefore : (p ++ j).toList.takeWhile (· ≠ '\x7b') = p.toList ++ lead := by
    have hsplit : (p ++ j).toList = (p.toList ++ lead) ++ '\x7b' :: (u ++ trail) := by
      simp [hj, hu]
    rw [hsplit, List.takeWhile_append_of_pos (ne_of_not_mem hfront)]
    simp
  rw [hbefore, htext] at hline
  have hinner : '\r' ∉ s := fun hmem => hreturn (by simp [hj, hmem])
  obtain ⟨front, back, hunfenced, hnone⟩ :=
    unfenceChars_around hfront hs.1 hs.getLast? hinner hline
  rw [firstObject?, htext, hunfenced, objectSlice?_behind hnone hs, htrim, Option.map_some]

theorem Json.object_found_among_fences :
    firstObject? ("\x60\x60\x60json\n" ++ "\x7b\"a\": 1\x7d" ++ "\n\x60\x60\x60") =
        some "\x7b\"a\": 1\x7d" ∧
      firstObject? ("\x60\x60\x60 " ++ "\x7b\"a\": 1\x7d" ++ "\n\x60\x60\x60\n") = none := by
  obtain ⟨ms, hobject⟩ := parse?_pair
  have hwrapped : Wrapped []
      ("\x60\x60\x60 " ++ "\x7b\"a\": 1\x7d" ++ "\n\x60\x60\x60\n").toList :=
    @Wrapped.intro _ [] "\x60\x60\x60 \x7b\"a\": 1\x7d".toList _ "\x60\x60\x60".toList ['\n']
      (List.forall_mem_nil _) (by decide) (.feed (by decide) (by decide) .nil) (by decide)
      (by decide) (by decide) (List.all_eq_true.mp (by decide))
  refine ⟨(object_found_among _ (by decide) hobject (by decide)).1 ?_,
    (object_found_among _ (by decide) hobject (by decide)).2 ⟨[], hwrapped⟩ (by decide)⟩
  exact fun h => absurd h.1 (by decide)

/-- The object is lost where its first line is that of the fence. -/
theorem Json.object_lost_with_fence :
    '\x7b' ∉ "\x60\x60\x60json ".toList ∧
      (∃ ms, parse? "\x7b\"a\": 1\x7d" = some (.obj ms)) ∧
      '\r' ∉ "\x7b\"a\": 1\x7d".toList ∧
      firstObject? ("\x60\x60\x60json " ++ "\x7b\"a\": 1\x7d" ++ "\n\x60\x60\x60") = none := by
  exact ⟨by decide, parse?_pair, by decide, by decide +kernel⟩

/-! ## Decoding -/

namespace Assistant

theorem firstObject?_eq_some_iff {t s : String} : firstObject? t = some s ↔
    ∃ before after, (unfence t).toList = before ++ (s.toList ++ after) ∧
      IsFirst before s.toList after := by
  rw [unfence, String.toList_ofList, ← objectSlice?_eq_some_iff, firstObject?,
    Option.map_eq_some_iff]
  constructor
  · rintro ⟨cs, hcs, rfl⟩
    rwa [String.toList_ofList]
  · exact fun h => ⟨s.toList, h, String.ofList_toList⟩

theorem firstObject?_eq_none_iff {t : String} : firstObject? t = none ↔
    ∀ before after, (unfence t).toList = before ++ after → ¬ StartsObject after := by
  rw [unfence, String.toList_ofList, ← objectSlice?_eq_none_iff, firstObject?,
    Option.map_eq_none_iff]

/-- There is no object in a blank reply, since there is no brace in it. -/
theorem firstObject?_of_blank {t : String} (h : blank t = true) : firstObject? t = none := by
  rw [blank, List.all_eq_true] at h
  have hsame : unfence t = t := by
    rw [unfence, unfenceChars, stripBlanks_of_blank h, splitLines, String.ofList_toList]
  refine firstObject?_eq_none_iff.mpr fun before after hsplit hstarts => ?_
  obtain ⟨s, x, rfl, hs⟩ := hstarts
  obtain ⟨u, rfl⟩ := hs.eq_cons
  have hbrace : isBlank '\x7b' = true := h _ (by rw [← hsame, hsplit]; simp)
  exact absurd hbrace (by decide)

variable {α : Type} {read : Json → Option α} {t s : String}

theorem decode_of_object (h : firstObject? t = some s) :
    ∃ ms, parse? s = some (.obj ms) ∧ decode read t = match read (.obj ms) with
      | some a => .ok a
      | none => .error (.malformed "object has another form") := by
  have hblank : ¬ blank t = true := by
    intro hblank
    rw [firstObject?_of_blank hblank] at h
    cases h
  obtain ⟨cs, hcs, rfl⟩ := Option.map_eq_some_iff.mp (h : (objectSlice? _).map _ = some s)
  obtain ⟨ms, hparse⟩ := parse?_of_objectSlice? hcs
  refine ⟨ms, hparse, ?_⟩
  cases hread : read (.obj ms) <;>
    simp only [decode, if_neg hblank, h, hparse, Option.bind_some, hread]

theorem decode_of_no_object (h : firstObject? t = none) :
    decode read t = .error (if blank t then .empty
      else .malformed "response contains no JSON object") := by
  rw [decode, h]
  split <;> rfl

/-- The object found in a reply is the first of the texts in it, once unfenced, that are an object
each; none is found exactly if there is none. From where it begins it is found whatever follows it.
A reply that only goes on in another way behind it has the same object, as long as what follows does
not complete one that begins before it; then that one is found, which holds it and ends behind it. A
reply with an object is refused for the form of the object, one without for that. -/
theorem decode_reads_first_object (read : Json → Option α) (t : String) :
    (∀ s, firstObject? t = some s ↔
      ∃ before after, (unfence t).toList = before ++ (s.toList ++ after) ∧
        IsFirst before s.toList after) ∧
    (firstObject? t = none ↔
      ∀ before after, (unfence t).toList = before ++ after → ¬ StartsObject after) ∧
    (∀ s, firstObject? t = some s → ∀ other, objectSlice? (s.toList ++ other) = some s.toList) ∧
    (∀ before s after, (unfence t).toList = before ++ (s.toList ++ after) →
      IsFirst before s.toList after → ∀ t' other,
        (unfence t').toList = before ++ (s.toList ++ other) →
          (IsFirst before s.toList other ∧ firstObject? t' = some s) ∨
            ∃ b c w, before = b ++ c ∧ c ≠ [] ∧ w ≠ [] ∧ w <+: other ∧
              firstObject? t' = some (String.ofList (c ++ (s.toList ++ w)))) ∧
    (∀ s, firstObject? t = some s →
      ∃ ms, parse? s = some (.obj ms) ∧ decode read t = match read (.obj ms) with
        | some a => .ok a
        | none => .error (.malformed "object has another form")) ∧
    (firstObject? t = none →
      decode read t = .error (if blank t then .empty
        else .malformed "response contains no JSON object")) := by
  refine ⟨fun s => firstObject?_eq_some_iff, firstObject?_eq_none_iff, fun s h other => ?_, ?_,
    fun s => decode_of_object, decode_of_no_object⟩
  · obtain ⟨before, after, -, hfirst⟩ := firstObject?_eq_some_iff.mp h
    exact objectSlice?_append hfirst.object other
  · intro before s after _ hfirst t' other hother
    rcases hfirst.other other with hsame | ⟨b, c, w, hsplit, hc, hw, hprefix, hlonger⟩
    · exact .inl ⟨hsame, firstObject?_eq_some_iff.mpr ⟨before, other, hother, hsame⟩⟩
    · refine .inr ⟨b, c, w, hsplit, hc, hw, hprefix, ?_⟩
      rw [← hother, unfence, String.toList_ofList] at hlonger
      rw [firstObject?, hlonger, Option.map_some]

/-- What follows an object can matter: a brace behind it completes the object that begins before it,
which is then the first. -/
theorem firstObject?_depends_on_rest :
    firstObject? "\x7b\"a\": \x7b\"b\": 1\x7d" = some "\x7b\"b\": 1\x7d" ∧
      firstObject? "\x7b\"a\": \x7b\"b\": 1\x7d\x7d" =
        some "\x7b\"a\": \x7b\"b\": 1\x7d\x7d" ∧
      ¬ ∀ t t' before s after other,
        (unfence t).toList = before ++ (s.toList ++ after) → IsFirst before s.toList after →
          (unfence t').toList = before ++ (s.toList ++ other) → firstObject? t' = some s := by
  have hinner : firstObject? "\x7b\"a\": \x7b\"b\": 1\x7d" = some "\x7b\"b\": 1\x7d" := by
    decide +kernel
  have houter : firstObject? "\x7b\"a\": \x7b\"b\": 1\x7d\x7d" =
      some "\x7b\"a\": \x7b\"b\": 1\x7d\x7d" := by
    decide +kernel
  refine ⟨hinner, houter, fun hall => ?_⟩
  obtain ⟨before, after, hsplit, hfirst⟩ := firstObject?_eq_some_iff.mp hinner
  have hlonger : (unfence "\x7b\"a\": \x7b\"b\": 1\x7d\x7d").toList =
      (unfence "\x7b\"a\": \x7b\"b\": 1\x7d").toList ++ ['\x7d'] := by
    decide +kernel
  rw [hsplit, List.append_assoc, List.append_assoc] at hlonger
  have hsame := hall _ _ before _ after (after ++ ['\x7d']) hsplit hfirst hlonger
  rw [houter] at hsame
  exact absurd hsame (by decide)

theorem decode_reads_first_object_behind_brace :
    firstObject? "\x7bx\x7d \x7b\"a\": 1\x7d \x7d" = some "\x7b\"a\": 1\x7d" ∧
      (∃ ms, parse? "\x7b\"a\": 1\x7d" = some (.obj ms) ∧
        decode some "\x7bx\x7d \x7b\"a\": 1\x7d \x7d" = .ok (.obj ms)) ∧
      decode some "\x7bx\x7d" = .error (.malformed "response contains no JSON object") := by
  have hfound : firstObject? "\x7bx\x7d \x7b\"a\": 1\x7d \x7d" = some "\x7b\"a\": 1\x7d" := by
    decide +kernel
  have hnone : firstObject? "\x7bx\x7d" = none := by decide +kernel
  exact ⟨hfound, (decode_reads_first_object some _).2.2.2.2.1 _ hfound,
    (decode_reads_first_object some _).2.2.2.2.2 hnone⟩

end Assistant

end Scriptorium
