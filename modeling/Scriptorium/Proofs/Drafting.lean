import Scriptorium.Proofs.Manuscript
import Scriptorium.Proofs.Text.Content

/-! # Drafts and the lines they keep

A draft is the reply without its fence, or the old text with a line about the failure. The old text
loses no content line to a failure, and no content line to a reply that has them all; a text that
tells of a failure is never without content.
-/

namespace Scriptorium

namespace Drafting

open Text

/-! ## Failures -/

theorem contentLines_placeholder (target component error : String) :
    contentLines (placeholder target component error) ≠ [] := by
  have hcons : (placeholder target component error).toList =
      '>' :: (placeholder target component error).toList.tail := by
    simp [placeholder, marker]
  rw [contentLines_eq, hcons]
  exact mt List.map_eq_nil_iff.mp (content_cons_ne_nil (by decide) (by decide) _)

/-- A failure leaves all content lines of the old text in place and adds its own after them. -/
theorem contentLines_failed (target component existing error : String) :
    contentLines (Draft.failed target component existing error).text =
      contentLines existing ++ contentLines (placeholder target component error) := by
  unfold Draft.failed
  by_cases h : blank existing = true
  · simp only [h, if_true, contentLines_of_blank h, List.nil_append]
  · simp only [h]
    exact (endsLine_append_blankLine _ _).trans
      (by rw [contentLines_append_blankLine, contentLines_trimEnd])

theorem contentLines_failed_ne_nil (target component existing error : String) :
    contentLines (Draft.failed target component existing error).text ≠ [] := by
  rw [contentLines_failed]
  exact List.append_ne_nil_of_right_ne_nil _ (contentLines_placeholder target component error)

/-! ## Outcomes -/

theorem plain_eq_ok {text inner : String} (h : Assistant.plain text = .ok inner) :
    inner = unfence text ∧ blank inner = false := by
  unfold Assistant.plain at h
  by_cases hblank : blank (unfence text) = true
  · simp [hblank] at h
  · simp only [hblank] at h
    obtain rfl : unfence text = inner := Except.ok.inj h
    exact ⟨rfl, by simpa using hblank⟩

/-- A draft is a reply that holds some text, or it tells of a failure. -/
theorem ofOutcome_cases (target existing : String) (c : Component) (o : Assistant.Outcome) :
    (∃ text inner, o = .reply text ∧ Assistant.plain text = .ok inner ∧
      ofOutcome target existing c o = ⟨target, inner, none⟩) ∨
    ∃ error, ofOutcome target existing c o = .failed target c.name existing error := by
  cases o with
  | panic message => exact .inr ⟨_, rfl⟩
  | failure f => exact .inr ⟨f.message, rfl⟩
  | reply text =>
      cases hplain : Assistant.plain text with
      | ok inner =>
          refine .inl ⟨text, inner, rfl, hplain, ?_⟩
          simp [ofOutcome, ofReply, Assistant.Outcome.settled, Except.bind, hplain]
      | error f =>
          refine .inr ⟨f.message, ?_⟩
          simp [ofOutcome, ofReply, Assistant.Outcome.settled, Except.bind, hplain]

/-- A draft keeps the content lines of the old text if its reply does, in case it is one. -/
theorem contentLines_ofOutcome {target existing : String} {c : Component} {o : Assistant.Outcome}
    (h : ∀ text inner, o = .reply text → Assistant.plain text = .ok inner →
      contentLines existing ⊆ contentLines text) :
    contentLines existing ⊆ contentLines (ofOutcome target existing c o).text := by
  rcases ofOutcome_cases target existing c o with ⟨text, inner, ho, hplain, heq⟩ | ⟨error, heq⟩
  · rw [heq, (plain_eq_ok hplain).1, contentLines_unfence]
    exact h text inner ho hplain
  · rw [heq, contentLines_failed]
    exact List.subset_append_left _ _

/-! ## Requests -/

def ofRequest (q : Assistant.Request) (o : Assistant.Outcome) : Draft :=
  ofOutcome (q.value "section") (q.value "existing") ⟨q.value "name", q.value "documentation", none⟩ o

theorem ofOutcome_congr {c d : Component} (h : c.name = d.name) (target existing : String)
    (o : Assistant.Outcome) : ofOutcome target existing c o = ofOutcome target existing d o := by
  have hreply : ∀ reply, ofReply target existing c reply = ofReply target existing d reply := by
    intro reply
    rw [ofReply, ofReply, h]
  cases o with
  | panic message => rw [ofOutcome, ofOutcome, h]
  | reply text => simp only [ofOutcome, hreply]
  | failure f => simp only [ofOutcome, hreply]

section Values

variable (template target existing : String) (c : Component)

theorem request_section : (request template target existing c).value "section" = target := rfl

theorem request_existing : (request template target existing c).value "existing" = existing := rfl

theorem request_name : (request template target existing c).value "name" = c.name := rfl

theorem ofRequest_request (o : Assistant.Outcome) :
    ofRequest (request template target existing c) o = ofOutcome target existing c o := by
  rw [ofRequest, request_section, request_existing, request_name]
  exact ofOutcome_congr rfl target existing o

end Values

end Drafting

end Scriptorium
