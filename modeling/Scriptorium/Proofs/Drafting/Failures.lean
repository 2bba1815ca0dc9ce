import Scriptorium.Proofs.Drafting
import Scriptorium.Proofs.Text.Lines

/-! # Lines about failures

A failure keeps the lines of the old text and adds one below them, and below that the other lines
of what its error repeats from outside. So a section gains one line for each failure exactly if
nothing that errors repeat goes on below its first line.
-/

namespace Scriptorium

namespace Drafting

open Text

variable {target component existing error : String} {o : Assistant.Outcome}

/-! ## Errors -/

def fault? : Assistant.Outcome → Option String
  | .reply text => if blank (unfence text) then some Assistant.Failure.empty.message else none
  | .failure f => some f.message
  | .panic message => some (brokenOff message)

/-- What an error repeats of a text from outside, as it stands there. -/
def repeated : Assistant.Outcome → String
  | .failure (.transport reason) => reason
  | .failure (.status _ body) => body
  | .failure (.malformed reason) => reason
  | .failure (.unavailable reason) => reason
  | _ => ""

theorem error_ofOutcome (target existing : String) (c : Component) (o : Assistant.Outcome) :
    (ofOutcome target existing c o).error = fault? o := by
  cases o with
  | panic message => rfl
  | failure f => rfl
  | reply text =>
      by_cases h : blank (unfence text) = true <;>
        simp [ofOutcome, ofReply, Assistant.Outcome.settled, Assistant.plain, Except.bind, fault?,
          h, Draft.failed]

theorem ofOutcome_of_fault (h : fault? o = some error) (target existing : String) (c : Component) :
    ofOutcome target existing c o = .failed target c.name existing error := by
  have herror := error_ofOutcome target existing c o
  rcases ofOutcome_cases target existing c o with ⟨text, inner, -, -, hdraft⟩ | ⟨e, hdraft⟩
  · rw [hdraft, h] at herror
    cases herror
  · rw [hdraft, h] at herror
    obtain rfl : e = error := Option.some.inj herror
    exact hdraft

theorem newline_not_mem_toDigits {b : Nat} (hb : 1 < b) (hlarge : b ≤ 16) (n : Nat) :
    '\n' ∉ Nat.toDigits b n := by
  have hdigit : ∀ d < 16, '\n' ≠ Nat.digitChar d := by decide
  induction n using Nat.strongRecOn with
  | ind n ih =>
      rw [Nat.toDigits_eq_if hb]
      split
      next hn =>
        rw [List.mem_singleton]
        exact hdigit n (by omega)
      next hn =>
        have hless : n / b < n := Nat.div_lt_self (by omega) hb
        have hlast : n % b < 16 := Nat.lt_of_lt_of_le (Nat.mod_lt n (by omega)) hlarge
        rw [List.mem_append, List.mem_singleton, not_or]
        exact ⟨ih (n / b) hless, hdigit (n % b) hlast⟩

theorem newline_not_mem_quoted (s : String) : '\n' ∉ (Text.quoted s).toList := by
  have hchar : ∀ c, '\n' ∉ quotedChar c := by
    intro c
    unfold quotedChar
    split
    all_goals try decide
    next hnew _ _ _ =>
      split
      · simpa using fun h : '\n' = c => hnew h.symm
      · simp [newline_not_mem_toDigits]
  simp [Text.quoted, hchar]

theorem lines_tail_of_not_mem {s : String} (h : '\n' ∉ s.toList) : (lines s).tail = [] := by
  by_cases hne : s.toList = []
  · rw [lines, hne]
    rfl
  · rw [lines, splitLines_of_not_mem h hne]
    rfl

theorem lines_append_colon {label : String} (h : '\n' ∉ label.toList) (text : String) :
    lines (label ++ ": " ++ text) =
      (label ++ ": " ++ (lines text).headD "") :: (lines text).tail := by
  have hlast : (label ++ ": ").toList.getLast? = some ' ' := by
    rw [String.toList_append, List.getLast?_append]
    rfl
  refine lines_append_of_not_mem (by simp [h]) (by simp) (fun hnil => ?_) text
  rw [hnil] at hlast
  cases hlast

/-- An error is one line of its own, or a label on one line and what it repeats. -/
theorem error_form (h : fault? o = some error) :
    '\n' ∉ error.toList ∧ repeated o = "" ∨
      ∃ label, '\n' ∉ label.toList ∧ error = label ++ ": " ++ repeated o := by
  have hnat : ∀ n : Nat, '\n' ∉ (toString n).toList := by
    intro n
    simpa using newline_not_mem_toDigits (b := 10) (by decide) (by decide) n
  have hempty : '\n' ∉ "Empty response".toList := by decide
  cases o with
  | reply text =>
      obtain ⟨-, rfl⟩ : _ ∧ _ = error := by simpa [fault?] using h
      exact .inl ⟨hempty, rfl⟩
  | panic message =>
      obtain rfl : brokenOff message = error := Option.some.inj h
      refine .inl ⟨?_, rfl⟩
      unfold brokenOff
      simp [newline_not_mem_quoted]
  | failure f =>
      obtain rfl : f.message = error := Option.some.inj h
      cases f with
      | transport reason => exact .inr ⟨"Transport error", by decide, rfl⟩
      | malformed reason => exact .inr ⟨"Malformed response", by decide, rfl⟩
      | unavailable reason => exact .inr ⟨"Capability unavailable", by decide, rfl⟩
      | status code body =>
          have hlabel : '\n' ∉ ("HTTP " ++ toString code).toList := by
            simpa using hnat code
          exact .inr ⟨_, hlabel, rfl⟩
      | timeout ms =>
          have hline : '\n' ∉ ("Timed out after " ++ toString ms ++ "ms").toList := by
            simpa using hnat ms
          exact .inl ⟨hline, rfl⟩
      | empty => exact .inl ⟨hempty, rfl⟩

/-- An error goes on below its first line as what it repeats does. -/
theorem lines_tail_of_fault (h : fault? o = some error) :
    (lines error).tail = (lines (repeated o)).tail := by
  rcases error_form h with ⟨hline, hnone⟩ | ⟨label, hlabel, rfl⟩
  · rw [lines_tail_of_not_mem hline, hnone]
    rfl
  · rw [lines_append_colon hlabel, List.tail_cons]

/-! ## One failure -/

/-- What a failure leaves of the old lines: all, but for blanks at the end, and a blank line. -/
def keptLines (existing : String) : List String :=
  if blank existing then [] else lines (trimEnd existing) ++ [""]

/-- The line about a failure, as far as the first line of its error goes. -/
def headLine (target component error : String) : String :=
  placeholder target component ((lines error).headD "")

def IsMarked (line : String) : Prop := marker.toList <+: line.toList

theorem isMarked_placeholder (target component error : String) :
    IsMarked (placeholder target component error) := by
  simp [IsMarked, placeholder, List.append_assoc]

theorem IsMarked.trimEnd {line : String} (h : IsMarked line) : IsMarked (trimEnd line) := by
  obtain ⟨rest, hrest⟩ := h
  have hmarker : marker.toList = "> [generation error".toList ++ [']'] := by decide
  refine ⟨dropBlanksEnd rest, ?_⟩
  rw [Text.trimEnd, String.toList_ofList, ← hrest, hmarker, List.append_assoc, List.append_assoc]
  exact (dropBlanksEnd_append_cons (by decide) _ _).symm

theorem IsMarked.ne_empty {line : String} (h : IsMarked line) : line ≠ "" := by
  rintro rfl
  exact absurd (List.prefix_nil.mp h) (by decide)

/-- The line of the placeholder ends where the first line of the error does; the others follow. -/
theorem lines_placeholder (htarget : '\n' ∉ target.toList) (hcomponent : '\n' ∉ component.toList)
    (error : String) : lines (placeholder target component error) =
      headLine target component error :: (lines error).tail := by
  have hlabel : ∀ e, placeholder target component e = marker ++ " section '" ++ target ++
      "' could not be updated for component '" ++ component ++ "'" ++ ": " ++ e := by
    intro e
    simp [placeholder, String.append_assoc]
  rw [headLine, hlabel, hlabel]
  exact lines_append_colon (by simp [marker, htarget, hcomponent]) error

theorem lines_failed (htarget : '\n' ∉ target.toList) (hcomponent : '\n' ∉ component.toList)
    (existing error : String) : lines (Draft.failed target component existing error).text =
      keptLines existing ++ headLine target component error :: (lines error).tail := by
  rw [← lines_placeholder htarget hcomponent]
  unfold Draft.failed keptLines
  by_cases h : blank existing = true
  · simp [h]
  · simp only [h]
    rw [if_neg (by simp), if_neg (by simp), lines_trimEnd_append (by simpa using h)]
    simp

theorem visibleLines_failed (target component existing error : String) :
    visibleLines (Draft.failed target component existing error).text =
      visibleLines existing ++ visibleLines (placeholder target component error) := by
  unfold Draft.failed
  by_cases h : blank existing = true
  · simp only [h, if_true, visibleLines_of_blank h, List.nil_append]
  · simp only [h]
    rw [if_neg (by simp), visibleLines_append_blankLine, visibleLines_trimEnd]

/-! ## Any number of failures -/

def below (s : String) : List String := ((lines s).tail.map trimEnd).filter (· ≠ "")

theorem visibleLines_placeholder (htarget : '\n' ∉ target.toList)
    (hcomponent : '\n' ∉ component.toList) (error : String) :
    visibleLines (placeholder target component error) =
      trimEnd (headLine target component error) :: below error := by
  have hmarked : IsMarked (trimEnd (headLine target component error)) :=
    (isMarked_placeholder _ _ _).trimEnd
  rw [visibleLines, lines_placeholder htarget hcomponent, List.map_cons,
    List.filter_cons_of_pos (by simpa using hmarked.ne_empty), below]

/-- A call that gives no text, for a component whose name is on one line. -/
structure FailedCall where
  component : Component
  outcome : Assistant.Outcome
  error : String
  fails : fault? outcome = some error
  name_line : '\n' ∉ component.name.toList

namespace FailedCall

def line (target : String) (call : FailedCall) : String :=
  trimEnd (headLine target call.component.name call.error)

def spill (call : FailedCall) : List String := below (repeated call.outcome)

def after (target existing : String) (calls : List FailedCall) : String :=
  calls.foldl (fun text call => (ofOutcome target text call.component call.outcome).text) existing

theorem isMarked_line (target : String) (call : FailedCall) : IsMarked (call.line target) :=
  (isMarked_placeholder _ _ _).trimEnd

theorem visibleLines_text (htarget : '\n' ∉ target.toList) (existing : String) (call : FailedCall) :
    visibleLines (ofOutcome target existing call.component call.outcome).text =
      visibleLines existing ++ call.line target :: call.spill := by
  rw [ofOutcome_of_fault call.fails, visibleLines_failed,
    visibleLines_placeholder htarget call.name_line, below, lines_tail_of_fault call.fails]
  rfl

theorem visibleLines_after (htarget : '\n' ∉ target.toList) (existing : String)
    (calls : List FailedCall) : visibleLines (after target existing calls) =
      visibleLines existing ++ calls.flatMap fun call => call.line target :: call.spill := by
  induction calls generalizing existing with
  | nil => simp [after]
  | cons call calls ih =>
      have hrest := ih (ofOutcome target existing call.component call.outcome).text
      rw [visibleLines_text htarget, List.append_assoc] at hrest
      exact hrest

end FailedCall

theorem length_flatMap_cons {α β : Type} (f : α → β) (g : α → List β) (l : List α) :
    (l.flatMap fun a => f a :: g a).length = l.length + (l.flatMap g).length := by
  induction l with
  | nil => rfl
  | cons a l ih =>
      simp only [List.flatMap_cons, List.length_append, List.length_cons, ih]
      omega

/-- A failure keeps the lines of the old text but for blanks at its end, and adds a blank line, a
line with the marker, and the further lines of its error; so it adds one line exactly if the error
has at most one. After any number of failures a section shows its old lines and, for each of them, a
line with the marker and what the error repeats below its first line; so it gains one visible line
for each failure exactly if no error repeats anything there. -/
theorem failures_add_lines (htarget : '\n' ∉ target.toList) :
    (∀ component existing error, '\n' ∉ component.toList →
      lines (Draft.failed target component existing error).text =
        keptLines existing ++ headLine target component error :: (lines error).tail ∧
      IsMarked (headLine target component error) ∧
      ((∃ line, IsMarked line ∧
        lines (Draft.failed target component existing error).text = keptLines existing ++ [line]) ↔
          (lines error).length ≤ 1)) ∧
    ∀ existing (calls : List FailedCall),
      visibleLines (FailedCall.after target existing calls) =
        visibleLines existing ++ calls.flatMap (fun call => call.line target :: call.spill) ∧
      (∀ call ∈ calls, IsMarked (call.line target)) ∧
      ((∃ added, added.length = calls.length ∧ (∀ line ∈ added, IsMarked line) ∧
        visibleLines (FailedCall.after target existing calls) = visibleLines existing ++ added) ↔
          ∀ call ∈ calls, call.spill = []) := by
  constructor
  · intro component existing error hcomponent
    have hlines := lines_failed htarget hcomponent existing error
    have hmarked : IsMarked (headLine target component error) := isMarked_placeholder _ _ _
    have hshort : (lines error).tail = [] ↔ (lines error).length ≤ 1 := by
      rw [← List.length_eq_zero_iff, List.length_tail]
      omega
    refine ⟨hlines, hmarked, ?_⟩
    rw [hlines, ← hshort]
    constructor
    · rintro ⟨line, -, hsame⟩
      exact (List.cons.inj (List.append_cancel_left hsame)).2
    · intro hnone
      exact ⟨_, hmarked, by rw [hnone]⟩
  · intro existing calls
    have hvisible := FailedCall.visibleLines_after htarget existing calls
    refine ⟨hvisible, fun call _ => call.isMarked_line target, ?_⟩
    rw [hvisible]
    constructor
    · rintro ⟨added, hlength, -, hsame⟩
      have hnone : (calls.flatMap FailedCall.spill).length = 0 := by
        rw [← List.append_cancel_left hsame, length_flatMap_cons] at hlength
        omega
      exact List.flatMap_eq_nil_iff.mp (List.length_eq_zero_iff.mp hnone)
    · intro hnone
      refine ⟨calls.map (FailedCall.line target), by simp, ?_, ?_⟩
      · rintro line hline
        obtain ⟨call, -, rfl⟩ := List.mem_map.mp hline
        exact call.isMarked_line target
      · rw [List.map_eq_flatMap]
        refine congrArg _ (List.flatMap_congr fun call hcall => ?_)
        rw [hnone call hcall]

theorem failures_add_lines_small :
    let draft := Draft.failed "Testing" "svc" "Old text. \n" "HTTP 500: first\nsecond"
    let busy : FailedCall := ⟨⟨"svc", "Runs the checks.", none⟩, .failure (.status 500 "a\n\nb"),
      "HTTP 500: a\n\nb", rfl, by decide⟩
    let late : FailedCall := ⟨⟨"cli", "Reads words.", none⟩, .failure (.timeout 30),
      "Timed out after 30ms", rfl, by decide⟩
    '\n' ∉ "Testing".toList ∧ '\n' ∉ "svc".toList ∧
      lines draft.text =
        ["Old text.", "", placeholder "Testing" "svc" "HTTP 500: first", "second"] ∧
      (¬ ∃ line, IsMarked line ∧ lines draft.text = keptLines "Old text. \n" ++ [line]) ∧
      visibleLines (FailedCall.after "Testing" "Old.\n\n" [busy, late]) =
        ["Old.", placeholder "Testing" "svc" "HTTP 500: a", "b",
          placeholder "Testing" "cli" "Timed out after 30ms"] := by
  intro draft busy late
  have htarget : '\n' ∉ "Testing".toList := by decide
  obtain ⟨hone, hall⟩ := failures_add_lines htarget
  obtain ⟨hlines, -, hsingle⟩ :=
    hone "svc" "Old text. \n" "HTTP 500: first\nsecond" (by decide)
  refine ⟨htarget, by decide, hlines.trans (by decide +kernel), fun h => ?_,
    (hall "Old.\n\n" [busy, late]).1.trans (by decide +kernel)⟩
  exact absurd (hsingle.mp h) (by decide +kernel)

/-- An answer of two lines from a server makes two lines in a section that had none. -/
theorem failure_adds_two_lines :
    let c : Component := ⟨"svc", "Runs the checks.", none⟩
    let draft := ofOutcome "Testing" "" c (.failure (.status 500 "first\nsecond"))
    '\n' ∉ "Testing".toList ∧ '\n' ∉ c.name.toList ∧
      draft = .failed "Testing" c.name "" "HTTP 500: first\nsecond" ∧
      lines draft.text = [placeholder "Testing" c.name "HTTP 500: first", "second"] ∧
      ¬ ∃ line, lines draft.text = [line] := by
  intro c draft
  have hlines : lines draft.text = [placeholder "Testing" c.name "HTTP 500: first", "second"] := by
    decide +kernel
  refine ⟨by decide, by decide, by decide +kernel, hlines, ?_⟩
  rintro ⟨line, hline⟩
  rw [hlines] at hline
  cases hline

end Drafting

end Scriptorium
