import Scriptorium.Proofs.Document
import Scriptorium.Proofs.Run.Cap
import Scriptorium.Proofs.Run.Document
import Scriptorium.Proofs.Run.Steady

/-! # Content that is not lost

As long as no reply drops a content line of the text that it replaces, no content line is ever
lost: it stays in its section for the rest of the run, and the document has it. Failures need no
such promise, since they leave the old text in place.
-/

namespace Scriptorium

namespace Run

open Archive Text

/-- Every reply that became the new text of a section has the content lines of the text that its
request showed. -/
def Plan.Retaining (p : Plan) (requests : List Assistant.Request) : Prop :=
  ∀ n q, requests[n]? = some q → q.task = .writer → ∀ text inner, p.answers n q = .reply text →
    Assistant.plain text = .ok inner → contentLines (q.value "existing") ⊆ contentLines text

variable {p : Plan} {k : Catalog} {n : Nat} {phase phase' : Phase} {w w' : Worklist}
  {trail trail' : List Checkpoint} {requests requests' asked : List Assistant.Request} {m : Move}

theorem Plan.Retaining.of_append {later : List Assistant.Request}
    (h : p.Retaining (requests ++ later)) : p.Retaining requests := by
  intro n q hq
  have hlt : n < requests.length := (List.getElem?_eq_some_iff.mp hq).choose
  exact h n q (by rw [List.getElem?_append_left hlt, hq])

/-! ## Turns -/

/-- A turn keeps the content lines of every section. -/
theorem Turn.contentLines_subset {texts : String → String} (h : Fits p n phase w)
    (hw : w.manuscript = .ofTexts p.settings.taxonomy.sectionIds.eraseDups texts)
    (ht : Turn p w requests.length phase m w' asked) (hretains : p.Retaining (requests ++ asked))
    (id : String) : contentLines (texts id) ⊆
      contentLines (Fanout.written texts (p.draftsFrom requests.length asked) id) := by
  obtain ⟨-, hshown⟩ := ht.texts h hw
  -- A section that no draft is for has its old text, and each draft keeps what its request shows.
  refine Fanout.written_induction (q := fun id text => contentLines (texts id) ⊆ contentLines text)
    (fun _ => List.Subset.refl _) (fun d hd => ?_) id
  obtain ⟨i, q, hq, htask, rfl⟩ := Plan.mem_draftsFrom.mp hd
  have hasked : (requests ++ asked)[requests.length + i]? = some q := by
    rw [List.getElem?_append_right (Nat.le_add_right _ _), Nat.add_sub_cancel_left, hq]
  have hexisting := hshown q (List.mem_of_getElem? hq) htask
  rw [Drafting.ofRequest, Drafting.ofOutcome_target, ← hexisting]
  exact Drafting.contentLines_ofOutcome fun text inner => hretains _ q hasked htask text inner

/-- Further turns keep the content lines of every section. -/
theorem Reach.contentLines_subset (hp : p.Grounded) (h : Reach p k phase w trail requests)
    (h' : Reach p k phase' w' trail' requests') (hlen : trail.length ≤ trail'.length)
    (hretains : p.Retaining requests') (id : String) :
    contentLines (Fanout.written (fun _ => "") (p.draftsFrom 0 requests) id) ⊆
      contentLines (Fanout.written (fun _ => "") (p.draftsFrom 0 requests') id) := by
  -- Induction on the longer path; the shorter one ends on the way to its last turn or with it.
  induction h' with
  | start =>
      have hnil : trail = [] := List.length_eq_zero_iff.mp (Nat.le_zero.mp hlen)
      obtain ⟨-, -, -, rfl⟩ := h.unique .start (by rw [hnil])
      exact List.Subset.refl _
  | turn h' ht' ih =>
      rcases Nat.lt_or_eq_of_le hlen with hlt | heq
      · rw [List.length_append, List.length_singleton] at hlt
        have hbefore := ih (Nat.le_of_lt_succ hlt) hretains.of_append
        have hturn := ht'.contentLines_subset (h'.fits hp) (h'.texts hp) hretains id
        rw [Plan.draftsFrom_append, Fanout.written_append, Nat.zero_add]
        exact List.Subset.trans hbefore hturn
      · obtain ⟨-, -, -, rfl⟩ := h.unique (h'.turn ht') heq
        exact List.Subset.refl _

/-- The text of a section at a point is in the taxonomy's manuscript at any later one. -/
theorem Reach.text_subset (hp : p.Grounded) (h : Reach p k phase w trail requests)
    (h' : Reach p k phase' w' trail' requests') (hlen : trail.length ≤ trail'.length)
    (hretains : p.Retaining requests') {id text : String} (htext : w.manuscript.get? id = some text) :
    ∃ later, w'.manuscript.get? id = some later ∧ contentLines text ⊆ contentLines later := by
  rw [h.texts hp, Manuscript.get?_ofTexts] at htext
  by_cases hid : id ∈ p.settings.taxonomy.sectionIds.eraseDups
  · rw [if_pos hid] at htext
    obtain rfl := Option.some.inj htext
    refine ⟨_, ?_, h.contentLines_subset hp h' hlen hretains id⟩
    rw [h'.texts hp, Manuscript.get?_ofTexts, if_pos hid]
  · rw [if_neg hid] at htext
    cases htext

/-! ## Whole runs -/

namespace Session

variable {σ : Type} [Store σ]

/-- Where replies keep the content lines of what they were shown, a completed run loses none: those
of a section at a moment are there at every later moment and in the document. A fence is no loss,
nor is a failure, and a document has all that its sections have. -/
theorem run_keeps_content {settings : Settings} {graph : Option CallGraph}
    {answers : Assistant.Answering} (hp : Plan.ofSettings settings graph answers = .ok p)
    (k : Catalog) (id : RunId) (clock : Clock) (store : σ) (tally : Tally)
    (hok : (run p k id clock store tally).1 = .ok ())
    (hretains : p.Retaining (run p k id clock store tally).2.requests) :
    let r := run p k id clock store tally
    let moment := fun n => ((start p k id clock store tally).drive p n).2
    (∀ a b, a ≤ b → ∀ s text, (moment a).work.manuscript.get? s = some text →
      ∃ later, (moment b).work.manuscript.get? s = some later ∧
        contentLines text ⊆ contentLines later) ∧
    (∃ doc, Document.compile settings.taxonomy settings.output.title r.2.work.manuscript = .ok doc ∧
      Kept p store r.2.store r.2.document doc ∧
      ∀ n s text, (moment n).work.manuscript.get? s = some text →
        contentLines text ⊆ contentLines doc) ∧
    (∀ text, contentLines (unfence text) = contentLines text) ∧
    (∀ target component existing error, contentLines existing <+:
      contentLines (Drafting.Draft.failed target component existing error).text) ∧
    ∀ title m doc, Document.compile settings.taxonomy title m = .ok doc →
      ∀ s ∈ settings.taxonomy.sectionIds, ∃ text, m.get? s = some text ∧
        contentLines text <:+: contentLines doc := by
  have hgrounded := Plan.grounded_of_ofSettings hp
  obtain ⟨rfl, -⟩ := Plan.fields_of_ofSettings hp
  obtain ⟨hstanding, hsteps, hlast⟩ := run_moments hgrounded hok
  obtain ⟨doc, hdoc, hkept⟩ := run_document hgrounded hok
  have hcompiled : ∀ title m doc, Document.compile p.settings.taxonomy title m = .ok doc →
      ∀ s ∈ p.settings.taxonomy.sectionIds, ∃ text, m.get? s = some text ∧
        contentLines text <:+: contentLines doc := by
    intro title m doc hdoc s hs
    obtain ⟨hcontains, rfl⟩ := Document.compile_eq_ok_iff.mp hdoc
    obtain ⟨text, htext⟩ := Option.isSome_iff_exists.mp (hcontains s hs)
    refine ⟨text, htext, ?_⟩
    rw [← Manuscript.textOf_of_get? htext]
    exact Document.contentLines_render title hs
  have hlength : ∀ n, (((start p k id clock store tally).drive p n).2.trail.checkpoints.map
      Checkpoint.undated).length =
        ((start p k id clock store tally).drive p n).2.machine.steps := by
    intro n
    rw [List.length_map, (hstanding n).steps]
  -- The requests of every moment are among those of the whole run, which is itself a moment.
  have hbefore : ∀ n, p.Retaining ((start p k id clock store tally).drive p n).2.requests := by
    intro n
    obtain ⟨later, hlater⟩ := (hstanding n).reach.requests_prefix (hstanding (moves k.size)).reach
      (by rw [hlength, hlength]; exact hlast n)
    have hall : p.Retaining ((start p k id clock store tally).drive p (moves k.size)).2.requests :=
      hretains
    rw [← hlater] at hall
    exact hall.of_append
  have hstays : ∀ a b, ((start p k id clock store tally).drive p a).2.machine.steps ≤
      ((start p k id clock store tally).drive p b).2.machine.steps → ∀ s text,
      ((start p k id clock store tally).drive p a).2.work.manuscript.get? s = some text →
        ∃ later, ((start p k id clock store tally).drive p b).2.work.manuscript.get? s = some later ∧
          contentLines text ⊆ contentLines later := by
    intro a b hab s text htext
    exact (hstanding a).reach.text_subset hgrounded (hstanding b).reach
      (by rw [hlength, hlength]; exact hab) (hbefore b) htext
  refine ⟨fun a b hab => hstays a b (hsteps a b hab), ⟨doc, hdoc, hkept, ?_⟩, contentLines_unfence,
    ?_, hcompiled⟩
  · intro n s text htext
    obtain ⟨last, hget, hsubset⟩ := hstays n (moves k.size) (hlast n) s text htext
    by_cases hs : s ∈ p.settings.taxonomy.sectionIds
    · obtain ⟨shown, hshown, hin⟩ := hcompiled _ _ doc hdoc s hs
      obtain rfl : last = shown := Option.some.inj (hget.symm.trans hshown)
      exact List.Subset.trans hsubset hin.subset
    · rw [(hstanding n).reach.texts hgrounded, Manuscript.get?_ofTexts,
        if_neg (mt List.mem_eraseDups.mp hs)] at htext
      cases htext
  · intro target component existing error
    rw [Drafting.contentLines_failed]
    exact List.prefix_append _ _

/-- An assistant that adds the name of a component on a line of its own retains all content. -/
theorem retaining_of_lines (requests : List Assistant.Request) (cap : Option Nat) :
    (Plan.small (.steady Assistant.chronicler) cap).Retaining requests := by
  intro n q hq htask text inner hreply hplain
  have hanswer : Assistant.Answering.steady Assistant.chronicler n q =
      .reply (q.value "existing" ++ "\n\n" ++ q.value "name") := by
    simp only [Assistant.Answering.steady, Assistant.chronicler, htask]
  obtain rfl := Assistant.Outcome.reply.inj (hreply.symm.trans hanswer)
  rw [endsLine_append_blankLine, contentLines_append_blankLine]
  exact List.subset_append_left _ _

/-- What the first component of a small run leaves in a section, the document has. -/
theorem run_keeps_content_small :
    ∃ doc, Document.compile Settings.small.taxonomy Settings.small.output.title
        (run (.small (.steady Assistant.chronicler) none) .small default default
          ({} : Shelf) {}).2.work.manuscript = .ok doc ∧ "Lexer" ∈ contentLines doc := by
  have hp := Plan.ofSettings_small (.steady Assistant.chronicler) none (by decide)
  have hok := run_ok_of_shelf (Plan.grounded_of_ofSettings hp) .small default default {} {}
    (by decide)
  obtain ⟨-, ⟨doc, hdoc, -, hkept⟩, -⟩ :=
    run_keeps_content hp .small default default ({} : Shelf) {} hok (retaining_of_lines _ _)
  have hfirst : ((start (.small (.steady Assistant.chronicler) none) .small default default
      ({} : Shelf) {}).drive (.small (.steady Assistant.chronicler) none) 4).2.work.manuscript.get?
        "Overview" = some "\n\nLexer" := by
    decide +kernel
  exact ⟨doc, hdoc, hkept 4 "Overview" "\n\nLexer" hfirst (by decide +kernel)⟩

end Session

end Run

end Scriptorium
