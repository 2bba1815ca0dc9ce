import Scriptorium.Proofs.Document
import Scriptorium.Proofs.Run.Cap
import Scriptorium.Proofs.Run.Document
import Scriptorium.Proofs.Run.Totals

/-! # The sections that a document lists

The document of a completed run lists a section with text unless the text is hollow. Only a reply
can make it so: one that is a fence around a fence around nothing has its outer fence taken off when
it becomes a text, and its inner one when the document is made. A draft that tells of a failure is
always shown.
-/

namespace Scriptorium

namespace Run

open Archive Document

variable {p : Plan} {k : Catalog} {phase : Phase} {w : Worklist} {trail : List Checkpoint}
  {requests : List Assistant.Request}

namespace Plan

/-- No reply that became the new text of a section is hollow. -/
def Filling (p : Plan) (requests : List Assistant.Request) : Prop :=
  ∀ n q, requests[n]? = some q → q.task = .writer → ∀ text inner, p.answers n q = .reply text →
    Assistant.plain text = .ok inner → ¬ Hollow inner

def Replied (p : Plan) (requests : List Assistant.Request) (id text : String) : Prop :=
  ∃ n q reply, requests[n]? = some q ∧ q.task = .writer ∧ q.value "section" = id ∧
    p.answers n q = .reply reply ∧ Assistant.plain reply = .ok text

theorem Filling.not_hollow {id text : String} (h : p.Filling requests)
    (hreplied : p.Replied requests id text) : ¬ Hollow text := by
  obtain ⟨n, q, reply, hq, htask, -, hreply, hplain⟩ := hreplied
  exact h n q hq htask reply text hreply hplain

/-- A draft has its text from a reply, or it tells of a failure and is shown. -/
theorem draft_cases {d : Drafting.Draft} (h : d ∈ p.draftsFrom 0 requests) :
    (d.error = none ∧ p.Replied requests d.target d.text) ∨
      (d.error ≠ none ∧ shown d.text ≠ "") := by
  obtain ⟨n, q, hq, htask, rfl⟩ := mem_draftsFrom.mp h
  rw [Nat.zero_add]
  rcases Drafting.ofOutcome_cases (q.value "section") (q.value "existing")
    ⟨q.value "name", q.value "documentation", none⟩ (p.answers n q) with
    ⟨reply, text, hreply, hplain, hdraft⟩ | ⟨error, hdraft⟩
  · rw [Drafting.ofRequest, hdraft]
    exact .inl ⟨rfl, n, q, reply, hq, htask, rfl, hreply, hplain⟩
  · rw [Drafting.ofRequest, hdraft]
    have hshown := Drafting.contentLines_failed_ne_nil (q.value "section") (q.value "name")
      (q.value "existing") error
    exact .inr ⟨by simp [Drafting.Draft.failed], shown_ne_empty hshown⟩

end Plan

/-- Drafts are for sections of the taxonomy. -/
theorem Reach.target_mem (hp : p.Grounded) (h : Reach p k phase w trail requests)
    {d : Drafting.Draft} (hd : d ∈ p.draftsFrom 0 requests) :
    d.target ∈ p.settings.taxonomy.sectionIds := by
  induction h with
  | start => cases hd
  | @turn phase w _ trail _ requests asked h ht ih =>
      rw [Plan.draftsFrom_append, Nat.zero_add] at hd
      rcases List.mem_append.mp hd with hd | hd
      · exact ih hd
      · obtain ⟨i, q, hq, htask, rfl⟩ := Plan.mem_draftsFrom.mp hd
        have hasked := List.mem_of_getElem? hq
        rw [Drafting.ofRequest, Drafting.ofOutcome_target]
        cases ht with
        | filter _ _ => exact absurd htask (Plan.judging_task q hasked)
        | select _ =>
            rw [List.mem_singleton.mp hasked] at htask
            cases htask
        | @process c f _ _ hf _ =>
            obtain ⟨texts, hm⟩ := (h.fits hp).manuscript
            obtain ⟨f', hf', hstart, -⟩ := (h.fits hp).fanout hm c requests.length
            obtain rfl : f' = f := Except.ok.inj (hstart.symm.trans hf)
            obtain ⟨e, he, rfl⟩ := Plan.mem_fanning hasked htask
            rw [hf'] at he
            obtain ⟨t, ht, rfl⟩ := List.mem_map.mp he
            rw [Drafting.request_section]
            exact (h.fits hp).targets t ht
        | _ => cases hasked

/-- The text of any section at a point is made by the drafts up to there. -/
theorem Reach.textOf_eq (hp : p.Grounded) (h : Reach p k phase w trail requests) (id : String) :
    w.manuscript.textOf id = Fanout.written (fun _ => "") (p.draftsFrom 0 requests) id := by
  rw [h.texts hp]
  by_cases hid : id ∈ p.settings.taxonomy.sectionIds.eraseDups
  · exact Manuscript.textOf_ofTexts _ hid
  · rcases Fanout.written_cases (fun _ => "") (p.draftsFrom 0 requests) id with
      ⟨-, htext⟩ | ⟨d, hd, htarget, -⟩
    · rw [htext, Manuscript.textOf, Manuscript.get?_ofTexts, if_neg hid, Option.getD_none]
    · have hmem := h.target_mem hp hd
      rw [htarget] at hmem
      exact absurd (List.mem_eraseDups.mpr hmem) hid

theorem Reach.replied_of_hollow (hp : p.Grounded) (h : Reach p k phase w trail requests)
    {id : String} (hhollow : Hollow (w.manuscript.textOf id)) :
    p.Replied requests id (w.manuscript.textOf id) := by
  rw [h.textOf_eq hp] at hhollow ⊢
  rcases Fanout.written_cases (fun _ => "") (p.draftsFrom 0 requests) id with
    ⟨-, htext⟩ | ⟨d, hd, htarget, htext⟩
  · rw [htext] at hhollow
    exact absurd hhollow (by decide)
  · rw [htext] at hhollow ⊢
    rcases Plan.draft_cases hd with ⟨-, hreplied⟩ | ⟨-, hshown⟩
    · rwa [htarget] at hreplied
    · exact absurd hhollow.2 hshown

theorem Plan.Replied.shown_ne_empty {id text : String} (h : p.Replied requests id text)
    (hhollow : ¬ Hollow text) : shown text ≠ "" := by
  obtain ⟨n, q, reply, -, -, -, -, hplain⟩ := h
  exact shown_ne_empty_iff.mpr ⟨(Drafting.plain_eq_ok hplain).2, hhollow⟩

/-- Where no reply is hollow, each section that a draft was made for is shown. -/
theorem Reach.shown_of_draft (hp : p.Grounded) (h : Reach p k phase w trail requests)
    (hfilling : p.Filling requests) {d : Drafting.Draft} (hd : d ∈ p.draftsFrom 0 requests) :
    shown (w.manuscript.textOf d.target) ≠ "" := by
  rw [h.textOf_eq hp]
  rcases Fanout.written_cases (fun _ => "") (p.draftsFrom 0 requests) d.target with
    ⟨hnone, -⟩ | ⟨e, he, -, htext⟩
  · exact absurd rfl (hnone d hd)
  · rw [htext]
    rcases Plan.draft_cases he with ⟨-, hreplied⟩ | ⟨-, hshown⟩
    · exact hreplied.shown_ne_empty (hfilling.not_hollow hreplied)
    · exact hshown

/-! ## Listings -/

/-- A document can be made at any point, and its listing has the sections that are shown. -/
theorem Reach.listing (hp : p.Grounded) (h : Reach p k phase w trail requests) :
    ∃ listing, p.settings.taxonomy.groups.mapM (entries w.manuscript) = .ok listing ∧
      listing.flatten.map (·.1) =
        p.settings.taxonomy.sectionIds.filter fun s => shown (w.manuscript.textOf s) ≠ "" := by
  have hcontains : ∀ s ∈ p.settings.taxonomy.sectionIds, w.manuscript.contains s = true := by
    intro s hs
    rw [h.texts hp, Manuscript.contains_ofTexts]
    exact decide_eq_true (List.mem_eraseDups.mpr hs)
  exact ⟨_, mapM_entries hcontains, names_listed p.settings.taxonomy w.manuscript.textOf⟩

/-- The sections that a run counts as populated are those with a text that is not blank. -/
theorem Reach.populated_eq (hp : p.Grounded) (hnodup : p.settings.taxonomy.sectionIds.Nodup)
    (h : Reach p k phase w trail requests) :
    w.manuscript.populated = (p.settings.taxonomy.sectionIds.filter fun s =>
      !Text.blank (w.manuscript.textOf s)).length := by
  rw [h.texts hp, Manuscript.populated_ofTexts, eraseDups_of_nodup hnodup]
  refine congrArg _ (List.filter_congr fun s hs => ?_)
  rw [Manuscript.textOf_ofTexts _ hs]

namespace Session

variable {σ : Type} [Store σ]

/-- What the document of a completed run lists, beside what the run says of its sections. A section
is listed unless its text is blank or hollow, and hollow texts come from replies. So a section whose
last draft is a reply that is not hollow is listed; and where no reply is hollow the sections listed
are those that the run counts as populated, and there is a document as soon as one was written. -/
theorem run_lists {settings : Settings} {graph : Option CallGraph}
    {answers : Assistant.Answering} (hp : Plan.ofSettings settings graph answers = .ok p)
    (k : Catalog) (id : RunId) (clock : Clock) (store : σ) (tally : Tally)
    (hok : (run p k id clock store tally).1 = .ok ()) :
    let r := run p k id clock store tally
    let m := r.2.work.manuscript
    ∃ listing doc, settings.taxonomy.groups.mapM (entries m) = .ok listing ∧
      Document.compile settings.taxonomy settings.output.title m = .ok doc ∧
      Kept p store r.2.store (report r.2).document doc ∧
      (doc = "" ↔ listing.flatten = []) ∧
      listing.flatten.map (·.1) = settings.taxonomy.sectionIds.filter (fun s =>
        !Text.blank (m.textOf s) && !decide (Hollow (m.textOf s))) ∧
      (∀ s, Hollow (m.textOf s) → p.Replied r.2.requests s (m.textOf s)) ∧
      (∀ s d, ((p.draftsFrom 0 r.2.requests).filter (·.target = s)).getLast? = some d →
        d.error = none → ¬ Hollow d.text → s ∈ listing.flatten.map (·.1)) ∧
      (p.Filling r.2.requests →
        listing.flatten.map (·.1) =
            settings.taxonomy.sectionIds.filter (fun s => !Text.blank (m.textOf s)) ∧
          listing.flatten.length = m.populated ∧
          (0 < (report r.2).sectionsWritten → (report r.2).document.isSome = true)) := by
  have hgrounded := Plan.grounded_of_ofSettings hp
  have hnodup := Plan.nodup_of_ofSettings hp
  obtain ⟨rfl, -⟩ := Plan.fields_of_ofSettings hp
  obtain ⟨doc, hdoc, hkept⟩ := run_document hgrounded hok
  have hreach := (run_ended hgrounded k id clock store tally).reach_of_ok hok
  have hcounted := (run_counted p k id clock store tally).written
  have hpopulated := hreach.populated_eq hgrounded hnodup
  obtain ⟨listing, hentries, hnames⟩ := hreach.listing hgrounded
  generalize run p k id clock store tally = r
    at hdoc hkept hreach hcounted hpopulated hentries hnames ⊢
  have hlisted : ∀ s ∈ p.settings.taxonomy.sectionIds,
      shown (r.2.work.manuscript.textOf s) ≠ "" → s ∈ listing.flatten.map (·.1) := by
    intro s hs hshown
    rw [hnames]
    exact List.mem_filter.mpr ⟨hs, by simpa using hshown⟩
  have hempty : doc = "" ↔ listing.flatten = [] := by
    rw [(compile_eq_ok_iff.mp hdoc).2, render_eq_empty_iff, ← List.map_eq_nil_iff (f := (·.1)),
      hnames, List.filter_eq_nil_iff]
    simp
  refine ⟨listing, doc, hentries, hdoc, hkept, hempty, ?_,
    fun s => hreach.replied_of_hollow hgrounded, fun s d hlast herror hhollow => ?_,
    fun hfilling => ?_⟩
  · rw [hnames]
    refine List.filter_congr fun s _ => ?_
    simp [shown_ne_empty_iff]
  · obtain ⟨hd, htarget⟩ := List.mem_filter.mp (List.mem_of_getLast? hlast)
    obtain rfl : d.target = s := by simpa using htarget
    refine hlisted _ (hreach.target_mem hgrounded hd) ?_
    rw [hreach.textOf_eq hgrounded, Fanout.written_of_getLast? _ hlast]
    -- The last draft of the section decides its text.
    rcases Plan.draft_cases hd with ⟨-, hreplied⟩ | ⟨hfailed, -⟩
    · exact hreplied.shown_ne_empty hhollow
    · exact absurd herror hfailed
  · have hsolid : ∀ s, ¬ Hollow (r.2.work.manuscript.textOf s) :=
      fun s hhollow => hfilling.not_hollow (hreach.replied_of_hollow hgrounded hhollow) hhollow
    have hfilled : listing.flatten.map (·.1) = p.settings.taxonomy.sectionIds.filter fun s =>
        !Text.blank (r.2.work.manuscript.textOf s) := by
      rw [hnames]
      refine List.filter_congr fun s _ => ?_
      simp [shown_ne_empty_iff, hsolid s]
    refine ⟨hfilled, ?_, fun hwritten => ?_⟩
    · rw [← List.length_map (f := (·.1)), hfilled]
      exact hpopulated.symm
    · change 0 < r.2.totals.sectionsWritten at hwritten
      rw [hcounted] at hwritten
      obtain ⟨d, hd, -⟩ := List.countP_pos_iff.mp hwritten
      have hin := hlisted _ (hreach.target_mem hgrounded hd)
        (hreach.shown_of_draft hgrounded hfilling hd)
      refine hkept.isSome_iff.mpr fun hdoc => ?_
      rw [hempty.mp hdoc] at hin
      cases hin

/-- The document of a small run lists its first section. -/
theorem run_lists_small :
    let r := run (.small (.steady Assistant.scribe) none) .small default default ({} : Shelf) {}
    ∃ listing, Settings.small.taxonomy.groups.mapM (entries r.2.work.manuscript) = .ok listing ∧
      listing.flatten.map (·.1) = ["Overview"] := by
  have hp := Plan.ofSettings_small (.steady Assistant.scribe) none (by decide)
  have hok := run_ok_of_shelf (Plan.grounded_of_ofSettings hp) .small default default {} {}
    (by decide)
  obtain ⟨listing, -, hlisting, -, -, -, hnames, -⟩ :=
    run_lists hp .small default default ({} : Shelf) {} hok
  refine ⟨listing, hlisting, hnames.trans ?_⟩
  decide +kernel

/-- Where every reply is hollow, a small run writes a section, counts it as populated and completes
without a document. -/
theorem run_drops_hollow :
    let p := Plan.small (.steady Assistant.wrapper) none
    let r := run p .small default default ({} : Shelf) {}
    Plan.ofSettings Settings.small none (.steady Assistant.wrapper) = .ok p ∧ r.1 = .ok () ∧
      r.2.work.manuscript.get? "Overview" = some "```json\n```" ∧
      r.2.work.manuscript.populated = 1 ∧ (report r.2).sectionsWritten = 2 ∧
      Settings.small.taxonomy.groups.mapM (entries r.2.work.manuscript) = .ok [[]] ∧
      (report r.2).document = none := by
  have hp := Plan.ofSettings_small (.steady Assistant.wrapper) none (by decide)
  have hok := run_ok_of_shelf (Plan.grounded_of_ofSettings hp) .small default default {} {}
    (by decide)
  refine ⟨hp, hok, ?_⟩
  decide +kernel

end Session

end Run

end Scriptorium
