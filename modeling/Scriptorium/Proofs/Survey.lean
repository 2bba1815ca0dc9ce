import Scriptorium.Survey

/-! # Surveys

The request for a survey lists what the model holds. A survey is read from a reply that holds an
object of the right form, and from nothing else. What is read stands under the name that the request
gives, whatever name the reply gives.
-/

namespace Scriptorium

namespace Survey

open Architecture

variable {c : Component} {o : Assistant.Outcome} {e : Extraction}

/-! ## What a request shows -/

/-- A request lists all that a model holds, a line for each component and each relation. -/
structure Shows (q : Assistant.Request) (m : Model) : Prop where
  components : q.value "known_components" = if m.components = [] then "(none)" else
    "\n".intercalate (m.components.map fun r =>
      "- " ++ (r.name ++ " (" ++ r.kind.tag ++ ", " ++ r.layer.tag ++ ")"))
  links : q.value "known_relationships" = if m.links = [] then "(none)" else
    "\n".intercalate (m.links.map fun l =>
      "- " ++ (l.source ++ " -" ++ l.kind.tag ++ "-> " ++ l.target))

theorem bullets_map {α : Type} (g : α → String) (l : List α) :
    bullets (l.map g) =
      if l = [] then "(none)" else "\n".intercalate (l.map fun x => "- " ++ g x) := by
  cases l with
  | nil => rfl
  | cons x l => simp [bullets, Function.comp_def]

theorem shows_request (template : String) (m : Model) (n : Neighbors) (c : Component) :
    Shows (request template (.ofModel m n) c) m :=
  ⟨bullets_map _ m.components, bullets_map _ m.links⟩

/-! ## Replies -/

/-- An outcome that no survey can be read from: the call failed or broke off, or its reply is
blank, has no object in it, or has one of another form. -/
inductive Unread : Assistant.Outcome → Prop where
  | failed (f : Assistant.Failure) : Unread (.failure f)
  | brokeOff (message : String) : Unread (.panic message)
  | blank {text : String} (h : Text.blank text = true) : Unread (.reply text)
  | noObject {text : String} (h : Json.firstObject? text = none) : Unread (.reply text)
  | otherForm {text slice : String} (hslice : Json.firstObject? text = some slice)
      (h : (Json.parse? slice).bind extraction? = none) : Unread (.reply text)

/-- A survey that is read is what its reply says, made tidy. -/
theorem ofReply_eq_ok_iff : ofReply c o.settled = .ok e ↔ ∃ text record links fragment,
    o = .reply text ∧ Assistant.decode extraction? text = .ok (record, links, fragment) ∧
      e = tidy c record links fragment := by
  constructor
  · intro h
    cases o with
    | failure f => cases h
    | panic message => cases h
    | reply text =>
        cases hdecode : Assistant.decode extraction? text with
        | error f =>
            simp only [ofReply, Assistant.Outcome.settled, hdecode, bind, Except.bind] at h
            cases h
        | ok found =>
            simp only [ofReply, Assistant.Outcome.settled, hdecode, bind, Except.bind] at h
            exact ⟨text, _, _, _, rfl, hdecode, (Except.ok.inj h).symm⟩
  · rintro ⟨text, record, links, fragment, rfl, hdecode, rfl⟩
    simp only [ofReply, Assistant.Outcome.settled, hdecode, bind, Except.bind]
    rfl

theorem decode_eq_ok {text : String} {found : Record × List Link × Option String}
    (h : Assistant.decode extraction? text = .ok found) : Text.blank text = false ∧
      ∃ slice, Json.firstObject? text = some slice ∧
        (Json.parse? slice).bind extraction? = some found := by
  unfold Assistant.decode at h
  split at h
  next => cases h
  next hblank =>
    split at h
    next => cases h
    next slice hslice =>
      split at h
      next found' hread =>
        obtain rfl := Except.ok.inj h
        exact ⟨by simpa using hblank, slice, hslice, hread⟩
      next => cases h

/-- Nothing is read from an outcome that cannot be read. -/
theorem Unread.not_read (h : Unread o) : ofReply c o.settled ≠ .ok e := by
  intro hread
  obtain ⟨text, record, links, fragment, rfl, hdecode, -⟩ := ofReply_eq_ok_iff.mp hread
  obtain ⟨hblank, slice, hslice, hread⟩ := decode_eq_ok hdecode
  cases h with
  | blank h => cases h.symm.trans hblank
  | noObject h => cases h.symm.trans hslice
  | otherForm hslice' h =>
      obtain rfl := Option.some.inj (hslice'.symm.trans hslice)
      cases h.symm.trans hread

/-! ## The survey of a request -/

def ofRequest (q : Assistant.Request) (o : Assistant.Outcome) :
    Except Assistant.Failure Extraction :=
  ofReply ⟨q.value "name", q.value "documentation", none⟩ o.settled

/-- Only the name of a component counts when a reply about it is read. -/
theorem ofRequest_request (template : String) (ctx : Context) (c : Component)
    (o : Assistant.Outcome) : ofRequest (request template ctx c) o = ofReply c o.settled := rfl

/-- A record that is read stands under the name that its request gives. -/
theorem ofRequest_name {q : Assistant.Request} (h : ofRequest q o = .ok e) :
    ∃ r, e.component = some r ∧ r.name = q.value "name" := by
  obtain ⟨text, record, links, fragment, -, -, rfl⟩ := ofReply_eq_ok_iff.mp h
  exact ⟨_, rfl, rfl⟩

/-- Links that are read have both ends. -/
theorem ofRequest_links {q : Assistant.Request} (h : ofRequest q o = .ok e) :
    ∀ l ∈ e.links, Text.blank l.source = false ∧ Text.blank l.target = false := by
  obtain ⟨text, record, links, fragment, -, -, rfl⟩ := ofReply_eq_ok_iff.mp h
  intro l hl
  simpa [tidy] using (List.mem_filter.mp hl).2

end Survey

end Scriptorium
