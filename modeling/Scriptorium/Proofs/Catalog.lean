import Mathlib.Data.List.Forall2
import Mathlib.Logic.Function.Basic
import Scriptorium.Catalog
import Scriptorium.Proofs.Json.Members

/-! # What a catalog lists

A catalog is built by setting names one after the other, so it has each name at its first place and
with its last component; an order of names and a map from names, kept apart, would agree with it at
every step. From a text it takes the keys of the object and the last value of each. It is refused
with the fault of the first key, in the order of the text, whose value is no entry.
-/

namespace Scriptorium

def Component.named (c : Component) : String × Component := (c.name, c)

namespace Catalog

variable {k k' : Catalog} {c c' : Component} {l : List Component} {key name : String}

/-! ## Names and components -/

@[ext] theorem ext (h : k.components = k'.components) : k = k' := by
  cases k
  cases k'
  congr

theorem map_fst_named (l : List Component) :
    (l.map Component.named).map (·.1) = l.map (·.name) := by
  rw [List.map_map]
  rfl

theorem lookup_named (l : List Component) (key : String) :
    (l.map Component.named).lookup key = l.find? (·.name = key) := by
  induction l with
  | nil => rfl
  | cons c l ih =>
      rw [List.map_cons, Json.lookup_cons_eq, ih, Component.named, List.find?_cons]
      by_cases hkey : key = c.name
      · simp [hkey]
      · simp [hkey, Ne.symm hkey]

theorem named_putComponent (c : Component) (l : List Component) :
    (putComponent c l).map Component.named = Json.setKey c.name c (l.map Component.named) := by
  induction l with
  | nil => rfl
  | cons d l ih =>
      rw [putComponent, List.map_cons, Component.named, Json.setKey]
      split_ifs
      · rfl
      · rw [List.map_cons, ih, Component.named]

/-- A list is put together as the members of an object are. -/
theorem named_ofList (l : List Component) :
    (ofList l).components.map Component.named = Json.lastValues (l.map Component.named) := by
  induction l using List.reverseRecOn with
  | nil => rfl
  | append_singleton l c ih =>
      have hput : ofList (l ++ [c]) = (ofList l).put c := by
        rw [ofList, List.foldl_append]
        rfl
      rw [hput, put, named_putComponent, ih, List.map_append, List.map_singleton,
        Json.lastValues_concat]
      rfl

theorem names_ofList (l : List Component) : (ofList l).names = (l.map (·.name)).eraseDups := by
  rw [names, ← map_fst_named, named_ofList, Json.map_fst_lastValues, map_fst_named]

theorem get?_ofList (l : List Component) (key : String) :
    (ofList l).get? key = l.reverse.find? (·.name = key) := by
  rw [get?, ← lookup_named, named_ofList, Json.lookup_lastValues, ← List.map_reverse, lookup_named]

theorem components_ofList (h : (l.map (·.name)).Nodup) : (ofList l).components = l := by
  have hnamed := named_ofList l
  rw [Json.lastValues_of_nodup (by rwa [map_fst_named])] at hnamed
  exact List.map_injective_iff.mpr (fun _ _ h => congrArg Prod.snd h) hnamed

theorem name_of_get? (h : k.get? key = some c) : c.name = key := by
  simpa using List.find?_some h

theorem get?_isSome_iff : (k.get? key).isSome ↔ key ∈ k.names := by
  simp [get?, names]

theorem get?_of_mem (h : c ∈ k.components) : k.get? c.name = some c := by
  have hnodup : ((k.components.map Component.named).map (·.1)).Nodup := by
    rw [map_fst_named]
    exact k.distinct
  rw [get?, ← lookup_named, ← Json.mem_iff_lookup hnodup]
  exact List.mem_map.mpr ⟨c, h, rfl⟩

/-- A catalog has some keys in their order, and for each a component of that name of which
something holds. Its components are those of its names, one after the other. -/
structure Lists (k : Catalog) (keys : List String) (q : String → Component → Prop) : Prop where
  names : k.names = keys
  nodup : keys.Nodup
  present : ∀ key, (k.get? key).isSome ↔ key ∈ keys
  named : ∀ key c, k.get? key = some c → c.name = key ∧ q key c
  components : k.components.map some = keys.map k.get?

theorem lists {q : String → Component → Prop} (h : ∀ key c, k.get? key = some c → q key c) :
    k.Lists k.names q where
  names := rfl
  nodup := k.distinct
  present _ := get?_isSome_iff
  named key c hc := ⟨name_of_get? hc, h key c hc⟩
  components := by
    rw [Catalog.names, List.map_map]
    exact List.map_congr_left fun c hc => (get?_of_mem hc).symm

/-! ## Order and map apart -/

structure Index where
  order : List String
  component? : String → Option Component

namespace Index

def empty : Index := ⟨[], fun _ => none⟩

def insert (x : Index) (c : Component) : Index where
  order := if (x.component? c.name).isSome then x.order else x.order ++ [c.name]
  component? := Function.update x.component? c.name (some c)

def components (x : Index) : List Component := x.order.filterMap x.component?

end Index

def index (k : Catalog) : Index := ⟨k.names, k.get?⟩

theorem index_put (k : Catalog) (c : Component) : (k.put c).index = k.index.insert c := by
  have hnamed : (k.put c).components.map Component.named =
      Json.setKey c.name c (k.components.map Component.named) := named_putComponent c k.components
  have hget : (k.put c).get? = Function.update k.get? c.name (some c) := by
    funext key
    rw [get?, ← lookup_named, hnamed, Json.lookup_setKey, lookup_named, Function.update_apply]
    rfl
  have hnames : (k.put c).names =
      if (k.get? c.name).isSome then k.names else k.names ++ [c.name] := by
    have hknown : (k.get? c.name).isSome ↔
        c.name ∈ (k.components.map Component.named).map (·.1) := by
      rw [get?_isSome_iff, map_fst_named]
      rfl
    rw [names, ← map_fst_named, hnamed]
    split_ifs with hsome
    · rw [Json.map_fst_setKey_of_mem (hknown.mp hsome), map_fst_named]
      rfl
    · rw [Json.setKey_of_not_mem (mt hknown.mpr hsome), List.map_append, map_fst_named]
      rfl
  rw [index, hget, hnames]
  rfl

theorem index_ofList (l : List Component) : (ofList l).index = l.foldl Index.insert .empty := by
  induction l using List.reverseRecOn with
  | nil => rfl
  | append_singleton l c ih =>
      rw [List.foldl_append, ← ih, ofList, List.foldl_append]
      exact index_put _ c

theorem components_index (k : Catalog) : k.index.components = k.components := by
  have hlist : k.components.map some = k.names.map k.get? :=
    (lists (q := fun _ _ => True) fun _ _ _ => trivial).components
  calc k.names.filterMap k.get? = (k.names.map k.get?).filterMap id := by
        rw [List.filterMap_map, Function.id_comp]
    _ = (k.components.map some).filterMap id := by rw [hlist]
    _ = k.components := by rw [List.filterMap_map, Function.id_comp, List.filterMap_some]

/-! ## Entries -/

structure IsEntry (name : String) (v : Json) (c : Component) : Prop where
  object : ∃ ms, v = .obj ms
  name : c.name = name
  documentation : Json.member? "documentation" v = some (.str c.documentation)
  kind : Json.member? "type" v = c.kind.map .str ∨
    c.kind = none ∧ Json.member? "type" v = some .null

/-- What is wrong with a JSON value that is no entry. -/
inductive Faulty (name : String) (v : Json) : Error → Prop where
  | notObject (h : ∀ ms, v ≠ .obj ms) : Faulty name v (.entryNotObject name)
  | noDocumentation (hobject : ∃ ms, v = .obj ms)
      (h : ∀ text, Json.member? "documentation" v ≠ some (.str text)) :
      Faulty name v (.noDocumentation name)
  | oddType {text : String} {kind : Json} (hobject : ∃ ms, v = .obj ms)
      (hdocumentation : Json.member? "documentation" v = some (.str text))
      (h : Json.member? "type" v = some kind) (hnull : kind ≠ .null)
      (htext : ∀ s, kind ≠ .str s) : Faulty name v (.oddType name kind.canonical)

variable {v : Json} {ms : List (String × Json)} {e e' : Error} {text : String}

theorem IsEntry.unique (h : IsEntry name v c) (h' : IsEntry name v c') : c = c' := by
  obtain ⟨-, hname, hdocumentation, hkind⟩ := h
  obtain ⟨-, hname', hdocumentation', hkind'⟩ := h'
  obtain ⟨n, d, kind⟩ := c
  obtain ⟨n', d', kind'⟩ := c'
  rw [hdocumentation] at hdocumentation'
  obtain rfl : d = d' := Json.str.inj (Option.some.inj hdocumentation')
  obtain rfl : n = n' := hname.trans hname'.symm
  obtain rfl : kind = kind' := by
    cases kind <;> cases kind' <;> simp_all
  rfl

theorem Faulty.not_isEntry (h : Faulty name v e) : ¬ IsEntry name v c := by
  rintro ⟨hobject, -, hdocumentation, hkind⟩
  cases h with
  | notObject h =>
      obtain ⟨ms, hms⟩ := hobject
      exact h ms hms
  | noDocumentation _ h => exact h _ hdocumentation
  | oddType _ _ h hnull htext =>
      rw [h] at hkind
      rcases hkind with hkind | ⟨-, hkind⟩
      · obtain ⟨s, -, hs⟩ := Option.map_eq_some_iff.mp hkind.symm
        exact htext s hs.symm
      · exact hnull (Option.some.inj hkind)

/-- Reading an entry gives its component or what is wrong with it. -/
theorem componentOf_spec (name : String) (v : Json) :
    match componentOf name v.canonical with
    | .ok c => IsEntry name v c
    | .error e => Faulty name v e := by
  cases v with
  | obj ms =>
      rw [Json.canonical_obj, componentOf, Json.lookup_canonical, Json.lookup_canonical]
      cases hdocumentation : Json.member? "documentation" (.obj ms) with
      | none => exact .noDocumentation ⟨ms, rfl⟩ (by simp [hdocumentation])
      | some documentation =>
          cases documentation with
          | str text =>
              rw [Option.map_some, Json.canonical_eq_str_iff.mpr rfl]
              dsimp only
              cases hkind : Json.member? "type" (.obj ms) with
              | none => exact ⟨⟨ms, rfl⟩, rfl, hdocumentation, .inl hkind⟩
              | some kind =>
                  cases kind with
                  | null => exact ⟨⟨ms, rfl⟩, rfl, hdocumentation, .inr ⟨rfl, hkind⟩⟩
                  | str s => exact ⟨⟨ms, rfl⟩, rfl, hdocumentation, .inl hkind⟩
                  | _ => exact .oddType ⟨ms, rfl⟩ hdocumentation hkind nofun nofun
          | _ => exact .noDocumentation ⟨ms, rfl⟩ (by simp [hdocumentation])
  | _ => exact .notObject nofun

theorem componentOf_eq_ok_iff : componentOf name v.canonical = .ok c ↔ IsEntry name v c := by
  have hspec := componentOf_spec name v
  constructor
  · intro h
    rwa [h] at hspec
  · intro hentry
    cases hread : componentOf name v.canonical with
    | ok d =>
        rw [hread] at hspec
        rw [hentry.unique hspec]
    | error e =>
        rw [hread] at hspec
        exact absurd hentry hspec.not_isEntry

theorem name_of_componentOf (h : componentOf name v = .ok c) : c.name = name := by
  unfold componentOf at h
  split at h
  next =>
    split at h
    next =>
      split at h <;> cases h <;> rfl
    next => cases h
  next => cases h

theorem Faulty.unique (h : Faulty name v e) (h' : Faulty name v e') : e = e' := by
  cases h with
  | notObject h =>
      cases h' with
      | notObject _ => rfl
      | noDocumentation hobject _ => exact absurd hobject (by simpa using h)
      | oddType hobject => exact absurd hobject (by simpa using h)
  | noDocumentation hobject h =>
      cases h' with
      | notObject h' => exact absurd hobject (by simpa using h')
      | noDocumentation _ _ => rfl
      | oddType _ hdocumentation => exact absurd hdocumentation (h _)
  | oddType hobject hdocumentation h =>
      cases h' with
      | notObject h' => exact absurd hobject (by simpa using h')
      | noDocumentation _ h' => exact absurd hdocumentation (h' _)
      | oddType _ _ h' =>
          rw [h] at h'
          rw [Option.some.inj h']

theorem componentOf_eq_error_iff :
    componentOf name v.canonical = .error e ↔ Faulty name v e := by
  have hspec := componentOf_spec name v
  constructor
  · intro h
    rwa [h] at hspec
  · intro hfault
    cases hread : componentOf name v.canonical with
    | ok c =>
        rw [hread] at hspec
        exact absurd hspec hfault.not_isEntry
    | error e' =>
        rw [hread] at hspec
        rw [hspec.unique hfault]

theorem Faulty.message (h : Faulty name v e) :
    ∃ rest, e.message = "Entry '" ++ name ++ "'" ++ rest := by
  cases h with
  | notObject => exact ⟨" is not an object", by simp [Error.message, String.append_assoc]⟩
  | noDocumentation =>
      exact ⟨" has no string 'documentation' field", by simp [Error.message, String.append_assoc]⟩
  | @oddType _ kind =>
      have hsplit : "' has a non-string 'type': " = "'" ++ " has a non-string 'type': " := rfl
      refine ⟨" has a non-string 'type': " ++ kind.canonical.compact, ?_⟩
      rw [Error.message, hsplit]
      simp only [String.append_assoc]

/-! ## Entries in order -/

def keysOf (ms : List (String × Json)) : List String := (ms.map (·.1)).eraseDups

def Readable (ms : List (String × Json)) (key : String) : Prop :=
  ∃ v c, Json.member? key (.obj ms) = some v ∧ IsEntry key v c

theorem keys_canonical (ms : List (String × Json)) :
    (Json.lastValues (Json.canonicalMembers ms)).map (·.1) = keysOf ms :=
  Json.map_fst_canonical ms

theorem mem_canonical_iff {w : Json} :
    (key, w) ∈ Json.lastValues (Json.canonicalMembers ms) ↔
      ∃ v, Json.member? key (.obj ms) = some v ∧ v.canonical = w := by
  have hnodup : ((Json.lastValues (Json.canonicalMembers ms)).map (·.1)).Nodup := by
    rw [keys_canonical]
    exact nodup_eraseDups _
  rw [Json.mem_iff_lookup hnodup, Json.lookup_canonical, Option.map_eq_some_iff]

theorem ofJson_obj (ms : List (String × Json)) : ofJson (Json.obj ms).canonical =
    (Json.lastValues (Json.canonicalMembers ms)).mapM (fun m => componentOf m.1 m.2) >>=
      fun l => .ok (ofList l) := by
  rw [Json.canonical_obj]
  rfl

theorem lists_of_ofJson (h : ofJson (Json.obj ms).canonical = .ok k) :
    k.Lists (keysOf ms) fun key c =>
      ∃ v, Json.member? key (.obj ms) = some v ∧ IsEntry key v c := by
  rw [ofJson_obj] at h
  cases hread : (Json.lastValues (Json.canonicalMembers ms)).mapM fun m => componentOf m.1 m.2 with
  | error e =>
      rw [hread] at h
      cases h
  | ok l =>
      rw [hread] at h
      obtain rfl : ofList l = k := Except.ok.inj h
      have hentries := mapM_eq_ok_iff_forall₂.mp hread
      have hnames : keysOf ms = l.map (·.name) := by
        rw [← keys_canonical, ← List.forall₂_eq_eq_eq, List.forall₂_map_left_iff,
          List.forall₂_map_right_iff]
        exact hentries.imp fun _ _ hm => (name_of_componentOf hm).symm
      have hcomponents : (ofList l).components = l :=
        components_ofList (hnames ▸ nodup_eraseDups _)
      have hkeys : (ofList l).names = keysOf ms := by
        rw [names, hcomponents, hnames]
      rw [← hkeys]
      refine lists fun key c hc => ?_
      obtain rfl := name_of_get? hc
      have hmem : c ∈ l := hcomponents ▸ List.mem_of_find?_eq_some hc
      obtain ⟨⟨key, w⟩, hm, hread⟩ := exists_of_forall₂ hentries c hmem
      obtain ⟨v, hv, rfl⟩ := mem_canonical_iff.mp hm
      rw [name_of_componentOf hread]
      exact ⟨v, hv, componentOf_eq_ok_iff.mp hread⟩

/-- A member can be read exactly if its key can. -/
theorem readable_iff {m : String × Json}
    (hm : m ∈ Json.lastValues (Json.canonicalMembers ms)) :
    (∃ c, componentOf m.1 m.2 = .ok c) ↔ Readable ms m.1 := by
  obtain ⟨key, w⟩ := m
  obtain ⟨v, hv, rfl⟩ := mem_canonical_iff.mp hm
  constructor
  · rintro ⟨c, hc⟩
    exact ⟨v, c, hv, componentOf_eq_ok_iff.mp hc⟩
  · rintro ⟨v', c, hv', hentry⟩
    obtain rfl : v = v' := Option.some.inj (hv.symm.trans hv')
    exact ⟨c, componentOf_eq_ok_iff.mpr hentry⟩

theorem ofJson_eq_error_iff : ofJson (Json.obj ms).canonical = .error e ↔
    ∃ before key after v, keysOf ms = before ++ key :: after ∧ (∀ x ∈ before, Readable ms x) ∧
      Json.member? key (.obj ms) = some v ∧ Faulty key v e := by
  have hread : ofJson (Json.obj ms).canonical = .error e ↔
      (Json.lastValues (Json.canonicalMembers ms)).mapM (fun m => componentOf m.1 m.2) =
        .error e := by
    rw [ofJson_obj]
    cases (Json.lastValues (Json.canonicalMembers ms)).mapM fun m => componentOf m.1 m.2 <;>
      simp [bind, Except.bind]
  rw [hread, mapM_eq_error_iff, ← keys_canonical]
  constructor
  · rintro ⟨before, ⟨key, w⟩, after, hsplit, hbefore, hfault⟩
    have hmem : ∀ m, m ∈ before ∨ m = (key, w) →
        m ∈ Json.lastValues (Json.canonicalMembers ms) := by
      rintro m (hm | rfl)
      · exact hsplit ▸ List.mem_append_left _ hm
      · exact hsplit ▸ List.mem_append_right before List.mem_cons_self
    obtain ⟨v, hv, rfl⟩ := mem_canonical_iff.mp (hmem _ (.inr rfl))
    refine ⟨before.map (·.1), key, after.map (·.1), v, by rw [hsplit, List.map_append]; rfl, ?_, hv,
      componentOf_eq_error_iff.mp hfault⟩
    rintro x hx
    obtain ⟨m, hm, rfl⟩ := List.mem_map.mp hx
    exact (readable_iff (hmem m (.inl hm))).mp (hbefore m hm)
  · rintro ⟨before, key, after, v, hsplit, hbefore, hv, hfault⟩
    obtain ⟨front, rest, hentries, rfl, hrest⟩ := List.map_eq_append_iff.mp hsplit
    obtain ⟨⟨key', w⟩, back, rfl, rfl, rfl⟩ := List.map_eq_cons_iff.mp hrest
    have hmem : ∀ m, m ∈ front ∨ m = (key', w) →
        m ∈ Json.lastValues (Json.canonicalMembers ms) := by
      rintro m (hm | rfl)
      · exact hentries ▸ List.mem_append_left _ hm
      · exact hentries ▸ List.mem_append_right front List.mem_cons_self
    obtain ⟨v', hv', rfl⟩ := mem_canonical_iff.mp (hmem _ (.inr rfl))
    obtain rfl : v = v' := Option.some.inj (hv.symm.trans hv')
    refine ⟨front, (key', v.canonical), back, hentries, fun m hm => ?_,
      componentOf_eq_error_iff.mpr hfault⟩
    exact (readable_iff (hmem m (.inl hm))).mpr (hbefore _ (List.mem_map.mpr ⟨m, hm, rfl⟩))

inductive Refusal (text : String) : Error → Prop where
  | notJson (h : Json.parse? text = none) : Refusal text .notJson
  | rootNotObject {v : Json} (h : Json.parse? text = some v) (hobject : ∀ ms, v ≠ .obj ms) :
      Refusal text .rootNotObject
  | entry {ms : List (String × Json)} {before after : List String} {key : String} {v : Json}
      {e : Error} (h : Json.parse? text = some (.obj ms))
      (hkeys : keysOf ms = before ++ key :: after) (hbefore : ∀ x ∈ before, Readable ms x)
      (hvalue : Json.member? key (.obj ms) = some v) (hfault : Faulty key v e) : Refusal text e

theorem refusal_of_none_iff (h : Json.parse? text = none) :
    Refusal text e ↔ .notJson = e := by
  constructor
  · intro hrefusal
    cases hrefusal with
    | notJson => rfl
    | rootNotObject h' => cases h.symm.trans h'
    | entry h' => cases h.symm.trans h'
  · rintro rfl
    exact .notJson h

theorem refusal_of_not_obj_iff (h : Json.parse? text = some v) (hobject : ∀ ms, v ≠ .obj ms) :
    Refusal text e ↔ .rootNotObject = e := by
  constructor
  · intro hrefusal
    cases hrefusal with
    | notJson h' => cases h.symm.trans h'
    | rootNotObject => rfl
    | entry h' => exact absurd (Option.some.inj (h.symm.trans h')) (hobject _)
  · rintro rfl
    exact .rootNotObject h hobject

theorem refusal_of_obj_iff (h : Json.parse? text = some (.obj ms)) : Refusal text e ↔
    ∃ before key after v, keysOf ms = before ++ key :: after ∧ (∀ x ∈ before, Readable ms x) ∧
      Json.member? key (.obj ms) = some v ∧ Faulty key v e := by
  constructor
  · intro hrefusal
    cases hrefusal with
    | notJson h' => cases h.symm.trans h'
    | rootNotObject h' hobject => exact absurd (Option.some.inj (h'.symm.trans h)) (hobject ms)
    | entry h' hkeys hbefore hvalue hfault =>
        cases h.symm.trans h'
        exact ⟨_, _, _, _, hkeys, hbefore, hvalue, hfault⟩
  · rintro ⟨before, key, after, v, hkeys, hbefore, hvalue, hfault⟩
    exact .entry h hkeys hbefore hvalue hfault

theorem ofText_of_none (h : Json.parse? text = none) : ofText text = .error .notJson := by
  rw [ofText, h]

theorem ofText_of_some (h : Json.parse? text = some v) : ofText text = ofJson v.canonical := by
  rw [ofText, h]

theorem ofText_of_not_obj (h : Json.parse? text = some v) (hobject : ∀ ms, v ≠ .obj ms) :
    ofText text = .error .rootNotObject := by
  have hcanonical := Json.canonical_eq_of_not_obj hobject
  rw [ofText_of_some h]
  unfold ofJson
  split
  next ms hms => exact absurd hms (hcanonical ms)
  next => rfl

theorem ofText_eq_error_iff : ofText text = .error e ↔ Refusal text e := by
  cases hparse : Json.parse? text with
  | none => rw [ofText_of_none hparse, Except.error.injEq, refusal_of_none_iff hparse]
  | some v =>
      by_cases hobject : ∀ ms, v ≠ .obj ms
      · rw [ofText_of_not_obj hparse hobject, Except.error.injEq,
          refusal_of_not_obj_iff hparse hobject]
      · obtain ⟨ms, rfl⟩ : ∃ ms, v = .obj ms := by simpa using hobject
        rw [ofText_of_some hparse, ofJson_eq_error_iff, refusal_of_obj_iff hparse]

theorem lists_of_ofText (h : ofText text = .ok k) : ∃ ms, Json.parse? text = some (.obj ms) ∧
    k.Lists (keysOf ms) fun key c =>
      ∃ v, Json.member? key (.obj ms) = some v ∧ IsEntry key v c := by
  cases hparse : Json.parse? text with
  | none =>
      rw [ofText_of_none hparse] at h
      cases h
  | some v =>
      by_cases hobject : ∀ ms, v ≠ .obj ms
      · rw [ofText_of_not_obj hparse hobject] at h
        cases h
      · obtain ⟨ms, rfl⟩ : ∃ ms, v = .obj ms := by simpa using hobject
        rw [ofText_of_some hparse] at h
        exact ⟨ms, rfl, lists_of_ofJson h⟩

theorem ofText_isOk_iff : (∃ k, ofText text = .ok k) ↔
    ∃ ms, Json.parse? text = some (.obj ms) ∧ ∀ key ∈ keysOf ms, Readable ms key := by
  constructor
  · rintro ⟨k, hk⟩
    obtain ⟨ms, hparse, hlists⟩ := lists_of_ofText hk
    refine ⟨ms, hparse, fun key hkey => ?_⟩
    obtain ⟨c, hc⟩ := Option.isSome_iff_exists.mp ((hlists.present key).mpr hkey)
    obtain ⟨-, v, hv, hentry⟩ := hlists.named key c hc
    exact ⟨v, c, hv, hentry⟩
  · rintro ⟨ms, hparse, hall⟩
    cases htext : ofText text with
    | ok k => exact ⟨k, rfl⟩
    | error e =>
        rw [ofText_of_some hparse, ofJson_eq_error_iff] at htext
        obtain ⟨before, key, after, v, hkeys, -, hv, hfault⟩ := htext
        obtain ⟨v', c, hv', hentry⟩ :=
          hall key (hkeys ▸ List.mem_append_right before List.mem_cons_self)
        obtain rfl : v = v' := Option.some.inj (hv.symm.trans hv')
        exact absurd hentry hfault.not_isEntry

/-- A text is a catalog exactly if it is an object whose keys all have the entry of a component as
their last value; the catalog then lists the keys in the order of the text with these components.
Any other text is refused for what is wrong with it, an object for its first key without an entry.
A list of components makes a catalog of its names in their order with the last component of each,
as an order and a map that are kept apart do. -/
theorem listed_or_refused (text : String) :
    ((∃ k, ofText text = .ok k) ↔
      ∃ ms, Json.parse? text = some (.obj ms) ∧ ∀ key ∈ keysOf ms, Readable ms key) ∧
    (∀ k, ofText text = .ok k → ∃ ms, Json.parse? text = some (.obj ms) ∧
      k.Lists (keysOf ms) fun key c =>
        ∃ v, Json.member? key (.obj ms) = some v ∧ IsEntry key v c) ∧
    (∀ e, ofText text = .error e ↔ Refusal text e) ∧
    (∀ key v e, Faulty key v e → ∃ rest, e.message = "Entry '" ++ key ++ "'" ++ rest) ∧
    ∀ l : List Component,
      (ofList l).Lists (l.map (·.name)).eraseDups
        (fun key c => l.reverse.find? (·.name = key) = some c) ∧
      (ofList l).index = l.foldl Index.insert .empty ∧
      (l.foldl Index.insert .empty).components = (ofList l).components := by
  refine ⟨ofText_isOk_iff, fun k => lists_of_ofText, fun e => ofText_eq_error_iff,
    fun key v e => Faulty.message, fun l => ⟨?_, index_ofList l, ?_⟩⟩
  · rw [← names_ofList]
    refine lists fun key c hc => ?_
    rwa [← get?_ofList]
  · rw [← index_ofList, components_index]

example : (ofList [⟨"a", "old", none⟩, ⟨"b", "other", none⟩, ⟨"a", "new", none⟩]).components =
    [⟨"a", "new", none⟩, ⟨"b", "other", none⟩] := by
  decide

end Catalog

end Scriptorium
