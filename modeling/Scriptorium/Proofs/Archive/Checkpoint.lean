import Scriptorium.Archive.Artifact
import Scriptorium.Proofs.Json.RoundTrip
import Scriptorium.Proofs.Text.Table

/-! # Checkpoints as texts

A checkpoint is read back from its text, and nothing is read from a text or from bytes that were cut.
-/

namespace Scriptorium.Archive

/-! ## Run identifiers -/

namespace RunId

/-- 32 hexadecimal digits, small letters. -/
structure Regular (id : RunId) : Prop where
  length : id.digits.length = 32
  small : ∀ c ∈ id.digits, (Text.hexValue c).map Nat.digitChar = some c

variable {id : RunId}

theorem ofDigits?_digits (h : id.Regular) : ofDigits? id.digits = some id := by
  have hmapM {cs : List Char} (hcs : ∀ c ∈ cs, (Text.hexValue c).map Nat.digitChar = some c) :
      cs.mapM (fun c => (Text.hexValue c).map Nat.digitChar) = some cs := by
    induction cs with
    | nil => rfl
    | cons c cs ih =>
        rw [List.mapM_cons, hcs c List.mem_cons_self, ih fun d hd => hcs d (List.mem_cons_of_mem _ hd)]
        rfl
  rw [ofDigits?, if_pos h.length, hmapM h.small]
  rfl

/-- The text of an identifier in groups. -/
theorem ofGroups?_append {a b c d e : List Char} (ha : a.length = 8) (hb : b.length = 4)
    (hc : c.length = 4) (hd : d.length = 4) (he : e.length = 12) :
    ofGroups? (a ++ '-' :: (b ++ '-' :: (c ++ '-' :: (d ++ '-' :: e)))) =
      ofDigits? (a ++ b ++ c ++ d ++ e) := by
  have hhyphens : (a ++ '-' :: (b ++ '-' :: (c ++ '-' :: (d ++ '-' :: e)))).length = 36 ∧
      (a ++ '-' :: (b ++ '-' :: (c ++ '-' :: (d ++ '-' :: e))))[8]? = some '-' ∧
      (a ++ '-' :: (b ++ '-' :: (c ++ '-' :: (d ++ '-' :: e))))[13]? = some '-' ∧
      (a ++ '-' :: (b ++ '-' :: (c ++ '-' :: (d ++ '-' :: e))))[18]? = some '-' ∧
      (a ++ '-' :: (b ++ '-' :: (c ++ '-' :: (d ++ '-' :: e))))[23]? = some '-' := by
    simp [ha, hb, hc, hd, he]
  unfold ofGroups?
  rw [if_pos hhyphens]
  simp (disch := omega) [List.drop_append, List.drop_of_length_le, ha, hb, hc, hd]

theorem ofText?_text (h : id.Regular) : ofText? id.text = some id := by
  have hlength := h.length
  have hgroups := ofGroups?_append (a := id.digits.take 8) (b := (id.digits.drop 8).take 4)
    (c := (id.digits.drop 12).take 4) (d := (id.digits.drop 16).take 4) (e := id.digits.drop 20)
    (by simp [hlength]) (by simp [hlength]) (by simp [hlength]) (by simp [hlength])
    (by simp [hlength])
  have hdigits : id.digits.take 8 ++ (id.digits.drop 8).take 4 ++ (id.digits.drop 12).take 4
      ++ (id.digits.drop 16).take 4 ++ id.digits.drop 20 = id.digits := by
    rw [← List.take_add, ← List.take_add, ← List.take_add]
    exact List.take_append_drop 20 id.digits
  have htext : id.text.toList.length = 36 := by
    simp [text, hlength]
  rw [hdigits, ofDigits?_digits h] at hgroups
  rw [ofText?, if_neg (by simp [htext]), if_pos htext]
  simpa [text] using hgroups

end RunId

/-! ## Records -/

theorem counts?_toJson (c : Counts) : counts? (countsToJson c) = some c := by
  have hslots : Json.slots
      [["total_components"], ["remaining"], ["processed"], ["accepted"], ["rejected"]]
      (countsToJson c) = some [.given (.nat c.total), .given (.nat c.remaining),
        .given (.nat c.processed), .given (.nat c.accepted), .given (.nat c.rejected)] :=
    Json.slots_members [("total_components", some (Json.nat c.total)),
      ("remaining", some (.nat c.remaining)), ("processed", some (.nat c.processed)),
      ("accepted", some (.nat c.accepted)), ("rejected", some (.nat c.rejected))] (by simp)
  rw [counts?, hslots]
  rfl

theorem extent?_toJson (e : Architecture.Extent) : extent? e.toJson = some e := by
  have hslots : Json.slots [["components"], ["relationships"]] e.toJson =
      some [.given (.nat e.components), .given (.nat e.relationships)] :=
    Json.slots_members [("components", some (Json.nat e.components)),
      ("relationships", some (.nat e.relationships))] (by simp)
  rw [extent?, hslots]
  rfl

theorem lengths?_table {l : List (String × Nat)} (h : Text.IsTable l) :
    lengths? (.obj (l.map fun (k, n) => (k, .nat n))) = some l := by
  have hmapM (l : List (String × Nat)) : (l.map fun p => (p.1, Json.nat p.2)).mapM
      (fun m => (Json.asNat? m.2).map fun n => (m.1, n)) = some l := by
    induction l with
    | nil => rfl
    | cons p l ih =>
        rw [List.map_cons, List.mapM_cons, ih]
        rfl
  rw [lengths?, hmapM l]
  exact congrArg some h.tableOf_eq

theorem asList?_strings (l : List String) :
    Json.asList? Json.asString? (.strings l) = some l := by
  change (l.map Json.str).mapM Json.asString? = some l
  induction l with
  | nil => rfl
  | cons s l ih =>
      rw [List.map_cons, List.mapM_cons, ih]
      rfl

namespace Checkpoint

/-- A checkpoint whose numbers have 64 bits, whose lengths are a table, and whose time survives its
text. -/
structure Regular (c : Checkpoint) : Prop where
  run : c.run.Regular
  time : Timestamp.ofRelaxedText? c.time.text = some c.time
  counts : c.counts.total ≤ Json.wordMax ∧ c.counts.remaining ≤ Json.wordMax ∧
    c.counts.processed ≤ Json.wordMax ∧ c.counts.accepted ≤ Json.wordMax ∧
    c.counts.rejected ≤ Json.wordMax
  table : Text.IsTable c.lengths
  lengths : ∀ p ∈ c.lengths, p.2 ≤ Json.wordMax
  extent : c.extent.components ≤ Json.wordMax ∧ c.extent.relationships ≤ Json.wordMax

def fields (c : Checkpoint) : List (String × Option Json) :=
  [("run_id", some (.str c.run.text)), ("timestamp", some (.str c.time.text)),
    ("operation", some (.str c.operation)), ("phase", some (.str c.phase)),
    ("component", c.component.map .str), ("decision", c.decision.map .str),
    ("reason", c.reason.map .str), ("counts", some (countsToJson c.counts)),
    ("selected_sections", some (.strings c.selected)),
    ("section_lengths", some (.obj (c.lengths.map fun (k, n) => (k, .nat n)))),
    ("architecture", some c.extent.toJson)]

theorem toJson_eq (c : Checkpoint) : c.toJson = .obj (Json.members c.fields) := by
  obtain ⟨run, time, operation, phase, component, decision, reason, counts, selected, lengths,
    extent⟩ := c
  cases component <;> cases decision <;> cases reason <;> rfl

theorem nodup_fields (c : Checkpoint) : (c.fields.map Prod.fst).Nodup := by
  simp [fields]

theorem fits {c : Checkpoint} (h : c.Regular) : Json.Fits Json.depthLimit c.toJson := by
  obtain ⟨htotal, hremaining, hprocessed, haccepted, hrejected⟩ := h.counts
  obtain ⟨hcomponents, hrelationships⟩ := h.extent
  have hcounts : Json.Fits (Json.depthLimit - 1) (countsToJson c.counts) :=
    ⟨by decide, htotal, hremaining, hprocessed, haccepted, hrejected, trivial⟩
  have hextent : Json.Fits (Json.depthLimit - 1) c.extent.toJson :=
    ⟨by decide, hcomponents, hrelationships, trivial⟩
  have hselected : Json.Fits (Json.depthLimit - 1) (.strings c.selected) := by
    refine ⟨by decide, Json.fitsItems_iff.mpr fun v hv => ?_⟩
    obtain ⟨s, -, rfl⟩ := List.mem_map.mp hv
    trivial
  have hlengths : Json.Fits (Json.depthLimit - 1)
      (.obj (c.lengths.map fun (k, n) => (k, .nat n))) := by
    refine ⟨by decide, Json.fitsMembers_iff.mpr fun m hm => ?_⟩
    obtain ⟨p, hp, rfl⟩ := List.mem_map.mp hm
    exact h.lengths p hp
  rw [toJson_eq]
  refine ⟨by decide, Json.fitsMembers_iff.mpr fun m hm => ?_⟩
  obtain ⟨f, hf, hvalue⟩ := List.mem_filterMap.mp hm
  obtain ⟨v, hv, rfl⟩ := Option.map_eq_some_iff.mp hvalue
  have hoption {o : Option String} (ho : o.map Json.str = some v) :
      Json.Fits (Json.depthLimit - 1) v := by
    obtain ⟨s, -, rfl⟩ := Option.map_eq_some_iff.mp ho
    trivial
  simp only [fields, List.mem_cons, List.not_mem_nil, or_false] at hf
  rcases hf with rfl | rfl | rfl | rfl | rfl | rfl | rfl | rfl | rfl | rfl | rfl
  · exact Option.some.inj hv ▸ trivial
  · exact Option.some.inj hv ▸ trivial
  · exact Option.some.inj hv ▸ trivial
  · exact Option.some.inj hv ▸ trivial
  · exact hoption hv
  · exact hoption hv
  · exact hoption hv
  · exact Option.some.inj hv ▸ hcounts
  · exact Option.some.inj hv ▸ hselected
  · exact Option.some.inj hv ▸ hlengths
  · exact Option.some.inj hv ▸ hextent

theorem ofJson?_toJson {c : Checkpoint} (h : c.Regular) : ofJson? c.toJson = some c := by
  have hslots := Json.slots_members c.fields c.nodup_fields
  rw [← toJson_eq] at hslots
  have hoptional (o : Option String) :
      (Json.Slot.ofOption (o.map .str)).optional Json.asString? = some o := by
    cases o <;> rfl
  have hrequired {α : Type} (read : Json → Option α) (v : Json) :
      (Json.Slot.ofOption (some v)).required read = read v := rfl
  have hdefault {α : Type} (default : α) (read : Json → Option α) (v : Json) :
      (Json.Slot.ofOption (some v)).withDefault default read = read v := rfl
  unfold ofJson?
  simp only [fields, List.map_cons, List.map_nil] at hslots
  rw [hslots]
  simp only [hrequired, hdefault, hoptional, Json.asString?, RunId.ofText?_text h.run, h.time,
    counts?_toJson, extent?_toJson, lengths?_table h.table, asList?_strings, bind, Option.bind]

/-- What is written of a checkpoint is read again. -/
theorem ofText?_text {c : Checkpoint} (h : c.Regular) : ofText? c.text = some c := by
  rw [ofText?, text, Json.parse?_pretty (fits h)]
  exact ofJson?_toJson h

theorem fromUTF8?_toUTF8 (s : String) : String.fromUTF8? s.toUTF8 = some s :=
  dif_pos s.isValidUTF8

theorem ofBytes?_text {c : Checkpoint} (h : c.Regular) : ofBytes? c.text.toUTF8 = some c := by
  rw [ofBytes?, fromUTF8?_toUTF8, Option.bind_some, ofText?_text h]

/-- Less than all characters of the text. -/
theorem ofText?_of_prefix {c : Checkpoint} (h : c.Regular) {s : String} {x : List Char}
    (hsplit : s.toList ++ x = c.text.toList) (hx : x ≠ []) : ofText? s = none := by
  have hfits := fits h
  rw [toJson_eq] at hfits
  rw [text, Json.pretty, String.toList_ofList, toJson_eq] at hsplit
  rw [ofText?, Json.parse?_of_prefix hfits hsplit hx]
  rfl

/-- Less than all bytes of the text, which may end inside a character. -/
theorem ofBytes?_of_prefix {c : Checkpoint} (h : c.Regular) {b rest : ByteArray}
    (hsplit : b ++ rest = c.text.toUTF8) (hrest : rest ≠ .empty) : ofBytes? b = none := by
  unfold ofBytes? String.fromUTF8?
  split
  · rename_i hvalid
    have hbegins : (String.fromUTF8 b hvalid).toList <+: c.text.toList := by
      refine List.isPrefix_of_utf8Encode_append_eq_utf8Encode rest ?_
      rw [String.utf8Encode_toList, String.utf8Encode_toList]
      exact hsplit
    obtain ⟨x, hx⟩ := hbegins
    have hmore : x ≠ [] := by
      rintro rfl
      rw [List.append_nil] at hx
      have hwhole : b = c.text.toUTF8 :=
        congrArg String.toByteArray (String.toList_inj.mp hx)
      have hsize := congrArg ByteArray.size hsplit
      rw [← hwhole, ByteArray.size_append] at hsize
      exact hrest (ByteArray.size_eq_zero_iff.mp (by omega))
    exact ofText?_of_prefix h hx hmore
  · rfl

end Checkpoint

end Scriptorium.Archive
