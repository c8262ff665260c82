import WallPanel.Proofs.Statement.Document

/-!
# Splitting what has been written

`splitStatements` undoes `serialize` (`statements_of_serialize`): whatever blanks and terminators the
texts have, the document that is written from them holds the statements of all of them and no other
ones. There is no document only where every text is blank (`serialize_eq_none_iff`), and what is
saved is that document wherever there is one (`text_saveDocument`).
-/

namespace WallPanel

/-- Only a blank text has no line of its own. -/
theorem closeStatement_eq_none_iff {t : String} :
    closeStatement t = none ↔ ∀ c ∈ t.toList, Blank.isBlank c = true := by
  rw [← Blank.trim_eq_nil_iff, ← List.getLast?_eq_none_iff, closeStatement]
  cases (Blank.trim t.toList).getLast? <;> simp

theorem survivingStatements_eq_nil_iff {texts : List (Option String)} :
    survivingStatements texts = [] ↔
      ∀ t, some t ∈ texts → ∀ c ∈ t.toList, Blank.isBlank c = true := by
  rw [survivingStatements, List.filterMap_eq_nil_iff]
  constructor
  · exact fun h t ht => closeStatement_eq_none_iff.mp (h (some t) ht)
  · rintro h (_ | t) ht
    · rfl
    · exact closeStatement_eq_none_iff.mpr (h t ht)

theorem serialize_eq_none_iff {texts : List (Option String)} :
    serialize texts none = none ↔
      ∀ t, some t ∈ texts → ∀ c ∈ t.toList, Blank.isBlank c = true := by
  rw [← survivingStatements_eq_nil_iff]
  unfold serialize
  split <;> simp_all

/-- The text that is saved does not depend on the source text. -/
theorem text_saveDocument (statements : List (Option String)) (source : Option String) :
    (saveDocument statements source).text = serialize statements none := by
  unfold saveDocument serialize
  split <;> rfl

theorem payload_saveDocument (statements : List (Option String)) (source : Option String) :
    (saveDocument statements source).payload = savedText statements source := by
  unfold saveDocument savedText
  split <;> rfl

/-- The statements of a document, written and split again. -/
theorem exists_serialize_splitStatements {text : String} (h : splitStatements text ≠ []) :
    ∃ t, serialize ((splitStatements text).map some) none = some t ∧
      splitStatements t = splitStatements text := by
  have hstatement : ∀ s, some s ∈ (splitStatements text).map some → IsStatement s := by
    intro s hs
    exact isStatement_of_mem (by simpa using hs)
  cases hs : serialize ((splitStatements text).map some) none with
  | none =>
    -- a statement is not blank, so something has been written
    obtain ⟨s, hmem⟩ := List.exists_mem_of_ne_nil _ h
    have hmem' : some s ∈ (splitStatements text).map some := List.mem_map_of_mem hmem
    have hblank := Blank.trim_eq_nil_iff.mpr (serialize_eq_none_iff.mp hs s hmem')
    have hs' := hstatement s hmem'
    exact absurd (hs'.trimmed.symm.trans hblank) hs'.nonempty
  | some t =>
    refine ⟨t, rfl, ?_⟩
    rw [splitStatements_serialize hstatement hs, List.filterMap_map]
    exact List.filterMap_some

/-- Splitting undoes writing. A document that is written from texts has the statements of these
texts, one text after the other, and it is what is saved whatever the source text is; where nothing
is written, every text is blank. So the statements of a document that has any are those of the
document that is written from them, and each is trimmed, not empty and without a terminator. -/
theorem statements_of_serialize (texts : List (Option String)) :
    (∀ t, serialize texts none = some t →
      splitStatements t = (texts.filterMap id).flatMap splitStatements ∧
      ∀ source, (saveDocument texts source).text = some t ∧ savedText texts source = t) ∧
    (serialize texts none = none ↔
      ∀ t, some t ∈ texts → ∀ c ∈ t.toList, Blank.isBlank c = true) ∧
    ∀ text, (∀ s ∈ splitStatements text, IsStatement s) ∧
      (splitStatements text ≠ [] → ∃ t, serialize ((splitStatements text).map some) none = some t ∧
        splitStatements t = splitStatements text) := by
  refine ⟨fun t ht => ⟨?_, fun source => ?_⟩, serialize_eq_none_iff, fun text =>
    ⟨fun s hs => isStatement_of_mem hs, exists_serialize_splitStatements⟩⟩
  · rw [eq_joinLines_of_serialize ht, splitStatements_joinLines]
  · have htext : (saveDocument texts source).text = some t := (text_saveDocument ..).trans ht
    exact ⟨htext, by rw [← payload_saveDocument, SavedDocument.payload, htext]⟩

/-- Texts with blanks, with terminators inside and at the end, and with nothing else. -/
theorem statements_of_serialize_of_five :
    serialize [some " QS 1,2;;", none, some "\t", some "PP 3;PP 4", some " ; "] none =
        some "QS 1,2;;\nPP 3;PP 4;\n;\n" ∧
      splitStatements "QS 1,2;;\nPP 3;PP 4;\n;\n" = ["QS 1,2", "PP 3", "PP 4"] ∧
      ∃ t, serialize ((splitStatements " QS 1,2;;\nPP 3").map some) none = some t ∧
        splitStatements t = splitStatements " QS 1,2;;\nPP 3" := by
  have hwritten : serialize [some " QS 1,2;;", none, some "\t", some "PP 3;PP 4", some " ; "] none =
      some "QS 1,2;;\nPP 3;PP 4;\n;\n" := by decide
  obtain ⟨hstatements, -, hagain⟩ := statements_of_serialize
    [some " QS 1,2;;", none, some "\t", some "PP 3;PP 4", some " ; "]
  exact ⟨hwritten, (hstatements _ hwritten).1.trans (by decide), (hagain _).2 (by decide)⟩

end WallPanel
