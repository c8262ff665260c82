import WallPanel.Proofs.Building.Extent
import WallPanel.Proofs.Building.Relabel
import WallPanel.Proofs.Editing.Saving

/-!
# Reading what has been saved

The text that is saved for a model that was read has the statements of the document, in whatever way
they were spaced and ended there. So it can be read, and it gives the same model again, but for the
ids, which go on from where they were, and for the text (`WallModel.reparse_of_parseModel`).
-/

namespace WallPanel.WallModel

variable {α : Type} [Scalar α] {m : WallModel α} {text : String} {k : Int}

/-- A document that can be read has a statement: without one the wall has no extent. -/
theorem splitStatements_ne_nil (hm : parseModel text k = .ok m) : splitStatements text ≠ [] := by
  intro he
  have hfinite := isFinite_of_parseModel hm
  obtain ⟨b, hb, rfl⟩ := buildAll_of_parseModel hm
  rw [buildAll, he] at hb
  obtain rfl : Builder.start [] text k = b := Except.ok.inj hb
  cases hfinite

omit [Scalar α] in
theorem live_eq {texts : List String} (h : m.statements = texts.map some) : m.live = texts := by
  simp [live, h]

/-- What is saved for a model that was read has the statements that were read. -/
theorem splitStatements_payload (hm : parseModel text k = .ok m) :
    splitStatements m.payload = splitStatements text ∧
      serialize m.statements none = some m.payload := by
  have hne := splitStatements_ne_nil hm
  obtain ⟨-, -, hst⟩ := says_of_parseModel hm
  have hspelled := spelled_of_parseModel hm
  rw [← live_eq hst] at hne ⊢
  obtain ⟨t, ht, hpayload, hsplit⟩ := hspelled.text_eq.1 hne
  refine ⟨hpayload ▸ hsplit, ?_⟩
  rw [hspelled.serialize_eq hne, ← hspelled.serialize_eq hne m.source, hpayload]
  exact ht

/-- What is saved for a model that was read can be read, from any first id, and reading the model
again in an editor does so from the next id. Either gives the model that there was, with all its ids
moved as one and with the text that was saved. -/
theorem reparse_of_parseModel (hm : parseModel text k = .ok m) :
    (∀ k', parseModel m.payload k' = .ok (m.relabel (k' - k) m.payload)) ∧
      m.withIds.reparse = .ok (m.relabel (m.nextEditorId - k) m.payload) := by
  obtain ⟨hsplit, hserialize⟩ := splitStatements_payload hm
  obtain ⟨-, hids, -⟩ := says_of_parseModel hm
  have hread : ∀ k', parseModel m.payload k' = .ok (m.relabel (k' - k) m.payload) := by
    intro k'
    have h := parseModel_relabel (α := α) hsplit (splitStatements_ne_nil hm) k (k' - k)
    rw [hm, Int.add_comm, Int.sub_add_cancel] at h
    exact h
  refine ⟨hread, ?_⟩
  rw [withIds_eq hids, reparse, hserialize]
  exact hread m.nextEditorId

set_option maxRecDepth 100000 in
/-- Three entities, of which the routing gets its id last, in a document with blank statements, with
a wide space and without a terminator at its end. -/
theorem reparse_of_parseModel_of_three :
    ∃ (text : String) (m : WallModel Float),
      text = "NR 0,0,9,9 ;\u2003PAF;PP 0,0;; ;PP 5,5\n;\tBOY 1,2,3,4" ∧ parseModel text 3 = .ok m ∧
      m.nextEditorId = 6 ∧ m.payload = "NR 0,0,9,9;\nPAF;\nPP 0,0;\nPP 5,5;\nBOY 1,2,3,4;\n" ∧
      (∀ k', parseModel m.payload k' = .ok (m.relabel (k' - 3) m.payload)) ∧
      m.withIds.reparse = .ok (m.relabel (m.nextEditorId - 3) m.payload) := by
  have heval : (do
      let m ← (parseModel (α := Float)
        "NR 0,0,9,9 ;\u2003PAF;PP 0,0;; ;PP 5,5\n;\tBOY 1,2,3,4" 3).toOption
      if m.nextEditorId = 6 ∧
        m.payload = "NR 0,0,9,9;\nPAF;\nPP 0,0;\nPP 5,5;\nBOY 1,2,3,4;\n"
      then some m else none).isSome = true := by
    decide +kernel
  obtain ⟨m, h⟩ := Option.isSome_iff_exists.mp heval
  simp only [Option.bind_eq_bind, Option.bind_eq_some_iff, Option.ite_none_right_eq_some] at h
  obtain ⟨m, hm, ⟨hnext, hpayload⟩, ⟨⟩⟩ := h
  have hm := eq_ok_of_toOption hm
  exact ⟨_, m, rfl, hm, hnext, hpayload, reparse_of_parseModel hm⟩

end WallPanel.WallModel
