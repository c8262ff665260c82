import WallPanel.Proofs.Building.Pass

/-!
# Ids counted from another first one

The pass over a document gives out ids and never reads one, and of the text it takes the statements
only. So what it builds from another first id, and from another text with the same statements, is
the same but for the ids, which are moved as one, and for the text that it keeps.

* `WallModel.relabel`: a model with its ids moved, and with another text.
* `Builder.feed_relabel`, `Builder.feedAll_relabel`, `Builder.finish_relabel`: the pass over a model
  in the making that has been relabelled.
* `parseModel_relabel`: the model of a text with the same statements.
-/

namespace WallPanel

variable {α : Type}

namespace WallModel

/-- The model with all ids moved by `c`, and with another source text. -/
def relabel (m : WallModel α) (c : Int) (source : String) : WallModel α :=
  { m with
    nailRows := m.nailRows.map fun r => { r with editorId := r.editorId.map (· + c) }
    drillings := m.drillings.map fun d => { d with editorId := d.editorId.map (· + c) }
    routings := m.routings.map fun r => { r with editorId := r.editorId.map (· + c) }
    source := some source
    nextEditorId := m.nextEditorId + c }

end WallModel

namespace Builder

/-- A model in the making with its ids moved. The next id of the model itself is set at the end of
the pass only. -/
def relabel (b : Builder α) (c : Int) (source : String) : Builder α :=
  { b with
    model := { b.model.relabel c source with nextEditorId := b.model.nextEditorId }
    nextId := b.nextId + c }

variable {b : Builder α} {c : Int} {source : String}

/-- The next id, when another has been given out before it. -/
theorem next_relabel (n c : Int) : n + c + 1 = n + 1 + c :=
  Int.add_right_comm n c 1

theorem closeRouting_relabel (b : Builder α) (c : Int) (source : String) :
    (b.relabel c source).closeRouting = b.closeRouting.relabel c source := by
  have hactive : (b.relabel c source).activeRouting = b.activeRouting := rfl
  unfold closeRouting
  rw [hactive]
  cases b.activeRouting with
  | none => rfl
  | some routing =>
    dsimp only
    split
    · rfl
    · simp [relabel, WallModel.relabel, next_relabel]

theorem start_relabel (statements : List String) (text : String) (k c : Int) :
    (start statements text k : Builder α).relabel c source = start statements source (k + c) :=
  rfl

/-- What is open does not tell ids. -/
theorem context_relabel (b : Builder α) (c : Int) (source : String) :
    (b.relabel c source).context = b.context := rfl

variable [Scalar α]

theorem endPath_relabel (b : Builder α) (c : Int) (source : String) :
    (b.relabel c source).endPath = b.endPath.map (·.relabel c source) := by
  have hrun : (b.relabel c source).run = b.run := rfl
  have hactive : (b.relabel c source).activeRouting = b.activeRouting := rfl
  unfold endPath
  rw [hrun]
  cases b.run with
  | none => rfl
  | some run =>
    dsimp only
    rw [hactive]
    cases b.activeRouting with
    | none => rfl
    | some routing =>
      dsimp only
      split
      · cases PathKind.of? (closePath (dedupe run.trace.samples)).1.length
            (closePath (dedupe run.trace.samples)).2 with
        | none => rfl
        | some kind =>
          dsimp only
          cases run.cut kind (closePath (dedupe run.trace.samples)).1 run.trace <;> rfl
      · rfl

theorem settle_relabel (b : Builder α) (c : Int) (source : String) (kind : CommandKind) :
    (b.relabel c source).settle kind = (b.settle kind).map (·.relabel c source) := by
  cases kind with
  | point => rfl
  | curve => rfl
  | _ => exact endPath_relabel { b with panelOpen := false } c source

theorem pushNailRow_relabel (b : Builder α) (c : Int) (source : String) (r : NailRow α) :
    (b.relabel c source).pushNailRow r = (b.pushNailRow r).relabel c source := by
  simp [pushNailRow, extend, relabel, WallModel.relabel, next_relabel]

theorem pushDrilling_relabel (b : Builder α) (c : Int) (source : String) (d : Drilling α) :
    (b.relabel c source).pushDrilling d = (b.pushDrilling d).relabel c source := by
  simp [pushDrilling, extend, relabel, WallModel.relabel, next_relabel]

theorem pushMember_relabel (b : Builder α) (c : Int) (source : String) (m : FrameMember α) :
    (b.relabel c source).pushMember m = (b.pushMember m).relabel c source := by
  cases hk : m.kind <;> simp only [pushMember, hk] <;> rfl

theorem place_relabel (b : Builder α) (c : Int) (source : String) (r : Role α) :
    (b.relabel c source).place r = (b.place r).map (·.relabel c source) := by
  cases r with
  | member m => exact congrArg Except.ok (pushMember_relabel b c source m)
  | nailRow r => exact congrArg Except.ok (pushNailRow_relabel b c source r)
  | drilling d => exact congrArg Except.ok (pushDrilling_relabel b c source d)
  | header w =>
    simp only [place, openRouting, closeRouting_relabel]
    rfl
  | foreign u =>
    simp only [place, closeRouting_relabel]
    rfl
  | circle _ d => cases d <;> rfl
  | _ => rfl

/-! ## The pass -/

omit [Scalar α] in
theorem interruptible_map {β γ : Type} (b : Builder α) (r : Except Fault β) (f : β → γ) :
    b.interruptible (r.map f) = (b.interruptible r).map f := by
  cases r <;> rfl

theorem feed_relabel (b : Builder α) (c : Int) (source : String) (s : Statement α) :
    (b.relabel c source).feed s = (b.feed s).map (·.relabel c source) := by
  have hstop {β : Type} (b : Builder α) (r : Except Fault β) :
      (b.relabel c source).interruptible r = b.interruptible r := rfl
  rw [feed, feed, settle_relabel, interruptible_map, hstop]
  cases b.interruptible (b.settle s.command.kind) with
  | error => rfl
  | ok b₁ =>
    show (b₁.relabel c source).interruptible ((b₁.relabel c source).accept s) =
      (b₁.interruptible (b₁.accept s)).map (·.relabel c source)
    rw [accept, accept, context_relabel, place_relabel, interruptible_map, hstop]

theorem feedAll_relabel (b : Builder α) (c : Int) (source : String) (i : Nat)
    (texts : List String) : (b.relabel c source).feedAll i texts =
      (b.feedAll i texts).map (·.relabel c source) := by
  induction texts generalizing b i with
  | nil => rfl
  | cons text texts ih =>
    have hstop : (b.relabel c source).interruptible (Statement.read (α := α) i text) =
      b.interruptible (Statement.read i text) := rfl
    rw [feedAll, feedAll, hstop]
    cases b.interruptible (Statement.read (α := α) i text) with
    | error => rfl
    | ok s =>
      show ((b.relabel c source).feed s).bind (·.feedAll (i + 1) texts) =
        ((b.feed s).bind (·.feedAll (i + 1) texts)).map _
      rw [feed_relabel]
      cases b.feed s with
      | error => rfl
      | ok b₁ => exact ih b₁ (i + 1)

theorem finish_relabel (b : Builder α) (c : Int) (source : String) :
    (b.relabel c source).finish = b.finish.map (·.relabel c source) := by
  have hstop : (b.relabel c source).interruptible b.endPath = b.interruptible b.endPath := rfl
  rw [finish, finish, endPath_relabel, interruptible_map, hstop]
  cases b.interruptible b.endPath with
  | error => rfl
  | ok b₁ => exact congrArg Except.ok (closeRouting_relabel b₁ c source)

end Builder

/-! ## A document -/

variable [Scalar α]

theorem buildAll_relabel {text text' : String} (h : splitStatements text' = splitStatements text)
    (k c : Int) : (buildAll text' (k + c) : Except Interruption (Builder α)) =
      (buildAll text k).map (·.relabel c text') := by
  rw [buildAll, buildAll, h, ← Builder.start_relabel (splitStatements text) text k c,
    Builder.feedAll_relabel]
  cases (Builder.start (splitStatements text) text k : Builder α).feedAll 0 (splitStatements text)
    with
  | error => rfl
  | ok b => exact b.finish_relabel c text'

/-- A text with a statement in it is not blank. -/
theorem not_isEmpty_trimmed {text : String} (h : splitStatements text ≠ []) :
    (trimmed text).isEmpty = false := by
  by_contra hempty
  have htrim : Blank.trim text.toList = [] := by
    simpa [trimmed, String.isEmpty_iff] using hempty
  have hterminator : terminator ∉ text.toList := fun hc =>
    absurd (Blank.trim_eq_nil_iff.mp htrim _ hc) (by decide)
  exact h (by simp [splitStatements, Separated.split_of_notMem hterminator, htrim])

/-- What is read of a text with the same statements, from another first id: the same model but for
its ids and for the text, or the same fault. -/
theorem parseModel_relabel {text text' : String} (h : splitStatements text' = splitStatements text)
    (hne : splitStatements text ≠ []) (k c : Int) :
    (parseModel text' (k + c) : Except Fault (WallModel α)) =
      (parseModel text k).map (·.relabel c text') := by
  rw [parseModel, parseModel, parseDocument, parseDocument, not_isEmpty_trimmed hne,
    not_isEmpty_trimmed (h ▸ hne), buildAll_relabel h]
  cases buildAll (α := α) text k with
  | error => rfl
  | ok b =>
    have hbounds : (b.relabel c text').model.bounds = b.model.bounds := rfl
    simp only [Except.map, hbounds, Bool.false_eq_true, if_false]
    split <;> rfl

end WallPanel
