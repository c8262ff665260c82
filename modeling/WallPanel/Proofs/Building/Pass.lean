import WallPanel.Model.Parse
import WallPanel.Proofs.Building.Routings
import WallPanel.Proofs.Reading.Document

/-!
# The pass over a document

A model in the making follows the reading of the statements that it has taken in
(`Builder.Follows.feed`, `Builder.Follows.feedAll`). So a model that is read from a text says what
the text says (`says_of_parseModel`). Ids are given out in growing order (`WallModel.HasIds`).
-/

namespace WallPanel

variable {α : Type} [Scalar α]

/-! ## A step of the pass -/

/-- A model in the making says what a reading says, and has open what came last in it. -/
structure Builder.Follows (b : Builder α) (es : List (Placed α)) : Prop where
  frame : b.model.SharesFrame es
  cuts : b.SharesCuts es
  rooted : b.context.Rooted es

namespace Builder

variable {b b' : Builder α} {es : List (Placed α)} {s : Statement α} {r : Role α}

theorem Follows.endPath (h : b.Follows es) (he : b.endPath = .ok b') : b'.Follows es where
  frame := h.frame.congr (endPath_model he)
  cuts := sharesCuts_endPath h.cuts h.rooted he
  rooted := by
    rw [context_endPath he]
    exact ⟨h.rooted.panel, h.rooted.routing, nofun⟩

theorem Follows.closePanel (h : b.Follows es) :
    ({ b with panelOpen := false } : Builder α).Follows es where
  frame := h.frame
  cuts := ⟨h.cuts.routings, h.cuts.unhandled, h.cuts.opened, h.cuts.run, h.cuts.readable⟩
  rooted := ⟨nofun, h.rooted.routing, h.rooted.run⟩

theorem Follows.settle {k : CommandKind} (h : b.Follows es) (hs : b.settle k = .ok b') :
    b'.Follows es := by
  cases k with
  | point => cases hs; exact h
  | curve => cases hs; exact h.closePanel
  | _ => exact h.closePanel.endPath hs

section Interruptible

variable {β : Type} {x : Except Fault β}

omit [Scalar α] in
theorem interruptible_eq_ok_iff {y : β} : b.interruptible x = .ok y ↔ x = .ok y := by
  cases x <;> simp [interruptible, Except.mapError]

omit [Scalar α] in
theorem interruptible_eq_error_iff {i : Interruption} :
    b.interruptible x = .error i ↔ ∃ f, x = .error f ∧ i = ⟨f, b.notes⟩ := by
  cases x <;> simp [interruptible, Except.mapError, eq_comm]

end Interruptible

theorem feed_eq (hf : b.feed s = .ok b') :
    ∃ b₁, b.settle s.command.kind = .ok b₁ ∧ b₁.accept s = .ok b' := by
  obtain ⟨b₁, hs, ha⟩ := bind_eq_ok_iff.mp hf
  exact ⟨b₁, interruptible_eq_ok_iff.mp hs, interruptible_eq_ok_iff.mp ha⟩

/-- A step of the pass reads one statement more. -/
theorem Follows.feed (h : b.Follows es) (hb : Reading.Below es s.index)
    (hf : b.feed s = .ok b') :
    b'.context = b.context.next s ∧
      b'.Follows (es ++ [⟨s, (b.context.settle s.command.kind).role s⟩]) := by
  obtain ⟨b₁, hs, hp⟩ := feed_eq hf
  have h₁ := h.settle hs
  have hctx := context_settle hs
  have hplays := Context.plays_role b₁.context s
  have hctx' := context_place hplays hp
  have hrun : s.command.kind ≠ .point → s.command.kind ≠ .curve → b₁.run = none := fun hk hk' =>
    Option.map_eq_none_iff.mp ((congrArg Context.run hctx).trans (Context.settle_run_of_ne _ hk hk'))
  rw [← hctx]
  refine ⟨?_, sharesFrame_place h₁.frame h₁.rooted hb hplays hp,
    sharesCuts_place h₁.cuts h₁.rooted hb hplays hrun hp, ?_⟩
  · rw [hctx', hctx]
    rfl
  · rw [hctx']
    exact h₁.rooted.after hplays hb fun hk hk' => by simp [context, hrun hk hk']

end Builder

/-! ## The whole pass -/

theorem buildAll_eq_ok {text : String} {k : Int} {b : Builder α} : buildAll text k = .ok b ↔
    ∃ b₁, (Builder.start (splitStatements text) text k).feedAll 0 (splitStatements text) = .ok b₁ ∧
      b₁.finish = .ok b :=
  bind_eq_ok_iff

namespace Builder

variable {b b' : Builder α} {es : List (Placed α)} {s : Statement α} {r : Role α}

theorem below_next (hc : b.context.Rooted es) (hb : Reading.Below es s.index) :
    Reading.Below (es ++ [⟨s, (b.context.settle s.command.kind).role s⟩]) (s.index + 1) := by
  refine (hb.mono (Nat.le_succ _)).concat fun k hk => Nat.lt_succ_of_le ?_
  exact (Context.plays_role _ s).keys_le (hc.settle _) hb k hk

theorem feedAll_cons {i : Nat} {text : String} {texts : List String}
    (hf : b.feedAll i (text :: texts) = .ok b') :
    ∃ s b₁, Statement.read i text = .ok s ∧ b.feed s = .ok b₁ ∧
      b₁.feedAll (i + 1) texts = .ok b' := by
  rw [Builder.feedAll] at hf
  obtain ⟨s, hs, hf⟩ := bind_eq_ok_iff.mp hf
  obtain ⟨b₁, hf', hf⟩ := bind_eq_ok_iff.mp hf
  exact ⟨s, b₁, interruptible_eq_ok_iff.mp hs, hf', hf⟩

/-- The pass over texts reads their statements. -/
theorem Follows.feedAll {i : Nat} {texts : List String} (h : b.Follows es)
    (hb : Reading.Below es i) (hf : b.feedAll i texts = .ok b') :
    ∃ ss, Statement.readAll i texts = .ok ss ∧ b'.Follows (es ++ b.context.read ss) := by
  induction texts generalizing b es i with
  | nil =>
    cases hf
    exact ⟨[], rfl, by simpa [Context.read] using h⟩
  | cons text texts ih =>
    obtain ⟨s, b₁, hs, hf', hf⟩ := feedAll_cons hf
    obtain rfl : s.index = i := Statement.index_read hs
    obtain ⟨hctx, h₁⟩ := h.feed hb hf'
    obtain ⟨ss, hss, h'⟩ := ih h₁ (below_next h.rooted hb) hf
    refine ⟨s :: ss, Statement.readAll_cons.mpr ⟨s, ss, hs, hss, rfl⟩, ?_⟩
    simpa [Context.read, hctx] using h'

theorem finish_eq (hf : b.finish = .ok b') :
    ∃ b₁, b.endPath = .ok b₁ ∧ b' = b₁.closeRouting := by
  obtain ⟨b₁, he, hclose⟩ := bind_eq_ok_iff.mp hf
  exact ⟨b₁, interruptible_eq_ok_iff.mp he, (Except.ok.inj hclose).symm⟩

theorem run_endPath (h : b.endPath = .ok b') : b'.run = none :=
  Option.map_eq_none_iff.mp (congrArg Context.run (context_endPath h))

end Builder

/-- What a model says is what a reading says, with nothing open. -/
structure WallModel.Says (m : WallModel α) (es : List (Placed α)) : Prop where
  frame : m.SharesFrame es
  routings : m.routings.map Routing.anonymous = Reading.routings es none
  unhandled : m.unhandled.Perm (Reading.unhandled es none none)
  readable : ∀ j, ∀ c ∈ Reading.cuts es none j, ∃ segment, c = .ok segment

namespace Builder

variable {b b' : Builder α} {es : List (Placed α)} {s : Statement α} {r : Role α}

/-- At the end of the pass nothing is open. -/
theorem Follows.finish (h : b.Follows es) (hf : b.finish = .ok b') : b'.model.Says es := by
  obtain ⟨b₁, he, rfl⟩ := finish_eq hf
  have h₁ := h.endPath he
  have hrun := run_endPath he
  have hcuts := sharesCuts_closeRouting h₁.cuts h₁.rooted hrun
  have hctx : b₁.closeRouting.context.routing = none ∧ b₁.closeRouting.context.run = none := by
    rw [context_closeRouting, context_endPath he]
    exact ⟨rfl, rfl⟩
  have hu := hcuts.unhandled
  have hr := hcuts.readable
  rw [hctx.1, hctx.2] at hu
  rw [hctx.2] at hr
  exact ⟨h₁.frame.congr (closeRouting_model b₁), by rw [hcuts.routings, hctx.1], hu, hr⟩

theorem follows_start (statements : List String) (source : String) (firstId : Int) :
    (start statements source firstId : Builder α).Follows [] := by
  have hclosed : (start statements source firstId : Builder α).SharesCuts [] := by
    refine ⟨rfl, .refl _, fun r hr => ?_, fun r hr => ?_, fun j c hc => ?_⟩
    · cases hr
    · cases hr
    · cases hc
  exact ⟨⟨rfl, rfl, rfl, rfl, rfl, rfl, rfl, rfl⟩, hclosed, .start⟩

end Builder

/-! ## What the pass keeps -/

/-- What every small step of the pass keeps. -/
structure Builder.Invariant (P : Builder α → Prop) : Prop where
  panel : ∀ b, P b → P { b with panelOpen := false }
  endPath : ∀ b b', P b → b.endPath = .ok b' → P b'
  place : ∀ b b' r, P b → b.place r = .ok b' → P b'
  closeRouting : ∀ b, P b → P b.closeRouting

namespace Builder

variable {P : Builder α → Prop} {b b' : Builder α} {s : Statement α}

theorem Invariant.feed (hP : Invariant P) (h : P b) (hf : b.feed s = .ok b') : P b' := by
  obtain ⟨b₁, hs, hp⟩ := feed_eq hf
  refine hP.place b₁ b' _ ?_ hp
  cases hk : s.command.kind <;> rw [hk] at hs
  case point => cases hs; exact h
  case curve => cases hs; exact hP.panel b h
  all_goals exact hP.endPath _ _ (hP.panel b h) hs

theorem Invariant.feedAll (hP : Invariant P) {i : Nat} {texts : List String} (h : P b)
    (hf : b.feedAll i texts = .ok b') : P b' := by
  induction texts generalizing b i with
  | nil => cases hf; exact h
  | cons text texts ih =>
    obtain ⟨s, b₁, -, hf', hf⟩ := feedAll_cons hf
    exact ih (hP.feed h hf') hf

/-- What every small step keeps holds at the end if it held at the start. -/
theorem Invariant.buildAll (hP : Invariant P) {text : String} {k : Int}
    (h : P (start (splitStatements text) text k)) (hb : buildAll text k = .ok b) : P b := by
  obtain ⟨b₁, hf, hb⟩ := buildAll_eq_ok.mp hb
  obtain ⟨b₂, he, rfl⟩ := finish_eq hb
  exact hP.closeRouting b₂ (hP.endPath b₁ b₂ (hP.feedAll h hf) he)

end Builder

/-! ## Ids -/

/-- Ids that have been given out in growing order. -/
def Issued (ids : List (Option Int)) (next : Int) : Prop :=
  ∃ ns : List Int, ids = ns.map some ∧ ns.Pairwise (· < ·) ∧ ∀ n ∈ ns, n < next

theorem Issued.mono {ids : List (Option Int)} {next next' : Int} (h : Issued ids next)
    (hn : next ≤ next') : Issued ids next' := by
  obtain ⟨ns, he, hp, hl⟩ := h
  exact ⟨ns, he, hp, fun n hn' => Int.lt_of_lt_of_le (hl n hn') hn⟩

theorem Issued.push {ids : List (Option Int)} {next : Int} (h : Issued ids next) :
    Issued (ids ++ [some next]) (next + 1) := by
  obtain ⟨ns, rfl, hp, hl⟩ := h
  refine ⟨ns ++ [next], by simp, ?_, fun n hn => ?_⟩
  · rw [List.pairwise_append]
    exact ⟨hp, List.pairwise_singleton .., by simpa using hl⟩
  · rcases List.mem_append.mp hn with hn | hn
    · exact Int.lt_add_one_of_le (Int.le_of_lt (hl n hn))
    · obtain rfl := List.mem_singleton.mp hn
      exact Int.lt_succ n

/-- The entities of a model have ids, given out in growing order. -/
structure WallModel.HasIds (m : WallModel α) (next : Int) : Prop where
  nailRows : Issued (m.nailRows.map (·.editorId)) next
  drillings : Issued (m.drillings.map (·.editorId)) next
  routings : Issued (m.routings.map (·.editorId)) next

namespace Builder

variable {b b' : Builder α} {es : List (Placed α)} {s : Statement α} {r : Role α}

/-- The ids are given out, and the statements are those of the text. -/
def Keeps (b : Builder α) (statements : List (Option String)) : Prop :=
  b.model.HasIds b.nextId ∧ b.model.statements = statements

variable {statements : List (Option String)}

omit [Scalar α] in
theorem Keeps.closeRouting (h : b.Keeps statements) : b.closeRouting.Keeps statements := by
  obtain ⟨hids, hs⟩ := h
  obtain ⟨-, hb⟩ | ⟨_, -, ⟨-, hb⟩ | ⟨-, hb⟩⟩ := closeRouting_cases b <;> rw [hb]
  · exact ⟨hids, hs⟩
  · exact ⟨⟨hids.nailRows, hids.drillings, hids.routings⟩, hs⟩
  · have hle : b.nextId ≤ b.nextId + 1 := Int.le_add_one (Int.le_refl _)
    refine ⟨⟨hids.nailRows.mono hle, hids.drillings.mono hle, ?_⟩, hs⟩
    simpa using hids.routings.push

theorem Keeps.endPath (h : b.Keeps statements) (he : b.endPath = .ok b') :
    b'.Keeps statements := by
  obtain ⟨-, rfl⟩ | ⟨run, -, ⟨_, _, -, -, rfl⟩ | ⟨-, rfl⟩⟩ := endPath_cases he
  · exact h
  · exact ⟨⟨h.1.nailRows, h.1.drillings, h.1.routings⟩, h.2⟩
  · exact ⟨⟨h.1.nailRows, h.1.drillings, h.1.routings⟩, h.2⟩

theorem Keeps.place (h : b.Keeps statements) (hp : b.place r = .ok b') :
    b'.Keeps statements := by
  have hnext : b.nextId ≤ b.nextId + 1 := Int.le_add_one (Int.le_refl _)
  cases r with
  | nailRow row =>
    cases hp
    exact ⟨⟨by simpa [pushNailRow, extend] using h.1.nailRows.push, h.1.drillings.mono hnext,
      h.1.routings.mono hnext⟩, h.2⟩
  | drilling d =>
    cases hp
    exact ⟨⟨h.1.nailRows.mono hnext, by simpa [pushDrilling, extend] using h.1.drillings.push,
      h.1.routings.mono hnext⟩, h.2⟩
  | header w =>
    cases hp
    exact h.closeRouting
  | foreign u =>
    cases hp
    obtain ⟨hids, hs⟩ := h.closeRouting
    exact ⟨⟨hids.nailRows, hids.drillings, hids.routings⟩, hs⟩
  | circle j d =>
    obtain ⟨d, rfl, rfl⟩ := exists_of_place_circle hp
    exact ⟨⟨h.1.nailRows, h.1.drillings, h.1.routings⟩, h.2⟩
  | member m =>
    cases hp
    cases hk : m.kind <;> simp only [pushMember, extend, hk] <;>
      exact ⟨⟨h.1.nailRows, h.1.drillings, h.1.routings⟩, h.2⟩
  | _ =>
    cases hp
    exact ⟨⟨h.1.nailRows, h.1.drillings, h.1.routings⟩, h.2⟩

theorem keeps_invariant (statements : List (Option String)) :
    Invariant fun b : Builder α => b.Keeps statements where
  panel _ h := h
  endPath _ _ h he := h.endPath he
  place _ _ _ h hp := h.place hp
  closeRouting _ h := h.closeRouting

end Builder

/-! ## A document -/

theorem eq_ok_of_toOption {ε β : Type} {e : Except ε β} {x : β} (h : e.toOption = some x) :
    e = .ok x := by
  cases e <;> simp_all [Except.toOption]

theorem buildAll_of_parseModel {text : String} {k : Int} {m : WallModel α}
    (h : parseModel text k = .ok m) :
    ∃ b, buildAll text k = .ok b ∧ m = { b.model with nextEditorId := b.nextId } := by
  simp only [parseModel, parseDocument] at h
  split at h
  · cases h
  · split at h
    · cases h
    · next b hb =>
      split at h
      · cases h
        exact ⟨b, hb, rfl⟩
      · cases h

/-- A model that is read says what its document says. Its entities have ids, and its statements are
all there. -/
theorem says_of_parseModel {text : String} {k : Int} {m : WallModel α}
    (h : parseModel text k = .ok m) :
    (∃ ss, Statement.readAll 0 (splitStatements text) = .ok ss ∧
      m.Says (Context.start.read ss)) ∧
      m.HasIds m.nextEditorId ∧ m.statements = (splitStatements text).map some := by
  obtain ⟨b, hb, rfl⟩ := buildAll_of_parseModel h
  obtain ⟨b₁, hf, hend⟩ := buildAll_eq_ok.mp hb
  obtain ⟨ss, hss, hfollows⟩ := (Builder.follows_start _ _ k).feedAll (fun _ h => nomatch h) hf
  have hsaid := hfollows.finish hend
  have hkeeps : b.Keeps ((splitStatements text).map some) :=
    (Builder.keeps_invariant _).buildAll
      ⟨⟨⟨[], rfl, .nil, nofun⟩, ⟨[], rfl, .nil, nofun⟩, ⟨[], rfl, .nil, nofun⟩⟩, rfl⟩ hb
  refine ⟨⟨ss, hss, ?_⟩, ⟨hkeeps.1.nailRows, hkeeps.1.drillings, hkeeps.1.routings⟩, hkeeps.2⟩
  have hframe := hsaid.frame
  exact ⟨⟨hframe.wall, hframe.modules, hframe.studs, hframe.blocking, hframe.plates,
    hframe.sheathing, hframe.nailRows, hframe.drillings⟩, hsaid.routings, hsaid.unhandled,
    hsaid.readable⟩

end WallPanel
