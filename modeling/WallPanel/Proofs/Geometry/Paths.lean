import Mathlib.Data.List.Chain
import WallPanel.Geometry.Path

/-!
# Connected paths

A path passes through the points of its commands in order, and there is a piece between each two of
them (`Trace.Follows`). Commands without a usable point and unknown motions are passed over, so the
piece before a command starts where the last command that was not passed over put the pen. The first
command with a usable point puts it down, whatever its motion (`PathCommand.usable`).

That holds of any commands that do not lift the pen again (`trace_follows`). It is shown along the
recursion of the pen: `Trace.Runs` is what is left to draw with the pen at a point.
-/

namespace WallPanel

variable {α : Type} [Scalar α]

/-! ## Arcs -/

/-- An arc takes over from what is asked all but its size. -/
theorem Arc.of_solve? {start stop : Point α} {request : ArcRequest α} {a : Arc α}
    (h : Arc.solve? start stop request = some a) : (a.start = start ∧ a.stop = stop) ∧
      a.clockwise = request.clockwise ∧ a.large = request.large ∧ a.flag = request.flag := by
  unfold solve? at h
  split at h
  · simp only [Option.bind_eq_bind, Option.bind_eq_some_iff] at h
    obtain ⟨⟨left, right⟩, -, chosen, -, ⟨⟩⟩ := h
    exact ⟨⟨rfl, rfl⟩, rfl, rfl, rfl⟩
  · cases h

theorem Arc.ends_of_solve? {start stop : Point α} {request : ArcRequest α} {a : Arc α}
    (h : Arc.solve? start stop request = some a) : a.start = start ∧ a.stop = stop :=
  (of_solve? h).1

/-- The samples of an arc end where it stops, exactly. -/
theorem Arc.getLast?_tail_sample (a : Arc α) : a.sample.tail.getLast? = some a.stop := by
  unfold sample
  split
  · rfl
  · exact List.getLast?_concat ..

/-! ## Pieces -/

/-- The commands that a path passes through. Of the commands with usable points the first puts the
pen down, whatever its motion; of the others those with unknown motions are passed over. -/
def PathCommand.usable (cs : List (PathCommand α)) : List (PathCommand α) :=
  match cs.filter (·.point.isFinite) with
  | [] => []
  | c :: cs => c :: cs.filter (·.motion ≠ .other)

/-- What a command draws with the pen at a point: a piece from there to the point of the command. A
line stays a line. An arc is one if and only if it can be solved from there, and otherwise a line
that is marked. -/
structure Segment.Draws (pen : Point α) (c : PathCommand α) (s : Segment α) : Prop where
  start : s.start = pen
  stop : s.stop = c.point
  line : c.motion = .line → s = .line pen c.point false
  arc : c.motion = .arc → ∀ a, s = .arc a ↔ c.request.bind (Arc.solve? pen c.point) = some a
  fallback : c.motion = .arc → c.request.bind (Arc.solve? pen c.point) = none →
    s = .line pen c.point true

namespace Trace

variable {pen : Point α} {c : PathCommand α} {cs : List (PathCommand α)} {t : Trace α}

/-- An arc command draws a piece and ends at its point, solved or not. -/
theorem draws_arcFrom (pen : Point α) (hm : c.motion = .arc) :
    (arcFrom pen c).2.Draws pen c ∧ (arcFrom pen c).1.getLast? = some c.point := by
  have hline : c.motion ≠ .line := by simp [hm]
  unfold arcFrom
  split
  · next a ha =>
    obtain ⟨request, -, hsolve⟩ := Option.bind_eq_some_iff.mp ha
    obtain ⟨hstart, hstop⟩ := Arc.ends_of_solve? hsolve
    refine ⟨⟨hstart, hstop, fun h => absurd h hline, fun _ b => ?_, fun _ hnone => ?_⟩, ?_⟩
    · rw [ha, Option.some.injEq, Segment.arc.injEq]
    · cases ha.symm.trans hnone
    · rw [a.getLast?_tail_sample, hstop]
  · next hnone =>
    refine ⟨⟨rfl, rfl, fun h => absurd h hline, fun _ b => ?_, fun _ _ => rfl⟩, rfl⟩
    simp [hnone]

/-- What commands draw with the pen at a point, one piece for each. -/
inductive Runs : Point α → List (PathCommand α) → Trace α → Prop
  | done (pen : Point α) : Runs pen [] ⟨[], []⟩
  | draw {pen : Point α} {c : PathCommand α} {cs : List (PathCommand α)} {t : Trace α}
      {samples : List (Point α)} {s : Segment α} (hdraws : s.Draws pen c)
      (hlast : samples.getLast? = some c.point) (hruns : Runs c.point cs t) :
      Runs pen (c :: cs) ⟨samples ++ t.samples, s :: t.segments⟩

/-- With the pen down, commands that do not lift it draw one piece each. -/
theorem runs_drawFrom (pen : Point α) (cs : List (PathCommand α))
    (hmoves : ∀ c ∈ cs, c.motion ≠ .move) :
    Runs pen (cs.filter (·.motion ≠ .other)) (drawFrom (some pen) cs) := by
  induction cs generalizing pen with
  | nil => exact .done pen
  | cons c cs ih =>
    obtain ⟨hc, hcs⟩ := List.forall_mem_cons.mp hmoves
    cases hm : c.motion with
    | move => exact absurd hm hc
    | line =>
      have hdraws : (Segment.line pen c.point false).Draws pen c :=
        ⟨rfl, rfl, fun _ => rfl, by simp [hm], by simp [hm]⟩
      rw [List.filter_cons_of_pos (by simp [hm]), drawFrom, hm]
      have hlast : [c.point].getLast? = some c.point := rfl
      exact .draw hdraws hlast (ih c.point hcs)
    | arc =>
      obtain ⟨hdraws, hlast⟩ := draws_arcFrom pen hm
      rw [List.filter_cons_of_pos (by simp [hm]), drawFrom, hm]
      exact .draw hdraws hlast (ih c.point hcs)
    | other =>
      rw [List.filter_cons_of_neg (by simp [hm]), drawFrom, hm]
      exact ih pen hcs

namespace Runs

theorem length (h : Runs pen cs t) : t.segments.length = cs.length := by
  induction h with
  | done => rfl
  | draw _ _ _ ih => simp [ih]

/-- The piece before a command starts at the point of the command before it. -/
theorem draws (h : Runs pen cs t) {i : Nat} {p : Point α} {s : Segment α}
    (hp : (pen :: cs.map (·.point))[i]? = some p) (hc : cs[i]? = some c)
    (hs : t.segments[i]? = some s) : s.Draws p c := by
  induction h generalizing i with
  | done => cases hc
  | draw hdraws _ _ ih =>
    cases i with
    | zero =>
      cases hp
      cases hc
      cases hs
      exact hdraws
    | succ i => exact ih hp hc hs

theorem through (h : Runs pen cs t) : (cs.map (·.point)).Sublist t.samples := by
  induction h with
  | done => exact .slnil
  | draw _ hlast _ ih =>
    obtain ⟨before, rfl⟩ := List.getLast?_eq_some_iff.mp hlast
    rw [List.append_assoc]
    exact (ih.cons_cons _).trans (List.sublist_append_right before _)

theorem last (h : Runs pen cs t) :
    (pen :: t.samples).getLast? = (pen :: cs.map (·.point)).getLast? := by
  induction h with
  | done => rfl
  | draw _ hlast _ ih =>
    obtain ⟨before, rfl⟩ := List.getLast?_eq_some_iff.mp hlast
    rw [List.append_assoc, ← List.cons_append, List.singleton_append, List.getLast?_append, ih,
      List.map_cons, List.getLast?_cons_cons, List.getLast?_cons]
    rfl

/-- Each piece starts where the one before stops, and the first where the pen stands. -/
theorem isChain (h : Runs pen cs t) :
    t.segments.IsChain (fun s u => s.stop = u.start) ∧ ∀ s ∈ t.segments.head?, s.start = pen := by
  induction h with
  | done => simp
  | draw hdraws _ _ ih =>
    refine ⟨List.isChain_cons.mpr ⟨fun u hu => ?_, ih.1⟩, fun u hu => ?_⟩
    · rw [hdraws.stop, ih.2 u hu]
    · obtain rfl := Option.some.inj hu
      exact hdraws.start

theorem samples_eq_nil (h : Runs pen cs t) (hnil : t.segments = []) : t.samples = [] := by
  cases h with
  | done => rfl
  | draw => cases hnil

end Runs

/-- A path follows commands: it has a piece between each two of them, and its samples run from the
first through all of them to the last. -/
structure Follows (t : Trace α) (cs : List (PathCommand α)) : Prop where
  length : t.segments.length + 1 = cs.length
  draws : ∀ i c d s, cs[i]? = some c → cs[i + 1]? = some d → t.segments[i]? = some s →
    s.Draws c.point d
  first : t.samples.head? = cs.head?.map (·.point)
  through : (cs.map (·.point)).Sublist t.samples
  last : t.samples.getLast? = cs.getLast?.map (·.point)

end Trace

/-- Without a usable point nothing is drawn. -/
theorem trace_of_usable_eq_nil {cs : List (PathCommand α)} (h : PathCommand.usable cs = []) :
    trace cs = ⟨[], []⟩ := by
  unfold PathCommand.usable at h
  split at h
  · next hcs =>
    rw [trace, hcs]
    rfl
  · cases h

section Usable

variable {cs : List (PathCommand α)} (h : PathCommand.usable cs ≠ [])
  (hmoves : ∀ c ∈ (PathCommand.usable cs).tail, c.motion ≠ .move)
include h hmoves

/-- A path begins at the first command that it passes through, and runs on from there. -/
theorem exists_runs_of_usable : ∃ (c : PathCommand α) (us : List (PathCommand α)) (t : Trace α),
    PathCommand.usable cs = c :: us ∧ t.Runs c.point us ∧
      trace cs = ⟨c.point :: t.samples, t.segments⟩ := by
  cases hcs : cs.filter (·.point.isFinite) with
  | nil => simp [PathCommand.usable, hcs] at h
  | cons c rest =>
    have husable : PathCommand.usable cs = c :: rest.filter (·.motion ≠ .other) := by
      rw [PathCommand.usable, hcs]
    rw [husable] at hmoves
    refine ⟨c, _, _, husable, Trace.runs_drawFrom c.point rest fun d hd hmove => ?_, ?_⟩
    · exact hmoves d (List.mem_filter.mpr ⟨hd, by simp [hmove]⟩) hmove
    · rw [trace, hcs]
      rfl

/-- A path follows the commands that it passes through, unless one of them lifts the pen. -/
theorem trace_follows : (trace cs).Follows (PathCommand.usable cs) := by
  obtain ⟨c, us, t, husable, hruns, htrace⟩ := exists_runs_of_usable h hmoves
  rw [husable, htrace]
  refine ⟨congrArg (· + 1) hruns.length, fun i d e s hd he hs => ?_, rfl, ?_, ?_⟩
  · refine hruns.draws ?_ he hs
    rw [← List.map_cons, List.getElem?_map, hd]
    rfl
  · exact hruns.through.cons_cons _
  · rw [hruns.last, ← List.map_cons, List.getLast?_map]

end Usable

end WallPanel
