import WallPanel.Number.Binary64
import WallPanel.Proofs.Attribution.Accounting
import WallPanel.Proofs.Building.Progress
import WallPanel.Proofs.Statement.Tokens

/-!
# When a document cannot be read

A text without a wall is refused. What else can stop the reading of a text are numbers: a layer
number of too many digits, the orientation of a circle that a routing takes, and the mean offset of
a path that keeps two points. Each of these stops it wherever it is, and nothing else does
(`parseModel_outcome`).

* `Attribution.HasCodes`: all circles and paths of a document have control codes.
* `Attribution.readable_iff_hasCodes`: exactly then all their cuts can be read.
-/

namespace WallPanel

variable {α : Type} [Scalar α]

/-! ## Control codes -/

/-- A number, if there is one, has a nearest integer. -/
def IsCode (x? : Option α) : Prop := ∀ x ∈ x?, Scalar.isFinite (x + 0.5) = true

theorem isCode_iff {x? : Option α} :
    IsCode x? ↔ ∃ code, x?.mapM (m := Except NoInteger) Scalar.roundHalfUp = .ok code := by
  cases x? with
  | none => exact ⟨fun _ => ⟨none, rfl⟩, fun _ => by simp [IsCode]⟩
  | some x =>
    simp only [IsCode, Option.mem_some_iff, forall_eq', Scalar.isFinite, Option.mapM_some,
      Scalar.roundHalfUp, Scalar.floor?]
    cases Scalar.reading (x + 0.5) <;> simp [Reading.isFinite]

/-- The mean offset of the vertices of a path, its control code before rounding. -/
def VertexRun.meanOffset? (r : VertexRun α) : Option α :=
  Scalar.mean? (r.toList.filterMap (·.offset))

theorem CircleCut.isCode_iff {s : Statement α} {d : Except NoInteger (CircleCut α)}
    (h : CircleCut.ofStatement? s = some d) : IsCode (s.number? 4) ↔ ∃ c, d = .ok c := by
  rw [WallPanel.isCode_iff]
  unfold CircleCut.ofStatement? CircleCut.read at h
  split at h
  · obtain rfl := Option.some.inj h
    cases hm : (s.number? 4).mapM (m := Except NoInteger) Scalar.roundHalfUp <;>
      simp [hm, bind, Except.bind, pure, Except.pure]
  · cases h

theorem VertexRun.isCode_iff {r : VertexRun α} {d : Except NoInteger (PathCut α)}
    (h : r.cut? = some d) : IsCode r.meanOffset? ↔ ∃ p, d = .ok p := by
  rw [WallPanel.isCode_iff, meanOffset?]
  unfold cut? at h
  dsimp only at h
  split at h
  · obtain ⟨kind, -, rfl⟩ := Option.map_eq_some_iff.mp h
    unfold cut
    cases hm : (Scalar.mean? (r.toList.filterMap (·.offset))).mapM (m := Except NoInteger)
      Scalar.roundHalfUp <;> simp [hm, bind, Except.bind, pure, Except.pure]
  · cases h

namespace Attribution

variable {ss : List (Statement α)} {j : Nat} {s : Statement α}

/-- All circles and paths of a document have control codes. -/
structure HasCodes (ss : List (Statement α)) : Prop where
  circle : ∀ j, ∀ s ∈ ss, CircleOf ss j s → IsCode (s.number? 4)
  path : ∀ j, ∀ s ∈ ss, BeginsRun ss j s → ¬KeepsFewPoints ss j s →
    IsCode ((path? ss j s).bind VertexRun.meanOffset?)

/-- The cuts of a document can be read if and only if its circles and paths have control codes. -/
theorem readable_iff_hasCodes (hn : Numbered ss) :
    Reading.Readable (Context.start.read ss) ↔ HasCodes ss := by
  simp only [Reading.Readable, cuts_read hn]
  constructor
  · intro h
    have hread (j : Nat) {s : Statement α} (hs : s ∈ ss) {d : Except NoInteger (RoutingSegment α)}
        (hd : cut? ss j s = some d) : ∃ segment, d = .ok segment :=
      h j d (List.mem_filterMap.mpr ⟨s, hs, hd⟩)
    refine ⟨fun j s hs hcircle => ?_, fun j s hs hbegins hkeeps => ?_⟩
    · obtain ⟨d, hd⟩ := Option.isSome_iff_exists.mp (isSome_of_circleOf hcircle)
      have hcut : cut? ss j s = some (d.map .circle) := by
        rw [cut?, if_pos hcircle, hd, Option.map_some]
      obtain ⟨segment, hok⟩ := hread j hs hcut
      refine (CircleCut.isCode_iff hd).mpr ?_
      cases d with
      | error => cases hok
      | ok c => exact ⟨c, rfl⟩
    · obtain ⟨r, d, hr, hd, hcut⟩ := exists_cut? hn hs hbegins hkeeps
      obtain ⟨segment, hok⟩ := hread j hs hcut
      rw [hr, Option.bind_some]
      refine (VertexRun.isCode_iff hd).mpr ?_
      cases d with
      | error => cases hok
      | ok p => exact ⟨p, rfl⟩
  · intro h j c hc
    obtain ⟨s, hs, hcut⟩ := List.mem_filterMap.mp hc
    unfold cut? at hcut
    split at hcut
    · next hcircle =>
      obtain ⟨d, hd, rfl⟩ := Option.map_eq_some_iff.mp hcut
      obtain ⟨circle, rfl⟩ := (CircleCut.isCode_iff hd).mp (h.circle j s hs hcircle)
      exact ⟨.circle circle, rfl⟩
    · split at hcut
      · next hbegins =>
        obtain ⟨r, hr, hcut⟩ := Option.bind_eq_some_iff.mp hcut
        rw [pathCut?_eq] at hcut
        obtain ⟨d, hd, rfl⟩ := Option.map_eq_some_iff.mp hcut
        have hkeeps : ¬KeepsFewPoints ss j s := by
          simp [keepsFewPoints_iff hr, hd]
        have hcode := h.path j s hs hbegins hkeeps
        rw [hr, Option.bind_some] at hcode
        obtain ⟨p, rfl⟩ := (VertexRun.isCode_iff hd).mp hcode
        exact ⟨.path p, rfl⟩
      · cases hcut

end Attribution

/-! ## Documents -/

variable {text : String} {k : Int}

/-- The reading of a text comes to a model or is refused, because the text is blank or because no
statement gives the wall any extent, unless a number stops it. One does exactly where a layer number
has too many digits or a circle or a path has no control code, and the text is not blank. -/
theorem parseModel_outcome (text : String) (k : Int) :
    ((∃ m : WallModel α, parseModel text k = .ok m) ∨
      ∃ f, parseModel (α := α) text k = .error f ∧
        (f = .refused .emptyText ∨ f = .refused .noMembers ∨ f.StopsPass)) ∧
    ((∃ f, parseModel (α := α) text k = .error f ∧ f.StopsPass) ↔
      (trimmed text).isEmpty = false ∧ ¬∃ ss : List (Statement α),
        Statement.readAll 0 (splitStatements text) = .ok ss ∧ Attribution.HasCodes ss) := by
  have hcodes : (∃ ss : List (Statement α), Statement.readAll 0 (splitStatements text) = .ok ss ∧
      Attribution.HasCodes ss) ↔ ∃ b : Builder α, buildAll text k = .ok b := by
    rw [buildAll_isOk_iff]
    refine exists_congr fun ss => and_congr_right fun hss => ?_
    exact (Attribution.readable_iff_hasCodes (Attribution.numbered_of_readAll hss)).symm
  have hrefused (r : Refusal) : ¬(Fault.refused r).StopsPass := by
    generalize hf : Fault.refused r = f
    rintro (_ | e)
    · cases hf
    · cases e <;> cases hf
  rw [hcodes]
  simp only [parseModel, parseDocument]
  cases hblank : (trimmed text).isEmpty with
  | true => simp [hrefused]
  | false =>
    cases hb : buildAll (α := α) text k with
    | error i =>
      have hstops := stopsPass_of_buildAll hb
      simp [hstops]
    | ok b => by_cases hfinite : b.model.bounds.isFinite = true <;> simp [hfinite, hrefused]

/-! ## Layer numbers

A layer number beyond the limit on digits is met before its statement could be recorded as
unhandled: the text of a single panel header comes to neither a model nor a refusal.
-/

/-- A panel header whose layer number is written with `n` ones. -/
def layerOfOnes (n : Nat) : String :=
  String.ofList ('P' :: 'L' :: 'I' :: List.replicate n '1')

theorem trimmed_layerOfOnes (n : Nat) : trimmed (layerOfOnes n) = layerOfOnes n := by
  have htrim : Blank.trim ('P' :: 'L' :: 'I' :: List.replicate n '1') =
      'P' :: 'L' :: 'I' :: List.replicate n '1' := by
    refine Blank.trim_eq_self_iff.mpr ⟨by simp; decide, fun c hc => ?_⟩
    have hc := List.mem_of_getLast? hc
    simp only [List.mem_cons, List.mem_replicate] at hc
    rcases hc with rfl | rfl | rfl | ⟨-, rfl⟩ <;> decide
  rw [trimmed, layerOfOnes, String.toList_ofList, htrim]

theorem splitStatements_layerOfOnes (n : Nat) :
    splitStatements (layerOfOnes n) = [layerOfOnes n] := by
  have hmem : terminator ∉ (layerOfOnes n).toList := by
    simp [layerOfOnes, terminator, List.mem_replicate]
  have htrim := congrArg String.toList (trimmed_layerOfOnes n)
  rw [trimmed, String.toList_ofList] at htrim
  rw [splitStatements, Separated.split_of_notMem hmem, List.map_cons, htrim]
  simp [layerOfOnes]

theorem span_replicate_one (n : Nat) :
    Digit.span (List.replicate n '1') = (List.replicate n 1, []) := by
  induction n with
  | zero => rfl
  | succ n ih =>
    have hone : Digit.value? '1' = some 1 := by decide
    simp [List.replicate_succ, Digit.span, hone, ih]

theorem ofWord_layerOfOnes {n : Nat} (h : Fault.digitLimit < n) :
    Command.ofWord (layerOfOnes n) = .error (.integerDigits n) := by
  have hdigits : Command.layerDigits? (List.replicate n '1') = some (List.replicate n 1) := by
    simp [Command.layerDigits?, span_replicate_one]
  have hside : Command.panelSide? (layerOfOnes n).toList =
      some (.inner, List.replicate n '1') := by
    simp [layerOfOnes, Command.panelSide?]
  have hlookup : Command.fixedWords.lookup (layerOfOnes n) = none := by
    have hshort : ∀ p ∈ Command.fixedWords, p.1.toList.length ≤ 8 := by decide
    rw [List.lookup_eq_none_iff]
    refine fun p hp => bne_iff_ne.mpr fun he => ?_
    have hlength := hshort p hp
    rw [← he] at hlength
    simp only [layerOfOnes, String.toList_ofList, List.length_cons, List.length_replicate]
      at hlength
    simp only [Fault.digitLimit] at h
    omega
  have hne : List.replicate n 1 ≠ [] := by
    simp only [Fault.digitLimit] at h
    simp only [ne_eq, List.replicate_eq_nil_iff]
    omega
  obtain ⟨d, ds, hds⟩ := List.exists_cons_of_ne_nil hne
  have hlength : (d :: ds).length = n := by rw [← hds, List.length_replicate]
  simp only [Command.ofWord, hlookup, hside, Option.bind_some, hdigits, Option.map_some, hds]
  rw [if_pos (by omega), hlength]

/-- A layer number of too many digits stops the reading: there is neither a model nor a refusal. -/
theorem parseModel_layerOfOnes {n : Nat} (h : Fault.digitLimit < n) (k : Int) :
    parseModel (α := α) (layerOfOnes n) k = .error (.integerDigits n) := by
  have hblank : (trimmed (layerOfOnes n)).isEmpty = false := by
    rw [trimmed_layerOfOnes]
    simp [layerOfOnes]
  have hword : (splitCommand (layerOfOnes n)).1 = layerOfOnes n :=
    congrArg Prod.fst (splitCommand_of_unspaced (by simp [layerOfOnes, List.mem_replicate]))
  have hread : Statement.read (α := α) 0 (layerOfOnes n) = .error (.integerDigits n) := by
    simp [Statement.read, hword, ofWord_layerOfOnes h, bind, Except.bind]
  simp [parseModel, parseDocument, hblank, buildAll, splitStatements_layerOfOnes, Builder.feedAll,
    hread, Builder.interruptible, Except.mapError, bind, Except.bind]

theorem parseModel_layer_of_4301_digits :
    ¬((∃ m : WallModel Float, parseModel (layerOfOnes 4301) 1 = .ok m) ∨
      ∃ r, parseModel (α := Float) (layerOfOnes 4301) 1 = .error (.refused r)) := by
  rw [parseModel_layerOfOnes (by decide)]
  simp

end WallPanel
