import WallPanel.Number.Binary64
import WallPanel.Proofs.Editing.Redrawing
import WallPanel.Proofs.Editing.Steps
import WallPanel.Routing.ControlCode

/-!
# Control codes of the cuts of an editor

The control code of a cut is stored when the document is read, and it can be found in the lines of
the cut, which are edited. The two are the same as long as the stored code is that of the lines
(`RoutingSegment.Coded`), and so it is in every model that an editor holds
(`WallModel.codes_of_session`): a move changes only numbers that stand before the code.
-/

namespace WallPanel

variable {α : Type}

namespace RoutingSegment

/-- A cut without what is stored of its code. -/
def erased : RoutingSegment α → RoutingSegment α
  | circle c => .circle { c with controlCode := none }
  | path p => .path { p with controlCode := none, offset := none }

/-- A cut without its orientation. -/
def unoriented : RoutingSegment α → RoutingSegment α
  | circle c => .circle { c with orientation := none }
  | path p => .path { p with orientation := none }

end RoutingSegment

variable [Scalar α]

/-! ## Stored codes -/

/-- The numbers of the lines of a cut that are control codes. -/
def RoutingSegment.lineCodes : RoutingSegment α → List α
  | circle c => c.source[4]?.toList
  | path p => p.source.filterMap SourceEntry.code?

/-- The code and the orientation of a circle are the number of its line that is the code. -/
structure CircleCut.Coded (c : CircleCut α) : Prop where
  orientation : c.orientation = c.source[4]?
  rounded : c.orientation.mapM Scalar.roundHalfUp = .ok c.controlCode

/-- The offset of a path is the mean of the codes of its lines, and its code is that rounded. A path
with an orientation has an offset. -/
structure PathCut.Coded (p : PathCut α) : Prop where
  offset : p.offset = Scalar.mean? (p.source.filterMap SourceEntry.code?)
  rounded : p.offset.mapM Scalar.roundHalfUp = .ok p.controlCode
  orientation : p.offset = none → p.orientation = none

/-- The code that is stored of a cut is that of its lines. -/
def RoutingSegment.Coded : RoutingSegment α → Prop
  | circle c => c.Coded
  | path p => p.Coded

/-- A cut has a code, which is found in its lines when what is stored of it is erased, and without
its orientation too. There is none where the lines carry none. -/
structure RoutingSegment.HasCode (segment : RoutingSegment α) (code : Option Int) : Prop where
  stored : segment.controlCode? = .ok code
  found : segment.erased.controlCode? = .ok code
  unoriented : segment.erased.unoriented.controlCode? = .ok code
  none_iff : code = none ↔ segment.lineCodes = []

/-- A code is rounded from a number if there is one. -/
theorem eq_none_iff_of_mapM {x? : Option α} {code : Option Int}
    (h : x?.mapM Scalar.roundHalfUp = .ok code) : code = none ↔ x? = none := by
  cases x? with
  | none => cases h; simp
  | some x =>
    cases hx : Scalar.roundHalfUp x <;> simp [hx, Functor.map, Except.map] at h
    simp [← h]

theorem mean?_eq_none_iff {xs : List α} : Scalar.mean? xs = none ↔ xs = [] := by
  simp [Scalar.mean?]

/-- Where the stored code is that of the lines, it is the code of the cut. -/
theorem RoutingSegment.Coded.exists_code {segment : RoutingSegment α} (h : segment.Coded) :
    ∃ code, segment.HasCode code := by
  cases segment with
  | circle c =>
    obtain ⟨hsource, hrounded⟩ : c.Coded := h
    have hnone := eq_none_iff_of_mapM hrounded
    rw [hsource] at hrounded hnone
    refine ⟨c.controlCode, ?_, ?_, ?_, by simp [hnone, lineCodes]⟩
    · cases hc : c.controlCode <;> simp_all [controlCode?, CircleCut.code?]
    · simpa [controlCode?, CircleCut.code?, erased, hsource] using hrounded
    · simpa [controlCode?, CircleCut.code?, erased, unoriented] using hrounded
  | path p =>
    obtain ⟨hoffset, hrounded, horient⟩ : p.Coded := h
    have hnone := eq_none_iff_of_mapM hrounded
    have horElse : (p.offset <|> p.orientation) = p.offset := by
      cases ho : p.offset with
      | none => simp [horient ho]
      | some x => rfl
    refine ⟨p.controlCode, ?_, ?_, ?_, by rw [hnone, hoffset, mean?_eq_none_iff, lineCodes]⟩
    · cases hc : p.controlCode <;> simp_all [controlCode?, PathCut.code?]
    · simpa [controlCode?, PathCut.code?, erased, ← hoffset, horElse] using hrounded
    · simpa [controlCode?, PathCut.code?, erased, unoriented, ← hoffset] using hrounded

/-! ## Cuts that are read -/

theorem CircleCut.coded_of_ofStatement? {s : Statement α} {c : CircleCut α}
    (h : CircleCut.ofStatement? s = some (.ok c)) : c.Coded := by
  obtain ⟨_, _, _, _, hcode, rfl⟩ := exists_of_ofStatement? h
  exact ⟨rfl, hcode⟩

/-- The offset of a vertex is the code of its line. -/
structure Vertex.Coded (v : Vertex α) : Prop where
  offset : v.offset = v.entry.code?
  orientation : v.offset = none → v.orientation = none

namespace Vertex

variable {s : Statement α} {v : Vertex α}

omit [Scalar α] in
theorem number?_eq_none_of_le {p q : Nat} (hpq : p ≤ q) (h : s.number? p = none) :
    s.number? q = none :=
  List.getElem?_eq_none_iff.mpr ((List.getElem?_eq_none_iff.mp h).trans hpq)

theorem coded_of_ofPoint? {isFirst : Bool} (hword : s.command.word = "PP")
    (h : ofPoint? s isFirst = some v) : v.Coded := by
  simp only [ofPoint?, Option.bind_eq_bind, Option.bind_eq_some_iff] at h
  obtain ⟨x, -, y, -, ⟨⟩⟩ := h
  exact ⟨by simp [SourceEntry.code?, entryOf, hword, Statement.number?],
    number?_eq_none_of_le (by decide)⟩

theorem coded_of_ofCurve? (hword : s.command.word = "KB") (h : ofCurve? s = some v) :
    v.Coded := by
  simp only [ofCurve?, Option.bind_eq_bind, Option.bind_eq_some_iff] at h
  obtain ⟨flag, -, x, -, y, -, radius, -, ⟨⟩⟩ := h
  exact ⟨by simp [SourceEntry.code?, entryOf, hword, Statement.number?],
    number?_eq_none_of_le (by decide)⟩

end Vertex

theorem Context.Plays.coded {c : Context α} {s : Statement α} {j k : Nat} {v : Vertex α}
    (h : c.Plays s (.vertex j k v)) (hc : Command.ofWord s.command.word = .ok s.command) :
    v.Coded := by
  cases h with
  | point kind usable closed opened entry =>
    exact Vertex.coded_of_ofPoint? ((Command.kind_ofWord_iff (by decide) hc).mp kind) entry
  | curve kind usable opened entry =>
    exact Vertex.coded_of_ofCurve? ((Command.kind_ofWord_iff (by decide) hc).mp kind) entry

/-- The path along coded vertices is coded. -/
theorem VertexRun.coded_of_cut? {r : VertexRun α} {p : PathCut α} (hr : ∀ v ∈ r.toList, v.Coded)
    (h : r.cut? = some (.ok p)) : p.Coded := by
  have hcodes : (r.toList.map (·.entry)).filterMap SourceEntry.code? =
      r.toList.filterMap (·.offset) := by
    rw [List.filterMap_map]
    exact List.filterMap_congr fun v hv => (hr v hv).offset.symm
  have horient : Scalar.mean? (r.toList.filterMap (·.offset)) = none →
      Scalar.mean? (r.toList.filterMap (·.orientation)) = none := by
    simp only [mean?_eq_none_iff, List.filterMap_eq_nil_iff]
    exact fun hnone v hv => (hr v hv).orientation (hnone v hv)
  obtain ⟨-, kind, -, hc⟩ := exists_of_cut? h
  obtain ⟨code, hcode, rfl⟩ := exists_of_cut hc
  exact ⟨by rw [hcodes], hcode, horient⟩

/-! ## Cuts that are moved -/

/-- A number that no move changes: it is neither of the coordinates. -/
theorem getElem?_shiftNumber {p : Nat} (hp : 2 ≤ p) (xs : List α) (axis : Axis) (d : α) :
    (shiftNumber xs axis.position d)[p]? = xs[p]? := by
  have hne : axis.position ≠ p := by cases axis <;> simp only [Axis.position] <;> omega
  exact List.getElem?_modify_ne _ _ hne

theorem SourceEntry.code?_shift (e : SourceEntry α) (axis : Axis) (d : α) :
    (e.shift [axis.position] d).code? = e.code? := by
  have hcode : (if e.command = "KB" then 4 else 3) ≥ 2 := by split <;> decide
  exact getElem?_shiftNumber hcode e.numbers axis d

/-- Drawing a path again changes nothing that its code depends on. -/
theorem PathCut.Coded.redrawn {p : PathCut α} (h : p.Coded) : p.redrawn.1.Coded := by
  unfold PathCut.redrawn
  dsimp only
  split <;> exact ⟨h.offset, h.rounded, h.orientation⟩

theorem RoutingSegment.Coded.translate {segment : RoutingSegment α} (h : segment.Coded)
    (axis : Axis) (d : α) : (segment.translate axis d).Coded := by
  cases segment with
  | circle c =>
    obtain ⟨hsource, hrounded⟩ : c.Coded := h
    exact ⟨hsource.trans (getElem?_shiftNumber (by decide) c.source axis d).symm, hrounded⟩
  | path p =>
    obtain ⟨hoffset, hrounded, horient⟩ : p.Coded := h
    have hcodes : (p.source.map (·.shift [axis.position] d)).filterMap SourceEntry.code? =
        p.source.filterMap SourceEntry.code? := by
      rw [List.filterMap_map]
      exact List.filterMap_congr fun e _ => e.code?_shift axis d
    have hmoved : ({ p with source := p.source.map (·.shift [axis.position] d) } :
        PathCut α).Coded := ⟨by rw [hcodes]; exact hoffset, hrounded, horient⟩
    exact hmoved.redrawn

/-! ## The cuts of an editor -/

/-- The codes that are stored of the cuts of an entity are those of their lines. -/
def Entity.Coded : Entity α → Prop
  | routing r => ∀ segment ∈ r.segments, segment.Coded
  | _ => True

theorem Entity.Coded.translate? {E E' : Entity α} {axis : Axis} {d : α} (h : E.Coded)
    (ht : E.translate? axis d = some E') : E'.Coded := by
  cases E with
  | nailRow r => obtain ⟨r', -, rfl⟩ := Option.map_eq_some_iff.mp ht; trivial
  | drilling b => obtain ⟨b', -, rfl⟩ := Option.map_eq_some_iff.mp ht; trivial
  | routing r =>
    obtain ⟨r', hr, rfl⟩ := Option.map_eq_some_iff.mp ht
    unfold Routing.translate? at hr
    split at hr
    · cases hr
    · cases hr
      intro segment hsegment
      obtain ⟨segment, hs, rfl⟩ := List.mem_map.mp hsegment
      exact (h segment hs).translate axis d

namespace WallModel

variable {m : WallModel α} {text : String} {k : Int}

/-- The cuts of a routing that is read are coded. -/
theorem coded_of_mem_cuts {texts : List String} {ss : List (Statement α)}
    (hss : Statement.readAll 0 texts = .ok ss) {j : Nat} {segment : RoutingSegment α}
    (h : .ok segment ∈ Reading.cuts (Context.start.read ss) none j) : segment.Coded := by
  have hsound := Context.sound_read (Statement.sorted_readAll hss)
  obtain ⟨item, hitem, hcut⟩ := List.mem_filterMap.mp h
  cases item with
  | circle d =>
    obtain ⟨p, hp, hr⟩ := List.mem_filterMap.mp hitem
    obtain ⟨c, hplays⟩ := hsound.plays p hp
    have hrole : p.role = .circle j d := by cases hp : p.role <;> simp_all [Role.item?]
    rw [hrole] at hplays
    obtain ⟨c, rfl, rfl⟩ : ∃ c, d = .ok c ∧ segment = .circle c := by
      cases d with
      | error => cases hcut
      | ok c => cases hcut; exact ⟨c, rfl, rfl⟩
    cases hplays with
    | circle kind usable opened entry => exact CircleCut.coded_of_ofStatement? entry
  | run n =>
    simp only [Reading.itemCut?, reduceCtorEq, ↓reduceIte, Option.map_eq_some_iff] at hcut
    obtain ⟨d, hd, hmap⟩ := hcut
    obtain ⟨p, rfl, rfl⟩ : ∃ p, d = .ok p ∧ segment = .path p := by
      cases d with
      | error => cases hmap
      | ok p => cases hmap; exact ⟨p, rfl, rfl⟩
    unfold Reading.cutOf? at hd
    split at hd
    · cases hd
    · next v vs hvs =>
      refine VertexRun.coded_of_cut? (fun u hu => ?_) hd
      change u ∈ v :: vs at hu
      rw [← hvs] at hu
      obtain ⟨q, hq, hr⟩ := List.mem_filterMap.mp hu
      obtain ⟨i, hrole⟩ := Role.vertex?_eq_some.mp hr
      obtain ⟨c, hplays⟩ := hsound.plays q hq
      obtain ⟨-, t, -, -, hread⟩ := Statement.exists_text hss (Context.statement_mem hq)
      exact (hrole ▸ hplays).coded (Statement.ofWord_read hread)

theorem coded_of_parseModel (hm : parseModel text k = .ok m) : ∀ E ∈ m.entities, E.Coded := by
  obtain ⟨⟨ss, hss, hsaid⟩, -, -⟩ := says_of_parseModel hm
  intro E hE
  obtain ⟨r, -, rfl⟩ | ⟨d, -, rfl⟩ | ⟨r, hr, rfl⟩ := entity_cases hE
  · trivial
  · trivial
  · intro segment hsegment
    obtain ⟨w, -, he, -⟩ := hsaid.exists_header hr
    change segment ∈ r.anonymous.segments at hsegment
    rw [he] at hsegment
    obtain ⟨c, hc, hok⟩ := List.mem_filterMap.mp hsegment
    rw [eq_ok_of_toOption hok] at hc
    exact coded_of_mem_cuts hss hc

theorem coded_of_session (hm : parseModel text k = .ok m) (qs : List (EditRequest α)) :
    ∀ E ∈ (m.withIds.session qs).entities, E.Coded := by
  obtain ⟨-, hids, -⟩ := says_of_parseModel hm
  rw [withIds_eq hids]
  exact session_induction (P := fun m => ∀ E ∈ m.entities, E.Coded)
    (fun _ _ hm hs => hs.forall_entities coded_of_parseModel Entity.Coded.translate? hm)
    (coded_of_parseModel hm) qs

/-- In every model that an editor holds, the code of a cut is the one that is found in its lines when
the stored code is erased, and for a path its offset; there is none exactly where the lines carry
none. The orientation does not decide it. -/
theorem codes_of_session (hm : parseModel text k = .ok m) (qs : List (EditRequest α)) :
    ∀ r ∈ (m.withIds.session qs).routings, ∀ segment ∈ r.segments,
      ∃ code, segment.HasCode code := by
  intro r hr segment hsegment
  have hcoded := coded_of_session hm qs (.routing r)
    (List.mem_append_right _ (List.mem_map_of_mem hr))
  exact (hcoded segment hsegment).exists_code

set_option maxRecDepth 100000 in
/-- A path with codes at a curve and at a point, and a circle without one, moved after a nail row is
deleted. -/
theorem codes_of_session_of_curve :
    ∃ (text : String) (m : WallModel Float) (qs : List (EditRequest Float)) (r : Routing Float)
      (p : PathCut Float) (c : CircleCut Float),
      text = "NR 1,2,3,4;PAF;KB 0,0,5,ccw,9,1333,4;PP 10,0,9,1111;PP 10,10;MP 7,7,2" ∧
      parseModel text 1 = .ok m ∧
      qs = [.delete [⟨"nail_row", 1⟩], .translate [⟨"paf", 2⟩] "x" (some 0.25)] ∧
      (m.withIds.session qs).nailRows = [] ∧ r ∈ (m.withIds.session qs).routings ∧
      .path p ∈ r.segments ∧ .circle c ∈ r.segments ∧
      p.controlCode = some 1222 ∧ p.orientation.isSome = true ∧
      (∃ code, (RoutingSegment.path p).HasCode code) ∧
      ∃ code, (RoutingSegment.circle c).HasCode code := by
  have heval : (do
      let m ← (parseModel (α := Float)
        "NR 1,2,3,4;PAF;KB 0,0,5,ccw,9,1333,4;PP 10,0,9,1111;PP 10,10;MP 7,7,2" 1).toOption
      let m' := m.withIds.session
        [.delete [⟨"nail_row", 1⟩], .translate [⟨"paf", 2⟩] "x" (some 0.25)]
      let r ← m'.routings.head?
      let first ← r.segments.head?
      let p ← first.path?
      let last ← r.segments.getLast?
      if m'.nailRows.isEmpty = true ∧ last.path?.isNone ∧ p.controlCode = some 1222 ∧
        p.orientation.isSome = true then some () else none).isSome = true := by
    decide +kernel
  obtain ⟨_, h⟩ := Option.isSome_iff_exists.mp heval
  simp only [Option.bind_eq_bind, Option.bind_eq_some_iff, Option.ite_none_right_eq_some] at h
  obtain ⟨m, hm, r, hr, first, hfirst, p, hp, last, hlast, ⟨hrows, hnone, hcode, horient⟩, -⟩ := h
  have hm := eq_ok_of_toOption hm
  have hr := List.mem_of_head? hr
  obtain rfl := RoutingSegment.path?_eq_some.mp hp
  have hpath := List.mem_of_head? hfirst
  have hcircle := List.mem_of_getLast? hlast
  have hcodes := codes_of_session hm _ r hr
  cases last with
  | circle c =>
    exact ⟨_, m, _, r, p, c, rfl, hm, rfl, List.isEmpty_iff.mp hrows, hr, hpath, hcircle, hcode,
      horient, hcodes _ hpath, hcodes _ hcircle⟩
  | path p => cases hnone

end WallModel

end WallPanel
