import WallPanel.Proofs.Attribution.Document
import WallPanel.Proofs.Editing.Sources
import WallPanel.Proofs.Statement.Plain

/-!
# The parameters of a panel

The header of a panel has numbers and a label. The label is the first token that is no plain number.
The numbers are those of the tokens that are plain numbers, so that no digit of a label counts, but
only where there are six of them. Where there are fewer, all numbers of the body are taken, and some
of these stand in tokens that are no plain numbers (`parameters_of_parseModel`).

* `readings`: the numbers of a body, each with the token that it stands in.
* `SheathingPanel.Parameters`: what a panel has from the body of its header.
-/

namespace WallPanel

variable {α : Type} [Scalar α] {body : String}

/-! ## Where a number stands -/

/-- The tokens of a body that are plain numbers. -/
def plainTokens (body : String) : List String :=
  (tokens body).filter isNumeral

/-- The numbers of a body, each with the token that it stands in. -/
def readings (body : String) : List (String × α) :=
  (tokens body).flatMap fun t => (bodyNumbers t).map (t, ·)

theorem map_snd_readings (body : String) :
    (readings body).map Prod.snd = bodyNumbers (α := α) body := by
  rw [bodyNumbers_eq, readings, List.map_flatMap]
  simp

theorem tokenNumber?_eq_none {t : String} (h : isNumeral t = false) :
    tokenNumber? (α := α) t = none := by
  simpa [tokenNumber?, isNumeral] using h

theorem map_tokenNumber?_plainTokens (body : String) :
    (plainTokens body).map tokenNumber? = (tokenNumbers body).map (some : α → Option α) := by
  rw [plainTokens, tokenNumbers]
  induction tokens body with
  | nil => rfl
  | cons t ts ih =>
    cases ht : isNumeral t with
    | true =>
      obtain ⟨x, hx⟩ := isNumeral_iff (α := α).mp ht
      rw [List.filter_cons_of_pos ht, List.map_cons, ih, List.filterMap_cons_some hx, hx,
        List.map_cons]
    | false =>
      rw [List.filter_cons_of_neg (by simp [ht]), ih,
        List.filterMap_cons_none (tokenNumber?_eq_none ht)]

/-- In the tokens that are plain numbers stand the numbers of these tokens. -/
theorem map_snd_filter_readings (body : String) :
    ((readings body).filter (isNumeral ·.1)).map Prod.snd = tokenNumbers (α := α) body := by
  rw [readings, tokenNumbers]
  induction tokens body with
  | nil => rfl
  | cons t ts ih =>
    rw [List.flatMap_cons, List.filter_append, List.map_append, ih]
    cases ht : isNumeral t with
    | true =>
      obtain ⟨x, hx⟩ := isNumeral_iff (α := α).mp ht
      rw [bodyNumbers_of_tokenNumber? hx, List.filterMap_cons_some hx]
      simp [ht]
    | false =>
      rw [List.filterMap_cons_none (tokenNumber?_eq_none ht)]
      simp [ht]

theorem length_plainTokens (body : String) :
    (plainTokens body).length = (tokenNumbers (α := α) body).length := by
  have h := congrArg List.length (map_tokenNumber?_plainTokens (α := α) body)
  rwa [List.length_map, List.length_map] at h

/-- A body with more numbers than plain tokens has a number in another token. -/
theorem exists_reading_of_length_lt
    (h : (plainTokens body).length < (bodyNumbers (α := α) body).length) :
    ∃ q ∈ readings (α := α) body, isNumeral q.1 = false := by
  by_contra hnone
  simp only [not_exists, not_and, Bool.not_eq_false] at hnone
  -- then no number is lost with the other tokens, and there is one for each plain token
  have hall := map_snd_filter_readings (α := α) body
  rw [List.filter_eq_self.mpr hnone, map_snd_readings] at hall
  rw [hall, ← length_plainTokens] at h
  exact Nat.lt_irrefl _ h

/-! ## Panels -/

/-- What a panel has from the body of its header. -/
structure SheathingPanel.Parameters (p : SheathingPanel α) (body : String) : Prop where
  /-- With six tokens that are plain numbers its numbers are those of such tokens, one of each. -/
  plain : 6 ≤ (plainTokens body).length →
    p.source.map some = (plainTokens body).map tokenNumber? ∧
      p.source = ((readings body).filter (isNumeral ·.1)).map Prod.snd
  /-- With fewer its numbers are all that stand in the body, some of them in other tokens. -/
  mixed : (plainTokens body).length < 6 → p.source = (readings body).map Prod.snd ∧
    ∃ q ∈ readings (α := α) body, isNumeral q.1 = false
  /-- Its label is the first token that is no plain number. -/
  label : p.material = (tokens body).find? (!isNumeral ·)
  /-- All else is one of its numbers. -/
  fields : ∃ rest, p.source =
      p.width :: p.height :: p.thickness :: p.localX :: p.localY :: p.materialIndex :: rest ∧
    p.offset = rest[0]? ∧ p.rotation = Scalar.orZero rest[1]?

/-- A panel has its parameters from the body of the statement that opens it. -/
theorem SheathingPanel.parameters_of_ofStatement? {s : Statement α} {p : SheathingPanel α}
    {side : Side} {module? : Option (ModuleFrame α)} (hn : s.numbers = bodyNumbers s.body)
    (h : ofStatement? s side module? = some p) :
    p.Parameters s.body ∧ p.statementIndex = s.index ∧
      p.x = (ModuleFrame.origin module?).x + p.localX ∧
      p.y = (ModuleFrame.origin module?).y + p.localY := by
  unfold ofStatement? at h
  dsimp only at h
  split at h
  · next width height thickness x y materialIndex rest hnumbers =>
    cases h
    refine ⟨⟨fun hmany => ?_, fun hfew => ?_, rfl, rest, hnumbers, rfl, rfl⟩, rfl, rfl, rfl⟩
    · rw [length_plainTokens (α := α)] at hmany
      rw [if_neg (Nat.not_lt.mpr hmany), map_tokenNumber?_plainTokens, map_snd_filter_readings]
      exact ⟨rfl, rfl⟩
    · rw [length_plainTokens (α := α)] at hfew
      rw [if_pos hfew] at hnumbers ⊢
      rw [map_snd_readings, ← hn]
      -- the header has six numbers at least, which are more than its plain tokens
      refine ⟨rfl, exists_reading_of_length_lt ?_⟩
      rw [length_plainTokens (α := α), ← hn, hnumbers]
      simp only [List.length_cons]
      omega
  · cases h

/-- The panels of a model that was read from a text have their parameters from the bodies of their
headers, and they lie where these say, relative to the module that is open there. -/
theorem parameters_of_parseModel {text : String} {k : Int} {m : WallModel α}
    (hm : parseModel text k = .ok m) :
    ∃ ss, Statement.readAll 0 (splitStatements text) = .ok ss ∧
      ∀ p ∈ m.sheathing, ∃ s ∈ ss, s.index = p.statementIndex ∧ s.opensPanel = true ∧
        p.Parameters s.body ∧
        p.x = (ModuleFrame.origin (Attribution.moduleAt ss s.index)).x + p.localX ∧
        p.y = (ModuleFrame.origin (Attribution.moduleAt ss s.index)).y + p.localY := by
  obtain ⟨ss, hss, hdescribes⟩ := describes_of_parseModel hm
  refine ⟨ss, hss, fun p hp => ?_⟩
  rw [hdescribes.sheathing] at hp
  obtain ⟨s, hs, hpanel⟩ := List.mem_filterMap.mp hp
  obtain ⟨p, hheader, rfl⟩ := Option.map_eq_some_iff.mp hpanel
  obtain ⟨_, _, -, -, hread⟩ := Statement.exists_text hss hs
  obtain ⟨c, -, hs'⟩ := Statement.read_eq_ok_iff.mp hread
  have hnumbers : s.numbers = bodyNumbers s.body := by rw [hs']
  have hopens : s.opensPanel = true :=
    Attribution.isSome_header?_iff.mp (Option.isSome_of_eq_some hheader)
  unfold Attribution.header? at hheader
  split at hheader
  · rw [Option.ite_none_right_eq_some] at hheader
    obtain ⟨hparameters, hindex, hx, hy⟩ :=
      SheathingPanel.parameters_of_ofStatement? hnumbers hheader.2
    exact ⟨s, hs, hindex.symm, hopens, ⟨hparameters.plain, hparameters.mixed, hparameters.label,
      hparameters.fields⟩, hx, hy⟩
  · cases hheader

set_option maxRecDepth 100000 in
/-- A label with a digit does not count beside six plain numbers. -/
theorem parameters_of_labelled_panel :
    ∃ (text : String) (m : WallModel Float) (p : SheathingPanel Float),
      text = "PLI1 9,9,1,0,0,7,OSB3" ∧ parseModel text 1 = .ok m ∧ p ∈ m.sheathing ∧
      p.material = some "OSB3" ∧ p.source.length = 6 ∧ (p.materialIndex == 7.0) = true ∧
      ∃ ss : List (Statement Float), Statement.readAll 0 (splitStatements text) = .ok ss ∧
        ∃ s ∈ ss, s.index = p.statementIndex ∧ p.Parameters s.body := by
  have heval : (do
      let m ← (parseModel (α := Float) "PLI1 9,9,1,0,0,7,OSB3" 1).toOption
      let p ← m.sheathing.head?
      if p.material = some "OSB3" ∧ p.source.length = 6 ∧ (p.materialIndex == 7.0) = true
      then some (m, p) else none).isSome = true := by
    decide +kernel
  obtain ⟨⟨m, p⟩, h⟩ := Option.isSome_iff_exists.mp heval
  simp only [Option.bind_eq_bind, Option.bind_eq_some_iff, Option.ite_none_right_eq_some] at h
  obtain ⟨_, hm, _, hp, ⟨hlabel, hlength, hindex⟩, ⟨⟩⟩ := h
  have hm := eq_ok_of_toOption hm
  have hmem := List.mem_of_head? hp
  obtain ⟨ss, hss, hpanels⟩ := parameters_of_parseModel hm
  obtain ⟨s, hs, hi, -, hparameters, -⟩ := hpanels p hmem
  exact ⟨_, m, p, rfl, hm, hmem, hlabel, hlength, hindex, ss, hss, s, hs, hi, hparameters⟩

set_option maxRecDepth 100000 in
/-- A label with a digit counts where only five tokens are plain numbers: the digit of the label is
then the index of the material. -/
theorem source_of_header_of_five :
    ∃ (text : String) (m : WallModel Float) (p : SheathingPanel Float),
      text = "NR 0,0,9,9;PLI1 9,9,1,0,0,OSB3" ∧ parseModel text 1 = .ok m ∧ p ∈ m.sheathing ∧
      p.material = some "OSB3" ∧ (p.materialIndex == 3.0) = true ∧
      plainTokens "9,9,1,0,0,OSB3" = ["9", "9", "1", "0", "0"] ∧
      p.source.map some ≠ (plainTokens "9,9,1,0,0,OSB3").map tokenNumber? := by
  have heval : (do
      let m ← (parseModel (α := Float) "NR 0,0,9,9;PLI1 9,9,1,0,0,OSB3" 1).toOption
      let p ← m.sheathing.head?
      if p.material = some "OSB3" ∧ (p.materialIndex == 3.0) = true ∧ p.source.length = 6
      then some (m, p) else none).isSome = true := by
    decide +kernel
  obtain ⟨⟨m, p⟩, h⟩ := Option.isSome_iff_exists.mp heval
  simp only [Option.bind_eq_bind, Option.bind_eq_some_iff, Option.ite_none_right_eq_some] at h
  obtain ⟨_, hm, _, hp, ⟨hlabel, hindex, hlength⟩, ⟨⟩⟩ := h
  have hplain : plainTokens "9,9,1,0,0,OSB3" = ["9", "9", "1", "0", "0"] := by
    decide
  refine ⟨_, m, p, rfl, eq_ok_of_toOption hm, List.mem_of_head? hp, hlabel, hindex, hplain,
    fun hsource => ?_⟩
  have hcount := congrArg List.length hsource
  rw [hplain, List.length_map, hlength] at hcount
  cases hcount

end WallPanel
