import Mathlib.Data.List.Basic
import Mathlib.Tactic.IntervalCases
import WallPanel.Proofs.Statement.Tokens
import WallPanel.Text.FilePath

/-!
# Names of modified copies

A path that is written is read back as itself (`FilePath.parse_render`), since no part of it holds a
slash, is empty or is a dot. A name is cut before its last dot unless that stands at an end
(`FilePath.cutSuffix_cases`), so what is put in front of the suffix does not move the cut
(`FilePath.cutSuffix_append`). Hence the path of a modified copy, made in either of two ways, is
another file in the directory of the original (`modifiedName_beside`), and the checks of a new last
part let it pass for every name (`tryModifiedName_eq`).
-/

namespace WallPanel

/-! ## Pieces of a text -/

namespace Separated

/-- Separators in front of a text are empty pieces. -/
theorem split_replicate (sep : Char) (n : Nat) (cs : List Char) :
    split sep (List.replicate n sep ++ cs) = List.replicate n [] ++ split sep cs := by
  induction n with
  | zero => rfl
  | succ n ih => rw [List.replicate_succ, List.cons_append, split, if_pos rfl, ih]; rfl

/-- What is put behind a text goes to its last piece. -/
theorem join_append (sep : Char) (init : List (List Char)) (last cs : List Char) :
    join sep (init ++ [last]) ++ cs = join sep (init ++ [last ++ cs]) := by
  induction init with
  | nil => rfl
  | cons piece init ih =>
    have hne (p : List Char) : init ++ [p] ≠ [] := by simp
    obtain ⟨next, pieces, h⟩ := List.exists_cons_of_ne_nil (hne last)
    obtain ⟨next', pieces', h'⟩ := List.exists_cons_of_ne_nil (hne (last ++ cs))
    rw [h, h'] at ih
    rw [List.cons_append, List.cons_append, h, h', join, join, ← ih, List.append_assoc,
      List.cons_append]

end Separated

namespace FilePath

/-! ## Paths as they are written -/

/-- Whether a text can be a part of a path. -/
structure IsName (part : List Char) : Prop where
  nonempty : part ≠ []
  named : part ≠ ['.']
  whole : '/' ∉ part

/-- Whether a path is one that a text can have. -/
structure IsNormal (p : FilePath) : Prop where
  slashes : p.slashes ≤ 2
  parts : ∀ part ∈ p.parts, IsName part

variable {p : FilePath} {part : List Char}

theorem isNormal_parse (text : List Char) : (parse text).IsNormal where
  slashes := by
    simp only [parse]
    split <;> omega
  parts part hpart := by
    simp only [parse, List.mem_filter, Bool.and_eq_true, decide_eq_true_eq] at hpart
    exact ⟨hpart.2.1, hpart.2.2, Separated.notMem_of_mem_split hpart.1⟩

theorem IsNormal.withName (hp : p.IsNormal) (h : IsName part) : (p.withName part).IsNormal where
  slashes := hp.slashes
  parts q hq := by
    rcases List.mem_append.mp hq with hq | hq
    · exact hp.parts q (List.dropLast_subset _ hq)
    · exact List.mem_singleton.mp hq ▸ h

theorem IsNormal.isName_name (hp : p.IsNormal) (h : p.name ≠ []) : IsName p.name := by
  unfold name at h ⊢
  cases hlast : p.parts.getLast? with
  | none => simp [hlast] at h
  | some part => exact hp.parts part (List.mem_of_getLast? hlast)

/-- A path with parts begins with its slashes and goes on with another character. -/
theorem takeWhile_slashes (n : Nat) (h : IsName part) (rest : List (List Char)) :
    ((List.replicate n '/' ++ Separated.join '/' (part :: rest)).takeWhile (· == '/')).length =
      n := by
  obtain ⟨c, cs, rfl⟩ := List.exists_cons_of_ne_nil h.nonempty
  have hc : c ≠ '/' := fun hc => h.whole (hc ▸ List.mem_cons_self)
  rw [Separated.join_cons_cons, List.takeWhile_append_of_pos (by simp [List.mem_replicate]),
    List.takeWhile_cons_of_neg (by simpa using hc)]
  simp

theorem filter_parts {parts : List (List Char)} (h : ∀ part ∈ parts, IsName part) :
    parts.filter (fun part => part ≠ [] && part ≠ ['.']) = parts :=
  List.filter_eq_self.mpr fun part hpart => by
    simpa using ⟨(h part hpart).nonempty, (h part hpart).named⟩

/-- A text with slashes in front of parts is the path of these. -/
theorem parse_of_parts {n : Nat} (hn : n ≤ 2) {parts : List (List Char)} (hne : parts ≠ [])
    (h : ∀ part ∈ parts, IsName part) :
    parse (List.replicate n '/' ++ Separated.join '/' parts) = ⟨n, parts⟩ := by
  obtain ⟨part, rest, rfl⟩ := List.exists_cons_of_ne_nil hne
  have hslashes := takeWhile_slashes n (h part List.mem_cons_self) rest
  have hclip : (if n = 2 then 2 else min n 1) = n := by
    split <;> omega
  have hparts : (List.replicate n [] ++ part :: rest).filter
      (fun part => part ≠ [] && part ≠ ['.']) = part :: rest := by
    rw [List.filter_append, filter_parts h]
    simp
  simp only [parse, hslashes, hclip, Separated.split_replicate,
    Separated.split_join hne fun q hq => (h q hq).whole, hparts]

theorem render_of_parts (n : Nat) {parts : List (List Char)} (hne : parts ≠ [])
    (h : ∀ part ∈ parts, IsName part) :
    render ⟨n, parts⟩ = List.replicate n '/' ++ Separated.join '/' parts := by
  have htext : List.replicate n '/' ++ Separated.join '/' parts ≠ [] := by
    obtain ⟨part, rest, rfl⟩ := List.exists_cons_of_ne_nil hne
    obtain ⟨c, cs, rfl⟩ := List.exists_cons_of_ne_nil (h part List.mem_cons_self).nonempty
    simp [Separated.join_cons_cons]
  unfold render
  split
  · next hnil => exact absurd hnil htext
  · rfl

theorem render_ne_nil (p : FilePath) : p.render ≠ [] := by
  unfold render
  split
  · exact List.cons_ne_nil _ _
  · next h => exact h

/-- A path that is written is read back as itself. -/
theorem parse_render (hp : p.IsNormal) : parse p.render = p := by
  obtain ⟨n, parts⟩ := p
  by_cases hne : parts = []
  · subst hne
    have hn : n ≤ 2 := hp.slashes
    interval_cases n <;> decide
  · rw [render_of_parts n hne hp.parts]
    exact parse_of_parts hp.slashes hne hp.parts

/-- What can be a part of a path passes for one. -/
theorem isPart_of_isName (h : IsName part) : isPart part = true := by
  have hparse := parse_of_parts (Nat.zero_le 2) (List.cons_ne_nil part [])
    fun q hq => List.mem_singleton.mp hq ▸ h
  have hlast : part.getLast? ≠ some '/' := fun hlast => h.whole (List.mem_of_getLast? hlast)
  rw [List.replicate_zero, List.nil_append, Separated.join] at hparse
  simpa [isPart, hparse, hlast] using h.nonempty

/-! ## Suffixes -/

/-- A name is cut before its last dot, if something stands on both sides of it. -/
theorem cutSuffix_append (stem : List Char) {ext : List Char} (hext : '.' ∉ ext) :
    cutSuffix (stem ++ '.' :: ext) =
      if stem.isEmpty || ext.isEmpty then (stem ++ '.' :: ext, []) else (stem, '.' :: ext) := by
  have hpos : ∀ c ∈ ext.reverse, decide (c ≠ '.') = true := fun c hc =>
    decide_eq_true fun he => hext (he ▸ List.mem_reverse.mp hc)
  have hrev : (stem ++ '.' :: ext).reverse = ext.reverse ++ '.' :: stem.reverse := by simp
  unfold cutSuffix
  rw [hrev, List.takeWhile_append_of_pos hpos, List.dropWhile_append_of_pos hpos,
    List.takeWhile_cons_of_neg (by simp), List.dropWhile_cons_of_neg (by simp)]
  simp

theorem cutSuffix_of_notMem {name : List Char} (h : '.' ∉ name) : cutSuffix name = (name, []) := by
  have hpos : ∀ c ∈ name.reverse, decide (c ≠ '.') = true := fun c hc =>
    decide_eq_true fun he => h (he ▸ List.mem_reverse.mp hc)
  have hdrop : name.reverse.dropWhile (· ≠ '.') = [] := List.dropWhile_eq_nil_iff.mpr hpos
  unfold cutSuffix
  rw [hdrop]
  rfl

/-- A name has no suffix, or it is cut before its last dot. -/
theorem cutSuffix_cases (name : List Char) : cutSuffix name = (name, []) ∨
    ∃ stem ext, stem ≠ [] ∧ ext ≠ [] ∧ '.' ∉ ext ∧ name = stem ++ '.' :: ext ∧
      cutSuffix name = (stem, '.' :: ext) := by
  by_cases hdot : '.' ∈ name
  · obtain ⟨after, before, hsplit, hafter⟩ :=
      List.eq_append_cons_of_mem (List.mem_reverse.mpr hdot)
    have hname : name = before.reverse ++ '.' :: after.reverse := by
      rw [← List.reverse_reverse name, hsplit]
      simp
    have hext : '.' ∉ after.reverse := by simpa using hafter
    have hcut := cutSuffix_append before.reverse hext
    rw [← hname] at hcut
    split at hcut
    · exact .inl hcut
    · next hends =>
      simp only [Bool.or_eq_true, List.isEmpty_iff, not_or] at hends
      exact .inr ⟨_, _, hends.1, hends.2, hext, hname, hcut⟩
  · exact .inl (cutSuffix_of_notMem hdot)

/-! ## Copies -/

/-- Whether a path is that of a copy beside another: in the same directory, of another name, and
with the same suffix. A copy of a file without a suffix gets one. -/
structure IsCopyOf (q p : FilePath) : Prop where
  parent : q.parent = p.parent
  name : q.name ≠ p.name
  suffix : q.suffix = if p.suffix.isEmpty then ".wup".toList else p.suffix

@[simp]
theorem name_withName (p : FilePath) (part : List Char) : (p.withName part).name = part := by
  simp [withName, FilePath.name]

@[simp]
theorem parent_withName (p : FilePath) (part : List Char) :
    (p.withName part).parent = p.parent := by
  simp [withName, parent]

/-- A longer last part with the suffix of the name, or with one where there was none, makes a
copy. -/
theorem isCopyOf_withName (stem ext : List Char) (hlonger : p.name.length < part.length)
    (hpart : part = stem ++ '.' :: ext) (hstem : stem ≠ []) (hext : ext ≠ []) (hdot : '.' ∉ ext)
    (hsuffix : '.' :: ext = if p.suffix.isEmpty then ".wup".toList else p.suffix) :
    (p.withName part).IsCopyOf p where
  parent := parent_withName p part
  name := by
    rw [name_withName]
    rintro rfl
    exact Nat.lt_irrefl _ hlonger
  suffix := by
    rw [suffix, name_withName, hpart, cutSuffix_append stem hdot,
      if_neg (by simpa using ⟨hstem, hext⟩), hsuffix]

/-- What a name gets in front of its suffix. -/
def mark : List Char := "-modified".toList

theorem isName_mark : IsName mark := ⟨by decide, by decide, by decide⟩

theorem IsName.append {cs : List Char} (h : IsName part) (hcs : IsName cs) :
    IsName (part ++ cs) where
  nonempty := by simp [h.nonempty]
  named he := by
    have hpart := List.length_pos_iff.mpr h.nonempty
    have hlen := List.length_pos_iff.mpr hcs.nonempty
    have hone := congrArg List.length he
    simp only [List.length_append, List.length_singleton] at hone
    omega
  whole := by simpa using ⟨h.whole, hcs.whole⟩

/-- A name with a mark in front of its suffix can be a part of a path. -/
theorem isName_marked (hp : p.IsNormal) (h : p.suffix ≠ []) :
    IsName (p.stem ++ mark ++ p.suffix) := by
  obtain hcut | ⟨stem, ext, hstem, hext, -, hname, hcut⟩ := cutSuffix_cases p.name
  · exact absurd (congrArg Prod.snd hcut) h
  · have hs : p.suffix = '.' :: ext := congrArg Prod.snd hcut
    have ht : p.stem = stem := congrArg Prod.fst hcut
    have hne : p.name ≠ [] := by simp [hname]
    have hwhole := (hp.isName_name hne).whole
    rw [hname, List.mem_append, not_or] at hwhole
    have hsuffix : IsName ('.' :: ext) := ⟨List.cons_ne_nil _ _, by simpa using hext, hwhole.2⟩
    have hmarked := isName_mark.append hsuffix
    rw [hs, ht, List.append_assoc]
    refine ⟨by simp [hstem], fun he => ?_, ?_⟩
    · have hone := congrArg List.length he
      have hlen := List.length_pos_iff.mpr hstem
      have hlen' := List.length_pos_iff.mpr hmarked.nonempty
      simp only [List.length_append, List.length_singleton] at hone hlen'
      omega
    · rw [List.mem_append, not_or]
      exact ⟨hwhole.1, hmarked.whole⟩

/-- A name with a suffix gets the mark in front of it, and that makes a copy. -/
theorem isCopyOf_marked (h : p.suffix ≠ []) :
    (p.withName (p.stem ++ mark ++ p.suffix)).IsCopyOf p := by
  obtain hcut | ⟨stem, ext, hstem, hext, hdot, hname, hcut⟩ := cutSuffix_cases p.name
  · exact absurd (congrArg Prod.snd hcut) h
  · have hs : p.suffix = '.' :: ext := congrArg Prod.snd hcut
    have ht : p.stem = stem := congrArg Prod.fst hcut
    refine isCopyOf_withName (stem ++ mark) ext ?_ (by rw [hs, ht]) (by simp [hstem]) hext hdot
      (by simp [hs])
    have hlen := List.length_pos_iff.mpr isName_mark.nonempty
    simp only [hs, ht, hname, List.length_append]
    omega

/-- What is put behind the text of a path goes to its last part. Where there is none it becomes one,
behind a dot if the text of the path is that. -/
theorem exists_render_append (hp : p.IsNormal) {cs : List Char} (hcs : IsName cs) :
    ∃ part, p.render ++ cs = (p.withName (part ++ cs)).render ∧ IsName (part ++ cs) ∧
      p.name.length ≤ part.length := by
  obtain ⟨n, parts⟩ := p
  rcases List.eq_nil_or_concat parts with rfl | ⟨init, last, rfl⟩
  · have hempty : (⟨n, []⟩ : FilePath).name = [] := rfl
    cases n with
    | zero =>
      have hdot : IsName (['.'] ++ cs) := by
        refine ⟨by simp, fun he => hcs.nonempty (by simpa using he), ?_⟩
        simpa using hcs.whole
      refine ⟨['.'], ?_, hdot, by simp [hempty]⟩
      rw [withName, List.dropLast_nil, List.nil_append, render_of_parts 0 (List.cons_ne_nil _ [])
        fun q hq => List.mem_singleton.mp hq ▸ hdot]
      rfl
    | succ n =>
      refine ⟨[], ?_, hcs, by simp [hempty]⟩
      rw [withName, List.dropLast_nil, List.nil_append, List.nil_append,
        render_of_parts (n + 1) (List.cons_ne_nil cs []) fun q hq => List.mem_singleton.mp hq ▸ hcs]
      simp [render, Separated.join, List.replicate_succ]
  · rw [List.concat_eq_append] at hp ⊢
    have hlast : IsName last := hp.parts last (by simp)
    have hname : (⟨n, init ++ [last]⟩ : FilePath).name = last := by simp [FilePath.name]
    refine ⟨last, ?_, hlast.append hcs, by rw [hname]⟩
    have hparts : ∀ q ∈ init ++ [last ++ cs], IsName q := by
      simpa [withName] using (hp.withName (hlast.append hcs)).parts
    rw [render_of_parts n (by simp) hp.parts, withName, List.dropLast_concat,
      render_of_parts n (by simp) hparts, List.append_assoc, Separated.join_append]

/-- A path without a suffix gets the mark and a suffix behind it, and that makes a copy. -/
theorem exists_isCopyOf_of_suffix_eq_nil (hp : p.IsNormal) (h : p.suffix = []) :
    ∃ part, p.render ++ "-modified.wup".toList = (p.withName part).render ∧ IsName part ∧
      (p.withName part).IsCopyOf p := by
  have hend : IsName "-modified.wup".toList := ⟨by decide, by decide, by decide⟩
  obtain ⟨part, hrender, hpart, hlen⟩ := exists_render_append hp hend
  refine ⟨_, hrender, hpart, isCopyOf_withName (part ++ mark) "wup".toList ?_ ?_
    (by simp [isName_mark.nonempty]) (by decide) (by decide) (by rw [h]; decide)⟩
  · rw [List.length_append]
    exact Nat.lt_of_le_of_lt hlen (Nat.lt_add_of_pos_right (by decide))
  · rw [List.append_assoc]
    rfl

end FilePath

open FilePath

/-- The checks of a new last part let the name of a modified copy pass, whatever the name of the
original is. -/
theorem tryModifiedName_eq (name : String) : tryModifiedName name = .ok (modifiedName name) := by
  unfold tryModifiedName modifiedName
  by_cases hempty : name.isEmpty
  · rw [if_pos hempty, if_pos hempty]
  rw [if_neg hempty, if_neg hempty]
  by_cases hsuffix : (parse name.toList).suffix.isEmpty
  · simp [hsuffix]
  have hne : (parse name.toList).suffix ≠ [] := by simpa using hsuffix
  have hpart : isPart ((parse name.toList).stem ++ "-modified".toList ++
      (parse name.toList).suffix) = true :=
    isPart_of_isName (isName_marked (isNormal_parse name.toList) hne)
  have hname : (parse name.toList).name ≠ [] := fun hnil => hne (by rw [suffix, hnil]; rfl)
  rw [if_neg hsuffix, if_neg hsuffix, tryWithName, if_neg (by simpa using hname), if_pos hpart]
  rfl

/-- Either way the name of a modified copy is made, it is that of a copy beside the original. -/
theorem exists_modifiedName_eq {p : FilePath} (hp : p.IsNormal) : ∃ part,
    modifiedName (String.ofList p.render) = String.ofList (p.withName part).render ∧
      IsName part ∧ (p.withName part).IsCopyOf p := by
  have hempty : ¬(String.ofList p.render).isEmpty := by
    simpa using render_ne_nil p
  have hread : parse (String.ofList p.render).toList = p := by
    rw [String.toList_ofList, parse_render hp]
  by_cases hsuffix : p.suffix = []
  · obtain ⟨part, hrender, hpart, hbeside⟩ := exists_isCopyOf_of_suffix_eq_nil hp hsuffix
    refine ⟨part, ?_, hpart, hbeside⟩
    rw [modifiedName, if_neg hempty, hread, if_pos (by simp [hsuffix]), ← hrender,
      String.ofList_append, String.ofList_toList]
  · refine ⟨_, ?_, isName_marked hp hsuffix, isCopyOf_marked hsuffix⟩
    rw [modifiedName, if_neg hempty, hread, if_neg (by simpa using hsuffix)]
    rfl

/-- The modified copy of a file never takes its place. For every path as it is written, the name of
the copy can be made, and it is a path as it is written: one in the same directory, of another name,
with the suffix of the original or else with the one of a document. -/
theorem modifiedName_beside (text : String) :
    let path := String.ofList (parse text.toList).render
    ∃ copy, tryModifiedName path = .ok copy ∧ modifiedName path = copy ∧
      String.ofList (parse copy.toList).render = copy ∧
      (parse copy.toList).IsCopyOf (parse path.toList) := by
  intro path
  have hp := isNormal_parse text.toList
  obtain ⟨part, hcopy, hpart, hbeside⟩ := exists_modifiedName_eq hp
  have hpath : parse path.toList = parse text.toList := by
    rw [String.toList_ofList, parse_render hp]
  have hread : parse (modifiedName path).toList = (parse text.toList).withName part := by
    rw [hcopy, String.toList_ofList, parse_render (hp.withName hpart)]
  refine ⟨modifiedName path, tryModifiedName_eq path, rfl, ?_, ?_⟩
  · rw [hread, hcopy]
  · rw [hread, hpath]
    exact hbeside

-- The last dot cuts behind another dot, but not at the start of a name.
example : modifiedName "jobs.d/..wup" = "jobs.d/.-modified.wup" ∧
    modifiedName "jobs.d/.wup" = "jobs.d/.wup-modified.wup" := by decide

end WallPanel
