import BasicComputer.Files.Path
import BasicComputer.Proofs.Texts

/-!
# Stems

Results are saved under the stem of a path. A stem is the start of one component (`isStem_stem`), so
a name made of a stem and an extension is a path of one component, and it leads back to the stem
(`stem_of_fileName?`). Saving the results of a saved file therefore uses the same names again.
-/

namespace BasicComputer.Path

/-- What a stem looks like. -/
structure IsStem (stem : String) : Prop where
  ne_empty : stem ≠ ""
  slash_not_mem : '/' ∉ stem.toList
  dot_not_mem : '.' ∉ stem.toList

/-! ## Components -/

/-- A component has no slash. -/
theorem slash_not_mem_of_mem_components {path component : String}
    (h : component ∈ components path) : '/' ∉ component.toList := by
  obtain ⟨piece, hpiece, rfl⟩ := List.mem_map.mp h
  intro hslash
  rw [String.toList_ofList] at hslash
  simpa using Text.not_separates_of_mem_splitOnP hpiece '/' hslash

/-- A path without a slash is one component. -/
theorem components_of_slash_not_mem {path : String} (h : '/' ∉ path.toList) :
    components path = [path] := by
  have hpieces : path.toList.splitOnP (· == '/') = [path.toList] := by
    refine List.splitOnP_eq_singleton fun c hc => ?_
    rw [beq_eq_false_iff_ne]
    rintro rfl
    exact h hc
  rw [components, hpieces, List.map_singleton, String.ofList_toList]

/-- The file name is a component of the path. -/
theorem mem_components_of_fileName? {path name : String} (h : fileName? path = some name) :
    name ∈ components path := by
  obtain ⟨hlast, -⟩ := Option.filter_eq_some_iff.mp h
  exact (List.mem_filter.mp (List.mem_of_getLast? hlast)).1

/-- The last component is the file name, if it can be one. -/
theorem fileName?_of_getLast? {path name : String} (h : (components path).getLast? = some name)
    (hidle : isIdle name = false) (hup : name ≠ "..") : fileName? path = some name := by
  obtain ⟨front, hcomponents⟩ := List.getLast?_eq_some_iff.mp h
  simp [fileName?, hcomponents, hidle, hup]

/-! ## Stems -/

/-- The file name of a path has no slash, and neither has the empty name that stands for none. -/
theorem slash_not_mem_fileName (path : String) : '/' ∉ ((fileName? path).getD "").toList := by
  cases hname : fileName? path with
  | none => simp
  | some name => exact slash_not_mem_of_mem_components (mem_components_of_fileName? hname)

/-- **A stem** is not empty and holds neither a slash nor a dot. -/
theorem isStem_stem (path : String) : IsStem (stem path) := by
  have hslash := slash_not_mem_fileName path
  unfold stem
  generalize ((fileName? path).getD "").toList = name at hslash
  dsimp only
  split
  · exact ⟨by decide, by decide +kernel, by decide +kernel⟩
  · next hne =>
    refine ⟨?_, ?_, ?_⟩
    · intro hempty
      exact hne (by simpa using congrArg String.toList hempty)
    · intro hmem
      rw [String.toList_ofList] at hmem
      exact hslash (List.takeWhile_subset _ hmem)
    · intro hmem
      rw [String.toList_ofList] at hmem
      simpa using List.all_eq_true.mp List.all_takeWhile '.' hmem

/-- The characters of a stem with an extension. -/
theorem toList_withExtension (stem extension : String) :
    (withExtension stem extension).toList = stem.toList ++ '.' :: extension.toList := by
  simp [withExtension]

/-- Names with the same stem differ by their extensions. -/
theorem withExtension_ne (stem : String) {extension other : String} (h : extension ≠ other) :
    withExtension stem extension ≠ withExtension stem other := by
  intro hsame
  have hlists := congrArg String.toList hsame
  rw [toList_withExtension, toList_withExtension, List.append_cancel_left_eq] at hlists
  exact h (String.toList_inj.mp (List.cons.inj hlists).2)

/-- A name made of a stem is one component. -/
theorem IsStem.slash_not_mem_withExtension {stem extension : String} (h : IsStem stem)
    (hextension : '/' ∉ extension.toList) : '/' ∉ (withExtension stem extension).toList := by
  rw [toList_withExtension]
  simp [h.slash_not_mem, hextension]

/-- **The stem of a file name** is what stands in front of the first dot. -/
theorem stem_of_cut {path name stem : String} {rest : List Char}
    (hname : fileName? path = some name) (hcut : name.toList = stem.toList ++ rest)
    (hrest : rest = [] ∨ rest.head? = some '.') (hne : stem ≠ "") (hdot : '.' ∉ stem.toList) :
    Path.stem path = stem := by
  have hkept : ∀ c ∈ stem.toList, decide (c ≠ '.') = true := by
    intro c hc
    rw [decide_eq_true_eq]
    rintro rfl
    exact hdot hc
  have hstop : rest.takeWhile (· ≠ '.') = [] := by
    rcases hrest with rfl | hhead
    · rfl
    · obtain ⟨others, rfl⟩ := List.head?_eq_some_iff.mp hhead
      simp
  have hstart : name.toList.takeWhile (· ≠ '.') = stem.toList := by
    rw [hcut, List.takeWhile_append_of_pos hkept, hstop, List.append_nil]
  have hne : stem.toList ≠ [] := by
    simpa using hne
  simp only [Path.stem, hname, Option.getD_some, hstart, if_neg hne, String.ofList_toList]

/-- **A name made of a stem leads back to it.** -/
theorem stem_of_fileName? {path stem extension : String} (hstem : IsStem stem)
    (h : fileName? path = some (withExtension stem extension)) : Path.stem path = stem :=
  stem_of_cut h (toList_withExtension stem extension) (.inr rfl) hstem.ne_empty hstem.dot_not_mem

end BasicComputer.Path
