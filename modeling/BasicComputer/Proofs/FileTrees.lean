import BasicComputer.Files.Tree

/-!
# What a written file changes

Writing puts one file into a tree. The question is what else it may change: a new file could turn a
place into a directory, and then another path would lead somewhere else.

* **Directories** (`isDirectory_put`): a file is only ever put into a directory that is there, and
  every place on the way to a directory is a directory already. So a written file makes no new one.
* **Paths** (`SameLayout`): paths are followed through directories and nothing else, from the root
  or from the working directory. So after a write they all lead where they led before, and a path
  that could be written can still be written (`sameLayout_of_write?`).
* **Contents** (`content?_of_write?`): the file that the path names has the text, and every other
  file is what it was.
-/

namespace BasicComputer

/-- The keys of an association list after an assignment. -/
theorem Association.mem_map_fst_assign {κ α : Type} [BEq κ] [LawfulBEq κ] {key k : κ} {value : α}
    {entries : List (κ × α)} :
    k ∈ (assign key value entries).map Prod.fst ↔ k = key ∨ k ∈ entries.map Prod.fst := by
  induction entries with
  | nil => simp [assign]
  | cons entry rest ih =>
      obtain ⟨other, old⟩ := entry
      rw [assign]
      split
      · next h =>
        simp [eq_of_beq h]
      · rw [List.map_cons, List.map_cons, List.mem_cons, List.mem_cons, ih]
        exact or_left_comm

namespace FileTree

variable {t : FileTree}

/-! ## Directories -/

/-- A directory is the start of one that is named, or a place on the way to some file. -/
theorem isDirectory_iff {place : List String} :
    t.isDirectory place = true ↔
      (∃ directory ∈ t.workingDirectory :: t.directories, place <+: directory) ∨
        ∃ file ∈ t.files.map Prod.fst, place <+: file ∧ place ≠ file := by
  simp [isDirectory]

/-- Paths start in a directory: the root and the working directory are there. -/
theorem isDirectory_start (path : String) : t.isDirectory (t.start path) = true := by
  refine isDirectory_iff.mpr (.inl ⟨t.workingDirectory, List.mem_cons_self, ?_⟩)
  unfold start
  split
  · exact List.nil_prefix
  · exact List.prefix_rfl

/-- Every place on the way to a directory is a directory. -/
theorem isDirectory_of_isPrefixOf {place other : List String} (h : t.isDirectory place = true)
    (hother : other <+: place) : t.isDirectory other = true := by
  rw [isDirectory_iff] at h ⊢
  rcases h with ⟨directory, hdirectory, hway⟩ | ⟨file, hfile, hway, hne⟩
  · exact .inl ⟨directory, hdirectory, hother.trans hway⟩
  · refine .inr ⟨file, hfile, hother.trans hway, ?_⟩
    rintro rfl
    exact hne (hway.eq_of_length_le hother.length_le)

/-- **A file that is put into a directory makes no new directory.** -/
theorem isDirectory_put {directory : List String} (h : t.isDirectory directory = true)
    (name : String) (content : ByteArray) (place : List String) :
    (t.put (directory ++ [name]) content).isDirectory place = t.isDirectory place := by
  rw [Bool.eq_iff_iff]
  constructor
  · intro hplace
    rcases isDirectory_iff.mp hplace with hnamed | ⟨file, hfile, hway, hne⟩
    · exact isDirectory_iff.mpr (.inl hnamed)
    · rcases Association.mem_map_fst_assign.mp hfile with rfl | hold
      · exact isDirectory_of_isPrefixOf h ((List.prefix_concat_iff.mp hway).resolve_left hne)
      · exact isDirectory_iff.mpr (.inr ⟨file, hold, hway, hne⟩)
  · intro hplace
    rcases isDirectory_iff.mp hplace with hnamed | ⟨file, hfile, hway, hne⟩
    · exact isDirectory_iff.mpr (.inl hnamed)
    · have hstays : file ∈ (t.put (directory ++ [name]) content).files.map Prod.fst :=
        Association.mem_map_fst_assign.mpr (.inr hfile)
      exact isDirectory_iff.mpr (.inr ⟨file, hstays, hway, hne⟩)

/-! ## Following paths -/

/-- A component leads from a directory to a directory. -/
theorem isDirectory_of_enter? {directory target : List String} {component : String}
    (h : t.isDirectory directory = true) (htarget : t.enter? directory component = some target) :
    t.isDirectory target = true := by
  unfold enter? at htarget
  split at htarget
  · cases htarget
    exact h
  · split at htarget
    · cases htarget
      exact isDirectory_of_isPrefixOf h (List.dropLast_prefix directory)
    · dsimp only at htarget
      split at htarget
      · next hplace =>
        cases htarget
        exact hplace
      · cases htarget

/-- Components lead from a directory to a directory. -/
theorem isDirectory_of_foldlM {directory target : List String} {components : List String}
    (h : t.isDirectory directory = true)
    (htarget : components.foldlM t.enter? directory = some target) :
    t.isDirectory target = true := by
  induction components generalizing directory with
  | nil =>
      cases htarget
      exact h
  | cons component rest ih =>
      rw [List.foldlM_cons] at htarget
      obtain ⟨next, hnext, hrest⟩ := Option.bind_eq_some_iff.mp htarget
      exact ih (isDirectory_of_enter? h hnext) hrest

/-- **The place of a file** is the last component of the path in a directory that is there. -/
theorem exists_of_locate? {path : String} {place : List String} (h : t.locate? path = some place) :
    ∃ directory name, place = directory ++ [name] ∧ t.isDirectory directory = true ∧
      (Path.components path).getLast? = some name ∧ isFileName name = true := by
  unfold locate? at h
  obtain ⟨name, hname, h⟩ := Option.bind_eq_some_iff.mp h
  split at h
  · next hpath =>
    obtain ⟨directory, hdirectory, h⟩ := Option.bind_eq_some_iff.mp h
    cases h
    exact ⟨directory, name, rfl, isDirectory_of_foldlM (isDirectory_start path) hdirectory,
      hname, hpath.2⟩
  · cases h

/-! ## What paths depend on -/

/-- Two trees with the same directories, used from the same one, and open to writing at the same
places. Their files may differ. -/
structure SameLayout (t other : FileTree) : Prop where
  isDirectory : ∀ place, other.isDirectory place = t.isDirectory place
  workingDirectory : other.workingDirectory = t.workingDirectory
  mayWrite : other.mayWrite = t.mayWrite

namespace SameLayout

variable {other : FileTree}

/-- A tree has its own layout. -/
protected theorem refl (t : FileTree) : SameLayout t t where
  isDirectory _ := rfl
  workingDirectory := rfl
  mayWrite := rfl

/-- Layouts that are kept step by step are kept. -/
protected theorem trans {last : FileTree} (h : SameLayout t other) (hlast : SameLayout other last) :
    SameLayout t last where
  isDirectory place := (hlast.isDirectory place).trans (h.isDirectory place)
  workingDirectory := hlast.workingDirectory.trans h.workingDirectory
  mayWrite := hlast.mayWrite.trans h.mayWrite

/-- **Paths are followed through directories and nothing else.** -/
theorem locate?_eq (h : SameLayout t other) (path : String) :
    other.locate? path = t.locate? path := by
  have hstart : other.start path = t.start path := by simp only [start, h.workingDirectory]
  have henter : other.enter? = t.enter? := by
    funext directory component
    simp only [enter?, h.isDirectory]
  unfold locate?
  rw [hstart, henter]

end SameLayout

/-! ## Writing -/

/-- A path to which a text can be written: it leads to no directory, and the system lets the place
be written. -/
def Writable (t : FileTree) (path : String) : Prop :=
  ∃ place, t.locate? path = some place ∧ t.isDirectory place = false ∧ t.mayWrite place = true

/-- What can be written depends on the layout alone. -/
theorem SameLayout.writable_iff {other : FileTree} (h : SameLayout t other) (path : String) :
    other.Writable path ↔ t.Writable path := by
  simp only [Writable, h.locate?_eq, h.isDirectory, h.mayWrite]

/-- A write puts the text at the place that a writable path leads to. -/
theorem write?_eq_some_iff {path text : String} {after : FileTree} :
    t.write? path text = some after ↔
      ∃ place, t.locate? path = some place ∧
        (t.isDirectory place = false ∧ t.mayWrite place = true) ∧
        after = t.put place text.toUTF8 := by
  unfold write?
  constructor
  · intro h
    obtain ⟨place, hplace, h⟩ := Option.bind_eq_some_iff.mp h
    split at h
    · cases h
    · next hopen =>
      cases h
      exact ⟨place, hplace, by simpa using hopen, rfl⟩
  · rintro ⟨place, hplace, ⟨hfile, hright⟩, rfl⟩
    rw [hplace]
    simp [hfile, hright]

/-- **A write succeeds** exactly when the path is writable; what is written does not matter. -/
theorem exists_write?_iff {path : String} (text : String) :
    (∃ after, t.write? path text = some after) ↔ t.Writable path := by
  constructor
  · rintro ⟨after, h⟩
    obtain ⟨place, hplace, hopen, -⟩ := write?_eq_some_iff.mp h
    exact ⟨place, hplace, hopen⟩
  · rintro ⟨place, hplace, hopen⟩
    exact ⟨_, write?_eq_some_iff.mpr ⟨place, hplace, hopen, rfl⟩⟩

/-- A write fails exactly when the path is not writable. -/
theorem write?_eq_none_iff {path text : String} :
    t.write? path text = none ↔ ¬ t.Writable path := by
  rw [← exists_write?_iff text, Option.eq_none_iff_forall_ne_some, not_exists]

section write

variable {path text : String} {after : FileTree} (h : t.write? path text = some after)

include h

/-- **A written file keeps the layout**: all paths lead where they led before, and what could be
written can still be written. -/
theorem sameLayout_of_write? : SameLayout t after := by
  obtain ⟨file, hfile, -, rfl⟩ := write?_eq_some_iff.mp h
  obtain ⟨directory, name, rfl, hdirectory, -⟩ := exists_of_locate? hfile
  exact ⟨isDirectory_put hdirectory name text.toUTF8, rfl, rfl⟩

/-- **A written file changes one place**, the one that its path leads to. -/
theorem content?_of_write? (place : List String) :
    after.content? place =
      if t.locate? path = some place then some text.toUTF8 else t.content? place := by
  obtain ⟨file, hfile, -, rfl⟩ := write?_eq_some_iff.mp h
  rw [content?_put, hfile]
  simp only [Option.some.injEq, eq_comm]

end write

/-! ## Reading -/

/-- The bytes of a text are UTF-8, and they are the text again. -/
theorem fromUTF8?_toUTF8 (text : String) : String.fromUTF8? text.toUTF8 = some text :=
  dif_pos text.isValidUTF8

/-- Reading a path is reading the file at the place that it leads to. -/
theorem read?_of_locate? {path : String} {place : List String}
    (h : t.locate? path = some place) :
    t.read? path = (t.content? place).bind String.fromUTF8? := by
  rw [read?, h]
  rfl

/-- A path that leads to the place of a text reads the text. -/
theorem read?_eq_some {path text : String} {place : List String}
    (hplace : t.locate? path = some place) (hcontent : t.content? place = some text.toUTF8) :
    t.read? path = some text := by
  rw [read?_of_locate? hplace, hcontent]
  exact fromUTF8?_toUTF8 text

/-- Paths that lead to the same place read the same text. -/
theorem read?_congr {path other : String} (h : t.locate? path = t.locate? other) :
    t.read? path = t.read? other := by
  rw [read?, read?, h]

/-- Bytes that are a text are the bytes of that text. -/
theorem eq_toUTF8_of_fromUTF8? {content : ByteArray} {text : String}
    (h : String.fromUTF8? content = some text) : content = text.toUTF8 := by
  unfold String.fromUTF8? at h
  split at h
  · cases h
    rfl
  · cases h

/-- The bytes of a file that was read are those of its text. -/
theorem content?_of_read? {path text : String} {place : List String}
    (hplace : t.locate? path = some place) (h : t.read? path = some text) :
    t.content? place = some text.toUTF8 := by
  rw [read?_of_locate? hplace] at h
  obtain ⟨content, hcontent, htext⟩ := Option.bind_eq_some_iff.mp h
  rw [hcontent, eq_toUTF8_of_fromUTF8? htext]

end FileTree

end BasicComputer
