import ValueDocs.Proofs.Files.Frame

/-!
# Proofs/Files/Writing — where a file can be written

A file can be written where its path leads into a directory and not to one (`takesFile`).  Writing
it changes nothing of this for any path (`takesFile_of_writeText`), so whether several files can be
written is seen before the first of them is.
-/

namespace ValueDocs.FileTree

/-- Whether a file can be written at a path. -/
def takesFile (t : FileTree) (p : Path) : Bool :=
  match t.locate p with
  | .ok place => t.node? place.dropLast = some .directory && t.node? place ≠ some .directory
  | .error _ => false

variable {t t' : FileTree} {p : Path}

theorem takesFile_iff : t.takesFile p = true ↔ ∃ place, t.locate p = .ok place ∧
    t.node? place.dropLast = some .directory ∧ t.node? place ≠ some .directory := by
  rw [takesFile]
  cases t.locate p with
  | error e => simp
  | ok place => simp

/-- **A file's bytes can be changed just where a file can be written.** -/
theorem exists_modifyBytes_iff {f : List UInt8 → List UInt8} :
    (∃ t', t.modifyBytes p f = .ok t') ↔ t.takesFile p = true := by
  have hfault {e : FileFault} : ¬ ∃ t', (.error e : Except FileFault FileTree) = .ok t' := by
    rintro ⟨_, ⟨⟩⟩
  rw [takesFile, modifyBytes]
  cases t.locate p with
  | error e => exact iff_of_false hfault Bool.false_ne_true
  | ok place =>
    simp only [bind, Except.bind]
    cases t.node? place.dropLast with
    | none => exact iff_of_false hfault (by simp)
    | some above =>
      cases above with
      | file bytes => exact iff_of_false hfault (by simp)
      | directory =>
        cases t.node? place with
        | none => exact iff_of_true ⟨_, rfl⟩ (by simp)
        | some node =>
          cases node with
          | directory => exact iff_of_false hfault (by simp)
          | file bytes => exact iff_of_true ⟨_, rfl⟩ (by simp)

theorem exists_writeText_iff (text : String) :
    (∃ t', t.writeText p text = .ok t') ↔ t.takesFile p = true := exists_modifyBytes_iff

theorem exists_appendText_iff (text : String) :
    (∃ t', t.appendText p text = .ok t') ↔ t.takesFile p = true := exists_modifyBytes_iff

theorem walk_cons_eq_ok_iff {base goal : Location} {part : String} {rest : List String} :
    t.walk base (part :: rest) = .ok goal ↔ t.node? base = some .directory ∧
      part.utf8ByteSize ≤ partLimit ∧
      t.walk (if part = ".." then base.dropLast else base ++ [part]) rest = .ok goal := by
  have hfault {e : FileFault} : (.error e : Except FileFault Location) ≠ .ok goal := by rintro ⟨⟩
  rw [walk]
  split
  · next h => rw [h]; exact iff_of_false hfault fun h => by cases h.1
  · next h => rw [h]; exact iff_of_false hfault fun h => by cases h.1
  · next h =>
    rw [h]
    split
    · next hlong => exact iff_of_false hfault fun h => absurd h.2.1 (Nat.not_le_of_lt hlong)
    · next hlong => exact ⟨fun h => ⟨rfl, Nat.le_of_not_lt hlong, h⟩, fun h => h.2.2⟩

/-! ## A file comes in -/

section

variable {place : Location} (hplace : t.node? place ≠ some .directory) (bytes : List UInt8)

include hplace

theorem node?_set_file_eq_directory_iff (other : Location) :
    (t.set place (.file bytes)).node? other = some .directory ↔
      t.node? other = some .directory := by
  by_cases hother : other = place
  · have hnil : place ≠ [] := fun hnil => hplace (hnil ▸ node?_nil t)
    rw [hother, node?_set_self _ hnil]
    exact iff_of_false nofun hplace
  · rw [node?_set_of_ne _ hother]

/-- Steps lead where they led, since none goes through a file. -/
theorem walk_set_file_eq_ok_iff {base goal : Location} {parts : List String} :
    (t.set place (.file bytes)).walk base parts = .ok goal ↔ t.walk base parts = .ok goal := by
  induction parts generalizing base with
  | nil => exact Iff.rfl
  | cons part rest ih =>
    rw [walk_cons_eq_ok_iff, walk_cons_eq_ok_iff, node?_set_file_eq_directory_iff hplace]
    exact and_congr_right fun _ => and_congr_right fun _ => ih

theorem locate_set_file_eq_ok_iff {q : Path} {goal : Location} :
    (t.set place (.file bytes)).locate q = .ok goal ↔ t.locate q = .ok goal := by
  rw [locate, locate]
  split
  · exact Iff.rfl
  · split
    · exact Iff.rfl
    · exact walk_set_file_eq_ok_iff hplace bytes

end

theorem takesFile_of_modifyBytes {f : List UInt8 → List UInt8} (h : t.modifyBytes p f = .ok t')
    (q : Path) : t'.takesFile q = t.takesFile q := by
  obtain ⟨place, -, hplace, rfl⟩ := exists_of_modifyBytes h
  rw [Bool.eq_iff_iff, takesFile_iff, takesFile_iff]
  simp only [locate_set_file_eq_ok_iff hplace, ne_eq, node?_set_file_eq_directory_iff hplace]

theorem takesFile_of_appendText {text : String} (h : t.appendText p text = .ok t') (q : Path) :
    t'.takesFile q = t.takesFile q := takesFile_of_modifyBytes h q

/-! ## What files hold -/

/-- Steps lead to where they would without a file tree. -/
theorem eq_follow_of_walk {base place : Location} {parts : List String}
    (h : t.walk base parts = .ok place) : place = Path.follow base parts := by
  induction parts generalizing base with
  | nil => exact (Except.ok.inj h).symm
  | cons part rest ih => exact ih (walk_cons_eq_ok_iff.1 h).2.2

/-- A path leads to the place of its absolute path. -/
theorem eq_resolve_of_locate {place : Location} (h : t.locate p = .ok place) :
    .ofParts place = p.resolve t.cwd := by
  rw [locate] at h
  split at h
  · cases h
  · split at h
    · cases h
    · exact congrArg Path.ofParts (eq_follow_of_walk h)

theorem bytesAt_congr (h : ∀ bytes, t'.readBytes p = .ok bytes ↔ t.readBytes p = .ok bytes) :
    t'.bytesAt p = t.bytesAt p := by
  rw [bytesAt, bytesAt]
  cases hread : t.readBytes p with
  | ok bytes => rw [(h bytes).2 hread]
  | error e =>
    cases hread' : t'.readBytes p with
    | error e' => rfl
    | ok bytes => cases hread.symm.trans ((h bytes).1 hread')

/-- **A text that is added** comes after what the file held. -/
theorem bytesAt_of_appendText {text : String} (h : t.appendText p text = .ok t') :
    t'.bytesAt p = t.bytesAt p ++ Text.Utf8.encode text.toList := by
  obtain ⟨place, hplace, hnode, rfl⟩ := exists_of_modifyBytes h
  have hnil : place ≠ [] := fun hnil => hnode (hnil ▸ node?_nil t)
  rw [bytesAt, readBytes_eq_ok_iff.2
    ⟨place, (locate_set_file_eq_ok_iff hnode _).2 hplace, node?_set_self t hnil _⟩]
  rfl

/-- A file keeps what it holds while another one is written. -/
theorem bytesAt_of_appendText_of_ne {text : String} (h : t.appendText p text = .ok t') {q : Path}
    (hne : p.resolve t.cwd ≠ q.resolve t.cwd) : t'.bytesAt q = t.bytesAt q := by
  obtain ⟨place, hplace, hnode, rfl⟩ := exists_of_modifyBytes h
  refine bytesAt_congr fun bytes => ?_
  simp only [readBytes_eq_ok_iff, locate_set_file_eq_ok_iff hnode]
  refine exists_congr fun other => and_congr_right fun hother => ?_
  rw [node?_set_of_ne]
  rintro rfl
  exact hne ((eq_resolve_of_locate hplace).symm.trans (eq_resolve_of_locate hother))

theorem cwd_of_appendText {text : String} (h : t.appendText p text = .ok t') : t'.cwd = t.cwd := by
  obtain ⟨place, -, -, rfl⟩ := exists_of_modifyBytes h
  rfl

end ValueDocs.FileTree
