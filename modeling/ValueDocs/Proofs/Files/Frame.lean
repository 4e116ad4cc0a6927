import ValueDocs.Files.Access
import ValueDocs.Proofs.Text.Plain

/-!
# Proofs/Files/Frame — what an operation on files leaves as it was

Writing a file changes nothing at any other place, and makes no directory go away; making directories
changes nothing that is there.  So a path that leads somewhere still leads there afterwards
(`Frame.locate`), and a file that nothing is written to still reads the same (`Frame.readText`).
-/

namespace ValueDocs.FileTree

/-! ## Nodes -/

@[simp] theorem node?_nil (t : FileTree) : t.node? [] = some .directory := rfl

theorem node?_of_ne_nil (t : FileTree) {place : Location} (h : place ≠ []) :
    t.node? place = t.nodes.lookup place := if_neg h

theorem node?_set_self (t : FileTree) {place : Location} (h : place ≠ []) (node : FileNode) :
    (t.set place node).node? place = some node := by
  rw [node?_of_ne_nil _ h]
  exact lookup_setNode_self ..

theorem node?_set_of_ne (t : FileTree) {place other : Location} (h : other ≠ place)
    (node : FileNode) : (t.set place node).node? other = t.node? other := by
  by_cases hnil : other = []
  · rw [hnil, node?_nil, node?_nil]
  · rw [node?_of_ne_nil _ hnil, node?_of_ne_nil _ hnil]
    exact lookup_setNode_of_ne h ..

/-- A file is read where its path leads. -/
theorem readBytes_eq_ok_iff {t : FileTree} {p : Path} {bytes : List UInt8} :
    t.readBytes p = .ok bytes ↔
      ∃ place, t.locate p = .ok place ∧ t.node? place = some (.file bytes) := by
  rw [readBytes]
  cases t.locate p with
  | error e => exact ⟨nofun, fun ⟨_, h, _⟩ => nomatch h⟩
  | ok place =>
    simp only [bind, Except.bind]
    constructor
    · intro h
      refine ⟨place, rfl, ?_⟩
      split at h
      · cases h
      · cases h
      · next hnode =>
        cases h
        exact hnode
    · rintro ⟨_, ⟨⟩, hnode⟩
      rw [hnode]
      rfl

/-- What the file at a path holds; without a file there is nothing. -/
def bytesAt (t : FileTree) (p : Path) : List UInt8 := (t.readBytes p).toOption.getD []

/-! ## Frames -/

/-- What stands in a tree also stands in a later one, but for files at the places listed. -/
structure Frame (written : List Location) (t t' : FileTree) : Prop where
  cwd : t'.cwd = t.cwd
  directory : ∀ place, t.node? place = some .directory → t'.node? place = some .directory
  file : ∀ place bytes, place ∉ written → t.node? place = some (.file bytes) →
    t'.node? place = some (.file bytes)

namespace Frame

variable {written : List Location} {t t' t'' : FileTree}

protected theorem refl (written : List Location) (t : FileTree) : Frame written t t :=
  ⟨rfl, fun _ h => h, fun _ _ _ h => h⟩

protected theorem trans {written' : List Location} (h : Frame written t t')
    (h' : Frame written' t' t'') : Frame (written ++ written') t t'' where
  cwd := h'.cwd.trans h.cwd
  directory := fun place hplace => h'.directory place (h.directory place hplace)
  file := fun place bytes hplace hbytes =>
    h'.file place bytes (fun hm => hplace (List.mem_append_right _ hm))
      (h.file place bytes (fun hm => hplace (List.mem_append_left _ hm)) hbytes)

/-- Setting a node where there is no directory. -/
theorem set {place : Location} (hplace : t.node? place ≠ some .directory) (node : FileNode) :
    Frame [place] t (t.set place node) where
  cwd := rfl
  directory := fun other hother => by
    rwa [node?_set_of_ne _ fun h : other = place => hplace (h ▸ hother)]
  file := fun other bytes hother hbytes => by
    rwa [node?_set_of_ne _ fun h : other = place => hother (List.mem_singleton.2 h)]

/-- **Steps still lead where they led.** -/
theorem walk (h : Frame written t t') {base place : Location} {parts : List String}
    (hwalk : t.walk base parts = .ok place) : t'.walk base parts = .ok place := by
  induction parts generalizing base with
  | nil => exact hwalk
  | cons part rest ih =>
    rw [FileTree.walk] at hwalk ⊢
    split at hwalk
    · cases hwalk
    · cases hwalk
    · next hnode =>
      rw [h.directory base hnode]
      dsimp only
      split at hwalk
      · cases hwalk
      · next hpart =>
        rw [if_neg hpart]
        exact ih hwalk

/-- **A path still leads where it led.** -/
theorem locate (h : Frame written t t') {p : Path} {place : Location}
    (hplace : t.locate p = .ok place) : t'.locate p = .ok place := by
  rw [FileTree.locate] at hplace ⊢
  split at hplace
  · cases hplace
  · next hnull =>
    rw [if_neg hnull]
    split at hplace
    · cases hplace
    · next hlong =>
      rw [if_neg hlong, h.cwd]
      exact h.walk hplace

/-- **A file that nothing is written to keeps its bytes.** -/
theorem readBytes (h : Frame written t t') {p : Path} {place : Location} {bytes : List UInt8}
    (hplace : t.locate p = .ok place) (hother : place ∉ written)
    (hread : t.readBytes p = .ok bytes) : t'.readBytes p = .ok bytes := by
  obtain ⟨_, hplace', hnode⟩ := readBytes_eq_ok_iff.1 hread
  obtain rfl := Except.ok.inj (hplace.symm.trans hplace')
  exact readBytes_eq_ok_iff.2 ⟨place, h.locate hplace, h.file place bytes hother hnode⟩

end Frame

/-! ## Operations -/

/-- Where a file's bytes are changed, and what is there afterwards. -/
theorem exists_of_modifyBytes {t t' : FileTree} {p : Path} {f : List UInt8 → List UInt8}
    (h : t.modifyBytes p f = .ok t') :
    ∃ place, t.locate p = .ok place ∧ t.node? place ≠ some .directory ∧
      t' = t.set place (.file (f (t.bytesAt p))) := by
  rw [modifyBytes] at h
  rw [bytesAt, readBytes]
  cases hplace : t.locate p with
  | error e => rw [hplace] at h; cases h
  | ok place =>
    simp only [hplace, bind, Except.bind] at h ⊢
    split at h
    · cases h
    · cases h
    · split at h
      · cases h
      · next bytes hnode =>
        cases h
        exact ⟨place, rfl, by simp [hnode], by rw [hnode]; rfl⟩
      · next hnode =>
        cases h
        exact ⟨place, rfl, by simp [hnode], by rw [hnode]; rfl⟩

/-- Writing a text changes one place. -/
theorem Frame.writeText {t t' : FileTree} {p : Path} {text : String}
    (h : t.writeText p text = .ok t') :
    ∃ place, t.locate p = .ok place ∧ Frame [place] t t' ∧
      t'.readBytes p = .ok (Text.Utf8.encode text.toList) := by
  obtain ⟨place, hplace, hnode, rfl⟩ := exists_of_modifyBytes h
  have hframe := Frame.set hnode (.file (Text.Utf8.encode text.toList))
  have hnil : place ≠ [] := fun hnil => hnode (hnil ▸ node?_nil t)
  exact ⟨place, hplace, hframe, readBytes_eq_ok_iff.2
    ⟨place, hframe.locate hplace, node?_set_self t hnil _⟩⟩

/-- Making a directory changes nothing that is there. -/
theorem Frame.makeDirectory {t t' : FileTree} {p : Path} (h : t.makeDirectory p = .ok t') :
    Frame [] t t' := by
  rw [FileTree.makeDirectory] at h
  cases hplace : t.locate p with
  | error e => rw [hplace] at h; cases h
  | ok place =>
    simp only [hplace, bind, Except.bind] at h
    split at h
    · cases h
      exact .refl [] _
    · cases h
    · next hnode =>
      cases h
      refine ⟨rfl, fun other hother => ?_, fun other bytes _ hother => ?_⟩
      all_goals
        rwa [node?_set_of_ne]
        rintro rfl
        rw [hnode] at hother
        cases hother

/-- Making directories changes nothing that is there. -/
theorem Frame.makeDirectories {t t' : FileTree} {p : Path} (h : t.makeDirectories p = .ok t') :
    Frame [] t t' := by
  have hall {ps : List Path} {t : FileTree} (h : ps.foldlM FileTree.makeDirectory t = .ok t') :
      Frame [] t t' := by
    induction ps generalizing t with
    | nil =>
      cases h
      exact .refl [] _
    | cons p ps ih =>
      rw [List.foldlM_cons] at h
      cases hp : t.makeDirectory p with
      | error e => rw [hp] at h; cases h
      | ok t₁ =>
        rw [hp] at h
        exact (Frame.makeDirectory hp).trans (ih h)
  rw [FileTree.makeDirectories] at h
  split at h
  · exact hall h
  · exact .makeDirectory h

/-! ## Places in a directory -/

/-- Steps to a name in a directory. -/
theorem walk_append {t : FileTree} {base place : Location} {parts : List String} {name : String}
    (hname : name ≠ "..") (h : t.walk base (parts ++ [name]) = .ok place) :
    ∃ directory, t.walk base parts = .ok directory ∧ place = directory ++ [name] := by
  induction parts generalizing base with
  | nil =>
    refine ⟨base, rfl, ?_⟩
    rw [List.nil_append, walk] at h
    split at h
    · cases h
    · cases h
    · split at h
      · cases h
      · exact (Except.ok.inj h).symm
  | cons part rest ih =>
    rw [List.cons_append, walk] at h
    rw [walk]
    split at h
    · cases h
    · cases h
    · split at h
      · cases h
      · next hpart =>
        rw [if_neg hpart]
        exact ih h

/-- A path leads to a place of its last name. -/
theorem getLast?_of_locate {t : FileTree} {p : Path} {name : String} {place : Location}
    (hlast : p.parts.getLast? = some name) (hname : name ≠ "..") (h : t.locate p = .ok place) :
    place.getLast? = some name := by
  obtain ⟨parts, hparts⟩ := List.getLast?_eq_some_iff.1 hlast
  rw [locate] at h
  split at h
  · cases h
  · split at h
    · cases h
    · rw [hparts] at h
      obtain ⟨directory, -, rfl⟩ := walk_append hname h
      rw [List.getLast?_append, List.getLast?_singleton]
      rfl

/-! ## Texts -/

theorem outcomeAt_eq_ok_iff {α : Type} {p : Path} {result : Except FileFault α} {a : α} :
    outcomeAt p result = .ok a ↔ result = .ok a := by
  cases result with
  | error e => exact ⟨nofun, nofun⟩
  | ok b => exact ⟨fun h => congrArg _ (Except.ok.inj h), fun h => congrArg _ (Except.ok.inj h)⟩

/-- A plain text is read as it was written. -/
theorem readText_eq_of_readBytes {t : FileTree} {p : Path} {text : List Char}
    (htext : Text.ArePlain text)
    (h : t.readBytes p = .ok (Text.Utf8.encode text)) : t.readText p = .ok text := by
  rw [readText, h]
  change ((Text.Utf8.decode (Text.Utf8.encode text)).mapError Failure.undecodable >>= fun s =>
    pure (Text.normalizeBreaks s)) = _
  rw [Text.decode_encode htext]
  exact congrArg Except.ok (Text.normalizeBreaks_eq htext)

end ValueDocs.FileTree
