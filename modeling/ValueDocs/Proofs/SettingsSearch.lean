import Mathlib.Data.List.Basic
import ValueDocs.Config.Settings
import ValueDocs.Proofs.Files.Frame
import ValueDocs.Proofs.Outcome

/-!
# Proofs/SettingsSearch — the settings file nearest to a directory

The search asks for the files of one directory after another, from the start upward, and for the
file at home when none of them stands.  Ten directories are looked at, so it goes nine levels up
(`Settings.find?_isSearch`): a file ten levels up is found only if it is the one at home.
-/

namespace ValueDocs

/-! ## Levels of a path -/

namespace Path

/-- The directory `n` levels up; above the root is the root. -/
def up (p : Path) : Nat → Path
  | 0 => p
  | n + 1 => (p.up n).parent

theorem up_eq (p : Path) (n : Nat) :
    p.up n = ⟨p.start, p.parts.take (p.parts.length - n)⟩ := by
  induction n with
  | zero => rw [up, Nat.sub_zero, List.take_length]
  | succ n ih =>
    rw [up, ih, parent, List.dropLast_eq_take, List.take_take, List.length_take]
    congr 2
    omega

/-- The paths above a path, from the deepest, are its levels. -/
theorem reverse_ancestors (p : Path) :
    p.ancestors.reverse = (List.range (p.parts.length + 1)).map p.up := by
  refine List.ext_getElem (by simp [ancestors]) fun n hn _ => ?_
  simp [ancestors, up_eq]

/-- Whether a path is longer than the file system takes, in all or in one of its parts. -/
def IsTooLong (p : Path) : Prop :=
  FileTree.pathLimit < p.toString.utf8ByteSize ∨
    ∃ part ∈ p.parts, FileTree.partLimit < part.utf8ByteSize

end Path

/-! ## What stands at a path -/

namespace FileTree

variable {t : FileTree} {p : Path}

/-- Whether something stands at a path. -/
def Stands (t : FileTree) (p : Path) : Prop := ∃ node, t.at? p = .ok (some node)

theorem pathExists_eq_ok_iff {b : Bool} :
    t.pathExists p = .ok b ↔ ∃ node, t.at? p = .ok node ∧ node.isSome = b := by
  rw [pathExists, Outcome.bind_eq_ok_iff]
  constructor
  · rintro ⟨node, hnode, hb⟩
    exact ⟨node, outcomeAt_eq_ok_iff.1 hnode, Except.ok.inj hb⟩
  · rintro ⟨node, hnode, hb⟩
    exact ⟨node, outcomeAt_eq_ok_iff.2 hnode, congrArg Except.ok hb⟩

theorem stands_of_pathExists (h : t.pathExists p = .ok true) : t.Stands p := by
  obtain ⟨node, hnode, hsome⟩ := pathExists_eq_ok_iff.1 h
  obtain ⟨node, rfl⟩ := Option.isSome_iff_exists.1 hsome
  exact ⟨node, hnode⟩

theorem not_stands_of_pathExists (h : t.pathExists p = .ok false) : ¬t.Stands p := by
  obtain ⟨node, hnode, hnone⟩ := pathExists_eq_ok_iff.1 h
  rintro ⟨node', hnode'⟩
  obtain rfl := Except.ok.inj (hnode.symm.trans hnode')
  cases hnone

theorem exists_of_walk_nameTooLong {place : Location} {parts : List String}
    (h : t.walk place parts = .error .nameTooLong) :
    ∃ part ∈ parts, partLimit < part.utf8ByteSize := by
  induction parts generalizing place with
  | nil => cases h
  | cons part parts ih =>
    rw [walk] at h
    split at h
    · cases h
    · cases h
    · split at h
      · next hlong => exact ⟨part, List.mem_cons_self .., hlong⟩
      · obtain ⟨part', hmem, hlong⟩ := ih h
        exact ⟨part', List.mem_cons_of_mem _ hmem, hlong⟩

/-- **What stands at a path can be told**, unless the path is too long. -/
theorem exists_pathExists (h : ¬p.IsTooLong) : ∃ b, t.pathExists p = .ok b := by
  suffices hat : ∃ node, t.at? p = .ok node by
    obtain ⟨node, hnode⟩ := hat
    exact ⟨_, pathExists_eq_ok_iff.2 ⟨node, hnode, rfl⟩⟩
  rw [at?]
  split
  · exact ⟨_, rfl⟩
  · next hlocate =>
    refine absurd ?_ h
    rw [locate] at hlocate
    split at hlocate
    · cases hlocate
    · split at hlocate
      · next hlong => exact .inl hlong
      · exact .inr (exists_of_walk_nameTooLong hlocate)
  · exact ⟨none, rfl⟩

end FileTree

/-! ## Asking one after the other -/

namespace Outcome

variable {α : Type} {asks : α → Outcome Bool} {xs ys : List α} {found : Option α}

theorem findM?_cons_eq_ok_iff {x : α} : (x :: xs).findM? asks = .ok found ↔
    (asks x = .ok true ∧ found = some x) ∨
      (asks x = .ok false ∧ xs.findM? asks = .ok found) := by
  rw [List.findM?, bind_eq_ok_iff]
  constructor
  · rintro ⟨_ | _, hx, h⟩
    · exact .inr ⟨hx, h⟩
    · exact .inl ⟨hx, (Except.ok.inj h).symm⟩
  · rintro (⟨hx, rfl⟩ | ⟨hx, h⟩)
    · exact ⟨true, hx, rfl⟩
    · exact ⟨false, hx, h⟩

/-- The second list is asked when nothing is found in the first. -/
theorem findM?_append_eq_ok (h : (xs ++ ys).findM? asks = .ok found) :
    (xs.findM? asks = .ok found ∧ found.isSome = true) ∨
      (xs.findM? asks = .ok none ∧ ys.findM? asks = .ok found) := by
  induction xs with
  | nil => exact .inr ⟨rfl, h⟩
  | cons x xs ih =>
    rw [List.cons_append, findM?_cons_eq_ok_iff] at h
    simp only [findM?_cons_eq_ok_iff]
    rcases h with ⟨hx, rfl⟩ | ⟨hx, h⟩
    · exact .inl ⟨.inl ⟨hx, rfl⟩, rfl⟩
    · rcases ih h with ⟨hxs, hsome⟩ | ⟨hxs, hys⟩
      · exact .inl ⟨.inr ⟨hx, hxs⟩, hsome⟩
      · exact .inr ⟨.inr ⟨hx, hxs⟩, hys⟩

theorem exists_findM? (h : ∀ x ∈ xs, ∃ b, asks x = .ok b) :
    ∃ found, xs.findM? asks = .ok found := by
  induction xs with
  | nil => exact ⟨none, rfl⟩
  | cons x xs ih =>
    obtain ⟨_ | _, hx⟩ := h x (List.mem_cons_self ..)
    · obtain ⟨found, hfound⟩ := ih fun y hy => h y (List.mem_cons_of_mem _ hy)
      exact ⟨found, findM?_cons_eq_ok_iff.2 (.inr ⟨hx, hfound⟩)⟩
    · exact ⟨some x, findM?_cons_eq_ok_iff.2 (.inl ⟨hx, rfl⟩)⟩

end Outcome

namespace Settings

/-! ## The nearest file

What stands where is any set of paths here. -/

/-- The settings files that a directory may have. -/
def filesIn (dir : Path) : List Path := [dir / "docval.yaml", dir / ".docval/docval.yaml"]

/-- The settings file of a user. -/
def fileAtHome (home : Path) : Path := home / ".config/docval/docval.yaml"

/-- Whether a file is the settings file of a directory: the plain one comes before the hidden one.
-/
def IsFileOf (stands : Path → Prop) (dir p : Path) : Prop :=
  (p = dir / "docval.yaml" ∧ stands p) ∨
    (p = dir / ".docval/docval.yaml" ∧ stands p ∧ ¬stands (dir / "docval.yaml"))

/-- Whether no directory less than `n` levels up has a settings file. -/
def NoneBelow (stands : Path → Prop) (here : Path) (n : Nat) : Prop :=
  ∀ m < n, ∀ p ∈ filesIn (here.up m), ¬stands p

/-- Whether a settings file is `n` levels up, and none is nearer. -/
structure IsNearestAt (stands : Path → Prop) (here : Path) (n : Nat) (p : Path) : Prop where
  isFileOf : IsFileOf stands (here.up n) p
  noneBelow : NoneBelow stands here n

/-- What is found from a directory: the nearest settings file up to some levels above it, else the
file at home, else nothing. -/
inductive IsNearest (stands : Path → Prop) (home here : Path) (levels : Nat) : Option Path → Prop
  | above {n : Nat} {p : Path} (hn : n ≤ levels) (h : IsNearestAt stands here n p) :
      IsNearest stands home here levels (some p)
  | atHome (h : NoneBelow stands here (levels + 1)) (hhome : stands (fileAtHome home)) :
      IsNearest stands home here levels (some (fileAtHome home))
  | nowhere (h : NoneBelow stands here (levels + 1)) (hhome : ¬stands (fileAtHome home)) :
      IsNearest stands home here levels none

section Nearest

variable {stands : Path → Prop} {home here p q : Path} {levels n : Nat} {found found' : Option Path}

theorem IsFileOf.mem (h : IsFileOf stands here p) : p ∈ filesIn here := by
  rcases h with ⟨rfl, -⟩ | ⟨rfl, -⟩
  · exact List.mem_cons_self ..
  · exact List.mem_cons_of_mem _ (List.mem_cons_self ..)

theorem IsFileOf.standing (h : IsFileOf stands here p) : stands p := by
  rcases h with ⟨-, h⟩ | ⟨-, h, -⟩
  · exact h
  · exact h

/-- A directory has one settings file at most. -/
theorem IsFileOf.unique (hp : IsFileOf stands here p) (hq : IsFileOf stands here q) : p = q := by
  rcases hp with ⟨rfl, hp⟩ | ⟨rfl, -, hp⟩ <;> rcases hq with ⟨rfl, hq⟩ | ⟨rfl, -, hq⟩
  · rfl
  · exact absurd hp hq
  · exact absurd hq hp
  · rfl

/-- A directory has a settings file as soon as one of the two stands. -/
theorem exists_isFileOf (hmem : p ∈ filesIn here) (hp : stands p) :
    ∃ q, IsFileOf stands here q := by
  by_cases hplain : stands (here / "docval.yaml")
  · exact ⟨_, .inl ⟨rfl, hplain⟩⟩
  · rcases List.mem_pair.1 hmem with rfl | rfl
    · exact absurd hp hplain
    · exact ⟨_, .inr ⟨rfl, hp, hplain⟩⟩

theorem NoneBelow.not_isNearestAt (h : NoneBelow stands here levels) (hn : n < levels) :
    ¬IsNearestAt stands here n p :=
  fun hp => h n hn p hp.isFileOf.mem hp.isFileOf.standing

theorem NoneBelow.succ_or (h : NoneBelow stands here n) :
    NoneBelow stands here (n + 1) ∨ ∃ p, IsNearestAt stands here n p := by
  by_cases hnone : ∀ p ∈ filesIn (here.up n), ¬stands p
  · refine .inl fun m hm => ?_
    rcases Nat.lt_succ_iff_lt_or_eq.1 hm with hm | rfl
    · exact h m hm
    · exact hnone
  · push Not at hnone
    obtain ⟨p, hmem, hp⟩ := hnone
    obtain ⟨q, hq⟩ := exists_isFileOf hmem hp
    exact .inr ⟨q, hq, h⟩

theorem IsNearestAt.level_le {m : Nat} (hp : IsNearestAt stands here n p)
    (hq : IsNearestAt stands here m q) : n ≤ m :=
  Nat.le_of_not_lt fun hlt => hp.noneBelow.not_isNearestAt hlt hq

/-- **What is nearest is determined.** -/
theorem IsNearest.unique (h : IsNearest stands home here levels found)
    (h' : IsNearest stands home here levels found') : found = found' := by
  cases h with
  | @above n p hn hp =>
    cases h' with
    | @above m q hm hq =>
      obtain rfl : n = m := Nat.le_antisymm (hp.level_le hq) (hq.level_le hp)
      rw [hp.isFileOf.unique hq.isFileOf]
    | atHome hnone | nowhere hnone =>
      exact absurd hp (hnone.not_isNearestAt (Nat.lt_succ_of_le hn))
  | atHome hnone hhome =>
    cases h' with
    | above hm hq => exact absurd hq (hnone.not_isNearestAt (Nat.lt_succ_of_le hm))
    | atHome => rfl
    | nowhere _ hhome' => exact absurd hhome hhome'
  | nowhere hnone hhome =>
    cases h' with
    | above hm hq => exact absurd hq (hnone.not_isNearestAt (Nat.lt_succ_of_le hm))
    | atHome _ hhome' => exact absurd hhome' hhome
    | nowhere => rfl

/-- **One level more makes no difference** but for a file that is nearest just there. -/
theorem IsNearest.succ_iff (h : IsNearest stands home here levels found) :
    IsNearest stands home here (levels + 1) found ↔
      ∀ p, IsNearestAt stands here (levels + 1) p → found = some p := by
  constructor
  · intro hsucc p hp
    exact hsucc.unique (.above (Nat.le_refl _) hp)
  · intro hfound
    cases h with
    | above hn hp => exact .above (Nat.le_succ_of_le hn) hp
    | atHome hnone hhome =>
      rcases hnone.succ_or with hnone | ⟨p, hp⟩
      · exact .atHome hnone hhome
      · exact hfound p hp ▸ .above (Nat.le_refl _) hp
    | nowhere hnone hhome =>
      rcases hnone.succ_or with hnone | ⟨p, hp⟩
      · exact .nowhere hnone hhome
      · exact nomatch hfound p hp

end Nearest

/-! ## The search -/

section Search

variable {t : FileTree} {home here start : Path} {found : Option Path}

/-- The search is through one directory after the other, and home. -/
theorem candidates_eq (home here : Path) : candidates home here =
    (List.range (min 10 (here.parts.length + 1))).flatMap (fun n => filesIn (here.up n)) ++
      [fileAtHome home] := by
  rw [candidates, Path.reverse_ancestors, ← List.map_take, List.take_range, List.flatMap_map]
  rfl

/-- What is asked of one directory. -/
theorem findM?_filesIn {dir : Path} (h : (filesIn dir).findM? t.pathExists = .ok found) :
    (∃ p, found = some p ∧ IsFileOf t.Stands dir p) ∨
      (found = none ∧ ∀ p ∈ filesIn dir, ¬t.Stands p) := by
  rw [filesIn, Outcome.findM?_cons_eq_ok_iff, Outcome.findM?_cons_eq_ok_iff] at h
  rcases h with ⟨hplain, rfl⟩ | ⟨hplain, ⟨hhidden, rfl⟩ | ⟨hhidden, hnil⟩⟩
  · exact .inl ⟨_, rfl, .inl ⟨rfl, FileTree.stands_of_pathExists hplain⟩⟩
  · exact .inl ⟨_, rfl, .inr ⟨rfl, FileTree.stands_of_pathExists hhidden,
      FileTree.not_stands_of_pathExists hplain⟩⟩
  · refine .inr ⟨(Except.ok.inj hnil).symm, fun p hp => ?_⟩
    rcases List.mem_pair.1 hp with rfl | rfl
    · exact FileTree.not_stands_of_pathExists hplain
    · exact FileTree.not_stands_of_pathExists hhidden

/-- **What is asked of the directories up to a level**, by induction on the level. -/
theorem findM?_levels {k : Nat} (h : ((List.range k).flatMap fun n => filesIn (here.up n)).findM?
      t.pathExists = .ok found) :
    (∃ n p, n < k ∧ found = some p ∧ IsNearestAt t.Stands here n p) ∨
      (found = none ∧ NoneBelow t.Stands here k) := by
  induction k generalizing found with
  | zero => exact .inr ⟨(Except.ok.inj h).symm, nofun⟩
  | succ k ih =>
    rw [List.range_succ, List.flatMap_append, List.flatMap_singleton] at h
    rcases Outcome.findM?_append_eq_ok h with ⟨hbelow, hsome⟩ | ⟨hbelow, hlevel⟩
    · rcases ih hbelow with ⟨n, p, hn, hp⟩ | ⟨rfl, -⟩
      · exact .inl ⟨n, p, Nat.lt_succ_of_lt hn, hp⟩
      · cases hsome
    · obtain ⟨_, _, _, hp, _⟩ | ⟨-, hnone⟩ := ih hbelow
      · cases hp
      rcases findM?_filesIn hlevel with ⟨p, rfl, hp⟩ | ⟨rfl, hfiles⟩
      · exact .inl ⟨k, p, Nat.lt_succ_self k, rfl, hp, hnone⟩
      · refine .inr ⟨rfl, fun m hm => ?_⟩
        rcases Nat.lt_succ_iff_lt_or_eq.1 hm with hm | rfl
        · exact hnone m hm
        · exact hfiles

/-- Above the root there are no further files. -/
theorem NoneBelow.of_depth {stands : Path → Prop}
    (h : NoneBelow stands here (here.parts.length + 1)) (n : Nat) : NoneBelow stands here n := by
  intro m _
  have hup : here.up m = here.up (min m here.parts.length) := by
    rw [Path.up_eq, Path.up_eq]
    congr 2
    omega
  rw [hup]
  exact h _ (by omega)

theorem isNearest_of_findM? (h : (candidates home here).findM? t.pathExists = .ok found) :
    IsNearest t.Stands home here 9 found := by
  rw [candidates_eq] at h
  rcases Outcome.findM?_append_eq_ok h with ⟨hlevels, hsome⟩ | ⟨hlevels, hhome⟩
  · rcases findM?_levels hlevels with ⟨n, p, hn, rfl, hp⟩ | ⟨rfl, -⟩
    · exact .above (by omega) hp
    · cases hsome
  · obtain ⟨_, _, _, hp, _⟩ | ⟨-, hnone⟩ := findM?_levels hlevels
    · cases hp
    have hten : NoneBelow t.Stands here (9 + 1) := by
      -- ten directories are looked at, or all of them
      rcases Nat.le_total 10 (here.parts.length + 1) with hle | hle
      · rwa [Nat.min_eq_left hle] at hnone
      · rw [Nat.min_eq_right hle] at hnone
        exact hnone.of_depth _
    rcases Outcome.findM?_cons_eq_ok_iff.1 hhome with ⟨hstands, rfl⟩ | ⟨hstands, hnil⟩
    · exact .atHome hten (FileTree.stands_of_pathExists hstands)
    · obtain rfl := Except.ok.inj hnil
      exact .nowhere hten (FileTree.not_stands_of_pathExists hstands)

/-- Whether an outcome is that of the search from a directory. -/
structure IsSearch (t : FileTree) (home start : Path) (result : Outcome (Option Path)) : Prop where
  /-- The search comes to an end unless a path cannot be asked for. -/
  returns : FileTree.hasNull start = false →
    (∀ p ∈ candidates home (start.resolve t.cwd), ¬p.IsTooLong) → ∃ found, result = .ok found
  nearest : ∀ found, result = .ok found →
    IsNearest t.Stands home (start.resolve t.cwd) 9 found
  /-- It is as if it went ten levels up, unless a file is nearest just there. -/
  tenth : ∀ found, result = .ok found →
    (IsNearest t.Stands home (start.resolve t.cwd) 10 found ↔
      ∀ p, IsNearestAt t.Stands (start.resolve t.cwd) 10 p → found = some p)

/-- **The search finds the nearest settings file up to nine levels above**, and otherwise the one at
home. -/
theorem find?_isSearch (t : FileTree) (home start : Path) :
    IsSearch t home start (find? t home start) := by
  have hnearest : ∀ found, find? t home start = .ok found →
      IsNearest t.Stands home (start.resolve t.cwd) 9 found := by
    intro found h
    obtain ⟨here, hresolve, hfind⟩ := Outcome.bind_eq_ok_iff.1 h
    rw [FileTree.resolve] at hresolve
    split at hresolve
    · cases hresolve
    · obtain rfl := Except.ok.inj hresolve
      exact isNearest_of_findM? hfind
  refine ⟨fun hnull hshort => ?_, hnearest, fun found h => (hnearest found h).succ_iff⟩
  obtain ⟨found, hfound⟩ := Outcome.exists_findM? fun p hp =>
    FileTree.exists_pathExists (t := t) (hshort p hp)
  refine ⟨found, Outcome.bind_eq_ok_iff.2 ⟨start.resolve t.cwd, ?_, hfound⟩⟩
  rw [FileTree.resolve, hnull]
  rfl

/-- Ten directories, one in the other, above them a settings file. -/
def tenDirectories : FileTree where
  cwd := ["a", "b", "c", "d", "e", "f", "g", "h", "i", "j"]
  nodes := (["docval.yaml"], .file []) ::
    (List.range 10).map fun n =>
      (["a", "b", "c", "d", "e", "f", "g", "h", "i", "j"].take (n + 1), .directory)

/-- The file ten levels up is not found. -/
theorem find?_tenDirectories :
    find? tenDirectories (Path.ofParts ["home"]) .here = .ok none ∧
      ¬IsNearest tenDirectories.Stands (Path.ofParts ["home"])
        (Path.here.resolve tenDirectories.cwd) 10 none := by
  refine ⟨rfl, fun h => ?_⟩
  cases h with
  | nowhere hnone =>
    exact hnone 10 (by decide) (Path.ofParts ["docval.yaml"]) (by decide +kernel) ⟨_, rfl⟩

end Search

end Settings
end ValueDocs
