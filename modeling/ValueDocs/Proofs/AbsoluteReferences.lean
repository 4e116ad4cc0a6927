import ValueDocs.Loose.Resolution
import ValueDocs.Proofs.Files.Paths

/-!
# Proofs/AbsoluteReferences — what the whole path of a symbol leads to

A reference leads to the first symbol whose title it is or whose path ends in its parts
(`Symbol.isAt_iff`), and the slash in front of a whole path counts for nothing.  So the path of a
symbol leads to that symbol unless one listed before it has the path as its title or ends in it
(`Catalog.find_path_iff`); what is listed after it is never found.
-/

namespace ValueDocs

open Text

/-! ## Paths and their parts -/

/-- The text of some parts, each after a slash. -/
def slashed (parts : List (List Char)) : List Char := parts.flatMap ('/' :: ·)

theorem slashed_splitAt (s : List Char) : slashed (splitAt '/' s) = '/' :: s := by
  induction s with
  | nil => rfl
  | cons c s ih =>
    obtain ⟨piece, pieces, hs⟩ := List.exists_cons_of_ne_nil (splitAt_ne_nil '/' s)
    by_cases hc : c = '/'
    · rw [splitAt, if_pos hc, hc, ← ih]
      rfl
    · rw [hs] at ih
      rw [splitAt_cons_of_ne hc hs]
      exact congrArg ('/' :: c :: ·) (List.cons_eq_cons.1 ih).2

/-- **A text ends in another behind a slash** when the parts of the one end in those of the
other. -/
theorem slash_suffix_iff {s t : List Char} :
    '/' :: s <:+ '/' :: t ↔ splitAt '/' s <:+ splitAt '/' t := by
  constructor
  · rintro ⟨front, h⟩
    have hsplit := congrArg (splitAt '/') h
    rw [splitAt_append_cons, splitAt, if_pos rfl] at hsplit
    obtain ⟨piece, pieces, hfront⟩ := List.exists_cons_of_ne_nil (splitAt_ne_nil '/' front)
    rw [hfront, List.cons_append] at hsplit
    exact ⟨pieces, (List.cons_eq_cons.1 hsplit).2⟩
  · rintro ⟨front, h⟩
    refine ⟨slashed front, ?_⟩
    rw [← slashed_splitAt s, ← slashed_splitAt t, ← h]
    exact List.flatMap_append.symm

namespace Symbol

/-- The parts of a symbol's path. -/
def parts (s : Symbol) : List (List Char) := splitAt '/' (trimSlashes s.pathText.toList)

/-- Whether a symbol has a whole path: parts that are not empty, each after a slash, without blanks
at the ends. -/
structure IsAbsolute (s : Symbol) : Prop where
  path_eq : s.path = .str (String.ofList (slashed s.parts))
  ne_nil : ∀ part ∈ s.parts, part ≠ []
  trimmed : trim s.pathText.toList = s.pathText.toList

instance (s : Symbol) : Decidable s.IsAbsolute :=
  decidable_of_iff (s.path = .str (String.ofList (slashed s.parts)) ∧
    (∀ part ∈ s.parts, part ≠ []) ∧ trim s.pathText.toList = s.pathText.toList)
    ⟨fun h => ⟨h.1, h.2.1, h.2.2⟩, fun h => ⟨h.path_eq, h.ne_nil, h.trimmed⟩⟩

theorem IsAbsolute.path_eq_pathText {s : Symbol} (h : s.IsAbsolute) : s.path = .str s.pathText := by
  rw [pathText, h.path_eq]
  rfl

/-- Whether a symbol answers to the path of another: by its title, or by the last parts of its own
path. -/
def Answers (t s : Symbol) : Prop :=
  t.title = .str (String.ofList (trimSlashes s.pathText.toList)) ∨ s.parts <:+ t.parts

instance (t s : Symbol) : Decidable (t.Answers s) := inferInstanceAs (Decidable (_ ∨ _))

/-- **A name is at a path** that ends in the parts of the name. -/
theorem isAt_iff {name : List Char} {path : String} :
    isAt name path = true ↔ splitAt '/' name <:+ splitAt '/' (trimSlashes path.toList) := by
  rw [← slash_suffix_iff, List.suffix_cons_iff, List.cons_eq_cons, isAt, Bool.or_eq_true,
    List.isSuffixOf_iff_suffix, beq_iff_eq, and_iff_right rfl, eq_comm]

theorem isNamedBy_pathText_iff {t s : Symbol} (ht : t.IsAbsolute) (hs : s.IsAbsolute) :
    t.isNamedBy s.pathText = true ↔ t.Answers s := by
  have htitle (name : List Char) : t.title.string?.map String.toList = some name ↔
      t.title = .str (String.ofList name) := by
    cases t.title <;> simp [Json.string?, ← String.toList_inj]
  rw [isNamedBy, ht.path_eq_pathText, hs.trimmed]
  simp only [Json.string?, Bool.or_eq_true, beq_iff_eq]
  exact or_congr (htitle _) isAt_iff

end Symbol

/-! ## Looking a path up -/

namespace Catalog

/-- A look-up does not fail in a catalog whose paths are texts. -/
theorem find_str {c : Catalog} (hpaths : ∀ t ∈ c.symbols, t.hasPath = true) (reference : String) :
    c.find (.str reference) = .ok (c.find? reference) := by
  have hall : ((c.symbols.takeWhile fun t => !t.isNamedBy reference).all (·.hasPath)) = true :=
    List.all_eq_true.2 fun t ht => hpaths t ((List.takeWhile_prefix _).subset ht)
  rw [find_text, if_pos hall]

section Path

variable {c : Catalog} (habsolute : ∀ t ∈ c.symbols, t.IsAbsolute) {before after : List Symbol}
  {s : Symbol} (hs : c.symbols = before ++ s :: after)
include habsolute hs

/-- A symbol is found under its path unless one before it is. -/
theorem find?_pathText :
    c.find? s.pathText = (before.find? (·.isNamedBy s.pathText)).or (some s) := by
  have hself := habsolute s (by simp [hs])
  rw [find?, hs, List.find?_append, List.find?_cons_of_pos]
  exact (Symbol.isNamedBy_pathText_iff hself hself).2 (.inr List.suffix_rfl)

omit hs in
theorem find_pathText : c.find (.str s.pathText) = .ok (c.find? s.pathText) :=
  find_str (fun t ht => by
    rw [Symbol.hasPath, (habsolute t ht).path_eq_pathText]
    rfl) s.pathText

theorem find_path : c.find s.path = .ok (c.find? s.pathText) := by
  rw [(habsolute s (by simp [hs])).path_eq_pathText, find_pathText habsolute]

/-- **What the whole path of a symbol leads to.**  A look-up finds the symbol or one listed before
it, and a reference to the path resolves to the path of the one found.  It is the symbol itself if
and only if none listed before it has the path as its title or a path that ends in it. -/
theorem find_path_iff (hdistinct : (c.symbols.map (·.path)).Nodup) :
    ∃ t ∈ before ++ [s], c.find s.path = .ok (some t) ∧
      (∀ (r : Reference) (contextPath : String), r.kind = .symbol → r.target = s.pathText →
        c.resolver r contextPath = .ok (some ⟨t.pathText, t.title⟩)) ∧
      (t = s ↔ ∀ u ∈ before, ¬ u.Answers s) ∧ (t.pathText = s.pathText ↔ t = s) := by
  have hself := habsolute s (by simp [hs])
  have hbefore {u : Symbol} (hu : u ∈ before) : u.IsAbsolute := habsolute u (by simp [hs, hu])
  have hresolve {t : Symbol} (ht : c.find? s.pathText = some t) (r : Reference)
      (contextPath : String) (hkind : r.kind = .symbol) (htarget : r.target = s.pathText) :
      c.resolver r contextPath = .ok (some ⟨t.pathText, t.title⟩) := by
    simp only [resolver, hkind, htarget, find_pathText habsolute, ht]
    rfl
  have hfind := find?_pathText habsolute hs
  rw [find_path habsolute hs]
  rcases hfound : before.find? (·.isNamedBy s.pathText) with _ | t
  · rw [hfound, Option.none_or] at hfind
    refine ⟨s, by simp, by rw [hfind], hresolve hfind, ?_, by simp⟩
    refine iff_of_true rfl fun u hu hanswers => List.find?_eq_none.1 hfound u hu ?_
    exact (Symbol.isNamedBy_pathText_iff (hbefore hu) hself).2 hanswers
  · rw [hfound, Option.some_or] at hfind
    have ht := List.mem_of_find?_eq_some hfound
    have hanswers := (Symbol.isNamedBy_pathText_iff (hbefore ht) hself).1 <|
      List.find?_some (p := fun u : Symbol => u.isNamedBy s.pathText) hfound
    have hpath : t.path ≠ s.path := by
      rw [hs, List.map_append, List.map_cons] at hdistinct
      exact (List.nodup_append.1 hdistinct).2.2 _ (List.mem_map_of_mem ht) _ (List.mem_cons_self ..)
    have hne : t ≠ s := fun h => hpath (congrArg Symbol.path h)
    refine ⟨t, by simp [ht], by rw [hfind], hresolve hfind, ?_, ?_⟩
    · exact iff_of_false hne fun hnone => hnone t ht hanswers
    · refine iff_of_false (fun h => hpath ?_) hne
      rw [(hbefore ht).path_eq_pathText, hself.path_eq_pathText, h]

end Path

/-! ## Two kinds -/

/-- The data tree of a catalog of symbols with one title. -/
def kindTree (paths : List String) : Json :=
  .obj [("module", .str "Kit"),
    ("symbols", .arr (paths.map fun path => .obj [("title", .str "Kind"), ("path", .str path)]))]

/-- The catalog in the tree. -/
def kindCatalog (paths : List String) : Catalog where
  module := .str "Kit"
  symbols := paths.map fun path => ⟨.str "Kind", .str path, []⟩

/-- The longer of two paths leads to its symbol, also when the shorter one is listed before it. -/
theorem find_path_iff_longerPath :
    Catalog.ofJson (kindTree ["/Kit/Kind", "/App/Kit/Kind"]) =
        .ok (kindCatalog ["/Kit/Kind", "/App/Kit/Kind"]) ∧
      (∀ t ∈ (kindCatalog ["/Kit/Kind", "/App/Kit/Kind"]).symbols, t.IsAbsolute) ∧
      ((kindCatalog ["/Kit/Kind", "/App/Kit/Kind"]).symbols.map (·.path)).Nodup ∧
      (kindCatalog ["/Kit/Kind", "/App/Kit/Kind"]).find (.str "/App/Kit/Kind") =
        .ok (some ⟨.str "Kind", .str "/App/Kit/Kind", []⟩) ∧
      (kindCatalog ["/Kit/Kind", "/App/Kit/Kind"]).resolver ⟨"/App/Kit/Kind", .symbol, 0, 17⟩ "/" =
        .ok (some ⟨"/App/Kit/Kind", .str "Kind"⟩) := by
  have habsolute : ∀ t ∈ (kindCatalog ["/Kit/Kind", "/App/Kit/Kind"]).symbols, t.IsAbsolute := by
    decide +kernel
  have hdistinct : ((kindCatalog ["/Kit/Kind", "/App/Kit/Kind"]).symbols.map (·.path)).Nodup := by
    decide +kernel
  have hlisted : (kindCatalog ["/Kit/Kind", "/App/Kit/Kind"]).symbols =
      [⟨.str "Kind", .str "/Kit/Kind", []⟩] ++ [⟨.str "Kind", .str "/App/Kit/Kind", []⟩] := rfl
  obtain ⟨t, -, hfind, hresolve, hself, -⟩ := find_path_iff habsolute hlisted hdistinct
  obtain rfl := hself.2 (by decide +kernel)
  exact ⟨rfl, habsolute, hdistinct, hfind, hresolve ⟨"/App/Kit/Kind", .symbol, 0, 17⟩ "/" rfl rfl⟩

/-- The shorter path leads to the other symbol when that is listed first. -/
theorem exists_find_path_ne : ∃ (c : Catalog) (s t : Symbol),
    Catalog.ofJson (kindTree ["/App/Kit/Kind", "/Kit/Kind"]) = .ok c ∧
      (∀ u ∈ c.symbols, u.IsAbsolute) ∧ (c.symbols.map (·.path)).Nodup ∧ s ∈ c.symbols ∧
      c.find s.path = .ok (some t) ∧ t ≠ s ∧
      c.resolver ⟨s.pathText, .symbol, 0, 13⟩ "/" = .ok (some ⟨t.pathText, t.title⟩) ∧
      t.pathText ≠ s.pathText := by
  refine ⟨kindCatalog ["/App/Kit/Kind", "/Kit/Kind"], ⟨.str "Kind", .str "/Kit/Kind", []⟩,
    ⟨.str "Kind", .str "/App/Kit/Kind", []⟩, rfl, by decide +kernel, by decide +kernel,
    by decide, rfl, by decide, rfl, by decide +kernel⟩

end Catalog
end ValueDocs
