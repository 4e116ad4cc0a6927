import ValueDocs.Proofs.Contents
import ValueDocs.Proofs.DiagnosticRecords
import ValueDocs.Proofs.Typed.Values

/-!
# Proofs/PersistedRecords — every record is read back from its data tree

Content in variants is written as a list in the order of the tags (`Variants.isWrittenAs_toJson`),
so the list does not depend on the order in which the variants were given
(`Variants.toJson_eq_iff`).  Reading the list back gives the content it was written from, and so
with every other record (`ofJson_toJson_records`).  A reader takes the parts of a record as they
come, so this holds whatever they are; a diagnostic is read back exactly if its solutions are
consistent (`Loose.Diagnostic.ofJson_toJson_iff`).
-/

namespace ValueDocs

/-! ## The order of tags -/

/-- Whether a tag stands before another: the primary one before every text, and texts by their code
points. -/
inductive Tag.Precedes : Tag → Tag → Prop
  | primary (t : String) : Precedes none (some t)
  | text {s t : String} (h : s.toList.map Char.toNat < t.toList.map Char.toNat) :
      Precedes (some s) (some t)

theorem map_toNat_lt_iff {s t : List Char} : s.map Char.toNat < t.map Char.toNat ↔ s < t := by
  induction s generalizing t with
  | nil => cases t <;> simp
  | cons c s ih =>
    cases t with
    | nil => simp
    | cons d t =>
      rw [List.map_cons, List.map_cons, List.cons_lt_cons_iff, List.cons_lt_cons_iff, ih,
        Char.toNat_inj]
      rfl

theorem Tag.precedes_iff {s t : Tag} : s.Precedes t ↔ s.rank < t.rank := by
  constructor
  · rintro (_ | h)
    · exact WithBot.bot_lt_coe _
    · exact WithBot.coe_lt_coe.2 (String.lt_iff_toList_lt.2 (map_toNat_lt_iff.1 h))
  · intro h
    cases t with
    | none => exact absurd h not_lt_bot
    | some t =>
      cases s with
      | none => exact .primary t
      | some s =>
        exact .text (map_toNat_lt_iff.2 (String.lt_iff_toList_lt.1 (WithBot.coe_lt_coe.1 h)))

/-! ## Records of texts and whole numbers -/

theorem Range.toLoose_injective : Function.Injective toLoose := by
  rintro ⟨⟨_, _⟩, ⟨_, _⟩⟩ ⟨⟨_, _⟩, ⟨_, _⟩⟩ h
  simpa [toLoose, Position.toLoose, and_assoc] using h

theorem Segment.toLoose_injective : Function.Injective toLoose := by
  rintro ⟨_, _, _⟩ ⟨_, _, _⟩ h
  simpa [toLoose] using h

/-- A block is known from its record. -/
theorem Block.toLoose_injective : Function.Injective toLoose := by
  rintro ⟨_, _, _, _, _, _⟩ ⟨_, _, _, _, _, _⟩ h
  have hint : Function.Injective Json.int := fun _ _ => Json.int.inj
  simpa [toLoose, (Option.map_injective Range.toLoose_injective).eq_iff,
    (List.map_injective_iff.2 hint).eq_iff,
    (List.map_injective_iff.2 Segment.toLoose_injective).eq_iff] using h

/-! ## Content in variants -/

namespace Variants

theorem entryToLoose_injective : Function.Injective entryToLoose := by
  rintro ⟨_, _⟩ ⟨_, _⟩ h
  simpa [entryToLoose, (List.map_injective_iff.2 Block.toLoose_injective).eq_iff] using h

variable {v w : Variants}

theorem nodup_tags_sorted (hv : v.tags.Nodup) : (v.sorted.map (·.1)).Nodup :=
  (v.isStableSort_sorted.perm.map _).nodup_iff.2 hv

/-- The tags of the variants in order stand one before the other. -/
theorem pairwise_precedes_sorted (hv : v.tags.Nodup) :
    (v.sorted.map (·.1)).Pairwise Tag.Precedes := by
  have hle : (v.sorted.map (·.1)).Pairwise fun s t => Tag.rank s ≤ Tag.rank t :=
    List.pairwise_map.2 v.isStableSort_sorted.ascending
  refine (hle.and (nodup_tags_sorted hv)).imp fun {s t} h => Tag.precedes_iff.2 ?_
  exact lt_of_le_of_ne h.1 h.2

/-- **The variants in order are those of any other order.** -/
theorem sorted_eq_of_perm (h : v.entries.Perm w.entries) (hv : v.tags.Nodup) :
    v.sorted = w.sorted := by
  have hw : w.tags.Nodup := (h.map _).nodup_iff.1 hv
  have hperm : v.sorted.Perm w.sorted :=
    v.isStableSort_sorted.perm.trans (h.trans w.isStableSort_sorted.perm.symm)
  refine hperm.eq_of_pairwise ?_ v.isStableSort_sorted.ascending w.isStableSort_sorted.ascending
  intro e f he hf hef hfe
  have htag : e.1 = f.1 := hef.antisymm hfe
  exact List.inj_on_of_nodup_map (nodup_tags_sorted hv) he (hperm.symm.subset hf) htag

/-! ## Content as it is written -/

/-- Whether a data tree is the list of variants in order: every variant that was given, the primary
one first and the others by their tags. -/
def IsWrittenAs (v : Variants) (j : Json) : Prop :=
  ∃ entries : List (Tag × List Block), entries.Perm v.entries ∧
    (entries.map (·.1)).Pairwise Tag.Precedes ∧
    j = .arr (entries.map fun (tag, blocks) =>
      .obj [("variant", .ofText? tag), ("blocks", .arr (blocks.map Block.toJson))])

/-- The order of the variants in a record is that of their tags. -/
theorem sortOn_entries_toLoose (v : Variants) :
    Json.sortOn Loose.Variants.sortKey v.toLoose.entries = v.sorted.map entryToLoose :=
  (Json.sortedOn_eq_ok_iff.1 v.sorted_toLoose).2

theorem toJson_toLoose (v : Variants) : v.toLoose.toJson = .arr (v.sorted.map fun (tag, blocks) =>
    .obj [("variant", .ofText? tag), ("blocks", .arr (blocks.map Block.toJson))]) := by
  rw [Loose.Variants.toJson, sortOn_entries_toLoose, List.map_map]
  refine congrArg Json.arr (List.map_congr_left fun e _ => ?_)
  simp [entryToLoose]

theorem isWrittenAs_toJson (hv : v.tags.Nodup) : v.IsWrittenAs v.toLoose.toJson :=
  ⟨v.sorted, v.isStableSort_sorted.perm, pairwise_precedes_sorted hv, v.toJson_toLoose⟩

theorem isListable_toLoose (v : Variants) : v.toLoose.isListable = true :=
  (Json.sortedOn_eq_ok_iff.1 v.sorted_toLoose).1

end Variants

namespace Loose.Variants

/-- A variant with a new tag comes last. -/
theorem setEntry_of_notMem {tag : Json} (blocks : List Block) {entries : List (Json × List Block)}
    (h : ∀ e ∈ entries, e.1.equal tag = false) :
    setEntry tag blocks entries = entries ++ [(tag, blocks)] := by
  induction entries with
  | nil => rfl
  | cons e entries ih =>
    rw [List.forall_mem_cons] at h
    rw [setEntry, if_neg (by simp [h.1]), ih h.2, List.cons_append]

theorem foldl_setEntry_of_pairwise (before after : List (Json × List Block))
    (h : (before ++ after).Pairwise fun e f => e.1.equal f.1 = false) :
    after.foldl (fun acc (tag, blocks) => setEntry tag blocks acc) before = before ++ after := by
  induction after generalizing before with
  | nil => rw [List.append_nil, List.foldl_nil]
  | cons e after ih =>
    have hnew : ∀ f ∈ before, f.1.equal e.1 = false := fun f hf =>
      (List.pairwise_append.1 h).2.2 f hf e List.mem_cons_self
    change after.foldl _ (setEntry e.1 e.2 before) = _
    rw [setEntry_of_notMem _ hnew, ih _ (by simpa using h), List.append_assoc,
      List.singleton_append]

theorem entryOfJson_obj {e : Json × List Block} (h : e.1.keptBy = .ok e.1) :
    entryOfJson (.obj [("variant", e.1), ("blocks", .arr (e.2.map Block.toJson))]) = .ok e := by
  have hblocks : itemsOf Block.ofJson
      (.obj [("variant", e.1), ("blocks", .arr (e.2.map Block.toJson))]) "blocks" = .ok e.2 :=
    itemsOf_eq Block.ofJson_toJson (by simp [Json.get_cons_of_ne])
  simp [entryOfJson, hblocks, h, bind, Except.bind, pure, Except.pure]

/-- **Variants are read back in the order they are listed in**, if their tags differ and can be
kept by. -/
theorem ofJson_arr {entries : List (Json × List Block)}
    (hkept : ∀ e ∈ entries, e.1.keptBy = .ok e.1)
    (hdistinct : entries.Pairwise fun e f => e.1.equal f.1 = false) :
    ofJson (.arr (entries.map fun (tag, blocks) =>
      .obj [("variant", tag), ("blocks", .arr (blocks.map Block.toJson))])) = .ok ⟨entries⟩ := by
  have hentries : (entries.map fun (tag, blocks) =>
      Json.obj [("variant", tag), ("blocks", .arr (blocks.map Block.toJson))]).mapM entryOfJson =
        .ok entries := by
    rw [Outcome.mapM_eq_ok_iff, List.forall₂_map_left_iff]
    exact List.forall₂_same.2 fun e he => entryOfJson_obj (hkept e he)
  rw [ofJson]
  split
  · rw [Json.mapElements_arr, hentries]
    exact congrArg (fun entries => Except.ok (Variants.mk entries))
      (foldl_setEntry_of_pairwise [] entries hdistinct)
  · next hempty =>
    obtain rfl : entries = [] := by simpa [Json.truthy] using hempty
    rfl

end Loose.Variants

namespace Variants

variable {v w : Variants}

/-- **Content is read back with its variants in order.** -/
theorem ofJson_toJson (hv : v.tags.Nodup) :
    Loose.Variants.ofJson v.toLoose.toJson = .ok (toLoose ⟨v.sorted⟩) := by
  rw [Loose.Variants.toJson, sortOn_entries_toLoose]
  refine Loose.Variants.ofJson_arr ?_ ?_
  · rintro _ he
    obtain ⟨e, -, rfl⟩ := List.mem_map.1 he
    exact Json.keptBy_ofText? e.1
  · refine List.pairwise_map.2 ((List.pairwise_map.1 (nodup_tags_sorted hv)).imp fun hne => ?_)
    simpa [entryToLoose] using hne

/-- Content is the same with its variants in order. -/
theorem same_sorted (hv : v.tags.Nodup) : v.same ⟨v.sorted⟩ = true :=
  same_of_perm v.isStableSort_sorted.perm.symm hv

/-- **Two contents are written alike exactly when they have the same variants**, in whatever order
these were given. -/
theorem toJson_eq_iff (hv : v.tags.Nodup) (hw : w.tags.Nodup) :
    v.toLoose.toJson = w.toLoose.toJson ↔ v.entries.Perm w.entries := by
  constructor
  · intro h
    have hread := ofJson_toJson hv
    rw [h, ofJson_toJson hw, Except.ok.injEq] at hread
    have hsorted : w.sorted = v.sorted := List.map_injective_iff.2 entryToLoose_injective
      (congrArg Loose.Variants.entries hread)
    exact v.isStableSort_sorted.perm.symm.trans (hsorted ▸ w.isStableSort_sorted.perm)
  · intro h
    rw [toJson_toLoose, toJson_toLoose, sorted_eq_of_perm h hv]

end Variants

/-! ## Values -/

/-- **A reconciled value is read back**, its content with the variants in order. -/
theorem ReconciledValue.ofJson_toJson {v : ReconciledValue} (hv : v.content.tags.Nodup) :
    Loose.ReconciledValue.ofJson v.toLoose.toJson =
      .ok (toLoose { v with content := ⟨v.content.sorted⟩ }) := by
  simp [toLoose, Loose.ReconciledValue.toJson, Loose.ReconciledValue.ofJson, Json.field_cons_of_ne,
    Json.get_cons_of_ne, Variants.ofJson_toJson hv, bind, Except.bind, pure, Except.pure]

/-! ## Diagnostics -/

namespace Loose

/-- A solution as it is written: a place without a replacement is left out. -/
def Solution.kept (s : Solution) : Solution :=
  if s.replacement = .null then { s with replacementRange := none } else s

theorem Solution.kept_eq_self_iff {s : Solution} : s.kept = s ↔ s.IsConsistent := by
  obtain ⟨summary, replacement, range⟩ := s
  by_cases h : replacement = .null <;> simp [kept, IsConsistent, h, eq_comm]

theorem Solution.ofJson_toJson (s : Solution) : ofJson s.toJson = .ok s.kept := by
  obtain ⟨summary, replacement, range⟩ := s
  by_cases h : replacement = .null
  · simp [toJson, ofJson, kept, h, Json.get_cons_of_ne, Span.get?, Span.ofJson?, Json.truthy, bind,
      Except.bind, pure, Except.pure]
  · simp [toJson, ofJson, kept, h, Json.get_cons_of_ne, Span.get?, bind, Except.bind, pure,
      Except.pure]

/-- A diagnostic is read back with its solutions as they are written. -/
theorem Diagnostic.ofJson_toJson (d : Diagnostic) :
    ofJson d.toJson = .ok { d with solutions := d.solutions.map Solution.kept } := by
  obtain ⟨kind, summary, source, range, solutions, severity⟩ := d
  have hsolutions : (Json.arr (solutions.map Solution.toJson)).mapElements Solution.ofJson =
      .ok (solutions.map Solution.kept) := by
    rw [Json.mapElements_arr, Outcome.mapM_eq_ok_iff, List.forall₂_map_left_iff,
      List.forall₂_map_right_iff]
    exact List.forall₂_same.2 fun s _ => s.ofJson_toJson
  simp [toJson, ofJson, itemsOf, Span.get?, Json.field_cons_of_ne, Json.get_cons_of_ne, hsolutions,
    bind, Except.bind, pure, Except.pure]

/-- **A diagnostic is read back as it was exactly if its solutions are consistent.** -/
theorem Diagnostic.ofJson_toJson_iff {d : Diagnostic} :
    ofJson d.toJson = .ok d ↔ ∀ s ∈ d.solutions, s.IsConsistent := by
  have hkept : d.solutions.map Solution.kept = d.solutions ↔ ∀ s ∈ d.solutions, s.kept = s := by
    rw [← List.map_inj_left, List.map_id']
  rw [ofJson_toJson, Except.ok.injEq]
  constructor
  · intro h s hs
    exact Solution.kept_eq_self_iff.1 (hkept.1 (congrArg Diagnostic.solutions h) s hs)
  · intro h
    rw [hkept.2 fun s hs => Solution.kept_eq_self_iff.2 (h s hs)]

end Loose

/-! ## All records -/

/-- Whether every record is read back from its data tree. -/
structure RecordsReadBack : Prop where
  documented : ∀ v : Loose.DocumentedValue, Loose.DocumentedValue.ofJson v.toJson = .ok v
  declared : ∀ v : Loose.DeclaredValue, Loose.DeclaredValue.ofJson v.toJson = .ok v
  /-- A value that is scanned from a page is such a record. -/
  scanned : ∀ v : DocumentedValue, Loose.DocumentedValue.ofJson v.toJson = .ok v.toLoose
  /-- A value that metadata declares is such a record. -/
  extracted : ∀ v : DeclaredValue, Loose.DeclaredValue.ofJson v.toJson = .ok v.toLoose
  /-- Content is the same again, in whatever order its variants were given. -/
  variants : ∀ v : Variants, v.tags.Nodup → ∃ w : Variants,
    Loose.Variants.ofJson v.toLoose.toJson = .ok w.toLoose ∧ w.tags.Nodup ∧ v.same w = true
  reconciled : ∀ v : ReconciledValue, v.content.tags.Nodup → ∃ w : ReconciledValue,
    Loose.ReconciledValue.ofJson v.toLoose.toJson = .ok w.toLoose ∧ w.content.tags.Nodup ∧ v.Same w
  diagnostic : ∀ d : Loose.Diagnostic,
    Loose.Diagnostic.ofJson d.toJson = .ok d ↔ ∀ s ∈ d.solutions, s.IsConsistent
  /-- A diagnostic of texts is such a record. -/
  found : ∀ d : Diagnostic,
    Loose.Diagnostic.ofJson d.toJson = .ok d.toLoose ↔ ∀ s ∈ d.toLoose.solutions, s.IsConsistent
  /-- The solutions that are suggested are consistent. -/
  suggested : ∀ config name range declared s,
    Loose.Suggestion.solution config name range declared = .ok s → s.IsConsistent
  /-- The order in which variants were given shows in no data tree. -/
  alike : ∀ v w : Variants, v.tags.Nodup → w.tags.Nodup →
    (v.toLoose.toJson = w.toLoose.toJson ↔ v.entries.Perm w.entries)
  /-- In the data tree the variants stand by their tags. -/
  written : ∀ v : Variants, v.tags.Nodup →
    v.toLoose.isListable = true ∧ v.IsWrittenAs v.toLoose.toJson

/-- **Every record is read back from its data tree.**  Documented and declared values and
diagnostics may have parts of any sort; the names, sources and tags of reconciled values are
texts. -/
theorem ofJson_toJson_records : RecordsReadBack where
  documented := Loose.DocumentedValue.ofJson_toJson
  declared := Loose.DeclaredValue.ofJson_toJson
  scanned v := v.toJson_toLoose ▸ Loose.DocumentedValue.ofJson_toJson v.toLoose
  extracted := Kernels.ofJson_declaredJson
  variants _ hv :=
    ⟨_, Variants.ofJson_toJson hv, Variants.nodup_tags_sorted hv, Variants.same_sorted hv⟩
  reconciled _ hv :=
    ⟨_, ReconciledValue.ofJson_toJson hv, Variants.nodup_tags_sorted hv, rfl, rfl,
      Variants.same_sorted hv, rfl⟩
  diagnostic _ := Loose.Diagnostic.ofJson_toJson_iff
  found d := d.toJson_toLoose ▸ Loose.Diagnostic.ofJson_toJson_iff
  suggested _ _ _ _ _ h := Loose.Suggestion.isConsistent_of_solution h
  alike _ _ hv hw := Variants.toJson_eq_iff hv hw
  written v hv := ⟨v.isListable_toLoose, Variants.isWrittenAs_toJson hv⟩

/-- Content with the primary variant given last. -/
def primaryLast : Variants :=
  ⟨[(some "swift", [⟨.paragraph, "See ``Day``.", none, [], [], none⟩]),
    (none, [⟨.description, "The fifth.", none, [], [], none⟩])]⟩

/-- A diagnostic whose solution has a place, but nothing to put there. -/
def misplaced : Loose.Diagnostic :=
  { kind := .unknownValue
    summary := .str "Unknown."
    solutions := [⟨.str "Remove it.", .null, some ⟨⟨.int 1, .int 1⟩, ⟨.int 1, .int 4⟩⟩⟩] }

/-- The order in which variants were given is lost, and so is a place for nothing. -/
theorem ofJson_toJson_records_primaryLast :
    let reversed : Variants := ⟨primaryLast.entries.reverse⟩
    primaryLast.tags.Nodup ∧ reversed.tags.Nodup ∧
      primaryLast.toLoose.toJson = reversed.toLoose.toJson ∧
      (∃ w : Variants, Loose.Variants.ofJson primaryLast.toLoose.toJson = .ok w.toLoose ∧
        primaryLast.same w = true) ∧
      Loose.Diagnostic.ofJson misplaced.toJson ≠ .ok misplaced := by
  have hlast : primaryLast.tags.Nodup := by decide
  have hreversed : (⟨primaryLast.entries.reverse⟩ : Variants).tags.Nodup := by decide
  obtain ⟨w, hread, -, hsame⟩ := ofJson_toJson_records.variants primaryLast hlast
  refine ⟨hlast, hreversed, ?_, ⟨w, hread, hsame⟩, fun hback => ?_⟩
  · exact (ofJson_toJson_records.alike _ _ hlast hreversed).2 (List.reverse_perm _).symm
  · have hconsistent := (ofJson_toJson_records.diagnostic misplaced).1 hback
    exact absurd (hconsistent _ List.mem_cons_self rfl) (by decide)

end ValueDocs
