import ValueDocs.Proofs.Directive.Descriptions
import ValueDocs.Proofs.PagePlaces

/-!
# Proofs/OwnLines — when the places of a value's own lines are right

A value records where its marker, its name and each line of its description stand.  Columns are
counted over spaces and tabs, while texts are trimmed of every blank, so the places are those of the
page exactly when no other blank stands in front of the marker, after the colon or in front of a
continuation line (`isLocatedOn_iff`).
-/

namespace ValueDocs

open Text Directive

/-- Whether the places of a value's own lines are those of the page. -/
structure DocumentedValue.IsLocatedOn (text : List Char) (v : DocumentedValue) : Prop where
  /-- The name is what stands within its range, trimmed. -/
  name : ∃ r, v.nameRange = some r ∧ (Page.slice? text r).map trim = some v.name.toList
  /-- The value's lines start with the marker of its list item. -/
  marker : ∃ r line item, v.range = some r ∧ Page.line? text r.lower.line = some line ∧
    ListItem.ofLine? line = some item ∧
    Page.from? text r.lower = some (item.marker ++ item.gap ++ item.content)
  /-- Each line of the description stands on the page line that follows as many lines below the
  first, from its own column on. -/
  description : ∀ (k : Nat) (t : List Char), (lines v.shortDescription.toList)[k]? = some t →
    ∃ r column rest, v.descriptionRange = some r ∧ v.descriptionColumns[k]? = some column ∧
      Page.from? text ⟨r.lower.line + k, column⟩ = some rest ∧ t <+: rest

theorem DocumentedValue.IsLocatedOn.slice {text : List Char} {v : DocumentedValue}
    (h : v.IsLocatedOn text) :
    (v.nameRange.bind (Page.slice? text)).map trim = some v.name.toList := by
  obtain ⟨r, hr, hslice⟩ := h.name
  rw [hr]
  exact hslice

namespace Directive

/-- Whether no blank but spaces and tabs stands in front of the marker, the description or a
continuation line. -/
structure Sighting.IsPlain (s : Sighting) : Prop where
  line : HasPlainIndent s.line
  description : isFilled s.item.description = true → HasPlainIndent s.item.description
  continuation : ∀ l ∈ Directive.continuation s.region, HasPlainIndent l

/-! ## The lines of a description -/

/-- Whether a line of a description stands on the page at its place. -/
def DescriptionLine.StandsOn (text : List Char) (d : DescriptionLine) : Prop :=
  ∃ rest, Page.from? text ⟨d.line, d.column⟩ = some rest ∧ d.text <+: rest

/-- **A trimmed text stands behind its indentation** exactly when that is all that was trimmed. -/
theorem standsOn_iff {text : List Char} {n : Int} {line source : Line} {k : Nat}
    (hline : Page.line? text n = some line) (hsource : line.drop k = source)
    (hf : isFilled source = true) :
    DescriptionLine.StandsOn text ⟨n, ((k + indent source : Nat) : Int) + 1, trim source⟩ ↔
      HasPlainIndent source := by
  rw [← trim_prefix_drop_indent_iff hf, DescriptionLine.StandsOn, Page.from?_eq_some hline,
    ← List.drop_drop, hsource]
  simp

/-! ## The places of a value -/

section Sighting

variable {text : List Char} {origin : Origin} {s : Sighting}

/-- **Description.**  Its lines stand at their places exactly when nothing but spaces and tabs was
trimmed in front of them. -/
theorem description_isLocated_iff (hp : Page.Holds text s.number (s.line :: s.region))
    (hs : s.IsStated) (hplain : HasPlainIndent s.line) :
    (∀ d ∈ descriptionLines s.number s.column s.item (continuation s.region),
        DescriptionLine.StandsOn text d) ↔
      (isFilled s.item.description = true → HasPlainIndent s.item.description) ∧
        ∀ l ∈ continuation s.region, HasPlainIndent l := by
  obtain ⟨item, stated, -, hvalue, -, hdrop⟩ := hs
  obtain ⟨-, -, -, -, hdescription⟩ := ValueItem.exists_of_ofContent? hvalue
  rw [forall_mem_descriptionLines]
  refine and_congr (forall_congr' fun hf => ?_) ?_
  · have hcut : s.line.drop (s.column + s.item.descriptionStart) = s.item.description := by
      rw [← List.drop_drop, hdrop hplain, hdescription]
    have := standsOn_iff hp.head hcut hf
    push_cast at this
    exact this
  · have hcontinued : Page.Holds text (s.number + 1) (continuation s.region) := by
      have := hp.tail
      rw [← continuation_append_drop s.region] at this
      exact this.left
    constructor
    · intro h l hl
      obtain ⟨k, hk⟩ := List.getElem?_of_mem hl
      have := standsOn_iff (k := 0) (hcontinued k l hk) rfl (isFilled_of_mem_continuation hl)
      rw [Nat.zero_add] at this
      exact this.1 (h k l hk)
    · intro h k l hk
      have hl := List.mem_of_getElem? hk
      have := standsOn_iff (k := 0) (hcontinued k l hk) rfl (isFilled_of_mem_continuation hl)
      rw [Nat.zero_add] at this
      exact this.2 (h l hl)

/-- **Name.**  It stands at its place when only spaces and tabs stand in front of the marker. -/
theorem name_isLocated (hp : Page.Holds text s.number (s.line :: s.region)) (hs : s.IsStated)
    (hplain : HasPlainIndent s.line) :
    ∃ r, (valueOf origin s).nameRange = some r ∧
      (Page.slice? text r).map trim = some (valueOf origin s).name.toList := by
  obtain ⟨item, stated, -, hvalue, -, hdrop⟩ := hs
  obtain ⟨lead, gap, hcontent, hstart, -⟩ := ValueItem.exists_of_ofContent? hvalue
  have hfrom := Page.from?_eq_some hp.head (s.column + s.item.nameStart)
  rw [← List.drop_drop, hdrop hplain, hcontent, hstart, List.drop_left] at hfrom
  push_cast at hfrom
  rw [← hstart] at hfrom
  refine ⟨_, rfl, ?_⟩
  rw [Range.onLine, Page.slice?_of_append hfrom]
  simp [valueOf]

/-- **Marker.**  The value's lines start with it exactly when only spaces and tabs stand in front
of it. -/
theorem marker_isLocated_iff (hp : Page.Holds text s.number (s.line :: s.region))
    (hs : s.IsStated) :
    (∃ r line item, (valueOf origin s).range = some r ∧
      Page.line? text r.lower.line = some line ∧ ListItem.ofLine? line = some item ∧
      Page.from? text r.lower = some (item.marker ++ item.gap ++ item.content)) ↔
      HasPlainIndent s.line := by
  obtain ⟨item, -, hitem, -, -, -⟩ := hs
  have hfrom := Page.from?_eq_some hp.head (indent s.line)
  obtain ⟨hlead, hrest, -⟩ := ListItem.exists_of_ofLine? hitem
  constructor
  · rintro ⟨r, line, item', hr, hline, hitem', hmarker⟩
    obtain rfl := Option.some.inj hr
    obtain rfl := Option.some.inj (hp.head.symm.trans hline)
    obtain rfl := Option.some.inj (hitem.symm.trans hitem')
    rw [hmarker, Option.some.injEq] at hfrom
    rw [← ListItem.indent_eq_length_lead hitem]
    have hlen := congrArg List.length hfrom
    have hline := congrArg List.length (ListItem.toLine_of_ofLine? hitem)
    have hle := indent_le_length s.line
    simp only [ListItem.toLine, List.length_append, List.length_drop] at hlen hline
    omega
  · intro hplain
    refine ⟨_, s.line, item, rfl, hp.head, hitem, ?_⟩
    rw [hfrom, hplain.drop_indent, hrest]

/-- The lines of the short description are those that were joined. -/
theorem lines_shortDescription (hp : Page.Holds text s.number (s.line :: s.region))
    (hs : s.IsStated) : lines (valueOf origin s).shortDescription.toList =
      (descriptionLines s.number s.column s.item (continuation s.region)).map (·.text) := by
  obtain ⟨item, stated, -, hvalue, hsuffix, -⟩ := hs
  obtain ⟨-, -, -, -, hdescription⟩ := ValueItem.exists_of_ofContent? hvalue
  have hown : IsUnbroken s.item.description := by
    refine (hp.isUnbroken (List.mem_cons_self ..)).of_subset fun c hc => hsuffix.subset ?_
    rw [← hdescription] at hc
    exact List.mem_of_mem_drop hc
  have hcontinued : ∀ l ∈ continuation s.region, IsUnbroken l := fun l hl =>
    hp.isUnbroken (List.mem_cons_of_mem _ ((List.takeWhile_sublist _).subset hl))
  change lines (String.ofList (unlines _)).toList = _
  rw [String.toList_ofList, map_text_descriptionLines]
  refine lines_unlines_map_trim (fun l hl => ?_) fun l hl => ?_
  · rcases List.mem_append.1 hl with hl | hl
    · split at hl
      · simp at hl
      · exact List.mem_singleton.1 hl ▸ hown
    · exact hcontinued l hl
  · rcases List.mem_append.1 hl with hl | hl
    · split at hl
      · simp at hl
      · next hf => exact List.mem_singleton.1 hl ▸ by simpa [isFilled] using hf
    · exact isFilled_of_mem_continuation hl

variable (origin) in
/-- A description is at its places when each of its lines is. -/
theorem description_iff_forall_standsOn (hp : Page.Holds text s.number (s.line :: s.region))
    (hs : s.IsStated) :
    (∀ (k : Nat) (t : List Char), (lines (valueOf origin s).shortDescription.toList)[k]? = some t →
      ∃ r column rest, (valueOf origin s).descriptionRange = some r ∧
        (valueOf origin s).descriptionColumns[k]? = some column ∧
        Page.from? text ⟨r.lower.line + k, column⟩ = some rest ∧ t <+: rest) ↔
      ∀ d ∈ descriptionLines s.number s.column s.item (continuation s.region),
        DescriptionLine.StandsOn text d := by
  set ds := descriptionLines s.number s.column s.item (continuation s.region) with hds
  rw [lines_shortDescription hp hs, ← hds]
  have hcolumns : (valueOf origin s).descriptionColumns = ds.map (·.column) := rfl
  obtain ⟨stop, hrange⟩ : ∃ stop, (valueOf origin s).descriptionRange =
      ds.head?.map fun d => ⟨⟨d.line, d.column⟩, stop⟩ := ⟨_, rfl⟩
  constructor
  · intro h d hd
    obtain ⟨k, hk⟩ := List.getElem?_of_mem hd
    obtain ⟨first, hfirst, hline⟩ := line_descriptionLines hk
    obtain ⟨r, column, rest, hr, hcolumn, hfrom, ht⟩ :=
      h k d.text (by rw [List.getElem?_map, hk, Option.map_some])
    rw [hcolumns, List.getElem?_map, hk, Option.map_some, Option.some.injEq] at hcolumn
    rw [hrange, hfirst, Option.map_some, Option.some.injEq] at hr
    rw [← hcolumn, ← hr, ← hline] at hfrom
    exact ⟨rest, hfrom, ht⟩
  · intro h k t ht
    rw [List.getElem?_map] at ht
    obtain ⟨d, hk, rfl⟩ := Option.map_eq_some_iff.1 ht
    obtain ⟨first, hfirst, hline⟩ := line_descriptionLines hk
    obtain ⟨rest, hfrom, ht⟩ := h d (List.mem_of_getElem? hk)
    refine ⟨_, d.column, rest, by rw [hrange, hfirst, Option.map_some], ?_, ?_, ht⟩
    · rw [hcolumns, List.getElem?_map, hk, Option.map_some]
    · rw [← hline]
      exact hfrom

end Sighting

/-- **The places of a value's own lines are right exactly when they are plain**: no blank but
spaces and tabs stands in front of the marker, after the colon, or in front of a line that
continues the description. -/
theorem isLocatedOn_iff (vocabulary : Vocabulary) (origin : Origin) (text : List Char)
    {s : Sighting} (hs : s ∈ scan vocabulary .nothing ((Page.ofText text).offset + 1)
      (lines (Page.ofText text).body)) :
    (valueOf origin s).IsLocatedOn text ↔ s.IsPlain := by
  obtain ⟨hstands, hstated⟩ := isFoundIn_of_mem_scan hs
  have hp := Page.holds_sighting hstands
  have hdescription := description_iff_forall_standsOn origin hp hstated
  constructor
  · intro h
    have hplain := (marker_isLocated_iff hp hstated).1 h.marker
    have hrest := (description_isLocated_iff hp hstated hplain).1 (hdescription.1 h.description)
    exact ⟨hplain, hrest.1, hrest.2⟩
  · intro h
    have hlines := (description_isLocated_iff hp hstated h.line).2 ⟨h.description, h.continuation⟩
    exact ⟨name_isLocated hp hstated h.line, (marker_isLocated_iff hp hstated).2 h.line,
      hdescription.2 hlines⟩

/-- A page of one value, with a tab in front of its marker and a description of two lines. -/
def tabbedPage : List Char :=
  "---\nkey: 1\n---\n# ``Month``\n- PossibleValues:\n \t- `a:b`:\tThe first\n \t  month. ".toList

/-- With spaces and tabs only, the places are right. -/
theorem isLocatedOn_tabbedPage :
    ∃ s ∈ scan ⟨keywords ["PossibleValues"], keywords ["PossibleValue"]⟩ .nothing
        ((Page.ofText tabbedPage).offset + 1) (lines (Page.ofText tabbedPage).body),
      (valueOf {} s).name = "a:b" ∧ (valueOf {} s).shortDescription = "The first\nmonth." ∧
        (valueOf {} s).IsLocatedOn tabbedPage := by
  have h : ∃ s ∈ scan ⟨keywords ["PossibleValues"], keywords ["PossibleValue"]⟩ .nothing
        ((Page.ofText tabbedPage).offset + 1) (lines (Page.ofText tabbedPage).body),
      (valueOf {} s).name = "a:b" ∧ (valueOf {} s).shortDescription = "The first\nmonth." ∧
        HasPlainIndent s.line ∧
        (isFilled s.item.description = true → HasPlainIndent s.item.description) ∧
        ∀ l ∈ continuation s.region, HasPlainIndent l := by
    decide +kernel
  obtain ⟨s, hs, hname, hdescription, hplain⟩ := h
  exact ⟨s, hs, hname, hdescription,
    (isLocatedOn_iff _ _ _ hs).2 ⟨hplain.1, hplain.2.1, hplain.2.2⟩⟩

/-- A page of one value, with a no-break space in front of its marker. -/
def noBreakPage : List Char :=
  "# ``Month``\n\n- PossibleValues:\n  \u00a0- January: The first month.\n".toList

/-- A no-break space in front of the marker is trimmed but not counted: the name is placed one
column too far to the left. -/
theorem not_isLocatedOn_noBreakPage :
    ∃ v ∈ documentedValues ⟨keywords ["PossibleValues"], keywords ["PossibleValue"]⟩ {}
        (Page.ofText noBreakPage).offset (Page.ofText noBreakPage).body,
      v.name = "January" ∧ ¬ v.IsLocatedOn noBreakPage := by
  have h : ∃ v ∈ documentedValues ⟨keywords ["PossibleValues"], keywords ["PossibleValue"]⟩ {}
        (Page.ofText noBreakPage).offset (Page.ofText noBreakPage).body,
      v.name = "January" ∧
        (v.nameRange.bind (Page.slice? noBreakPage)).map trim ≠ some v.name.toList := by
    decide +kernel
  obtain ⟨v, hv, hname, hslice⟩ := h
  exact ⟨v, hv, hname, fun hlocated => hslice hlocated.slice⟩

end Directive
end ValueDocs
