import ValueDocs.Proofs.Directive.RenamedScan
import ValueDocs.Proofs.NearestNames
import ValueDocs.Proofs.PagePlaces
import ValueDocs.Proofs.Text.Replacement

/-!
# Proofs/SuggestedFix — applying a suggested fix

A fix replaces the name of an extra value by a declared one (`Suggestion.exists_of_replacement`), and
with it one line of the page (`Page.lines_replaceAt`).  Scanned again, the page has the same values,
this one under the declared name, and one extra value fewer is left (`scanBody_applyFix`).
-/

namespace ValueDocs

open Text Directive

namespace Page

/-! ## The text of the page -/

/-- The number of characters before a position of a text. -/
def charsBefore (text : List Char) (p : Position) : Nat :=
  lineStart (p.line - 1).toNat text + (p.column - 1).toNat

/-- The text with others in the place of what a range covers. -/
def replaceAt (text : List Char) (r : Range) (new : List Char) : List Char :=
  replaceBetween (charsBefore text r.lower) (charsBefore text r.upper) new text

/-- **Replacing a part of a line changes that line alone.** -/
theorem lines_replaceAt {text line new : List Char} {above below : List Line} {start width : Nat}
    (h : lines text = above ++ line :: below) (hwidth : start + width ≤ line.length)
    (hnew : IsUnbroken new) (hne : new ≠ []) :
    lines (replaceAt text (.onLine (above.length + 1) (start + 1) (start + 1 + width)) new) =
      above ++ (line.take start ++ (new ++ line.drop (start + width))) :: below := by
  obtain ⟨before, after, rfl, hlen, hlines⟩ := exists_lines_replace h
  have hline : IsUnbroken line :=
    isUnbroken_of_mem_lines (s := before ++ (line ++ after)) (by rw [h]; simp)
  have hlower : charsBefore (before ++ (line ++ after)) ⟨above.length + 1, start + 1⟩ =
      before.length + start := by
    rw [charsBefore, ← hlen]
    simp
  have hupper : charsBefore (before ++ (line ++ after)) ⟨above.length + 1, start + 1 + width⟩ =
      before.length + (start + width) := by
    rw [charsBefore, ← hlen]
    dsimp only
    rw [show (above.length + 1 - 1 : Int).toNat = above.length by omega]
    omega
  have hcut : replaceAt (before ++ (line ++ after))
      (.onLine (above.length + 1) (start + 1) (start + 1 + width)) new =
      before ++ ((line.take start ++ (new ++ line.drop (start + width))) ++ after) := by
    rw [replaceAt, Range.onLine, hlower, hupper, replaceBetween, List.take_length_add_append,
      List.take_append_of_le_length (by omega), ← List.drop_drop, List.drop_left,
      List.drop_append_of_le_length hwidth]
    simp
  rw [hcut]
  refine hlines _ (.append ?_ (.append hnew ?_)) (by simp [hne])
  · exact hline.of_subset (List.take_subset ..)
  · exact hline.of_subset (List.drop_subset ..)

end Page

/-! ## The fix -/

/-- The line of a body that a value starts on; `offset` lines of the page come before the body. -/
def DocumentedValue.line? (body : List Char) (offset : Int) (v : DocumentedValue) : Option Line :=
  v.range.bind fun r => Page.line? body (r.lower.line - offset)

namespace Directive

/-- The name of a value is a part of its line. -/
theorem Sighting.IsStated.nameEnd_le_length {s : Sighting} (h : s.IsStated)
    (hplain : HasPlainIndent s.line) :
    s.column + s.item.nameStart + s.item.name.length ≤ s.line.length := by
  obtain ⟨item, stated, -, hvalue, -, hdrop⟩ := h
  obtain ⟨lead, gap, hcontent, hstart, -⟩ := ValueItem.exists_of_ofContent? hvalue
  have := congrArg List.length (hdrop hplain)
  rw [hcontent] at this
  simp only [List.length_drop, List.length_append, List.length_cons] at this
  omega

/-- The line that a value starts on is the line of its sighting. -/
theorem line?_valueOf (origin : Origin) {s : Sighting} {body : List Char} {offset : Int}
    (h : s.StandsIn (offset + 1) (lines body)) :
    (valueOf origin s).line? body offset = some s.line := by
  obtain ⟨above, below, hls, hnumber, -⟩ := h
  change Page.line? body (s.number - offset) = _
  rw [Page.line?, if_pos (by omega), hls,
    show (s.number - offset - 1).toNat = above.length by omega]
  simp

end Directive

namespace Suggestion

/-- A solution with a replacement replaces the name it was asked about by a declared one. -/
theorem exists_of_replacement {config : ValuesConfig} {name r : String} {nameRange : Option Range}
    {declared : List DeclaredValue}
    (h : (solution config name nameRange declared).replacement = some r) :
    (solution config name nameRange declared).replacementRange = nameRange ∧
      ∃ d ∈ declared, d.name = r := by
  unfold solution at h ⊢
  split at h
  · next best hbest =>
    obtain rfl := Option.some.inj h
    obtain ⟨d, hd, hname⟩ := exists_isPreferred_of_bestMatch? hbest
    exact ⟨rfl, d, hd.nearest.1, hname⟩
  · simp at h

end Suggestion

namespace Reconciliation

variable {caseSensitive : Bool} {declared : List DeclaredValue}

theorem isSome_ownerOf?_of_mem {d : DeclaredValue} (hd : d ∈ declared) :
    (ownerOf? caseSensitive declared d.name).isSome = true := by
  rw [ownerOf?, List.find?_isSome]
  exact ⟨d, hd, beq_self_eq_true _⟩

/-- **Extra values are counted one by one**: an extra value that comes to belong to a declared one
is one fewer. -/
theorem length_extra_replace {before after : List DocumentedValue} {e e' : DocumentedValue}
    (he : (ownerOf? caseSensitive declared e.name).isSome = false)
    (he' : (ownerOf? caseSensitive declared e'.name).isSome = true) :
    (reconcile caseSensitive (before ++ e :: after) declared).extra.length =
      (reconcile caseSensitive (before ++ e' :: after) declared).extra.length + 1 := by
  simp only [reconcile, List.filter_append, List.length_append]
  rw [List.filter_cons_of_pos (by simp [he]), List.filter_cons_of_neg (by simp [he']),
    List.length_cons]
  omega

end Reconciliation

/-- **Applying a suggested fix works.**  When the name of an extra value gives way to the proposed
one, scanning the page again finds the same values in the same order, this one under the new name
with its description and prose as they were; it belongs to a declared value, and one extra value
fewer is left. -/
theorem scanBody_applyFix (config : ValuesConfig) (hdefault : config.directives = {})
    (declared : List DeclaredValue) {source : Option String} {offset : Int} {variant : Tag}
    {body : String} {before after : List DocumentedValue} {e : DocumentedValue}
    (hscan : Pass.scanBody config source offset variant body = .ok (before ++ e :: after))
    (hextra : e ∈ (Reconciliation.reconcile config.caseSensitive (before ++ e :: after)
      declared).extra)
    {r : String}
    (hr : (Suggestion.solution config e.name e.nameRange declared).replacement = some r)
    (hwritable : IsWritable r.toList) {line : Line}
    (hline : e.line? body.toList offset = some line) (hplain : HasPlainIndent line) :
    ∃ range e',
      (Suggestion.solution config e.name e.nameRange declared).replacementRange = some range ∧
      Pass.scanBody config source offset variant
        (String.ofList (Page.replaceAt body.toList (range.down (-offset)) r.toList)) =
          .ok (before ++ e' :: after) ∧
      e'.name = r ∧ e'.shortDescription = e.shortDescription ∧ e'.prose = e.prose ∧
      e' ∈ (Reconciliation.reconcile config.caseSensitive (before ++ e' :: after)
        declared).matched ∧
      (Reconciliation.reconcile config.caseSensitive (before ++ e :: after)
        declared).extra.length =
        (Reconciliation.reconcile config.caseSensitive (before ++ e' :: after)
          declared).extra.length + 1 := by
  have hread (text : String) : Pass.scanBody config source offset variant text =
      .ok ((scan defaultVocabulary .nothing (offset + 1) (lines text.toList)).map
        (valueOf ⟨source, variant⟩)) := by
    rw [Pass.scanBody, hdefault, vocabulary_default]
    rfl
  rw [hread, Except.ok.injEq, List.map_eq_append_iff] at hscan
  obtain ⟨found, later, hscan, rfl, hlater⟩ := hscan
  obtain ⟨s, more, rfl, rfl, rfl⟩ := List.map_eq_cons_iff.1 hlater
  have hmem : s ∈ scan defaultVocabulary .nothing (offset + 1) (lines body.toList) := by
    rw [hscan]
    simp
  obtain ⟨hstands, hstated⟩ := isFoundIn_of_mem_scan hmem
  obtain rfl := Option.some.inj ((line?_valueOf ⟨source, variant⟩ hstands).symm.trans hline)
  have hwidth := hstated.nameEnd_le_length hplain
  obtain ⟨upper, lower, hon, hrenamed⟩ := exists_scan_rename hplain hwritable hscan
  obtain ⟨hrange, d, hd, hname⟩ := Suggestion.exists_of_replacement hr
  obtain ⟨hname', hdescription, hprose⟩ := valueOf_rename ⟨source, variant⟩ s hwritable
  rw [String.ofList_toList] at hname'
  have howner : (Reconciliation.ownerOf? config.caseSensitive declared
      (valueOf ⟨source, variant⟩ (s.rename r.toList)).name).isSome = true := by
    rw [hname', ← hname]
    exact Reconciliation.isSome_ownerOf?_of_mem hd
  refine ⟨_, valueOf ⟨source, variant⟩ (s.rename r.toList), hrange.trans rfl, ?_, hname',
    hdescription, hprose, ?_, ?_⟩
  · have hplace : Range.down (-offset) (.onLine s.number (s.column + s.item.nameStart + 1)
        (s.column + s.item.nameStart + 1 + s.item.name.length)) =
        .onLine (upper.length + 1) ((s.column + s.item.nameStart : Nat) + 1)
          ((s.column + s.item.nameStart : Nat) + 1 + s.item.name.length) := by
      simp only [Range.down, Range.onLine, Position.down, hon.number_eq, Range.mk.injEq,
        Position.mk.injEq]
      omega
    rw [hread, String.toList_ofList, hplace, Page.lines_replaceAt hon.lines_eq hwidth
      hwritable.isUnbroken hwritable.ne_nil]
    exact congrArg Except.ok ((congrArg _ hrenamed).trans (by simp))
  · exact List.mem_filter.2 ⟨by simp, howner⟩
  · refine Reconciliation.length_extra_replace ?_ howner
    simpa using (List.mem_filter.1 hextra).2

/-! ## A misspelled month -/

/-- A page body with two months, the second of which is misspelled. -/
def monthBody : String := "- PossibleValue May: 5\r\n- PossibleValue `Jun`: 6"

/-- The first month, as it is found two lines further down on the page. -/
def mayFound : DocumentedValue where
  name := "May"
  shortDescription := "5"
  range := some (.onLine 3 1 23)
  nameRange := some (.onLine 3 17 20)
  descriptionRange := some (.onLine 3 22 23)
  descriptionColumns := [22]

/-- The second month, as it is found. -/
def junFound : DocumentedValue where
  name := "Jun"
  shortDescription := "6"
  range := some (.onLine 4 1 25)
  nameRange := some (.onLine 4 18 21)
  descriptionRange := some (.onLine 4 24 25)
  descriptionColumns := [24]

/-- The two months as they are declared. -/
def declaredMonths : List DeclaredValue := [⟨"May", .whole 0⟩, ⟨"June", .whole 1⟩]

theorem scanBody_applyFix_monthBody : ∃ june,
    Pass.scanBody {} none 2 none "- PossibleValue May: 5\r\n- PossibleValue `June`: 6" =
      .ok [mayFound, june] ∧ june.name = "June" ∧ june.shortDescription = "6" ∧
      june ∈ (Reconciliation.reconcile true [mayFound, june] declaredMonths).matched := by
  have hscan : Pass.scanBody {} none 2 none monthBody = .ok ([mayFound] ++ junFound :: []) :=
    congrArg Except.ok (by decide +kernel)
  have hline : junFound.line? monthBody.toList 2 =
      some ("- PossibleValue `Jun`: 6".toList) := by decide +kernel
  obtain ⟨range, june, hrange, hfixed, hname, hdescription, -, hmatched, -⟩ :=
    scanBody_applyFix {} rfl declaredMonths hscan (by decide +kernel) (r := "June")
      (by decide +kernel) ⟨by decide, by decide, by decide, by decide, by decide⟩ hline
      (by decide +kernel)
  obtain rfl : Range.onLine 4 18 21 = range := by
    refine Option.some.inj (.trans ?_ hrange)
    decide +kernel
  exact ⟨june, hfixed, hname, hdescription, hmatched⟩

end ValueDocs
