import ValueDocs.Pass
import ValueDocs.Proofs.Directive.Printed

/-!
# Proofs/Printing — what is printed as a directive is read back

The scan reads a printed value in one step: its line states the value, and its region is its body,
which ends where the next value starts (`region_body_append`).  So a list of values is read one
after the other, and the scan finds exactly the values that were printed (`scanBody_print`).
-/

namespace ValueDocs

open Text Directive

namespace Directive

/-! ## A line is read -/

/-- The first word of the keywords; spelled out, it is a part of the lines that start with it. -/
def possibleWord : List Char := ['P', 'o', 's', 's', 'i', 'b', 'l', 'e']

/-- The second word, of one value. -/
def valueWord : List Char := ['V', 'a', 'l', 'u', 'e']

/-- The keywords by default. -/
def defaultVocabulary : Vocabulary where
  block := [[possibleWord ++ (valueWord ++ ['s'])], [possibleWord, valueWord ++ ['s']]]
  inline := [[possibleWord ++ valueWord], [possibleWord, valueWord]]

/-- The label of the block form. -/
def label : Line := '-' :: ' ' :: (possibleWord ++ (valueWord ++ ['s', ':']))

theorem vocabulary_default : ({} : DirectiveConfig).vocabulary = .ok defaultVocabulary := rfl

theorem marker_block : Form.block.marker = [' ', ' '] ++ ['-', ' '] := rfl

theorem marker_short :
    Form.short.marker = '-' :: ' ' :: (possibleWord ++ (valueWord ++ [' '])) := rfl

section Short

variable (v : Authored)

/-- What the marker of the short form leaves as content. -/
def shortContent : List Char := possibleWord ++ (valueWord ++ ' ' :: v.statement)

theorem trim_shortContent : trim (shortContent v) =
    possibleWord ++ (valueWord ++ ' ' :: trimEnd v.statement) := by
  obtain ⟨c, t, h, hc⟩ := v.exists_statement_eq_cons
  have hne : trimEnd v.statement ≠ [] := by
    rw [ne_eq, trimEndBy_eq_nil_iff, h]
    simp [hc]
  have hcut : shortContent v = (possibleWord ++ (valueWord ++ [' '])) ++ v.statement := by
    simp [shortContent]
  calc trim (shortContent v)
      = trimEnd (trimStart (shortContent v)) := rfl
    _ = trimEnd (shortContent v) := congrArg trimEnd (trimStart_cons rfl _)
    _ = (possibleWord ++ (valueWord ++ [' '])) ++ trimEnd v.statement := by
        rw [hcut]
        exact trimEndBy_append hne
    _ = possibleWord ++ (valueWord ++ ' ' :: trimEnd v.statement) := by simp

/-- The short form is no label. -/
theorem isLabel_shortContent : isLabel defaultVocabulary.block (shortContent v) = false := by
  -- either label would need an `s` where a blank stands
  have hword (s : List Char) : afterWord? (valueWord ++ ['s']) (valueWord ++ ' ' :: s) = none := by
    rw [afterWord?_append_append]
    simp [afterWord?, show CaseMap.sameLetter 's' ' ' = false by decide]
  have hone (s : List Char) : afterKeyword? [possibleWord ++ (valueWord ++ ['s'])]
      (possibleWord ++ (valueWord ++ ' ' :: s)) = none := by
    rw [afterKeyword?, afterWord?_append_append, hword]
  have htwo (s : List Char) : afterKeyword? [possibleWord, valueWord ++ ['s']]
      (possibleWord ++ (valueWord ++ ' ' :: s)) = none := by
    rw [afterKeyword?, afterWord?_append]
    exact hword s
  rw [isLabel, trim_shortContent, defaultVocabulary]
  simp only [List.any_cons, List.any_nil, hone, htwo, Bool.or_false]

/-- The short form introduces its statement. -/
theorem afterIntroduction?_shortContent :
    afterIntroduction? defaultVocabulary.inline (shortContent v) = some v.statement := by
  obtain ⟨c, t, h, hc⟩ := v.exists_statement_eq_cons
  have hword : afterKeyword? [possibleWord ++ valueWord] (shortContent v) =
      some (' ' :: v.statement) := by
    rw [afterKeyword?, shortContent, ← List.append_assoc, afterWord?_append]
  have hgap : afterGap? (' ' :: v.statement) = some v.statement := by
    rw [h]
    simp [afterGap?, hc, show isBlank ' ' = true from rfl]
  rw [afterIntroduction?, defaultVocabulary, List.findSome?_cons, hword, Option.bind_some, hgap]

theorem ofLine?_short : ListItem.ofLine? (Form.short.marker ++ v.statement) =
    some ⟨[], ['-'], [' '], shortContent v⟩ := by
  have hcut : Form.short.marker ++ v.statement = [] ++ '-' :: ' ' :: shortContent v := by
    simp [marker_short, shortContent]
  rw [hcut]
  exact ListItem.ofLine?_bullet [] (by simp) (c := 'P') rfl _

theorem indent_short : indent (Form.short.marker ++ v.statement) = 0 := by
  rw [marker_short]
  rfl

end Short

section Block

variable (v : Authored)

theorem ofLine?_block : ListItem.ofLine? (Form.block.marker ++ v.statement) =
    some ⟨[' ', ' '], ['-'], [' '], v.statement⟩ := by
  obtain ⟨c, t, h, hc⟩ := v.exists_statement_eq_cons
  rw [marker_block, h]
  exact ListItem.ofLine?_bullet [' ', ' '] (List.all_eq_true.1 rfl) hc t

theorem indent_block : indent (Form.block.marker ++ v.statement) = 2 := by
  rw [marker_block]
  rfl

end Block

/-! ## Values are read one after the other -/

/-- The lines of values behind the markers of a form. -/
abbrev printAll (form : Form) (vs : List Authored) : List Line :=
  vs.flatMap (Authored.printBelow form.marker)

/-- How far the marker of a form is indented. -/
def Form.indent : Form → Nat
  | .block => 2
  | .short => 0

section Region

variable (form : Form) (v : Authored) (vs : List Authored)

theorem indent_marker : indent (form.marker ++ v.statement) = form.indent := by
  cases form with
  | block => exact indent_block v
  | short => exact indent_short v

theorem isFilled_marker : isFilled (form.marker ++ v.statement) = true := by
  cases form with
  | block => exact ListItem.isFilled_of_ofLine? (ofLine?_block v)
  | short => exact ListItem.isFilled_of_ofLine? (ofLine?_short v)

theorem Form.indent_lt : form.indent < 4 := by
  cases form <;> decide

theorem endsFilled_printAll : EndsFilled (printAll form vs) :=
  EndsFilled.flatMap fun v _ =>
    (endsFilled_printParagraphs v.nil_notMem).cons fun _ => isFilled_marker form v

theorem regionLength_printAll : regionLength form.indent (printAll form vs) = 0 := by
  rcases vs with _ | ⟨v, vs⟩
  · rfl
  · rw [printAll, List.flatMap_cons, Authored.printBelow, List.cons_append, regionLength,
      if_pos (isFilled_marker form v), if_pos (indent_marker form v).le]

/-- **The region of a printed value is its body**: it ends where the next value starts. -/
theorem region_body_append : region form.indent (printParagraphs v.paragraphs ++ printAll form vs) =
    printParagraphs v.paragraphs := by
  refine region_append_eq_left (fun l hl hf => ?_) (endsFilled_printParagraphs v.nil_notMem)
    (regionLength_printAll form vs)
  rw [indent_of_mem_printParagraphs hl hf]
  exact form.indent_lt

end Region

/-- A printed value where the scan comes upon it. -/
def sighting (form : Form) (n : Int) (v : Authored) (item : ValueItem) : Sighting :=
  ⟨n, form.marker ++ v.statement, form.marker.length, item, printParagraphs v.paragraphs⟩

section Step

variable {v : Authored} {item : ValueItem} (n : Int) (vs : List Authored)

/-- One value of the block form is read in one step. -/
theorem readNested_block (hitem : ValueItem.ofContent? v.statement = some item)
    {child : Option Nat} (hc : child = none ∨ child = some 2) :
    readNested child n (Form.block.marker ++ v.statement)
        (printParagraphs v.paragraphs ++ printAll .block vs) =
      { found := some (sighting .block n v item)
        skipped := (printParagraphs v.paragraphs).length
        child := some 2 } := by
  have hregion : region 2 (printParagraphs v.paragraphs ++ printAll .block vs) =
      printParagraphs v.paragraphs := region_body_append .block v vs
  have hfilled := isFilled_marker .block v
  have hindent : indent (Form.block.marker ++ v.statement) = 2 := indent_marker .block v
  have hdeeper : child.any (· < 2) = false := by rcases hc with rfl | rfl <;> rfl
  have hchild : (child <|> some 2) = some 2 := by rcases hc with rfl | rfl <;> rfl
  rw [readNested, hindent, hdeeper, hfilled, ofLine?_block]
  simp only [Bool.not_true, Bool.or_false, Bool.false_eq_true, if_false, hchild, hregion,
    hitem, Option.map_some]
  rfl

/-- One value of the short form is read in one step. -/
theorem readLine_short (hitem : ValueItem.ofContent? v.statement = some item)
    {above : Above} (ha : above = .nothing ∨ above = .item 2) :
    readLine defaultVocabulary above n (Form.short.marker ++ v.statement)
        (printParagraphs v.paragraphs ++ printAll .short vs) =
      { found := [sighting .short n v item]
        skipped := (printParagraphs v.paragraphs).length
        above := .item 2 } := by
  have hregion : region 0 (printParagraphs v.paragraphs ++ printAll .short vs) =
      printParagraphs v.paragraphs := region_body_append .short v vs
  have hfilled := isFilled_marker .short v
  have hindent : indent (Form.short.marker ++ v.statement) = 0 := indent_marker .short v
  have hfence : fence? (Form.short.marker ++ v.statement) = none := by rw [marker_short]; rfl
  have hcolumn : 2 + ((shortContent v).length - v.statement.length) = Form.short.marker.length := by
    rw [shortContent, marker_short]
    simp only [List.length_append, List.length_cons, List.length_nil]
    omega
  have hread : readItem defaultVocabulary n (Form.short.marker ++ v.statement)
      ⟨[], ['-'], [' '], shortContent v⟩ (printParagraphs v.paragraphs ++ printAll .short vs) =
      { found := [sighting .short n v item]
        skipped := (printParagraphs v.paragraphs).length
        above := .item 2 } := by
    rw [readItem, hindent, isLabel_shortContent, afterIntroduction?_shortContent]
    simp only [Bool.false_eq_true, if_false, hregion, hitem, Option.map_some, Option.toList_some]
    rw [sighting, ← hcolumn]
    rfl
  rcases ha with rfl | rfl <;>
    simp [readLine, hfilled, hindent, hfence, ofLine?_short, Above.nests, hread]

end Step

section Scan

variable (origin : Origin)

theorem telling_sighting {v : Authored} {item : ValueItem} (form : Form) (n : Int)
    (hname : item.name = v.name.text)
    (hdescription : item.description = ' ' :: v.description.text) :
    (valueOf origin (sighting form n v item)).telling = v.telling :=
  telling_valueOf hname hdescription rfl origin

/-- **The block form is read back**, value after value. -/
theorem telling_blockSightings (n : Int) {child : Option Nat} (hc : child = none ∨ child = some 2)
    (vs : List Authored) :
    (blockSightings child n (printAll .block vs)).map (fun s => (valueOf origin s).telling) =
      vs.map (·.telling) := by
  -- the first item read sets the indentation of the nested items, which the others share
  induction vs generalizing child n with
  | nil => simp [blockSightings]
  | cons v vs ih =>
    obtain ⟨item, hitem, hname, hdescription⟩ := v.ofContent?_statement
    rw [printAll, List.flatMap_cons, Authored.printBelow, List.cons_append, blockSightings,
      readNested_block n vs hitem hc]
    simp only [Option.toList_some, List.singleton_append, List.map_cons, List.drop_left]
    rw [telling_sighting origin .block n hname hdescription, ih _ (.inr rfl)]

/-- **The short form is read back**, value after value. -/
theorem telling_scan_short (n : Int) {above : Above} (ha : above = .nothing ∨ above = .item 2)
    (vs : List Authored) :
    (scan defaultVocabulary above n (printAll .short vs)).map
      (fun s => (valueOf origin s).telling) = vs.map (·.telling) := by
  -- after an item the next one is still not nested: its indentation is below the content column
  induction vs generalizing above n with
  | nil => simp [scan]
  | cons v vs ih =>
    obtain ⟨item, hitem, hname, hdescription⟩ := v.ofContent?_statement
    rw [printAll, List.flatMap_cons, Authored.printBelow, List.cons_append, scan,
      readLine_short n vs hitem ha]
    simp only [List.singleton_append, List.map_cons, List.drop_left]
    rw [telling_sighting origin .short n hname hdescription, ih _ (.inr rfl)]

/-- **All printed values are in the region of the label.** -/
theorem region_printAll (vs : List Authored) :
    region 0 (printAll .block vs) = printAll .block vs := by
  have hnested : ∀ l ∈ printAll .block vs, isFilled l = true → 0 < indent l := fun l hl hf => by
    obtain ⟨v, -, hl⟩ := List.mem_flatMap.1 hl
    rcases List.mem_cons.1 hl with rfl | hl
    · rw [indent_marker]
      decide
    · rw [indent_of_mem_printParagraphs hl hf]
      decide
  have hnil : regionLength 0 [] = 0 := rfl
  have h := region_append_eq_left hnested (endsFilled_printAll .block vs) hnil
  rwa [List.append_nil] at h

/-- The label of the block form introduces all that is nested below it. -/
theorem readLine_label (n : Int) (vs : List Authored) :
    readLine defaultVocabulary .nothing n label (printAll .block vs) =
      { found := blockSightings none (n + 1) (printAll .block vs)
        skipped := (printAll .block vs).length
        above := .item 2 } := by
  have hitem : ListItem.ofLine? label =
      some ⟨[], ['-'], [' '], possibleWord ++ (valueWord ++ ['s', ':'])⟩ :=
    ListItem.ofLine?_bullet [] (by simp) (c := 'P') rfl _
  have hindent : indent label = 0 := rfl
  have hfence : fence? label = none := rfl
  have hlabel : isLabel defaultVocabulary.block
      (possibleWord ++ (valueWord ++ ['s', ':'])) = true := by
    decide +kernel
  simp [readLine, ListItem.isFilled_of_ofLine? hitem, hindent, hfence, hitem, Above.nests,
    readItem, region_printAll, hlabel, ListItem.contentColumn]

/-- **Values are read back** from the lines of either form. -/
theorem telling_scan (form : Form) (n : Int) (vs : List Authored) :
    (scan defaultVocabulary .nothing n (printLines form vs)).map
      (fun s => (valueOf origin s).telling) = vs.map (·.telling) := by
  cases form with
  | short => exact telling_scan_short origin n (.inl rfl) vs
  | block =>
    change (scan defaultVocabulary .nothing n (label :: printAll .block vs)).map _ = _
    rw [scan, readLine_label]
    simp only [List.drop_length, scan, List.append_nil]
    exact telling_blockSightings origin (n + 1) (.inl rfl) vs

end Scan

/-! ## The text is cut into the printed lines -/

theorem isUnbroken_statement (v : Authored) : IsUnbroken v.statement := by
  have hname : IsUnbroken v.printName := by
    unfold Authored.printName
    split
    · exact .cons rfl (v.name.isUnbroken.append (by decide))
    · exact v.name.isUnbroken
  exact hname.append (.cons rfl (.cons rfl v.description.isUnbroken))

theorem isUnbroken_of_mem_printParagraphs {ps : List (List ProseLine)} {l : Line}
    (hl : l ∈ printParagraphs ps) : IsUnbroken l := by
  obtain ⟨p, -, hl⟩ := List.mem_flatMap.1 hl
  rcases List.mem_cons.1 hl with rfl | hl
  · exact fun _ hc => absurd hc List.not_mem_nil
  · obtain ⟨m, -, rfl⟩ := List.mem_map.1 hl
    exact .append (s := [' ', ' ', ' ', ' ']) (by decide) m.isUnbroken

theorem isUnbroken_of_mem_printAll {form : Form} {vs : List Authored} {l : Line}
    (hl : l ∈ printAll form vs) : IsUnbroken l := by
  obtain ⟨v, -, hl⟩ := List.mem_flatMap.1 hl
  rcases List.mem_cons.1 hl with rfl | hl
  · refine IsUnbroken.append ?_ (isUnbroken_statement v)
    cases form <;> decide +kernel
  · exact isUnbroken_of_mem_printParagraphs hl

theorem lines_unlines_printLines (form : Form) (vs : List Authored) :
    lines (unlines (printLines form vs)) = printLines form vs := by
  have hall := endsFilled_printAll form vs
  have hend : EndsFilled (printLines form vs) := by
    cases form with
    | block => exact hall.cons fun _ => rfl
    | short => exact hall
  have hunbroken : ∀ l ∈ printLines form vs, IsUnbroken l := by
    cases form with
    | block =>
      intro l hl
      rcases List.mem_cons.1 hl with rfl | hl
      · decide +kernel
      · exact isUnbroken_of_mem_printAll hl
    | short => exact fun l hl => isUnbroken_of_mem_printAll hl
  exact lines_unlines hunbroken fun hlast => absurd (hend [] hlast) Bool.false_ne_true

end Directive

/-- **What is printed is read back.**  With the default keywords, values printed in either form,
each name bare or in backticks, are scanned as exactly these values in order: the same names, the
same descriptions, and each paragraph as one block.  So the two forms tell the same. -/
theorem scanBody_print (form : Form) (vs : List Authored) (config : ValuesConfig)
    (source : Option String) (lineOffset : Int) (variant : Tag) :
    (Pass.scanBody { config with directives := {} } source lineOffset variant (print form vs)).map
      (fun ds => ds.map (·.telling)) = .ok (vs.map (·.telling)) := by
  rw [Pass.scanBody, vocabulary_default]
  change Except.ok ((documentedValues defaultVocabulary ⟨source, variant⟩ lineOffset
    (print form vs).toList).map _) = _
  rw [print, String.toList_ofList, documentedValues, lines_unlines_printLines, List.map_map]
  exact congrArg Except.ok (telling_scan ⟨source, variant⟩ form (lineOffset + 1) vs)

/-- A quoted name may look like another statement. -/
example : print .short [
    { quoted := true, name := ⟨['a', ':', 'b'], by decide, by decide⟩, name_ne_nil := by decide,
      backtick_notMem := by decide, colon_notMem := by decide, description := ⟨[], by decide, rfl⟩,
      paragraphs := [[⟨⟨['-', 'c'], by decide, by decide⟩, by decide, rfl, rfl⟩]],
      nil_notMem := by simp }] = "- PossibleValue `a:b`: \n\n    -c" := by
  decide +kernel

end ValueDocs
