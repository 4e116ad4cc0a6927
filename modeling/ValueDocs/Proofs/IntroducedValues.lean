import ValueDocs.Pass
import ValueDocs.Proofs.Directive.Keywords
import ValueDocs.Proofs.Directive.RenamedScan

/-!
# Proofs/IntroducedValues — what introduces the values of a page

A value of a page stands on an item outside every other, or is nested below one (`StemsFrom`).  In
the short form that item starts with one of the keywords of the form; in the block form it is one of
the keywords and a colon, provided the list of block keywords has one with a word
(`Pass.isOnlyIntroducedBy_keywords`).  Without one, a colon alone introduces a block.
-/

namespace ValueDocs

namespace Directive

open Text

/-! ## The item that a value comes from -/

/-- Whether a list item stands outside every other: the scan of some lines from the line `n` on
comes to its line, and nothing above it nests it or fences it off. -/
structure IsTopItem (vocabulary : Vocabulary) (n : Int) (ls : List Line) (number : Int)
    (line : Line) (item : ListItem) (below : List Line) : Prop where
  ofLine?_eq : ListItem.ofLine? line = some item
  isReached : ∃ above found, IsOutermost above line ∧
    Passage vocabulary ⟨.nothing, n, ls⟩ found ⟨above, number, line :: below⟩

/-- Where a value comes from: the text of a top item of the short form, or of one whose text is a
label. -/
inductive StemsFrom (vocabulary : Vocabulary) (short label : List Char → Prop) (n : Int)
    (ls : List Line) (s : Sighting) : Prop
  | short {number : Int} {line : Line} {item : ListItem} {below : List Line}
      (top : IsTopItem vocabulary n ls number line item below) (hshort : short item.content)
      (hline : s.line = line) (hnumber : s.number = number)
  | nested {number : Int} {line : Line} {item : ListItem} {below : List Line}
      (top : IsTopItem vocabulary n ls number line item below) (hlabel : label item.content)
      (hnested : s.IsFoundIn (number + 1) (region (indent line) below))

variable {vocabulary : Vocabulary} {short label label' : List Char → Prop} {n : Int}
  {ls : List Line} {s : Sighting}

/-- The line of a top item is one of the lines, under its number. -/
theorem IsTopItem.exists_eq_append {number : Int} {line : Line} {item : ListItem}
    {below : List Line} (h : IsTopItem vocabulary n ls number line item below) :
    ∃ passed, ls = passed ++ line :: below ∧ number = n + passed.length :=
  let ⟨_, _, _, hpassage⟩ := h.isReached
  hpassage.exists_passed

theorem StemsFrom.imp (h : StemsFrom vocabulary short label n ls s)
    (hlabel : ∀ content, label content → label' content) :
    StemsFrom vocabulary short label' n ls s := by
  cases h with
  | short top hshort hline hnumber => exact .short top hshort hline hnumber
  | nested top h hnested => exact .nested top (hlabel _ h) hnested

/-! ## The scan -/

/-- The scan finds its values at the lines it comes to. -/
theorem exists_passage_of_mem_scan {above : Above} (h : s ∈ scan vocabulary above n ls) :
    ∃ above' number line below found,
      Passage vocabulary ⟨above, n, ls⟩ found ⟨above', number, line :: below⟩ ∧
        s ∈ (readLine vocabulary above' number line below).found := by
  fun_induction scan vocabulary above n ls with
  | case1 => simp at h
  | case2 above n line below r ih =>
    rcases List.mem_append.1 h with h | h
    · exact ⟨above, n, line, below, [], .stay _, h⟩
    · obtain ⟨above', number, line', below', found, hpassage, hs⟩ := ih h
      exact ⟨above', number, line', below', _, hpassage.read, hs⟩

/-- **A value stems from a top item** whose text the keywords take for a label or for an
introduction. -/
theorem stemsFrom_of_mem_scan (h : s ∈ scan vocabulary .nothing n ls) :
    StemsFrom vocabulary (fun content => ∃ stated,
        afterIntroduction? vocabulary.inline content = some stated)
      (fun content => isLabel vocabulary.block content = true) n ls s := by
  obtain ⟨above, number, line, below, found, hpassage, hs⟩ := exists_passage_of_mem_scan h
  have houtermost := isOutermost_of_mem_readLine hs
  obtain ⟨item, hitem, hread⟩ := exists_readItem_of_mem_readLine hs
  have top : IsTopItem vocabulary n ls number line item below :=
    ⟨hitem, above, found, houtermost, hpassage⟩
  rw [hread] at hs
  unfold readItem at hs
  dsimp only at hs
  split at hs
  · next hlabel => exact .nested top hlabel (isFoundIn_of_mem_blockSightings hs)
  · split at hs
    · simp at hs
    · next stated hstated =>
      obtain ⟨value, -, rfl⟩ := Option.map_eq_some_iff.1 (Option.mem_toList.1 hs)
      exact .short top ⟨stated, hstated⟩ rfl rfl

/-! ## A list of keywords -/

variable {block inline : List String}

/-- **A value stems from a top item that starts with a keyword of its form.**  Without a block
keyword that has a word, a colon alone is a label. -/
theorem stemsFrom_keywords_of_mem_scan
    (h : s ∈ scan ⟨keywords block, keywords inline⟩ .nothing n ls) :
    StemsFrom ⟨keywords block, keywords inline⟩ (IsIntroductionOf inline) (fun content =>
      IsLabelOf block content ∨ (¬HasKeyword block ∧ trim content = [':'])) n ls s := by
  cases stemsFrom_of_mem_scan h with
  | short top hshort hline hnumber =>
    refine .short top ?_ hline hnumber
    exact (exists_afterIntroduction?_keywords_iff fun c t hc =>
      ListItem.not_isBlank_of_content_eq_cons top.ofLine?_eq hc).1 hshort
  | nested top hlabel hnested => exact .nested top (isLabel_keywords_iff.1 hlabel) hnested

/-- What starts with a keyword and a gap has a blank. -/
theorem IsIntroductionOf.exists_isBlank {content : List Char}
    (h : IsIntroductionOf inline content) : ∃ c ∈ content, isBlank c = true := by
  obtain ⟨c, d, t, ⟨_, _, _, written, _, _, rfl⟩, hc⟩ := h
  exact ⟨c, by simp, hc⟩

/-- A colon as a label, and a value nested below it. -/
def colonBlock : String := "- :\n  - May:"

theorem exists_mem_scan_colonBlock (inline : List Keyword) (n : Int) :
    ∃ s, s ∈ scan ⟨[[]], inline⟩ .nothing n (lines colonBlock.toList) := by
  have hlines : lines colonBlock.toList = ["- :".toList, "  - May:".toList] := by decide +kernel
  have hread : (readLine ⟨[[]], inline⟩ .nothing n "- :".toList ["  - May:".toList]).found =
      blockSightings none (n + 1) ["  - May:".toList] := by rfl
  have hnested : (readNested none (n + 1) "  - May:".toList []).found =
      some ⟨n + 1, "  - May:".toList, 4, ⟨0, "May".toList, 4, []⟩, []⟩ := by rfl
  rw [hlines, scan, hread, blockSightings, hnested]
  exact ⟨_, List.mem_append_left _ (List.mem_append_left _ (Option.mem_toList.2 rfl))⟩

/-- Nothing on the lines of a colon and a value has a keyword and a gap in front. -/
theorem not_isIntroductionOf_colonBlock {line : Line} {item : ListItem}
    (hline : line ∈ lines colonBlock.toList) (hitem : ListItem.ofLine? line = some item) :
    ¬IsIntroductionOf inline item.content := by
  intro h
  have hall : (lines colonBlock.toList).all (fun line => (ListItem.ofLine? line).all fun item =>
      item.content.all fun c => !isBlank c) = true := by decide +kernel
  obtain ⟨c, hmem, hc⟩ := h.exists_isBlank
  have hitems := List.all_eq_true.1 hall line hline
  rw [hitem] at hitems
  simpa [hc] using List.all_eq_true.1 hitems c hmem

theorem not_stemsFrom_colonBlock (hword : ¬HasKeyword block) : ¬StemsFrom vocabulary
    (IsIntroductionOf inline) (IsLabelOf block) n (lines colonBlock.toList) s := by
  intro h
  cases h with
  | short top hshort _ _ =>
    obtain ⟨passed, hlines, -⟩ := top.exists_eq_append
    exact not_isIntroductionOf_colonBlock (by rw [hlines]; simp) top.ofLine?_eq hshort
  | nested top hlabel _ =>
    obtain ⟨rest, hstart, -⟩ := hlabel
    exact hword hstart.hasKeyword

end Directive

/-! ## The scan of a body -/

namespace Pass

open Text Directive

/-- Whether every body that is scanned under some settings has all its values from top items that
are introductions, or from top items that are labels. -/
def IsOnlyIntroducedBy (c : DirectiveConfig) (vocabulary : Vocabulary)
    (short label : List Char → Prop) : Prop :=
  ∀ (config : ValuesConfig) (source : Option String) (lineOffset : Int) (variant : Tag)
    (text : String), config.directives = c → ∃ values,
      scanBody config source lineOffset variant text = .ok values ∧
        ∀ v ∈ values, ∃ s, v = valueOf ⟨source, variant⟩ s ∧
          StemsFrom vocabulary short label (lineOffset + 1) (lines text.toList) s

variable {c : DirectiveConfig} {block inline : List String}

theorem scanBody_eq (hblock : DirectiveConfig.texts c.blockKeywords = .ok block)
    (hinline : DirectiveConfig.texts c.inlineKeywords = .ok inline) {config : ValuesConfig}
    (hc : config.directives = c) (source : Option String) (lineOffset : Int) (variant : Tag)
    (text : String) : scanBody config source lineOffset variant text =
      .ok (Directive.documentedValues ⟨keywords block, keywords inline⟩ ⟨source, variant⟩
        lineOffset text.toList) := by
  rw [scanBody, hc, DirectiveConfig.vocabulary, hblock, hinline]
  rfl

/-- **Keywords introduce the values of a body.**  A value of the short form stands on a top item
that starts with an inline keyword; a value of the block form is nested below a top item that is a
block keyword and a colon, or, if no block keyword has a word, below one that is a colon alone.  So
all values of the block form have a keyword exactly when the list of block keywords has one with a
word. -/
theorem isOnlyIntroducedBy_keywords (hblock : DirectiveConfig.texts c.blockKeywords = .ok block)
    (hinline : DirectiveConfig.texts c.inlineKeywords = .ok inline) :
    IsOnlyIntroducedBy c ⟨keywords block, keywords inline⟩ (IsIntroductionOf inline)
        (fun content => IsLabelOf block content ∨ (¬HasKeyword block ∧ trim content = [':'])) ∧
      (IsOnlyIntroducedBy c ⟨keywords block, keywords inline⟩ (IsIntroductionOf inline)
        (IsLabelOf block) ↔ HasKeyword block) := by
  have hall : IsOnlyIntroducedBy c ⟨keywords block, keywords inline⟩ (IsIntroductionOf inline)
      (fun content => IsLabelOf block content ∨ (¬HasKeyword block ∧ trim content = [':'])) := by
    intro config source lineOffset variant text hc
    refine ⟨_, scanBody_eq hblock hinline hc .., fun v hv => ?_⟩
    obtain ⟨s, hs, rfl⟩ := List.mem_map.1 hv
    exact ⟨s, rfl, stemsFrom_keywords_of_mem_scan hs⟩
  refine ⟨hall, fun h => ?_, fun hword config source lineOffset variant text hc => ?_⟩
  · by_contra hword
    -- a colon introduces a block that has no keyword
    obtain ⟨values, hvalues, hstem⟩ := h { directives := c } none 0 none colonBlock rfl
    rw [scanBody_eq hblock hinline rfl] at hvalues
    obtain rfl := Except.ok.inj hvalues
    obtain ⟨s, hs⟩ := exists_mem_scan_colonBlock (keywords inline) (0 + 1)
    rw [← keywords_of_not_hasKeyword hword] at hs
    obtain ⟨_, -, hfrom⟩ := hstem _ (List.mem_map_of_mem hs)
    exact not_stemsFrom_colonBlock hword hfrom
  · obtain ⟨values, hvalues, hstem⟩ := hall config source lineOffset variant text hc
    refine ⟨values, hvalues, fun v hv => ?_⟩
    obtain ⟨s, hs, hfrom⟩ := hstem v hv
    exact ⟨s, hs, hfrom.imp fun content hlabel => hlabel.resolve_right fun h => h.1 hword⟩

/-- Settings with a block keyword that has no word. -/
def blankBlockKeyword : DirectiveConfig where
  blockKeywords := .ofTexts [" "]
  inlineKeywords := .ofTexts ["Case", "Possible Value"]

/-- Without a word in a block keyword, labels do not account for all values; a colon alone does for
the others. -/
theorem isOnlyIntroducedBy_blankBlockKeyword :
    (DirectiveConfig.texts blankBlockKeyword.blockKeywords = .ok [" "] ∧
      DirectiveConfig.texts blankBlockKeyword.inlineKeywords = .ok ["Case", "Possible Value"]) ∧
    IsOnlyIntroducedBy blankBlockKeyword ⟨keywords [" "], keywords ["Case", "Possible Value"]⟩
      (IsIntroductionOf ["Case", "Possible Value"])
      (fun content => IsLabelOf [" "] content ∨ (¬HasKeyword [" "] ∧ trim content = [':'])) ∧
    ¬IsOnlyIntroducedBy blankBlockKeyword ⟨keywords [" "], keywords ["Case", "Possible Value"]⟩
      (IsIntroductionOf ["Case", "Possible Value"]) (IsLabelOf [" "]) := by
  have hblock : DirectiveConfig.texts blankBlockKeyword.blockKeywords = .ok [" "] := rfl
  have hinline : DirectiveConfig.texts blankBlockKeyword.inlineKeywords =
      .ok ["Case", "Possible Value"] := rfl
  have hblank : ¬HasKeyword [" "] := by
    rintro ⟨text, hmem, hword⟩
    rw [List.mem_singleton.1 hmem] at hword
    exact absurd hword (by decide)
  obtain ⟨hall, hlabels⟩ := isOnlyIntroducedBy_keywords hblock hinline
  exact ⟨⟨hblock, hinline⟩, hall, mt hlabels.1 hblank⟩

/-- Without any keyword, a value is found below a colon. -/
theorem exists_scanBody_withoutKeyword :
    ¬HasKeyword [] ∧ (scanBody { directives := ⟨.ofTexts [], .ofTexts []⟩ } none 0 none
      "- :\n  - May: The fifth month.").map (·.map (·.name)) = .ok ["May"] :=
  ⟨by simp [HasKeyword], by cbv⟩

end Pass
end ValueDocs
