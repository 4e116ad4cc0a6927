import ValueDocs.Proofs.Directive.LineNumbers

/-!
# Proofs/FencedCode — what stands in a fence says nothing

The lines of a fence are free: other lines in their place, as many and closing the fence no earlier,
leave the values of the page as they are, and no range of a value covers one of them
(`documentedValues_replace_fenced`).  The scan itself passes over these lines without a look
(`passage_fenced`).  The items above look ahead for the end of their regions and know nothing of
fences; but the line that opens one is no line of a region, and a region that ends there ends
whatever is below (`endAlike_cons`).
-/

namespace ValueDocs.Directive

open Text

/-- The run of the fence that is open below a line and was not above it. -/
def opened? : Above → Above → Option (List Char)
  | .fence _, _ => none
  | _, .fence run => some run
  | _, _ => none

/-- The fences that the scan opens on the lines from the line `n` on, each with the number of its
line. -/
def openedFences (vocabulary : Vocabulary) (above : Above) (n : Int) :
    List Line → List (Int × List Char)
  | [] => []
  | line :: below =>
    let r := readLine vocabulary above n line below
    ((opened? above r.above).map (n, ·)).toList ++
      openedFences vocabulary r.above (n + 1 + r.skipped) (below.drop r.skipped)
termination_by ls => ls.length
decreasing_by simp only [List.length_cons, List.length_drop]; omega

variable {vocabulary : Vocabulary} {above : Above} {n : Int} {line : Line} {run : List Char}

/-! ## The line that opens a fence -/

theorem opened?_eq_some {next : Above} :
    opened? above next = some run ↔ (∀ run', above ≠ .fence run') ∧ next = .fence run := by
  cases above <;> cases next <;> simp [opened?]

theorem isFilled_of_fence? (h : fence? line = some run) : isFilled line = true := by
  rw [isFilled_iff, Ne, trim_eq_nil_iff, ← trimStart_eq_nil_iff]
  intro hblank
  have hnil : line.dropWhile isBlank = [] := hblank
  simp [fence?, hnil] at h

/-- **A line that opens a fence says something, and the scan reads nothing else in it.** -/
theorem isFilled_and_readLine_of_opened? {below : List Line}
    (h : opened? above (readLine vocabulary above n line below).above = some run) :
    isFilled line = true ∧ ∀ n below, readLine vocabulary above n line below =
      { above := .fence run } := by
  obtain ⟨houtside, hopen⟩ := opened?_eq_some.1 h
  rcases readLine_cases vocabulary above line with ⟨item, hitem, hread⟩ | ⟨next, hnext, hread⟩
  · obtain ⟨column, -, habove⟩ := above_readItem vocabulary n below hitem
    rw [hread, habove] at hopen
    simp at hopen
  · rw [hread] at hopen
    obtain rfl : next = .fence run := hopen
    rcases hnext with hnext | hnext | ⟨run', hrun', -⟩
    · exact absurd hnext.symm (houtside run)
    · simp at hnext
    · exact ⟨isFilled_of_fence? hrun', hread⟩

/-- The scan comes to the lines where it opens a fence. -/
theorem exists_passage_of_mem_openedFences {ls : List Line} {k : Int}
    (h : (k, run) ∈ openedFences vocabulary above n ls) :
    ∃ found above' line below, Passage vocabulary ⟨above, n, ls⟩ found ⟨above', k, line :: below⟩ ∧
      opened? above' (readLine vocabulary above' k line below).above = some run := by
  fun_induction openedFences vocabulary above n ls with
  | case1 => simp at h
  | case2 above n line below r ih =>
    rcases List.mem_append.1 h with h | h
    · obtain ⟨_, hopened, heq⟩ := Option.map_eq_some_iff.1 (Option.mem_toList.1 h)
      obtain ⟨rfl, rfl⟩ := Prod.mk.inj heq
      exact ⟨[], above, line, below, .stay _, hopened⟩
    · obtain ⟨found, above', line', below', hpassage, hopened⟩ := ih h
      exact ⟨_, above', line', below', hpassage.read, hopened⟩

/-! ## The lines of a fence -/

/-- **The scan passes over the lines of a fence.** -/
theorem passage_fenced {inner : List Line} (hinner : ∀ l ∈ inner, closes run l = false) (n : Int)
    (rest : List Line) :
    Passage vocabulary ⟨.fence run, n, inner ++ rest⟩ [] ⟨.fence run, n + inner.length, rest⟩ :=
  .of_forall_readLine_eq (fun l hl n below => by simp [readLine, hinner l hl]) n rest

/-- **The scan comes to the end of a fence with the values that stand above it**, whatever lines the
fence holds. -/
theorem exists_passage_across_fence {upper inner rest : List Line}
    (hopens : (n + upper.length, run) ∈
      openedFences vocabulary above n (upper ++ line :: (inner ++ rest))) :
    ∃ found, (∀ s ∈ found, s.number + s.region.length < n + upper.length) ∧
      ∀ inner', (∀ l ∈ inner', closes run l = false) →
        Passage vocabulary ⟨above, n, upper ++ line :: (inner' ++ rest)⟩ found
          ⟨.fence run, n + upper.length + 1 + inner'.length, rest⟩ := by
  obtain ⟨found, above', line', below', hpassage, hopened⟩ :=
    exists_passage_of_mem_openedFences hopens
  obtain ⟨hfilled, hread⟩ := isFilled_and_readLine_of_opened? hopened
  obtain ⟨passed, hrest, hnumber⟩ := hpassage.exists_passed
  dsimp only at hrest hnumber
  obtain ⟨rfl, htail⟩ := List.append_inj hrest (by omega)
  obtain ⟨rfl, rfl⟩ := List.cons_eq_cons.1 htail
  refine ⟨found, fun s hs => (hpassage.bounds s hs).2, fun inner' hinner' => ?_⟩
  have hupper := hpassage.congr rfl (endAlike_cons hfilled _ (inner' ++ rest))
  have hnumber : n + upper.length + 1 = n + upper.length + 1 + ((0 : Nat) : Int) := by omega
  rw [hnumber, ← List.append_nil found]
  exact hupper.trans (.of_readLine_eq (hread _ _) (passage_fenced hinner' _ rest))

/-- **What stands in a fence says nothing.**  The lines that follow the one that opens a fence, up
to one that closes it, may give way to as many others that do not close it: the page documents the
same values, and no range of a value covers one of these lines. -/
theorem documentedValues_replace_fenced (vocabulary : Vocabulary) (origin : Origin) (offset : Int)
    {body body' : List Char} {upper inner inner' rest : List Line} {line : Line} {run : List Char}
    (hbody : lines body = upper ++ line :: (inner ++ rest))
    (hbody' : lines body' = upper ++ line :: (inner' ++ rest))
    (hopens : (offset + 1 + upper.length, run) ∈
      openedFences vocabulary .nothing (offset + 1) (lines body))
    (hinner : ∀ l ∈ inner, closes run l = false) (hinner' : ∀ l ∈ inner', closes run l = false)
    (hlength : inner'.length = inner.length) :
    documentedValues vocabulary origin offset body' =
        documentedValues vocabulary origin offset body ∧
      ∀ v ∈ documentedValues vocabulary origin offset body, ∀ r ∈ v.ranges, ∀ k < inner.length,
        ¬ r.Covers (offset + 1 + upper.length + 1 + k) := by
  rw [hbody] at hopens
  obtain ⟨found, hfound, hacross⟩ := exists_passage_across_fence hopens
  have hscan := (hacross inner hinner).scan_eq
  have hscan' := (hacross inner' hinner').scan_eq
  rw [hlength] at hscan'
  dsimp only at hscan hscan'
  rw [← hbody] at hscan
  rw [← hbody'] at hscan'
  refine ⟨by rw [documentedValues, documentedValues, hscan, hscan'], ?_⟩
  rw [documentedValues, hscan]
  simp only [List.mem_map]
  rintro _ ⟨s, hs, rfl⟩ r hr k hk ⟨hlower, hupper⟩
  obtain ⟨hfirst, -, hlast⟩ := isWithin_of_mem_ranges origin s r hr
  -- a value above the fence ends above it, one below the lines of the fence starts below them
  rcases List.mem_append.1 hs with hs | hs
  · have := hfound s hs
    omega
  · have := (isFoundIn_of_mem_scan hs).1.bounds
    omega

/-! ## Two months with code between them -/

/-- The lines of a page down to a fence that is indented less than the item above it. -/
def aboveCode : List Line := ["- PossibleValue `May`: Fifth.".toList, "- As code:".toList]

/-- A fence with a name behind it. -/
def codeFence : Line := " ```text".toList

/-- The lines of the page from the fence that closes the code on. -/
def belowCode : List Line := [" ```".toList, "- PossibleValue `June`: Sixth.".toList]

/-- A page with some code. -/
def codePage (code : List Line) : List Char :=
  unlines (aboveCode ++ codeFence :: (code ++ belowCode))

/-- Code that looks like a value, and like a fence of the other kind. -/
def quotedCode : List Line := ["- PossibleValue `Mai`: Fifth.".toList, "  ~~~".toList]

/-- Code with a blank line, and indented so far that it could be nested in the item above. -/
def indentedCode : List Line := [[], "      - June: Sixth.".toList]

/-- The months of a page stay when the code between them changes. -/
theorem documentedValues_replace_fenced_months :
    lines (codePage quotedCode) = aboveCode ++ codeFence :: (quotedCode ++ belowCode) ∧
      lines (codePage indentedCode) = aboveCode ++ codeFence :: (indentedCode ++ belowCode) ∧
      (4 + 1 + (aboveCode.length : Int), "```".toList) ∈
        openedFences oneKeyword .nothing (4 + 1) (lines (codePage quotedCode)) ∧
      (∀ l ∈ quotedCode, closes "```".toList l = false) ∧
      (∀ l ∈ indentedCode, closes "```".toList l = false) ∧
      documentedValues oneKeyword {} 4 (codePage indentedCode) =
        documentedValues oneKeyword {} 4 (codePage quotedCode) ∧
      (∀ v ∈ documentedValues oneKeyword {} 4 (codePage quotedCode), ∀ r ∈ v.ranges,
        ∀ k < quotedCode.length, ¬ r.Covers (4 + 1 + aboveCode.length + 1 + k)) ∧
      (documentedValues oneKeyword {} 4 (codePage quotedCode)).map (·.name) = ["May", "June"] := by
  have hquoted : lines (codePage quotedCode) = aboveCode ++ codeFence :: (quotedCode ++ belowCode) :=
    lines_unlines (by decide +kernel) (by decide +kernel)
  have hindented : lines (codePage indentedCode) =
      aboveCode ++ codeFence :: (indentedCode ++ belowCode) :=
    lines_unlines (by decide +kernel) (by decide +kernel)
  have hopens : (4 + 1 + (aboveCode.length : Int), "```".toList) ∈
      openedFences oneKeyword .nothing (4 + 1) (lines (codePage quotedCode)) := by
    rw [hquoted]
    decide +kernel
  have hcode : ∀ l ∈ quotedCode, closes "```".toList l = false := by decide +kernel
  have hcode' : ∀ l ∈ indentedCode, closes "```".toList l = false := by decide +kernel
  obtain ⟨hsame, hcovers⟩ :=
    documentedValues_replace_fenced oneKeyword {} 4 hquoted hindented hopens hcode hcode' rfl
  refine ⟨hquoted, hindented, hopens, hcode, hcode', hsame, hcovers, ?_⟩
  rw [documentedValues, hquoted]
  decide +kernel

end ValueDocs.Directive
