import ValueDocs.Proofs.Directive.Blocks
import ValueDocs.Proofs.Directive.Descriptions

/-!
# Proofs/Directive/Printed — values that can be printed, and what their parts are read as

A list of values can be printed in the block form or in the short form, each name bare or in
backticks.  The parts are read back one by one: a statement as its name and description
(`ofContent?_statement`), paragraphs as blocks (`blocks_printParagraphs`), and so a value as what it
tells (`telling_valueOf`).
-/

namespace ValueDocs

open Text Directive

/-- What a value tells, wherever it stands. -/
structure Telling where
  name : String
  description : String
  prose : List (BlockKind × String)
  deriving DecidableEq, Repr

/-- What a documented value tells. -/
def DocumentedValue.telling (v : DocumentedValue) : Telling :=
  ⟨v.name, v.shortDescription, v.prose.map fun b => (b.kind, b.text)⟩

namespace Directive

/-! ## What can be printed -/

/-- A text on one line without blanks at its ends. -/
structure Phrase where
  text : List Char
  isUnbroken : IsUnbroken text
  trim_text : trim text = text

/-- A line of a paragraph: it says something, and starts neither a list nor a fence. -/
structure ProseLine extends Phrase where
  text_ne_nil : text ≠ []
  isItem_text : isItem text = false
  isFence_text : isFence text = false

/-- A value to be printed, with its name in backticks or bare. -/
structure Authored where
  quoted : Bool
  name : Phrase
  name_ne_nil : name.text ≠ []
  backtick_notMem : '`' ∉ name.text
  colon_notMem : quoted = false → ':' ∉ name.text
  description : Phrase
  paragraphs : List (List ProseLine)
  nil_notMem : [] ∉ paragraphs

/-- The two forms. -/
inductive Form where
  | block
  | short
  deriving DecidableEq, Repr

/-- A line of a paragraph as it is printed. -/
def printProse (l : ProseLine) : Line := ' ' :: ' ' :: ' ' :: ' ' :: l.text

/-- Paragraphs, a blank line before each. -/
def printParagraphs (ps : List (List ProseLine)) : List Line :=
  ps.flatMap fun p => [] :: p.map printProse

namespace Authored

/-- What the author means. -/
def telling (v : Authored) : Telling where
  name := String.ofList v.name.text
  description := String.ofList v.description.text
  prose := v.paragraphs.map fun p => (.paragraph, String.ofList (unlines (p.map (·.text))))

/-- The name as it is printed. -/
def printName (v : Authored) : List Char :=
  if v.quoted then '`' :: (v.name.text ++ ['`']) else v.name.text

/-- The name and the description. -/
def statement (v : Authored) : List Char := v.printName ++ ':' :: ' ' :: v.description.text

/-- The lines of a value behind a marker. -/
def printBelow (marker : List Char) (v : Authored) : List Line :=
  (marker ++ v.statement) :: printParagraphs v.paragraphs

end Authored

/-- What stands before a value in one of the forms. -/
def Form.marker : Form → List Char
  | .block => "  - ".toList
  | .short => "- PossibleValue ".toList

/-- The lines of values in one of the forms. -/
def printLines (form : Form) (vs : List Authored) : List Line :=
  match form with
  | .block => "- PossibleValues:".toList :: vs.flatMap (Authored.printBelow form.marker)
  | .short => vs.flatMap (Authored.printBelow form.marker)

/-- Values printed in one of the forms. -/
def print (form : Form) (vs : List Authored) : String :=
  String.ofList (unlines (printLines form vs))

/-! ## A statement is read -/

theorem Phrase.trimStart_text (p : Phrase) : trimStart p.text = p.text := by
  rcases h : p.text with _ | ⟨c, t⟩
  · rfl
  · exact trimStart_cons ((trim_eq_self_iff.1 p.trim_text).1 c t h) t

theorem Phrase.trimEnd_text (p : Phrase) : trimEnd p.text = p.text := by
  have h : trimEnd (trimStart p.text) = p.text := p.trim_text
  rwa [p.trimStart_text] at h

namespace Authored

variable (v : Authored)

theorem exists_name_eq_cons : ∃ c t, v.name.text = c :: t ∧ isBlank c = false := by
  obtain ⟨c, t, h⟩ := List.exists_cons_of_ne_nil v.name_ne_nil
  exact ⟨c, t, h, (trim_eq_self_iff.1 v.name.trim_text).1 c t h⟩

/-- A statement starts with no blank. -/
theorem exists_statement_eq_cons : ∃ c t, v.statement = c :: t ∧ isBlank c = false := by
  obtain ⟨c, t, h, hc⟩ := v.exists_name_eq_cons
  unfold statement printName
  split
  · exact ⟨_, _, rfl, rfl⟩
  · exact ⟨c, _, by rw [h, List.cons_append], hc⟩

/-- The name is what stands before the colon, or between the backticks. -/
theorem name?_statement : ∃ start, ValueItem.name? v.statement =
    some (start, v.name.text, ':' :: ' ' :: v.description.text) := by
  obtain ⟨c, t, hname, -⟩ := v.exists_name_eq_cons
  have hne := v.name_ne_nil
  unfold statement printName
  split
  · have hall : ∀ d ∈ v.name.text, (d != '`') = true := fun d hd => by
      simpa using fun h : d = '`' => v.backtick_notMem (h ▸ hd)
    rw [List.cons_append, List.append_assoc, List.singleton_append, ValueItem.name?]
    rw [List.takeWhile_append_of_pos hall, List.dropWhile_append_of_pos hall]
    exact ⟨1, by simp [hne]⟩
  · next hbare =>
    have hall : ∀ d ∈ v.name.text, (d != ':' && d != '`') = true := fun d hd => by
      have hcolon := v.colon_notMem (by simpa using hbare)
      have hbacktick := v.backtick_notMem
      simpa using ⟨fun h : d = ':' => hcolon (h ▸ hd), fun h : d = '`' => hbacktick (h ▸ hd)⟩
    have hcut : (v.name.text ++ ':' :: ' ' :: v.description.text).takeWhile
        (fun d => d != ':' && d != '`') = v.name.text := by
      rw [List.takeWhile_append_of_pos hall]
      simp
    have hc : c ≠ '`' := fun h => v.backtick_notMem (by simp [hname, h])
    refine ⟨0, ?_⟩
    rw [ValueItem.name?, hcut, v.name.trimEnd_text]
    · simp [hne]
    · rw [hname]
      exact fun _ h => hc (List.cons_eq_cons.1 h).1

/-- **A statement states its value.** -/
theorem ofContent?_statement : ∃ item, ValueItem.ofContent? v.statement = some item ∧
    item.name = v.name.text ∧ item.description = ' ' :: v.description.text := by
  obtain ⟨start, h⟩ := v.name?_statement
  exact ⟨_, by rw [ValueItem.ofContent?, h]; rfl, rfl, rfl⟩

end Authored

/-! ## Paragraphs are read -/

section Paragraphs

variable (l : ProseLine)

theorem ProseLine.exists_text_eq_cons : ∃ c t, l.text = c :: t ∧ isBlank c = false := by
  obtain ⟨c, t, h⟩ := List.exists_cons_of_ne_nil l.text_ne_nil
  exact ⟨c, t, h, (trim_eq_self_iff.1 l.trim_text).1 c t h⟩

theorem trimStart_printProse : trimStart (printProse l) = l.text := l.trimStart_text

/-- A printed line is indented by four columns. -/
theorem indent_printProse : indent (printProse l) = 4 := by
  obtain ⟨c, t, h, hc⟩ := l.exists_text_eq_cons
  have hi : isIndent c = false := by
    rw [← Bool.not_eq_true]
    exact fun hi => by simp [isBlank_of_isIndent hi] at hc
  simp [indent, printProse, h, hi, show isIndent ' ' = true from rfl]

theorem isFilled_printProse : isFilled (printProse l) = true := by
  rw [isFilled_iff, ne_eq, trim_eq_nil_iff, ← trimStart_eq_nil_iff, trimStart_printProse]
  exact l.text_ne_nil

theorem isItem_printProse : isItem (printProse l) = false := by
  rw [ListItem.isItem_eq, trimStart_printProse, ← l.trimStart_text, ← ListItem.isItem_eq,
    l.isItem_text]

theorem isFence_printProse : isFence (printProse l) = false := l.isFence_text

theorem fence?_printProse : fence? (printProse l) = none := by
  simpa [isFence] using isFence_printProse l

theorem blockKind_printProse : blockKind (printProse l) = .paragraph := by
  rw [blockKind, isFence_printProse, isItem_printProse]
  rfl

/-- A paragraph shows its lines without their indentation. -/
theorem shown_printProse (first : ProseLine) :
    shown (printProse first) (printProse l) = l.text := by
  rw [shown, leftOut, blockKind_printProse, removedIndent, if_pos rfl, indent_printProse]
  exact l.trimEnd_text

end Paragraphs

/-- Printed paragraphs start with a blank line, if there is one. -/
theorem isFilled_of_head?_printParagraphs (ps : List (List ProseLine)) :
    ∀ l ∈ (printParagraphs ps).head?, isFilled l = false := by
  rcases ps with _ | ⟨p, ps⟩
  · simp [printParagraphs]
  · simp [printParagraphs, isFilled, isBlankLine]

/-- A printed paragraph ends where the next one starts. -/
theorem blockRest_printProse (l : ProseLine) (ls : List ProseLine) (ps : List (List ProseLine)) :
    blockRest (printProse l) (ls.map printProse ++ printParagraphs ps) =
      (ls.map printProse, printParagraphs ps) := by
  have hstays : ∀ m ∈ ls.map printProse, (!endsBlock .paragraph m) = true := fun m hm => by
    obtain ⟨m, -, rfl⟩ := List.mem_map.1 hm
    simp [endsBlock, isFilled_printProse, isFence_printProse, isItem_printProse]
  rw [blockRest, fence?_printProse]
  dsimp only
  rw [blockKind_printProse, List.takeWhile_append_of_pos hstays,
    List.dropWhile_append_of_pos hstays]
  have hhead := isFilled_of_head?_printParagraphs ps
  generalize printParagraphs ps = ms at hhead ⊢
  rcases ms with _ | ⟨m, ms⟩
  · simp
  · have hends : endsBlock .paragraph m = true := by simp [endsBlock, hhead m (by simp)]
    simp [hends]

/-- **Printed paragraphs are read as paragraphs**, one block each. -/
theorem blocks_printParagraphs {ps : List (List ProseLine)} (hps : [] ∉ ps) (n : Int) :
    (blocks n (printParagraphs ps)).map (fun b => (b.kind, b.text)) =
      ps.map fun p => (.paragraph, String.ofList (unlines (p.map (·.text)))) := by
  induction ps generalizing n with
  | nil => simp [printParagraphs, blocks]
  | cons p ps ih =>
    rw [List.mem_cons, not_or] at hps
    obtain ⟨l, ls, rfl⟩ := List.exists_cons_of_ne_nil (Ne.symm hps.1)
    have hcut : printParagraphs ((l :: ls) :: ps) =
      [] :: printProse l :: (ls.map printProse ++ printParagraphs ps) := by simp [printParagraphs]
    have htext : (blockOf (n + 1) (printProse l) (ls.map printProse)).text =
        String.ofList (unlines ((l :: ls).map (·.text))) := by
      rw [← String.toList_inj, text_blockOf, String.toList_ofList]
      simp [shown_printProse, Function.comp_def]
    have hblank : ¬ isFilled [] = true := Bool.false_ne_true
    rw [hcut, blocks, if_neg hblank, blocks, if_pos (isFilled_printProse l),
      blockRest_printProse, List.map_cons, List.map_cons, ih hps.2, htext]
    simp only [blockOf, blockKind_printProse]

theorem indent_of_mem_printParagraphs {ps : List (List ProseLine)} {l : Line}
    (hl : l ∈ printParagraphs ps) (hf : isFilled l = true) : indent l = 4 := by
  obtain ⟨p, -, hl⟩ := List.mem_flatMap.1 hl
  rcases List.mem_cons.1 hl with rfl | hl
  · exact absurd hf Bool.false_ne_true
  · obtain ⟨m, -, rfl⟩ := List.mem_map.1 hl
    exact indent_printProse m

theorem endsFilled_printParagraphs {ps : List (List ProseLine)} (hps : [] ∉ ps) :
    EndsFilled (printParagraphs ps) := by
  refine EndsFilled.flatMap fun p hp => EndsFilled.cons (.of_forall fun l hl => ?_) fun hnil => ?_
  · obtain ⟨m, -, rfl⟩ := List.mem_map.1 hl
    exact isFilled_printProse m
  · exact absurd (List.map_eq_nil_iff.1 hnil ▸ hp) hps

theorem continuation_printParagraphs (ps : List (List ProseLine)) :
    continuation (printParagraphs ps) = [] := by
  have hhead := isFilled_of_head?_printParagraphs ps
  generalize printParagraphs ps = ms at hhead ⊢
  rcases ms with _ | ⟨m, ms⟩
  · rfl
  · simp [continuation, continuesItem, hhead m (by simp)]

/-! ## A value is read -/

/-- **A value tells what was printed**, wherever it is found. -/
theorem telling_valueOf {s : Sighting} {v : Authored} (hname : s.item.name = v.name.text)
    (hdescription : s.item.description = ' ' :: v.description.text)
    (hregion : s.region = printParagraphs v.paragraphs) (origin : Origin) :
    (valueOf origin s).telling = v.telling := by
  have hcontinued : continuation s.region = [] := by rw [hregion, continuation_printParagraphs]
  simp only [DocumentedValue.telling, valueOf, Authored.telling, Telling.mk.injEq]
  refine ⟨?_, ?_, ?_⟩
  · rw [hname, v.name.trim_text]
  · rw [hcontinued, unlines_descriptionLines_nil, hdescription]
    exact congrArg String.ofList v.description.trim_text
  · rw [hcontinued, hregion]
    exact blocks_printParagraphs v.nil_notMem _

end Directive
end ValueDocs
