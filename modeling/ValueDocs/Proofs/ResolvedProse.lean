import Mathlib.Data.List.Forall2
import Mathlib.Data.String.Basic
import ValueDocs.Proofs.References

/-!
# Proofs/ResolvedProse — prose with its references replaced, and nothing else

The references of a text stand one after the other (`inOrder_findFrom`), so they and the stretches
before, between and after them make up the text in turn (`flatten_weave_stretches`).  Resolving a
block keeps the stretches and puts a segment for each reference (`segments_fst`).  Hence the text it
shows is the text of the block with each reference replaced (`resolveBlock_isSubstitution`).
-/

namespace ValueDocs

/-! ## Lists in turn -/

section Weave

variable {α β : Type}

/-- Two lists in turn, the first item being of the first list. -/
def weave : List α → List α → List α
  | [], ys => ys
  | xs, [] => xs
  | x :: xs, y :: ys => x :: y :: weave xs ys

theorem weave_singleton_nil (x : α) : weave [x] [] = [x] := rfl

theorem weave_cons_cons (x y : α) (xs ys : List α) :
    weave (x :: xs) (y :: ys) = x :: y :: weave xs ys := rfl

theorem map_weave (f : α → β) (xs ys : List α) :
    (weave xs ys).map f = weave (xs.map f) (ys.map f) := by
  induction xs, ys using weave.induct with
  | case1 ys => rfl
  | case2 xs hxs =>
    obtain ⟨x, xs, rfl⟩ := List.exists_cons_of_ne_nil hxs
    rfl
  | case3 x xs y ys ih => simp only [weave_cons_cons, List.map_cons, ih]

end Weave

/-! ## A text and its references -/

namespace Reference

/-- References that stand one after the other, from an offset on. -/
inductive InOrder : Nat → List Reference → Prop
  | nil {offset : Nat} : InOrder offset []
  | cons {offset : Nat} {r : Reference} {rs : List Reference} (start : offset ≤ r.start)
    (stop : r.start ≤ r.stop) (rest : InOrder r.stop rs) : InOrder offset (r :: rs)

theorem InOrder.mono {m n : Nat} {refs : List Reference} (h : InOrder n refs) (hmn : m ≤ n) :
    InOrder m refs := by
  cases h with
  | nil => exact .nil
  | cons start stop rest => exact .cons (hmn.trans start) stop rest

/-- **References are found one after the other.** -/
theorem inOrder_findFrom (offset : Nat) (s : List Char) : InOrder offset (findFrom offset s) := by
  induction offset, s using findFrom.induct with
  | case1 => simpa only [findFrom] using .nil
  | case2 offset c rest hhere ih =>
    rw [findFrom, hhere]
    exact ih.mono (Nat.le_succ offset)
  | case3 offset c rest kind target length hhere ih =>
    rw [findFrom, hhere]
    exact .cons (Nat.le_refl _) (Nat.le_add_right ..) ih

/-- The stretches of a text from an offset on: before, between and after references. -/
def stretches (text : List Char) (offset : Nat) (refs : List Reference) : List (List Char) :=
  List.zipWith (text.extract · ·) (offset :: refs.map (·.stop))
    (refs.map (·.start) ++ [text.length])

/-- What references are in a text. -/
def slices (text : List Char) (refs : List Reference) : List (List Char) :=
  refs.map fun r => text.extract r.start r.stop

theorem stretches_nil (text : List Char) (offset : Nat) :
    stretches text offset [] = [text.drop offset] := by
  have h : text.extract offset text.length = text.drop offset := by
    rw [List.extract_eq_take_drop, List.take_of_length_le (by rw [List.length_drop])]
  rw [← h]
  rfl

theorem stretches_cons (text : List Char) (offset : Nat) (r : Reference) (rs : List Reference) :
    stretches text offset (r :: rs) = text.extract offset r.start :: stretches text r.stop rs := rfl

/-- A text from an offset on is what stands before a later offset and what stands from there. -/
theorem extract_append_drop (text : List Char) {m n : Nat} (h : m ≤ n) :
    text.extract m n ++ text.drop n = text.drop m := by
  have hdrop : text.drop n = (text.drop m).drop (n - m) := by
    rw [List.drop_drop, Nat.add_sub_cancel' h]
  rw [List.extract_eq_take_drop, hdrop, List.take_append_drop]

/-- **A text is its stretches and its references in turn.** -/
theorem flatten_weave_stretches (text : List Char) {offset : Nat} {refs : List Reference}
    (h : InOrder offset refs) :
    (weave (stretches text offset refs) (slices text refs)).flatten = text.drop offset := by
  induction h with
  | nil => rw [stretches_nil, slices, List.map_nil, weave_singleton_nil, List.flatten_singleton]
  | @cons offset r rs start stop rest ih =>
    rw [stretches_cons, slices, List.map_cons, weave_cons_cons, List.flatten_cons,
      List.flatten_cons]
    rw [slices] at ih
    rw [ih, extract_append_drop text stop, extract_append_drop text start]

end Reference

/-- The references of a block. -/
def Block.references (b : Block) : List Reference := Reference.find b.text

/-- The stretches of a block about its references. -/
def Block.stretches (b : Block) : List (List Char) :=
  Reference.stretches b.text.toList 0 b.references

/-! ## What stands for references -/

namespace Resolution

open Reference (InOrder stretches slices)

/-- Whether a segment is what a reference becomes: a link under its title if the reference leads
somewhere, and otherwise its target, that of a symbol in code voice. -/
structure StandsFor (resolver : Resolver) (contextPath : String) (r : Reference) (s : Segment) :
    Prop where
  link : ∀ link, resolver r contextPath = some link →
    s = ⟨.reference, link.title, some link.destination⟩
  symbol : resolver r contextPath = none → r.kind = .symbol → s = ⟨.codeVoice, r.target, none⟩
  article : resolver r contextPath = none → r.kind = .article → s = ⟨.text, r.target, none⟩

/-- Whether a block is another with its references replaced, and nothing else. -/
structure IsSubstitution (resolver : Resolver) (contextPath : String) (b resolved : Block) :
    Prop where
  inOrder : InOrder 0 b.references
  /-- The stretches and the references in turn are the text of the block. -/
  text : (weave b.stretches (slices b.text.toList b.references)).flatten = b.text.toList
  /-- A segment stands for each reference, between the stretches that are not empty.  In the text
  that is shown, its text stands for that of the reference. -/
  segments : ∃ segments, List.Forall₂ (StandsFor resolver contextPath) b.references segments ∧
    resolved.inlines =
      (weave (b.stretches.map plain) (segments.map fun s => [s])).flatten ∧
    (plainText [resolved]).toList =
      (weave b.stretches (segments.map fun s => s.text.toList)).flatten

variable (resolver : Resolver) (contextPath : String)

theorem standsFor_segmentOf (source : Option String) (b : Block) (r : Reference) :
    StandsFor resolver contextPath r (segmentOf resolver contextPath source b r).1 := by
  unfold segmentOf
  constructor
  · intro link hlink
    rw [hlink]
  · intro hnone hkind
    rw [hnone, hkind]
  · intro hnone hkind
    rw [hnone, hkind]

/-! ## The segments of a block -/

/-- **A text becomes its stretches and a segment for each reference.** -/
theorem segments_fst (f : Reference → Reported Segment) (text : List Char) {offset : Nat}
    {refs : List Reference} (h : InOrder offset refs) :
    (segments f offset (text.drop offset) refs).1 =
      (weave ((stretches text offset refs).map plain) (refs.map fun r => [(f r).1])).flatten := by
  induction h with
  | nil =>
    rw [Reference.stretches_nil, List.map_singleton, List.map_nil, weave_singleton_nil,
      List.flatten_singleton]
    rfl
  | @cons offset r rs start stop rest ih =>
    have hdrop : (text.drop offset).drop (r.stop - offset) = text.drop r.stop := by
      rw [List.drop_drop, Nat.add_sub_cancel' (start.trans stop)]
    change plain (text.extract offset r.start) ++
      (f r).1 :: (segments f r.stop ((text.drop offset).drop (r.stop - offset)) rs).1 = _
    rw [hdrop, ih, Reference.stretches_cons, List.map_cons, List.map_cons, weave_cons_cons,
      List.flatten_cons, List.flatten_cons, List.singleton_append]

theorem flatMap_text_plain (text : List Char) :
    (plain text).flatMap (·.text.toList) = text := by
  unfold plain
  split
  · next h => exact (List.isEmpty_iff.1 h).symm
  · simp

/-- The text of segments between stretches is their texts between the stretches. -/
theorem flatMap_text_weave (texts : List (List Char)) (ss : List Segment) :
    (weave (texts.map plain) (ss.map fun s => [s])).flatten.flatMap (·.text.toList) =
      (weave texts (ss.map fun s => s.text.toList)).flatten := by
  rw [List.flatMap_def, List.map_flatten, List.flatten_flatten, List.map_map, map_weave,
    List.map_map, List.map_map]
  congr 2
  · exact List.map_id'' (fun text => (List.flatMap_def ..).symm.trans (flatMap_text_plain text)) _
  · exact List.map_congr_left fun s _ => List.append_nil _

/-- A block shows the text of its segments, if the text of one without segments is empty. -/
theorem toList_plainText {b : Block} (h : b.inlines = [] → b.text.toList = []) :
    (plainText [b]).toList = b.inlines.flatMap (·.text.toList) := by
  change (blockText b).toList = _
  unfold blockText
  split
  · next hempty => rw [h (List.isEmpty_iff.1 hempty), List.isEmpty_iff.1 hempty, List.flatMap_nil]
  · rw [String.toList_join, List.flatMap_map]

theorem text_resolveBlock (source : Option String) (b : Block) :
    (resolveBlock resolver contextPath source b).1.text = b.text := by
  unfold resolveBlock
  split <;> rfl

theorem inlines_resolveBlock (source : Option String) {b : Block} (h : b.kind ≠ .code) :
    (resolveBlock resolver contextPath source b).1.inlines =
      (weave (b.stretches.map plain) ((b.references.map fun r =>
        (segmentOf resolver contextPath source b r).1).map fun s => [s])).flatten := by
  rw [resolveBlock, if_neg h, List.map_map]
  exact segments_fst _ b.text.toList (Reference.inOrder_findFrom 0 _)

/-- Prose that is resolved to no segment is empty. -/
theorem text_eq_nil_of_inlines_eq_nil (source : Option String) {b : Block} (h : b.kind ≠ .code)
    (hnil : (resolveBlock resolver contextPath source b).1.inlines = []) : b.text.toList = [] := by
  rw [inlines_resolveBlock resolver contextPath source h, Block.stretches] at hnil
  rcases hrefs : b.references with _ | ⟨r, rs⟩ <;> rw [hrefs] at hnil
  · rw [Reference.stretches_nil, List.drop_zero, List.map_singleton, List.map_nil, List.map_nil,
      weave_singleton_nil, List.flatten_singleton] at hnil
    rw [← flatMap_text_plain b.text.toList, hnil, List.flatMap_nil]
  · simp [Reference.stretches_cons, weave_cons_cons] at hnil

/-- **Resolving prose replaces its references and nothing else.**  Each becomes its segment; the
stretches before, between and after them stay as they are, in order. -/
theorem resolveBlock_isSubstitution (source : Option String) {b : Block} (h : b.kind ≠ .code) :
    IsSubstitution resolver contextPath b (resolveBlock resolver contextPath source b).1 := by
  have hinOrder : InOrder 0 b.references := Reference.inOrder_findFrom 0 b.text.toList
  have hinlines := inlines_resolveBlock resolver contextPath source h
  have hempty : (resolveBlock resolver contextPath source b).1.inlines = [] →
      (resolveBlock resolver contextPath source b).1.text.toList = [] := by
    intro hnil
    rw [text_resolveBlock]
    exact text_eq_nil_of_inlines_eq_nil resolver contextPath source h hnil
  refine ⟨hinOrder, Reference.flatten_weave_stretches b.text.toList hinOrder, _, ?_, hinlines, ?_⟩
  · rw [List.forall₂_map_right_iff, List.forall₂_same]
    exact fun r _ => standsFor_segmentOf resolver contextPath source b r
  · rw [toList_plainText hempty, hinlines, flatMap_text_weave]

/-- Prose that starts and ends with a reference, two of them with nothing between. -/
def calendarProse : Block :=
  ⟨.paragraph, "``Day````Dy``: ` in <doc:Calendar>", none, [], [], none⟩

/-- Leads to the day, which has an empty title, and to articles. -/
def calendarResolver : Resolver := fun r _ =>
  match r.kind with
  | .symbol => if r.target = "Day" then some ⟨"/Kit/Day", ""⟩ else none
  | .article => some ⟨"/Kit/" ++ r.target, "the " ++ r.target⟩

/-- The empty title leaves nothing, and the backtick that opens no reference stays. -/
theorem resolveBlock_isSubstitution_calendarProse : calendarProse.kind ≠ .code ∧
    ∃ resolved, IsSubstitution calendarResolver "/Kit" calendarProse resolved ∧
      plainText [resolved] = "Dy: ` in the Calendar" ∧
      resolved.inlines.map (·.text) = ["", "Dy", ": ` in ", "the Calendar"] := by
  have hkind : calendarProse.kind ≠ .code := by decide
  exact ⟨hkind, _, resolveBlock_isSubstitution calendarResolver "/Kit" none hkind,
    by decide +kernel, by decide +kernel⟩

end Resolution
end ValueDocs
