import ValueDocs.Proofs.Text.Trim
import ValueDocs.Reference

/-!
# Proofs/WrittenReferences — references are found where they were written

Prose is put together from pieces: plain text without the two characters that open a reference, and
references.  A written reference is read up to its closing delimiter whatever follows it
(`here?_symbol_append`, `here?_article_append`), and no reference starts in plain text
(`findFrom_plain_append`).  So the pieces are passed by one after the other
(`findFrom_write_append`), and the references of a prose are those of its pieces, each in its place
(`find_prose`).
-/

namespace ValueDocs

open Text

theorem ReferenceKind.write_ne_nil (kind : ReferenceKind) (target : List Char) :
    kind.write target ≠ [] := by
  cases kind <;> simp [write]

namespace Reference

/-! ## What can be written -/

/-- A name that can stand in a reference to a symbol. -/
structure SymbolName where
  text : List Char
  ne_nil : text ≠ []
  trim_text : trim text = text
  backtick_notMem : '`' ∉ text
  newline_notMem : '\n' ∉ text

/-- A name that can stand in a reference to an article. -/
structure ArticleName where
  text : List Char
  ne_nil : text ≠ []
  angle_notMem : '>' ∉ text
  not_isBlank : ∀ c ∈ text, isBlank c = false

/-- A piece of prose. -/
inductive Piece where
  /-- Text in which no reference can start. -/
  | plain (text : List Char) (backtick_notMem : '`' ∉ text) (angle_notMem : '<' ∉ text)
  | symbol (name : SymbolName)
  | article (name : ArticleName)

namespace Piece

/-- The written form of a piece. -/
def write : Piece → List Char
  | plain text _ _ => text
  | symbol name => ReferenceKind.symbol.write name.text
  | article name => ReferenceKind.article.write name.text

/-- The prose that pieces make up. -/
def prose (pieces : List Piece) : List Char := pieces.flatMap write

/-- What a piece refers to, from the offset where its written form starts to where it ends. -/
def references (offset : Nat) (p : Piece) : List Reference :=
  match p with
  | plain .. => []
  | symbol name => [⟨String.ofList name.text, .symbol, offset, offset + p.write.length⟩]
  | article name => [⟨String.ofList name.text, .article, offset, offset + p.write.length⟩]

/-- What the pieces of a prose refer to, where the prose starts at an offset. -/
def placed : (offset : Nat) → List Piece → List Reference
  | _, [] => []
  | offset, p :: ps => p.references offset ++ placed (offset + p.write.length) ps

end Piece

/-! ## A written reference is read -/

/-- A name that is read as far as its characters go ends where one stands that is none of them. -/
theorem span_append {p : Char → Bool} {name : List Char} {c : Char}
    (hname : ∀ d ∈ name, p d = true) (hc : p c = false) (rest : List Char) :
    (name ++ c :: rest).takeWhile p = name ∧ (name ++ c :: rest).dropWhile p = c :: rest := by
  constructor
  · rw [List.takeWhile_append_of_pos hname, List.takeWhile_cons_of_neg (by simp [hc]),
      List.append_nil]
  · rw [List.dropWhile_append_of_pos hname, List.dropWhile_cons_of_neg (by simp [hc])]

theorem SymbolName.isSymbolChar (name : SymbolName) : ∀ c ∈ name.text, isSymbolChar c = true := by
  intro c hc
  have hbacktick : c ≠ '`' := fun h => name.backtick_notMem (h ▸ hc)
  have hnewline : c ≠ '\n' := fun h => name.newline_notMem (h ▸ hc)
  simp [Reference.isSymbolChar, hbacktick, hnewline]

theorem ArticleName.isArticleChar (name : ArticleName) :
    ∀ c ∈ name.text, isArticleChar c = true := by
  intro c hc
  have hangle : c ≠ '>' := fun h => name.angle_notMem (h ▸ hc)
  simp [Reference.isArticleChar, hangle, name.not_isBlank c hc]

theorem ArticleName.trim_text (name : ArticleName) : trim name.text = name.text := by
  refine trim_eq_self_iff.2 ⟨fun c t h => ?_, fun t c h => ?_⟩
  · exact name.not_isBlank c (by simp [h])
  · exact name.not_isBlank c (by simp [h])

/-- **A written symbol reference is read up to its closing backticks.** -/
theorem here?_symbol_append (name : SymbolName) (rest : List Char) :
    here? (ReferenceKind.symbol.write name.text ++ rest) =
      some (.symbol, name.text, (ReferenceKind.symbol.write name.text).length) := by
  obtain ⟨c, target, htarget⟩ := List.exists_cons_of_ne_nil name.ne_nil
  obtain ⟨htake, hdrop⟩ := span_append name.isSymbolChar
    (show Reference.isSymbolChar '`' = false by decide) ('`' :: rest)
  have hwritten : ReferenceKind.symbol.write name.text ++ rest =
      '`' :: '`' :: (name.text ++ '`' :: '`' :: rest) := by
    simp [ReferenceKind.write]
  have hlength : (ReferenceKind.symbol.write name.text).length = target.length + 5 := by
    simp [ReferenceKind.write, htarget]
  rw [hwritten, hlength, here?]
  simp only [htake, hdrop]
  simp only [htarget]

/-- **A written article reference is read up to its closing bracket.** -/
theorem here?_article_append (name : ArticleName) (rest : List Char) :
    here? (ReferenceKind.article.write name.text ++ rest) =
      some (.article, name.text, (ReferenceKind.article.write name.text).length) := by
  obtain ⟨c, target, htarget⟩ := List.exists_cons_of_ne_nil name.ne_nil
  obtain ⟨htake, hdrop⟩ := span_append name.isArticleChar
    (show Reference.isArticleChar '>' = false by decide) rest
  have hwritten : ReferenceKind.article.write name.text ++ rest =
      '<' :: 'd' :: 'o' :: 'c' :: ':' :: (name.text ++ '>' :: rest) := by
    simp [ReferenceKind.write]
  have hlength : (ReferenceKind.article.write name.text).length = target.length + 7 := by
    simp [ReferenceKind.write, htarget]
  rw [hwritten, hlength, here?]
  simp only [htake, hdrop]
  simp only [htarget]

/-! ## A piece is passed by -/

/-- No reference starts with a character other than the two that open one. -/
theorem here?_cons_eq_none {c : Char} (hbacktick : c ≠ '`') (hangle : c ≠ '<') (s : List Char) :
    here? (c :: s) = none := by
  unfold here?
  split
  · next h => exact absurd (List.cons_eq_cons.1 h).1 hbacktick
  · next h => exact absurd (List.cons_eq_cons.1 h).1 hangle
  · rfl

/-- **No reference starts in plain text.** -/
theorem findFrom_plain_append {text : List Char} (hbacktick : '`' ∉ text) (hangle : '<' ∉ text)
    (offset : Nat) (rest : List Char) :
    findFrom offset (text ++ rest) = findFrom (offset + text.length) rest := by
  induction text generalizing offset with
  | nil => rfl
  | cons c text ih =>
    have hhere : here? (c :: (text ++ rest)) = none :=
      here?_cons_eq_none (fun h => hbacktick (h ▸ List.mem_cons_self ..))
        (fun h => hangle (h ▸ List.mem_cons_self ..)) _
    rw [List.cons_append, findFrom, hhere]
    change findFrom (offset + 1) (text ++ rest) = _
    rw [ih (fun h => hbacktick (List.mem_cons_of_mem _ h))
      (fun h => hangle (List.mem_cons_of_mem _ h)), List.length_cons]
    congr 1
    omega

/-- A reference that is read is found, and the search goes on behind it. -/
theorem findFrom_append_of_here? {written rest target : List Char} {kind : ReferenceKind}
    (hne : written ≠ [])
    (h : here? (written ++ rest) = some (kind, target, written.length)) (offset : Nat) :
    findFrom offset (written ++ rest) =
      ⟨String.ofList (trim target), kind, offset, offset + written.length⟩ ::
        findFrom (offset + written.length) rest := by
  obtain ⟨c, tail, rfl⟩ := List.exists_cons_of_ne_nil hne
  rw [List.cons_append] at h ⊢
  rw [findFrom, h]
  simp

/-- **A piece at the front is passed by**, and what it refers to is found. -/
theorem findFrom_write_append (p : Piece) (offset : Nat) (rest : List Char) :
    findFrom offset (p.write ++ rest) =
      p.references offset ++ findFrom (offset + p.write.length) rest := by
  cases p with
  | plain text hbacktick hangle => exact findFrom_plain_append hbacktick hangle offset rest
  | symbol name =>
    have h := findFrom_append_of_here? (ReferenceKind.write_ne_nil _ _)
      (here?_symbol_append name rest) offset
    rwa [name.trim_text] at h
  | article name =>
    have h := findFrom_append_of_here? (ReferenceKind.write_ne_nil _ _)
      (here?_article_append name rest) offset
    rwa [name.trim_text] at h

/-! ## The prose is read -/

theorem findFrom_prose (offset : Nat) (pieces : List Piece) :
    findFrom offset (Piece.prose pieces) = Piece.placed offset pieces := by
  induction pieces generalizing offset with
  | nil => exact findFrom.eq_1 offset
  | cons p ps ih =>
    rw [Piece.prose, List.flatMap_cons, findFrom_write_append, Piece.placed]
    exact congrArg (p.references offset ++ ·) (ih _)

/-- What a piece refers to is written as the piece is. -/
theorem Piece.raw_of_mem_references {p : Piece} {offset : Nat} {r : Reference}
    (h : r ∈ p.references offset) :
    r.raw.toList = p.write ∧ r.start = offset ∧ r.stop = offset + p.write.length := by
  cases p with
  | plain => exact absurd h List.not_mem_nil
  | symbol name =>
    obtain rfl := List.mem_singleton.1 h
    exact ⟨by simp [raw, write], rfl, rfl⟩
  | article name =>
    obtain rfl := List.mem_singleton.1 h
    exact ⟨by simp [raw, write], rfl, rfl⟩

/-- A reference stands where its written form does. -/
theorem Piece.exists_of_mem_placed {offset : Nat} {pieces : List Piece} {r : Reference}
    (h : r ∈ placed offset pieces) :
    ∃ before after, prose pieces = before ++ (r.raw.toList ++ after) ∧
      r.start = offset + before.length ∧ r.stop = r.start + r.raw.toList.length := by
  induction pieces generalizing offset with
  | nil => exact absurd h List.not_mem_nil
  | cons p ps ih =>
    rcases List.mem_append.1 h with h | h
    · obtain ⟨hraw, hstart, hstop⟩ := raw_of_mem_references h
      refine ⟨[], prose ps, ?_, hstart, ?_⟩
      · rw [hraw]
        rfl
      · rw [hraw, hstart, hstop]
    · obtain ⟨before, after, hprose, hstart, hstop⟩ := ih h
      refine ⟨p.write ++ before, after, ?_, ?_, hstop⟩
      · rw [prose, List.flatMap_cons, List.append_assoc, ← hprose]
        rfl
      · rw [hstart, List.length_append, Nat.add_assoc]

/-- **The references found are those that were written**, in order, each from where its written form
starts to where it ends, so that the text there is the written form. -/
theorem find_prose (pieces : List Piece) :
    find (String.ofList (Piece.prose pieces)) = Piece.placed 0 pieces ∧
      ∀ r ∈ Piece.placed 0 pieces,
        (Piece.prose pieces).extract r.start r.stop = r.raw.toList := by
  constructor
  · rw [find, String.toList_ofList, findFrom_prose]
  · intro r hr
    obtain ⟨before, after, hprose, hstart, hstop⟩ := Piece.exists_of_mem_placed hr
    rw [Nat.zero_add] at hstart
    rw [hprose, List.extract_eq_take_drop, hstop, hstart, Nat.add_sub_cancel_left, List.drop_left,
      List.take_left]

/-- Of the backticks between two references each takes two. -/
example : find "``a````b``" = [⟨"a", .symbol, 0, 5⟩, ⟨"b", .symbol, 5, 10⟩] := by
  decide +kernel

end Reference
end ValueDocs
