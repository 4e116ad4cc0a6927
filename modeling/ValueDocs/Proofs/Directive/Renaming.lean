import ValueDocs.Proofs.Directive.Regions
import ValueDocs.Proofs.Printing
import ValueDocs.Proofs.Text.Caseless

/-!
# Proofs/Directive/Renaming — a line reads the same with another name in it

When the name of a value gives way to another one that can be written in its place, the text still
states the value (`ofContent?_replaceName`), the keywords still introduce the text
(`afterIntroduction?_replace`), and the line is still a list item (`ofLine?_replaceContent`).
-/

namespace ValueDocs

open Text

namespace Text

theorem trimEndBy_append_of_all {p : Char → Bool} (s : List Char) {t : List Char}
    (ht : t.all p = true) : trimEndBy p (s ++ t) = trimEndBy p s := by
  induction s with
  | nil => exact (trimEndBy_eq_nil_iff p t).2 ht
  | cons c s ih => rw [List.cons_append, trimEndBy, trimEndBy, ih]

end Text

namespace Directive

/-! ## The name of a value -/

/-- Whether a text can be written as the name of a value, bare or in backticks. -/
structure IsWritable (name : List Char) : Prop where
  ne_nil : name ≠ []
  trim_eq : trim name = name
  isUnbroken : IsUnbroken name
  colon_notMem : ':' ∉ name
  backtick_notMem : '`' ∉ name

theorem IsWritable.exists_eq_cons {name : List Char} (h : IsWritable name) :
    ∃ c t, name = c :: t ∧ isBlank c = false := by
  obtain ⟨c, t, hname⟩ := List.exists_cons_of_ne_nil h.ne_nil
  exact ⟨c, t, hname, (trim_eq_self_iff.1 h.trim_eq).1 c t hname⟩

theorem IsWritable.trimEnd_eq {name : List Char} (h : IsWritable name) : trimEnd name = name := by
  obtain ⟨c, t, hname, hc⟩ := h.exists_eq_cons
  have htrim : trimEnd (trimStart name) = name := h.trim_eq
  rwa [show trimStart name = name by rw [hname, trimStart_cons hc]] at htrim

namespace ValueItem

theorem dropWhile_of_afterColon? {s description : List Char}
    (h : afterColon? s = some description) :
    s = s.takeWhile isBlank ++ ':' :: description := by
  rw [afterColon?] at h
  split at h
  · next heq =>
    obtain rfl := Option.some.inj h
    rw [← heq, List.takeWhile_append_dropWhile]
  · simp at h

/-- A name in backticks is read whatever follows it. -/
theorem name?_quoted {new : List Char} (hnew : IsWritable new) (rest : List Char) :
    name? ('`' :: (new ++ '`' :: rest)) = some (1, new, rest) := by
  have hall : ∀ d ∈ new, (d != '`') = true := fun d hd => by
    simpa using fun hd' : d = '`' => hnew.backtick_notMem (hd' ▸ hd)
  rw [name?, List.takeWhile_append_of_pos hall, List.dropWhile_append_of_pos hall]
  simp [hnew.ne_nil]

/-- A bare name is read if a colon follows it. -/
theorem name?_bare {new rest description : List Char} (hnew : IsWritable new)
    (hrest : afterColon? rest = some description) : name? (new ++ rest) = some (0, new, rest) := by
  obtain ⟨c, t, hc, -⟩ := hnew.exists_eq_cons
  have hall : ∀ d ∈ new, (d != ':' && d != '`') = true := fun d hd => by
    simpa using ⟨fun hd' : d = ':' => hnew.colon_notMem (hd' ▸ hd),
      fun hd' : d = '`' => hnew.backtick_notMem (hd' ▸ hd)⟩
  have hblank : ∀ d ∈ rest.takeWhile isBlank, (d != ':' && d != '`') = true := fun d hd => by
    have hd := List.mem_takeWhile_imp hd
    simpa using ⟨fun hd' : d = ':' => by simp [hd', isBlank] at hd,
      fun hd' : d = '`' => by simp [hd', isBlank] at hd⟩
  have hcut : (new ++ rest).takeWhile (fun c => c != ':' && c != '`') =
      new ++ rest.takeWhile isBlank := by
    conv_lhs => rw [dropWhile_of_afterColon? hrest]
    rw [List.takeWhile_append_of_pos hall, List.takeWhile_append_of_pos hblank]
    simp
  have htrim : trimEnd (new ++ rest.takeWhile isBlank) = new :=
    (trimEndBy_append_of_all new <| List.all_eq_true.2 fun d hd =>
      List.mem_takeWhile_imp hd).trans hnew.trimEnd_eq
  rw [name?]
  · rw [hcut, htrim]
    simp [hnew.ne_nil]
  · rw [hc]
    rintro quoted hq
    exact hnew.backtick_notMem (by simp [hc, (List.cons_eq_cons.1 hq).1])

/-- **The name of a value can give way to another one**; a quoted name keeps its backticks. -/
theorem name?_replace {content name rest description : List Char} {start : Nat}
    (h : name? content = some (start, name, rest)) (hrest : afterColon? rest = some description) :
    ∃ lead close, content = lead ++ (name ++ (close ++ rest)) ∧ start = lead.length ∧
      (lead = [] ∨ lead = ['`']) ∧
      ∀ new, IsWritable new →
        name? (lead ++ (new ++ (close ++ rest))) = some (start, new, rest) := by
  unfold name? at h
  split at h
  · next quoted =>
    dsimp only at h
    split at h
    · simp at h
    · next c rest' hdrop =>
      split at h
      · simp at h
      · simp only [Option.some.injEq, Prod.mk.injEq] at h
        obtain ⟨rfl, rfl, rfl⟩ := h
        obtain rfl : c = '`' := by
          have hc := List.head?_dropWhile_not (· != '`') quoted
          rw [hdrop] at hc
          simpa using hc
        refine ⟨['`'], ['`'], ?_, rfl, .inr rfl, fun new hnew => name?_quoted hnew _⟩
        rw [List.singleton_append, List.singleton_append, ← hdrop, List.takeWhile_append_dropWhile]
  · dsimp only at h
    split at h
    · simp at h
    · simp only [Option.some.injEq, Prod.mk.injEq] at h
      obtain ⟨rfl, rfl, hdrop⟩ := h
      refine ⟨[], [], ?_, rfl, .inl rfl, fun new hnew => name?_bare hnew hrest⟩
      rw [← hdrop]
      exact (List.prefix_iff_eq_append.1 <| (trimEndBy_isPrefix isBlank _).trans <|
        List.takeWhile_prefix _).symm

/-- The value with another name in the place of its own. -/
def rename (v : ValueItem) (new : List Char) : ValueItem :=
  { v with name := new, descriptionStart := v.descriptionStart + new.length - v.name.length }

/-- **A text states its value under another name** once that is written in the place of the old
one. -/
theorem ofContent?_replaceName {content : List Char} {v : ValueItem}
    (h : ofContent? content = some v) :
    ∃ lead tail, content = lead ++ (v.name ++ tail) ∧ v.nameStart = lead.length ∧
      (lead = [] ∨ lead = ['`']) ∧
      ∀ new, IsWritable new → ofContent? (lead ++ (new ++ tail)) = some (v.rename new) := by
  simp only [ofContent?, Option.bind_eq_bind, Option.bind_eq_some_iff, Prod.exists] at h
  obtain ⟨start, name, rest, hname, description, hrest, hv⟩ := h
  obtain rfl := Option.some.inj hv
  obtain ⟨lead, close, hcontent, hstart, hlead, hreplace⟩ := name?_replace hname hrest
  refine ⟨lead, close ++ rest, hcontent, hstart, hlead, fun new hnew => ?_⟩
  have hlong : description.length ≤ rest.length := by
    have := congrArg List.length (dropWhile_of_afterColon? hrest)
    simp only [List.length_append, List.length_cons] at this
    omega
  rw [ofContent?, hreplace new hnew]
  simp only [Option.bind_eq_bind, Option.bind_some, hrest, pure, rename, Option.some.injEq,
    mk.injEq, true_and, and_true]
  have := congrArg List.length hcontent
  simp only [List.length_append] at this ⊢
  omega

end ValueItem

/-! ## Keywords -/

/-- What follows a word can give way to anything. -/
theorem afterWord?_replace {word s rest : List Char} (h : afterWord? word s = some rest) :
    ∃ first, s = first ++ rest ∧ first.length = word.length ∧
      ∀ t, afterWord? word (first ++ t) = some t := by
  induction word generalizing s with
  | nil =>
    obtain rfl := Option.some.inj h
    exact ⟨[], rfl, rfl, fun t => rfl⟩
  | cons letter word ih =>
    rcases s with _ | ⟨c, s⟩
    · simp [afterWord?] at h
    · rw [afterWord?] at h
      split at h
      · next hc =>
        obtain ⟨first, rfl, hlen, hfirst⟩ := ih h
        exact ⟨c :: first, rfl, congrArg (· + 1) hlen, fun t => by
          rw [List.cons_append, afterWord?, if_pos hc, hfirst]⟩
      · simp at h

/-- **What follows a keyword can give way to anything.** -/
theorem afterKeyword?_replace {k : Keyword} (hk : ∀ word ∈ k, word ≠ []) {s rest : List Char}
    (h : afterKeyword? k s = some rest) :
    ∃ first, s = first ++ rest ∧ (k ≠ [] → first ≠ []) ∧
      ∀ t, afterKeyword? k (first ++ t) = some t := by
  have hword {word : List Char} (hw : word ≠ []) {first : List Char}
      (hlen : first.length = word.length) : first ≠ [] := by
    rintro rfl
    exact hw (List.eq_nil_of_length_eq_zero hlen.symm)
  induction k generalizing s with
  | nil =>
    obtain rfl := Option.some.inj h
    exact ⟨[], rfl, fun hnil => absurd rfl hnil, fun t => rfl⟩
  | cons word k ih =>
    rcases k with _ | ⟨next, more⟩
    · obtain ⟨first, hs, hlen, hfirst⟩ := afterWord?_replace h
      exact ⟨first, hs, fun _ => hword (hk word (List.mem_cons_self ..)) hlen, hfirst⟩
    · simp only [afterKeyword?, Option.bind_eq_bind, Option.bind_eq_some_iff] at h
      obtain ⟨middle, hone, hmore⟩ := h
      obtain ⟨one, rfl, hlen, hone⟩ := afterWord?_replace hone
      obtain ⟨two, htrim, htwo, hmore⟩ :=
        ih (fun w hw => hk w (List.mem_cons_of_mem _ hw)) hmore
      obtain ⟨c, two, rfl⟩ := List.exists_cons_of_ne_nil (htwo (List.cons_ne_nil _ _))
      have hc : isBlank c = false := not_isBlank_of_trimStart_eq_cons htrim
      refine ⟨one ++ (middle.takeWhile isBlank ++ c :: two), ?_, ?_, fun t => ?_⟩
      · rw [List.append_assoc, List.append_assoc, ← htrim]
        exact congrArg _ List.takeWhile_append_dropWhile.symm
      · exact fun _ => List.append_ne_nil_of_left_ne_nil
          (hword (hk word (List.mem_cons_self ..)) hlen) _
      · rw [List.append_assoc, afterKeyword?, hone, Option.bind_eq_bind, Option.bind_some,
          List.append_assoc]
        change afterKeyword? _ (List.dropWhile isBlank _) = _
        rw [List.dropWhile_append_of_pos fun d hd => List.mem_takeWhile_imp hd, List.cons_append,
          List.dropWhile_cons_of_neg (by simp [hc])]
        exact hmore t

/-- The letters of a word are matched in turn. -/
theorem afterWord?_append_word (word more s : List Char) :
    afterWord? (word ++ more) s = (afterWord? word s).bind (afterWord? more) := by
  induction word generalizing s with
  | nil => rfl
  | cons letter word ih =>
    rcases s with _ | ⟨c, s⟩
    · rfl
    · rw [List.cons_append, afterWord?, afterWord?]
      split
      · exact ih s
      · rfl

theorem afterKeyword?_append_word (first second more s : List Char) :
    afterKeyword? [first, second ++ more] s =
      (afterKeyword? [first, second] s).bind (afterWord? more) := by
  simp only [afterKeyword?, Option.bind_eq_bind, afterWord?_append_word, Option.bind_assoc]

/-- A keyword matches what it matches when its two words are one. -/
theorem afterKeyword?_of_joined {first second s rest : List Char} {letter : Char}
    (hletter : isBlank letter = false)
    (h : afterKeyword? [first ++ letter :: second] s = some rest) :
    afterKeyword? [first, letter :: second] s = some rest := by
  rw [afterKeyword?, afterWord?_append_word, Option.bind_eq_some_iff] at h
  obtain ⟨middle, hfirst, hsecond⟩ := h
  have htrim : trimStart middle = middle := by
    rcases middle with _ | ⟨c, middle⟩
    · rfl
    · refine trimStart_cons ?_ _
      by_contra hc
      simp [afterWord?, CaseMap.not_sameLetter_of_isBlank hletter (by simpa using hc)] at hsecond
  rw [afterKeyword?, hfirst, Option.bind_eq_bind, Option.bind_some, htrim]
  exact hsecond

/-- Two blanks or more between the words, none or one: the second of the keywords by default covers
the first. -/
theorem afterIntroduction?_default (content : List Char) :
    afterIntroduction? defaultVocabulary.inline content =
      (afterKeyword? [possibleWord, valueWord] content).bind afterGap? := by
  rw [afterIntroduction?, defaultVocabulary, List.findSome?_cons]
  split
  · next stated h =>
    obtain ⟨rest, hrest, hgap⟩ := Option.bind_eq_some_iff.1 h
    rw [valueWord, afterKeyword?_of_joined (by decide) hrest, Option.bind_some, hgap]
  · rw [List.findSome?_singleton]

/-- A gap leads to what a value can be read from, never to a blank. -/
theorem afterGap?_replace {s stated : List Char} {v : ValueItem} (h : afterGap? s = some stated)
    (hv : ValueItem.ofContent? stated = some v) :
    ∃ c gap, s = c :: (gap ++ stated) ∧ isBlank c = true ∧
      ∀ d t, isBlank d = false → afterGap? (c :: (gap ++ d :: t)) = some (d :: t) := by
  unfold afterGap? at h
  split at h
  · simp at h
  · next c gap d t htake hdrop =>
    obtain rfl := Option.some.inj h
    have hall : ∀ e ∈ c :: gap, isBlank e = true :=
      fun e he => List.mem_takeWhile_imp (p := isBlank) (htake ▸ he)
    refine ⟨c, gap, ?_, hall c (List.mem_cons_self ..), fun d t hd => ?_⟩
    · rw [← hdrop, ← List.cons_append, ← htake, List.takeWhile_append_dropWhile]
    · rw [afterGap?, ← List.cons_append, List.takeWhile_append_of_pos hall,
        List.dropWhile_append_of_pos hall]
      simp [hd]
  · next c gap htake hdrop =>
    obtain ⟨d, hd, rfl⟩ := Option.map_eq_some_iff.1 h
    have hblank : isBlank d = true := by
      have hd := List.mem_cons_of_mem c (List.mem_of_getLast? hd)
      rw [← htake] at hd
      exact List.mem_takeWhile_imp hd
    have hcolon : d ≠ ':' := by rintro rfl; simp [isBlank] at hblank
    have hquote : d ≠ '`' := by rintro rfl; simp [isBlank] at hblank
    simp [ValueItem.ofContent?, ValueItem.name?, hcolon, hquote, trimEndBy, hblank] at hv

/-- What the keyword of the short form matches starts with a letter. -/
theorem exists_eq_cons_of_afterKeyword? {first rest : List Char}
    (h : afterKeyword? [possibleWord, valueWord] first = some rest) :
    ∃ p more, first = p :: more ∧ isBlank p = false := by
  obtain ⟨p, more, rfl⟩ := List.exists_cons_of_ne_nil (l := first) <| by
    rintro rfl
    simp [afterKeyword?, possibleWord, afterWord?] at h
  refine ⟨p, more, rfl, ?_⟩
  by_contra hp
  simp [afterKeyword?, possibleWord, afterWord?,
    CaseMap.not_sameLetter_of_isBlank (by decide : isBlank 'P' = false) (by simpa using hp)] at h

/-- The short form is no label: an `s` would have to stand where a blank does. -/
theorem isLabel_of_afterKeyword? {first : List Char}
    (hfirst : ∀ t, afterKeyword? [possibleWord, valueWord] (first ++ t) = some t) {c : Char}
    (hc : isBlank c = true) (gap : List Char) {d : Char} (hd : isBlank d = false) (t : List Char) :
    isLabel defaultVocabulary.block ((first ++ c :: gap) ++ d :: t) = false := by
  obtain ⟨p, more, rfl, hp⟩ := exists_eq_cons_of_afterKeyword?
    (show _ = some [] by simpa using hfirst [])
  have hne : trimEnd (d :: t) ≠ [] := by
    rw [ne_eq, trimEndBy_eq_nil_iff]
    simp [hd]
  have htrim : trim ((p :: more ++ c :: gap) ++ d :: t) =
      (p :: more) ++ c :: (gap ++ trimEnd (d :: t)) := by
    change trimEnd (trimStart (p :: _)) = _
    rw [trimStart_cons hp]
    change trimEndBy isBlank ((p :: more ++ c :: gap) ++ d :: t) = _
    rw [trimEndBy_append hne]
    simp
  have hpair : afterKeyword? [possibleWord, valueWord ++ ['s']]
      ((p :: more) ++ c :: (gap ++ trimEnd (d :: t))) = none := by
    rw [afterKeyword?_append_word, hfirst, Option.bind_some]
    simp [afterWord?, CaseMap.not_sameLetter_of_isBlank (by decide : isBlank 's' = false) hc]
  have hjoined : afterKeyword? [possibleWord ++ (valueWord ++ ['s'])]
      ((p :: more) ++ c :: (gap ++ trimEnd (d :: t))) = none := by
    rw [Option.eq_none_iff_forall_ne_some]
    intro r hr
    have := afterKeyword?_of_joined (by decide) hr
    exact absurd (hpair.symm.trans this) (by simp)
  rw [isLabel, htrim, defaultVocabulary]
  simp only [List.any_cons, List.any_nil, hpair, hjoined, Bool.or_false]

/-- **The short form introduces whatever is stated**, and is no label. -/
theorem afterIntroduction?_replace {content stated : List Char} {v : ValueItem}
    (h : afterIntroduction? defaultVocabulary.inline content = some stated)
    (hv : ValueItem.ofContent? stated = some v) :
    ∃ first, content = first ++ stated ∧ ∀ d t, isBlank d = false →
      afterIntroduction? defaultVocabulary.inline (first ++ d :: t) = some (d :: t) ∧
      isLabel defaultVocabulary.block (first ++ d :: t) = false := by
  rw [afterIntroduction?_default, Option.bind_eq_some_iff] at h
  obtain ⟨rest, hrest, hgap⟩ := h
  obtain ⟨c, gap, rfl, hc, hgap⟩ := afterGap?_replace hgap hv
  obtain ⟨first, hcontent, -, hfirst⟩ := afterKeyword?_replace (by decide) hrest
  refine ⟨first ++ c :: gap, by simp [hcontent], fun d t hd => ⟨?_, ?_⟩⟩
  · rw [List.append_assoc, List.cons_append, afterIntroduction?_default, hfirst, Option.bind_some,
      hgap d t hd]
  · exact isLabel_of_afterKeyword? hfirst hc gap hd t

/-! ## The line of a value -/

namespace ListItem

/-- A marker is read whatever follows it. -/
theorem marker?_replace {s marker rest : List Char} (h : marker? s = some (marker, rest))
    (t : List Char) : marker? (marker ++ t) = some (marker, t) := by
  rcases s with _ | ⟨c, s⟩
  · simp [marker?] at h
  · rw [marker?] at h
    split at h
    · next hc =>
      simp only [Option.some.injEq, Prod.mk.injEq] at h
      obtain ⟨rfl, rfl⟩ := h
      rw [List.singleton_append, marker?, if_pos hc]
    · next hc =>
      split at h
      · simp at h
      · next digits stop rest' hne hspan =>
        split at h
        · next hstop =>
          simp only [Option.some.injEq, Prod.mk.injEq] at h
          obtain ⟨rfl, rfl⟩ := h
          rw [List.span_eq_takeWhile_dropWhile, Prod.mk.injEq] at hspan
          have hdigits : ∀ d ∈ digits, isDigit d = true := fun d hd =>
            List.mem_takeWhile_imp (hspan.1 ▸ hd)
          have hnot : isDigit stop = false := by
            have hd := List.head?_dropWhile_not isDigit (c :: s)
            rw [hspan.2] at hd
            simpa using hd
          obtain ⟨d, ds, rfl⟩ := List.exists_cons_of_ne_nil hne
          obtain rfl : c = d := by
            have hd := hspan.1
            rw [List.takeWhile_cons] at hd
            split at hd
            · exact (List.cons_eq_cons.1 hd).1
            · simp at hd
          have hcut : (c :: (ds ++ stop :: t)).span isDigit = (c :: ds, stop :: t) := by
            rw [List.span_eq_takeWhile_dropWhile, ← List.cons_append,
              List.takeWhile_append_of_pos hdigits, List.dropWhile_append_of_pos hdigits]
            simp [hnot]
          rw [List.append_assoc, List.cons_append, marker?, if_neg hc, List.singleton_append, hcut]
          exact if_pos hstop
        · simp at h
      · simp at h

/-- A marker opens with a bullet or a digit. -/
theorem exists_marker_eq_cons {s marker rest : List Char} (h : marker? s = some (marker, rest)) :
    ∃ c t, marker = c :: t ∧ (isBullet c = true ∨ isDigit c = true) := by
  obtain ⟨c, t, rfl⟩ := List.exists_cons_of_ne_nil (marker?_eq_append h).2
  refine ⟨c, t, rfl, ?_⟩
  have hread := marker?_replace h []
  by_contra hc
  rw [not_or, Bool.not_eq_true, Bool.not_eq_true] at hc
  simp [marker?, hc.1, hc.2, List.span_eq_takeWhile_dropWhile] at hread

/-- **A line is still a list item** with another text behind its marker. -/
theorem ofLine?_replaceContent {line : Line} {item : ListItem} (h : ofLine? line = some item)
    {d : Char} (hd : isBlank d = false) (t : List Char) :
    ofLine? (item.lead ++ (item.marker ++ (item.gap ++ d :: t))) =
      some { item with content := d :: t } := by
  simp only [ofLine?, Option.bind_eq_bind, Option.bind_eq_some_iff, Prod.exists] at h
  obtain ⟨marker, rest, hmarker, h⟩ := h
  split at h
  · simp at h
  · next hgap =>
    obtain rfl := Option.some.inj h
    dsimp only
    have hlead : ∀ c ∈ line.takeWhile isBlank, isBlank c = true :=
      fun c hc => List.mem_takeWhile_imp hc
    have hblank : ∀ c ∈ rest.takeWhile isBlank, isBlank c = true :=
      fun c hc => List.mem_takeWhile_imp hc
    obtain ⟨m, ms, rfl⟩ := List.exists_cons_of_ne_nil (marker?_eq_append hmarker).2
    have hm : isBlank m = false :=
      not_isBlank_of_trimStart_eq_cons (marker?_eq_append hmarker).1
    rw [ofLine?, List.takeWhile_append_of_pos hlead, List.dropWhile_append_of_pos hlead,
      List.cons_append, List.dropWhile_cons_of_neg (by simp [hm]),
      List.takeWhile_cons_of_neg (by simp [hm]), List.append_nil, ← List.cons_append,
      marker?_replace hmarker, Option.bind_eq_bind, Option.bind_some]
    dsimp only
    rw [List.takeWhile_append_of_pos hblank, List.dropWhile_append_of_pos hblank,
      List.takeWhile_cons_of_neg (by simp [hd]), List.append_nil,
      List.dropWhile_cons_of_neg (by simp [hd]), if_neg hgap]
    rfl

/-- A list item is no fence. -/
theorem fence?_of_ofLine? {line : Line} {item : ListItem} (h : ofLine? line = some item) :
    fence? line = none := by
  simp only [ofLine?, Option.bind_eq_bind, Option.bind_eq_some_iff, Prod.exists] at h
  obtain ⟨marker, rest, hmarker, -⟩ := h
  obtain ⟨m, ms, rfl, hm⟩ := exists_marker_eq_cons hmarker
  have hbacktick : m ≠ '`' := by rintro rfl; revert hm; decide +kernel
  have htilde : m ≠ '~' := by rintro rfl; revert hm; decide +kernel
  rw [fence?, (marker?_eq_append hmarker).1]
  simp [hbacktick, htilde]

end ListItem

/-! ## Lines that are nested alike -/

/-- Whether two lines are indented alike, and both say something or neither does. -/
structure AreNestedAlike (line line' : Line) : Prop where
  isFilled_eq : isFilled line = isFilled line'
  indent_eq : indent line = indent line'

/-- Only the indentation of the lines matters to where a region ends. -/
theorem regionLength_replace (marker : Nat) {line line' : Line} (h : AreNestedAlike line line')
    (above below : List Line) :
    regionLength marker (above ++ line :: below) =
      regionLength marker (above ++ line' :: below) := by
  induction above with
  | nil => rw [List.nil_append, List.nil_append, regionLength, regionLength, h.isFilled_eq,
      h.indent_eq]
  | cons first above ih => rw [List.cons_append, List.cons_append, regionLength, regionLength, ih]

end Directive
end ValueDocs
