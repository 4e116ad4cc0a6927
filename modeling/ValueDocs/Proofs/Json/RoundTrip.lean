import Mathlib.Data.List.Nodup
import ValueDocs.Proofs.Json.Tokens

/-!
# Proofs/Json/RoundTrip — a written tree is read back

Reading undoes writing, on one line or with one item a line (`parseChars_print`), for trees whose
objects have distinct names and whose numbers are whole and not too long to be read.  Reading a value
takes no more steps than it has characters, which the bound on its recursion allows for.
-/

namespace ValueDocs.Json

open Text (IsPlain)

mutual

/-- Whether a tree has whole numbers only, none too long to be read, and objects whose fields have
distinct names. -/
def IsOrdinary : Json → Prop
  | int n => (Nat.toDigits 10 n.natAbs).length ≤ Text.digitLimit
  | float _ => False
  | arr js => AreOrdinary js
  | obj fs => (fs.map (·.1)).Nodup ∧ AreOrdinaryFields fs
  | null | bool _ | str _ => True

/-- Whether all items are ordinary. -/
def AreOrdinary : List Json → Prop
  | [] => True
  | j :: js => IsOrdinary j ∧ AreOrdinary js

/-- Whether all fields are ordinary. -/
def AreOrdinaryFields : List (String × Json) → Prop
  | [] => True
  | (_, j) :: fs => IsOrdinary j ∧ AreOrdinaryFields fs

end

mutual

/-- Whether a tree is ordinary can be computed. -/
def decideIsOrdinary : (j : Json) → Decidable j.IsOrdinary
  | int n => inferInstanceAs (Decidable ((Nat.toDigits 10 n.natAbs).length ≤ Text.digitLimit))
  | float _ => .isFalse id
  | arr js => decideAreOrdinary js
  | obj fs =>
    haveI := decideAreOrdinaryFields fs
    inferInstanceAs (Decidable ((fs.map (·.1)).Nodup ∧ AreOrdinaryFields fs))
  | null | bool _ | str _ => .isTrue trivial

/-- Whether all items are ordinary can be computed. -/
def decideAreOrdinary : (js : List Json) → Decidable (AreOrdinary js)
  | [] => .isTrue trivial
  | j :: js =>
    haveI := decideIsOrdinary j
    haveI := decideAreOrdinary js
    inferInstanceAs (Decidable (IsOrdinary j ∧ AreOrdinary js))

/-- Whether all fields are ordinary can be computed. -/
def decideAreOrdinaryFields : (fs : List (String × Json)) → Decidable (AreOrdinaryFields fs)
  | [] => .isTrue trivial
  | (_, j) :: fs =>
    haveI := decideIsOrdinary j
    haveI := decideAreOrdinaryFields fs
    inferInstanceAs (Decidable (IsOrdinary j ∧ AreOrdinaryFields fs))

end

instance : DecidablePred IsOrdinary := decideIsOrdinary

/-! ## White space -/

theorem skipSpace_append {gap : List Char} (h : ∀ c ∈ gap, isSpace c = true) (s : List Char) :
    skipSpace (gap ++ s) = skipSpace s := List.dropWhile_append_of_pos h

theorem skipSpace_cons {c : Char} (h : isSpace c = false) (s : List Char) :
    skipSpace (c :: s) = c :: s := by
  rw [skipSpace, List.dropWhile_cons_of_neg (by simp [h])]

theorem isSpace_of_mem_blank : ∀ c ∈ [' '], isSpace c = true :=
  List.forall_mem_singleton.2 rfl

theorem isSpace_of_mem_margin (layout : Layout) : ∀ c ∈ layout.margin, isSpace c = true := by
  intro c hc
  cases layout with
  | line => exact absurd hc List.not_mem_nil
  | indented d =>
    rcases List.mem_cons.1 hc with rfl | hc
    · rfl
    · rw [List.eq_of_mem_replicate hc]
      rfl

theorem skipSpace_margin (layout : Layout) {c : Char} (h : isSpace c = false) (s : List Char) :
    skipSpace (layout.margin ++ c :: s) = c :: s := by
  rw [skipSpace_append (isSpace_of_mem_margin layout), skipSpace_cons h]

/-- A separator is a comma and white space. -/
theorem exists_separator (layout : Layout) :
    ∃ gap, layout.separator = ',' :: gap ∧ ∀ c ∈ gap, isSpace c = true := by
  cases layout with
  | line => exact ⟨[' '], rfl, isSpace_of_mem_blank⟩
  | indented d => exact ⟨_, rfl, isSpace_of_mem_margin (.indented d)⟩

theorem stops_margin (layout : Layout) {c : Char}
    (h : isAsciiDigit c = false ∧ c ≠ '.' ∧ c ≠ 'e' ∧ c ≠ 'E') (s : List Char) :
    Stops (layout.margin ++ c :: s) := by
  cases layout with
  | line => exact stops_cons h s
  | indented d => exact stops_cons (by decide) _

theorem stops_separator (layout : Layout) (s : List Char) : Stops (layout.separator ++ s) := by
  obtain ⟨gap, hgap, -⟩ := exists_separator layout
  rw [hgap]
  exact stops_cons (by decide) _

/-! ## The start of a written tree -/

/-- The first digit of a number. -/
theorem exists_cons_toDigits (n : Nat) :
    ∃ c t, Nat.toDigits 10 n = c :: t ∧ isAsciiDigit c = true := by
  cases h : Nat.toDigits 10 n with
  | nil => exact absurd h Nat.toDigits_ne_nil
  | cons c t =>
    exact ⟨c, t, rfl, isAsciiDigit_of_mem_toDigits (h ▸ List.mem_cons_self .. :
      c ∈ Nat.toDigits 10 n)⟩

theorem toList_toString_int (n : Int) : (toString n).toList =
    if n < 0 then '-' :: Nat.toDigits 10 n.natAbs else Nat.toDigits 10 n.natAbs := by
  rw [Int.toString_eq_repr, Int.repr_eq_if]
  split
  · next hn => rw [if_neg (by omega), Nat.toList_repr, show n.toNat = n.natAbs by omega]
  · next hn =>
    rw [if_pos (by omega), String.toList_append, Nat.toList_repr,
      show (-n).toNat = n.natAbs by omega]
    rfl

/-- A written tree starts with a character that is neither white space nor a closing bracket. -/
theorem exists_cons_print (layout : Layout) {j : Json} (h : j.IsOrdinary) :
    ∃ c t, j.print layout = c :: t ∧ isSpace c = false ∧ c ≠ ']' := by
  cases j with
  | null => exact ⟨_, _, rfl, by decide⟩
  | bool b => cases b <;> exact ⟨_, _, rfl, by decide⟩
  | int n =>
    rw [print, toList_toString_int]
    split
    · exact ⟨_, _, rfl, by decide⟩
    · obtain ⟨c, t, hc, hdigit⟩ := exists_cons_toDigits n.natAbs
      refine ⟨c, t, hc, ?_, ?_⟩
      · rw [isSpace]
        have hne {d : Char} (hd : isAsciiDigit d = false) : (c == d) = false :=
          beq_eq_false_iff_ne.2 fun h => by rw [h, hd] at hdigit; cases hdigit
        rw [hne (by decide), hne (by decide), hne (by decide), hne (by decide)]
        rfl
      · rintro rfl
        exact absurd hdigit (by decide)
  | float x => exact absurd h id
  | str s => exact ⟨'"', _, by rw [print]; rfl, by decide⟩
  | arr js => cases js <;> rw [print] <;> exact ⟨'[', _, rfl, by decide⟩
  | obj fs =>
    rcases fs with _ | ⟨⟨k, j⟩, fs⟩ <;> rw [print] <;> exact ⟨'\x7b', _, rfl, by decide⟩

/-- The white space before a written tree is skipped. -/
theorem skipSpace_print (layout : Layout) {j : Json} (h : j.IsOrdinary) {gap : List Char}
    (hgap : ∀ c ∈ gap, isSpace c = true) (s : List Char) :
    skipSpace (gap ++ (j.print layout ++ s)) = j.print layout ++ s := by
  obtain ⟨c, t, hc, hspace, -⟩ := exists_cons_print layout h
  rw [skipSpace_append hgap, hc, List.cons_append, skipSpace_cons hspace]

/-! ## Reading -/

theorem readValue_digit {c : Char} (hc : isAsciiDigit c = true) (depth : Nat) (s : List Char) :
    readValue (depth + 1) (c :: s) = unsignedNumber (s.length + 1) false (c :: s) := by
  rw [readValue.eq_def]
  dsimp only
  -- no other form of a value starts with a digit
  split
  all_goals
    first
    | rfl
    | next heq =>
      obtain ⟨rfl, -⟩ := List.cons.inj heq
      exact absurd hc (by decide)

theorem readValue_minus {c : Char} (hc : isAsciiDigit c = true) (depth : Nat) (s : List Char) :
    readValue (depth + 1) ('-' :: c :: s) = unsignedNumber (s.length + 2) true (c :: s) := by
  rw [readValue]
  · rfl
  · intro left heq
    rw [(List.cons.inj heq).1] at hc
    exact absurd hc (by decide)

/-- A whole number is read back. -/
theorem readValue_int {n : Int} (hn : (int n).IsOrdinary) (depth : Nat) {rest : List Char}
    (hrest : Stops rest) :
    readValue (depth + 1) ((toString n).toList ++ rest) = .ok (.int n, rest) := by
  obtain ⟨c, t, hc, hdigit⟩ := exists_cons_toDigits n.natAbs
  rw [toList_toString_int]
  split
  · rw [List.cons_append, hc, List.cons_append, readValue_minus hdigit, ← List.cons_append, ← hc,
      unsignedNumber_toDigits hn _ _ hrest, if_pos rfl]
    congr 3
    omega
  · rw [hc, List.cons_append, readValue_digit hdigit, ← List.cons_append, ← hc,
      unsignedNumber_toDigits hn _ _ hrest, if_neg (by decide)]
    congr 3
    omega

theorem readValue_str (s : String) (depth : Nat) (rest : List Char) :
    readValue (depth + 1) (quote s ++ rest) = .ok (.str s, rest) := by
  rw [quote, List.append_assoc, List.cons_append, List.singleton_append, readValue,
    readText_flatMap_escapeChar]
  change Except.ok (Json.str (String.ofList s.toList), rest) = _
  rw [String.ofList_toList]

theorem setField_of_notMem {name : String} {fs : Fields} (h : name ∉ fs.map (·.1)) (j : Json) :
    setField name j fs = fs ++ [(name, j)] := by
  induction fs with
  | nil => rfl
  | cons f fs ih =>
    obtain ⟨k, v⟩ := f
    rw [List.map_cons, List.mem_cons, not_or] at h
    rw [setField, if_neg (Ne.symm h.1), ih h.2]
    rfl

/-- The brackets of an array or an object are on lines of their own, if they are. -/
theorem print_arr (layout : Layout) (j : Json) (js : List Json) :
    (arr (j :: js)).print layout = '[' :: (layout.inner.margin ++ (j.print layout.inner ++
      printItems layout.inner js ++ (layout.margin ++ [']']))) := by
  simp [print]

theorem print_obj (layout : Layout) (k : String) (j : Json) (fs : Fields) :
    (obj ((k, j) :: fs)).print layout = '\x7b' :: (layout.inner.margin ++ (quote k ++
      ':' :: ' ' :: (j.print layout.inner ++ printFields layout.inner fs ++
        (layout.margin ++ ['\x7d'])))) := by
  simp [print]

theorem notMem_of_nodup_append {done fs : Fields} {k : String} {j : Json}
    (h : ((done ++ (k, j) :: fs).map (·.1)).Nodup) : k ∉ done.map (·.1) := by
  rw [List.map_append, List.map_cons] at h
  exact fun hk => (List.nodup_append.1 h).2.2 k hk k (List.mem_cons_self ..) rfl

theorem quote_append (s : String) (t : List Char) :
    quote s ++ t = '"' :: (s.toList.flatMap escapeChar ++ '"' :: t) := by
  simp [quote]

/-- One field is read, and what follows it tells whether there is another one. -/
theorem readFields_field {depth : Nat} {done : Fields} {k : String} {j : Json} {s left : List Char}
    (hskip : skipSpace ([' '] ++ s) = s) (hvalue : readValue depth s = .ok (j, left)) :
    readFields (depth + 1) done (quote k ++ ':' :: ' ' :: s) =
      match skipSpace left with
      | '\x7d' :: left => .ok (.obj (setField k j done), left)
      | ',' :: rest => readFields depth (setField k j done) (skipSpace rest)
      | rest => .error ⟨.comma, rest.length⟩ := by
  rw [List.singleton_append] at hskip
  rw [quote_append, readFields, readText_flatMap_escapeChar]
  simp only [bind, Except.bind]
  rw [skipSpace_cons (by decide)]
  split
  · next heq =>
    obtain rfl := (List.cons.inj heq).2
    rw [hskip, hvalue, String.ofList_toList]
    rfl
  · next heq => exact absurd rfl (heq _)

mutual

/-- **A written tree is read back**, whatever follows it, unless that goes on with a number. -/
theorem readValue_print (layout : Layout) : ∀ (j : Json) {depth : Nat} {rest : List Char},
    j.IsOrdinary → (j.print layout).length ≤ depth → Stops rest →
    readValue depth (j.print layout ++ rest) = .ok (j, rest)
  | j, 0, _, hj, hdepth, _ => by
    obtain ⟨c, t, hprint, -⟩ := exists_cons_print layout hj
    rw [hprint] at hdepth
    exact absurd hdepth (by simp)
  | null, depth + 1, rest, _, _, _ => rfl
  | bool true, depth + 1, rest, _, _, _ => rfl
  | bool false, depth + 1, rest, _, _, _ => rfl
  | int n, depth + 1, rest, hj, _, hrest => by
    rw [print]
    exact readValue_int hj depth hrest
  | float _, depth + 1, _, hj, _, _ => absurd hj id
  | str s, depth + 1, rest, _, _, _ => by
    rw [print]
    exact readValue_str s depth rest
  | arr [], depth + 1, rest, _, _, _ => rfl
  | arr (j :: js), depth + 1, rest, hj, hdepth, _ => by
    have hlength : (j.print layout.inner ++ printItems layout.inner js).length < depth := by
      rw [print_arr] at hdepth
      simp at hdepth ⊢
      omega
    have hitems := readItems_print layout j js [] rest hj hlength
    have hskip := skipSpace_print layout.inner hj.1 (isSpace_of_mem_margin layout.inner)
      (printItems layout.inner js ++ (layout.margin ++ ']' :: rest))
    rw [print_arr, List.cons_append, readValue]
    simp only [List.append_assoc, List.cons_append, List.nil_append] at hitems ⊢
    rw [hskip]
    obtain ⟨c, t, hc, -, hbracket⟩ := exists_cons_print layout.inner hj.1
    split
    · next heq => exact absurd (List.cons.inj (hc ▸ heq)).1 hbracket
    · exact hitems
  | obj [], depth + 1, rest, _, _, _ => rfl
  | obj ((k, j) :: fs), depth + 1, rest, hj, hdepth, _ => by
    have hlength : (j.print layout.inner ++ printFields layout.inner fs).length < depth := by
      rw [print_obj] at hdepth
      simp at hdepth ⊢
      omega
    have hfields := readFields_print layout k j fs [] rest hj.2 hj.1 hlength
    rw [print_obj, List.cons_append, readValue]
    simp only [List.append_assoc, List.cons_append, List.nil_append] at hfields ⊢
    rw [show quote k ++ _ = '"' :: _ from rfl] at hfields ⊢
    rw [skipSpace_margin _ (by decide)]
    exact hfields

/-- **Written items are read back** after those that are read already. -/
theorem readItems_print (layout : Layout) : ∀ (j : Json) (js : List Json) {depth : Nat}
    (done : List Json) (rest : List Char), AreOrdinary (j :: js) →
    (j.print layout.inner ++ printItems layout.inner js).length < depth →
    readItems depth done (j.print layout.inner ++ printItems layout.inner js ++
      (layout.margin ++ ']' :: rest)) = .ok (.arr (done.reverse ++ j :: js), rest)
  | _, _, 0, _, _, _, hdepth => absurd hdepth (Nat.not_lt_zero _)
  | j, [], depth + 1, done, rest, hj, hdepth => by
    rw [printItems, List.append_nil] at hdepth ⊢
    rw [readItems, readValue_print layout.inner j hj.1 (by omega) (stops_margin _ (by decide) _)]
    simp only [bind, Except.bind]
    rw [skipSpace_margin _ (by decide), List.reverse_cons]
    rfl
  | j, j' :: js, depth + 1, done, rest, hj, hdepth => by
    obtain ⟨gap, hgap, hspace⟩ := exists_separator layout.inner
    have hlength : (j.print layout.inner).length ≤ depth ∧
        (j'.print layout.inner ++ printItems layout.inner js).length < depth := by
      rw [printItems, hgap] at hdepth
      simp at hdepth ⊢
      omega
    have hitem := readValue_print layout.inner j hj.1 hlength.1 (stops_separator layout.inner
      (j'.print layout.inner ++ printItems layout.inner js ++ (layout.margin ++ ']' :: rest)))
    have hitems := readItems_print layout j' js (j :: done) rest hj.2 hlength.2
    have hskip := skipSpace_print layout.inner hj.2.1 hspace
      (printItems layout.inner js ++ (layout.margin ++ ']' :: rest))
    rw [readItems, printItems]
    simp only [hgap, List.append_assoc, List.cons_append] at hitem hitems ⊢
    rw [hitem]
    simp only [bind, Except.bind]
    rw [skipSpace_cons (by decide)]
    change readItems depth (j :: done) (skipSpace (gap ++ _)) = _
    rw [hskip, hitems, List.reverse_cons, List.append_assoc, List.singleton_append]

/-- **Written fields are read back** after those that are read already. -/
theorem readFields_print (layout : Layout) : ∀ (k : String) (j : Json) (fs : Fields) {depth : Nat}
    (done : Fields) (rest : List Char), AreOrdinaryFields ((k, j) :: fs) →
    ((done ++ (k, j) :: fs).map (·.1)).Nodup →
    (j.print layout.inner ++ printFields layout.inner fs).length < depth →
    readFields depth done (quote k ++ ':' :: ' ' :: (j.print layout.inner ++
      printFields layout.inner fs ++ (layout.margin ++ '\x7d' :: rest))) =
      .ok (.obj (done ++ (k, j) :: fs), rest)
  | _, _, _, 0, _, _, _, _, hdepth => absurd hdepth (Nat.not_lt_zero _)
  | k, j, [], depth + 1, done, rest, hj, hnames, hdepth => by
    rw [printFields, List.append_nil] at hdepth ⊢
    have hlength : (j.print layout.inner).length ≤ depth := by omega
    have hvalue := readValue_print layout.inner j hj.1 hlength
      (stops_margin layout (c := '\x7d') (by decide) rest)
    have hskip := skipSpace_print layout.inner hj.1 isSpace_of_mem_blank
      (layout.margin ++ '\x7d' :: rest)
    rw [readFields_field hskip hvalue, skipSpace_margin _ (by decide),
      setField_of_notMem (notMem_of_nodup_append hnames)]
    rfl
  | k, j, (k', j') :: fs, depth + 1, done, rest, hj, hnames, hdepth => by
    obtain ⟨gap, hgap, hspace⟩ := exists_separator layout.inner
    have hlength : (j.print layout.inner).length ≤ depth ∧
        (j'.print layout.inner ++ printFields layout.inner fs).length < depth := by
      rw [printFields, hgap] at hdepth
      simp at hdepth ⊢
      omega
    have hvalue := readValue_print layout.inner j hj.1 hlength.1 (stops_separator layout.inner
      (quote k' ++ ':' :: ' ' :: (j'.print layout.inner ++ printFields layout.inner fs ++
        (layout.margin ++ '\x7d' :: rest))))
    have hfields := readFields_print layout k' j' fs (done ++ [(k, j)]) rest hj.2
      (by simpa using hnames) hlength.2
    rw [printFields]
    simp only [hgap, List.append_assoc, List.cons_append] at hvalue hfields ⊢
    have hskip := skipSpace_print layout.inner hj.1 isSpace_of_mem_blank
      (',' :: (gap ++ (quote k' ++ ':' :: ' ' :: (j'.print layout.inner ++
        (printFields layout.inner fs ++ (layout.margin ++ '\x7d' :: rest))))))
    rw [readFields_field hskip hvalue, skipSpace_cons (by decide),
      setField_of_notMem (notMem_of_nodup_append hnames)]
    change readFields depth (done ++ [(k, j)]) (skipSpace (gap ++ _)) = _
    rw [skipSpace_append hspace, quote_append, skipSpace_cons (by decide), ← quote_append, hfields]
    rfl

end

/-- **Reading undoes writing.** -/
theorem parseChars_print (layout : Layout) {j : Json} (h : j.IsOrdinary) :
    parseChars (j.print layout) = .ok j := by
  obtain ⟨c, t, hc, hspace, -⟩ := exists_cons_print layout h
  have hplain : IsPlain c := arePlain_print layout j c (hc ▸ List.mem_cons_self ..)
  have hmark : (j.print layout).head? ≠ some '\ufeff' := by
    rw [hc, List.head?_cons]
    rintro ⟨⟩
    exact absurd hplain (by decide)
  have hskip : skipSpace (j.print layout) = j.print layout := by
    rw [hc, skipSpace_cons hspace]
  have hdepth : (j.print layout).length ≤ 2 * (j.print layout).length + 2 := by omega
  have hread := readValue_print layout j h hdepth stops_nil
  rw [List.append_nil] at hread
  rw [parseChars, if_neg hmark, hskip]
  simp only [hread]
  rfl

/-- **A tree with one item a line is read back.** -/
theorem parse_pretty {j : Json} (h : j.IsOrdinary) : parse j.pretty = .ok j := by
  rw [parse, pretty, String.toList_ofList]
  exact parseChars_print _ h

end ValueDocs.Json
