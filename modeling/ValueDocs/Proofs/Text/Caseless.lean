import ValueDocs.Text.Blank
import ValueDocs.Text.CaseMap.Lower

/-!
# Proofs/Text/Caseless — blanks are letters in no case

No letter has a blank for its lower case (`CaseMap.isBlank_of_isBlank_lower`), and none is the same
letter as a blank (`CaseMap.isBlank_of_sameLetter`).  There are few blanks and few runs of letters,
so both are checked one by one.
-/

namespace ValueDocs.Text

/-- The code points of the blank characters. -/
def blankPoints : List Nat := [0x9, 0xa, 0xb, 0xc, 0xd, 0x1c, 0x1d, 0x1e, 0x1f, 0x20, 0x85, 0xa0,
  0x1680, 0x2000, 0x2001, 0x2002, 0x2003, 0x2004, 0x2005, 0x2006, 0x2007, 0x2008, 0x2009, 0x200a,
  0x2028, 0x2029, 0x202f, 0x205f, 0x3000]

theorem toNat_mem_blankPoints {c : Char} (h : isBlank c = true) : c.toNat ∈ blankPoints := by
  simp only [isBlank, Bool.or_eq_true, Bool.and_eq_true, decide_eq_true_eq, beq_iff_eq] at h
  simp only [blankPoints, List.mem_cons, List.not_mem_nil]
  omega

/-- What holds of all blank characters can be checked one by one. -/
theorem forall_isBlank {p : Char → Bool} (h : blankPoints.all (fun n => p (Char.ofNat n)) = true)
    {c : Char} (hc : isBlank c = true) : p c = true := by
  have := List.all_eq_true.1 h c.toNat (toNat_mem_blankPoints hc)
  rwa [Char.ofNat_toNat] at this

namespace CaseMap

theorem image?_bounds {run : CaseRun} {m n : Nat} (h : run.image? m = some n) :
    ∃ k : Int, n = k.toNat ∧ run.first + run.shift ≤ k ∧ k ≤ run.last + run.shift := by
  rw [CaseRun.image?] at h
  split at h
  · next hrun =>
    simp only [Bool.and_eq_true, decide_eq_true_eq] at hrun
    exact ⟨m + run.shift, (Option.some.inj h).symm, by omega, by omega⟩
  · cases h

/-- No letter has a blank for its lower case. -/
theorem isBlank_of_isBlank_lower {c : Char} (h : isBlank (lower c) = true) : isBlank c = true := by
  rw [lower, applyRuns] at h
  split at h
  · next n hn =>
    obtain ⟨_, run, _, hruns, himage, -⟩ := List.findSome?_eq_some_iff.1 hn
    obtain ⟨k, rfl, hfirst, hlast⟩ := image?_bounds himage
    -- the images of a run lie between blanks
    have hclear : lowerRuns.all (fun run => blankPoints.all fun b =>
        decide (b < run.first + run.shift) || decide (run.last + run.shift < b)) = true := by
      decide +kernel
    have hmem := toNat_mem_blankPoints h
    have hpoint := List.all_eq_true.1 (List.all_eq_true.1 hclear run (by simp [hruns])) _ hmem
    have hpos : (Char.ofNat k.toNat).toNat ≠ 0 := fun h0 => absurd (h0 ▸ hmem) (by decide)
    simp only [Bool.or_eq_true, decide_eq_true_eq] at hpoint
    by_cases hvalid : k.toNat.isValidChar
    · have hnat : (Char.ofNat k.toNat).toNat = k.toNat := congrArg Char.toNat (dif_pos hvalid)
      omega
    · exact absurd (congrArg Char.toNat (dif_neg hvalid)) hpos
  · exact h

/-- **A blank is the same letter as blanks only.** -/
theorem isBlank_of_sameLetter {letter c : Char} (h : sameLetter letter c = true)
    (hc : isBlank c = true) : isBlank letter = true := by
  have hlower : lower c = c := by
    have := forall_isBlank (p := fun c => lower c == c) (by decide +kernel) hc
    simpa using this
  rw [sameLetter, hlower, Bool.or_eq_true, beq_iff_eq] at h
  rcases h with h | h
  · exact isBlank_of_isBlank_lower (h ▸ hc)
  · -- no blank is interchangeable with a letter
    have hclear : interchangeable.all (fun e =>
        e.2.all fun n => !blankPoints.contains n) = true := by decide +kernel
    cases hlookup : interchangeable.lookup (lower letter).toNat with
    | none => simp [hlookup] at h
    | some ns =>
      obtain ⟨before, after, hsplit, -⟩ := List.lookup_eq_some_iff.1 hlookup
      rw [hlookup, Option.getD_some, List.contains_iff_mem] at h
      have hns := List.all_eq_true.1 hclear ((lower letter).toNat, ns) (by simp [hsplit])
      have hn := List.all_eq_true.1 hns _ h
      simp [toNat_mem_blankPoints hc] at hn

theorem not_isBlank_of_sameLetter {letter c : Char} (h : sameLetter letter c = true)
    (hletter : isBlank letter = false) : isBlank c = false :=
  Bool.eq_false_iff.2 fun hc => Bool.eq_false_iff.1 hletter (isBlank_of_sameLetter h hc)

theorem not_sameLetter_of_isBlank {letter c : Char} (hletter : isBlank letter = false)
    (hc : isBlank c = true) : sameLetter letter c = false :=
  Bool.eq_false_iff.2 fun h => Bool.eq_false_iff.1 hletter (isBlank_of_sameLetter h hc)

end CaseMap
end ValueDocs.Text
