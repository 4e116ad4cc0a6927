import Mathlib.Data.List.Forall2
import ValueDocs.Failure

/-!
# Proofs/Outcome — what a result says about the steps that led to it

A computation that gives a result got a result at each of its steps.
-/

namespace ValueDocs.Outcome

variable {α β : Type}

theorem eq_ok_of_toOption {x : Outcome α} {a : α} (h : x.toOption = some a) : x = .ok a := by
  cases x with
  | error e => cases h
  | ok b => exact congrArg Except.ok (Option.some.inj h)

theorem bind_eq_ok_iff {x : Outcome α} {f : α → Outcome β} {b : β} :
    x >>= f = .ok b ↔ ∃ a, x = .ok a ∧ f a = .ok b := by
  cases x with
  | error e => exact ⟨nofun, fun ⟨_, h, _⟩ => nomatch h⟩
  | ok a =>
    constructor
    · exact fun h => ⟨a, rfl, h⟩
    · rintro ⟨_, ⟨⟩, h⟩
      exact h

theorem mapM_eq_ok_iff {f : α → Outcome β} {xs : List α} {ys : List β} :
    xs.mapM f = .ok ys ↔ List.Forall₂ (fun x y => f x = .ok y) xs ys := by
  induction xs generalizing ys with
  | nil =>
    rw [List.mapM_nil, List.forall₂_nil_left_iff]
    exact ⟨fun h => (Except.ok.inj h).symm, fun h => h ▸ rfl⟩
  | cons x xs ih =>
    rw [List.mapM_cons, bind_eq_ok_iff]
    constructor
    · rintro ⟨y, hy, hrest⟩
      obtain ⟨ys', hys', h⟩ := bind_eq_ok_iff.1 hrest
      obtain rfl : y :: ys' = ys := Except.ok.inj h
      exact .cons hy (ih.1 hys')
    · rintro ⟨⟩
      next y ys' hy hys' => exact ⟨y, hy, bind_eq_ok_iff.2 ⟨ys', ih.2 hys', rfl⟩⟩

theorem exists_of_mem_mapM {f : α → Outcome β} {xs : List α} {ys : List β}
    (h : xs.mapM f = .ok ys) {y : β} (hy : y ∈ ys) : ∃ x ∈ xs, f x = .ok y := by
  have hall := mapM_eq_ok_iff.1 h
  clear h
  induction hall with
  | nil => exact absurd hy List.not_mem_nil
  | @cons x y' xs ys hx _ ih =>
    rcases List.mem_cons.1 hy with rfl | hy
    · exact ⟨x, List.mem_cons_self .., hx⟩
    · obtain ⟨x', hmem, hx'⟩ := ih hy
      exact ⟨x', List.mem_cons_of_mem _ hmem, hx'⟩

/-- What is seen of the results is told by the items, if it is so for each. -/
theorem map_eq_of_mapM {γ : Type} {f : α → Outcome β} {g : β → γ} {k : α → γ}
    (hstep : ∀ {x y}, f x = .ok y → g y = k x) {xs : List α} {ys : List β}
    (h : xs.mapM f = .ok ys) : ys.map g = xs.map k := by
  have hall := mapM_eq_ok_iff.1 h
  clear h
  induction hall with
  | nil => rfl
  | cons hx _ ih => rw [List.map_cons, List.map_cons, hstep hx, ih]

/-- What is read from the items made of two lists is told by what is read from each item. -/
theorem eq_zipWith_of_mapM {γ δ : Type} {f : γ → Outcome δ} {g : α → β → γ} {h : α → β → δ}
    (hread : ∀ {x y z}, f (g x y) = .ok z → z = h x y) {xs : List α} {ys : List β} {zs : List δ}
    (hzs : (List.zipWith g xs ys).mapM f = .ok zs) : zs = List.zipWith h xs ys := by
  induction xs generalizing ys zs with
  | nil => exact (Except.ok.inj hzs).symm
  | cons x xs ih =>
    cases ys with
    | nil => exact (Except.ok.inj hzs).symm
    | cons y ys =>
      obtain ⟨z, zs, hz, hrest, rfl⟩ := List.forall₂_cons_left_iff.1 (mapM_eq_ok_iff.1 hzs)
      rw [List.zipWith_cons_cons, hread hz, ih (mapM_eq_ok_iff.2 hrest)]

/-- Steps that read something from each item are told by what they read. -/
theorem exists_mapM_of_foldlM {γ δ : Type} {f : β → α → Outcome β} {g : α → Outcome γ} {v : β → δ}
    {k : δ → γ → δ} (hstep : ∀ {b x b'}, f b x = .ok b' → ∃ y, g x = .ok y ∧ v b' = k (v b) y)
    {xs : List α} {b b' : β} (h : xs.foldlM f b = .ok b') :
    ∃ ys, xs.mapM g = .ok ys ∧ v b' = ys.foldl k (v b) := by
  induction xs generalizing b with
  | nil => exact ⟨[], rfl, congrArg v (Except.ok.inj h).symm⟩
  | cons x xs ih =>
    rw [List.foldlM_cons] at h
    obtain ⟨b₁, hb₁, hrest⟩ := bind_eq_ok_iff.1 h
    obtain ⟨y, hy, hv⟩ := hstep hb₁
    obtain ⟨ys, hys, hfold⟩ := ih hrest
    refine ⟨y :: ys, mapM_eq_ok_iff.2 (.cons hy (mapM_eq_ok_iff.1 hys)), ?_⟩
    rw [List.foldl_cons, ← hv, hfold]

end ValueDocs.Outcome
