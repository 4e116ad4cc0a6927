import Mathlib.Data.List.Nodup

/-!
# Proofs/Table — lists of pairs with distinct keys

Such a list is a table: a key has the one value that stands beside it, wherever this is.
-/

namespace ValueDocs

variable {α β : Type} [BEq α] [LawfulBEq α] {table table' : List (α × β)}

theorem lookup_eq_some_iff_mem (h : (table.map (·.1)).Nodup) {key : α} {value : β} :
    table.lookup key = some value ↔ (key, value) ∈ table := by
  rw [List.lookup_eq_some_iff]
  constructor
  · rintro ⟨before, after, rfl, -⟩
    simp
  · intro hmem
    obtain ⟨before, after, rfl⟩ := List.append_of_mem hmem
    refine ⟨before, after, rfl, fun e he => ?_⟩
    rw [List.map_append, List.map_cons, List.nodup_middle, List.nodup_cons] at h
    rw [bne_iff_ne]
    rintro rfl
    exact h.1 (List.mem_append_left _ (List.mem_map.2 ⟨e, he, rfl⟩))

/-- **The order of a table does not matter.** -/
theorem lookup_eq_of_perm (hperm : table.Perm table') (h : (table.map (·.1)).Nodup) (key : α) :
    table.lookup key = table'.lookup key := by
  have h' : (table'.map (·.1)).Nodup := (hperm.map _).nodup_iff.1 h
  refine Option.ext fun value => ?_
  rw [lookup_eq_some_iff_mem h, lookup_eq_some_iff_mem h', hperm.mem_iff]

end ValueDocs
