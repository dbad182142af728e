import Mathlib.Data.List.AList

/-!
# Hash maps

`UnorderedMap κ β` is a map in the manner of `std::unordered_map`: an association list with distinct keys, whose order
is the one an iteration visits the entries in. Nothing is known of that order, and an insertion may change all of it.

* `assign` : `m[k] = v`, in place when the key is there; `touch` : `m[k]` where it is only read;
* `reorder` : the same entries in another order;
* `lookup_assign`, `lookup_touch`, `lookup_reorder` : what they change, read by `AList.lookup`.
-/

universe u v

/-- A map that is iterated in the order of its `entries`. -/
abbrev UnorderedMap (κ : Type u) (β : Type v) := AList fun _ : κ => β

namespace UnorderedMap

variable {κ : Type u} {β : Type v} [DecidableEq κ]

/-- `m[k] = v` -/
def assign (m : UnorderedMap κ β) (k : κ) (v : β) : UnorderedMap κ β :=
  if k ∈ m then m.replace k v else m.insert k v

/-- What reading `m[k]` does: a missing key is inserted with the default value. -/
def touch (m : UnorderedMap κ β) (k : κ) (default : β) : UnorderedMap κ β :=
  if k ∈ m then m else m.insert k default

/-- The entries in the given order, if it is one of them. -/
def reorder [DecidableEq β] (m : UnorderedMap κ β) (order : List (Σ _ : κ, β)) : UnorderedMap κ β :=
  if h : order.Perm m.entries then ⟨order, (List.perm_nodupKeys h).mpr m.nodupKeys⟩ else m

theorem kreplace_perm {k : κ} {l : List (Σ _ : κ, β)} (h : k ∈ l.keys) (v : β) :
    (List.kreplace k v l).Perm (⟨k, v⟩ :: List.kerase k l) := by
  induction l with
  | nil => cases h
  | cons e l ih =>
    by_cases hk : k = e.1
    · have hrep : List.kreplace k v (e :: l) = ⟨k, v⟩ :: l := List.lookmap_cons_some _ l (if_pos hk)
      rw [List.kerase_cons_eq hk, hrep]
    · have hrep : List.kreplace k v (e :: l) = e :: List.kreplace k v l := List.lookmap_cons_none _ l (if_neg hk)
      rw [List.kerase_cons_ne hk, hrep]
      have hl : k ∈ l.keys := by
        rw [List.keys_cons, List.mem_cons] at h
        exact h.resolve_left hk
      exact ((ih hl).cons e).trans (List.Perm.swap _ _ _)

/-- Assigning in place or not, the entries are those of an insertion. -/
theorem entries_assign_perm (m : UnorderedMap κ β) (k : κ) (v : β) :
    (assign m k v).entries.Perm (m.insert k v).entries := by
  unfold assign
  split
  · next h => exact kreplace_perm h v
  · exact .refl _

@[simp] theorem lookup_assign (m : UnorderedMap κ β) (k j : κ) (v : β) :
    (assign m k v).lookup j = if j = k then some v else m.lookup j := by
  rw [AList.perm_lookup (entries_assign_perm m k v)]
  split
  · next h => rw [h, AList.lookup_insert]
  · next h => exact AList.lookup_insert_ne h

@[simp] theorem mem_assign {m : UnorderedMap κ β} {k j : κ} {v : β} : j ∈ assign m k v ↔ j = k ∨ j ∈ m := by
  rw [AList.mem_of_perm (entries_assign_perm m k v), AList.mem_insert]

@[simp] theorem lookup_touch (m : UnorderedMap κ β) (k j : κ) (default : β) :
    (touch m k default).lookup j = if j = k then some ((m.lookup k).getD default) else m.lookup j := by
  unfold touch
  by_cases hk : k ∈ m
  · obtain ⟨v, hv⟩ := Option.isSome_iff_exists.mp (AList.lookup_isSome.mpr hk)
    rw [if_pos hk]
    split
    · next h => rw [h, hv, Option.getD_some]
    · rfl
  · rw [if_neg hk]
    split
    · next h => rw [h, AList.lookup_insert, AList.lookup_eq_none.mpr hk, Option.getD_none]
    · next h => exact AList.lookup_insert_ne h

theorem lookup_erase_eq_some {m : UnorderedMap κ β} {k j : κ} {v : β} :
    (m.erase k).lookup j = some v ↔ j ≠ k ∧ m.lookup j = some v := by
  by_cases h : j = k
  · rw [h, AList.lookup_erase]
    simp
  · rw [AList.lookup_erase_ne h, and_iff_right h]

theorem touch_of_mem {m : UnorderedMap κ β} {k : κ} (h : k ∈ m) (default : β) : touch m k default = m := if_pos h

section Reorder

variable [DecidableEq β] (m : UnorderedMap κ β) (order : List (Σ _ : κ, β))

theorem entries_reorder_perm : (reorder m order).entries.Perm m.entries := by
  unfold reorder
  split
  · next h => exact h
  · exact .refl _

@[simp] theorem lookup_reorder (k : κ) : (reorder m order).lookup k = m.lookup k :=
  AList.perm_lookup (entries_reorder_perm m order)

end Reorder

end UnorderedMap
