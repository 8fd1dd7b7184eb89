import SealedStore.TextMap

/-!
# Setting many entries at once

What a look-up finds after all entries of one map have been set in another: `get?_insertAll`. A map
is recovered from its entries: `ofList_entries`.
-/

namespace SealedStore.TextMap

variable {α : Type}

theorem get?_foldl_insert (map : TextMap α) (key : String) {list : List (String × α)}
    (hsorted : list.Pairwise fun left right ↦ left.1 < right.1) :
    (list.foldl (fun result (other, value) ↦ result.insert other value) map).get? key =
      (find? key list).or (map.get? key) := by
  induction list generalizing map with
  | nil => rfl
  | cons head rest ih =>
      obtain ⟨hhead, hrest⟩ := List.pairwise_cons.mp hsorted
      rw [List.foldl_cons, ih _ hrest, get?_insert, find?]
      by_cases hkey : key = head.1
      · have habsent : find? key rest = none :=
          find?_eq_none fun entry hentry heq ↦
            String.lt_irrefl _ (heq ▸ hkey ▸ hhead entry hentry)
        rw [habsent, if_pos hkey, if_pos hkey]
        rfl
      · rw [if_neg hkey, if_neg hkey]

/-- After all entries of a map are set, a look-up finds them first. -/
@[simp] theorem get?_insertAll (map other : TextMap α) (key : String) :
    (map.insertAll other).get? key = (other.get? key).or (map.get? key) :=
  get?_foldl_insert map key other.sorted

theorem find?_of_mem {key : String} {value : α} {list : List (String × α)}
    (hsorted : list.Pairwise fun left right ↦ left.1 < right.1) (hmem : (key, value) ∈ list) :
    find? key list = some value := by
  induction list with
  | nil => cases hmem
  | cons head rest ih =>
      obtain ⟨hhead, hrest⟩ := List.pairwise_cons.mp hsorted
      rw [find?]
      rcases List.mem_cons.mp hmem with rfl | hlater
      · rw [if_pos rfl]
      · rw [if_neg fun heq ↦ String.lt_irrefl _ (heq ▸ hhead _ hlater), ih hrest hlater]

/-- A look-up finds exactly the entries. -/
theorem get?_eq_some_iff {map : TextMap α} {key : String} {value : α} :
    map.get? key = some value ↔ (key, value) ∈ map.entries :=
  ⟨mem_of_find?, find?_of_mem map.sorted⟩

/-- A map is the map of its entries. -/
@[simp] theorem ofList_entries (map : TextMap α) : ofList map.entries = map := by
  refine ext_get? fun key ↦ ?_
  rw [ofList, get?_foldl_insert empty key map.sorted, get?_empty, Option.or_none]
  rfl

/-- Setting all entries of a map in an empty one gives that map. -/
@[simp] theorem insertAll_empty (map : TextMap α) : empty.insertAll map = map :=
  ofList_entries map

end SealedStore.TextMap
