/-!
# Maps with text keys

A finite map from texts, kept as the list of its entries in increasing order of the keys. The order
is the one of code points, and each key stands once, so two maps with the same entries are equal:
`ext_get?`.
-/

namespace SealedStore

/-- A finite map from texts. -/
structure TextMap (α : Type) where
  entries : List (String × α)
  sorted : entries.Pairwise fun left right ↦ left.1 < right.1

namespace TextMap

variable {α : Type}

/-- Two maps are compared by their entries. -/
instance [DecidableEq α] : DecidableEq (TextMap α) := fun left right ↦
  decidable_of_iff (left.entries = right.entries) (by cases left; cases right; simp)

/-- The map without entries. -/
def empty : TextMap α := ⟨[], .nil⟩

instance : EmptyCollection (TextMap α) := ⟨empty⟩

instance : Inhabited (TextMap α) := ⟨empty⟩

/-- The value of the first entry with a key. -/
def find? (key : String) : List (String × α) → Option α
  | [] => none
  | (other, value) :: rest => if key = other then some value else find? key rest

/-- The value under a key. -/
def get? (map : TextMap α) (key : String) : Option α :=
  find? key map.entries

/-- Whether the map has an entry under a key. -/
def contains (map : TextMap α) (key : String) : Bool :=
  (map.get? key).isSome

/-- The keys in increasing order. -/
def keys (map : TextMap α) : List String :=
  map.entries.map (·.1)

/-- The number of entries. -/
def size (map : TextMap α) : Nat :=
  map.entries.length

/-- The entries with the one under `key` set. -/
def insertEntry (key : String) (value : α) : List (String × α) → List (String × α)
  | [] => [(key, value)]
  | (other, kept) :: rest =>
      if key < other then (key, value) :: (other, kept) :: rest
      else if other < key then (other, kept) :: insertEntry key value rest
      else (key, value) :: rest

theorem mem_insertEntry {key : String} {value : α} {list : List (String × α)}
    {entry : String × α} (hentry : entry ∈ insertEntry key value list) :
    entry = (key, value) ∨ entry ∈ list := by
  induction list with
  | nil => simpa [insertEntry] using hentry
  | cons head rest ih =>
      unfold insertEntry at hentry
      split at hentry
      next => simpa using hentry
      next =>
        split at hentry
        next =>
          rcases List.mem_cons.mp hentry with rfl | hrest
          · exact .inr (by simp)
          · rcases ih hrest with heq | hmem
            · exact .inl heq
            · exact .inr (List.mem_cons_of_mem _ hmem)
        next =>
          rcases List.mem_cons.mp hentry with rfl | hrest
          · exact .inl rfl
          · exact .inr (List.mem_cons_of_mem _ hrest)

theorem pairwise_insertEntry {key : String} {value : α} {list : List (String × α)}
    (hsorted : list.Pairwise fun left right ↦ left.1 < right.1) :
    (insertEntry key value list).Pairwise fun left right ↦ left.1 < right.1 := by
  induction list with
  | nil => simp [insertEntry]
  | cons head rest ih =>
      obtain ⟨hhead, hrest⟩ := List.pairwise_cons.mp hsorted
      unfold insertEntry
      split
      next hlt =>
        refine List.pairwise_cons.mpr ⟨fun entry hentry ↦ ?_, hsorted⟩
        rcases List.mem_cons.mp hentry with rfl | hmem
        · exact hlt
        · exact String.lt_trans hlt (hhead entry hmem)
      next hge =>
        split
        next hlt =>
          refine List.pairwise_cons.mpr ⟨fun entry hentry ↦ ?_, ih hrest⟩
          rcases mem_insertEntry hentry with rfl | hmem
          · exact hlt
          · exact hhead entry hmem
        next hle =>
          have hkey : key = head.1 :=
            String.le_antisymm (String.not_lt.mp hle) (String.not_lt.mp hge)
          exact List.pairwise_cons.mpr ⟨fun entry hentry ↦ hkey ▸ hhead entry hentry, hrest⟩

/-- The map with the value under a key set. -/
def insert (map : TextMap α) (key : String) (value : α) : TextMap α :=
  ⟨insertEntry key value map.entries, pairwise_insertEntry map.sorted⟩

/-- The map without an entry under a key. -/
def erase (map : TextMap α) (key : String) : TextMap α :=
  ⟨map.entries.filter (·.1 ≠ key), map.sorted.filter _⟩

/-- The map with all entries of another one set. -/
def insertAll (map other : TextMap α) : TextMap α :=
  other.entries.foldl (fun result (key, value) ↦ result.insert key value) map

/-- The map of a list of entries; of entries with one key the last counts. -/
def ofList (list : List (String × α)) : TextMap α :=
  list.foldl (fun result (key, value) ↦ result.insert key value) empty

/-! ## What the operations do to a look-up -/

theorem find?_eq_none {key : String} {list : List (String × α)}
    (habsent : ∀ entry ∈ list, entry.1 ≠ key) : find? key list = none := by
  induction list with
  | nil => rfl
  | cons head rest ih =>
      have hhead := habsent head (by simp)
      rw [find?, if_neg (Ne.symm hhead)]
      exact ih fun entry hentry ↦ habsent entry (List.mem_cons_of_mem _ hentry)

theorem find?_insertEntry (key other : String) (value : α) {list : List (String × α)}
    (hsorted : list.Pairwise fun left right ↦ left.1 < right.1) :
    find? other (insertEntry key value list) =
      if other = key then some value else find? other list := by
  induction list with
  | nil => rfl
  | cons head rest ih =>
      obtain ⟨hhead, hrest⟩ := List.pairwise_cons.mp hsorted
      unfold insertEntry
      split
      next => rw [find?]
      next hge =>
        split
        next hlt =>
          have hne : head.1 ≠ key := fun heq ↦ String.lt_irrefl _ (heq ▸ hlt)
          rw [find?, find?, ih hrest]
          by_cases hother : other = key
          · subst hother
            rw [if_neg (Ne.symm hne), if_pos rfl, if_pos rfl]
          · simp [hother]
        next hle =>
          have hkey : key = head.1 :=
            String.le_antisymm (String.not_lt.mp hle) (String.not_lt.mp hge)
          rw [find?, find?, hkey]
          split <;> rfl

@[simp] theorem get?_empty (key : String) : (empty : TextMap α).get? key = none := rfl

@[simp] theorem get?_insert (map : TextMap α) (key other : String) (value : α) :
    (map.insert key value).get? other = if other = key then some value else map.get? other :=
  find?_insertEntry key other value map.sorted

@[simp] theorem get?_erase (map : TextMap α) (key other : String) :
    (map.erase key).get? other = if other = key then none else map.get? other := by
  simp only [erase, get?]
  induction map.entries with
  | nil => simp [find?]
  | cons head rest ih =>
      by_cases hhead : head.1 = key
      · rw [List.filter_cons_of_neg (by simp [hhead]), ih, find?, hhead]
        split <;> rfl
      · rw [List.filter_cons_of_pos (by simp [hhead]), find?, ih, find?]
        by_cases hother : other = head.1
        · rw [if_pos hother, if_neg (by rw [hother]; exact hhead), if_pos hother]
        · rw [if_neg hother, if_neg hother]

theorem mem_of_find? {key : String} {value : α} {list : List (String × α)}
    (hfind : find? key list = some value) : (key, value) ∈ list := by
  induction list with
  | nil => simp [find?] at hfind
  | cons head rest ih =>
      unfold find? at hfind
      split at hfind
      next hkey => cases hfind; simp [hkey]
      next => exact List.mem_cons_of_mem _ (ih hfind)

theorem entries_eq_of_find?_eq {left right : List (String × α)}
    (hleft : left.Pairwise fun a b ↦ a.1 < b.1) (hright : right.Pairwise fun a b ↦ a.1 < b.1)
    (hsame : ∀ key, find? key left = find? key right) : left = right := by
  induction left generalizing right with
  | nil =>
      cases right with
      | nil => rfl
      | cons head rest => simpa [find?] using hsame head.1
  | cons head rest ih =>
      cases right with
      | nil => simpa [find?] using hsame head.1
      | cons first others =>
          obtain ⟨hhead, hrest⟩ := List.pairwise_cons.mp hleft
          obtain ⟨hfirst, hothers⟩ := List.pairwise_cons.mp hright
          have hinRight : (head.1, head.2) ∈ first :: others :=
            mem_of_find? (by rw [← hsame]; simp [find?])
          have hinLeft : (first.1, first.2) ∈ head :: rest :=
            mem_of_find? (by rw [hsame]; simp [find?])
          have hequal : head = first := by
            rcases List.mem_cons.mp hinRight with heq | hmem
            · exact heq
            · rcases List.mem_cons.mp hinLeft with heq | hmem'
              · exact heq.symm
              · exact absurd (hhead _ hmem') (String.lt_asymm (hfirst _ hmem))
          subst hequal
          congr 1
          refine ih hrest hothers fun key ↦ ?_
          have hkey := hsame key
          simp only [find?] at hkey
          by_cases heq : key = head.1
          · subst heq
            rw [find?_eq_none fun entry hentry heq ↦ String.lt_irrefl _ (heq ▸ hhead entry hentry),
              find?_eq_none fun entry hentry heq ↦ String.lt_irrefl _ (heq ▸ hfirst entry hentry)]
          · simpa [heq] using hkey

/-- Maps that agree on every look-up are equal. -/
theorem ext_get? {left right : TextMap α} (hsame : ∀ key, left.get? key = right.get? key) :
    left = right := by
  obtain ⟨leftEntries, hleft⟩ := left
  obtain ⟨rightEntries, hright⟩ := right
  have hentries := entries_eq_of_find?_eq hleft hright hsame
  subst hentries
  rfl

end TextMap

end SealedStore
