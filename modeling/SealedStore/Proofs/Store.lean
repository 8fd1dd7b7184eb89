import SealedStore.Envelope.Placement
import SealedStore.Store.Object

/-!
# Stores after several puts

In a store whose puts replace, an object is the one of the last request for its key, or it is what
it was before (`get_of_putAll`). The store in memory is such a store, and it takes every request.
-/

namespace SealedStore

section Last

variable {α : Type} (keyOf : α → String) (key : String)

/-- The last of several things that go under a key. -/
def lastUnder? (list : List α) : Option α :=
  list.reverse.find? fun item ↦ keyOf item = key

@[simp] theorem lastUnder?_nil : lastUnder? keyOf key [] = none := rfl

theorem lastUnder?_cons (first : α) (rest : List α) :
    lastUnder? keyOf key (first :: rest) =
      (lastUnder? keyOf key rest).or (if keyOf first = key then some first else none) := by
  unfold lastUnder?
  rw [List.reverse_cons, List.find?_append, List.find?_cons]
  by_cases hkey : keyOf first = key <;> simp [hkey]

theorem lastUnder?_concat (before : List α) (last : α) :
    lastUnder? keyOf key (before ++ [last]) =
      if keyOf last = key then some last else lastUnder? keyOf key before := by
  unfold lastUnder?
  rw [List.reverse_append, List.reverse_singleton, List.singleton_append, List.find?_cons]
  by_cases hkey : keyOf last = key <;> simp [hkey]

/-- If something goes under the key, then something is the last of it. -/
theorem exists_lastUnder?_eq_some {list : List α} {item : α} (hitem : item ∈ list)
    (hkey : keyOf item = key) : ∃ last, lastUnder? keyOf key list = some last := by
  have hsome : (lastUnder? keyOf key list).isSome := by
    rw [lastUnder?, List.find?_isSome]
    exact ⟨item, List.mem_reverse.mpr hitem, decide_eq_true hkey⟩
  exact Option.isSome_iff_exists.mp hsome

variable {keyOf key}

theorem mem_of_lastUnder? {list : List α} {last : α}
    (hlast : lastUnder? keyOf key list = some last) : last ∈ list ∧ keyOf last = key := by
  unfold lastUnder? at hlast
  have hkey := List.find?_some hlast
  exact ⟨List.mem_reverse.mp (List.mem_of_find?_eq_some hlast), of_decide_eq_true hkey⟩

end Last

section Set

variable {α β : Type} {list : List α} {number : Nat}

/-- After an entry is set, it is at its place, and at all other places is what was there. -/
theorem getElem?_set_cases {item found : α} {other : Nat}
    (hfound : (list.set number item)[other]? = some found) :
    (number = other ∧ item = found) ∨ (number ≠ other ∧ list[other]? = some found) := by
  rw [List.getElem?_set] at hfound
  split at hfound
  next hsame =>
    split at hfound
    next => exact .inl ⟨hsame, Option.some.inj hfound⟩
    next => cases hfound
  next hother => exact .inr ⟨hother, hfound⟩

/-- What the old and the new entry have in common stays as it was. -/
theorem map_set_of_getElem? (view : α → β) {old new : α} (hold : list[number]? = some old)
    (hsame : view new = view old) : (list.set number new).map view = list.map view := by
  have hview : (list.map view)[number]? = some (view new) := by
    rw [List.getElem?_map, hold, hsame]
    rfl
  obtain ⟨hlt, hget⟩ := List.getElem?_eq_some_iff.mp hview
  have hset := List.set_getElem_self hlt
  rwa [hget, ← List.map_set] at hset

end Set

namespace ObjectStore

variable {σ : Type} {store : ObjectStore σ} {state next : σ}

/-- After all requests are answered the store has the object of the last one for a key. -/
theorem get_of_putAll (hreplacing : store.Replacing) {requests : List PutRequest}
    (hput : store.putAll state requests = (.ok (), next)) (key : String) :
    store.get next key =
      match lastUnder? PutRequest.key key requests with
      | some request => .ok request.object
      | none => store.get state key := by
  induction requests generalizing state with
  | nil =>
      cases hput
      rfl
  | cons request rest ih =>
      unfold putAll at hput
      split at hput
      next between hfirst =>
        obtain ⟨hsame, hother⟩ := hreplacing state request between hfirst
        rw [ih hput, lastUnder?_cons]
        cases lastUnder? PutRequest.key key rest with
        | some later => rfl
        | none =>
            by_cases hkey : request.key = key
            · rw [if_pos hkey, ← hkey]
              exact hsame
            · rw [if_neg hkey]
              exact hother key (Ne.symm hkey)
      next => cases hput

end ObjectStore

namespace MemoryStore

theorem get_eq_ok_iff {objects : MemoryStore} {key : String} {object : StoredObject} :
    store.get objects key = .ok object ↔ objects.get? key = some object := by
  simp only [store]
  cases objects.get? key with
  | none => simp
  | some found => rw [Except.ok.injEq, Option.some.injEq]

theorem get_insert_self (objects : MemoryStore) (key : String) (object : StoredObject) :
    store.get (objects.insert key object) key = .ok object := by
  simp only [store, TextMap.get?_insert, ↓reduceIte]

theorem get_insert_of_ne (objects : MemoryStore) {key other : String} (object : StoredObject)
    (hne : other ≠ key) :
    store.get (objects.insert key object) other = store.get objects other := by
  simp only [store, TextMap.get?_insert, if_neg hne]

/-- In memory a put replaces the object under its key and no other. -/
theorem replacing_store : store.Replacing := by
  intro objects request next hput
  cases hput
  exact ⟨get_insert_self _ _ _, fun key hkey ↦ get_insert_of_ne _ _ hkey⟩

/-- In memory all requests are answered. -/
theorem putAll_store (objects : MemoryStore) (requests : List PutRequest) :
    store.putAll objects requests =
      (.ok (), requests.foldl (fun result request ↦ result.insert request.key request.object)
        objects) := by
  induction requests generalizing objects with
  | nil => rfl
  | cons request rest ih => exact ih (objects.insert request.key request.object)

end MemoryStore

/-! ## The keys of instruction objects -/

namespace Placement

/-- No object is its own instruction object. -/
theorem append_suffix_ne (key : String) : key ++ defaultSuffix ≠ key := by
  intro heq
  have hlength := congrArg String.length heq
  rw [String.length_append] at hlength
  have hsuffix : defaultSuffix.length = 12 := by decide
  omega

/-- Two objects do not share an instruction object. -/
theorem append_suffix_inj {left right : String} :
    left ++ defaultSuffix = right ++ defaultSuffix ↔ left = right :=
  String.append_left_inj defaultSuffix

end Placement

end SealedStore
