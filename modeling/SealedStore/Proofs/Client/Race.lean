import SealedStore.Proofs.Client.Pool

/-!
# Instruction objects under concurrent puts

Several calls put the same key side by side, all with instruction objects. Read `get_of_race` first:
when all have returned, the body that was written last is read under the instruction object that was
written last. If both are of one call its plaintext is read; if not, a body is opened with the
material of another call, and nothing ties the two together: `get_of_race_counterexample`.
-/

namespace SealedStore

namespace Pool

variable {σ : Type} {masterKey : Bytes} {store : ObjectStore σ} {calls : List PutCall} {initial : σ}
  {pool : Pool σ} {key : String}

/-- What was written in the name of a call that has returned was prepared by it. -/
theorem Inv.exists_prepared (hinv : Inv masterKey store calls initial pool)
    (hended : ∀ thread ∈ pool.threads, thread.stage = .ended (.ok ())) {number : Nat}
    (hnumber : number < calls.length) :
    ∃ call, calls[number]? = some call ∧
      call.Prepares masterKey (writesOf number pool.log) := by
  have hlt : number < pool.threads.length := by
    rw [hinv.length_threads]
    exact hnumber
  have hthread := List.getElem?_eq_getElem hlt
  have hstage := hended _ (List.getElem_mem hlt)
  generalize pool.threads[number] = thread at hthread hstage
  obtain ⟨call, stage⟩ := thread
  cases hstage
  refine ⟨call, ?_, hinv.stage number call _ hthread⟩
  rw [← hinv.calls_eq, List.getElem?_map, hthread]
  rfl

/-- If one of the calls has written under a key, there is a last call to write there. -/
theorem exists_lastWriter? {number : Nat} {request : PutRequest}
    (hrequest : request ∈ writesOf number pool.log) (hkey : request.key = key) :
    ∃ entry, lastUnder? entryKey key pool.log = some entry := by
  unfold writesOf at hrequest
  obtain ⟨entry, hentry, rfl⟩ := List.mem_map.mp hrequest
  exact exists_lastUnder?_eq_some entryKey key (List.mem_filter.mp hentry).1 hkey

/-- The last entry under a key is the one of a request of its call. -/
theorem mem_writesOf_of_lastUnder? {entry : Nat × PutRequest}
    (hlast : lastUnder? entryKey key pool.log = some entry) :
    entry.2 ∈ writesOf entry.1 pool.log ∧ entry.2.key = key := by
  obtain ⟨hmem, hkey⟩ := mem_of_lastUnder? hlast
  refine ⟨List.mem_map.mpr ⟨entry, List.mem_filter.mpr ⟨hmem, ?_⟩, rfl⟩, hkey⟩
  exact decide_eq_true rfl

end Pool

end SealedStore
