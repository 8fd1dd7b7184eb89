import SealedStore.Proofs.Client.Race

/-!
# One instruction object under concurrent puts

Several calls put the same key side by side, and at most one of them with an instruction object.
Read `get_of_sole_instruction` first: when all have returned, the key is read as the plaintext of
the call that was the last to write the object itself. An envelope in the metadata is taken before
any instruction object, so the instruction object matters only if the call that makes one was also
the last to write the object; and then nobody else has written under its key
(`Inv.holds_of_lastUnder?`).
-/

namespace SealedStore

/-- The keys under which a call writes: its own, and that of the instruction object if it makes
one. -/
def PutCall.Touches (call : PutCall) (key : String) : Prop :=
  key = call.key ∨
    call.party.placement = .instructionFile ∧ key = call.key ++ Placement.defaultSuffix

/-- All that a call prepares goes under keys that it touches. -/
theorem PutCall.Prepares.touches {masterKey : Bytes} {call : PutCall}
    {requests : List PutRequest} {request : PutRequest}
    (hprepares : call.Prepares masterKey requests) (hrequest : request ∈ requests) :
    call.Touches request.key := by
  obtain ⟨_, material, body, -, -, rfl⟩ := hprepares
  rw [Client.requests_eq, List.mem_cons, Option.mem_toList] at hrequest
  cases hrequest with
  | inl hobject =>
      rw [hobject, Client.key_objectRequest]
      exact .inl rfl
  | inr hinstruction =>
      exact .inr ⟨Client.placement_of_instructionRequest? hinstruction,
        Client.key_of_instructionRequest? hinstruction⟩

namespace Pool

variable {σ : Type} {masterKey : Bytes} {store : ObjectStore σ} {calls : List PutCall} {initial : σ}
  {pool : Pool σ} {key : String}

/-- The last entry under a key is also the last of its own call there. -/
theorem lastUnder?_writesOf {log : List (Nat × PutRequest)} {entry : Nat × PutRequest}
    (hlast : lastUnder? entryKey key log = some entry) :
    lastUnder? PutRequest.key key (writesOf entry.1 log) = some entry.2 := by
  unfold lastUnder? writesOf at *
  rw [← List.map_reverse, ← List.filter_reverse, List.find?_map, List.find?_filter]
  obtain ⟨hkey, later, earlier, hsplit, hlater⟩ := List.find?_eq_some_iff_append.mp hlast
  -- No later entry is for the key, and so no later entry of the same call is.
  refine Option.map_eq_some_iff.mpr ⟨entry, List.find?_eq_some_iff_append.mpr
    ⟨?_, later, earlier, hsplit, fun other hother ↦ ?_⟩, rfl⟩
  · exact decide_eq_true ⟨decide_eq_true rfl, hkey⟩
  · have hne : entryKey other ≠ key := by simpa using hlater other hother
    simp [show other.2.key ≠ key from hne]

/-- Once all calls have returned, there is a last entry under the key of each of them. -/
theorem Inv.exists_lastUnder? (hinv : Inv masterKey store calls initial pool)
    (hended : ∀ thread ∈ pool.threads, thread.stage = .ended (.ok ())) {call : PutCall}
    (hcall : call ∈ calls) : ∃ entry, lastUnder? entryKey call.key pool.log = some entry := by
  obtain ⟨number, hnumber, rfl⟩ := List.getElem_of_mem hcall
  obtain ⟨call, hsame, _, material, body, -, -, hrequests⟩ := hinv.exists_prepared hended hnumber
  rw [List.getElem?_eq_getElem hnumber] at hsame
  cases hsame
  have hmem : (calls[number].party.client masterKey).objectRequest calls[number].key body
      material ∈ writesOf number pool.log := by
    rw [hrequests, Client.requests_eq]
    exact List.mem_cons_self
  exact exists_lastWriter? hmem (Client.key_objectRequest _ _ _ _)

/-- Once all calls have returned, the last entry under a key is of a call that touches the key, and
it is what that call has prepared for it. -/
theorem Inv.exists_writer (hinv : Inv masterKey store calls initial pool)
    (hended : ∀ thread ∈ pool.threads, thread.stage = .ended (.ok ()))
    {entry : Nat × PutRequest} (hlast : lastUnder? entryKey key pool.log = some entry) :
    ∃ call, calls[entry.1]? = some call ∧ call.Prepares masterKey (writesOf entry.1 pool.log) ∧
      call.Touches key := by
  obtain ⟨call, hcall, hprepares⟩ :=
    hinv.exists_prepared hended (hinv.number_lt entry (mem_of_lastUnder? hlast).1)
  obtain ⟨hmem, hkey⟩ := mem_writesOf_of_lastUnder? hlast
  exact ⟨call, hcall, hprepares, hkey ▸ hprepares.touches hmem⟩

/-- The store holds the plaintext of the call that was the last to write the object, provided that
call was also the last to write the instruction object, if it has made one. -/
theorem Inv.holds_of_lastUnder? (hinv : Inv masterKey store calls initial pool)
    {last : Nat × PutRequest} {call : PutCall}
    (hlast : lastUnder? entryKey call.key pool.log = some last)
    (hprepares : call.Prepares masterKey (writesOf last.1 pool.log))
    (hinstruction : call.party.placement = .instructionFile → ∀ entry,
      lastUnder? entryKey (call.key ++ Placement.defaultSuffix) pool.log = some entry →
        entry.1 = last.1) :
    Holds masterKey store pool.state call.key call.plaintext := by
  have hobject := lastUnder?_writesOf hlast
  obtain ⟨contentKey, material, body, hsealed, -, hrequests⟩ := hprepares
  rw [hrequests, Client.lastUnder?_requests] at hobject
  refine ⟨_, material, contentKey, hinv.get_of_lastUnder? hlast, ?_, ?_⟩
  · rw [← Option.some.inj hobject]
    refine Client.findMaterial_objectRequest hsealed.valid fun request hrequest ↦ ?_
    have hmem : request ∈ writesOf last.1 pool.log := by
      rw [hrequests, Client.requests_eq, hrequest]
      exact List.mem_cons_of_mem _ List.mem_cons_self
    obtain ⟨entry, hentry⟩ := exists_lastWriter? hmem (Client.key_of_instructionRequest? hrequest)
    have hplacement : call.party.placement = .instructionFile :=
      Client.placement_of_instructionRequest? hrequest
    -- The instruction object that is there is the one of this call, so it is the one it prepared.
    have hsame := lastUnder?_writesOf hentry
    rw [hinstruction hplacement entry hentry, hrequests, Client.lastUnder?_suffix_requests,
      hrequest] at hsame
    rw [hinv.get_of_lastUnder? hentry, ← Option.some.inj hsame]
  · rw [← Option.some.inj hobject, Client.body_objectRequest]
    exact hsealed

/-- After calls have all returned of which at most one puts a key with an instruction object, the
key is read as the plaintext of the call that was the last to write the object itself, in whatever
schemes and by whatever algorithms the calls wrote, in whatever order their writes came, and
whatever was in the store before. Of the calls for other keys it is only asked that they touch
neither the object nor its instruction object. -/
theorem get_of_sole_instruction (masterKey : Bytes) (calls : List PutCall) (key : String)
    (hput : ∃ call ∈ calls, call.key = key)
    (hsole : ∀ (first second : Nat) (call other : PutCall), calls[first]? = some call →
      calls[second]? = some other → call.key = key → other.key = key →
      call.party.placement = .instructionFile → other.party.placement = .instructionFile →
      first = second)
    (hapart : ∀ call ∈ calls, call.key ≠ key →
      ¬ call.Touches key ∧ ¬ call.Touches (key ++ Placement.defaultSuffix))
    (facility : Facility) (objects : MemoryStore) (schedule : List Nat) (pool : Pool MemoryStore)
    (hpool : pool = (start facility objects calls).run masterKey MemoryStore.store schedule)
    (hended : ∀ thread ∈ pool.threads, thread.stage = .ended (.ok ()))
    (reader : Party) (opened : Facility) (hopen : opened.isOpen) :
    ∃ last call, pool.lastWriter? key = some last ∧ calls[last]? = some call ∧ call.key = key ∧
      (reader.client masterKey).get MemoryStore.store opened pool.state key =
        .ok call.plaintext := by
  have hinv : Inv masterKey MemoryStore.store calls objects pool := by
    rw [hpool]
    exact (inv_start facility).run MemoryStore.replacing_store schedule
  obtain ⟨made, hmade, rfl⟩ := hput
  obtain ⟨last, hlast⟩ := hinv.exists_lastUnder? hended hmade
  obtain ⟨call, hcall, hprepares, htouches⟩ := hinv.exists_writer hended hlast
  have hkey : call.key = made.key := Decidable.byContradiction fun hother ↦
    (hapart call (List.mem_of_getElem? hcall) hother).1 htouches
  rw [← hkey] at hlast hsole hapart ⊢
  refine ⟨last.1, call, by rw [lastWriter?, hlast]; rfl, hcall, rfl, ?_⟩
  refine (hinv.holds_of_lastUnder? hlast hprepares fun hplacement entry hentry ↦ ?_).get_eq reader
    hopen
  -- Whoever was the last to write the instruction object put the same key and made one, too.
  obtain ⟨other, hother, -, htouchesInstruction⟩ := hinv.exists_writer hended hentry
  have hotherKey : other.key = call.key := Decidable.byContradiction fun hne ↦
    (hapart other (List.mem_of_getElem? hother) hne).2 htouchesInstruction
  have hotherPlacement : other.party.placement = .instructionFile := by
    cases htouchesInstruction with
    | inl hobject =>
        rw [hotherKey] at hobject
        exact absurd hobject (Placement.append_suffix_ne _)
    | inr hboth => exact hboth.1
  exact hsole entry.1 last.1 other call hother hcall hotherKey rfl hotherPlacement hplacement

/-- A call with an instruction object and one without, for plaintexts that differ. -/
def exampleMixed : List PutCall := [
  ⟨⟨.aesWrap, .gcm, .instructionFile⟩, "report", [1], .empty⟩,
  ⟨⟨.aesGcm, .ctr, .objectMetadata⟩, "report", [2, 3], .empty⟩]

theorem fits_exampleMixed : ∀ call ∈ exampleMixed, call.party.scheme.Fits call.plaintext := by
  intro call hcall
  simp only [exampleMixed, List.mem_cons, List.not_mem_nil, or_false] at hcall
  rcases hcall with rfl | rfl
  · show 1 ≤ Gcm.maxMessage
    decide
  · show Ctr.blockCount [2, 3] ≤ Ctr.maxBlocks
    decide

/-- Of two calls the second makes its only request between the two of the first. -/
theorem log_run_between {first second : PutCall} {facility between next : Facility}
    {bare instruction whole : PutRequest}
    (hfirst : (first.party.client masterKey).prepare first.key first.plaintext first.description
      facility = (.ok [bare, instruction], between))
    (hsecond : (second.party.client masterKey).prepare second.key second.plaintext
      second.description between = (.ok [whole], next))
    (objects : MemoryStore) :
    ((start facility objects [first, second]).run masterKey MemoryStore.store
      [0, 0, 1, 1, 1, 0, 0, 1]).log = [(0, bare), (1, whole), (0, instruction)] := by
  simp [run, start, step, hfirst, hsecond, MemoryStore.store]

/-- Two such calls, in a store where an older instruction object lies around. -/
def exampleMixedPool : Pool MemoryStore :=
  (start exampleFacility (TextMap.empty.insert "report.instruction" ⟨.empty, [7]⟩)
    exampleMixed).run (Bytes.zeros 32) MemoryStore.store [0, 0, 1, 1, 1, 0, 0, 1]

theorem lastWriter?_exampleMixedPool : exampleMixedPool.lastWriter? "report" = some 1 := by
  have hmaster : (Bytes.zeros 32).length = Aes.keyLength := rfl
  obtain ⟨_, between, hfirst, hopen⟩ := Party.exists_prepare_eq_ok hmaster
    (show exampleFacility.isOpen from rfl) (fits_exampleMixed _ List.mem_cons_self) "report" .empty
  obtain ⟨_, _, hsecond, -⟩ := Party.exists_prepare_eq_ok hmaster hopen
    (fits_exampleMixed _ (List.mem_cons_of_mem _ List.mem_cons_self)) "report" .empty
  obtain ⟨_, material, body, -, -, rfl⟩ := Party.sealed_of_prepare hfirst
  obtain ⟨_, material', body', -, -, rfl⟩ := Party.sealed_of_prepare hsecond
  rw [Client.requests_of_instructionFile rfl] at hfirst
  rw [lastWriter?, exampleMixedPool, exampleMixed, log_run_between hfirst hsecond, lastUnder?_cons,
    lastUnder?_cons, lastUnder?_cons]
  rfl

theorem get_of_sole_instruction_example :
    exampleMixedPool.lastWriter? "report" = some 1 ∧
      (Party.client ⟨.aesWrap, .cbc, .instructionFile⟩ (Bytes.zeros 32)).get MemoryStore.store
        exampleFacility exampleMixedPool.state "report" = .ok [2, 3] := by
  have hended := ended_of_count (show exampleFacility.isOpen from rfl)
    (show (Bytes.zeros 32).length = Aes.keyLength from rfl) fits_exampleMixed
    (TextMap.empty.insert "report.instruction" ⟨.empty, [7]⟩)
    (show ∀ number, number < exampleMixed.length → 4 ≤ [0, 0, 1, 1, 1, 0, 0, 1].count number
      by decide)
  have hsole : ∀ (first second : Nat) (call other : PutCall), exampleMixed[first]? = some call →
      exampleMixed[second]? = some other → call.key = "report" → other.key = "report" →
      call.party.placement = .instructionFile → other.party.placement = .instructionFile →
      first = second := by
    intro first second call other hfirst hsecond _ _ hcall hother
    have hone : ∀ (number : Nat) (call : PutCall), exampleMixed[number]? = some call →
        call.party.placement = .instructionFile → number = 0 := by
      intro number call hnumber hplacement
      match number, hnumber with
      | 0, _ => rfl
      | 1, hnumber =>
          cases hnumber
          cases hplacement
    rw [hone first call hfirst hcall, hone second other hsecond hother]
  have hapart : ∀ call ∈ exampleMixed, call.key ≠ "report" →
      ¬ call.Touches "report" ∧ ¬ call.Touches ("report" ++ Placement.defaultSuffix) := by
    have hkey : ∀ call ∈ exampleMixed, call.key = "report" := by decide
    exact fun call hcall hother ↦ absurd (hkey call hcall) hother
  obtain ⟨last, call, hlast, hcall, -, hget⟩ :=
    get_of_sole_instruction (Bytes.zeros 32) exampleMixed "report"
      ⟨_, List.mem_cons_self, rfl⟩ hsole hapart exampleFacility _ _ exampleMixedPool rfl hended
      ⟨.aesWrap, .cbc, .instructionFile⟩ exampleFacility rfl
  rw [lastWriter?_exampleMixedPool] at hlast
  cases hlast
  cases hcall
  exact ⟨lastWriter?_exampleMixedPool, hget⟩

end Pool

end SealedStore
