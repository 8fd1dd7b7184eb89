import SealedStore.Proofs.Client.Party

/-!
# The last put wins

Several clients over one master key put objects into one store, one call after the other. Read
`get_last_put` first: every one of them reads under a key what the last call for that key has put,
wherever the envelopes of earlier calls were placed. The invariant is `Holds`; a call establishes it
for its own key (`Holds.of_run`) and keeps it for keys that share no object with its own
(`Holds.of_run_other`).
-/

namespace SealedStore

namespace PutCall

variable {σ : Type}

/-- The answer to a call, with the facility and the store after it. -/
def run (masterKey : Bytes) (store : ObjectStore σ) (call : PutCall) (facility : Facility)
    (state : σ) : Except ClientError Unit × Facility × σ :=
  (call.party.client masterKey).put store call.key call.plaintext call.description facility state

/-- The answers to several calls in their order, with the facility and the store after them. -/
def runAll (masterKey : Bytes) (store : ObjectStore σ) :
    List PutCall → Facility → σ → List (Except ClientError Unit) × Facility × σ
  | [], facility, state => ([], facility, state)
  | call :: rest, facility, state =>
      let (answer, between, written) := call.run masterKey store facility state
      let (answers, last, final) := runAll masterKey store rest between written
      (answer :: answers, last, final)

variable {masterKey plaintext : Bytes} {store : ObjectStore σ} {call : PutCall}
  {calls : List PutCall} {facility between opened : Facility} {state written : σ} {key : String}

theorem runAll_cons : runAll masterKey store (call :: calls) facility state =
    ((call.run masterKey store facility state).1 ::
        (runAll masterKey store calls (call.run masterKey store facility state).2.1
          (call.run masterKey store facility state).2.2).1,
      (runAll masterKey store calls (call.run masterKey store facility state).2.1
        (call.run masterKey store facility state).2.2).2) :=
  rfl

/-- Several calls succeed if the first one does, and the others do after it. -/
theorem exists_of_runAll_cons
    (hanswers : ∀ answer ∈ (runAll masterKey store (call :: calls) facility state).1,
      answer = .ok ()) :
    ∃ between written, call.run masterKey store facility state = (.ok (), between, written) ∧
      (∀ answer ∈ (runAll masterKey store calls between written).1, answer = .ok ()) ∧
      (runAll masterKey store (call :: calls) facility state).2 =
        (runAll masterKey store calls between written).2 := by
  rw [runAll_cons] at hanswers
  have hfirst := hanswers _ List.mem_cons_self
  refine ⟨_, _, Prod.ext hfirst rfl, fun answer hanswer ↦ ?_, rfl⟩
  exact hanswers answer (List.mem_cons_of_mem _ hanswer)

/-- In memory, every call is answered if the master key has the right length, the facility is open
and the plaintext fits. -/
theorem exists_run_eq_ok {objects : MemoryStore} (hmaster : masterKey.length = Aes.keyLength)
    (hopen : facility.isOpen) (hfits : call.party.scheme.Fits call.plaintext) :
    ∃ next written, call.run masterKey MemoryStore.store facility objects =
      (.ok (), next, written) ∧ next.isOpen := by
  obtain ⟨requests, next, hprepare, hnext⟩ :=
    Party.exists_prepare_eq_ok hmaster hopen hfits call.key call.description
  exact ⟨next, _, Client.put_eq_ok_iff.mpr ⟨requests, hprepare, MemoryStore.putAll_store _ _⟩,
    hnext⟩

/-- So is every call of several. -/
theorem runAll_answers {objects : MemoryStore} (hmaster : masterKey.length = Aes.keyLength)
    (hopen : facility.isOpen) (hfits : ∀ call ∈ calls, call.party.scheme.Fits call.plaintext) :
    ∀ answer ∈ (runAll masterKey MemoryStore.store calls facility objects).1, answer = .ok () := by
  induction calls generalizing facility objects with
  | nil =>
      intro answer hanswer
      cases hanswer
  | cons call rest ih =>
      obtain ⟨next, written, hrun, hnext⟩ :=
        exists_run_eq_ok hmaster hopen (hfits call List.mem_cons_self)
      rw [runAll_cons, hrun]
      intro answer hanswer
      cases List.mem_cons.mp hanswer with
      | inl hfirst => exact hfirst
      | inr hlater =>
          exact ih hnext (fun later hlater ↦ hfits later (List.mem_cons_of_mem _ hlater)) answer
            hlater

end PutCall

open PutCall

section

variable {σ : Type} {masterKey plaintext : Bytes} {store : ObjectStore σ} {call : PutCall}
  {calls : List PutCall} {facility between opened : Facility} {state written : σ} {key : String}

/-- A call that succeeds leaves a store that holds its plaintext under its key. -/
theorem Holds.of_run (hreplacing : store.Replacing)
    (hrun : call.run masterKey store facility state = (.ok (), between, written)) :
    Holds masterKey store written call.key call.plaintext := by
  obtain ⟨requests, hprepare, hput⟩ := Client.put_eq_ok_iff.mp hrun
  obtain ⟨contentKey, material, body, hsealed, -, rfl⟩ := Party.sealed_of_prepare hprepare
  exact holds_of_putAll hreplacing hsealed hput

/-- A call that succeeds leaves what is held under keys that share no object with its own. -/
theorem Holds.of_run_other (hholds : Holds masterKey store state key plaintext)
    (hreplacing : store.Replacing)
    (hrun : call.run masterKey store facility state = (.ok (), between, written))
    (hkey : key ≠ call.key) (hobject : key ≠ call.key ++ Placement.defaultSuffix)
    (hinstruction : call.key ≠ key ++ Placement.defaultSuffix) :
    Holds masterKey store written key plaintext := by
  obtain ⟨requests, hprepare, hput⟩ := Client.put_eq_ok_iff.mp hrun
  obtain ⟨contentKey, material, body, -, -, rfl⟩ := Party.sealed_of_prepare hprepare
  exact hholds.of_putAll hreplacing hput hkey hobject (Ne.symm hinstruction)

/-- After several calls that succeed, the store holds under a key what the last call for it has put,
or else what it held before. -/
theorem Holds.of_runAll (hreplacing : store.Replacing)
    (hanswers : ∀ answer ∈ (runAll masterKey store calls facility state).1, answer = .ok ())
    (hapart : ∀ call ∈ calls, key ≠ call.key ++ Placement.defaultSuffix ∧
      call.key ≠ key ++ Placement.defaultSuffix)
    (hlast : match lastUnder? PutCall.key key calls with
      | some call => call.plaintext = plaintext
      | none => Holds masterKey store state key plaintext) :
    Holds masterKey store (runAll masterKey store calls facility state).2.2 key plaintext := by
  induction calls generalizing facility state with
  | nil => exact hlast
  | cons call rest ih =>
      obtain ⟨between, written, hrun, hrest, hsame⟩ := exists_of_runAll_cons hanswers
      obtain ⟨hobject, hinstruction⟩ := hapart call List.mem_cons_self
      rw [hsame]
      refine ih hrest (fun later hlater ↦ hapart later (List.mem_cons_of_mem _ hlater)) ?_
      rw [lastUnder?_cons] at hlast
      -- The last call for the key is a later one, or this one, or it was made before.
      cases hlater : lastUnder? PutCall.key key rest with
      | some later =>
          rw [hlater] at hlast
          exact hlast
      | none =>
          rw [hlater] at hlast
          by_cases hkey : call.key = key
          · rw [if_pos hkey] at hlast
            have hput := Holds.of_run hreplacing hrun
            rw [hkey] at hput
            exact hlast ▸ hput
          · rw [if_neg hkey] at hlast
            exact Holds.of_run_other hlast hreplacing hrun (Ne.symm hkey) hobject hinstruction

/-- After several calls that succeed, in whatever schemes, placements and wrap algorithms, every
party reads under every key for which there was a call the plaintext of the last call for that key.
It is only asked that no call is for the instruction object of another. -/
theorem get_last_put (masterKey : Bytes) (calls : List PutCall) (facility : Facility)
    (objects : MemoryStore)
    (hanswers : ∀ answer ∈ (runAll masterKey MemoryStore.store calls facility objects).1,
      answer = .ok ())
    (hapart : ∀ call ∈ calls, ∀ other ∈ calls, call.key ≠ other.key ++ Placement.defaultSuffix)
    (reader : Party) (opened : Facility) (hopen : opened.isOpen) :
    ∀ key ∈ calls.map PutCall.key, ∃ call, lastUnder? PutCall.key key calls = some call ∧
      (reader.client masterKey).get MemoryStore.store opened
        (runAll masterKey MemoryStore.store calls facility objects).2.2 key =
          .ok call.plaintext := by
  intro key hkey
  obtain ⟨made, hmade, rfl⟩ := List.mem_map.mp hkey
  obtain ⟨last, hlast⟩ := exists_lastUnder?_eq_some PutCall.key made.key hmade rfl
  refine ⟨last, hlast, ?_⟩
  have hholds : Holds masterKey MemoryStore.store
      (runAll masterKey MemoryStore.store calls facility objects).2.2 made.key last.plaintext := by
    refine Holds.of_runAll MemoryStore.replacing_store hanswers (fun call hcall ↦ ?_) ?_
    · exact ⟨hapart made hmade call hcall, hapart call hcall made hmade⟩
    · rw [hlast]
  exact hholds.get_eq reader hopen

/-- Two calls for one key, of parties that differ in everything, and one for another key. -/
def exampleCalls : List PutCall := [
  ⟨⟨.aesWrap, .gcm, .objectMetadata⟩, "report", [1], .empty⟩,
  ⟨⟨.aesGcm, .ctr, .instructionFile⟩, "report", [2, 3], .empty⟩,
  ⟨⟨.aesWrap, .cbc, .instructionFile⟩, "letter", [], .empty⟩]

theorem get_last_put_example :
    (∀ answer ∈ (runAll (Bytes.zeros 32) MemoryStore.store exampleCalls exampleFacility .empty).1,
      answer = .ok ()) ∧
    (Party.client ⟨.aesWrap, .cbc, .objectMetadata⟩ (Bytes.zeros 32)).get MemoryStore.store
      exampleFacility
      (runAll (Bytes.zeros 32) MemoryStore.store exampleCalls exampleFacility .empty).2.2 "report" =
        .ok [2, 3] := by
  have hanswers : ∀ answer ∈ (runAll (Bytes.zeros 32) MemoryStore.store exampleCalls
      exampleFacility .empty).1, answer = .ok () := by
    refine runAll_answers rfl rfl fun call hcall ↦ ?_
    simp only [exampleCalls, List.mem_cons, List.not_mem_nil, or_false] at hcall
    rcases hcall with rfl | rfl | rfl
    · show 1 ≤ Gcm.maxMessage
      decide
    · show Ctr.blockCount [2, 3] ≤ Ctr.maxBlocks
      decide
    · trivial
  refine ⟨hanswers, ?_⟩
  obtain ⟨call, hlast, hget⟩ := get_last_put (Bytes.zeros 32) exampleCalls exampleFacility .empty
    hanswers (by decide) ⟨.aesWrap, .cbc, .objectMetadata⟩ exampleFacility rfl "report" (by decide)
  cases hlast
  exact hget

end

end SealedStore
