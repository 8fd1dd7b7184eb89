import SealedStore.Proofs.Client.Party

/-!
# What a failed put leaves behind

A put with an instruction object makes two writes and takes neither back. Read `get_of_failed_put`
first: a put that fails leaves the store as it was, unless it was the second write that failed. Then
the new body is there without its envelope, and what its key is read as depends on the instruction
object that was there before. So an earlier version can be lost to a put that fails:
`get_of_failed_put_counterexample`.
-/

namespace SealedStore

namespace Client

variable {σ : Type} {client : Client} {store : ObjectStore σ} {facility next : Facility}
  {state written : σ} {key : String} {plaintext : Bytes} {description : Description}
  {error : ClientError}

/-- A put with an instruction object fails before anything is written, or at the second write. -/
theorem put_eq_error_cases (hplacement : client.placement = .instructionFile)
    (hput : client.put store key plaintext description facility state =
      (.error error, next, written)) :
    written = state ∨ ∃ body material reason,
      client.prepare key plaintext description facility =
        (.ok (client.requests key body material), next) ∧
      store.put state ⟨key, .empty, body⟩ = .ok written ∧
      store.put written (.instructionFor key material) =
        .error reason ∧
      error = .store reason := by
  cases hprepare : client.prepare key plaintext description facility with
  | mk result reached =>
      cases result with
      | error failure =>
          rw [put_of_prepare_error hprepare] at hput
          cases hput
          exact .inl rfl
      | ok requests =>
          obtain ⟨-, body, material, -, hrequests⟩ := prepare_eq_ok_iff_makes.mp hprepare
          rw [put_of_prepare_ok hprepare, hrequests, requests_of_instructionFile hplacement] at hput
          unfold ObjectStore.putAll at hput
          cases hfirst : store.put state ⟨key, .empty, body⟩ with
          | error reason =>
              rw [hfirst] at hput
              cases hput
              exact .inl rfl
          | ok between =>
              rw [hfirst] at hput
              dsimp only [ObjectStore.putAll] at hput
              cases hsecond : store.put between
                  (.instructionFor key material) with
              | error reason =>
                  rw [hsecond] at hput
                  cases hput
                  exact .inr ⟨body, material, reason, by rw [hrequests], hfirst, hsecond, rfl⟩
              | ok last =>
                  rw [hsecond] at hput
                  cases hput

/-- Without an instruction object beside it, a bare body is not encrypted. -/
theorem get_of_bare_alone {body : Bytes} {reader : Client} {opened : Facility}
    (hobject : store.get state key = .ok ⟨.empty, body⟩)
    (hmissing : store.get state (key ++ Placement.defaultSuffix) =
      .error (.notFound (key ++ Placement.defaultSuffix))) :
    reader.get store opened state key = .error (.notEncrypted key) := by
  rw [get_of_bare hobject rfl, hmissing]

/-- Writing a bare body does not change what other keys are read as, unless the key is that of their
instruction object and they have no other envelope. -/
theorem get_of_put_other {body : Bytes} {reader : Client} {opened : Facility} {other : String}
    (hreplacing : store.Replacing) (hput : store.put state ⟨key, .empty, body⟩ = .ok written)
    (hother : other ≠ key)
    (henvelope : other ++ Placement.defaultSuffix = key →
      ∀ object, store.get state other = .ok object → object.hasEnvelope = true) :
    reader.get store opened written other = reader.get store opened state other := by
  obtain ⟨-, hframe⟩ := hreplacing state ⟨key, .empty, body⟩ written hput
  symm
  refine get_congr (hframe other hother).symm fun object hobject hbare ↦ ?_
  by_cases hinstruction : other ++ Placement.defaultSuffix = key
  · rw [henvelope hinstruction object hobject] at hbare
    cases hbare
  · exact (hframe _ hinstruction).symm

/-- A failed put with an instruction object changes nothing, unless it is its second write that
fails. Then its own key is read as the new body under the instruction object that was there before,
or as not encrypted if there was none. All other keys are read as before, except for an object
without an envelope whose instruction object the put has overwritten: it is read under what the new
body says. -/
theorem get_of_failed_put (store : ObjectStore σ) (hreplacing : store.Replacing) (client : Client)
    (hplacement : client.placement = .instructionFile) (facility : Facility) (state : σ)
    (key : String) (plaintext : Bytes) (description : Description) (error : ClientError)
    (next : Facility) (written : σ)
    (hput : client.put store key plaintext description facility state =
      (.error error, next, written)) :
    written = state ∨ ∃ body material reason,
      client.prepare key plaintext description facility =
        (.ok (client.requests key body material), next) ∧
      store.put state ⟨key, .empty, body⟩ = .ok written ∧
      store.put written (.instructionFor key material) =
        .error reason ∧
      error = .store reason ∧
      (∀ (reader : Client) (opened : Facility) (other : String), other ≠ key →
        (other ++ Placement.defaultSuffix = key →
          ∀ object, store.get state other = .ok object → object.hasEnvelope = true) →
        reader.get store opened written other = reader.get store opened state other) ∧
      (∀ (reader : Client) (opened : Facility) (other : String) (object : StoredObject),
        other ++ Placement.defaultSuffix = key → store.get state other = .ok object →
        object.hasEnvelope = false →
        reader.get store opened written other =
          (StoredObject.mk .empty body).instructionMaterial.mapError .envelope >>= fun material ↦
            reader.openWith opened material object.body) ∧
      ∀ (reader : Client) (opened : Facility), reader.get store opened written key =
        match store.get state (key ++ Placement.defaultSuffix) with
        | .ok instruction =>
            instruction.instructionMaterial.mapError .envelope >>= fun previous ↦
              reader.openWith opened previous body
        | .error (.notFound _) => .error (.notEncrypted key)
        | .error failure => .error (.store failure) := by
  cases put_eq_error_cases hplacement hput with
  | inl hsame => exact .inl hsame
  | inr hsecond =>
      obtain ⟨body, material, reason, hprepare, hfirst, hfailed, herror⟩ := hsecond
      obtain ⟨hsame, hframe⟩ := hreplacing state ⟨key, .empty, body⟩ written hfirst
      have hobject : store.get written key = .ok ⟨.empty, body⟩ := hsame
      refine .inr ⟨body, material, reason, hprepare, hfirst, hfailed, herror, ?_, ?_, ?_⟩
      · intro reader opened other hother henvelope
        exact get_of_put_other hreplacing hfirst hother henvelope
      · intro reader opened other object hinstruction hfound hbare
        have hother : other ≠ key := by
          rw [← hinstruction]
          exact Ne.symm (Placement.append_suffix_ne other)
        rw [get_of_bare ((hframe other hother).trans hfound) hbare, hinstruction, hobject]
      · intro reader opened
        rw [← hframe _ (Placement.append_suffix_ne key)]
        exact get_of_bare hobject rfl

end Client

/-! ## A store that refuses one key -/

namespace MemoryStore

/-- The store in memory, but that it takes no request for one key. -/
def refusing (refused : String) : ObjectStore MemoryStore where
  get := store.get
  put objects request :=
    if request.key = refused then .error (.backend refused "refused")
    else store.put objects request

theorem replacing_refusing (refused : String) : (refusing refused).Replacing := by
  intro objects request next hput
  unfold refusing at hput
  dsimp only at hput
  split at hput
  next => cases hput
  next => exact replacing_store objects request next hput

/-- If the instruction object is refused, a put with one fails and leaves the bare body. -/
theorem put_refusing {masterKey plaintext : Bytes} (party : Party)
    (hplacement : party.placement = .instructionFile)
    (hmaster : masterKey.length = Aes.keyLength) (hfits : party.scheme.Fits plaintext)
    (key : String) (description : Description) {facility : Facility} (hopen : facility.isOpen)
    (objects : MemoryStore) :
    ∃ body next, (party.client masterKey).put (refusing (key ++ Placement.defaultSuffix)) key
        plaintext description facility objects =
      (.error (.store (.backend (key ++ Placement.defaultSuffix) "refused")), next,
        objects.insert key ⟨.empty, body⟩) := by
  obtain ⟨requests, next, hprepare, -⟩ :=
    Party.exists_prepare_eq_ok hmaster hopen hfits key description
  obtain ⟨contentKey, material, body, -, -, hrequests⟩ := Party.sealed_of_prepare hprepare
  have hpair : requests = [⟨key, .empty, body⟩, .instructionFor key material] :=
    hrequests.trans (Client.requests_of_instructionFile hplacement key body material)
  refine ⟨body, next, ?_⟩
  rw [Client.put_of_prepare_ok hprepare, hpair]
  have hne : key ≠ key ++ Placement.defaultSuffix := Ne.symm (Placement.append_suffix_ne key)
  have hwrites : (refusing (key ++ Placement.defaultSuffix)).putAll objects [⟨key, .empty, body⟩,
      .instructionFor key material] =
      (.error (.backend (key ++ Placement.defaultSuffix) "refused"),
        objects.insert key ⟨.empty, body⟩) := by
    simp only [ObjectStore.putAll, refusing, PutRequest.key_instructionFor, if_neg hne, ↓reduceIte]
    rfl
  rw [hwrites]
  rfl

end MemoryStore

namespace Client

open MemoryStore (refusing)

/-- A store in memory that refuses the instruction object of the report. -/
def exampleStore : ObjectStore MemoryStore := refusing ("report" ++ Placement.defaultSuffix)

/-- A client with a placement. -/
def exampleClient (placement : Placement) : Client :=
  Party.client ⟨.aesWrap, .gcm, placement⟩ (Bytes.zeros 32)

/-- A failed put on an empty store leaves an object that is not encrypted. -/
theorem get_of_failed_put_example :
    ∃ error next written,
      (exampleClient .instructionFile).put exampleStore "report" [2] .empty exampleFacility .empty =
        (.error error, next, written) ∧
      (exampleClient .instructionFile).get exampleStore exampleFacility written "report" =
        .error (.notEncrypted "report") := by
  have hmaster : (Bytes.zeros 32).length = Aes.keyLength := rfl
  have hfits : Scheme.gcm.Fits [2] := show 1 ≤ Gcm.maxMessage by decide
  obtain ⟨body, next, hput⟩ := MemoryStore.put_refusing ⟨.aesWrap, .gcm, .instructionFile⟩ rfl
    hmaster hfits "report" .empty (show exampleFacility.isOpen from rfl) .empty
  refine ⟨_, next, _, hput, ?_⟩
  have hreplacing : exampleStore.Replacing := MemoryStore.replacing_refusing _
  cases get_of_failed_put exampleStore hreplacing (exampleClient .instructionFile) rfl _ _ _ _ _ _
    _ _ hput with
  | inl hsame =>
      have hnone := congrArg (TextMap.get? · "report") hsame
      simp at hnone
  | inr hbare =>
      obtain ⟨_, _, _, _, _, _, _, _, _, hget⟩ := hbare
      exact hget _ _

/-- Before a put that fails, the plaintext of an earlier put is read; after it nothing is. -/
theorem get_of_failed_put_counterexample :
    exampleStore.Replacing ∧ ∃ first before error second after,
      (exampleClient .objectMetadata).put exampleStore "report" [1] .empty exampleFacility .empty =
        (.ok (), first, before) ∧
      (exampleClient .instructionFile).put exampleStore "report" [2] .empty first before =
        (.error error, second, after) ∧
      (exampleClient .instructionFile).get exampleStore exampleFacility before "report" =
        .ok [1] ∧
      (exampleClient .instructionFile).get exampleStore exampleFacility after "report" =
        .error (.notEncrypted "report") := by
  have hreplacing : exampleStore.Replacing := MemoryStore.replacing_refusing _
  have hmaster : (Bytes.zeros 32).length = Aes.keyLength := rfl
  have hfits : ∀ byte, Scheme.gcm.Fits [byte] := fun _ ↦ show 1 ≤ Gcm.maxMessage by decide
  obtain ⟨requests, first, hprepare, hfirst⟩ := Party.exists_prepare_eq_ok hmaster
    (show exampleFacility.isOpen from rfl)
    (show (Party.mk .aesWrap .gcm .objectMetadata).scheme.Fits [1] from hfits 1) "report" .empty
  obtain ⟨contentKey, material, body, hsealed, -, hrequests⟩ := Party.sealed_of_prepare hprepare
  -- The first put leaves one object with its envelope, the second a bare body in its place.
  have hwrites : exampleStore.putAll .empty requests = (.ok (), TextMap.empty.insert "report"
      ((PutRequest.mk "report" .empty body).withEnvelope material).object) := by
    rw [hrequests]
    rfl
  obtain ⟨bare, second, hsecond⟩ := MemoryStore.put_refusing ⟨.aesWrap, .gcm, .instructionFile⟩ rfl
    hmaster (hfits 2) "report" .empty hfirst (TextMap.empty.insert "report"
      ((PutRequest.mk "report" .empty body).withEnvelope material).object)
  refine ⟨hreplacing, first, _, _, second, _, put_eq_ok_iff.mpr ⟨requests, hprepare, hwrites⟩,
    hsecond, ?_, ?_⟩
  · have hholds := holds_of_putAll hreplacing hsealed (hrequests ▸ hwrites)
    exact hholds.get_eq ⟨.aesWrap, .gcm, .instructionFile⟩ rfl
  · have hsuffix : "report" ++ Placement.defaultSuffix ≠ "report" :=
      Placement.append_suffix_ne "report"
    have hget : exampleStore.get = MemoryStore.store.get := rfl
    refine get_of_bare_alone (by rw [hget, MemoryStore.get_insert_self]) ?_
    rw [hget, MemoryStore.get_insert_of_ne _ _ hsuffix, MemoryStore.get_insert_of_ne _ _ hsuffix]
    rfl

end Client

end SealedStore
