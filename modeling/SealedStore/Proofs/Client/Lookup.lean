import SealedStore.Proofs.Client.Bounds

/-!
# Where a read looks

A read fails for want of an envelope in one case only, and because of the store in two
(`get_lookup`). An envelope in the metadata is all there is: whatever is wrong with it, no other is
looked for. What a read has others do is told as a dialogue with them; the body of the object comes
up in it after the content key only (`Dialogue.KeyFirst`).
-/

namespace SealedStore

/-! ## Reading as a dialogue -/

/-- What a reader has others do. -/
inductive Question where
  /-- The store is asked for an object. -/
  | fetch (key : String)
  /-- The provider is asked for a content key. -/
  | unwrap (wrappedKey : Bytes) (algorithm : WrapAlgorithm) (description : Description)
  /-- A cipher is given a ciphertext and its tag. -/
  | decipher (scheme : Scheme) (contentKey iv tag ciphertext : Bytes)
  deriving DecidableEq

/-- What comes back. -/
abbrev Question.Answer : Question → Type
  | fetch _ => Except StoreError StoredObject
  | unwrap .. => Except KeyError Bytes
  | decipher .. => Except CipherError Bytes

/-- Those who answer every question. -/
abbrev Answers := (question : Question) → question.Answer

/-- One question after another, each depending on the answers so far, and a result. -/
inductive Dialogue where
  | done (result : Except ClientError Bytes)
  | ask (question : Question) (next : question.Answer → Dialogue)

namespace Dialogue

variable {α ε : Type} {answers : Answers} {key : String}
  {before after : List Question} {last : Question}

/-- The result among those who answer like this. -/
def run (answers : Answers) : Dialogue → Except ClientError Bytes
  | done result => result
  | ask question next => run answers (next (answers question))

/-- The questions that they are asked, in order. -/
def asked (answers : Answers) : Dialogue → List Question
  | done _ => []
  | ask question next => question :: asked answers (next (answers question))

/-- The dialogue goes on if nothing has failed. -/
def afterwards (result : Except ClientError α) (next : α → Dialogue) : Dialogue :=
  match result with
  | .ok value => next value
  | .error error => done (.error error)

theorem run_afterwards (result : Except ClientError α) (next : α → Dialogue) :
    run answers (afterwards result next) = result >>= fun value ↦ run answers (next value) := by
  cases result <;> rfl

/-- A dialogue that comes to a question has not failed before. -/
theorem asked_afterwards_eq_iff {result : Except ClientError α} {next : α → Dialogue} :
    asked answers (afterwards result next) = before ++ last :: after ↔
      ∃ value, result = .ok value ∧ asked answers (next value) = before ++ last :: after := by
  cases result with
  | ok value => simp [afterwards]
  | error error => simp [afterwards, asked]

theorem asked_afterwards_mapError_eq_iff {result : Except ε α} {rename : ε → ClientError}
    {next : α → Dialogue} :
    asked answers (afterwards (result.mapError rename) next) = before ++ last :: after ↔
      ∃ value, result = .ok value ∧ asked answers (next value) = before ++ last :: after := by
  simp only [asked_afterwards_eq_iff, Outcome.mapError_eq_ok_iff]

/-- A dialogue that begins with another question comes to one later. -/
theorem asked_ask_eq_iff {question : Question} {next : question.Answer → Dialogue}
    (hother : question ≠ last) :
    asked answers (ask question next) = before ++ last :: after ↔
      ∃ between, before = question :: between ∧
        asked answers (next (answers question)) = between ++ last :: after := by
  rw [asked, List.cons_eq_append_iff]
  constructor
  · rintro (⟨-, hfirst⟩ | hlater)
    · exact absurd (List.cons.inj hfirst).1.symm hother
    · exact hlater
  · exact .inr

/-! ### The dialogue of a read -/

/-- A body is opened. -/
def openBody (body : Bytes) (material : Material) : Dialogue :=
  ask (.unwrap material.wrappedKey material.wrapAlgorithm material.description) fun answer ↦
    afterwards (answer.mapError .keys) fun contentKey ↦
      afterwards (Client.splitBody material body) fun parts ↦
        ask (.decipher material.scheme contentKey material.iv parts.2 parts.1) fun answer ↦
          done (answer.mapError .cipher)

/-- The instruction object is looked at. -/
def readInstruction (key : String) (body : Bytes) (answer : Except StoreError StoredObject) :
    Dialogue :=
  match answer with
  | .ok instruction =>
      afterwards (instruction.instructionMaterial.mapError .envelope) (openBody body)
  | .error (.notFound _) => done (.error (.notEncrypted key))
  | .error error => done (.error (.store error))

/-- An object is read. -/
def read (key : String) : Dialogue :=
  ask (.fetch key) fun answer ↦
    afterwards (answer.mapError .store) fun object ↦
      if object.hasEnvelope then
        afterwards (object.metadataMaterial.mapError .envelope) (openBody object.body)
      else ask (.fetch (key ++ Placement.defaultSuffix)) (readInstruction key object.body)

end Dialogue

/-- How the provider of a client, a store and the ciphers answer. -/
def Client.answers {σ : Type} (client : Client) (store : ObjectStore σ) (facility : Facility)
    (state : σ) : Answers
  | .fetch key => store.get state key
  | .unwrap wrappedKey algorithm description =>
      client.provider.unwrap facility wrappedKey algorithm description
  | .decipher scheme contentKey iv tag ciphertext => do
      let session ← facility.contentSession scheme contentKey iv tag
      (session.process .decrypt ciphertext).1

namespace Dialogue

variable {σ : Type} {client : Client} {store : ObjectStore σ} {facility : Facility} {state : σ}

theorem run_openBody (body : Bytes) (material : Material) :
    run (client.answers store facility state) (openBody body material) =
      client.openWith facility material body := by
  rw [openBody, run, run_afterwards]
  simp only [run_afterwards]
  rfl

theorem run_readInstruction (key : String) (body : Bytes)
    (answer : Except StoreError StoredObject) :
    run (client.answers store facility state) (readInstruction key body answer) =
      match answer with
      | .ok instruction =>
          instruction.instructionMaterial.mapError .envelope >>= fun material ↦
            client.openWith facility material body
      | .error (.notFound _) => .error (.notEncrypted key)
      | .error failure => .error (.store failure) := by
  rcases answer with (_ | _) | instruction
  · rfl
  · rfl
  · simp only [readInstruction, run_afterwards, run_openBody]

/-- The dialogue comes to what the client gets. -/
theorem run_read (key : String) :
    run (client.answers store facility state) (read key) = client.get store facility state key := by
  rw [read, run, run_afterwards]
  cases hobject : store.get state key with
  | error error =>
      rw [Client.get, hobject, Client.answers, hobject]
      rfl
  | ok object =>
      rw [Client.answers, hobject]
      cases henvelope : object.hasEnvelope with
      | true =>
          rw [Client.get_of_envelope hobject henvelope]
          show run _ (if object.hasEnvelope then _ else _) = _
          rw [if_pos henvelope, run_afterwards]
          simp only [run_openBody]
      | false =>
          rw [Client.get_of_bare hobject henvelope]
          show run _ (if object.hasEnvelope then _ else _) = _
          rw [if_neg (by rw [henvelope]; exact Bool.false_ne_true), run, run_readInstruction]
          rfl

/-! ### What is asked, and when -/

variable {material : Material} {object : StoredObject} {body contentKey iv tag ciphertext : Bytes}
  {scheme : Scheme}

theorem asked_openBody (hvalid : material.Valid)
    (hasked : asked answers (openBody body material) =
      before ++ .decipher scheme contentKey iv tag ciphertext :: after) :
    .unwrap material.wrappedKey material.wrapAlgorithm material.description ∈ before ∧
    answers (.unwrap material.wrappedKey material.wrapAlgorithm material.description) =
      .ok contentKey ∧
    scheme = material.scheme ∧ iv = material.iv ∧ body = ciphertext ++ tag := by
  obtain ⟨between, rfl, hopened⟩ := (asked_ask_eq_iff (by simp)).mp hasked
  obtain ⟨unwrapped, hunwrap, hopened⟩ := asked_afterwards_mapError_eq_iff.mp hopened
  obtain ⟨parts, hsplit, hopened⟩ := asked_afterwards_eq_iff.mp hopened
  rw [asked, asked, List.cons_eq_append_iff] at hopened
  obtain ⟨rfl, hlast⟩ | ⟨_, -, hnone⟩ := hopened
  · cases hlast
    exact ⟨List.mem_singleton_self _, hunwrap, rfl, rfl,
      ((Client.splitBody_eq_ok_iff hvalid).mp hsplit).1⟩
  · simp at hnone

/-- A cipher is given the body of an object only after the provider has unwrapped the content key of
its envelope, and it is given it under that key. -/
def KeyFirst (answers : Answers) (key : String) : Prop :=
  ∀ before after scheme contentKey iv tag ciphertext,
    asked answers (read key) = before ++ .decipher scheme contentKey iv tag ciphertext :: after →
      ∃ object material,
        answers (.fetch key) = .ok object ∧
        (if object.hasEnvelope then object.metadataMaterial = .ok material
          else ∃ instruction, answers (.fetch (key ++ Placement.defaultSuffix)) = .ok instruction ∧
            instruction.instructionMaterial = .ok material) ∧
        .unwrap material.wrappedKey material.wrapAlgorithm material.description ∈ before ∧
        answers (.unwrap material.wrappedKey material.wrapAlgorithm material.description) =
          .ok contentKey ∧
        scheme = material.scheme ∧ iv = material.iv ∧ object.body = ciphertext ++ tag

theorem keyFirst (answers : Answers) (key : String) :
    KeyFirst answers key := by
  intro before after scheme contentKey iv tag ciphertext hasked
  obtain ⟨between, rfl, hfetched⟩ := (asked_ask_eq_iff (by simp)).mp hasked
  obtain ⟨object, hobject, hfetched⟩ := asked_afterwards_mapError_eq_iff.mp hfetched
  split at hfetched
  next henvelope =>
    obtain ⟨material, hmaterial, hopened⟩ := asked_afterwards_mapError_eq_iff.mp hfetched
    obtain ⟨hunwrap, hopened⟩ := asked_openBody (Headers.valid_of_material hmaterial) hopened
    exact ⟨object, material, hobject, by rwa [if_pos henvelope], List.mem_cons_of_mem _ hunwrap,
      hopened⟩
  next hbare =>
    obtain ⟨later, rfl, hread⟩ := (asked_ask_eq_iff (by simp)).mp hfetched
    unfold readInstruction at hread
    split at hread
    next instruction hfound =>
      obtain ⟨material, hmaterial, hopened⟩ := asked_afterwards_mapError_eq_iff.mp hread
      obtain ⟨hunwrap, hopened⟩ :=
        asked_openBody (StoredObject.valid_of_instructionMaterial hmaterial) hopened
      refine ⟨object, material, hobject, ?_,
        List.mem_cons_of_mem _ (List.mem_cons_of_mem _ hunwrap), hopened⟩
      rw [if_neg hbare]
      exact ⟨instruction, hfound, hmaterial⟩
    next => simp [asked] at hread
    next => simp [asked] at hread

/-- An envelope in the metadata is the only place that a read looks at. -/
theorem fetch_of_hasEnvelope {other : String} (hobject : answers (.fetch key) = .ok object)
    (henvelope : object.hasEnvelope) (hfetch : .fetch other ∈ asked answers (read key)) :
    other = key := by
  refine Decidable.byContradiction fun hother ↦ ?_
  have hfirst : Question.fetch key ≠ .fetch other := fun hsame ↦ hother (by cases hsame; rfl)
  obtain ⟨before, after, hasked⟩ := List.append_of_mem hfetch
  obtain ⟨between, -, hfetched⟩ := (asked_ask_eq_iff hfirst).mp hasked
  obtain ⟨found, hfound, hread⟩ := asked_afterwards_mapError_eq_iff.mp hfetched
  cases hobject.symm.trans hfound
  rw [if_pos henvelope] at hread
  -- Nothing else is fetched while a body is opened.
  obtain ⟨material, -, hopened⟩ := asked_afterwards_eq_iff.mp hread
  obtain ⟨_, -, hunwrapped⟩ := (asked_ask_eq_iff (by simp)).mp hopened
  obtain ⟨contentKey, -, hkeyed⟩ := asked_afterwards_eq_iff.mp hunwrapped
  obtain ⟨parts, -, hsplit⟩ := asked_afterwards_eq_iff.mp hkeyed
  obtain ⟨_, -, hdone⟩ := (asked_ask_eq_iff (by simp)).mp hsplit
  simp [asked] at hdone

end Dialogue

/-! ## Failures -/

/-- The error is about the store, or about an envelope that is not there. -/
def ClientError.isLookup : ClientError → Bool
  | store _ | notEncrypted _ => true
  | _ => false

namespace Client

variable {σ τ : Type} {client : Client} {store : ObjectStore σ} {facility : Facility} {state : σ}
  {key : String} {material : Material} {body : Bytes} {error : ClientError}

/-- Opening a body does not fail for these reasons. -/
theorem isLookup_of_openWith (hopened : client.openWith facility material body = .error error) :
    error.isLookup = false := by
  rcases Outcome.bind_eq_error_iff.mp hopened with hunwrap | ⟨contentKey, -, hopened⟩
  · obtain ⟨cause, -, rfl⟩ := Outcome.mapError_eq_error_iff.mp hunwrap
    rfl
  rcases Outcome.bind_eq_error_iff.mp hopened with hsplit | ⟨parts, -, hsession⟩
  · obtain ⟨length, tagLength, rfl⟩ := error_of_splitBody hsplit
    rfl
  · obtain ⟨cause, -, rfl⟩ := Outcome.mapError_eq_error_iff.mp hsession
    rfl

/-- Nor does reading an envelope, once it is found. -/
theorem isLookup_of_material {result : Except EnvelopeError Material}
    (hread : (result.mapError .envelope >>= fun material ↦
      client.openWith facility material body) = .error error) : error.isLookup = false := by
  rcases Outcome.bind_eq_error_iff.mp hread with hmaterial | ⟨material, -, hopened⟩
  · obtain ⟨cause, -, rfl⟩ := Outcome.mapError_eq_error_iff.mp hmaterial
    rfl
  · exact isLookup_of_openWith hopened

/-- How looking for an object and its envelope can fail. -/
inductive LookupFailure (store : ObjectStore σ) (state : σ) (key : String) : ClientError → Prop
  /-- The store does not answer for the object. -/
  | object {failure : StoreError} (hobject : store.get state key = .error failure) :
      LookupFailure store state key (.store failure)
  /-- The store breaks down over the instruction object, which has to be looked at. -/
  | instruction {object : StoredObject} {failed reason : String}
      (hobject : store.get state key = .ok object) (hbare : object.hasEnvelope = false)
      (hinstruction : store.get state (key ++ Placement.defaultSuffix) =
        .error (.backend failed reason)) :
      LookupFailure store state key (.store (.backend failed reason))
  /-- There is no instruction object, and there has to be one. -/
  | absent {object : StoredObject} {missing : String}
      (hobject : store.get state key = .ok object) (hbare : object.hasEnvelope = false)
      (hinstruction : store.get state (key ++ Placement.defaultSuffix) =
        .error (.notFound missing)) :
      LookupFailure store state key (.notEncrypted key)

/-- There are no other failures of this kind. -/
theorem get_eq_lookup_error_iff (hlookup : error.isLookup) :
    client.get store facility state key = .error error ↔ LookupFailure store state key error := by
  constructor
  · intro hget
    cases hobject : store.get state key with
    | error failure =>
        rw [get, hobject] at hget
        cases hget
        exact .object hobject
    | ok object =>
        cases henvelope : object.hasEnvelope with
        | true =>
            rw [get_of_envelope hobject henvelope] at hget
            simp [isLookup_of_material hget] at hlookup
        | false =>
            rw [get_of_bare hobject henvelope] at hget
            split at hget
            next instruction hinstruction =>
              simp [isLookup_of_material hget] at hlookup
            next missing hinstruction =>
              cases hget
              exact .absent hobject henvelope hinstruction
            next failure hpresent hinstruction =>
              cases hget
              cases failure with
              | notFound missing => exact absurd rfl (hpresent missing)
              | backend failed reason => exact .instruction hobject henvelope hinstruction
  · intro hfailure
    cases hfailure with
    | object hobject =>
        rw [get, hobject]
        rfl
    | instruction hobject hbare hinstruction => rw [get_of_bare hobject hbare, hinstruction]
    | absent hobject hbare hinstruction => rw [get_of_bare hobject hbare, hinstruction]

/-- Where a read looks, and what it makes of what it finds there.

* An object counts as not encrypted exactly if it is there without the header of a content key, and
  there is no instruction object for it.
* A failure of the store is reported exactly if it is about the object, or about an instruction
  object that has to be looked at and is not just missing.
* An object with the header is read in the same way from all stores that have it, whatever else they
  have. If its metadata is no envelope, that is the failure.
* If the provider does not unwrap the content key, that is the failure, whatever the body is.
* Reading is a dialogue with the store, the provider and the ciphers. An object with the header is
  the only one asked for. A cipher is given the body only after the provider has unwrapped the
  content key of the envelope, and it is given it under that key. -/
theorem get_lookup (client : Client) (store : ObjectStore σ) (facility : Facility) (state : σ)
    (key : String) :
    (∀ other, client.get store facility state key = .error (.notEncrypted other) ↔
      other = key ∧ ∃ object missing, store.get state key = .ok object ∧
        object.metadata.get? Header.contentKey.name = none ∧
        store.get state (key ++ Placement.defaultSuffix) = .error (.notFound missing)) ∧
    (∀ error, client.get store facility state key = .error (.store error) ↔
      store.get state key = .error error ∨
      ∃ object failed reason, store.get state key = .ok object ∧
        object.metadata.get? Header.contentKey.name = none ∧ error = .backend failed reason ∧
        store.get state (key ++ Placement.defaultSuffix) = .error error) ∧
    (∀ object, store.get state key = .ok object →
      object.metadata.get? Header.contentKey.name ≠ none →
        (∀ {τ : Type} (other : ObjectStore τ) (others : τ), other.get others key = .ok object →
          client.get other facility others key = client.get store facility state key) ∧
        ∀ error, object.metadataMaterial = .error error →
          client.get store facility state key = .error (.envelope error)) ∧
    (∀ object material error, store.get state key = .ok object →
      findMaterial store state key object = .ok material →
      client.provider.unwrap facility material.wrappedKey material.wrapAlgorithm
        material.description = .error error →
          client.get store facility state key = .error (.keys error)) ∧
    Dialogue.run (client.answers store facility state) (.read key) =
      client.get store facility state key ∧
    ∀ answers : Answers,
      (∀ object, answers (.fetch key) = .ok object →
        object.metadata.get? Header.contentKey.name ≠ none →
          ∀ other, .fetch other ∈ Dialogue.asked answers (.read key) → other = key) ∧
      Dialogue.KeyFirst answers key := by
  refine ⟨fun other ↦ ?_, fun error ↦ ?_, fun object hobject hheader ↦ ⟨?_, fun error herror ↦ ?_⟩,
    fun object material error hobject hmaterial herror ↦ ?_, Dialogue.run_read key,
    fun answers ↦ ⟨fun object hobject hheader other ↦ ?_, Dialogue.keyFirst answers key⟩⟩
  · rw [get_eq_lookup_error_iff rfl]
    constructor
    · rintro ⟨⟩
      case absent object missing hobject hbare hinstruction =>
        exact ⟨rfl, object, missing, hobject, StoredObject.hasEnvelope_eq_false_iff.mp hbare,
          hinstruction⟩
    · rintro ⟨rfl, object, missing, hobject, hbare, hinstruction⟩
      exact .absent hobject (StoredObject.hasEnvelope_eq_false_iff.mpr hbare) hinstruction
  · rw [get_eq_lookup_error_iff rfl]
    constructor
    · rintro ⟨⟩
      case object hobject => exact .inl hobject
      case instruction object failed reason hobject hbare hinstruction =>
        exact .inr ⟨object, failed, reason, hobject,
          StoredObject.hasEnvelope_eq_false_iff.mp hbare, rfl, hinstruction⟩
    · rintro (hobject | ⟨object, failed, reason, hobject, hbare, rfl, hinstruction⟩)
      · exact .object hobject
      · exact .instruction hobject (StoredObject.hasEnvelope_eq_false_iff.mpr hbare) hinstruction
  · intro τ other others hother
    have henvelope := StoredObject.hasEnvelope_iff.mpr hheader
    rw [get_of_envelope hobject henvelope, get_of_envelope hother henvelope]
  · rw [get_of_envelope hobject (StoredObject.hasEnvelope_iff.mpr hheader), herror]
    rfl
  · rw [get_of_material hobject hmaterial, openWith, herror]
    rfl
  · exact Dialogue.fetch_of_hasEnvelope hobject (StoredObject.hasEnvelope_iff.mpr hheader)

/-- Material that no local provider unwraps. -/
def foreignMaterial : Material := ⟨[1], Bytes.zeros 16, .cbc, .kms, none, .empty⟩

/-- A store with a good instruction object beside each of two bodies: metadata that names no scheme
there is, and no metadata. -/
def exampleLookup : MemoryStore :=
  .ofList [
    ("report", ⟨.ofList [("x-amz-key-v2", "?"), ("x-amz-cek-alg", "AES/OCB/NoPadding")], [2]⟩),
    ("report.instruction", ((PutRequest.mk "report" .empty []).instruction
      Placement.defaultSuffix foreignMaterial).object),
    ("letter", ⟨.empty, [2]⟩),
    ("letter.instruction", ((PutRequest.mk "letter" .empty []).instruction
      Placement.defaultSuffix foreignMaterial).object)]

/-- Those who have any object and key. -/
def obligingAnswers : Answers
  | .fetch _ => .ok ⟨foreignMaterial.headers, [2]⟩
  | .unwrap .. => .ok [7]
  | .decipher .. => .ok []

/-- A good instruction object does not make up for broken metadata, and without metadata it is the
provider that refuses. A cipher is given a body after the answers to two questions. -/
theorem get_lookup_broken :
    get ⟨(LocalKeys.mk (Bytes.zeros 32) .aesGcm).provider, .gcm, .objectMetadata⟩
      MemoryStore.store exampleFacility exampleLookup "report" =
        .error (.envelope (.unknownAlgorithm "AES/OCB/NoPadding")) ∧
    get ⟨(LocalKeys.mk (Bytes.zeros 32) .aesGcm).provider, .gcm, .objectMetadata⟩
      MemoryStore.store exampleFacility exampleLookup "letter" =
        .error (.keys (.unsupportedAlgorithm .kms)) ∧
    Dialogue.asked obligingAnswers (.read "report") =
      [.fetch "report", .unwrap [1] .kms .empty] ++ [.decipher .cbc [7] (Bytes.zeros 16) [] [2]] ∧
    ∃ material : Material,
      Question.unwrap material.wrappedKey material.wrapAlgorithm material.description ∈
        [Question.fetch "report", .unwrap [1] .kms .empty] ∧
      material.scheme = .cbc := by
  have hvalid : foreignMaterial.Valid := ⟨by decide, rfl, rfl⟩
  have hmaterial : findMaterial MemoryStore.store exampleLookup "letter" ⟨.empty, [2]⟩ =
      .ok foreignMaterial :=
    findMaterial_eq_ok_iff.mpr
      ⟨_, rfl, PutRequest.instructionMaterial_instruction _ _ hvalid⟩
  have hasked : Dialogue.asked obligingAnswers (.read "report") =
      [.fetch "report", .unwrap [1] .kms .empty] ++
        [.decipher .cbc [7] (Bytes.zeros 16) [] [2]] := by
    decide +kernel
  refine ⟨?_, ?_, hasked, ?_⟩
  · exact ((get_lookup _ MemoryStore.store _ exampleLookup "report").2.2.1 _ rfl
      (Option.some_ne_none _)).2 _ rfl
  · exact (get_lookup _ MemoryStore.store _ exampleLookup "letter").2.2.2.1 _ _ _ rfl hmaterial rfl
  · obtain ⟨-, material, -, -, hunwrap, -, hscheme, -⟩ := ((get_lookup
      ⟨(LocalKeys.mk (Bytes.zeros 32) .aesGcm).provider, .gcm, .objectMetadata⟩ MemoryStore.store
      exampleFacility exampleLookup "report").2.2.2.2.2 obligingAnswers).2 _ _ _ _ _ _ _ hasked
    exact ⟨material, hunwrap, hscheme.symm⟩

end Client

end SealedStore
