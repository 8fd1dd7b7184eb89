import SealedStore.Facility.Seeded
import SealedStore.Keys.Remote
import SealedStore.Proofs.Envelope.Headers

/-!
# Keys wrapped by a service are bound to their description

What a service does is described by an account of what it has issued: it decrypts what is on the
account, under the key and in the context of the issue, and it does not issue the same bytes under
another key or in another context. Read `wrap_binds_description` first: a remote provider over such
a service unwraps what was wrapped with the description that was recorded, after that description
went through the headers of an envelope, and with no other description and under no other key.
-/

namespace SealedStore

namespace KeyService

/-- An answer to a wish to encrypt: these bytes, for that plaintext under a key and in a context. -/
structure Issue where
  keyId : String
  plaintext : Bytes
  context : Description
  ciphertext : Bytes

/-- Whatever the service answers to a wish to encrypt is on the account. -/
def Records (service : KeyService) (issued : Issue → Prop) : Prop :=
  ∀ keyId plaintext context ciphertext,
    service.encrypt keyId plaintext context = .ok (some ciphertext) →
      issued ⟨keyId, plaintext, context, ciphertext⟩

/-- The service decrypts what is on the account, under the same key and in an equal context, and
nothing else. -/
def Decrypts (service : KeyService) (issued : Issue → Prop) : Prop :=
  ∀ keyId plaintext context ciphertext,
    service.decrypt keyId ciphertext context = .ok (some plaintext) ↔
      issued ⟨keyId, plaintext, context, ciphertext⟩

/-- Under different keys or in different contexts, different bytes are issued, unless there are none.
-/
def Separates (issued : Issue → Prop) : Prop :=
  ∀ left right, issued left → issued right → left.ciphertext = right.ciphertext →
    left.ciphertext ≠ [] → left.keyId = right.keyId ∧ left.context = right.context

end KeyService

namespace RemoteKeys

variable {keys reader : RemoteKeys} {facility next opened : Facility} {contentKey bytes : Bytes}
  {description presented : Description} {wrapped : WrappedKey}
  {issued : KeyService.Issue → Prop}

/-- Wrapping is a wish to encrypt in the context of the description that is recorded. The facility
has no part in it. -/
theorem wrap_eq_ok_iff :
    keys.provider.wrap contentKey description facility = (.ok wrapped, next) ↔
      facility = next ∧ ∃ bytes,
        keys.service.encrypt keys.keyId contentKey (keys.recordedDescription description) =
          .ok (some bytes) ∧
        wrapped = ⟨.kms, bytes, keys.recordedDescription description⟩ := by
  show (liftExcept ((keys.wrap contentKey description).mapError KeyError.service) :
    Action KeyError WrappedKey) facility = _ ↔ _
  rw [Action.liftExcept_eq_ok_iff, Outcome.mapError_eq_ok_iff, and_comm, wrap]
  refine and_congr_right fun _ ↦ ?_
  rcases keys.service.encrypt keys.keyId contentKey (keys.recordedDescription description) with
    reason | _ | bytes
  · simp
  · simp
  · simp [eq_comm]

theorem unwrap_kms (keys : RemoteKeys) (opened : Facility) (bytes : Bytes)
    (presented : Description) :
    keys.provider.unwrap opened bytes .kms presented =
      (keys.unwrap bytes presented).mapError .service :=
  rfl

/-- Unwrapping what is recorded with the algorithm of a service is a wish to decrypt, and whatever
becomes of it but a key is a failure of the service. -/
theorem unwrap_kms_cases (reader : RemoteKeys) (opened : Facility) (bytes : Bytes)
    (presented : Description) :
    (∃ contentKey, reader.service.decrypt reader.keyId bytes presented = .ok (some contentKey) ∧
      reader.provider.unwrap opened bytes .kms presented = .ok contentKey) ∨
    ∃ reason, reader.provider.unwrap opened bytes .kms presented = .error (.service reason) := by
  rw [unwrap_kms, unwrap]
  rcases reader.service.decrypt reader.keyId bytes presented with reason | _ | contentKey
  · exact .inr ⟨_, rfl⟩
  · exact .inr ⟨_, rfl⟩
  · exact .inl ⟨contentKey, rfl, rfl⟩

theorem unwrap_of_issued (hdecrypts : reader.service.Decrypts issued)
    (hissued : issued ⟨reader.keyId, contentKey, presented, bytes⟩) :
    reader.provider.unwrap opened bytes .kms presented = .ok contentKey := by
  rw [unwrap_kms, unwrap, (hdecrypts _ _ _ _).mpr hissued]
  rfl

/-- What is on the account under one key and in one context is unwrapped neither under another key
nor in another context. -/
theorem unwrap_of_separates {issue : KeyService.Issue} (hdecrypts : reader.service.Decrypts issued)
    (hseparates : KeyService.Separates issued) (hissued : issued issue)
    (hbytes : issue.ciphertext ≠ [])
    (hother : reader.keyId ≠ issue.keyId ∨ presented ≠ issue.context) :
    ∃ reason, reader.provider.unwrap opened issue.ciphertext .kms presented =
      .error (.service reason) := by
  rcases reader.unwrap_kms_cases opened issue.ciphertext presented with hkey | hfailed
  · obtain ⟨plaintext, hdecrypt, -⟩ := hkey
    obtain ⟨hkeyId, hcontext⟩ :=
      hseparates issue ⟨_, plaintext, _, _⟩ hissued ((hdecrypts _ _ _ _).mp hdecrypt) rfl hbytes
    rcases hother with hne | hne
    · exact absurd hkeyId.symm hne
    · exact absurd hcontext.symm hne
  · exact hfailed

/-- A content key that a remote provider has wrapped to some bytes.

* What is recorded beside the bytes is the description with the name of the key set, whatever stood
  there before.
* In any scheme material is built with the bytes and that description. It reads back from its
  headers written as one text, and with it every provider with the same key of the service
  unwraps the content key.
* A provider with another key, or with any other description, fails as the service does.
* No provider unwraps anything that is recorded with another algorithm. -/
theorem wrap_binds_description (keys : RemoteKeys) (issued : KeyService.Issue → Prop)
    (hrecords : keys.service.Records issued) (hseparates : KeyService.Separates issued)
    (contentKey : Bytes) (description : Description) (facility next : Facility)
    (wrapped : WrappedKey)
    (hwrap : keys.provider.wrap contentKey description facility = (.ok wrapped, next))
    (hbytes : wrapped.bytes ≠ []) :
    wrapped.algorithm = .kms ∧
    wrapped.description = description.insert keyIdName keys.keyId ∧
    (∀ (scheme : Scheme) (iv : Bytes) (bits? : Option Nat), iv.length = scheme.ivLength →
      (scheme.authenticated → bits?.getD tagBits = tagBits) →
      ∃ material, Draft.build ⟨scheme, wrapped.algorithm, wrapped.bytes, iv, bits?,
          wrapped.description⟩ = .ok material ∧
        Headers.parseMap (JsonObject.render material.headers) >>= Headers.material =
          .ok material ∧
        ∀ (reader : RemoteKeys) (opened : Facility), reader.service.Decrypts issued →
          reader.keyId = keys.keyId →
          reader.provider.unwrap opened material.wrappedKey material.wrapAlgorithm
            material.description = .ok contentKey) ∧
    (∀ (reader : RemoteKeys) (opened : Facility) (presented : Description),
      reader.service.Decrypts issued →
      (reader.keyId ≠ keys.keyId ∨ presented ≠ wrapped.description) →
      ∃ reason, reader.provider.unwrap opened wrapped.bytes wrapped.algorithm presented =
        .error (.service reason)) ∧
    ∀ (reader : RemoteKeys) (opened : Facility) (bytes : Bytes) (algorithm : WrapAlgorithm)
      (presented : Description), algorithm ≠ .kms →
      reader.provider.unwrap opened bytes algorithm presented =
        .error (.unsupportedAlgorithm algorithm) := by
  obtain ⟨-, bytes, hencrypt, rfl⟩ := wrap_eq_ok_iff.mp hwrap
  have hissued := hrecords _ _ _ _ hencrypt
  refine ⟨rfl, rfl, fun scheme iv bits? hiv hbits ↦ ?_, fun reader opened presented hdecrypts hne ↦
    unwrap_of_separates hdecrypts hseparates hissued hbytes hne,
    fun reader opened bytes algorithm presented halgorithm ↦ if_neg halgorithm⟩
  have hvalid : (⟨bytes, iv, scheme, .kms, scheme.tagBits?,
      keys.recordedDescription description⟩ : Material).Valid := ⟨hbytes, hiv, rfl⟩
  refine ⟨_, Draft.build_eq_ok_iff.mpr ⟨hvalid, hbits, rfl⟩, ?_, ?_⟩
  · rw [Headers.parseMap_render]
    exact Headers.material_headers hvalid
  · intro reader opened hdecrypts hkeyId
    refine unwrap_of_issued hdecrypts ?_
    rw [hkeyId]
    exact hissued

end RemoteKeys

/-! ## A service without secrets -/

namespace KeyService

/-- All that a wish to encrypt says. -/
def wish (keyId : String) (plaintext : Bytes) (context : Description) : TextMap String :=
  ((TextMap.empty.insert "context" (JsonObject.render context)).insert "key" keyId).insert
    "plaintext" (Base64.encode plaintext)

/-- A wish to encrypt in plain text. -/
def transcript (keyId : String) (plaintext : Bytes) (context : Description) : Bytes :=
  Utf8.encode (JsonObject.render (wish keyId plaintext context))

/-- The plaintext that a transcript tells. -/
def plaintext? (ciphertext : Bytes) : Option Bytes := do
  let text ← (Utf8.decode ciphertext).toOption
  let entries ← JsonObject.parse? text
  let encoded ← entries.get? "plaintext"
  (Base64.decodeBytes (Utf8.encode encoded)).toOption

/-- A service that answers a wish to encrypt with its transcript, and decrypts only what would be
the transcript under the same key and in the same context. -/
def transparent : KeyService where
  encrypt keyId plaintext context := .ok (some (transcript keyId plaintext context))
  decrypt keyId ciphertext context :=
    match plaintext? ciphertext with
    | some plaintext =>
        if transcript keyId plaintext context = ciphertext then .ok (some plaintext)
        else .error "the key or the context does not match"
    | none => .error "the ciphertext is invalid"

/-- The account of the transparent service has all transcripts. -/
def transcribed (issue : Issue) : Prop :=
  transcript issue.keyId issue.plaintext issue.context = issue.ciphertext

theorem plaintext?_transcript (keyId : String) (plaintext : Bytes) (context : Description) :
    plaintext? (transcript keyId plaintext context) = some plaintext := by
  have hentry : (wish keyId plaintext context).get? "plaintext" = some (Base64.encode plaintext) :=
    by simp [wish]
  simp only [plaintext?, transcript, Utf8.decode_encode, Except.toOption, Option.bind_eq_bind,
    Option.bind_some, JsonObject.parse?_render, hentry, Base64.utf8_encode,
    Base64.decodeBytes_encodeBytes]

theorem records_transparent : transparent.Records transcribed :=
  fun _ _ _ _ hencrypt ↦ Option.some.inj (Except.ok.inj hencrypt)

theorem decrypts_transparent : transparent.Decrypts transcribed := by
  intro keyId plaintext context ciphertext
  constructor
  · intro hdecrypt
    simp only [transparent] at hdecrypt
    split at hdecrypt
    next =>
      split at hdecrypt
      next hsame =>
        rw [← Option.some.inj (Except.ok.inj hdecrypt)]
        exact hsame
      next => cases hdecrypt
    next => cases hdecrypt
  · intro hissued
    have hsame : transcript keyId plaintext context = ciphertext := hissued
    simp only [transparent, ← hsame, plaintext?_transcript, ↓reduceIte]

theorem separates_transcribed : Separates transcribed := by
  intro left right hleft hright hsame _
  have hrendered : JsonObject.render (wish left.keyId left.plaintext left.context) =
      JsonObject.render (wish right.keyId right.plaintext right.context) :=
    Utf8.encode_injective (hleft.trans (hsame.trans hright.symm))
  have hwish := congrArg JsonObject.parse? hrendered
  rw [JsonObject.parse?_render, JsonObject.parse?_render, Option.some.injEq] at hwish
  have hkey := congrArg (TextMap.get? · "key") hwish
  have hcontext := congrArg (TextMap.get? · "context") hwish
  simp [wish] at hkey hcontext
  have hparsed := congrArg JsonObject.parse? hcontext
  rw [JsonObject.parse?_render, JsonObject.parse?_render, Option.some.injEq] at hparsed
  exact ⟨hkey, hparsed⟩

end KeyService

namespace RemoteKeys

/-- A description that names another key, and has a quote, a line feed and a character outside the
first plane. -/
def exampleDescription : Description :=
  (TextMap.empty.insert keyIdName "retired").insert "\"" "\n😀"

/-- The transparent service with a key that is in use. -/
def exampleKeys : RemoteKeys := ⟨.transparent, "current"⟩

/-- The name of the key is replaced in the description. With what reads back from the headers the
content key is unwrapped, and with the description as it was before it is not. -/
theorem wrap_binds_description_renamed :
    ∃ wrapped material reason,
      exampleKeys.provider.wrap [1, 2] exampleDescription (.closed (.ofSeed 0)) =
        (.ok wrapped, .closed (.ofSeed 0)) ∧
      wrapped.description.get? keyIdName = some "current" ∧
      Headers.parseMap (JsonObject.render material.headers) >>= Headers.material = .ok material ∧
      exampleKeys.provider.unwrap (.closed (.ofSeed 0)) material.wrappedKey material.wrapAlgorithm
        material.description = .ok [1, 2] ∧
      exampleKeys.provider.unwrap (.closed (.ofSeed 0)) wrapped.bytes wrapped.algorithm
        exampleDescription = .error (.service reason) := by
  have hwrap : exampleKeys.provider.wrap [1, 2] exampleDescription (.closed (.ofSeed 0)) =
      (.ok ⟨.kms, KeyService.transcript "current" [1, 2]
        (exampleKeys.recordedDescription exampleDescription),
        exampleKeys.recordedDescription exampleDescription⟩, .closed (.ofSeed 0)) := rfl
  obtain ⟨-, hdescription, hread, hbound, -⟩ := wrap_binds_description exampleKeys
    KeyService.transcribed KeyService.records_transparent KeyService.separates_transcribed _ _ _ _ _
    hwrap (by decide +kernel)
  obtain ⟨material, -, hmaterial, hunwrap⟩ := hread .gcm (Bytes.zeros 12) none rfl fun _ ↦ rfl
  obtain ⟨reason, hfailed⟩ := hbound exampleKeys (.closed (.ofSeed 0)) exampleDescription
    KeyService.decrypts_transparent (.inr (by decide))
  exact ⟨_, material, reason, hwrap, by decide, hmaterial,
    hunwrap exampleKeys _ KeyService.decrypts_transparent rfl, hfailed⟩

end RemoteKeys

end SealedStore
