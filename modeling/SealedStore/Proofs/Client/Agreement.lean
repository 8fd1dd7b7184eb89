import SealedStore.Proofs.Client.Party
import SealedStore.Proofs.Envelope.Exact

/-!
# What a read does not depend on

A reader under a local provider looks at the body of an object, at its six headers, and without an
envelope there at the body of the instruction object. Read `get_of_same_envelope` first: where two
stores agree on these, two readers over one master key get the same answer from them, be it a
plaintext or a failure. How the readers would write themselves does not matter, nor does anything
else in the stores.
-/

namespace SealedStore

/-! ## What comes from the facility and the provider -/

namespace Facility

variable {facility other : Facility}

/-- Sessions depend on the facility only in that it is open. -/
theorem contentSession_congr (hopen : facility.isOpen = other.isOpen) (scheme : Scheme)
    (key iv tag : Bytes) :
    facility.contentSession scheme key iv tag = other.contentSession scheme key iv tag := by
  rw [contentSession, contentSession, hopen]

theorem wrapSession_congr (hopen : facility.isOpen = other.isOpen) (key : Bytes) :
    facility.wrapSession key = other.wrapSession key := by
  rw [wrapSession, wrapSession, hopen]

end Facility

/-- Unwrapping depends on the master key. It goes by the algorithm that was recorded, and not by the
one that the provider itself wraps by. -/
theorem LocalKeys.unwrap_congr {keys other : LocalKeys} {facility opened : Facility}
    (hmaster : keys.masterKey = other.masterKey) (hopen : facility.isOpen = opened.isOpen)
    (wrapped : Bytes) (algorithm : WrapAlgorithm) :
    keys.unwrap facility wrapped algorithm = other.unwrap opened wrapped algorithm := by
  simp only [unwrap, unwrapKeyWrap, unwrapGcm, hmaster, Facility.wrapSession_congr hopen,
    Facility.contentSession_congr hopen]

/-! ## What comes from the store -/

namespace StoredObject

variable {left right : StoredObject}

/-- The bodies are the same, and so is each header of an envelope, be it there or not. -/
structure SameEnvelope (left right : StoredObject) : Prop where
  body_eq : left.body = right.body
  get?_eq : ∀ header : Header,
    left.metadata.get? header.name = right.metadata.get? header.name

theorem SameEnvelope.hasEnvelope_eq (hsame : left.SameEnvelope right) :
    left.hasEnvelope = right.hasEnvelope := by
  rw [hasEnvelope, hasEnvelope, TextMap.contains, TextMap.contains, hsame.get?_eq]

theorem SameEnvelope.metadataMaterial_eq (hsame : left.SameEnvelope right) :
    left.metadataMaterial = right.metadataMaterial :=
  Headers.material_congr hsame.get?_eq

/-- Of an instruction object only the body is read. -/
theorem instructionMaterial_congr (hbody : left.body = right.body) :
    left.instructionMaterial = right.instructionMaterial := by
  rw [instructionMaterial, instructionMaterial, hbody]

end StoredObject

/-- Two answers for an object: objects with the same envelope and body, or the same failure. -/
inductive SameObject :
    Except StoreError StoredObject → Except StoreError StoredObject → Prop
  | found {left right : StoredObject} (hsame : left.SameEnvelope right) :
      SameObject (.ok left) (.ok right)
  | failed (error : StoreError) : SameObject (.error error) (.error error)

/-- Two answers for an instruction object: objects with the same body, none on either side, or the
same failure. -/
inductive SameInstruction :
    Except StoreError StoredObject → Except StoreError StoredObject → Prop
  | found {left right : StoredObject} (hbody : left.body = right.body) :
      SameInstruction (.ok left) (.ok right)
  | absent (left right : String) :
      SameInstruction (.error (.notFound left)) (.error (.notFound right))
  | failed (error : StoreError) : SameInstruction (.error error) (.error error)

namespace Client

variable {σ τ : Type} {store : ObjectStore σ} {other : ObjectStore τ} {state : σ} {others : τ}
  {key : String} {left right : StoredObject} {facility opened : Facility}

/-- The material depends on the headers of the object, and without an envelope among them on the
body of the instruction object. -/
theorem findMaterial_of_sameEnvelope (hsame : left.SameEnvelope right)
    (hinstruction : left.hasEnvelope = false →
      SameInstruction (store.get state (key ++ Placement.defaultSuffix))
        (other.get others (key ++ Placement.defaultSuffix))) :
    findMaterial store state key left = findMaterial other others key right := by
  unfold findMaterial
  rw [← hsame.hasEnvelope_eq, ← hsame.metadataMaterial_eq]
  cases henvelope : left.hasEnvelope with
  | true => rfl
  | false =>
      have hanswers := hinstruction henvelope
      generalize store.get state (key ++ Placement.defaultSuffix) = answer at hanswers ⊢
      generalize other.get others (key ++ Placement.defaultSuffix) = otherAnswer at hanswers ⊢
      cases hanswers with
      | found hbody => simp only [StoredObject.instructionMaterial_congr hbody]
      | absent => rfl
      | failed => rfl

theorem openBody_congr (hopen : facility.isOpen = opened.isOpen) (material : Material)
    (contentKey body : Bytes) :
    openBody facility material contentKey body = openBody opened material contentKey body := by
  simp only [openBody, Facility.contentSession_congr hopen]

/-- Two readers over one master key open a body alike. -/
theorem openWith_of_masterKey {keys others : LocalKeys} (hmaster : keys.masterKey = others.masterKey)
    (hopen : facility.isOpen = opened.isOpen) (scheme otherScheme : Scheme)
    (placement otherPlacement : Placement) (material : Material) (body : Bytes) :
    openWith ⟨keys.provider, scheme, placement⟩ facility material body =
      openWith ⟨others.provider, otherScheme, otherPlacement⟩ opened material body := by
  simp only [openWith, LocalKeys.provider, LocalKeys.unwrap_congr hmaster hopen,
    openBody_congr hopen]

/-- Two readers under local providers over the same master key, each with an algorithm, a scheme and
a placement of its own, get the same answer from two stores, provided the facility is open for both
or for neither, the stores answer for the object with the same body and the same envelope headers
(or with the same failure, as when both lack it), and, if there is no envelope among these headers,
they answer for the instruction object with the same body (or both lack it, or fail alike). -/
theorem get_of_same_envelope (keys otherKeys : LocalKeys)
    (hmaster : keys.masterKey = otherKeys.masterKey) (scheme otherScheme : Scheme)
    (placement otherPlacement : Placement) (facility opened : Facility)
    (hopen : facility.isOpen = opened.isOpen) (store : ObjectStore σ) (other : ObjectStore τ)
    (state : σ) (others : τ) (key : String)
    (hobject : SameObject (store.get state key) (other.get others key))
    (hinstruction : ∀ object, store.get state key = .ok object → object.hasEnvelope = false →
      SameInstruction (store.get state (key ++ Placement.defaultSuffix))
        (other.get others (key ++ Placement.defaultSuffix))) :
    Client.get ⟨keys.provider, scheme, placement⟩ store facility state key =
      Client.get ⟨otherKeys.provider, otherScheme, otherPlacement⟩ other opened others key := by
  cases hleft : store.get state key with
  | error error =>
      rw [hleft] at hobject
      generalize hright : other.get others key = answer at hobject
      cases hobject
      rw [get, get, hleft, hright]
      rfl
  | ok left =>
      rw [hleft] at hobject
      generalize hright : other.get others key = answer at hobject
      cases hobject with
      | @found _ right hsame =>
          rw [get_of_object hleft, get_of_object hright,
            findMaterial_of_sameEnvelope hsame (hinstruction left hleft), hsame.body_eq]
          simp only [openWith_of_masterKey hmaster hopen scheme otherScheme placement
            otherPlacement]

/-- What was put with an instruction object is read by a client that would write otherwise, from a
store where the instruction object has lost its marker, the object has a foreign header, and a
letter lies beside it. -/
theorem get_of_same_envelope_disguised :
    ∃ body instruction next,
      (Party.client ⟨.aesGcm, .ctr, .instructionFile⟩ (Bytes.zeros 32)).put MemoryStore.store
          "report" [1] .empty exampleFacility .empty =
        (.ok (), next, (TextMap.empty.insert "report" ⟨.empty, body⟩).insert "report.instruction"
          ⟨TextMap.empty.insert Placement.markerName Placement.markerValue, instruction⟩) ∧
      (Party.client ⟨.aesWrap, .cbc, .objectMetadata⟩ (Bytes.zeros 32)).get MemoryStore.store
          exampleFacility (((TextMap.empty.insert "letter" ⟨.empty, [9]⟩).insert "report"
            ⟨TextMap.empty.insert "color" "blue", body⟩).insert "report.instruction"
              ⟨.empty, instruction⟩) "report" = .ok [1] := by
  obtain ⟨requests, next, hprepare, -⟩ := @Party.exists_prepare_eq_ok
    ⟨.aesGcm, .ctr, .instructionFile⟩ (Bytes.zeros 32) [1] exampleFacility rfl rfl
    (by show Ctr.blockCount [1] ≤ Ctr.maxBlocks; decide) "report" .empty
  obtain ⟨contentKey, material, body, hsealed, -, hrequests⟩ := Party.sealed_of_prepare hprepare
  have hput : MemoryStore.store.putAll .empty requests = (.ok (),
      (TextMap.empty.insert "report" ⟨.empty, body⟩).insert "report.instruction"
        ⟨TextMap.empty.insert Placement.markerName Placement.markerValue,
          Utf8.encode (JsonObject.render material.headers)⟩) := by
    rw [hrequests]
    rfl
  have hread := (holds_of_putAll MemoryStore.replacing_store hsealed (hrequests ▸ hput)).get_eq
    ⟨.aesGcm, .ctr, .instructionFile⟩ (show exampleFacility.isOpen from rfl)
  refine ⟨body, _, next, put_eq_ok_iff.mpr ⟨requests, hprepare, hput⟩, ?_⟩
  rw [← hread]
  refine (get_of_same_envelope ⟨Bytes.zeros 32, .aesGcm⟩ ⟨Bytes.zeros 32, .aesWrap⟩ rfl .ctr .cbc
    .instructionFile .objectMetadata exampleFacility exampleFacility rfl MemoryStore.store
    MemoryStore.store _ _ "report" ?_ fun _ _ _ ↦ ?_).symm
  · exact .found ⟨rfl, fun header ↦ by cases header <;> rfl⟩
  · exact .found rfl

end Client

end SealedStore
