import SealedStore.Envelope.Placement
import SealedStore.Proofs.Envelope.Headers

/-!
# Material reads back from either placement

A request with an envelope in its metadata makes an object with an envelope, and one without does
not; an instruction object gives the material that it was made from
(`instructionMaterial_instruction`).
-/

namespace SealedStore

variable {material : Material}

theorem StoredObject.hasEnvelope_iff {object : StoredObject} :
    object.hasEnvelope ↔ object.metadata.get? Header.contentKey.name ≠ none :=
  Option.isSome_iff_ne_none

theorem StoredObject.hasEnvelope_eq_false_iff {object : StoredObject} :
    object.hasEnvelope = false ↔ object.metadata.get? Header.contentKey.name = none := by
  rw [hasEnvelope, TextMap.contains, Option.isSome_eq_false_iff, Option.isNone_iff_eq_none]

@[simp] theorem PutRequest.hasEnvelope_withEnvelope (request : PutRequest) (material : Material) :
    (request.withEnvelope material).object.hasEnvelope = true := by
  show ((request.metadata.insertAll material.headers).get? Header.contentKey.name).isSome = true
  rw [TextMap.get?_insertAll, material.get?_headers]
  rfl

/-- An object without metadata has no envelope there. -/
@[simp] theorem StoredObject.hasEnvelope_empty (body : Bytes) :
    hasEnvelope ⟨.empty, body⟩ = false :=
  rfl

theorem PutRequest.metadataMaterial_withEnvelope (request : PutRequest) (hvalid : material.Valid) :
    (request.withEnvelope material).object.metadataMaterial = .ok material :=
  Headers.material_insertAll_headers hvalid

/-- An instruction object is read as the material that it was made from. -/
theorem PutRequest.instructionMaterial_instruction (request : PutRequest) (suffix : String)
    (hvalid : material.Valid) :
    (request.instruction suffix material).object.instructionMaterial = .ok material := by
  have hread : Headers.parseMap (JsonObject.render material.headers) >>= Headers.material =
      .ok material := by
    rw [Headers.parseMap_render]
    exact Headers.material_headers hvalid
  unfold StoredObject.instructionMaterial
  rw [show (request.instruction suffix material).object.body =
    Utf8.encode (JsonObject.render material.headers) from rfl, Utf8.decode_encode]
  dsimp only
  rw [hread]

/-- Whatever the body of an instruction object is read as is valid. -/
theorem StoredObject.valid_of_instructionMaterial {object : StoredObject}
    (hmaterial : object.instructionMaterial = .ok material) : material.Valid := by
  unfold instructionMaterial at hmaterial
  split at hmaterial
  next => cases hmaterial
  next =>
    split at hmaterial
    next => cases hmaterial
    next hread =>
      cases hmaterial
      obtain ⟨headers, -, hheaders⟩ := Outcome.bind_eq_ok_iff.mp hread
      exact Headers.valid_of_material hheaders

end SealedStore
