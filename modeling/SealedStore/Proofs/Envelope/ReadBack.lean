import SealedStore.Proofs.Envelope.Exact

/-!
# What writing an envelope does to a request

Either placement reads back what it wrote, whatever the request was before. The metadata of a
request keep what the envelope does not set, so a tag length may be left there from another scheme;
an instruction object takes nothing over but the key. Read `reads_back` first.
-/

namespace SealedStore.PutRequest

variable {material : Material}

/-- Under each name stands what the material writes there, or else what stood there before. -/
theorem get?_withEnvelope (request : PutRequest) (material : Material) (name : String) :
    (request.withEnvelope material).metadata.get? name =
      (material.headers.get? name).or (request.metadata.get? name) :=
  TextMap.get?_insertAll request.metadata material.headers name

/-- The marker is all there is in the metadata of an instruction object. -/
theorem entries_instruction (request : PutRequest) (suffix : String) (material : Material) :
    (request.instruction suffix material).metadata.entries =
      [(Placement.markerName, Placement.markerValue)] :=
  rfl

/-- An instruction object is not taken for an encrypted object. -/
theorem hasEnvelope_instruction (request : PutRequest) (suffix : String) (material : Material) :
    (request.instruction suffix material).object.hasEnvelope = false := by
  show (TextMap.contains (TextMap.empty.insert Placement.markerName Placement.markerValue)
    Header.contentKey.name) = false
  decide

/-- What a request is after an envelope was written, whatever it was before.

* With the envelope in its metadata it is read as the material and has an envelope. The key and the
  body are as they were, the headers of the material stand as the material writes them, and all
  other entries of the metadata are as they were.
* As the request for the instruction object it is read as the material and has no envelope in its
  metadata, which are the marker and nothing else. The suffix is appended to the key. -/
theorem reads_back (request : PutRequest) (suffix : String) (hbuilt : material.Built) :
    ((request.withEnvelope material).object.metadataMaterial = .ok material ∧
      (request.withEnvelope material).object.hasEnvelope = true ∧
      (request.withEnvelope material).key = request.key ∧
      (request.withEnvelope material).body = request.body ∧
      (∀ name text, material.headers.get? name = some text →
        (request.withEnvelope material).metadata.get? name = some text) ∧
      ∀ name, material.headers.get? name = none →
        (request.withEnvelope material).metadata.get? name = request.metadata.get? name) ∧
    ((request.instruction suffix material).object.instructionMaterial = .ok material ∧
      (request.instruction suffix material).object.hasEnvelope = false ∧
      (request.instruction suffix material).metadata.entries =
        [(Placement.markerName, Placement.markerValue)] ∧
      (request.instruction suffix material).key = request.key ++ suffix) := by
  have hvalid := Material.built_iff_valid.mp hbuilt
  refine ⟨⟨request.metadataMaterial_withEnvelope hvalid, hasEnvelope_withEnvelope _ _, rfl, rfl,
    fun name text hname ↦ ?_, fun name hname ↦ ?_⟩,
    request.instructionMaterial_instruction suffix hvalid, hasEnvelope_instruction _ _ _,
    entries_instruction _ _ _, rfl⟩
  · rw [get?_withEnvelope, hname, Option.some_or]
  · rw [get?_withEnvelope, hname, Option.none_or]

/-- A request with headers of another envelope, of which the tag length is no number. -/
def staleRequest : PutRequest :=
  ⟨"report", TextMap.ofList [("owner", "alice"), (Header.contentKey.name, "stale"),
    (Header.scheme.name, Scheme.gcm.name), (Header.tagLength.name, "lots")], [1]⟩

/-- Material of a scheme without a tag leaves that tag length where it was, and reads back. -/
theorem reads_back_stale :
    ∃ material : Material, material.Built ∧ material.scheme = .ctr ∧
      (staleRequest.withEnvelope material).metadata.get? Header.tagLength.name = some "lots" ∧
      (staleRequest.withEnvelope material).metadata.get? "owner" = some "alice" ∧
      (staleRequest.withEnvelope material).object.metadataMaterial = .ok material ∧
      (staleRequest.instruction ".env" material).object.instructionMaterial = .ok material := by
  have hbuilt : Material.Built ⟨[1], Bytes.zeros 16, .ctr, .kms, none, .empty⟩ :=
    ⟨.ctr, .kms, [.wrappedKey [1], .iv (Bytes.zeros 16), .tagBits 64], rfl⟩
  obtain ⟨⟨hread, -, -, -, -, hkept⟩, hinstruction, -⟩ := reads_back staleRequest ".env" hbuilt
  refine ⟨_, hbuilt, rfl, ?_, ?_, hread, hinstruction⟩
  · rw [hkept _ (Material.get?_headers _ .tagLength)]
    rfl
  · rw [hkept _ (Material.get?_headers_of_ne _ fun header ↦ by cases header <;> decide)]
    rfl

end SealedStore.PutRequest
