import SealedStore.Envelope.Headers
import SealedStore.Proofs.Outcome
import SealedStore.Proofs.Text.Base64
import SealedStore.Proofs.Text.JsonObject
import SealedStore.Proofs.Text.Utf8

/-!
# Material reads back from its headers

A text is read as a map exactly if it spells the members of that map (`parseMap_exact`). Headers
that have what material writes into them are read as that material, whatever else they have
(`material_of_fields`); for a scheme without a tag this includes a tag length. Conversely, whatever
headers are read as is valid material (`valid_of_material`).
-/

namespace SealedStore

@[simp] theorem Scheme.ofName_name (scheme : Scheme) : ofName scheme.name = .ok scheme := by
  cases scheme <;> rfl

@[simp] theorem WrapAlgorithm.ofName_name (algorithm : WrapAlgorithm) :
    ofName algorithm.name = .ok algorithm := by
  cases algorithm <;> rfl

/-! ## Drafts -/

namespace Draft

/-- A draft becomes valid material that repeats it, but for the tag length. -/
theorem build_eq_ok_iff {draft : Draft} {material : Material} :
    draft.build = .ok material ↔
      material.Valid ∧
      (draft.scheme.authenticated → draft.tagBits?.getD tagBits = tagBits) ∧
      draft = ⟨material.scheme, material.wrapAlgorithm, material.wrappedKey, material.iv,
        draft.tagBits?, material.description⟩ := by
  constructor
  · intro hbuild
    unfold build at hbuild
    split at hbuild
    next => cases hbuild
    next hkey =>
      split at hbuild
      next => cases hbuild
      next hiv =>
        split at hbuild
        next => cases hbuild
        next htag =>
          cases hbuild
          refine ⟨⟨?_, Decidable.not_not.mp hiv, rfl⟩, fun hauthenticated ↦ ?_, rfl⟩
          · rwa [List.isEmpty_iff] at hkey
          · exact Decidable.not_not.mp fun hlength ↦ htag ⟨hauthenticated, hlength⟩
  · intro hrepeated
    obtain ⟨hvalid, hlength, hdraft⟩ := hrepeated
    rw [hdraft] at hlength
    have hkey : ¬ material.wrappedKey.isEmpty := by
      rw [List.isEmpty_iff]
      exact hvalid.wrappedKey_ne_nil
    rw [hdraft, build, if_neg hkey, if_neg (not_not_intro hvalid.length_iv),
      if_neg fun htag ↦ htag.2 (hlength htag.1), ← hvalid.tagBits?_eq]

end Draft

/-! ## The headers that are written -/

/-- The text that material puts into a header. -/
def Material.field? (material : Material) : Header → Option String
  | .contentKey => some (Base64.encode material.wrappedKey)
  | .iv => some (Base64.encode material.iv)
  | .description => some (JsonObject.render material.description)
  | .scheme => some material.scheme.name
  | .wrapAlgorithm => some material.wrapAlgorithm.name
  | .tagLength => material.tagBits?.map Decimal.write

theorem Material.get?_headers (material : Material) (header : Header) :
    material.headers.get? header.name = material.field? header := by
  cases htag : material.tagBits? <;> cases header <;>
    simp [headers, htag, field?, TextMap.ofList, Header.name]

/-- Nothing is written under other names. -/
theorem Material.get?_headers_of_ne (material : Material) {name : String}
    (hname : ∀ header : Header, header.name ≠ name) : material.headers.get? name = none := by
  have hne (header : Header) : name ≠ header.name := (hname header).symm
  cases htag : material.tagBits? <;> simp [headers, htag, TextMap.ofList, hne]

namespace Headers

/-! ## Texts of maps -/

section Texts

open JsonObject (Object lastValue? parse?_eq_some_iff get?_ofList ofList_of_perm)

theorem parseMap_eq_ok_iff {text : String} {map : TextMap String} :
    parseMap text = .ok map ↔
      ∃ members, Object (Blank.trim text).toList members ∧ map = .ofList members := by
  rw [Blank.trim, String.toList_ofList, ← parse?_eq_some_iff, parseMap]
  cases JsonObject.parse? text <;> simp

/-- What is read of a text.

* It is read as a map exactly if it spells an object, the blanks at its ends apart, and each key has
  in the map the value of its last member.
* So whatever spells the entries of a map, in whatever order, is read as that map.
* A text that spells no object is no map, and that is the only failure there is. -/
theorem parseMap_exact (text : String) :
    (∀ map, parseMap text = .ok map ↔
      ∃ members, Object (Blank.trim text).toList members ∧
        ∀ key, map.get? key = lastValue? key members) ∧
    (∀ (map : TextMap String) members, members.Perm map.entries →
      Object (Blank.trim text).toList members → parseMap text = .ok map) ∧
    ∀ error, parseMap text = .error error ↔
      (¬ ∃ members, Object (Blank.trim text).toList members) ∧ error = .malformedMap := by
  refine ⟨fun map ↦ ?_, fun map members hperm hobject ↦ ?_, fun error ↦ ?_⟩
  · rw [parseMap_eq_ok_iff]
    refine exists_congr fun members ↦ and_congr_right fun _ ↦ ?_
    constructor
    · rintro rfl key
      exact get?_ofList key members
    · intro hvalues
      exact TextMap.ext_get? fun key ↦ (hvalues key).trans (get?_ofList key members).symm
  · exact parseMap_eq_ok_iff.mpr ⟨members, hobject, (ofList_of_perm hperm).symm⟩
  · cases hread : parseMap text with
    | ok map =>
        obtain ⟨members, hobject, -⟩ := parseMap_eq_ok_iff.mp hread
        simp only [reduceCtorEq, false_iff, not_and]
        exact fun hnone ↦ absurd ⟨members, hobject⟩ hnone
    | error failure =>
        have hfailure : failure = .malformedMap := by
          unfold parseMap at hread
          split at hread <;> cases hread
          rfl
        have hnone : ¬ ∃ members, Object (Blank.trim text).toList members := by
          rintro ⟨members, hobject⟩
          cases hread.symm.trans (parseMap_eq_ok_iff.mpr ⟨members, hobject, rfl⟩)
        rw [hfailure, Except.error.injEq, eq_comm]
        exact ⟨fun herror ↦ ⟨hnone, herror⟩, fun hboth ↦ hboth.2⟩

-- One key twice, the second time and its value by escapes, and blanks of both kinds.
example :
    (parseMap "\u00a0\x7b\t\"a\" : \"\" ,\"\\u0061\":\"\\uD83d\\ude00\"\n\x7d").toOption =
      some (TextMap.empty.insert "a" "😀") := by
  decide +kernel

@[simp] theorem parseMap_render (map : TextMap String) :
    parseMap (JsonObject.render map) = .ok map := by
  rw [parseMap, JsonObject.parse?_render]

end Texts

/-! ## Single headers -/

variable {headers : Headers} {material : Material}

theorem required_of_get? {header : Header} {text : String}
    (htext : headers.get? header.name = some text) : headers.required header = .ok text := by
  rw [required, htext]

theorem bytes_of_get? {header : Header} {bytes : Bytes}
    (htext : headers.get? header.name = some (Base64.encode bytes)) :
    headers.bytes header = .ok bytes := by
  simp only [Headers.bytes, Outcome.bind_eq_ok_iff]
  exact ⟨_, required_of_get? htext, by rw [Base64.decodeBytes_encode]⟩

/-- The tag length that is read is none, or it is the one that the scheme has. -/
theorem tagBits?_of_fields (hvalid : material.Valid)
    (htag : material.scheme.authenticated →
      headers.get? Header.tagLength.name = material.field? .tagLength) :
    ∃ bits?, headers.tagBits? material.scheme = .ok bits? ∧
      (material.scheme.authenticated → bits?.getD tagBits = tagBits) := by
  unfold Headers.tagBits?
  split
  next => exact ⟨none, rfl, fun _ ↦ rfl⟩
  next text htext =>
    by_cases hauthenticated : material.scheme.authenticated
    · have hbits : some text = some (Decimal.write tagBits) := by
        rw [← htext, htag hauthenticated, Material.field?, hvalid.tagBits?_eq, Scheme.tagBits?,
          if_pos hauthenticated]
        rfl
      cases hbits
      rw [if_pos hauthenticated]
      exact ⟨some tagBits, rfl, fun _ ↦ rfl⟩
    · rw [if_neg hauthenticated]
      exact ⟨none, rfl, fun _ ↦ rfl⟩

/-- Headers that have the fields of valid material are read as this material. -/
theorem material_of_fields (hvalid : material.Valid)
    (hfields : ∀ header, header ≠ .tagLength →
      headers.get? header.name = material.field? header)
    (htag : material.scheme.authenticated →
      headers.get? Header.tagLength.name = material.field? .tagLength) :
    headers.material = .ok material := by
  obtain ⟨bits?, hbits, hlength⟩ := tagBits?_of_fields hvalid htag
  have hscheme := required_of_get? (hfields .scheme (by decide))
  have hwrap := required_of_get? (hfields .wrapAlgorithm (by decide))
  have hkey := bytes_of_get? (hfields .contentKey (by decide))
  have hiv := bytes_of_get? (hfields .iv (by decide))
  have hdescription := required_of_get? (hfields .description (by decide))
  unfold Headers.material
  simp only [Outcome.bind_eq_ok_iff]
  exact ⟨_, hscheme, _, Scheme.ofName_name _, _, hwrap, _, WrapAlgorithm.ofName_name _, _, hkey, _,
    hiv, _, hdescription, _, parseMap_render _, bits?, hbits,
    Draft.build_eq_ok_iff.mpr ⟨hvalid, hlength, rfl⟩⟩

/-- The headers of valid material are read as this material. -/
theorem material_headers (hvalid : material.Valid) : material.headers.material = .ok material :=
  material_of_fields hvalid (fun header _ ↦ material.get?_headers header)
    fun _ ↦ material.get?_headers .tagLength

/-- So are other headers after those of the material are set in them. -/
theorem material_insertAll_headers (hvalid : material.Valid) :
    Headers.material (headers.insertAll material.headers) = .ok material := by
  -- Without a tag no tag length is written, and one from before may be left, but is not read.
  refine material_of_fields hvalid (fun header hheader ↦ ?_) (fun hauthenticated ↦ ?_)
  · rw [TextMap.get?_insertAll, material.get?_headers]
    cases header with
    | tagLength => exact absurd rfl hheader
    | _ => rfl
  · rw [TextMap.get?_insertAll, material.get?_headers, Material.field?, hvalid.tagBits?_eq,
      Scheme.tagBits?, if_pos hauthenticated]
    rfl

/-- Whatever headers are read as is valid. -/
theorem valid_of_material (hmaterial : headers.material = .ok material) : material.Valid := by
  simp only [Headers.material, Outcome.bind_eq_ok_iff] at hmaterial
  obtain ⟨_, _, _, _, _, _, _, _, _, _, _, _, _, _, _, _, _, _, hbuild⟩ := hmaterial
  exact (Draft.build_eq_ok_iff.mp hbuild).1

end Headers

end SealedStore
