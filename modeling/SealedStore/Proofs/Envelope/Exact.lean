import SealedStore.Proofs.Envelope.Placement
import SealedStore.Proofs.Text.Base64.Canonical
import SealedStore.Proofs.Text.Decimal

/-!
# Envelopes, exactly

Writing material loses nothing: it reads back from its headers and from the body of its instruction
object, so other material has other headers and another body (`headers_lossless`). Reading takes
nothing but headers that describe some material, where only blanks, the spelling of the description
and the tag length are free (`material_exact`).
-/

namespace SealedStore

/-! ## Material that can be built -/

/-- The material is what some entries into a draft, in any number and order, are built to. -/
def Material.Built (material : Material) : Prop :=
  ∃ scheme wrapAlgorithm entries,
    ((Draft.start scheme wrapAlgorithm).enterAll entries).build = .ok material

theorem Material.built_iff_valid {material : Material} : material.Built ↔ material.Valid := by
  constructor
  · intro hbuilt
    obtain ⟨scheme, wrapAlgorithm, entries, hbuild⟩ := hbuilt
    exact (Draft.build_eq_ok_iff.mp hbuild).1
  · intro hvalid
    refine ⟨material.scheme, material.wrapAlgorithm, [.wrappedKey material.wrappedKey,
      .iv material.iv, .description material.description], ?_⟩
    exact Draft.build_eq_ok_iff.mpr ⟨hvalid, fun _ ↦ rfl, rfl⟩

/-! ## Single headers -/

theorem Scheme.ofName_eq_ok_iff {name : String} {scheme : Scheme} :
    ofName name = .ok scheme ↔ name = scheme.name := by
  constructor
  · intro hname
    unfold ofName at hname
    split at hname
    next hfound =>
      have hsame := List.find?_some hfound
      cases hname
      exact (of_decide_eq_true hsame).symm
    next => cases hname
  · rintro rfl
    exact ofName_name scheme

theorem WrapAlgorithm.ofName_eq_ok_iff {name : String} {algorithm : WrapAlgorithm} :
    ofName name = .ok algorithm ↔ name = algorithm.name := by
  constructor
  · intro hname
    unfold ofName at hname
    split at hname
    next hfound =>
      have hsame := List.find?_some hfound
      cases hname
      exact (of_decide_eq_true hsame).symm
    next => cases hname
  · rintro rfl
    exact ofName_name algorithm

namespace Headers

variable {headers left right : Headers} {material : Material} {header : Header}

theorem required_eq_ok_iff {text : String} :
    headers.required header = .ok text ↔ headers.get? header.name = some text := by
  unfold required
  cases headers.get? header.name <;> simp

theorem bytes_eq_ok_iff {bytes : Bytes} :
    headers.bytes header = .ok bytes ↔
      ∃ text, headers.get? header.name = some text ∧ Blank.trim text = Base64.encode bytes := by
  simp only [Headers.bytes, Outcome.bind_eq_ok_iff, required_eq_ok_iff]
  refine exists_congr fun text ↦ and_congr_right fun _ ↦ ?_
  rw [← Base64.decodeBytes_encode_eq_ok_iff]
  cases Base64.decodeBytes (Utf8.encode (Blank.trim text)) <;> simp

theorem read_tagBits_iff {text : String} :
    Decimal.read maxTagBits (Blank.trimList text.toList) = .ok tagBits ↔
      Decimal.Spells (Blank.trim text).toList tagBits := by
  rw [Decimal.read_eq_ok_iff, Blank.trim, String.toList_ofList]
  exact and_iff_left (by decide)

/-- A tag length that is given beside an authenticated scheme has to be the only one there is. -/
theorem exists_tagBits?_iff {scheme : Scheme} :
    (∃ bits?, headers.tagBits? scheme = .ok bits? ∧
        (scheme.authenticated → bits?.getD tagBits = tagBits)) ↔
      (scheme.authenticated → ∀ text, headers.get? Header.tagLength.name = some text →
        Decimal.Spells (Blank.trim text).toList tagBits) := by
  unfold Headers.tagBits?
  by_cases hauthenticated : scheme.authenticated
  · cases headers.get? Header.tagLength.name with
    | none =>
        constructor
        · intro _ _ text htext
          cases htext
        · exact fun _ ↦ ⟨none, rfl, fun _ ↦ rfl⟩
    | some text =>
        simp only [hauthenticated, ↓reduceIte]
        constructor
        · rintro ⟨bits?, hbits, hlength⟩ _ _ ⟨⟩
          split at hbits
          next bits hread =>
            cases hbits
            have hbits : bits = tagBits := hlength trivial
            rw [hbits] at hread
            exact read_tagBits_iff.mp hread
          next => cases hbits
        · intro hspells
          rw [read_tagBits_iff.mpr (hspells trivial text rfl)]
          exact ⟨some tagBits, rfl, fun _ ↦ rfl⟩
  · constructor
    · exact fun _ hyes ↦ absurd hyes hauthenticated
    · intro _
      refine ⟨none, ?_, fun hyes ↦ absurd hyes hauthenticated⟩
      cases headers.get? Header.tagLength.name with
      | none => rfl
      | some text => exact if_neg hauthenticated

/-! ## All headers -/

/-- The headers are those of the material: names stand as they are, byte strings in base64 with
blanks around it, and the description in any spelling. A tag length stands there or not, in any
spelling, and beside a scheme without a tag it may be anything. -/
structure Describes (headers : Headers) (material : Material) : Prop where
  built : material.Built
  scheme : headers.get? Header.scheme.name = some material.scheme.name
  wrapAlgorithm : headers.get? Header.wrapAlgorithm.name = some material.wrapAlgorithm.name
  wrappedKey : ∃ text, headers.get? Header.contentKey.name = some text ∧
    Blank.trim text = Base64.encode material.wrappedKey
  iv : ∃ text, headers.get? Header.iv.name = some text ∧
    Blank.trim text = Base64.encode material.iv
  description : ∃ text, headers.get? Header.description.name = some text ∧
    parseMap text = .ok material.description
  tagLength : material.scheme.authenticated →
    ∀ text, headers.get? Header.tagLength.name = some text →
      Decimal.Spells (Blank.trim text).toList tagBits

theorem material_eq_ok_iff : headers.material = .ok material ↔ headers.Describes material := by
  unfold Headers.material
  simp only [Outcome.bind_eq_ok_iff, required_eq_ok_iff, Scheme.ofName_eq_ok_iff,
    WrapAlgorithm.ofName_eq_ok_iff, bytes_eq_ok_iff]
  constructor
  · rintro ⟨schemeName, hscheme, scheme, rfl, wrapName, hwrap, wrapAlgorithm, rfl, wrappedKey, hkey,
      iv, hiv, text, htext, description, hdescription, bits?, hbits, hbuild⟩
    obtain ⟨hvalid, hlength, hdraft⟩ := Draft.build_eq_ok_iff.mp hbuild
    cases hdraft
    exact ⟨Material.built_iff_valid.mpr hvalid, hscheme, hwrap, hkey, hiv,
      ⟨text, htext, hdescription⟩, exists_tagBits?_iff.mp ⟨bits?, hbits, hlength⟩⟩
  · intro hdescribes
    obtain ⟨text, htext, hdescription⟩ := hdescribes.description
    obtain ⟨bits?, hbits, hlength⟩ := exists_tagBits?_iff.mpr hdescribes.tagLength
    exact ⟨_, hdescribes.scheme, _, rfl, _, hdescribes.wrapAlgorithm, _, rfl, _,
      hdescribes.wrappedKey, _, hdescribes.iv, text, htext, _, hdescription, bits?, hbits,
      Draft.build_eq_ok_iff.mpr
        ⟨Material.built_iff_valid.mp hdescribes.built, hlength, rfl⟩⟩

/-- Reading looks at nothing but the six headers. -/
theorem material_congr
    (hagree : ∀ header : Header, left.get? header.name = right.get? header.name) :
    left.material = right.material := by
  simp only [Headers.material, Headers.bytes, Headers.required, Headers.tagBits?, hagree]

/-! ## Writing again -/

/-- One map of headers is what another becomes when what is read from it is written again. The
entries under other names do not belong to the envelope, and are not written. -/
structure Rewritten (before after : Headers) : Prop where
  scheme : after.get? Header.scheme.name = before.get? Header.scheme.name
  wrapAlgorithm : after.get? Header.wrapAlgorithm.name = before.get? Header.wrapAlgorithm.name
  contentKey : after.get? Header.contentKey.name =
    (before.get? Header.contentKey.name).map Blank.trim
  iv : after.get? Header.iv.name = (before.get? Header.iv.name).map Blank.trim
  description : (after.get? Header.description.name).map parseMap =
    (before.get? Header.description.name).map parseMap
  others : ∀ name, (∀ header : Header, header.name ≠ name) → after.get? name = none

theorem Describes.rewritten (hdescribes : headers.Describes material) :
    headers.Rewritten material.headers where
  scheme := by rw [hdescribes.scheme, material.get?_headers, Material.field?]
  wrapAlgorithm := by rw [hdescribes.wrapAlgorithm, material.get?_headers, Material.field?]
  contentKey := by
    obtain ⟨text, htext, htrim⟩ := hdescribes.wrappedKey
    rw [htext, material.get?_headers, Material.field?, Option.map_some, htrim]
  iv := by
    obtain ⟨text, htext, htrim⟩ := hdescribes.iv
    rw [htext, material.get?_headers, Material.field?, Option.map_some, htrim]
  description := by
    obtain ⟨text, htext, hparse⟩ := hdescribes.description
    rw [htext, material.get?_headers, Material.field?, Option.map_some, Option.map_some, hparse,
      parseMap_render]
  others name hname := material.get?_headers_of_ne hname

/-- Which headers are read, and as what.

* Headers are read as some material exactly if they describe it.
* Headers that agree on the six names are read alike, with the same failure if any.
* Material that was read is written as the headers it was read from, but for the blanks around
  byte strings, the spelling of the description, and the tag length. -/
theorem material_exact :
    (∀ (headers : Headers) (material : Material),
      headers.material = .ok material ↔ headers.Describes material) ∧
    (∀ left right : Headers, (∀ header : Header, left.get? header.name = right.get? header.name) →
      left.material = right.material) ∧
    ∀ (headers : Headers) (material : Material), headers.material = .ok material →
      headers.Rewritten material.headers :=
  ⟨fun _ _ ↦ material_eq_ok_iff, fun _ _ ↦ material_congr,
    fun _ _ hmaterial ↦ (material_eq_ok_iff.mp hmaterial).rewritten⟩

-- Blanks, a plus sign, a leading zero, an escape and a foreign entry are all let through.
example :
    (Headers.material (TextMap.ofList [("x-amz-cek-alg", "AES/GCM/NoPadding"),
      ("x-amz-wrap-alg", "kms"), ("x-amz-key-v2", "\tAQ==\n"), ("x-amz-iv", "AAAAAAAAAAAAAAAA "),
      ("x-amz-matdesc", "\x7b \"a\" : \"\\u0062\" \x7d"), ("x-amz-tag-len", " +0128"),
      ("color", "blue")])).toOption =
      some ⟨[1], Bytes.zeros 12, .gcm, .kms, some 128, TextMap.empty.insert "a" "b"⟩ := by
  decide +kernel

end Headers

/-! ## Nothing is lost -/

namespace Material

variable {material other : Material}

theorem headers_injective (hbuilt : material.Built) (hother : other.Built)
    (hheaders : other.headers = material.headers) : other = material := by
  have hread := Headers.material_headers (built_iff_valid.mp hother)
  rw [hheaders, Headers.material_headers (built_iff_valid.mp hbuilt)] at hread
  exact (Except.ok.inj hread).symm

theorem headers_eq_of_body {request otherRequest : PutRequest} {suffix otherSuffix : String}
    (hbody : (otherRequest.instruction otherSuffix other).body =
      (request.instruction suffix material).body) : other.headers = material.headers := by
  have hparse := congrArg Headers.parseMap (Utf8.encode_injective hbody)
  rw [Headers.parseMap_render, Headers.parseMap_render] at hparse
  exact Except.ok.inj hparse

/-- Material that was built reads back from its headers, from their text as a map of texts, and from
any instruction object with that text; and other material has neither the same headers nor the same
text. -/
theorem headers_lossless (hbuilt : material.Built) :
    material.headers.material = .ok material ∧
    Headers.parseMap (JsonObject.render material.headers) >>= Headers.material = .ok material ∧
    (∀ request suffix,
      (PutRequest.instruction request suffix material).object.instructionMaterial =
        .ok material) ∧
    ∀ other : Material, other.Built → other ≠ material →
      other.headers ≠ material.headers ∧
      ∀ (request otherRequest : PutRequest) (suffix otherSuffix : String),
        (otherRequest.instruction otherSuffix other).body ≠
          (request.instruction suffix material).body := by
  have hvalid := built_iff_valid.mp hbuilt
  have hread := Headers.material_headers hvalid
  refine ⟨hread, ?_, ?_, ?_⟩
  · rw [Headers.parseMap_render]
    exact hread
  · intro request suffix
    exact request.instructionMaterial_instruction suffix hvalid
  · intro other hother hne
    refine ⟨fun hheaders ↦ hne (headers_injective hbuilt hother hheaders), ?_⟩
    intro request otherRequest suffix otherSuffix hbody
    exact hne (headers_injective hbuilt hother (headers_eq_of_body hbody))

/-- A description with quotes, a backslash, a line feed and a character outside the first plane. -/
theorem headers_lossless_quoted :
    ∃ material : Material, material.Built ∧
      material.description.get? "\"\\" = some "\n\"😀" ∧
      Headers.parseMap (JsonObject.render material.headers) >>= Headers.material = .ok material := by
  have hbuilt : Built ⟨[1], Bytes.zeros 12, .gcm, .kms, some 128,
      TextMap.empty.insert "\"\\" "\n\"😀"⟩ :=
    ⟨.gcm, .kms, [.wrappedKey [1], .iv (Bytes.zeros 12), .describe "\"\\" "\n\"😀"], rfl⟩
  exact ⟨_, hbuilt, rfl, (headers_lossless hbuilt).2.1⟩

end Material

end SealedStore
