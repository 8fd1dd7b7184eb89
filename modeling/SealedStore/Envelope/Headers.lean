import SealedStore.Envelope.Material
import SealedStore.Text.Blank
import SealedStore.Text.JsonObject
import SealedStore.Text.Utf8

/-!
# Material as headers

An envelope is material written as a map of header names to texts. Reading takes the headers in a
fixed order and stops at the first that is missing or wrong; other entries of the map do not matter,
and neither does a tag length beside a scheme that has no tag.
-/

namespace SealedStore

/-- A map of header names to texts. -/
abbrev Headers := TextMap String

namespace Headers

/-- The value of a header that must be there. -/
def required (headers : Headers) (header : Header) : Except EnvelopeError String :=
  match headers.get? header.name with
  | some text => .ok text
  | none => .error (.missingField header)

/-- The bytes of a header in base64, blanks around it apart. -/
def bytes (headers : Headers) (header : Header) : Except EnvelopeError Bytes := do
  let text ← headers.required header
  match Base64.decodeBytes (Utf8.encode (Blank.trim text)) with
  | .ok bytes => .ok bytes
  | .error defect => .error (.invalidField header (.base64 defect))

/-- The map of texts in a text. -/
def parseMap (text : String) : Except EnvelopeError (TextMap String) :=
  match JsonObject.parse? text with
  | some map => .ok map
  | none => .error .malformedMap

/-- The largest tag length that can be written has 32 bits. -/
def maxTagBits : Nat := 0xffffffff

/-- The tag length of an authenticated scheme, if it is given. -/
def tagBits? (headers : Headers) (scheme : Scheme) : Except EnvelopeError (Option Nat) :=
  match headers.get? Header.tagLength.name with
  | none => .ok none
  | some text =>
      if scheme.authenticated then
        match Decimal.read maxTagBits (Blank.trimList text.toList) with
        | .ok bits => .ok (some bits)
        | .error defect => .error (.invalidField .tagLength (.number defect))
      else .ok none

/-- The material that headers describe. -/
def material (headers : Headers) : Except EnvelopeError Material := do
  let scheme ← Scheme.ofName (← headers.required .scheme)
  let wrapAlgorithm ← WrapAlgorithm.ofName (← headers.required .wrapAlgorithm)
  let wrappedKey ← headers.bytes .contentKey
  let iv ← headers.bytes .iv
  let description ← parseMap (← headers.required .description)
  let tagBits? ← headers.tagBits? scheme
  Draft.build ⟨scheme, wrapAlgorithm, wrappedKey, iv, tagBits?, description⟩

end Headers

/-- The headers of material. -/
def Material.headers (material : Material) : Headers :=
  let headers := TextMap.ofList [
    (Header.contentKey.name, Base64.encode material.wrappedKey),
    (Header.iv.name, Base64.encode material.iv),
    (Header.description.name, JsonObject.render material.description),
    (Header.scheme.name, material.scheme.name),
    (Header.wrapAlgorithm.name, material.wrapAlgorithm.name)]
  match material.tagBits? with
  | some bits => headers.insert Header.tagLength.name (Decimal.write bits)
  | none => headers

end SealedStore
