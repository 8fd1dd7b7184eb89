import SealedStore.Envelope.Algorithm
import SealedStore.Text.Quoted
import SealedStore.TextMap

/-!
# Material

Material is what a reader needs to open one object: the wrapped content key, the IV, the algorithms,
the tag length and the description under which the key was wrapped. A draft collects these in any
order and is checked once, when it is built.
-/

namespace SealedStore

/-- The texts that describe the circumstances of a wrapped key. -/
abbrev Description := TextMap String

/-- What a reader needs to open one object. -/
structure Material where
  wrappedKey : Bytes
  iv : Bytes
  scheme : Scheme
  wrapAlgorithm : WrapAlgorithm
  /-- The length of the tag in bits, of authenticated schemes only. -/
  tagBits? : Option Nat
  description : Description
  deriving DecidableEq

/-- The only tag length, in bits. -/
def tagBits : Nat := 128

/-- The tag length that material of a scheme carries. -/
def Scheme.tagBits? (scheme : Scheme) : Option Nat :=
  if scheme.authenticated then some tagBits else none

/-- There is a wrapped key, and the IV and the tag length fit the scheme. -/
structure Material.Valid (material : Material) : Prop where
  wrappedKey_ne_nil : material.wrappedKey ≠ []
  length_iv : material.iv.length = material.scheme.ivLength
  tagBits?_eq : material.tagBits? = material.scheme.tagBits?

/-- Material on the way. -/
structure Draft where
  scheme : Scheme
  wrapAlgorithm : WrapAlgorithm
  wrappedKey : Bytes
  iv : Bytes
  tagBits? : Option Nat
  description : Description

namespace Draft

/-- A draft of which only the algorithms are known. -/
def start (scheme : Scheme) (wrapAlgorithm : WrapAlgorithm) : Draft :=
  ⟨scheme, wrapAlgorithm, [], [], none, .empty⟩

/-- What can be told to a draft. -/
inductive Entry where
  | wrappedKey (bytes : Bytes)
  | iv (bytes : Bytes)
  | tagBits (bits : Nat)
  /-- Replaces the whole description. -/
  | description (description : Description)
  /-- Sets one text of the description. -/
  | describe (key value : String)

/-- The draft after one more entry. -/
def enter (draft : Draft) : Entry → Draft
  | .wrappedKey bytes => { draft with wrappedKey := bytes }
  | .iv bytes => { draft with iv := bytes }
  | .tagBits bits => { draft with tagBits? := some bits }
  | .description description => { draft with description := description }
  | .describe key value => { draft with description := draft.description.insert key value }

/-- The draft after several entries. -/
def enterAll (draft : Draft) (entries : List Entry) : Draft :=
  entries.foldl enter draft

/-- The material of a draft. The wrapped key is checked first, then the IV, then the tag length. A
tag length that no tag goes with is dropped. -/
def build (draft : Draft) : Except EnvelopeError Material :=
  if draft.wrappedKey.isEmpty then .error (.missingField .contentKey)
  else if draft.iv.length ≠ draft.scheme.ivLength then
    .error (.invalidField .iv
      (.ivLength draft.scheme.name draft.scheme.ivLength draft.iv.length))
  else if draft.scheme.authenticated ∧ draft.tagBits?.getD tagBits ≠ tagBits then
    .error (.invalidField .tagLength (.unsupportedTagLength (draft.tagBits?.getD tagBits)))
  else
    .ok {
      wrappedKey := draft.wrappedKey
      iv := draft.iv
      scheme := draft.scheme
      wrapAlgorithm := draft.wrapAlgorithm
      tagBits? := draft.scheme.tagBits?
      description := draft.description }

end Draft

namespace Material

/-- A map of texts in a log. -/
def showDescription (description : Description) : String :=
  let members := description.entries.map fun (key, value) ↦
    s!"{Quoted.quote key}: {Quoted.quote value}"
  "\x7b" ++ String.intercalate ", " members ++ "\x7d"

/-- What a log may show of material: all but the bytes. -/
def redacted (material : Material) : String :=
  let tag := match material.tagBits? with
    | some bits => s!"Some({bits})"
    | none => "None"
  let fields := [
    s!"final_cek: {material.wrappedKey.redacted}",
    s!"iv: {material.iv.redacted}",
    s!"content_crypto_scheme: {material.scheme.label}",
    s!"key_wrap_algorithm: {material.wrapAlgorithm.label}",
    s!"crypto_tag_length: {tag}",
    s!"materials_description: {showDescription material.description}"]
  "ContentCryptoMaterial \x7b " ++ String.intercalate ", " fields ++ " \x7d"

end Material

end SealedStore
