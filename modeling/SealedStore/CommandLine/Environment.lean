import SealedStore.Text.Utf8

/-!
# Environment variables

The block in which a process finds its variables: `name=value`, each ended by a zero byte.
-/

namespace SealedStore.Environment

/-- The bytes between zero bytes. -/
def fields : Bytes → List Bytes
  | [] => [[]]
  | byte :: rest =>
      match fields rest with
      | [] => [[byte]]
      | first :: others => if byte = 0 then [] :: first :: others else (byte :: first) :: others

/-- The name and the value in a field. -/
def assignment? (field : Bytes) : Option (String × String) :=
  match Utf8.decode field with
  | .error _ => none
  | .ok text =>
      match text.toList.span (· ≠ '=') with
      | (_, []) => none
      | (name, _ :: value) => some (String.ofList name, String.ofList value)

/-- The variables of a block, in order. What is no text is left out. -/
def ofBlock (block : Bytes) : List (String × String) :=
  (fields block).filterMap assignment?

end SealedStore.Environment
