import SealedStore.Store.Object
import SealedStore.Text.Blank
import SealedStore.Text.Quoted

/-!
# Buckets

A bucket is a store that answers requests. A request tells the key in its address, and a blank key
makes no address, so a request for one is refused before it is sent. Main statement: a store that
keeps objects apart does so behind requests as well (`replacing_viaRequests`).
-/

namespace SealedStore.Bucket

/-- What is asked of a bucket. -/
inductive Operation where
  | getObject
  | putObject
  deriving DecidableEq, Repr

namespace Operation

/-- The name of the operation in messages. -/
def name : Operation → String
  | getObject => "GetObject"
  | putObject => "PutObject"

/-- A value with fields, as messages show it: its name, then the fields in braces. -/
def shownFields (value : String) (fields : List (String × String)) : String :=
  let shown := ", ".intercalate (fields.map fun (field, content) ↦ s!"{field}: {content}")
  s!"{value} \x7b {shown} \x7d"

/-- A value that may be absent and is not, as messages show it. -/
def shownSome (value : String) : String :=
  s!"Some({value})"

/-- The wording of the refusal of a request without a key. What went wrong is told twice: in words,
and in parentheses as the values that the words were made from. -/
def keyMissing (operation : Operation) : String :=
  let step := operation.name ++ "EndpointParamsInterceptor"
  let field := "key"
  let lack := "A required field was not set"
  let kind := shownFields "MissingField"
    [("field", Quoted.quote field), ("details", Quoted.quote lack)]
  let address := shownFields "BuildError" [("kind", kind)]
  let refusal := shownFields "InterceptorError"
    [("kind", "ReadBeforeExecution"), ("interceptor_name", shownSome (Quoted.quote step)),
      ("source", shownSome address)]
  let failure := shownFields "ConstructionFailure" [("source", refusal)]
  s!"failed to construct request: {step} read_before_execution interceptor encountered an error" ++
    s!": {field} was missing: {lack} (ConstructionFailure({failure}))"

end Operation

variable {σ : Type}

/-- A store behind requests. It does not see those for a blank key. -/
def viaRequests (store : ObjectStore σ) : ObjectStore σ where
  get state key :=
    if Blank.isBlankText key then .error (.backend key Operation.getObject.keyMissing)
    else store.get state key
  put state request :=
    if Blank.isBlankText request.key then
      .error (.backend request.key Operation.putObject.keyMissing)
    else store.put state request

/-- A bucket that cannot be reached. -/
def unreachable (reason : String) : ObjectStore Unit :=
  viaRequests (.unreachable reason)

/-- Behind requests, too, a put replaces the object under its key and no other. -/
theorem replacing_viaRequests {store : ObjectStore σ} (h : store.Replacing) :
    (viaRequests store).Replacing := by
  intro state request next hput
  by_cases hblank : Blank.isBlankText request.key
  · simp [viaRequests, hblank] at hput
  · obtain ⟨hsame, hother⟩ := h state request next (by simpa [viaRequests, hblank] using hput)
    exact ⟨by simpa [viaRequests, hblank] using hsame,
      fun key hkey ↦ by simp only [viaRequests, hother key hkey]⟩

end SealedStore.Bucket
