import SealedStore.Store.Object
import SealedStore.Text.Quoted
import SealedStore.Text.Utf8

/-!
# Where an envelope is kept

The envelope of an object is kept in the metadata of the object, or as the body of a second object,
the instruction object, whose key is the key of the first and a suffix. Either way it is read back
as it was written.
-/

namespace SealedStore

/-- Where a writer puts the envelope. -/
inductive Placement where
  | objectMetadata
  | instructionFile
  deriving DecidableEq, Repr

namespace Placement

/-- All placements. -/
def all : List Placement := [objectMetadata, instructionFile]

/-- The name of a placement. -/
def name : Placement → String
  | objectMetadata => "object_metadata"
  | instructionFile => "instruction_file"

/-- The short label in a log. -/
def label : Placement → String
  | objectMetadata => "ObjectMetadata"
  | instructionFile => "InstructionFile"

/-- The placement of a name. -/
def ofName? (name : String) : Option Placement :=
  all.find? (·.name = name)

/-- What is said of a name that is none. -/
def unknownName (name : String) : String :=
  s!"unknown envelope storage {Quoted.quote name}; expected object_metadata or instruction_file"

/-- The header that marks an instruction object. -/
def markerName : String := "x-amz-crypto-instr-file"

/-- The text of that header. -/
def markerValue : String := "default instruction file header"

/-- The end of the key of an instruction object. -/
def defaultSuffix : String := ".instruction"

end Placement

/-- The request with the envelope of material in its metadata. Other metadata stays. -/
def PutRequest.withEnvelope (request : PutRequest) (material : Material) : PutRequest :=
  { request with metadata := request.metadata.insertAll material.headers }

/-- The request for the instruction object that goes with the object of a request. -/
def PutRequest.instruction (request : PutRequest) (suffix : String) (material : Material) :
    PutRequest where
  key := request.key ++ suffix
  metadata := TextMap.empty.insert Placement.markerName Placement.markerValue
  body := Utf8.encode (JsonObject.render material.headers)

namespace StoredObject

/-- Whether the metadata of the object holds an envelope. -/
def hasEnvelope (object : StoredObject) : Bool :=
  object.metadata.contains Header.contentKey.name

/-- The material in the metadata of the object. -/
def metadataMaterial (object : StoredObject) : Except EnvelopeError Material :=
  object.metadata.material

/-- An error met in the body of an instruction object: names of unknown algorithms stay what they
are, and everything else makes the object malformed. -/
def instructionError : EnvelopeError → EnvelopeError
  | .unknownAlgorithm name => .unknownAlgorithm name
  | error => .malformedInstruction error.message

/-- The material in the body of the object. The marker is not asked for. -/
def instructionMaterial (object : StoredObject) : Except EnvelopeError Material :=
  match Utf8.decode object.body with
  | .error defect => .error (.malformedInstruction defect.message)
  | .ok text =>
      match Headers.parseMap text >>= Headers.material with
      | .error error => .error (instructionError error)
      | .ok material => .ok material

end StoredObject

end SealedStore
