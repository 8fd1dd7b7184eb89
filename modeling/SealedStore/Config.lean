import SealedStore.Client
import SealedStore.Keys.Local
import SealedStore.Keys.Remote
import SealedStore.Variables

/-!
# Configuration

The settings of the command line come from environment variables (`SealedStore.Variables`).
Texts are kept as they were given and read when they are needed; `validate` reads all that a run is
going to need, in a fixed order, and reports the first that is wrong.
-/

namespace SealedStore

/-- Which key provider wraps content keys. -/
inductive KeySource where
  | kms
  | localKey
  deriving DecidableEq, Repr

/-- The short label of a key source in a log. -/
def KeySource.label : KeySource → String
  | .kms => "Kms"
  | .localKey => "Local"

/-- The settings that are read from environment variables. -/
inductive Setting where
  | bucket
  | endpoint
  | keyProvider
  | keyId
  | masterKey
  | wrapAlgorithm
  | scheme
  | placement
  | traceEndpoint
  | logLevel
  deriving DecidableEq, Repr

/-- The name of the variable of a setting, in lower case. -/
def Setting.name : Setting → String
  | bucket => "s3_bucket"
  | endpoint => "s3_endpoint_url"
  | keyProvider => "key_provider"
  | keyId => "kms_key_id"
  | masterKey => "master_key_b64"
  | wrapAlgorithm => "local_wrap_algorithm"
  | scheme => "content_crypto_scheme"
  | placement => "envelope_storage"
  | traceEndpoint => "otel_exporter_otlp_endpoint"
  | logLevel => "log_level"

/-- The name of the variable as messages write it. -/
def Setting.title (setting : Setting) : String :=
  String.ofList (setting.name.toList.map Char.toUpper)

/-- Why a configuration cannot be used. -/
inductive ConfigError where
  /-- The placement has no such name. -/
  | unknownPlacement (text : String)
  /-- The placement is neither a text nor a table of one entry. -/
  | placementShape
  /-- A setting is a table or a list where a text is needed. -/
  | notText (setting : Setting) (shape : String)
  /-- No bucket is given. -/
  | missingBucket
  /-- A setting that must say something is absent or blank. -/
  | blank (setting : Setting)
  /-- There is no such key provider. -/
  | unknownKeyProvider (text : String)
  /-- There is no such scheme. -/
  | unknownScheme (name : String)
  /-- There is no such wrap algorithm. -/
  | unknownWrapAlgorithm (name : String)
  /-- A local provider does not have the wrap algorithm. -/
  | unsupportedWrapAlgorithm (algorithm : WrapAlgorithm)
  /-- The master key is no base64. -/
  | masterKeyText (defect : Base64.Defect)
  /-- The master key is not as long as a key. -/
  | masterKeyLength (actual : Nat)
  deriving DecidableEq, Repr

/-- The wording of the error. -/
def ConfigError.message : ConfigError → String
  | .unknownPlacement text =>
      "failed to deserialise configuration: " ++
        s!"enum EnvelopeStorage does not have variant constructor {text}"
  | .placementShape =>
      "failed to deserialise configuration: value of enum EnvelopeStorage should be " ++
        "represented by either string or table with exactly one key"
  | .notText setting shape =>
      s!"failed to deserialise configuration: invalid type: {shape}, expected a string " ++
        s!"for key `{setting.name}`"
  | .missingBucket =>
      s!"failed to deserialise configuration: missing field `{Setting.bucket.name}`"
  | .blank setting => s!"{setting.title} is required and must not be empty"
  | .unknownKeyProvider text => s!"KEY_PROVIDER must be kms or local, got {Quoted.quote text}"
  | .unknownScheme name =>
      s!"CONTENT_CRYPTO_SCHEME is not a supported scheme: unknown algorithm: {name}"
  | .unknownWrapAlgorithm name =>
      s!"LOCAL_WRAP_ALGORITHM is not a supported algorithm: unknown algorithm: {name}"
  | .unsupportedWrapAlgorithm algorithm =>
      s!"LOCAL_WRAP_ALGORITHM must be AESWrap or AES/GCM, got {algorithm.name}"
  | .masterKeyText defect => s!"MASTER_KEY_B64 is not valid base64: {defect.message}"
  | .masterKeyLength actual => s!"MASTER_KEY_B64 must decode to 32 bytes, got {actual}"

/-- The settings, as they were given. -/
structure Config where
  bucket : String
  endpoint? : Option String
  keyProvider : String
  keyId? : Option String
  masterKey? : Option String
  wrapAlgorithm : String
  scheme : String
  placement : Placement
  traceEndpoint? : Option String
  logLevel : String
  deriving DecidableEq

namespace Config

/-- The text of a setting, if it is given. -/
def givenText? (environment : List (String × String)) (setting : Setting) :
    Except ConfigError (Option String) :=
  match Variables.lookup? environment setting.name with
  | none => .ok none
  | some (.text value) => .ok (some value)
  | some (.table _) => .error (.notText setting "map")
  | some .list => .error (.notText setting "sequence")

/-- The placement with a name in any case. -/
def placementOfName (name : String) : Except ConfigError Placement :=
  match Placement.all.find? (·.name = Variables.lower name) with
  | some placement => .ok placement
  | none => .error (.unknownPlacement name)

/-- The placement that is given: a name, or a table whose one entry has the name. If nothing is, it
is the object metadata. -/
def readPlacement : Option Given → Except ConfigError Placement
  | none => .ok .objectMetadata
  | some (.text name) | some (.table [name]) => placementOfName name
  | some _ => .error .placementShape

/-- The settings in an environment. -/
def ofEnvironment (environment : List (String × String)) : Except ConfigError Config := do
  let given := givenText? environment
  let placement ← readPlacement (Variables.lookup? environment Setting.placement.name)
  let bucket? ← given .bucket
  let endpoint? ← given .endpoint
  let keyProvider? ← given .keyProvider
  let keyId? ← given .keyId
  let masterKey? ← given .masterKey
  let wrapAlgorithm? ← given .wrapAlgorithm
  let scheme? ← given .scheme
  let traceEndpoint? ← given .traceEndpoint
  let logLevel? ← given .logLevel
  match bucket? with
  | none => .error .missingBucket
  | some bucket =>
      .ok {
        bucket := bucket
        endpoint? := endpoint?
        keyProvider := keyProvider?.getD "kms"
        keyId? := keyId?
        masterKey? := masterKey?
        wrapAlgorithm := wrapAlgorithm?.getD WrapAlgorithm.aesWrap.name
        scheme := scheme?.getD Scheme.gcm.name
        placement := placement
        traceEndpoint? := traceEndpoint?
        logLevel := logLevel?.getD "info" }

/-- Refuses a text that is nothing but blanks. -/
def requireText (setting : Setting) (text : String) : Except ConfigError Unit :=
  if Blank.isBlankText text then .error (.blank setting) else .ok ()

/-- The text without blanks at its ends, unless nothing is left. -/
def nonBlank? (text? : Option String) : Option String :=
  match text? with
  | none => none
  | some text => if Blank.isBlankText text then none else some (Blank.trim text)

/-- The key provider. -/
def keySource (config : Config) : Except ConfigError KeySource :=
  match Blank.trim config.keyProvider with
  | "kms" => .ok .kms
  | "local" => .ok .localKey
  | other => .error (.unknownKeyProvider other)

/-- The scheme for new objects. -/
def contentScheme (config : Config) : Except ConfigError Scheme :=
  match Scheme.ofName (Blank.trim config.scheme) with
  | .ok scheme => .ok scheme
  | .error _ => .error (.unknownScheme (Blank.trim config.scheme))

/-- The algorithm of the local provider. -/
def localAlgorithm (config : Config) : Except ConfigError WrapAlgorithm :=
  match WrapAlgorithm.ofName (Blank.trim config.wrapAlgorithm) with
  | .error _ => .error (.unknownWrapAlgorithm (Blank.trim config.wrapAlgorithm))
  | .ok algorithm =>
      if (LocalAlgorithm.ofRecorded? algorithm).isSome then .ok algorithm
      else .error (.unsupportedWrapAlgorithm algorithm)

/-- The master key of the local provider. -/
def masterKey (config : Config) : Except ConfigError Bytes := do
  let text := config.masterKey?.getD ""
  requireText .masterKey text
  match Base64.decodeBytes (Utf8.encode (Blank.trim text)) with
  | .error defect => .error (.masterKeyText defect)
  | .ok bytes =>
      if bytes.length ≠ Aes.keyLength then .error (.masterKeyLength bytes.length) else .ok bytes

/-- The endpoint to which traces go, if any. -/
def traceEndpoint (config : Config) : Option String :=
  nonBlank? config.traceEndpoint?

/-- The endpoint of the object store, if it is not the usual one. -/
def endpoint (config : Config) : Option String :=
  nonBlank? config.endpoint?

/-- Checks all that a run is going to need. -/
def validate (config : Config) : Except ConfigError Unit := do
  requireText .bucket config.bucket
  discard config.contentScheme
  match ← config.keySource with
  | .kms => requireText .keyId (config.keyId?.getD "")
  | .localKey =>
      discard config.localAlgorithm
      discard config.masterKey

/-- The settings in an environment, checked. -/
def load (environment : List (String × String)) : Except ConfigError Config := do
  let config ← ofEnvironment environment
  config.validate
  return config

end Config

end SealedStore
