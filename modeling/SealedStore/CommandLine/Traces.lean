import SealedStore.Config
import SealedStore.Text.Uri

/-!
# Traces

A run sends traces when the configuration names an endpoint for them. Where they go must be an
address; nobody need be there, since they are sent while the command is at work. They go
uncompressed, so it is an error to ask for compression.
-/

namespace SealedStore.Traces

/-- Why traces cannot be sent. -/
inductive Defect where
  /-- They are to be compressed in a way that is not at hand, as none is. -/
  | compression (algorithm : String)
  /-- They are to go to what is no address. -/
  | address (defect : Uri.Defect)
  deriving DecidableEq, Repr

/-- The wording of a defect. -/
def Defect.message : Defect → String
  | .compression algorithm => s!"unsupported compression algorithm '{algorithm}'"
  | .address defect => s!"invalid URI {defect.message}"

/-- The variables, spelt exactly so, that say how traces are compressed. -/
def compressionNames : List String :=
  ["OTEL_EXPORTER_OTLP_TRACES_COMPRESSION", "OTEL_EXPORTER_OTLP_COMPRESSION"]

/-- The variables, spelt exactly so, that say where traces go before the configuration does. -/
def endpointNames : List String :=
  ["OTEL_EXPORTER_OTLP_TRACES_ENDPOINT", "OTEL_EXPORTER_OTLP_ENDPOINT"]

/-- The value of the first of some variables that is there. It counts as it stands, even if it is
empty. -/
def firstOf (environment : List (String × String)) (names : List String) : Option String :=
  names.findSome? fun name ↦ environment.lookup name

/-- Where traces go, if they are not to go to the endpoint of the configuration. -/
def destination (environment : List (String × String)) (endpoint : String) : String :=
  (firstOf environment endpointNames).getD endpoint

/-- Checks that the traces of a run can be sent, if there are any. -/
def check (environment : List (String × String)) (config : Config) : Except Defect Unit :=
  match config.traceEndpoint with
  | none => .ok ()
  | some endpoint =>
      match firstOf environment compressionNames with
      | some algorithm => .error (.compression algorithm)
      | none => discard ((Uri.read (destination environment endpoint)).mapError .address)

end SealedStore.Traces
