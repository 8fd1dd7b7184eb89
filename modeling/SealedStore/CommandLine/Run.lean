import SealedStore.CommandLine.Arguments
import SealedStore.CommandLine.Files
import SealedStore.CommandLine.Traces

/-!
# Running a command

A command is run by a client that the configuration describes. The plaintext is read before anything
is stored, and fetched and opened before a file is written, so a run that fails writes no file.
-/

namespace SealedStore

/-- What a run has done. -/
inductive Report where
  | stored (key : String) (length : Nat)
  | written (file : String) (length : Nat)
  deriving DecidableEq, Repr

/-- The line that reports it. -/
def Report.message : Report → String
  | stored key length => s!"Stored {key} ({length} bytes)"
  | written file length => s!"Wrote {file} ({length} bytes)"

/-- Why a run failed. -/
inductive RunError where
  /-- The configuration cannot be used. -/
  | config (error : ConfigError)
  /-- Traces cannot be sent. -/
  | traces (defect : Traces.Defect)
  /-- The local provider cannot be made. -/
  | provider (error : KeyError)
  | readFile (file : String) (error : FileError)
  | store (key : String) (error : ClientError)
  | fetch (key : String) (error : ClientError)
  | writeFile (file : String) (error : FileError)
  deriving DecidableEq, Repr

namespace RunError

/-- What went wrong, in the terms of the command. -/
def message : RunError → String
  | config error => s!"configuration invalid: {error.message}"
  | traces _ => "failed to install OTLP tracing pipeline"
  | provider _ => "failed to build local key provider"
  | readFile file _ => s!"failed to read {file}"
  | store key _ => s!"failed to store encrypted object {key}"
  | fetch key _ => s!"failed to read encrypted object {key}"
  | writeFile file _ => s!"failed to write {file}"

/-- Why it went wrong, unless the message says so already. -/
def cause? : RunError → Option String
  | config _ => none
  | traces defect =>
      some s!"Exporter otlp encountered the following error(s): {defect.message}"
  | provider error => some error.message
  | readFile _ error => some error.message
  | store _ error => some error.message
  | fetch _ error => some error.message
  | writeFile _ error => some error.message

/-- The line that reports it. -/
def headline : RunError → String
  | config error => s!"ERROR: {(config error).message}"
  | error => s!"Error: {error.message}"

end RunError

/-- The client that a configuration describes. -/
def Config.client (config : Config) (service : KeyService) : Except RunError Client := do
  let provider ← match ← config.keySource.mapError .config with
    | .kms =>
        match config.keyId? with
        | some keyId => pure (RemoteKeys.mk service keyId).provider
        | none => .error (.config (.blank .keyId))
    | .localKey => do
        let masterKey ← config.masterKey.mapError .config
        let algorithm ← config.localAlgorithm.mapError .config
        let keys ← (LocalKeys.create masterKey algorithm).mapError .provider
        pure keys.provider
  let scheme ← config.contentScheme.mapError .config
  return ⟨provider, scheme, config.placement⟩

/-- The facility and the store that commands are run on. -/
structure World (σ : Type) where
  facility : Facility
  objects : σ

variable {m : Type → Type} [Monad m] {σ : Type}

/-- Runs a command, with the result and the world after it. -/
def Command.run (files : Files m) (store : ObjectStore σ) (client : Client) (world : World σ) :
    Command → m (Except RunError Report × World σ)
  | .put file key description => do
      match ← files.read file with
      | .error error => return (.error (.readFile file error), world)
      | .ok plaintext =>
          let (result, facility, objects) :=
            client.put store key plaintext description world.facility world.objects
          match result with
          | .error error => return (.error (.store key error), ⟨facility, objects⟩)
          | .ok () => return (.ok (.stored key plaintext.length), ⟨facility, objects⟩)
  | .get key file => do
      match client.get store world.facility world.objects key with
      | .error error => return (.error (.fetch key error), world)
      | .ok plaintext =>
          match ← files.write file plaintext with
          | .error error => return (.error (.writeFile file error), world)
          | .ok () => return (.ok (.written file plaintext.length), world)

/-- What stands outside a run: the files, the bucket that a configuration names, and the key
service. -/
structure Surroundings (m : Type → Type) (σ : Type) where
  files : Files m
  bucket : Config → ObjectStore σ
  service : KeyService

/-- The client for a run in an environment, and the configuration that describes it. Where traces go
is checked before the client is made. -/
def Config.setUp (environment : List (String × String)) (service : KeyService) :
    Except RunError (Config × Client) := do
  let config ← (load environment).mapError .config
  (Traces.check environment config).mapError .traces
  return (config, ← config.client service)

/-- Runs a command in an environment. The facility is held for the time of the run. -/
def Command.runIn (surroundings : Surroundings m σ) (environment : List (String × String))
    (command : Command) (world : World σ) : m (Except RunError Report × World σ) :=
  match Config.setUp environment surroundings.service with
  | .error error => pure (.error error, world)
  | .ok (config, client) => do
      let held : World σ := { world with facility := world.facility.acquire }
      let (result, after) ←
        command.run surroundings.files (surroundings.bucket config) client held
      return (result, { after with facility := after.facility.release })

end SealedStore
