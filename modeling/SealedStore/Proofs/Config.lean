import SealedStore.CommandLine.Run
import SealedStore.Proofs.Envelope.Exact
import SealedStore.Proofs.Text.Base64.Canonical

/-!
# Which configurations can be run

A configuration is read when it is checked, again when the client is made from it, and its key once
more by the local provider, each time with checks of its own. They agree: a configuration passes the
check exactly if it gives all that is needed (`Config.Complete`), and then every later reading
succeeds (`Config.validate_exact`). So once it is loaded, only the traces can keep a run from
starting (`Config.setUp_of_load`).
-/

namespace SealedStore

/-! ## Local providers -/

theorem LocalAlgorithm.ofRecorded?_eq_some_iff {recorded : WrapAlgorithm}
    {algorithm : LocalAlgorithm} :
    ofRecorded? recorded = some algorithm ↔ algorithm.recorded = recorded := by
  cases recorded <;> cases algorithm <;> simp [ofRecorded?, LocalAlgorithm.recorded]

namespace LocalKeys

variable {masterKey : Bytes} {algorithm : WrapAlgorithm} {keys : LocalKeys}

theorem create_eq_ok_iff :
    create masterKey algorithm = .ok keys ↔
      keys.masterKey = masterKey ∧ keys.algorithm.recorded = algorithm ∧
        masterKey.length = Aes.keyLength := by
  obtain ⟨ownKey, ownAlgorithm⟩ := keys
  rw [← LocalAlgorithm.ofRecorded?_eq_some_iff, create]
  cases LocalAlgorithm.ofRecorded? algorithm with
  | none => simp
  | some supported =>
      dsimp only
      split
      next hlength => simp [hlength]
      next hlength => simp [Decidable.not_not.mp hlength, eq_comm]

/-- A master key that is given as a text is the one whose base64 the text is, blanks around it
apart. -/
theorem ofBase64_eq_ok_iff {text : String} :
    ofBase64 text algorithm = .ok keys ↔
      Blank.trim text = Base64.encode keys.masterKey ∧
        keys.masterKey.length = Aes.keyLength ∧ keys.algorithm.recorded = algorithm := by
  rw [← Base64.decodeBytes_encode_eq_ok_iff, ofBase64]
  cases Base64.decodeBytes (Utf8.encode (Blank.trim text)) with
  | error defect => simp
  | ok masterKey =>
      simp only [create_eq_ok_iff, Except.ok.injEq]
      constructor
      · rintro ⟨rfl, halgorithm, hlength⟩
        exact ⟨rfl, hlength, halgorithm⟩
      · rintro ⟨rfl, hlength, halgorithm⟩
        exact ⟨rfl, halgorithm, hlength⟩

end LocalKeys

/-! ## Single settings -/

/-- The name of a key source in a configuration. -/
def KeySource.name : KeySource → String
  | .kms => "kms"
  | .localKey => "local"

namespace Config

variable {config : Config}

theorem requireText_eq_ok_iff {setting : Setting} {text : String} :
    requireText setting text = .ok () ↔ Blank.trim text ≠ "" := by
  rw [requireText, ne_eq, Blank.trim_eq_empty_iff]
  split
  next hblank => simp [hblank]
  next hblank => simp [hblank]

theorem contentScheme_eq_ok_iff {scheme : Scheme} :
    config.contentScheme = .ok scheme ↔ Blank.trim config.scheme = scheme.name := by
  rw [← Scheme.ofName_eq_ok_iff, contentScheme]
  cases Scheme.ofName (Blank.trim config.scheme) <;> simp

theorem keySource_eq_ok_iff {source : KeySource} :
    config.keySource = .ok source ↔ Blank.trim config.keyProvider = source.name := by
  rw [keySource]
  split
  next hname => cases source <;> simp [hname, KeySource.name]
  next hname => cases source <;> simp [hname, KeySource.name]
  next hkms hlocal =>
    cases source with
    | kms => simpa [KeySource.name] using hkms
    | localKey => simpa [KeySource.name] using hlocal

theorem localAlgorithm_eq_ok_iff {algorithm : WrapAlgorithm} :
    config.localAlgorithm = .ok algorithm ↔
      Blank.trim config.wrapAlgorithm = algorithm.name ∧
        ∃ supported : LocalAlgorithm, supported.recorded = algorithm := by
  simp only [← LocalAlgorithm.ofRecorded?_eq_some_iff, ← Option.isSome_iff_exists]
  rw [← WrapAlgorithm.ofName_eq_ok_iff, localAlgorithm]
  cases WrapAlgorithm.ofName (Blank.trim config.wrapAlgorithm) with
  | error error => simp
  | ok named =>
      dsimp only
      split
      next hsome =>
        rw [Except.ok.injEq, Except.ok.injEq]
        exact ⟨fun hnamed ↦ ⟨hnamed, hnamed ▸ hsome⟩, And.left⟩
      next hnone =>
        constructor
        · intro hnamed
          cases hnamed
        · rintro ⟨hnamed, hsome⟩
          cases hnamed
          exact absurd hsome hnone

/-- A text that is base64 of a key is not blank. -/
theorem encode_ne_empty {masterKey : Bytes} (hlength : masterKey.length = Aes.keyLength) :
    Base64.encode masterKey ≠ "" := by
  intro hempty
  have hdecode := Base64.decodeBytes_encode_eq_ok_iff.mpr hempty.symm
  cases hdecode
  cases hlength

theorem masterKey_eq_ok_iff {masterKey : Bytes} :
    config.masterKey = .ok masterKey ↔
      Blank.trim (config.masterKey?.getD "") = Base64.encode masterKey ∧
        masterKey.length = Aes.keyLength := by
  simp only [Config.masterKey, Outcome.check_bind_eq_ok_iff, requireText_eq_ok_iff]
  rw [← Base64.decodeBytes_encode_eq_ok_iff]
  constructor
  · rintro ⟨-, hread⟩
    split at hread
    next => cases hread
    next bytes hdecode =>
      split at hread
      next => cases hread
      next hlength =>
        cases hread
        exact ⟨hdecode, Decidable.not_not.mp hlength⟩
  · rintro ⟨hdecode, hlength⟩
    refine ⟨?_, ?_⟩
    · rw [Base64.decodeBytes_encode_eq_ok_iff.mp hdecode]
      exact encode_ne_empty hlength
    · rw [hdecode]
      exact if_neg (Decidable.not_not.mpr hlength)

/-- A text that is absent is read as an empty one. -/
theorem trim_getD_ne_empty_iff {text? : Option String} :
    Blank.trim (text?.getD "") ≠ "" ↔ ∃ text, text? = some text ∧ Blank.trim text ≠ "" := by
  cases text? with
  | none => simp [show Blank.trim "" = "" from Blank.trim_eq_empty_iff.mpr rfl]
  | some text => simp

theorem exists_localAlgorithm_iff :
    (∃ algorithm, config.localAlgorithm = .ok algorithm) ↔
      Blank.trim config.wrapAlgorithm = "AESWrap" ∨
        Blank.trim config.wrapAlgorithm = "AES/GCM" := by
  simp only [localAlgorithm_eq_ok_iff]
  constructor
  · rintro ⟨_, hname, supported, rfl⟩
    cases supported with
    | aesWrap => exact .inl hname
    | aesGcm => exact .inr hname
  · rintro (hname | hname)
    · exact ⟨.aesWrap, hname, .aesWrap, rfl⟩
    · exact ⟨.aesGcm, hname, .aesGcm, rfl⟩

theorem exists_masterKey_iff :
    (∃ masterKey, config.masterKey = .ok masterKey) ↔
      ∃ text masterKey, config.masterKey? = some text ∧
        Blank.trim text = Base64.encode masterKey ∧ masterKey.length = 32 := by
  simp only [masterKey_eq_ok_iff]
  constructor
  · rintro ⟨masterKey, hkey, hlength⟩
    obtain ⟨text, htext, -⟩ := trim_getD_ne_empty_iff.mp (hkey ▸ encode_ne_empty hlength)
    rw [htext] at hkey
    exact ⟨text, masterKey, htext, hkey, hlength⟩
  · rintro ⟨text, masterKey, htext, hkey, hlength⟩
    rw [htext]
    exact ⟨masterKey, hkey, hlength⟩

/-! ## All settings -/

/-- A configuration gives the key that wraps content keys: the key service has it under a name that
is not blank, or it is there itself, in base64, with one of the algorithms of a local provider. -/
inductive GivesKey (config : Config) : Prop where
  | kms (keyId : String) (hprovider : Blank.trim config.keyProvider = "kms")
      (hkeyId : config.keyId? = some keyId) (hblank : Blank.trim keyId ≠ "")
  | localKey (text : String) (masterKey : Bytes)
      (hprovider : Blank.trim config.keyProvider = "local")
      (halgorithm : Blank.trim config.wrapAlgorithm = "AESWrap" ∨
        Blank.trim config.wrapAlgorithm = "AES/GCM")
      (htext : config.masterKey? = some text) (hkey : Blank.trim text = Base64.encode masterKey)
      (hlength : masterKey.length = 32)

/-- A configuration gives all that a run is going to need. -/
structure Complete (config : Config) : Prop where
  bucket : Blank.trim config.bucket ≠ ""
  scheme : ∃ scheme : Scheme, Blank.trim config.scheme = scheme.name
  key : config.GivesKey

/-- The key provider that a configuration describes, as its settings are read. -/
inductive Describes (config : Config) (service : KeyService) : KeyProvider → Prop where
  | kms (keyId : String) (hsource : config.keySource = .ok .kms)
      (hkeyId : config.keyId? = some keyId) :
      Describes config service (RemoteKeys.mk service keyId).provider
  | localKey (masterKey : Bytes) (algorithm : WrapAlgorithm) (keys : LocalKeys)
      (hsource : config.keySource = .ok .localKey) (hmasterKey : config.masterKey = .ok masterKey)
      (halgorithm : config.localAlgorithm = .ok algorithm)
      (hcreate : LocalKeys.create masterKey algorithm = .ok keys) :
      Describes config service keys.provider

theorem validate_eq_ok_iff : config.validate = .ok () ↔ config.Complete := by
  rw [validate, Outcome.check_bind_eq_ok_iff, Outcome.check_bind_eq_ok_iff, Outcome.bind_eq_ok_iff,
    requireText_eq_ok_iff, Outcome.discard_eq_ok_iff]
  simp only [contentScheme_eq_ok_iff]
  constructor
  · rintro ⟨hbucket, hscheme, source, hsource, hkey⟩
    refine ⟨hbucket, hscheme, ?_⟩
    rw [keySource_eq_ok_iff] at hsource
    cases source with
    | kms =>
        rw [requireText_eq_ok_iff, trim_getD_ne_empty_iff] at hkey
        obtain ⟨keyId, hkeyId, hblank⟩ := hkey
        exact .kms keyId hsource hkeyId hblank
    | localKey =>
        obtain ⟨halgorithm, hmasterKey⟩ := Outcome.check_bind_eq_ok_iff.mp hkey
        rw [Outcome.discard_eq_ok_iff, exists_localAlgorithm_iff] at halgorithm
        rw [Outcome.discard_eq_ok_iff, exists_masterKey_iff] at hmasterKey
        obtain ⟨text, masterKey, htext, hkey, hlength⟩ := hmasterKey
        exact .localKey text masterKey hsource halgorithm htext hkey hlength
  · intro hcomplete
    refine ⟨hcomplete.bucket, hcomplete.scheme, ?_⟩
    cases hcomplete.key with
    | kms keyId hprovider hkeyId hblank =>
        exact ⟨.kms, keySource_eq_ok_iff.mpr hprovider,
          requireText_eq_ok_iff.mpr (trim_getD_ne_empty_iff.mpr ⟨keyId, hkeyId, hblank⟩)⟩
    | localKey text masterKey hprovider halgorithm htext hkey hlength =>
        refine ⟨.localKey, keySource_eq_ok_iff.mpr hprovider, ?_⟩
        exact Outcome.check_bind_eq_ok_iff.mpr
          ⟨Outcome.discard_eq_ok_iff.mpr (exists_localAlgorithm_iff.mpr halgorithm),
            Outcome.discard_eq_ok_iff.mpr
              (exists_masterKey_iff.mpr ⟨text, masterKey, htext, hkey, hlength⟩)⟩

/-- A complete configuration describes a key provider, whatever the key service. -/
theorem GivesKey.exists_describes (hkey : config.GivesKey) (service : KeyService) :
    ∃ provider, config.Describes service provider := by
  cases hkey with
  | kms keyId hprovider hkeyId =>
      exact ⟨_, .kms keyId (keySource_eq_ok_iff.mpr hprovider) hkeyId⟩
  | localKey text masterKey hprovider halgorithm htext hkey hlength =>
      obtain ⟨algorithm, halgorithm⟩ := exists_localAlgorithm_iff.mpr halgorithm
      obtain ⟨masterKey, hmasterKey⟩ :=
        exists_masterKey_iff.mpr ⟨text, masterKey, htext, hkey, hlength⟩
      obtain ⟨supported, hsupported⟩ := (localAlgorithm_eq_ok_iff.mp halgorithm).2
      exact ⟨_, .localKey masterKey algorithm ⟨masterKey, supported⟩
        (keySource_eq_ok_iff.mpr hprovider) hmasterKey halgorithm
        (LocalKeys.create_eq_ok_iff.mpr
          ⟨rfl, hsupported, (masterKey_eq_ok_iff.mp hmasterKey).2⟩)⟩

/-- The client has the provider that is described. -/
theorem client_of_describes {service : KeyService} {provider : KeyProvider} {scheme : Scheme}
    (hdescribes : config.Describes service provider) (hscheme : config.contentScheme = .ok scheme) :
    config.client service = .ok ⟨provider, scheme, config.placement⟩ := by
  cases hdescribes with
  | kms keyId hsource hkeyId =>
      rw [client, hsource, hkeyId, hscheme]
      rfl
  | localKey masterKey algorithm keys hsource hmasterKey halgorithm hcreate =>
      simp only [client, hsource, hmasterKey, halgorithm, hcreate, hscheme, Except.mapError, bind,
        Except.bind, pure, Except.pure]

/-- From a configuration that has passed its check the client can be made. -/
theorem exists_client_of_validate (hvalid : config.validate = .ok ()) (service : KeyService) :
    ∃ provider scheme, config.Describes service provider ∧ config.contentScheme = .ok scheme ∧
      config.client service = .ok ⟨provider, scheme, config.placement⟩ := by
  obtain ⟨-, hscheme, hkey⟩ := validate_eq_ok_iff.mp hvalid
  obtain ⟨scheme, hscheme⟩ := hscheme
  rw [← contentScheme_eq_ok_iff] at hscheme
  obtain ⟨provider, hdescribes⟩ := hkey.exists_describes service
  exact ⟨provider, scheme, hdescribes, hscheme, client_of_describes hdescribes hscheme⟩

/-- Once the configuration is loaded, a run is set up unless its traces cannot be sent. -/
theorem setUp_of_load {environment : List (String × String)} (hload : load environment = .ok config)
    (service : KeyService) :
    (∃ client, setUp environment service = .ok (config, client)) ↔
      Traces.check environment config = .ok () := by
  have hvalid : config.validate = .ok () := by
    obtain ⟨read, -, hread⟩ := Outcome.bind_eq_ok_iff.mp hload
    obtain ⟨hvalid, hsame⟩ := Outcome.check_bind_eq_ok_iff.mp hread
    cases hsame
    exact hvalid
  obtain ⟨provider, scheme, -, -, hclient⟩ := exists_client_of_validate hvalid service
  constructor
  · rintro ⟨client, hsetUp⟩
    obtain ⟨loaded, hloaded, hrest⟩ := Outcome.bind_eq_ok_iff.mp hsetUp
    rw [Outcome.mapError_eq_ok_iff, hload] at hloaded
    cases hloaded
    exact Outcome.mapError_eq_ok_iff.mp (Outcome.check_bind_eq_ok_iff.mp hrest).1
  · intro hcheck
    refine ⟨⟨provider, scheme, config.placement⟩, ?_⟩
    simp only [setUp, hload, hcheck, hclient, Except.mapError, bind, Except.bind, pure,
      Except.pure]

/-- A configuration passes its check exactly if it is complete. Then all that is read of it later
can be read: its scheme, the key source, and for that the name of the key, or the master key and the
algorithm of which a local provider can be made. A provider that reads the master key from the text
itself takes the same master keys, and is the provider made from what the configuration reads. -/
theorem validate_exact (config : Config) :
    (config.validate = .ok () ↔ config.Complete) ∧
    (config.validate = .ok () → ∀ service, ∃ provider scheme,
      config.Describes service provider ∧ config.contentScheme = .ok scheme ∧
        config.client service = .ok ⟨provider, scheme, config.placement⟩) ∧
    ∀ algorithm keys,
      LocalKeys.ofBase64 (config.masterKey?.getD "") algorithm = .ok keys ↔
        config.masterKey = .ok keys.masterKey ∧
          LocalKeys.create keys.masterKey algorithm = .ok keys ∧
            keys.algorithm.recorded = algorithm := by
  refine ⟨validate_eq_ok_iff, exists_client_of_validate, fun algorithm keys ↦ ?_⟩
  rw [LocalKeys.ofBase64_eq_ok_iff, masterKey_eq_ok_iff, LocalKeys.create_eq_ok_iff]
  constructor
  · rintro ⟨hkey, hlength, halgorithm⟩
    exact ⟨⟨hkey, hlength⟩, ⟨rfl, halgorithm, hlength⟩, halgorithm⟩
  · rintro ⟨⟨hkey, hlength⟩, -, halgorithm⟩
    exact ⟨hkey, hlength, halgorithm⟩

/-- Blanks around the key source, the scheme and the master key do no harm. -/
theorem validate_exact_padded :
    ∃ config : Config, config.masterKey? = some (" " ++ Base64.encode (Bytes.zeros 32) ++ "\n") ∧
      config.validate = .ok () ∧
      ∀ service, ∃ provider scheme, config.Describes service provider ∧
        config.contentScheme = .ok scheme ∧
          config.client service = .ok ⟨provider, scheme, config.placement⟩ := by
  obtain ⟨hvalidate, hclient, -⟩ := validate_exact
    ⟨"bucket", none, " local", none, some (" " ++ Base64.encode (Bytes.zeros 32) ++ "\n"),
      "AES/GCM", "AES/CTR/NoPadding ", .objectMetadata, none, "info"⟩
  have hvalid := hvalidate.mpr {
    bucket := by decide
    scheme := ⟨.ctr, by decide⟩
    key := .localKey _ (Bytes.zeros 32) (by decide) (.inr (by decide)) rfl (by decide) (by decide) }
  exact ⟨_, rfl, hvalid, hclient hvalid⟩

end Config

end SealedStore
