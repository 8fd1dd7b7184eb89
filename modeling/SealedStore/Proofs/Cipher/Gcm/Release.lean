import SealedStore.Proofs.Cipher.Gcm
import SealedStore.Proofs.Cipher.Lifecycle

/-!
# When plaintext is released

Galois counter mode gives plaintext away only at the end, and only against the tag of everything it
was fed. A session that is made for one ciphertext and tag opens them exactly if they are what a
session for the same key and IV makes of the plaintext; and in any run, with tags and resets in
whatever order, an ending that answers has compared the tag at hand with that of the ciphertext fed
since the session was fresh (`release_exact`). The invariant of runs is `Fed`: a session that can
still decrypt holds exactly that ciphertext.
-/

namespace SealedStore.Gcm

variable {key : Aes.Key} {iv : BitVec 96} {given data message output fed : Bytes}
  {session : Session} {operation : Session.Operation}

/-- A fresh session with a tag, which may be empty. -/
def fresh (key : Aes.Key) (iv : BitVec 96) (given : Bytes) : Session :=
  ⟨.gcm, key, iv, given, .fresh⟩

/-- A session with a tag that has been fed some ciphertext. -/
def opening (key : Aes.Key) (iv : BitVec 96) (given fed : Bytes) : Session :=
  ⟨.gcm, key, iv, given, .active .decrypt fed⟩

/-- The typed key and IV of a session in Galois counter mode. -/
theorem create_eq_ok_iff {keyBytes ivBytes : Bytes} :
    Session.create .gcm keyBytes ivBytes given = .ok session ↔
      ∃ key iv, keyBytes.toBits? 256 = some key ∧ ivBytes.toBits? 96 = some iv ∧
        session = fresh key iv given :=
  Session.create_eq_ok_iff

/-! ## One message -/

/-- A fresh session seals any message that is not too long: the ciphertext is its answer, and the
tag of the message is its tag from then on. -/
theorem process_encrypt_iff (hgiven : given ≠ []) :
    ((fresh key iv []).process .encrypt message).1 = .ok data ∧
        ((fresh key iv []).process .encrypt message).2.tag? = some given ↔
      message.length ≤ maxMessage ∧ data = ciphertext (Aes.cipher key) iv message ∧
        given = messageTag (Aes.cipher key) iv message := by
  rw [Session.tag?_eq_some_iff hgiven, Session.process_eq_message rfl, Outcome.map_eq_ok_iff]
  constructor
  · intro hsealed
    obtain ⟨⟨⟨_, final⟩, hmessage, rfl⟩, htag⟩ := hsealed
    rw [Session.tag_process rfl hmessage] at htag
    obtain ⟨hlength, hdata, hfinal⟩ := (message_encrypt_eq_ok_iff _ _).mp hmessage
    exact ⟨hlength, hdata, htag ▸ hfinal⟩
  · intro hsealed
    have hmessage : (machine (Aes.cipher key) iv).message .encrypt message [] = .ok (data, given) :=
      (message_encrypt_eq_ok_iff _ _).mpr hsealed
    exact ⟨⟨(data, given), hmessage, rfl⟩, Session.tag_process rfl hmessage⟩

/-- A fresh session opens what is the ciphertext of a message if it holds the tag of the message. -/
theorem process_decrypt_iff :
    ((fresh key iv given).process .decrypt data).1 = .ok message ↔
      message.length ≤ maxMessage ∧ data = ciphertext (Aes.cipher key) iv message ∧
        given = messageTag (Aes.cipher key) iv message := by
  rw [Session.process_eq_message rfl, Outcome.map_eq_ok_iff]
  constructor
  · intro hopened
    obtain ⟨⟨_, final⟩, hmessage, rfl⟩ := hopened
    obtain ⟨hlength, hdata, hgiven, -⟩ := (message_decrypt_eq_ok_iff _ _).mp hmessage
    exact ⟨hlength, hdata, hgiven⟩
  · intro hsealed
    obtain ⟨hlength, hdata, hgiven⟩ := hsealed
    exact ⟨(message, given),
      (message_decrypt_eq_ok_iff _ _).mpr ⟨hlength, hdata, hgiven, rfl⟩, rfl⟩

/-- A fresh session with a tag of the right length that does not answer has found it to be the wrong
one. -/
theorem process_decrypt_of_ne_ok {expected : Block} (hexpected : given.toBits? 128 = some expected)
    (hfails : ∀ message, ((fresh key iv given).process .decrypt data).1 ≠ .ok message) :
    (fresh key iv given).process .decrypt data =
      (.error .authenticationFailure, { fresh key iv given with progress := .poisoned }) := by
  have hends (work : Bytes) (error : CipherError) :
      (machine (Aes.cipher key) iv).conclude .decrypt work given ≠ .retry error := by
    rw [conclude_decrypt _ _ hexpected]
    split <;> simp
  have hprocess := @Session.process_of_message (fresh key iv given) .decrypt data rfl hends
  have hmessage : (fresh key iv given).machine.message .decrypt data (fresh key iv given).tag =
      if data.length ≤ maxMessage ∧ tag (Aes.cipher key) iv data = expected then
        .ok (ciphertext (Aes.cipher key) iv data, given)
      else .error .authenticationFailure := message_decrypt _ _ hexpected
  rw [hmessage] at hprocess
  by_cases hgenuine : data.length ≤ maxMessage ∧ tag (Aes.cipher key) iv data = expected
  · rw [if_pos hgenuine] at hprocess
    exact absurd (congrArg Prod.fst hprocess) (hfails _)
  · rw [if_neg hgenuine] at hprocess
    exact hprocess

/-! ## What a session has been fed -/

/-- The ciphertext fed after one more operation. A reset forgets it. -/
def collect (fed : Bytes) : Session.Operation → Bytes
  | .feed .decrypt data | .process .decrypt data => fed ++ data
  | .reset => []
  | .feed .encrypt _ | .process .encrypt _ | .finalize _ | .setTag _ => fed

/-- All ciphertext fed in a run since the session was fresh. Calls that were refused count as well:
after one of them nothing is decrypted before the next reset. -/
def ciphertextFed (operations : List Session.Operation) : Bytes :=
  operations.foldl collect []

/-- The session has been fed the ciphertext, as far as it can still decrypt. -/
inductive Fed (key : Aes.Key) (iv : BitVec 96) : (fed : Bytes) → Session → Prop
  /-- A fresh session has been fed nothing, whatever its tag. -/
  | fresh (given : Bytes) : Fed key iv [] (fresh key iv given)
  /-- A session that decrypts holds what it has been fed. -/
  | opening (given fed : Bytes) : Fed key iv fed (opening key iv given fed)
  /-- What was fed to any other session does not matter before the next reset. -/
  | closed {fed : Bytes} {session : Session} (hmade : session.made = (fresh key iv []).made)
      (hclosed : ¬ session.IsOpen .decrypt) : Fed key iv fed session

theorem ciphertextFed_concat (operations : List Session.Operation)
    (operation : Session.Operation) :
    ciphertextFed (operations ++ [operation]) = collect (ciphertextFed operations) operation := by
  simp [ciphertextFed]

namespace Fed

theorem made_eq (hfed : Fed key iv fed session) : session.made = (Gcm.fresh key iv []).made := by
  cases hfed with
  | fresh => rfl
  | opening => rfl
  | closed hmade => exact hmade

/-- More ciphertext is kept for the end. -/
theorem feed_decrypt (hfed : Fed key iv fed session) (hopen : session.IsOpen .decrypt) :
    session.feed .decrypt data = (.ok [], Gcm.opening key iv session.tag (fed ++ data)) := by
  cases hfed with
  | fresh => rfl
  | opening => rfl
  | closed _ hclosed => exact absurd hopen hclosed

/-- The end of the session is that of the ciphertext it has been fed. -/
theorem finalize_decrypt (hfed : Fed key iv fed session) (hopen : session.IsOpen .decrypt) :
    session.finalize .decrypt = (Gcm.opening key iv session.tag fed).finalize .decrypt := by
  cases hfed with
  | fresh => rfl
  | opening => rfl
  | closed _ hclosed => exact absurd hopen hclosed

/-- Feeding the rest and ending is the end with the rest in place. -/
theorem process_decrypt (hfed : Fed key iv fed session) (hopen : session.IsOpen .decrypt) :
    session.process .decrypt data =
      (Gcm.opening key iv session.tag (fed ++ data)).finalize .decrypt := by
  rw [Session.process_eq_followedBy, hfed.feed_decrypt hopen]
  simp only [Session.followedBy, List.nil_append]
  cases (Gcm.opening key iv session.tag (fed ++ data)).finalize .decrypt with
  | mk answer ended => cases answer <;> rfl

/-- A session that is not open is closed. -/
theorem of_isOpen (hmade : session.made = (Gcm.fresh key iv []).made)
    (hopen : session.IsOpen .decrypt → Fed key iv fed session) : Fed key iv fed session :=
  Classical.byCases hopen (.closed hmade)

/-- Ending keeps the ciphertext if the tag can still be mended. -/
theorem finalize_opening (key : Aes.Key) (iv : BitVec 96) (given fed : Bytes) :
    Fed key iv fed ((Gcm.opening key iv given fed).finalize .decrypt).2 := by
  have hmade := Session.made_step (Gcm.opening key iv given fed) (.finalize .decrypt)
  refine of_isOpen hmade fun hopen ↦ ?_
  have hfinalize : (Gcm.opening key iv given fed).finalize .decrypt = _ :=
    @Session.finalize_of_active (Gcm.opening key iv given fed) .decrypt fed
  rw [hfinalize] at hopen ⊢
  cases hconclude : (Gcm.opening key iv given fed).machine.conclude .decrypt fed
      (Gcm.opening key iv given fed).tag with
  | done output tag =>
      rw [hconclude] at hopen
      exact absurd hopen Session.not_isOpen_finalized
  | retry error => exact .opening given fed
  | broken error =>
      rw [hconclude] at hopen
      exact absurd hopen Session.not_isOpen_poisoned

/-- Without a reset, only a session that was open for decryption before can be so after. -/
theorem of_isOpen_step (hfed : Fed key iv fed session) (operation : Session.Operation)
    (hreset : operation ≠ .reset) {more : Bytes}
    (hopen : session.IsOpen .decrypt → Fed key iv more (session.step operation).2) :
    Fed key iv more (session.step operation).2 :=
  of_isOpen ((session.made_step operation).trans hfed.made_eq) fun hnext ↦
    hopen (Session.isOpen_of_step hreset hnext)

/-- A call in the other direction closes the session, or it is refused. -/
theorem step_encrypt (hfed : Fed key iv fed session)
    (hdirection : operation.direction? = some .encrypt) :
    Fed key iv fed (session.step operation).2 := by
  have heffect := session.effect_step hdirection
  have hother : Direction.decrypt ≠ .encrypt := by simp
  refine of_isOpen (heffect.made_eq.trans hfed.made_eq) fun hopen ↦ ?_
  rw [heffect.eq_of_isOpen hother hopen]
  exact hfed

/-- What the session has been fed after one more operation. -/
theorem step (hfed : Fed key iv fed session) (operation : Session.Operation) :
    Fed key iv (collect fed operation) (session.step operation).2 := by
  cases operation with
  | reset =>
      obtain ⟨mode, sessionKey, sessionIv, _, _⟩ := session
      cases hfed.made_eq
      exact .fresh []
  | setTag tag =>
      refine hfed.of_isOpen_step (.setTag tag) (by simp) fun hopen ↦ ?_
      cases hfed with
      | fresh => exact .fresh tag
      | opening => exact .opening tag fed
      | closed _ hclosed => exact absurd hopen hclosed
  | feed direction data =>
      cases direction with
      | encrypt => exact hfed.step_encrypt rfl
      | decrypt =>
          refine hfed.of_isOpen_step (.feed .decrypt data) (by simp) fun hopen ↦ ?_
          rw [Session.step, hfed.feed_decrypt hopen]
          exact .opening session.tag (fed ++ data)
  | finalize direction =>
      cases direction with
      | encrypt => exact hfed.step_encrypt rfl
      | decrypt =>
          refine hfed.of_isOpen_step (.finalize .decrypt) (by simp) fun hopen ↦ ?_
          rw [Session.step, hfed.finalize_decrypt hopen]
          exact finalize_opening key iv session.tag fed
  | process direction data =>
      cases direction with
      | encrypt => exact hfed.step_encrypt rfl
      | decrypt =>
          refine hfed.of_isOpen_step (.process .decrypt data) (by simp) fun hopen ↦ ?_
          rw [Session.step, hfed.process_decrypt hopen]
          exact finalize_opening key iv session.tag (fed ++ data)

/-- What the session has been fed after a run. -/
theorem run (hfed : Fed key iv fed session) (operations : List Session.Operation) :
    Fed key iv (operations.foldl collect fed) (session.run operations).2 := by
  induction operations generalizing fed session with
  | nil => exact hfed
  | cons operation rest ih => exact ih (hfed.step operation)

/-- Plaintext is released for exactly the ciphertext fed, and against its tag. -/
theorem finalize_opening_iff :
    ((Gcm.opening key iv given fed).finalize .decrypt).1 = .ok output ↔
      output.length ≤ maxMessage ∧ fed = ciphertext (Aes.cipher key) iv output ∧
        given = messageTag (Aes.cipher key) iv output := by
  have hprocess : (Gcm.fresh key iv given).process .decrypt fed =
      (Gcm.opening key iv given fed).finalize .decrypt :=
    (Fed.fresh given).process_decrypt (.inl rfl)
  rw [← hprocess]
  exact process_decrypt_iff

theorem eq_of_finalize_opening
    (hanswer : ((Gcm.opening key iv given fed).finalize .decrypt).1 = .ok output) :
    fed = ciphertext (Aes.cipher key) iv output ∧
      given = Bytes.ofBits (tag (Aes.cipher key) iv fed) := by
  obtain ⟨-, hfed, hgiven⟩ := finalize_opening_iff.mp hanswer
  refine ⟨hfed, ?_⟩
  rw [hgiven, hfed, messageTag]

/-- What ends with an answer in decryption has compared the tags. -/
theorem of_step (hfed : Fed key iv fed session) (hdirection : operation.direction? = some .decrypt)
    (hends : operation.ends) (hanswer : (session.step operation).1 = .ok output) :
    collect fed operation = ciphertext (Aes.cipher key) iv output ∧
      session.tag = Bytes.ofBits (tag (Aes.cipher key) iv (collect fed operation)) := by
  have hopen := (session.effect_step hdirection).isOpen_of_isOk (by rw [hanswer]; rfl)
  cases operation with
  | feed => cases hends
  | finalize =>
      cases hdirection
      rw [Session.step, hfed.finalize_decrypt hopen] at hanswer
      exact eq_of_finalize_opening hanswer
  | process _ data =>
      cases hdirection
      rw [Session.step, hfed.process_decrypt hopen] at hanswer
      exact eq_of_finalize_opening hanswer
  | reset => cases hends
  | setTag => cases hends

/-- Feeding releases nothing. -/
theorem eq_nil_of_feed (hfed : Fed key iv fed session)
    (hanswer : (session.feed .decrypt data).1 = .ok output) : output = [] := by
  have hopen := (session.effect_feed .decrypt data).isOpen_of_isOk (by rw [hanswer]; rfl)
  rw [hfed.feed_decrypt hopen] at hanswer
  cases hanswer
  rfl

end Fed

/-! ## All of it -/

/-- What becomes of 16 zero bytes under the zero key and IV. -/
def zerosCiphertext : Bytes :=
  [0xce, 0xa7, 0x40, 0x3d, 0x4d, 0x60, 0x6b, 0x6e, 0x07, 0x4e, 0xc5, 0xd3, 0xba, 0xf3, 0x9d, 0x18]

/-- The tag of that ciphertext. -/
def zerosTag : Bytes :=
  [0xd0, 0xd1, 0xc8, 0xa7, 0x99, 0x99, 0x6b, 0xf0, 0x26, 0x5b, 0x98, 0xb5, 0xd4, 0x8a, 0xb9, 0x19]

/-- Sessions in Galois counter mode under a key and an IV of the right lengths.

* With a tag of the right length, a fresh session decrypts some data to a message exactly if a fresh
  session without a tag encrypts the message to the data and then holds the tag. It fails for good
  on any other data.
* After any run, feeding ciphertext releases nothing, and an ending that answers has found the tag at
  hand to be the one of all ciphertext fed, which is the ciphertext of the answer. -/
theorem release_exact {keyBytes ivBytes : Bytes} (hkey : keyBytes.length = Aes.keyLength)
    (hiv : ivBytes.length = Mode.gcm.ivLength) :
    ∃ key iv, keyBytes.toBits? 256 = some key ∧ ivBytes.toBits? 96 = some iv ∧
      (∀ given : Bytes, given.length = tagLength → ∃ sealer opener,
        Session.create .gcm keyBytes ivBytes [] = .ok sealer ∧
        Session.create .gcm keyBytes ivBytes given = .ok opener ∧
        ∀ data,
          (∀ message, (opener.process .decrypt data).1 = .ok message ↔
            (sealer.process .encrypt message).1 = .ok data ∧
              (sealer.process .encrypt message).2.tag? = some given) ∧
          ((∀ message, (opener.process .decrypt data).1 ≠ .ok message) →
            (opener.process .decrypt data).1 = .error .authenticationFailure ∧
              (opener.process .decrypt data).2.state = .poisoned)) ∧
      ∀ given created before session, Session.create .gcm keyBytes ivBytes given = .ok created →
        (created.run before).2 = session →
          (∀ data output, (session.feed .decrypt data).1 = .ok output → output = []) ∧
          ∀ operation output, operation.direction? = some .decrypt → operation.ends →
            (session.step operation).1 = .ok output →
              session.tag =
                Bytes.ofBits (tag (Aes.cipher key) iv (ciphertextFed (before ++ [operation]))) ∧
              ciphertextFed (before ++ [operation]) = ciphertext (Aes.cipher key) iv output := by
  obtain ⟨key, hkeyBits⟩ := Bytes.exists_toBits?_eq_some_iff.mpr
    (show 8 * keyBytes.length = 256 by rw [hkey]; rfl)
  obtain ⟨iv, hivBits⟩ := Bytes.exists_toBits?_eq_some_iff.mpr
    (show 8 * ivBytes.length = 96 by rw [hiv]; rfl)
  have hcreate (given : Bytes) :
      Session.create .gcm keyBytes ivBytes given = .ok (fresh key iv given) :=
    create_eq_ok_iff.mpr ⟨key, iv, hkeyBits, hivBits, rfl⟩
  refine ⟨key, iv, hkeyBits, hivBits, ?_, ?_⟩
  · intro given hlength
    obtain ⟨expected, hexpected⟩ := Bytes.exists_toBits?_eq_some_iff.mpr
      (show 8 * given.length = 128 by rw [hlength]; rfl)
    have hgiven : given ≠ [] := List.ne_nil_of_length_pos (by rw [hlength]; decide)
    refine ⟨fresh key iv [], fresh key iv given, hcreate [], hcreate given, fun data ↦ ⟨?_, ?_⟩⟩
    · intro message
      rw [process_decrypt_iff, process_encrypt_iff hgiven]
    · intro hfails
      rw [process_decrypt_of_ne_ok hexpected hfails]
      exact ⟨rfl, rfl⟩
  · intro given created before session hcreated hsession
    rw [hcreate given] at hcreated
    cases hcreated
    have hfed : Fed key iv (ciphertextFed before) ((fresh key iv given).run before).2 :=
      (Fed.fresh given).run before
    rw [hsession] at hfed
    refine ⟨fun data output ↦ hfed.eq_nil_of_feed, ?_⟩
    intro operation output hdirection hends hanswer
    rw [ciphertextFed_concat]
    exact (hfed.of_step hdirection hends hanswer).symm

/-- A ciphertext is fed before its tag is there. The session still opens it once it has the tag,
which is the one of the ciphertext. -/
theorem release_exact_zeros :
    ∃ created session key, (Bytes.zeros 32).toBits? 256 = some key ∧
      Session.create .gcm (Bytes.zeros 32) (Bytes.zeros 12) [] = .ok created ∧
      (created.run [.feed .decrypt zerosCiphertext, .finalize .decrypt, .setTag zerosTag]).2 =
        session ∧
      (session.finalize .decrypt).1 = .ok (Bytes.zeros 16) ∧
      zerosTag = Bytes.ofBits (tag (Aes.cipher key) 0 zerosCiphertext) := by
  have hkeyBits : (Bytes.zeros 32).toBits? 256 = some 0 := by decide
  have hivBits : (Bytes.zeros 12).toBits? 96 = some 0 := by decide
  have hcreate : Session.create .gcm (Bytes.zeros 32) (Bytes.zeros 12) [] = .ok (fresh 0 0 []) :=
    create_eq_ok_iff.mpr ⟨0, 0, hkeyBits, hivBits, rfl⟩
  have hsession : ((fresh 0 0 []).run [.feed .decrypt zerosCiphertext, .finalize .decrypt,
      .setTag zerosTag]).2 = opening 0 0 zerosTag zerosCiphertext := rfl
  have hfinalize : ((opening 0 0 zerosTag zerosCiphertext).finalize .decrypt).1 =
      .ok (Bytes.zeros 16) :=
    Fed.finalize_opening_iff.mpr ⟨by decide, by decide +kernel, by decide +kernel⟩
  obtain ⟨key, iv, hkey, hiv, -, hruns⟩ := release_exact
    (show (Bytes.zeros 32).length = Aes.keyLength by decide)
    (show (Bytes.zeros 12).length = Mode.gcm.ivLength by decide)
  obtain ⟨-, hends⟩ := hruns [] _ _ _ hcreate hsession
  cases hivBits.symm.trans hiv
  obtain ⟨htag, -⟩ := hends (.finalize .decrypt) _ rfl rfl hfinalize
  exact ⟨_, _, key, hkey, hcreate, hsession, hfinalize, htag⟩

end SealedStore.Gcm
