import SealedStore.Proofs.Cipher.Gcm.Release
import SealedStore.Proofs.Cipher.Reset

/-!
# Mistakes with the tag can be mended

A session in Galois counter mode that is to end a decryption needs a tag of 16 bytes. While it has
none, or one of another length, it says so and keeps what it was fed, however often it is asked and
whatever is fed in between (`Fed.run_attempts`). Given a tag of 16 bytes it then ends as if it had
been made with that tag and had been fed everything at once: `mistakes_mended`.
-/

namespace SealedStore.Gcm

variable {key : Aes.Key} {iv : BitVec 96} {given data fed : Bytes} {session : Session}
  {operations : List Session.Operation}

/-- What a session says of a tag that is not 16 bytes long. -/
def tagMistake (given : Bytes) : CipherError :=
  if given = [] then .missingTag else .tagLength tagLength given.length

/-- Calls on a session that decrypts and holds a tag: it is fed, it is given tags of any length, and
it is asked to end while the tag at hand is not 16 bytes long. -/
inductive Attempts : (given : Bytes) → List Session.Operation → Prop
  | nil (given : Bytes) : Attempts given []
  | feed {given : Bytes} (data : Bytes) {rest : List Session.Operation}
      (hrest : Attempts given rest) : Attempts given (.feed .decrypt data :: rest)
  | setTag (given : Bytes) {tag : Bytes} {rest : List Session.Operation}
      (hrest : Attempts tag rest) : Attempts given (.setTag tag :: rest)
  | finalize {given : Bytes} {rest : List Session.Operation} (hgiven : given.length ≠ tagLength)
      (hrest : Attempts given rest) : Attempts given (.finalize .decrypt :: rest)

/-- The answers to such calls: nothing is released, and to every end the mistake with the tag at
hand. -/
def attemptAnswers : (given : Bytes) → List Session.Operation → List (Except CipherError Bytes)
  | _, [] => []
  | _, .setTag tag :: rest => .ok [] :: attemptAnswers tag rest
  | given, .finalize _ :: rest => .error (tagMistake given) :: attemptAnswers given rest
  | given, _ :: rest => .ok [] :: attemptAnswers given rest

/-- The tag at hand after such calls: the one given last. -/
def tagAfter (given : Bytes) : List Session.Operation → Bytes
  | [] => given
  | .setTag tag :: rest => tagAfter tag rest
  | _ :: rest => tagAfter given rest

/-! ## One attempt -/

/-- An end with such a tag may be tried again. -/
theorem conclude_decrypt_of_length (cipher : BlockCipher) (hgiven : given.length ≠ tagLength) :
    (machine cipher iv).conclude .decrypt data given = .retry (tagMistake given) := by
  have hbits : given.toBits? 128 = none := by
    refine Option.eq_none_iff_forall_ne_some.mpr fun expected hexpected ↦ hgiven ?_
    have hlength := Bytes.exists_toBits?_eq_some_iff.mp ⟨expected, hexpected⟩
    unfold tagLength
    omega
  cases given with
  | nil => rfl
  | cons byte rest =>
      simp only [machine, hbits]
      rfl

/-- It leaves the session with all it was fed. -/
theorem finalize_opening_of_length (hgiven : given.length ≠ tagLength) :
    (opening key iv given fed).finalize .decrypt =
      (.error (tagMistake given), opening key iv given fed) := by
  have hfinalize : (opening key iv given fed).finalize .decrypt = _ :=
    @Session.finalize_of_active (opening key iv given fed) .decrypt fed
  have hconclude : (opening key iv given fed).machine.conclude .decrypt fed
      (opening key iv given fed).tag = .retry (tagMistake given) :=
    conclude_decrypt_of_length (Aes.cipher key) hgiven
  rw [hfinalize, hconclude]
  rfl

theorem isOpen_opening : (opening key iv given fed).IsOpen .decrypt :=
  .inr ⟨fed, rfl⟩

namespace Fed

/-- A session that can decrypt takes any tag, and nothing else changes. -/
theorem setTag_of_isOpen (hfed : Fed key iv fed session) (hopen : session.IsOpen .decrypt)
    (tag : Bytes) : (session.setTag tag).tag = tag ∧ (session.setTag tag).IsOpen .decrypt := by
  cases hfed with
  | fresh => exact ⟨rfl, .inl rfl⟩
  | opening => exact ⟨rfl, isOpen_opening⟩
  | closed _ hclosed => exact absurd hopen hclosed

/-- It ends as a new session that has its tag and is fed everything at once. -/
theorem finalize_eq_process (hfed : Fed key iv fed session) (hopen : session.IsOpen .decrypt) :
    session.finalize .decrypt = (Gcm.fresh key iv session.tag).process .decrypt fed := by
  have hprocess : (Gcm.fresh key iv session.tag).process .decrypt fed =
      (Gcm.opening key iv session.tag fed).finalize .decrypt :=
    (Fed.fresh session.tag).process_decrypt (.inl rfl)
  rw [hfed.finalize_decrypt hopen, hprocess]

/-- A device that shows it keeps what it has been fed. -/
theorem eq_device_of_shows (hfed : Fed key iv fed session) (hopen : session.IsOpen .decrypt)
    {device : Device} (hshows : Shows device session) :
    device = ⟨.gcm, key, iv, session.tag, session.state, fed⟩ := by
  cases hfed with
  | fresh => exact hshows.eq_device rfl
  | opening => exact hshows.eq_deviceWith rfl
  | closed _ hclosed => exact absurd hopen hclosed

/-- After any attempts the session can still decrypt, it has given the answers that the tags call
for, and the last tag is at hand. The induction is on the attempts; `Fed` carries what was fed. -/
theorem run_attempts (hfed : Fed key iv fed session) (hopen : session.IsOpen .decrypt)
    (hattempts : Attempts session.tag operations) :
    (session.run operations).1 = attemptAnswers session.tag operations ∧
      (session.run operations).2.IsOpen .decrypt ∧
      (session.run operations).2.tag = tagAfter session.tag operations := by
  obtain ⟨given, hgiven⟩ : ∃ given, session.tag = given := ⟨_, rfl⟩
  rw [hgiven] at hattempts ⊢
  induction hattempts generalizing fed session with
  | nil => exact ⟨rfl, hopen, hgiven⟩
  | feed data hrest ih =>
      obtain ⟨hanswers, hlast⟩ := ih (.opening session.tag (fed ++ data)) isOpen_opening hgiven
      simp only [Session.run, Session.step, hfed.feed_decrypt hopen]
      exact ⟨congrArg _ hanswers, hlast⟩
  | @setTag _ tag _ hrest ih =>
      obtain ⟨htag, hnext⟩ := hfed.setTag_of_isOpen hopen tag
      obtain ⟨hanswers, hlast⟩ := ih (hfed.step (.setTag tag)) hnext htag
      exact ⟨congrArg _ hanswers, hlast⟩
  | finalize hlength hrest ih =>
      subst hgiven
      obtain ⟨hanswers, hlast⟩ := ih (.opening session.tag fed) isOpen_opening rfl
      simp only [Session.run, Session.step, hfed.finalize_decrypt hopen,
        finalize_opening_of_length hlength]
      exact ⟨congrArg _ hanswers, hlast⟩

end Fed

/-- A session is open for decryption if it is fresh or has begun to decrypt. -/
theorem isOpen_decrypt_iff :
    session.IsOpen .decrypt ↔ session.state = .fresh ∨ session.state = .decrypting := by
  unfold Session.IsOpen Session.state Progress.state
  cases session.progress with
  | active direction work => cases direction <;> simp [Direction.state]
  | _ => simp

/-- A session in Galois counter mode is created, with any tag, and any calls are made on it that
leave it fresh or decrypting. Then attempts are made to decrypt, with no tag of 16 bytes at hand
whenever the end is asked for.

* Nothing is released, and each end is answered with the mistake: that there is no tag, or the
  length that the tag at hand has.
* The session is as ready as before, and its device keeps all ciphertext fed since it was fresh.
* Once the tag at hand has 16 bytes, the end is answered, and leaves the session, as the decryption
  of all that ciphertext by a new session that is made with the tag. -/
theorem mistakes_mended {keyBytes ivBytes : Bytes} {created next : Session}
    {before attempts : List Session.Operation}
    (hcreate : Session.create .gcm keyBytes ivBytes given = .ok created)
    (hsession : (created.run before).2 = session)
    (hstate : session.state = .fresh ∨ session.state = .decrypting)
    (hattempts : Attempts session.tag attempts) (hnext : (session.run attempts).2 = next) :
    (session.run attempts).1 = attemptAnswers session.tag attempts ∧
    (next.state = .fresh ∨ next.state = .decrypting) ∧
    (∃ key iv, keyBytes.toBits? 256 = some key ∧ ivBytes.toBits? 96 = some iv ∧
      created.device.after (before ++ attempts) =
        ⟨.gcm, key, iv, tagAfter session.tag attempts, next.state,
          ciphertextFed (before ++ attempts)⟩) ∧
    ((tagAfter session.tag attempts).length = tagLength → ∃ opener,
      Session.create .gcm keyBytes ivBytes (tagAfter session.tag attempts) = .ok opener ∧
        next.finalize .decrypt =
          opener.process .decrypt (ciphertextFed (before ++ attempts))) := by
  obtain ⟨key, iv, hkey, hiv, rfl⟩ := create_eq_ok_iff.mp hcreate
  subst hsession hnext
  have hopen := isOpen_decrypt_iff.mpr hstate
  have hbefore : Fed key iv (ciphertextFed before) ((fresh key iv given).run before).2 :=
    (Fed.fresh given).run before
  obtain ⟨hanswers, hlast, htag⟩ := hbefore.run_attempts hopen hattempts
  have hafter := hbefore.run attempts
  rw [← htag]
  rw [← Session.run_append] at hafter hlast ⊢
  have hall : (before ++ attempts).foldl collect [] =
      attempts.foldl collect (ciphertextFed before) := List.foldl_append
  rw [← hall] at hafter
  have hshows := (Session.shows_device hcreate).after (before ++ attempts)
  refine ⟨hanswers, isOpen_decrypt_iff.mp hlast,
    ⟨key, iv, hkey, hiv, hafter.eq_device_of_shows hlast hshows⟩, fun _ ↦ ?_⟩
  exact ⟨_, create_eq_ok_iff.mpr ⟨key, iv, hkey, hiv, rfl⟩, hafter.finalize_eq_process hlast⟩

/-- A ciphertext comes in two parts, the tag after it, and the end is asked for in between, once
without a tag and once with a tag of three bytes. The session opens what it was fed all the same. -/
theorem mistakes_mended_late :
    ∃ created session next opener,
      Session.create .gcm (Bytes.zeros 32) (Bytes.zeros 12) [] = .ok created ∧
      (created.run [.feed .decrypt (zerosCiphertext.take 5)]).2 = session ∧
      (session.run [.finalize .decrypt, .setTag [1, 2, 3],
        .feed .decrypt (zerosCiphertext.drop 5), .finalize .decrypt, .setTag zerosTag]).1 =
          [.error .missingTag, .ok [], .ok [], .error (.tagLength 16 3), .ok []] ∧
      (session.run [.finalize .decrypt, .setTag [1, 2, 3],
        .feed .decrypt (zerosCiphertext.drop 5), .finalize .decrypt, .setTag zerosTag]).2 = next ∧
      Session.create .gcm (Bytes.zeros 32) (Bytes.zeros 12) zerosTag = .ok opener ∧
      next.finalize .decrypt = opener.process .decrypt zerosCiphertext ∧
      (next.finalize .decrypt).1 = .ok (Bytes.zeros 16) := by
  have hkeyBits : (Bytes.zeros 32).toBits? 256 = some 0 := by decide
  have hivBits : (Bytes.zeros 12).toBits? 96 = some 0 := by decide
  have hcreate (given : Bytes) :
      Session.create .gcm (Bytes.zeros 32) (Bytes.zeros 12) given = .ok (fresh 0 0 given) :=
    create_eq_ok_iff.mpr ⟨0, 0, hkeyBits, hivBits, rfl⟩
  have hattempts : Attempts [] [.finalize .decrypt, .setTag [1, 2, 3],
      .feed .decrypt (zerosCiphertext.drop 5), .finalize .decrypt, .setTag zerosTag] :=
    .finalize (by decide) (.setTag _ (.feed _ (.finalize (by decide) (.setTag _ (.nil _)))))
  obtain ⟨hanswers, -, -, hends⟩ := mistakes_mended (hcreate [])
    (show ((fresh 0 0 []).run [.feed .decrypt (zerosCiphertext.take 5)]).2 = _ from rfl) (.inr rfl)
    hattempts rfl
  obtain ⟨opener, hopener, hends⟩ := hends (by decide)
  cases (hcreate zerosTag).symm.trans hopener
  refine ⟨_, _, _, _, hcreate [], rfl, hanswers, rfl, hopener, hends, ?_⟩
  rw [hends]
  exact process_decrypt_iff.mpr ⟨by decide, by decide +kernel, by decide +kernel⟩

end SealedStore.Gcm
