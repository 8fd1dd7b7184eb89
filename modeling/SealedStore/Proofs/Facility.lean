import SealedStore.Facility.Seeded
import SealedStore.Proofs.Cipher.Message
import SealedStore.Proofs.Outcome

/-!
# What an open facility gives

A session is given exactly for a key and an IV of the right lengths (`exists_contentSession_iff`),
and it answers a whole message with what the machine of its mode makes of it:
`process_contentSession_eq_ok_iff` for content, `process_wrapSession_eq_ok_iff` for keys.
-/

namespace SealedStore

/-- The facility after it has been opened once. -/
def exampleFacility : Facility := (Facility.closed (.ofSeed 0)).acquire

theorem Session.create_eq_ok_iff {mode : Mode} {key iv tag : Bytes} {session : Session} :
    Session.create mode key iv tag = .ok session ↔
      ∃ typedKey typedIv, key.toBits? 256 = some typedKey ∧ iv.toBits? mode.ivBits = some typedIv ∧
        session = ⟨mode, typedKey, typedIv, if mode.authenticated then tag else [], .fresh⟩ := by
  unfold Session.create
  cases key.toBits? 256 with
  | none => simp
  | some typedKey =>
      cases iv.toBits? mode.ivBits with
      | none => simp
      | some typedIv =>
          constructor
          · intro hcreate
            cases hcreate
            exact ⟨typedKey, typedIv, rfl, rfl, rfl⟩
          · intro hparts
            obtain ⟨_, _, hkey, hiv, rfl⟩ := hparts
            cases hkey
            cases hiv
            rfl

/-- A key and an IV of the right lengths give a fresh session, with any tag. -/
theorem Session.exists_create_eq_ok {mode : Mode} {key iv : Bytes}
    (hkey : key.length = Aes.keyLength) (hiv : 8 * iv.length = mode.ivBits) :
    ∃ typedKey typedIv, key.toBits? 256 = some typedKey ∧ iv.toBits? mode.ivBits = some typedIv ∧
      ∀ tag, Session.create mode key iv tag =
        .ok ⟨mode, typedKey, typedIv, if mode.authenticated then tag else [], .fresh⟩ := by
  obtain ⟨typedKey, htypedKey⟩ := Bytes.exists_toBits?_eq_some_iff.mpr
    (show 8 * key.length = 256 by rw [hkey]; rfl)
  obtain ⟨typedIv, htypedIv⟩ := Bytes.exists_toBits?_eq_some_iff.mpr hiv
  exact ⟨typedKey, typedIv, htypedKey, htypedIv, fun tag ↦
    create_eq_ok_iff.mpr ⟨typedKey, typedIv, htypedKey, htypedIv, rfl⟩⟩

/-- There is a session for just these lengths. -/
theorem Session.exists_create_iff {mode : Mode} {key iv tag : Bytes} :
    (∃ session, create mode key iv tag = .ok session) ↔
      key.length = Aes.keyLength ∧ 8 * iv.length = mode.ivBits := by
  constructor
  · intro hsession
    obtain ⟨session, hcreate⟩ := hsession
    obtain ⟨typedKey, typedIv, hkey, hiv, -⟩ := create_eq_ok_iff.mp hcreate
    have hkeyBits := Bytes.exists_toBits?_eq_some_iff.mp ⟨typedKey, hkey⟩
    refine ⟨?_, Bytes.exists_toBits?_eq_some_iff.mp ⟨typedIv, hiv⟩⟩
    show key.length = 32
    omega
  · intro hlengths
    obtain ⟨_, _, -, -, hcreate⟩ := exists_create_eq_ok hlengths.1 hlengths.2
    exact ⟨_, hcreate tag⟩

/-- An IV has the width of the mode exactly if it has the length of the scheme. -/
theorem Scheme.width_iv_iff {scheme : Scheme} {iv : Bytes} :
    8 * iv.length = scheme.mode.ivBits ↔ iv.length = scheme.ivLength := by
  have hwidth : 8 * scheme.ivLength = scheme.mode.ivBits := by cases scheme <;> rfl
  omega

namespace Facility

variable {facility : Facility} {direction : Direction} {data output : Bytes}

/-- The facility after so many draws more. -/
def afterDraws (facility : Facility) (count : Nat) : Facility :=
  { facility with drawn := facility.drawn + count }

section AfterDraws

variable (facility : Facility) (count more : Nat)

@[simp] theorem drawn_afterDraws : (facility.afterDraws count).drawn = facility.drawn + count := rfl

@[simp] theorem source_afterDraws : (facility.afterDraws count).source = facility.source := rfl

@[simp] theorem isOpen_afterDraws : (facility.afterDraws count).isOpen = facility.isOpen := rfl

@[simp] theorem afterDraws_afterDraws :
    (facility.afterDraws count).afterDraws more = facility.afterDraws (count + more) := by
  rw [afterDraws, afterDraws, afterDraws, Nat.add_assoc]

end AfterDraws

/-- Drawing takes the next place of the source. -/
theorem draw_eq_ok_iff {count : Nat} {bytes : Bytes} {next : Facility} :
    draw count facility = (.ok bytes, next) ↔
      facility.isOpen ∧ bytes = facility.source.bytes facility.drawn count ∧
        next = { facility with drawn := facility.drawn + 1 } := by
  unfold draw
  split
  next hopen =>
    constructor
    · intro hdraw
      cases hdraw
      exact ⟨hopen, rfl, rfl⟩
    · intro hdrawn
      obtain ⟨-, rfl, rfl⟩ := hdrawn
      rfl
  next hclosed =>
    constructor
    · intro hdraw
      cases hdraw
    · exact fun ⟨hopen, _⟩ ↦ absurd hopen hclosed

theorem contentSession_eq_ok_iff {scheme : Scheme} {key iv tag : Bytes} {session : Session} :
    facility.contentSession scheme key iv tag = .ok session ↔
      facility.isOpen ∧ Session.create scheme.mode key iv tag = .ok session := by
  unfold contentSession
  cases facility.isOpen <;> simp

/-- A content session is to be had from an open facility for a key and an IV of the right lengths,
whatever the tag, and for no others. -/
theorem exists_contentSession_iff {scheme : Scheme} {key iv tag : Bytes} :
    (∃ session, facility.contentSession scheme key iv tag = .ok session) ↔
      facility.isOpen ∧ key.length = Aes.keyLength ∧ iv.length = scheme.ivLength := by
  simp only [contentSession_eq_ok_iff, exists_and_left, Session.exists_create_iff,
    Scheme.width_iv_iff]

theorem wrapSession_eq_ok_iff {key : Bytes} {session : Session} :
    facility.wrapSession key = .ok session ↔
      facility.isOpen ∧ Session.create .keyWrap key [] [] = .ok session := by
  unfold wrapSession
  cases facility.isOpen <;> simp

/-- A content session, the answer to a whole message, and the tag that the session then holds. -/
theorem process_contentSession_eq_ok_iff (scheme : Scheme) {key iv tag final : Bytes} :
    (∃ session, facility.contentSession scheme key iv tag = .ok session ∧
        (session.process direction data).1 = .ok output ∧
        (session.process direction data).2.tag = final) ↔
      facility.isOpen ∧ ∃ typedKey typedIv, key.toBits? 256 = some typedKey ∧
        iv.toBits? scheme.mode.ivBits = some typedIv ∧
        (scheme.mode.machine typedKey typedIv).message direction data
          (if scheme.authenticated then tag else []) = .ok (output, final) := by
  constructor
  · intro hsteps
    obtain ⟨session, hsession, hanswer, hfinal⟩ := hsteps
    obtain ⟨hopen, hcreate⟩ := contentSession_eq_ok_iff.mp hsession
    obtain ⟨typedKey, typedIv, hkey, hiv, rfl⟩ := Session.create_eq_ok_iff.mp hcreate
    refine ⟨hopen, typedKey, typedIv, hkey, hiv, ?_⟩
    rw [Session.process_eq_message rfl, Outcome.map_eq_ok_iff] at hanswer
    obtain ⟨⟨_, last⟩, hmessage, rfl⟩ := hanswer
    rw [Session.tag_process rfl hmessage] at hfinal
    rw [← hfinal]
    exact hmessage
  · intro hmachine
    obtain ⟨hopen, typedKey, typedIv, hkey, hiv, hmessage⟩ := hmachine
    refine ⟨_, contentSession_eq_ok_iff.mpr ⟨hopen, Session.create_eq_ok_iff.mpr
      ⟨typedKey, typedIv, hkey, hiv, rfl⟩⟩, ?_, Session.tag_process rfl hmessage⟩
    rw [Session.process_eq_message rfl, Outcome.map_eq_ok_iff]
    exact ⟨(output, final), hmessage, rfl⟩

/-- A session for wrapping, and the answer to a whole key. -/
theorem process_wrapSession_eq_ok_iff {key : Bytes} :
    (∃ session, facility.wrapSession key = .ok session ∧
        (session.process direction data).1 = .ok output) ↔
      facility.isOpen ∧ ∃ typedKey, key.toBits? 256 = some typedKey ∧
        ∃ final, (KeyWrap.machine (Aes.cipher typedKey)).message direction data [] =
          .ok (output, final) := by
  constructor
  · intro hsteps
    obtain ⟨session, hsession, hanswer⟩ := hsteps
    obtain ⟨hopen, hcreate⟩ := wrapSession_eq_ok_iff.mp hsession
    obtain ⟨typedKey, typedIv, hkey, hiv, rfl⟩ := Session.create_eq_ok_iff.mp hcreate
    rw [Session.process_eq_message rfl, Outcome.map_eq_ok_iff] at hanswer
    obtain ⟨⟨_, final⟩, hmessage, rfl⟩ := hanswer
    exact ⟨hopen, typedKey, hkey, final, hmessage⟩
  · intro hmachine
    obtain ⟨hopen, typedKey, hkey, final, hmessage⟩ := hmachine
    refine ⟨_, wrapSession_eq_ok_iff.mpr ⟨hopen, Session.create_eq_ok_iff.mpr
      ⟨typedKey, 0, hkey, rfl, rfl⟩⟩, ?_⟩
    rw [Session.process_eq_message rfl, Outcome.map_eq_ok_iff]
    exact ⟨(output, final), hmessage, rfl⟩

end Facility

end SealedStore
