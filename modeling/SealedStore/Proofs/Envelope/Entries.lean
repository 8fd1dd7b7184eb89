import Mathlib.Data.List.DropRight
import Mathlib.Data.List.Induction
import SealedStore.Proofs.Envelope.Placement
import SealedStore.Proofs.Facility

/-!
# What entries into a draft come to

A draft can be told the same thing several times, in any order. Of the wrapped key, the IV and the
tag length the last one counts, and of the description all that was told since it was last replaced
as a whole: `enterAll_start` follows the entries one by one (`settled_concat`). Material is valid
however someone comes by it (`Material.valid_of_obtained`), so a content session can be made for it
unless the key is at fault or the facility is closed. Read `last_entry_wins` first.
-/

namespace SealedStore

/-! ## Entries -/

namespace Draft

/-- The wrapped key that an entry sets. -/
def Entry.wrappedKey? : Entry → Option Bytes
  | .wrappedKey bytes => some bytes
  | _ => none

/-- The IV that an entry sets. -/
def Entry.iv? : Entry → Option Bytes
  | .iv bytes => some bytes
  | _ => none

/-- The tag length that an entry sets. -/
def Entry.tagBits? : Entry → Option Nat
  | .tagBits bits => some bits
  | _ => none

/-- The whole description that an entry puts in place of the one before. -/
def Entry.description? : Entry → Option Description
  | .description whole => some whole
  | _ => none

/-- The text that an entry sets, with its key. -/
def Entry.text? : Entry → Option (String × String)
  | .describe key value => some (key, value)
  | _ => none

/-- The value of the last entry that has one. -/
def last? {α : Type} (value? : Entry → Option α) (entries : List Entry) : Option α :=
  entries.reverse.findSome? value?

/-- The texts set since the description was last replaced as a whole, in their order. -/
def textsSince (entries : List Entry) : List (String × String) :=
  (entries.rtakeWhile fun entry ↦ entry.description?.isNone).filterMap Entry.text?

/-- The description that entries come to: the last whole one with the texts that were set since. -/
def described (entries : List Entry) : Description :=
  (textsSince entries).foldl (fun description (key, value) ↦ description.insert key value)
    ((last? Entry.description? entries).getD .empty)

/-- The draft that entries come to. -/
def settled (scheme : Scheme) (wrapAlgorithm : WrapAlgorithm) (entries : List Entry) : Draft where
  scheme := scheme
  wrapAlgorithm := wrapAlgorithm
  wrappedKey := (last? Entry.wrappedKey? entries).getD []
  iv := (last? Entry.iv? entries).getD []
  tagBits? := last? Entry.tagBits? entries
  description := described entries

variable {scheme : Scheme} {wrapAlgorithm : WrapAlgorithm} {entries left right : List Entry}
  {material : Material}

theorem last?_concat {α : Type} (value? : Entry → Option α) (entries : List Entry)
    (entry : Entry) :
    last? value? (entries ++ [entry]) = (value? entry).or (last? value? entries) := by
  rw [last?, List.reverse_concat, List.findSome?_cons, last?]
  cases value? entry <;> rfl

theorem textsSince_concat (entries : List Entry) (entry : Entry) :
    textsSince (entries ++ [entry]) =
      if entry.description?.isNone then textsSince entries ++ entry.text?.toList else [] := by
  unfold textsSince
  rw [List.rtakeWhile_concat]
  split
  next =>
    rw [List.filterMap_append]
    cases entry <;> rfl
  next => rfl

/-- An entry replaces the description, sets one text of it, or leaves it alone. -/
theorem described_concat (entries : List Entry) (entry : Entry) :
    described (entries ++ [entry]) =
      match entry with
      | .description whole => whole
      | .describe key value => (described entries).insert key value
      | _ => described entries := by
  unfold described
  rw [last?_concat, textsSince_concat]
  cases entry with
  | description whole => rfl
  | describe key value => simp [Entry.description?, Entry.text?]
  | _ => simp [Entry.description?, Entry.text?]

/-- One more entry changes what it is about and nothing else. -/
theorem settled_concat (scheme : Scheme) (wrapAlgorithm : WrapAlgorithm) (entries : List Entry)
    (entry : Entry) :
    settled scheme wrapAlgorithm (entries ++ [entry]) =
      (settled scheme wrapAlgorithm entries).enter entry := by
  unfold settled
  simp only [last?_concat, described_concat]
  cases entry <;> rfl

/-- Entries come to the last of each kind. -/
theorem enterAll_start (scheme : Scheme) (wrapAlgorithm : WrapAlgorithm) (entries : List Entry) :
    (start scheme wrapAlgorithm).enterAll entries = settled scheme wrapAlgorithm entries := by
  -- From the end, where the last of each kind is looked for.
  induction entries using List.reverseRecOn with
  | nil => rfl
  | append_singleton entries entry ih =>
      rw [settled_concat, ← ih]
      exact List.foldl_concat enter _ entry entries

/-- Under each key stands the last text that was set there since the description was last replaced,
or else what was there when it was replaced. -/
theorem get?_described (entries : List Entry) (key : String) :
    (described entries).get? key =
      (JsonObject.lastValue? key (textsSince entries)).or
        ((last? Entry.description? entries).bind (·.get? key)) := by
  rw [described, JsonObject.get?_foldl_insert]
  cases last? Entry.description? entries <;> rfl

/-! ## Building -/

/-- The material that a draft is built to if it passes the checks. -/
def unchecked (draft : Draft) : Material where
  wrappedKey := draft.wrappedKey
  iv := draft.iv
  scheme := draft.scheme
  wrapAlgorithm := draft.wrapAlgorithm
  tagBits? := draft.scheme.tagBits?
  description := draft.description

/-- The draft passes the checks. -/
structure Passes (draft : Draft) : Prop where
  wrappedKey_ne_nil : draft.wrappedKey ≠ []
  length_iv : draft.iv.length = draft.scheme.ivLength
  tagBits_eq : draft.scheme.authenticated → draft.tagBits?.getD tagBits = tagBits

theorem build_eq_ok_iff_passes {draft : Draft} :
    draft.build = .ok material ↔ draft.Passes ∧ material = draft.unchecked := by
  rw [build_eq_ok_iff]
  constructor
  · intro hrepeated
    obtain ⟨hvalid, hlength, hdraft⟩ := hrepeated
    rw [hdraft] at hlength ⊢
    refine ⟨⟨hvalid.wrappedKey_ne_nil, hvalid.length_iv, hlength⟩, ?_⟩
    rw [unchecked, ← hvalid.tagBits?_eq]
  · intro hpassed
    obtain ⟨hpasses, rfl⟩ := hpassed
    exact ⟨⟨hpasses.wrappedKey_ne_nil, hpasses.length_iv, rfl⟩, hpasses.tagBits_eq, rfl⟩

/-- The entries are enough for a scheme: there is a last wrapped key and it is not empty, there is a
last IV and it has the length of the scheme, and for the scheme with a tag the last tag length, if
there is one, is the only one that is supported. -/
structure Suffices (scheme : Scheme) (entries : List Entry) : Prop where
  wrappedKey : ∃ key, last? Entry.wrappedKey? entries = some key ∧ key ≠ []
  iv : ∃ iv, last? Entry.iv? entries = some iv ∧ iv.length = scheme.ivLength
  tagBits : scheme = .gcm →
    last? Entry.tagBits? entries = none ∨ last? Entry.tagBits? entries = some tagBits

/-- What does not hold of the empty byte string holds only of one that was given. -/
theorem getD_nil_iff (good : Bytes → Prop) (hnil : ¬ good []) (value? : Option Bytes) :
    good (value?.getD []) ↔ ∃ value, value? = some value ∧ good value := by
  cases value? <;> simp [hnil]

theorem passes_settled_iff :
    (settled scheme wrapAlgorithm entries).Passes ↔ Suffices scheme entries := by
  have hkey := getD_nil_iff (· ≠ []) (by simp)
  have hiv := getD_nil_iff (·.length = scheme.ivLength) (by cases scheme <;> decide)
  have htag : scheme.authenticated ↔ scheme = .gcm := by cases scheme <;> decide
  have hbits (bits? : Option Nat) :
      bits?.getD tagBits = tagBits ↔ bits? = none ∨ bits? = some tagBits := by
    cases bits? <;> simp
  constructor
  · intro hpasses
    exact ⟨(hkey _).mp hpasses.wrappedKey_ne_nil, (hiv _).mp hpasses.length_iv,
      fun hgcm ↦ (hbits _).mp (hpasses.tagBits_eq (htag.mpr hgcm))⟩
  · intro hsuffices
    exact ⟨(hkey _).mpr hsuffices.wrappedKey, (hiv _).mpr hsuffices.iv,
      fun hauthenticated ↦ (hbits _).mpr (hsuffices.tagBits (htag.mp hauthenticated))⟩

/-- Lists of entries that agree in what counts of them. -/
structure Agree (left right : List Entry) : Prop where
  wrappedKey : last? Entry.wrappedKey? left = last? Entry.wrappedKey? right
  iv : last? Entry.iv? left = last? Entry.iv? right
  tagBits : last? Entry.tagBits? left = last? Entry.tagBits? right
  description : described left = described right

theorem settled_congr (hagree : Agree left right) :
    settled scheme wrapAlgorithm left = settled scheme wrapAlgorithm right := by
  rw [settled, settled, hagree.wrappedKey, hagree.iv, hagree.tagBits, hagree.description]

end Draft

/-! ## Ways to come by material -/

/-- Someone has come by the material: a draft was built, or headers were read, or the metadata of an
object, or the body of one. -/
inductive Material.Obtained (material : Material) : Prop
  | built (draft : Draft) (hbuild : draft.build = .ok material)
  | headers (headers : Headers) (hread : headers.material = .ok material)
  | metadata (object : StoredObject) (hread : object.metadataMaterial = .ok material)
  | instruction (object : StoredObject) (hread : object.instructionMaterial = .ok material)

theorem Material.valid_of_obtained {material : Material} (hobtained : material.Obtained) :
    material.Valid := by
  cases hobtained with
  | built draft hbuild => exact (Draft.build_eq_ok_iff.mp hbuild).1
  | headers headers hread => exact Headers.valid_of_material hread
  | metadata object hread => exact Headers.valid_of_material hread
  | instruction object hread => exact StoredObject.valid_of_instructionMaterial hread

theorem Scheme.tagBits?_eq (scheme : Scheme) :
    scheme.tagBits? = if scheme = .gcm then some 128 else none := by
  cases scheme <;> rfl

namespace Draft

/-- What entries are built to, and what is known of all material.

* The outcome, failures included, depends on nothing but the last wrapped key, the last IV and the
  last tag length, each if there is one, and on the description: the last whole one with the texts
  that were set since, in their order.
* Under a key of this description stands the last text that was set there since, or else what the
  last whole one has there.
* The outcome is material exactly if the wrapped key is not empty, the IV has the length of the
  scheme, and for the scheme with a tag the tag length is left open or is the supported one. The
  material has all this, with the tag length of its scheme.
* Material that someone has come by, by building or by reading, has a wrapped key that is not empty,
  an IV of the length of its scheme, and the supported tag length for the scheme with a tag and none
  for the others. So with a key of the right length, and with no other, an open facility always
  gives a session for it, whatever the tag. -/
theorem last_entry_wins :
    (∀ scheme wrapAlgorithm entries,
      ((start scheme wrapAlgorithm).enterAll entries).build =
        (settled scheme wrapAlgorithm entries).build) ∧
    (∀ scheme wrapAlgorithm left right, Agree left right →
      ((start scheme wrapAlgorithm).enterAll left).build =
        ((start scheme wrapAlgorithm).enterAll right).build) ∧
    (∀ entries key, (described entries).get? key =
      (JsonObject.lastValue? key (textsSince entries)).or
        ((last? Entry.description? entries).bind (·.get? key))) ∧
    (∀ scheme wrapAlgorithm entries material,
      ((start scheme wrapAlgorithm).enterAll entries).build = .ok material ↔
        Suffices scheme entries ∧ material = (settled scheme wrapAlgorithm entries).unchecked) ∧
    ∀ material : Material, material.Obtained →
      (material.wrappedKey ≠ [] ∧ material.iv.length = material.scheme.ivLength ∧
        material.tagBits? = if material.scheme = .gcm then some 128 else none) ∧
      ∀ (facility : Facility) (key tag : Bytes),
        (∃ session, facility.contentSession material.scheme key material.iv tag = .ok session) ↔
          facility.isOpen ∧ key.length = Aes.keyLength := by
  refine ⟨fun scheme wrapAlgorithm entries ↦ ?_, fun scheme wrapAlgorithm left right hagree ↦ ?_,
    get?_described, fun scheme wrapAlgorithm entries material ↦ ?_, fun material hobtained ↦ ?_⟩
  · rw [enterAll_start]
  · rw [enterAll_start, enterAll_start, settled_congr hagree]
  · rw [enterAll_start, build_eq_ok_iff_passes, passes_settled_iff]
  · have hvalid := Material.valid_of_obtained hobtained
    refine ⟨⟨hvalid.wrappedKey_ne_nil, hvalid.length_iv, ?_⟩, fun facility key tag ↦ ?_⟩
    · rw [hvalid.tagBits?_eq, Scheme.tagBits?_eq]
    · rw [Facility.exists_contentSession_iff, and_iff_left hvalid.length_iv]

/-- Entries of which later ones take back earlier ones. With the first wrapped key, the first tag
length or the first IV there would be no material. -/
def overwritten : List Entry := [
  .wrappedKey [], .tagBits 96, .describe "lost" "0", .iv (Bytes.zeros 16),
  .description (TextMap.empty.insert "kept" "1"), .describe "again" "2", .wrappedKey [7],
  .tagBits 128, .describe "again" "3", .iv (Bytes.zeros 12)]

/-- Only what came last shows in the material, and there is a session for it. -/
theorem last_entry_wins_overwritten :
    ∃ material, ((start .gcm .aesWrap).enterAll overwritten).build = .ok material ∧
      material.wrappedKey = [7] ∧ material.iv = Bytes.zeros 12 ∧ material.tagBits? = some 128 ∧
      material.description.get? "lost" = none ∧ material.description.get? "kept" = some "1" ∧
      material.description.get? "again" = some "3" ∧
      ∃ session, exampleFacility.contentSession material.scheme (Bytes.zeros 32) material.iv [] =
        .ok session := by
  obtain ⟨-, -, hdescription, hbuild, hobtained⟩ := last_entry_wins
  have hsuffices : Suffices .gcm overwritten :=
    ⟨⟨[7], rfl, by decide⟩, ⟨Bytes.zeros 12, rfl, rfl⟩, fun _ ↦ .inr rfl⟩
  have hmaterial := (hbuild .gcm .aesWrap overwritten _).mpr ⟨hsuffices, rfl⟩
  have hknown := hobtained _ (.built _ hmaterial)
  refine ⟨_, hmaterial, rfl, rfl, hknown.1.2.2, ?_, ?_, ?_, ?_⟩
  · exact (hdescription overwritten "lost").trans rfl
  · exact (hdescription overwritten "kept").trans rfl
  · exact (hdescription overwritten "again").trans rfl
  · exact (hknown.2 exampleFacility (Bytes.zeros 32) []).mpr ⟨rfl, rfl⟩

end Draft

end SealedStore
