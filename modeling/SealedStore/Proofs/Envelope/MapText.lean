import SealedStore.Proofs.Envelope.Headers
import SealedStore.Proofs.Text.JsonObject.Canonical

/-!
# Texts of maps

A map has one canonical text, the one it is written as. Reading a text and writing the map again
replaces any spelling by that one (`normalize`). Read `text_canonical` first: writing loses nothing,
the canonical text is neither trimmed nor changed by a second round, and it is the same for all
spellings of a map and for those only.
-/

namespace SealedStore.Headers

open JsonObject (Canonical canonical_iff render trim_render)

/-- The canonical spelling of what a text is read as. -/
def normalize (text : String) : Except EnvelopeError String :=
  (parseMap text).map render

variable {text : String} {map : TextMap String}

/-- Different maps have different texts. -/
theorem render_inj {left right : TextMap String} : render left = render right ↔ left = right := by
  refine ⟨fun htext ↦ ?_, fun heq ↦ by rw [heq]⟩
  have hread := congrArg parseMap htext
  rw [parseMap_render, parseMap_render] at hread
  exact Except.ok.inj hread

/-- The canonical text tells the map apart from all others. -/
theorem normalize_eq_ok_iff : normalize text = .ok (render map) ↔ parseMap text = .ok map := by
  simp only [normalize, Outcome.map_eq_ok_iff, render_inj, exists_eq_right]

/-- Of the texts of a map one is canonical. -/
theorem eq_render_iff :
    text = render map ↔ parseMap text = .ok map ∧ ∃ members, Canonical text members := by
  constructor
  · rintro rfl
    exact ⟨parseMap_render map, map.entries, canonical_iff.mpr ⟨map, rfl, rfl⟩⟩
  · rintro ⟨hread, members, hcanonical⟩
    obtain ⟨written, -, rfl⟩ := canonical_iff.mp hcanonical
    rw [parseMap_render] at hread
    rw [Except.ok.inj hread]

/-- What has been normalized stays as it is. -/
theorem normalize_normalize (text : String) : normalize text >>= normalize = normalize text := by
  cases hread : parseMap text with
  | error error => simp only [normalize, hread, Except.map, bind, Except.bind]
  | ok map =>
      have hnormal : normalize text = .ok (render map) := normalize_eq_ok_iff.mpr hread
      rw [hnormal]
      exact normalize_eq_ok_iff.mpr (parseMap_render map)

/-- How maps are written.

* Every map reads back from its text, so different maps have different texts, and there are no
  blanks at the ends of a text for trimming to take.
* The text of a map is canonical: it has the entries of the map in increasing order of their keys by
  code points, without space between tokens and with each character in its one spelling. No other
  canonical text is read as the map.
* A text is read as a map exactly if normalizing it gives the text of this map, whatever else the
  text is like, and normalizing a second time changes nothing. -/
theorem text_canonical :
    (∀ map : TextMap String, parseMap (render map) = .ok map) ∧
    (∀ left right : TextMap String, render left = render right ↔ left = right) ∧
    (∀ map : TextMap String, Blank.trim (render map) = render map) ∧
    (∀ map : TextMap String, Canonical (render map) map.entries) ∧
    (∀ (text : String) (map : TextMap String),
      text = render map ↔ parseMap text = .ok map ∧ ∃ members, Canonical text members) ∧
    (∀ (text : String) (map : TextMap String),
      parseMap text = .ok map ↔ normalize text = .ok (render map)) ∧
    ∀ text : String, normalize text >>= normalize = normalize text :=
  ⟨parseMap_render, fun _ _ ↦ render_inj, trim_render,
    fun map ↦ canonical_iff.mpr ⟨map, rfl, rfl⟩, fun _ _ ↦ eq_render_iff,
    fun _ _ ↦ normalize_eq_ok_iff.symm, normalize_normalize⟩

-- Blanks of both kinds, another order, needless escapes and capital digits all go.
example :
    (normalize ("\u0085\x7b \"b\":\"\u0085\u00a0\" ," ++
      "\"a\" : \"\\u001F\\ud83d\\ude00\\/\\u0022\"\x7d")).toOption =
      some "\x7b\"a\":\"\\u001f😀/\\\"\",\"b\":\"\u0085\u00a0\"\x7d" := by
  decide +kernel

end SealedStore.Headers
