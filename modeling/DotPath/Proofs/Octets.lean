import DotPath.Octets
import DotPath.Proofs.Json.WellFormed

/-!
# Well-formed octets

Octets are a well-formed document exactly when they encode the text of a document in UTF-8. The
octets outside strings are ASCII, so it is the strings that have to be valid UTF-8.

## Main results

* `Octets.wellFormed_iff_document`: the octets of documents, and no others, are well formed.
* `Octets.wellFormed_eq_any`: the check may as well be made on the text that the octets encode.
* `Octets.valid_eq`: so octets need not be read as a text before they are checked.
-/

namespace DotPath.Octets

/--
Octets are accepted under a limit exactly when they are the UTF-8 text of one value with space
around it, written by the strict grammar, in which no more non-empty containers than the limit are
open at once.
-/
theorem wellFormed_iff_document (octets : ByteArray) (limit : Nat) :
    Octets.wellFormed (some limit) octets = true ↔
      ∃ d : Json.Document, d.source.utf8Encode = octets ∧ d.root.height ≤ limit := by
  rw [wellFormed, Json.expectValue_iff (Text.isOctets_ofOctets octets)]
  simp only [Text.asOctets_eq_ofOctets_iff]
  constructor
  · rintro ⟨d, hd, hfit⟩
    exact ⟨d, hd, hfit limit rfl⟩
  · rintro ⟨d, hd, hfit⟩
    refine ⟨d, hd, ?_⟩
    rintro _ ⟨⟩
    exact hfit

/-- Octets are well formed exactly when they are read as a text that is. -/
theorem wellFormed_eq_any (limit : Option Nat) (octets : ByteArray) :
    Octets.wellFormed limit octets = (Text.ofUtf8? octets).any (Json.wellFormed limit) := by
  rw [Bool.eq_iff_iff, Option.any_eq_true, wellFormed,
    Json.expectValue_iff (Text.isOctets_ofOctets octets)]
  simp only [Text.asOctets_eq_ofOctets_iff, Text.ofUtf8?_eq_some_iff, Json.wellFormed_iff]
  constructor
  · rintro ⟨d, hd, hfit⟩
    exact ⟨d.source, hd, d, rfl, hfit⟩
  · rintro ⟨t, ht, d, rfl, hfit⟩
    exact ⟨d, ht, hfit⟩

theorem valid_eq (octets : ByteArray) :
    valid octets = Octets.wellFormed (some Json.defaultDepth) octets := by
  rw [wellFormed_eq_any]
  rfl

end DotPath.Octets
