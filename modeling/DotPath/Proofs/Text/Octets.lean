import DotPath.Text.Utf8

/-!
# Octets as characters

Octets are read as a text in two ways: as the text that they encode, or one by one, as the
characters with their numbers. `Text.asOctets` leads from the first reading to the second. It leaves
ASCII alone, and of any other character it makes characters that are no ASCII either. So what is
made of ASCII is found in the second reading just as well as in the first.

## Main results

* `asOctets_of_ascii`, `asOctets_cons_ascii`, `eq_cons_of_asOctets`: ASCII is the same in both
  readings.
* `asOctets_injective`: the octets of a text determine it.
* `isUtf8_asOctets`, `exists_asOctets_of_isUtf8`: the octets that are UTF-8 are those of texts.
-/

namespace DotPath.Text

/-- A text as its octets in UTF-8, each as the character with its number. -/
def asOctets (t : Text) : Text :=
  ofOctets t.toUtf8

/-- Every character of a text is the one with the number of an octet. -/
def IsOctets (t : Text) : Prop :=
  ∀ c ∈ t, c.toNat < 0x100

/-! ## Octets and characters -/

theorem toUtf8_eq (t : Text) : t.toUtf8 = t.utf8Encode :=
  String.toByteArray_ofList

/-- Octets are read as a text exactly when they encode it. -/
theorem ofUtf8?_eq_some_iff {octets : ByteArray} {t : Text} :
    ofUtf8? octets = some t ↔ t.utf8Encode = octets := by
  simp only [ofUtf8?, String.fromUTF8?, Option.map_eq_some_iff]
  constructor
  · rintro ⟨s, hs, rfl⟩
    split at hs
    · next h =>
        cases hs
        exact String.utf8Encode_toList
    · cases hs
  · rintro rfl
    refine ⟨String.ofList t, ?_, String.toList_ofList⟩
    rw [dif_pos ByteArray.isValidUTF8_utf8Encode]
    rfl

theorem toNat_ofUInt8 (n : UInt8) : (Char.ofUInt8 n).toNat = n.toNat := by
  show n.toUInt32.toNat = n.toNat
  exact UInt8.toNat_toUInt32 n

theorem toUInt8_ofUInt8 (n : UInt8) : (Char.ofUInt8 n).toUInt8 = n := by
  show n.toUInt32.toUInt8 = n
  exact UInt8.toUInt8_toUInt32 n

theorem ofUInt8_toUInt8 {c : Char} (h : c.toNat < 0x100) : Char.ofUInt8 c.toUInt8 = c := by
  apply Char.ext
  apply UInt32.toNat_inj.1
  show c.val.toUInt8.toUInt32.toNat = c.toNat
  rw [UInt8.toNat_toUInt32, UInt32.toNat_toUInt8]
  exact Nat.mod_eq_of_lt h

theorem toOctets_ofOctets (octets : ByteArray) : toOctets (ofOctets octets) = octets := by
  apply ByteArray.ext
  apply Array.toList_inj.1
  rw [toOctets, List.toList_data_toByteArray, ofOctets, List.map_map]
  have : Char.toUInt8 ∘ Char.ofUInt8 = id := funext toUInt8_ofUInt8
  rw [this, List.map_id]

theorem ofOctets_injective {a b : ByteArray} (h : ofOctets a = ofOctets b) : a = b := by
  rw [← toOctets_ofOctets a, h, toOctets_ofOctets]

theorem ofOctets_toOctets {t : Text} (h : t.IsOctets) : ofOctets (toOctets t) = t := by
  rw [ofOctets, toOctets, List.toList_data_toByteArray, List.map_map]
  have : t.map (Char.ofUInt8 ∘ Char.toUInt8) = t.map id :=
    List.map_congr_left fun c hc => ofUInt8_toUInt8 (h c hc)
  rw [this, List.map_id]

theorem isOctets_ofOctets (octets : ByteArray) : (ofOctets octets).IsOctets := by
  intro c hc
  obtain ⟨n, -, rfl⟩ := List.mem_map.1 hc
  rw [toNat_ofUInt8]
  exact n.toNat_lt

theorem ofOctets_append (a b : ByteArray) : ofOctets (a ++ b) = ofOctets a ++ ofOctets b := by
  rw [ofOctets, ByteArray.data_append, Array.toList_append, List.map_append]
  rfl

/-! ## ASCII -/

@[simp] theorem asOctets_append (s t : Text) : asOctets (s ++ t) = asOctets s ++ asOctets t := by
  rw [asOctets, toUtf8_eq, List.utf8Encode_append, ofOctets_append, ← toUtf8_eq, ← toUtf8_eq]
  rfl

@[simp] theorem asOctets_nil : asOctets [] = [] := rfl

theorem asOctets_singleton (c : Char) :
    asOctets [c] = (String.utf8EncodeChar c).map Char.ofUInt8 := by
  rw [asOctets, toUtf8_eq, List.utf8Encode_singleton, ofOctets, List.toList_data_toByteArray]

@[simp] theorem asOctets_cons_ascii {c : Char} (h : c.toNat < 0x80) (t : Text) :
    asOctets (c :: t) = c :: asOctets t := by
  have hencode : String.utf8EncodeChar c = [c.toUInt8] := by
    have hle : c.val.toNat ≤ 0x7f := Nat.le_of_lt_succ h
    rw [String.utf8EncodeChar, if_pos hle]
    rfl
  have hone : asOctets [c] = [c] := by
    rw [asOctets_singleton, hencode, List.map_cons, List.map_nil,
      ofUInt8_toUInt8 (Nat.lt_trans h (by decide))]
  rw [← List.singleton_append, asOctets_append, hone]
  rfl

theorem asOctets_of_ascii {t : Text} (h : ∀ c ∈ t, c.toNat < 0x80) : asOctets t = t := by
  induction t with
  | nil => rfl
  | cons c t ih =>
      rw [asOctets_cons_ascii (h c List.mem_cons_self),
        ih fun d hd => h d (List.mem_cons_of_mem c hd)]

/-- The octets of a character that is no ASCII are no ASCII. -/
theorem le_of_mem_asOctets_singleton {c d : Char} (hc : 0x80 ≤ c.toNat) (hd : d ∈ asOctets [c]) :
    0x80 ≤ d.toNat := by
  rw [asOctets_singleton] at hd
  obtain ⟨n, hn, rfl⟩ := List.mem_map.1 hd
  rw [toNat_ofUInt8]
  have hgt : ¬ c.val.toNat ≤ 0x7f := Nat.not_le.2 hc
  rw [String.utf8EncodeChar, if_neg hgt] at hn
  split at hn
  · simp only [List.mem_cons, List.not_mem_nil, or_false] at hn
    rcases hn with rfl | rfl <;> rw [UInt8.toNat_ofNat'] <;> omega
  · split at hn
    · simp only [List.mem_cons, List.not_mem_nil, or_false] at hn
      rcases hn with rfl | rfl | rfl <;> rw [UInt8.toNat_ofNat'] <;> omega
    · simp only [List.mem_cons, List.not_mem_nil, or_false] at hn
      rcases hn with rfl | rfl | rfl | rfl <;> rw [UInt8.toNat_ofNat'] <;> omega

theorem asOctets_singleton_ne_nil (c : Char) : asOctets [c] ≠ [] := by
  rw [asOctets_singleton]
  intro h
  exact String.utf8EncodeChar_ne_nil (List.map_eq_nil_iff.1 h)

/-- An octet that is ASCII stands for itself. -/
theorem eq_cons_of_asOctets {s t : Text} {c : Char} (h : asOctets s = c :: t)
    (hc : c.toNat < 0x80) : ∃ u, s = c :: u ∧ asOctets u = t := by
  cases s with
  | nil => cases h
  | cons d u =>
      by_cases hd : d.toNat < 0x80
      · rw [asOctets_cons_ascii hd, List.cons.injEq] at h
        obtain ⟨rfl, rfl⟩ := h
        exact ⟨u, rfl, rfl⟩
      · rw [← List.singleton_append, asOctets_append] at h
        obtain ⟨e, rest, hrest⟩ := List.exists_cons_of_ne_nil (asOctets_singleton_ne_nil d)
        rw [hrest, List.cons_append, List.cons.injEq] at h
        have hmem : c ∈ asOctets [d] := by
          rw [hrest, h.1]
          exact List.mem_cons_self
        have := le_of_mem_asOctets_singleton (Nat.le_of_not_lt hd) hmem
        omega

/-! ## UTF-8 -/

theorem asOctets_eq_ofOctets_iff {t : Text} {octets : ByteArray} :
    t.asOctets = ofOctets octets ↔ t.utf8Encode = octets := by
  rw [← toUtf8_eq]
  exact ⟨ofOctets_injective, congrArg ofOctets⟩

theorem asOctets_injective {s t : Text} (h : asOctets s = asOctets t) : s = t := by
  have hutf8 : s.utf8Encode = t.toUtf8 := asOctets_eq_ofOctets_iff.1 h
  rw [toUtf8_eq] at hutf8
  have hs := ofUtf8?_eq_some_iff.2 hutf8
  have ht := ofUtf8?_eq_some_iff.2 (Eq.refl t.utf8Encode)
  rw [ht, Option.some.injEq] at hs
  exact hs.symm

theorem isUtf8_asOctets (t : Text) : isUtf8 t.asOctets = true := by
  rw [isUtf8, asOctets, toOctets_ofOctets, ofUtf8?_eq_some_iff.2 (toUtf8_eq t).symm]
  rfl

/-- Octets that are UTF-8 are those of a text. -/
theorem exists_asOctets_of_isUtf8 {t : Text} (h : isUtf8 t = true) (ht : t.IsOctets) :
    ∃ u, asOctets u = t := by
  obtain ⟨u, hu⟩ := Option.isSome_iff_exists.1 h
  refine ⟨u, ?_⟩
  rw [asOctets, toUtf8_eq, ofUtf8?_eq_some_iff.1 hu, ofOctets_toOctets ht]

end DotPath.Text
