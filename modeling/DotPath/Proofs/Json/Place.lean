import DotPath.Json.Place
import DotPath.Proofs.Json.Extent
import DotPath.Proofs.Json.Token

/-!
# Reading at a place

Readers move a place forward and report offsets. Two views of that are proved here. Forward: on a
text that is laid out token by token, each reader passes over its token and the offset grows by the
octets of that token. Backward: wherever a reader gets, `Place.LiesIn` holds, so that an offset that
is reported is the offset of what is reported with it.

## Main results

* `Place.value?_append`, `Place.literal?_append`: what is read from a text that is laid out.
* `Place.eq_of_value?`, `Place.eq_of_literal?`: what has been read stood there, and is a value.
* `StandsAt.extract_eq`: a text stands at an offset exactly as the octets say.
-/

namespace DotPath

open Json

/-! ## Standing at an offset -/

/-- `raw` is what stands in `t` after `i` octets. -/
def StandsAt (t raw : Text) (i : Nat) : Prop :=
  ∃ before after, t = before ++ (raw ++ after) ∧ i = Text.byteLength before

/-- What stands in a part stands in the whole, at the sum of both offsets. -/
theorem StandsAt.trans {t part raw : Text} {i j : Nat} (h : StandsAt t part i)
    (h' : StandsAt part raw j) : StandsAt t raw (i + j) := by
  obtain ⟨before, after, rfl, rfl⟩ := h
  obtain ⟨before', after', rfl, rfl⟩ := h'
  refine ⟨before ++ before', after' ++ after, ?_, ?_⟩
  · simp only [List.append_assoc]
  · rw [Text.byteLength_append]

theorem standsAt_self (t : Text) : StandsAt t t 0 := by
  refine ⟨[], [], ?_, rfl⟩
  rw [List.nil_append, List.append_nil]

/-- The octets of a text are counted by its byte length. -/
theorem Text.size_utf8Encode (t : Text) : t.utf8Encode.size = Text.byteLength t := by
  induction t with
  | nil => rfl
  | cons c t ih =>
      rw [List.utf8Encode_cons, ByteArray.size_append, ih, Text.byteLength_cons]
      congr 1
      simp [List.utf8Encode_singleton]

/-- The octets of the text from the offset on are those of what stands there. -/
theorem StandsAt.extract_eq {t raw : Text} {i : Nat} (h : StandsAt t raw i) :
    t.utf8Encode.extract i (i + Text.byteLength raw) = raw.utf8Encode := by
  obtain ⟨before, after, rfl, rfl⟩ := h
  have hoff := ByteArray.extract_append_size_add (a := before.utf8Encode)
    (b := raw.utf8Encode ++ after.utf8Encode) (i := 0) (j := raw.utf8Encode.size)
  rw [List.utf8Encode_append, List.utf8Encode_append, ← Text.size_utf8Encode before,
    ← Text.size_utf8Encode raw]
  rw [Nat.add_zero] at hoff
  rw [hoff, ByteArray.extract_append_eq_left rfl]

namespace Place

/-! ## Forward -/

theorem skip_append (k : Nat) (s t : Text) :
    skip ⟨k, s ++ t⟩ s.length = ⟨k + Text.byteLength s, t⟩ := by
  simp [skip]

theorem rest_skipWhile (p : Place) (c : Char → Bool) :
    (p.skipWhile c).rest = p.rest.dropWhile c := by
  calc (p.skipWhile c).rest
      = (p.rest.takeWhile c ++ p.rest.dropWhile c).drop (p.rest.takeWhile c).length := by
        rw [List.takeWhile_append_dropWhile]
        rfl
    _ = p.rest.dropWhile c := List.drop_left

/-- All the space that comes next is passed over. -/
theorem skipSpace_append (k : Nat) (s : Spaces) {t : Text} (ht : Lacks isSpace t) :
    skipSpace ⟨k, s.1 ++ t⟩ = ⟨k + Text.byteLength s.1, t⟩ := by
  have htake : (s.1 ++ t).takeWhile isSpace = s.1 := by
    rw [List.takeWhile_append_of_pos s.2]
    cases t with
    | nil => simp
    | cons c t => simp [ht c rfl]
  rw [skipSpace, skipWhile, htake, skip_append]

theorem expect?_cons (k : Nat) (c : Char) (t : Text) :
    expect? c ⟨k, c :: t⟩ = some ⟨k + c.utf8Size, t⟩ := by
  simp [expect?, skip]

/-- A value that is not run on by what follows is read whole. -/
theorem value?_append (k : Nat) {kind : Kind} {raw rest : Text} (h : Fills kind raw)
    (hr : Delimited rest) :
    value? ⟨k, raw ++ rest⟩ = some (⟨kind, k, raw⟩, ⟨k + Text.byteLength raw, rest⟩) := by
  have hext := h.extent_append hr
  have hskip := skip_append k raw rest
  simp only [value?, hext, Option.map_some, hskip, List.take_left]

/-- A string literal is read whole. -/
theorem literal?_append (k : Nat) {raw : Text} (h : Fills .string raw) (rest : Text) :
    literal? ⟨k, raw ++ rest⟩ =
      some (⟨.string, k, raw⟩, ⟨k + Text.byteLength raw, rest⟩) := by
  cases h with
  | @string body hb =>
      have hend := hb.stringEnd_append 1 rest
      have hskip := skip_append k ('"' :: (body ++ ['"'])) rest
      have hlen : ('"' :: (body ++ ['"'])).length = 1 + body.length + 1 := by
        simp
        omega
      have htake : ('"' :: (body ++ ['"']) ++ rest).take (1 + body.length + 1) =
          '"' :: (body ++ ['"']) := by
        rw [← hlen, List.take_left]
      have hsource : '"' :: (body ++ ['"']) ++ rest = '"' :: (body ++ '"' :: rest) := by
        simp
      rw [hlen] at hskip
      rw [hsource] at hskip htake ⊢
      simp only [literal?, hend, Option.map_some, hskip, htake]

/-! ## Backward -/

/-- A place that a text has: what comes before it and after it make up the text. -/
def LiesIn (t : Text) (p : Place) : Prop :=
  ∃ before, t = before ++ p.rest ∧ p.offset = Text.byteLength before

theorem start_liesIn (t : Text) : (start t).LiesIn t :=
  ⟨[], rfl, rfl⟩

theorem LiesIn.skip {t : Text} {p : Place} (h : p.LiesIn t) (n : Nat) : (p.skip n).LiesIn t := by
  obtain ⟨before, ht, hoff⟩ := h
  refine ⟨before ++ p.rest.take n, ?_, ?_⟩
  · rw [List.append_assoc]
    show t = before ++ (p.rest.take n ++ p.rest.drop n)
    rw [List.take_append_drop, ht]
  · rw [Text.byteLength_append, ← hoff]
    rfl

theorem LiesIn.skipSpace {t : Text} {p : Place} (h : p.LiesIn t) : p.skipSpace.LiesIn t :=
  h.skip _

theorem LiesIn.expect? {t : Text} {p q : Place} {c : Char} (h : p.LiesIn t)
    (hq : p.expect? c = some q) : q.LiesIn t := by
  unfold Place.expect? at hq
  split at hq
  · cases hq
    exact h.skip 1
  · cases hq

theorem LiesIn.standsAt {t raw : Text} {p : Place} (h : p.LiesIn t) (hraw : raw <+: p.rest) :
    StandsAt t raw p.offset := by
  obtain ⟨before, ht, hoff⟩ := h
  obtain ⟨after, hafter⟩ := hraw
  exact ⟨before, after, by rw [ht, hafter], hoff⟩

/-- What has been read is a value, and it stood where it was read. -/
theorem eq_of_value? {p q : Place} {v : Occurrence} (h : p.value? = some (v, q)) :
    Fills v.kind v.raw ∧ v.offset = p.offset ∧ p.rest = v.raw ++ q.rest ∧
      q = p.skip v.raw.length := by
  simp only [value?, Option.map_eq_some_iff, Prod.mk.injEq, Prod.exists] at h
  obtain ⟨kind, n, hext, rfl, rfl⟩ := h
  obtain ⟨raw, rest, hp, rfl, hraw⟩ := fills_of_extent hext
  have hskip : (p.skip raw.length).rest = rest := by
    rw [skip, hp, List.drop_left]
  simp only [hp, List.take_left, hskip]
  exact ⟨hraw, trivial, trivial, trivial⟩

/-- What has been read as a literal is a string, and it stood where it was read. -/
theorem eq_of_literal? {p q : Place} {v : Occurrence} (h : p.literal? = some (v, q)) :
    Fills .string v.raw ∧ v.offset = p.offset ∧ p.rest = v.raw ++ q.rest ∧
      q = p.skip v.raw.length := by
  unfold literal? at h
  split at h
  · next tail htail =>
      simp only [Option.map_eq_some_iff, Prod.mk.injEq] at h
      obtain ⟨n, hend, rfl, rfl⟩ := h
      obtain ⟨body, rest, rfl, hbody, rfl⟩ := isRun_of_stringEnd hend
      have hp : p.rest = '"' :: (body ++ ['"']) ++ rest := by
        rw [htail]
        simp
      have hlen : 1 + body.length + 1 = ('"' :: (body ++ ['"'])).length := by
        simp
        omega
      have hskip : (p.skip ('"' :: (body ++ ['"'])).length).rest = rest := by
        rw [skip, hp, List.drop_left]
      simp only [hlen, hp, List.take_left, hskip]
      exact ⟨.string hbody, trivial, trivial, trivial⟩
  · cases h

/-- A value that has been read stands in the text at the offset that is reported. -/
theorem LiesIn.value? {t : Text} {p q : Place} {v : Occurrence} (h : p.LiesIn t)
    (hv : p.value? = some (v, q)) : StandsAt t v.raw v.offset ∧ q.LiesIn t := by
  obtain ⟨-, hoff, hrest, rfl⟩ := eq_of_value? hv
  refine ⟨?_, h.skip _⟩
  rw [hoff]
  exact h.standsAt ⟨_, hrest.symm⟩

/-- A literal that has been read stands in the text at the offset that is reported. -/
theorem LiesIn.literal? {t : Text} {p q : Place} {v : Occurrence} (h : p.LiesIn t)
    (hv : p.literal? = some (v, q)) : StandsAt t v.raw v.offset ∧ q.LiesIn t := by
  obtain ⟨-, hoff, hrest, rfl⟩ := eq_of_literal? hv
  refine ⟨?_, h.skip _⟩
  rw [hoff]
  exact h.standsAt ⟨_, hrest.symm⟩

end Place

end DotPath
