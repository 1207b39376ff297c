import DotPath.Proofs.Path.Delimit

/-!
# Components inside a longer path

A component without paths inside is read by one of four scans: up to the next separator, up to the
end of a name, or over a JSON value that the component may or must be. Each of them reads the same
at the end of a path as before a pipe that follows. For JSON values this is so because no value goes
on with a pipe, and for the other scans because no backslash is left that would protect it.

## Main definitions

* `Keeps`: a reader gives the same answer wherever a text stands, and with any tail that fits.

## Main results

* `readPlain_keeps`, `readTransform_keeps`, `readLiteral_keeps`: the readers for such components.
-/

namespace DotPath

open Json

/-! ## Values before a pipe -/

namespace Place

variable {p q : Place} {tail : Text}

theorem Fits.head (h : Fits tail p) : tail = [] ∨ tail.head? = some '|' :=
  h.imp_right And.left

/-- A value that is closed is read the same with any tail that fits. -/
theorem value?_embed_of_fits (h : Fits tail p) (k : Nat)
    (hclosed : ∀ c ∈ p.rest.head?, isOpening c = true ∨ c = '"' → p.value?.isSome = true) :
    (p.embed k tail).value? = p.value?.map fun (v, q) => (v.shift k, q.embed k tail) := by
  refine value?_embed_of_extent k tail ?_
  rcases h.head with rfl | hpipe
  · rw [List.append_nil]
  · refine extent_append_of_endsScalars rfl hpipe fun c hc hopen => ?_
    have := hclosed c hc hopen
    rwa [value?, Option.isSome_map] at this

theorem endsComponent_embed (h : tail = [] ∨ tail.head? = some '|') (k : Nat) :
    endsComponent (q.embed k tail) = endsComponent q := by
  rw [endsComponent, endsComponent, embed]
  cases hq : q.rest with
  | nil =>
      rcases h with rfl | hpipe
      · rfl
      · rw [List.nil_append, hpipe]
        rfl
  | cons c t => rfl

/-- Any other character than a pipe comes from the text and not from the tail. -/
theorem exists_rest_of_embed (htail : tail = [] ∨ tail.head? = some '|') {k : Nat} {c : Char}
    {u : Text} (hc : c ≠ '|') (h : (q.embed k tail).rest = c :: u) : ∃ u', q.rest = c :: u' := by
  have h : q.rest ++ tail = c :: u := h
  cases hq : q.rest with
  | nil =>
      rw [hq, List.nil_append] at h
      rcases htail with rfl | hpipe
      · cases h
      · rw [h] at hpipe
        cases hpipe
        exact absurd rfl hc
  | cons d t =>
      rw [hq, List.cons_append, List.cons.injEq] at h
      exact ⟨t, by rw [h.1]⟩

theorem suffix_of_value? {v : Occurrence} (h : p.value? = some (v, q)) : q.rest <:+ p.rest := by
  obtain ⟨-, -, -, rfl⟩ := eq_of_value? h
  exact suffix_skip p _

end Place

open Place

/-! ## Readers -/

/--
A reader gives an answer and stops at a place, wherever the text stands and whatever tail that fits
comes after it.
-/
structure Keeps {α : Type} (read : Place → Reading α) (p : Place) (a : α) (q : Place) : Prop where
  suffix : q.rest <:+ p.rest
  embed : ∀ k tail, Fits tail p → read (p.embed k tail) = .ok (a, q.embed k tail)

/-- A reader that hands over to another one, wherever the text stands. -/
theorem Keeps.of_eq {α : Type} {read other : Place → Reading α} {p q : Place} {a : α}
    (h : Keeps other p a q) (heq : ∀ k tail, read (p.embed k tail) = other (p.embed k tail)) :
    Keeps read p a q :=
  ⟨h.suffix, fun k tail hfits => (heq k tail).trans (h.embed k tail hfits)⟩

section Plain

variable {p q : Place} {tail : Text}

theorem plainLength_le (t : Text) : plainLength t ≤ t.length := by
  fun_induction plainLength t with
  | case1 | case2 => exact Nat.le_refl _
  | case3 c rest ih =>
      rw [List.length_cons, List.length_cons]
      omega
  | case4 => exact Nat.zero_le _
  | case5 c rest _ _ _ ih =>
      rw [List.length_cons]
      omega

theorem plainLength_cons {c : Char} {t : Text} (hc : c ≠ '\\') :
    plainLength (c :: t) = if isSeparator c then 0 else plainLength t + 1 := by
  rw [plainLength]
  · rintro rfl
    exact absurd rfl hc
  · rintro d rest rfl
    exact absurd rfl hc

/-- A plain component ends before a pipe that follows, unless a backslash protects the pipe. -/
theorem plainLength_append {t : Text} (ht : Settles t) (htail : tail.head? = some '|') :
    plainLength (t ++ tail) = plainLength t := by
  fun_induction plainLength t with
  | case1 =>
      obtain ⟨rest, rfl⟩ := List.head?_eq_some_iff.1 htail
      rfl
  | case2 => exact absurd ht not_settles_backslash
  | case3 c rest ih => rw [List.cons_append, List.cons_append, plainLength, ih ht.of_escape]
  | case4 c rest h1 h2 hsep =>
      have hc : c ≠ '\\' := by
        rintro rfl
        cases hsep
      rw [List.cons_append, plainLength_cons hc, if_pos hsep]
  | case5 c rest h1 h2 hsep ih =>
      have hc : c ≠ '\\' := by
        rintro rfl
        cases rest with
        | nil => exact h1 rfl rfl
        | cons d rest => exact h2 d rest rfl rfl
      rw [List.cons_append, plainLength_cons hc, if_neg hsep, ih (ht.of_cons hc)]

theorem plainLength_embed (h : Fits tail p) (k : Nat) :
    plainLength (p.embed k tail).rest = plainLength p.rest := by
  rcases h with rfl | ⟨hpipe, hsettles⟩
  · rw [embed, List.append_nil]
  · exact plainLength_append hsettles hpipe

/-- What a plain component is read as, and where it ends, does not depend on the tail. -/
theorem skip_plainLength_embed (k : Nat) (tail : Text) (p : Place) :
    (p.embed k tail).rest.take (plainLength p.rest) = p.rest.take (plainLength p.rest) ∧
      (p.embed k tail).skip (plainLength p.rest) = (p.skip (plainLength p.rest)).embed k tail :=
  ⟨List.take_append_of_le_length (plainLength_le p.rest), skip_embed k tail (plainLength_le p.rest)⟩

theorem readPlain_eq (h : plainLength p.rest ≠ 0) :
    readPlain p =
      .ok (plainSegment (p.rest.take (plainLength p.rest)), p.skip (plainLength p.rest)) := by
  rw [readPlain]
  split
  · next hzero => exact absurd hzero h
  · rfl

theorem readPlain_keeps {s : Segment} (h : readPlain p = .ok (s, q)) :
    Keeps readPlain p s q := by
  have hpos : plainLength p.rest ≠ 0 := by
    intro hzero
    rw [readPlain, hzero] at h
    cases h
  rw [readPlain_eq hpos] at h
  cases h
  refine ⟨suffix_skip p _, fun k tail hfits => ?_⟩
  have hlength := plainLength_embed hfits k
  obtain ⟨htake, hskip⟩ := skip_plainLength_embed k tail p
  rw [readPlain_eq (by rwa [hlength]), hlength, htake, hskip]

end Plain

/-! ## Transformers -/

section Transform

variable {p q : Place} {tail : Text}

/-- The characters that an argument begins with that has to be a value of JSON. -/
def opensArgument (c : Char) : Bool :=
  isOpening c || c == '"'

theorem readArgument_of_value {v : Occurrence} (hv : p.value? = some (v, q))
    (hends : endsComponent q = true) : readArgument p = .ok (v.raw, q) := by
  unfold readArgument
  split
  · next hnil =>
      have := length_of_value? hv
      rw [hnil] at this
      cases this
  · split
    · rw [hv]
      dsimp only
      rw [endsComponent] at hends
      cases hq : q.rest.head? with
      | none => rfl
      | some d =>
          rw [hq, Option.all_some] at hends
          exact if_pos hends
    · dsimp only
      rw [hv]
      exact if_pos hends

theorem readArgument_of_plain (hopen : ∀ c ∈ p.rest.head?, opensArgument c = false)
    (hvalue : ∀ v r, p.value? = some (v, r) → endsComponent r = false) :
    readArgument p = .ok (unescapeComponent (p.rest.take (plainLength p.rest)),
      p.skip (plainLength p.rest)) := by
  unfold readArgument
  split
  · next hnil =>
      obtain ⟨off, rest⟩ := p
      dsimp only at hnil
      subst hnil
      rfl
  · next c t hrest =>
      have hc : opensArgument c = false := by
        refine hopen c ?_
        rw [hrest]
        rfl
      rw [opensArgument] at hc
      rw [if_neg (by simp [hc])]
      dsimp only
      split
      · next v r hv => rw [if_neg (by simp [hvalue v r hv]), hrest]
      · rw [hrest]

/-- An argument is a value that ends the component, or it is plain. -/
theorem readArgument_cases {a : Text} (h : readArgument p = .ok (a, q)) :
    (∃ v, p.value? = some (v, q) ∧ endsComponent q = true ∧ a = v.raw) ∨
      (∀ c ∈ p.rest.head?, opensArgument c = false) ∧
        ∀ v r, p.value? = some (v, r) → endsComponent r = false := by
  by_cases hvalue : ∀ v r, p.value? = some (v, r) → endsComponent r = false
  · refine .inr ⟨fun c hc => Bool.eq_false_iff.2 fun hopen => ?_, hvalue⟩
    rw [opensArgument] at hopen
    unfold readArgument at h
    split at h
    · next hnil =>
        rw [hnil] at hc
        cases hc
    · next d t hrest =>
        rw [hrest] at hc
        cases hc
        rw [if_pos hopen] at h
        split at h
        · next v r hv =>
            have hends := hvalue v r hv
            rw [endsComponent] at hends
            split at h
            · next d hd =>
                rw [hd, Option.all_some] at hends
                rw [if_neg (by simp [hends])] at h
                cases h
            · next hd =>
                rw [hd] at hends
                cases hends
        · cases h
  · obtain ⟨v, r, hv, hends⟩ : ∃ v r, p.value? = some (v, r) ∧ endsComponent r = true := by
      simpa using hvalue
    rw [readArgument_of_value hv hends] at h
    cases h
    exact .inl ⟨v, hv, hends, rfl⟩

theorem readArgument_keeps {a : Text} (h : readArgument p = .ok (a, q)) :
    Keeps readArgument p a q := by
  rcases readArgument_cases h with ⟨v, hv, hends, rfl⟩ | ⟨hopen, hvalue⟩
  · refine ⟨suffix_of_value? hv, fun k tail hfits => ?_⟩
    have hembed := value?_embed_of_fits hfits k fun _ _ _ => by rw [hv]; rfl
    rw [hv, Option.map_some] at hembed
    show readArgument (p.embed k tail) = .ok ((v.shift k).raw, q.embed k tail)
    exact readArgument_of_value hembed ((endsComponent_embed hfits.head k).trans hends)
  · rw [readArgument_of_plain hopen hvalue] at h
    cases h
    refine ⟨suffix_skip p _, fun k tail hfits => ?_⟩
    have hlength := plainLength_embed hfits k
    obtain ⟨htake, hskip⟩ := skip_plainLength_embed k tail p
    have hopen' : ∀ c ∈ (p.embed k tail).rest.head?, opensArgument c = false := by
      intro c hc
      rw [embed] at hc
      cases hrest : p.rest with
      | nil =>
          rw [hrest, List.nil_append] at hc
          rcases hfits.head with rfl | hpipe
          · cases hc
          · rw [hpipe] at hc
            cases hc
            rfl
      | cons d t =>
          rw [hrest] at hc hopen
          exact hopen c hc
    have hclosed : ∀ c ∈ p.rest.head?, isOpening c = true ∨ c = '"' → p.value?.isSome = true := by
      intro c hc hor
      have hc' := hopen c hc
      rw [opensArgument, Bool.or_eq_false_iff, beq_eq_false_iff_ne] at hc'
      rcases hor with ho | hq
      · rw [hc'.1] at ho
        cases ho
      · exact absurd hq hc'.2
    have hvalue' : ∀ v r, (p.embed k tail).value? = some (v, r) → endsComponent r = false := by
      intro v r hr
      rw [value?_embed_of_fits hfits k hclosed, Option.map_eq_some_iff] at hr
      obtain ⟨⟨w, u⟩, hu, heq⟩ := hr
      cases heq
      rw [endsComponent_embed hfits.head, hvalue w u hu]
    rw [readArgument_of_plain hopen' hvalue', hlength, htake, hskip]

/-- A name ends before a pipe that follows. -/
theorem takeWhile_append_pipe {t : Text} (htail : tail = [] ∨ tail.head? = some '|') :
    (t ++ tail).takeWhile (!endsName ·) = t.takeWhile (!endsName ·) := by
  have hnone : tail.takeWhile (!endsName ·) = [] := by
    rcases htail with rfl | hpipe
    · rfl
    · obtain ⟨rest, rfl⟩ := List.head?_eq_some_iff.1 hpipe
      rfl
  rw [List.takeWhile_append, hnone, List.append_nil]
  split
  · next h => exact ((List.takeWhile_prefix _).eq_of_length h).symm
  · rfl

/-- The name is found as before, and so is what comes after it. -/
theorem name_embed {name t : Text} (hp : p.rest = '@' :: t)
    (hname : (p.skip 1).rest.takeWhile (!endsName ·) = name)
    (htail : tail = [] ∨ tail.head? = some '|') (k : Nat) :
    ((p.embed k tail).skip 1).rest.takeWhile (!endsName ·) = name ∧
      ((p.embed k tail).skip 1).skip name.length =
        ((p.skip 1).skip name.length).embed k tail := by
  have hlength : name.length ≤ (p.skip 1).rest.length := by
    rw [← hname]
    exact (List.takeWhile_sublist _).length_le
  rw [skip_one_embed hp, skip_embed k tail hlength]
  exact ⟨(takeWhile_append_pipe htail).trans hname, rfl⟩

theorem readTransform_eq {name : Text} (hname : (p.skip 1).rest.takeWhile (!endsName ·) = name)
    (hne : name ≠ []) :
    readTransform p =
      match ((p.skip 1).skip name.length).rest with
      | ':' :: _ =>
        (readArgument (((p.skip 1).skip name.length).skip 1)).map fun (argument, q) =>
          (.transform name (some argument) (p.upTo q).rest, q)
      | _ => .ok (.transform name none (p.upTo ((p.skip 1).skip name.length)).rest,
          (p.skip 1).skip name.length) := by
  rw [readTransform]
  dsimp only
  rw [hname]
  exact if_neg (by simpa using hne)

theorem readTransform_keeps {s : Segment} (h : readTransform p = .ok (s, q)) {t : Text}
    (hp : p.rest = '@' :: t) : Keeps readTransform p s q := by
  obtain ⟨name, hname⟩ : ∃ name, (p.skip 1).rest.takeWhile (!endsName ·) = name := ⟨_, rfl⟩
  have hne : name ≠ [] := by
    rintro rfl
    rw [readTransform] at h
    dsimp only at h
    rw [hname] at h
    cases h
  rw [readTransform_eq hname hne] at h
  have hsuffix : ((p.skip 1).skip name.length).rest <:+ p.rest :=
    (suffix_skip _ _).trans (suffix_skip p 1)
  have hlonger := fun k tail (hfits : Fits tail p) => name_embed hp hname hfits.head k
  generalize (p.skip 1).skip name.length = after at h hsuffix hlonger
  split at h
  · next u hcolon =>
      obtain ⟨⟨argument, r⟩, hargument, heq⟩ := exists_of_map_eq_ok h
      cases heq
      have hkeeps := readArgument_keeps hargument
      refine ⟨(hkeeps.suffix.trans (suffix_skip after 1)).trans hsuffix, fun k tail hfits => ?_⟩
      obtain ⟨hname', hafter⟩ := hlonger k tail hfits
      have hfits' : Fits tail (after.skip 1) := by
        refine hfits.of_settles fun hsettles => ?_
        obtain ⟨front, hfront⟩ := hsuffix
        rw [hcolon] at hfront
        rw [← hfront] at hsettles
        rw [rest_skip_one hcolon]
        exact hsettles.of_append (by decide)
      rw [readTransform_eq hname' hne, hafter, rest_embed hcolon]
      dsimp only
      rw [skip_one_embed hcolon, hkeeps.embed k tail hfits']
      dsimp only [Except.map]
      rw [upTo_embed]
      rfl
  · next hother =>
      cases h
      refine ⟨hsuffix, fun k tail hfits => ?_⟩
      obtain ⟨hname', hafter⟩ := hlonger k tail hfits
      rw [readTransform_eq hname' hne, hafter]
      split
      · next u hcolon =>
          obtain ⟨u', hu'⟩ := exists_rest_of_embed hfits.head (by decide) hcolon
          exact absurd hu' (hother u')
      · rw [upTo_embed]
        rfl

end Transform

/-! ## Literals -/

theorem readLiteral_keeps {p q : Place} {s : Segment} (h : readLiteral p = .ok (s, q)) {t : Text}
    (hp : p.rest = '!' :: t) : Keeps readLiteral p s q := by
  unfold readLiteral at h
  split at h
  · next v r hv =>
      split at h
      · next hends =>
          cases h
          refine ⟨(suffix_of_value? hv).trans (suffix_skip p 1), fun k tail hfits => ?_⟩
          have hafter := hfits.skip_one hp (by decide)
          have hembed := value?_embed_of_fits hafter k fun _ _ _ => by rw [hv]; rfl
          rw [hv, Option.map_some, ← skip_one_embed hp] at hembed
          rw [readLiteral, hembed]
          exact if_pos ((endsComponent_embed hfits.head k).trans hends)
      · cases h
  · cases h

end DotPath
