import DotPath.Json.Items
import DotPath.Json.Walk
import DotPath.Proofs.Json.Items

/-!
# A container is scanned the same way alone and in its document

The text of a container can be cut out of the document and scanned for items, or the scan can go
over the whole document from the opening bracket on. Where the document is malformed this is not
obviously the same: the extent of a container ends where its brackets balance, without the brackets
being told apart, while the scan for items runs until it meets its own bracket. But a scan for items
never gets across the bracket that ends the extent, since no token does.

## Main results

* `Closes.extent_append`: what is found inside a container does not depend on what comes behind it.
* `elementsFrom_embed`, `membersFrom_embed`: nor do the items.
* `membersAt_eq`: the members from a place on are those of the value at that place.
-/

namespace DotPath.Json

/-! ## What is left of a container -/

theorem closes_of_ends {e n : Nat} {mode : Mode} {run : Text} (he : 0 < e)
    (h : containerEnd e mode n run = some (n + run.length)) : Closes e mode run := by
  obtain ⟨front, rest, rfl, hlen, hfront⟩ := closes_of_containerEnd he h
  have hrest : rest = [] := by
    rw [List.length_append] at hlen
    exact List.length_eq_zero_iff.1 (by omega)
  rwa [hrest, List.append_nil]

theorem Closes.isSome {e : Nat} {mode : Mode} {run : Text} (h : Closes e mode run) (n : Nat) :
    (containerEnd e mode n run).isSome := by
  have := h.ends n []
  rw [List.append_nil] at this
  rw [this]
  rfl

/-- Behind something that is passed over, the container still has to be closed. -/
theorem Closes.of_append {raw run : Text} (hraw : Passes raw) (h : Closes 1 .plain (raw ++ run)) :
    Closes 1 .plain run := by
  have hends := h.ends 0 []
  rw [List.append_nil, hraw 1 0 run Nat.one_pos] at hends
  refine closes_of_ends (n := 0 + raw.length) Nat.one_pos ?_
  rw [hends, List.length_append, Nat.add_assoc]

theorem Closes.ne_neutral {run : Text} (h : Closes 1 .plain run) : ¬ ∀ c ∈ run, isNeutral c := by
  intro hall
  have hends := h.ends 0 []
  rw [passes_neutral hall 1 0 [] Nat.one_pos] at hends
  cases hends

/-! ## Tokens stop at the end of the container -/

/-- With fewer brackets open the scan ends as well, if not sooner. -/
theorem isSome_containerEnd_of_le {d e n : Nat} {mode : Mode} {t : Text} (he : 0 < e) (hle : e ≤ d)
    (h : (containerEnd d mode n t).isSome) : (containerEnd e mode n t).isSome := by
  obtain ⟨k, rfl⟩ := Nat.exists_eq_add_of_le' hle
  induction t generalizing e n mode with
  | nil => cases h
  | cons c t ih =>
      rw [containerEnd_cons] at h ⊢
      rcases openAfter_cases he mode c with ⟨-, -, hstop, -⟩ | ⟨e', he', hgo, hbehind⟩
      · rw [hstop]
        rfl
      · rw [hbehind] at h
        rw [hgo]
        exact ih he' (Nat.le_add_left e' k) h

/-- What the scan of a string takes alone is no backslash. -/
theorem ne_backslash_of_alone {c : Char} {t : Text} (hlast : c = '\\' → t = [] → False)
    (hpair : ∀ d u, c = '\\' → t = d :: u → False) : ¬ (c == '\\') = true := by
  intro hb
  rw [beq_iff_eq] at hb
  cases t with
  | nil => exact hlast hb rfl
  | cons d u => exact hpair d u hb rfl

theorem isSome_stringEnd_of_quoted {e n : Nat} {t : Text}
    (h : (containerEnd e .quoted n t).isSome) : (stringEnd n t).isSome := by
  fun_induction stringEnd n t with
  | case1 => cases h
  | case2 => cases h
  | case3 n c rest ih => exact ih h
  | case4 => rfl
  | case5 n c rest h1 h2 hc ih =>
      have hb := ne_backslash_of_alone h1 h2
      rw [containerEnd, if_neg hc, if_neg hb] at h
      exact ih h

private theorem wordEnd?_append_of_closes {word run : Text} (hword : ∀ c ∈ word, isNeutral c)
    (h : Closes 1 .plain run) (tail : Text) : wordEnd? word (run ++ tail) = wordEnd? word run := by
  have hiff : word <+: run ++ tail ↔ word <+: run := by
    constructor
    · intro hp
      rcases List.prefix_or_prefix_of_prefix hp (List.prefix_append run tail) with hp | hp
      · exact hp
      · exact absurd (fun c hc => hword c (hp.subset hc)) h.ne_neutral
    · intro hp
      exact hp.trans (List.prefix_append run tail)
  have hbool : word.isPrefixOf (run ++ tail) = word.isPrefixOf run := by
    rw [Bool.eq_iff_iff, List.isPrefixOf_iff_prefix, List.isPrefixOf_iff_prefix, hiff]
  rw [wordEnd?, wordEnd?, hbool]

/-! ## Numbers -/

section Numbers

variable {u v : Text}

private theorem digits?_append_lacks (hv : Lacks isNumeric v) :
    digits? (u ++ v) = (digits? u).map fun (n, rest) => (n, rest ++ v) := by
  have hnone : v.takeWhile Char.isDigit = [] ∧ v.dropWhile Char.isDigit = v := by
    have hv' : Lacks Char.isDigit v := hv.mono fun c hc => by simp [isNumeric, hc]
    cases v with
    | nil => simp
    | cons c v => simp [hv' c rfl]
  have htake : (u ++ v).takeWhile Char.isDigit = u.takeWhile Char.isDigit := by
    rw [List.takeWhile_append, hnone.1, List.append_nil]
    split
    · next h => exact ((List.takeWhile_prefix Char.isDigit).eq_of_length h).symm
    · rfl
  have hdrop : (u ++ v).dropWhile Char.isDigit = u.dropWhile Char.isDigit ++ v := by
    rw [List.dropWhile_append, hnone.2]
    split
    · next h => rw [List.isEmpty_iff.1 h, List.nil_append]
    · rfl
  simp only [digits?, htake, hdrop]
  split <;> rfl

private theorem minus_append_lacks (hv : Lacks isNumeric v) :
    minus (u ++ v) = ((minus u).1, (minus u).2 ++ v) := by
  cases u with
  | nil =>
      cases v with
      | nil => rfl
      | cons c v =>
          have hc : c ≠ '-' := by
            rintro rfl
            cases hv '-' rfl
          simp [minus, hc]
  | cons c u =>
      by_cases hc : c = '-'
      · subst hc
        rfl
      · simp [minus, hc]

private theorem fraction?_append_lacks (hv : Lacks isNumeric v) :
    fraction? (u ++ v) = (fraction? u).map fun (n, rest) => (n, rest ++ v) := by
  cases u with
  | nil =>
      cases v with
      | nil => rfl
      | cons c v =>
          have hc : c ≠ '.' := by
            rintro rfl
            cases hv '.' rfl
          simp [fraction?, hc]
  | cons c u =>
      by_cases hc : c = '.'
      · subst hc
        simp only [fraction?, List.cons_append, digits?_append_lacks hv, Option.map_map]
        rfl
      · simp [fraction?, hc]

private theorem exponentSign_append_lacks (hv : Lacks isNumeric v) :
    exponentSign (u ++ v) = ((exponentSign u).1, (exponentSign u).2 ++ v) := by
  cases u with
  | nil =>
      cases v with
      | nil => rfl
      | cons c v =>
          have hc : c ≠ '+' ∧ c ≠ '-' := by
            constructor <;> rintro rfl <;> cases hv _ rfl
          simp [exponentSign, hc]
  | cons c u =>
      simp only [exponentSign, List.cons_append]
      split <;> rfl

private theorem exponent?_append_lacks (hv : Lacks isNumeric v) :
    exponent? (u ++ v) = (exponent? u).map fun (n, rest) => (n, rest ++ v) := by
  cases u with
  | nil =>
      cases v with
      | nil => rfl
      | cons c v =>
          have hc : c ≠ 'e' ∧ c ≠ 'E' := by
            constructor <;> rintro rfl <;> cases hv _ rfl
          simp [exponent?, hc]
  | cons c u =>
      simp only [exponent?, List.cons_append]
      split
      · simp only [exponentSign_append_lacks hv, digits?_append_lacks hv, Option.map_map]
        rfl
      · rfl

/-- The scan for numbers stops before the first character that it does not look at. -/
theorem numberEnd?_append_lacks (hv : Lacks isNumeric v) : numberEnd? (u ++ v) = numberEnd? u := by
  simp only [numberEnd?, minus_append_lacks hv, digits?_append_lacks hv, Option.bind_eq_bind]
  cases digits? (minus u).2 with
  | none => rfl
  | some d =>
      simp only [Option.map_some, Option.bind_some, fraction?_append_lacks hv]
      cases fraction? d.2 with
      | none => rfl
      | some f =>
          simp only [Option.map_some, Option.bind_some, exponent?_append_lacks hv]
          cases exponent? f.2 with
          | none => rfl
          | some e => rfl

end Numbers

private theorem numberEnd?_append_of_closes {run : Text} (h : Closes 1 .plain run) (tail : Text) :
    numberEnd? (run ++ tail) = numberEnd? run := by
  obtain ⟨u, v, hrun, hv, hne⟩ : ∃ u v, run = u ++ v ∧ Lacks isNumeric v ∧ v ≠ [] := by
    refine ⟨run.takeWhile isNumeric, run.dropWhile isNumeric,
      List.takeWhile_append_dropWhile.symm, lacks_dropWhile isNumeric run, ?_⟩
    intro hnil
    have htake : run.takeWhile isNumeric = run := by
      simpa [hnil] using List.takeWhile_append_dropWhile (p := isNumeric) (l := run)
    refine h.ne_neutral fun c hc => neutral_of_isNumeric ?_
    rw [← htake] at hc
    exact List.all_eq_true.1 List.all_takeWhile c hc
  have hvt : Lacks isNumeric (v ++ tail) := by
    cases v with
    | nil => exact absurd rfl hne
    | cons c v => exact hv
  rw [hrun, List.append_assoc, numberEnd?_append_lacks hvt, numberEnd?_append_lacks hv]

/-! ## Values and items -/

/-- What starts inside a container is found without a look at what comes behind the container. -/
theorem Closes.extent_append {run : Text} (h : Closes 1 .plain run) (tail : Text) :
    extent (run ++ tail) = extent run := by
  cases run with
  | nil => exact absurd (by simp) h.ne_neutral
  | cons c r =>
      have hword : ∀ {word : Text}, word.all isNeutral →
          wordEnd? word (c :: (r ++ tail)) = wordEnd? word (c :: r) :=
        fun hw => wordEnd?_append_of_closes (List.all_eq_true.1 hw) h tail
      have hnumber : numberEnd? (c :: (r ++ tail)) = numberEnd? (c :: r) :=
        numberEnd?_append_of_closes h tail
      have hsome := h.isSome 0
      simp only [extent, List.cons_append]
      split
      · next hc =>
          have hq : c ≠ '"' := by
            rintro rfl
            cases hc
          simp only [containerEnd, beq_iff_eq, hq, hc, if_false, if_true] at hsome
          have hone := isSome_containerEnd_of_le Nat.one_pos (Nat.le_succ 1) hsome
          obtain ⟨k, hk⟩ := Option.isSome_iff_exists.1 hone
          obtain ⟨front, rest, rfl, -, hfront⟩ := closes_of_containerEnd Nat.one_pos hk
          rw [List.append_assoc, hfront.ends, hfront.ends]
      · split
        · next hq =>
            simp only [containerEnd, hq, if_true] at hsome
            obtain ⟨k, hk⟩ := Option.isSome_iff_exists.1 (isSome_stringEnd_of_quoted hsome)
            obtain ⟨body, rest, rfl, hbody, -⟩ := isRun_of_stringEnd hk
            rw [List.append_assoc, List.cons_append, hbody.stringEnd_append,
              hbody.stringEnd_append]
        · rw [hword rfl, hword rfl, hword rfl, hnumber]

/-! ## Values before a mark -/

/-- The letters of the words that are values. -/
def wordLetters : Text :=
  ['t', 'r', 'u', 'e', 'f', 'a', 'l', 's', 'n']

/-- A character that no value begins with, and that no number and no word goes on with. -/
def endsScalars (c : Char) : Bool :=
  isNeutral c && !isNumeric c && !wordLetters.contains c

section Mark

variable {t tail : Text} {mark : Char}

private theorem wordEnd?_append_of_not_mem {word : Text} (hword : mark ∉ word)
    (htail : tail.head? = some mark) : wordEnd? word (t ++ tail) = wordEnd? word t := by
  have hiff : word <+: t ++ tail ↔ word <+: t := by
    constructor
    · intro hp
      rcases List.prefix_or_prefix_of_prefix hp (List.prefix_append t tail) with hp' | ⟨s, rfl⟩
      · exact hp'
      · rw [List.prefix_append_right_inj] at hp
        cases s with
        | nil => simp
        | cons c s =>
            obtain ⟨s', rfl⟩ := hp
            cases htail
            exact absurd (by simp) hword
    · intro hp
      exact hp.trans (List.prefix_append t tail)
  have hbool : word.isPrefixOf (t ++ tail) = word.isPrefixOf t := by
    rw [Bool.eq_iff_iff, List.isPrefixOf_iff_prefix, List.isPrefixOf_iff_prefix, hiff]
  rw [wordEnd?, wordEnd?, hbool]

/-- What begins like a container or a string is no number. -/
theorem Fills.ne_number {kind : Kind} {c : Char} {s : Text} (h : Fills kind (c :: s))
    (hc : isOpening c = true ∨ c = '"') : kind ≠ .number := by
  rintro rfl
  obtain ⟨d, u, hraw, hd⟩ : ∃ d u, c :: s = d :: u ∧ (d = '-' ∨ d.isDigit = true) := by
    cases h with
    | number hn => exact hn.head
  rw [(List.cons.inj hraw).1] at hc
  rcases hd with rfl | hd
  · rcases hc with hc | hc <;> cases hc
  · simp [isOpening, ne_of_isDigit hd] at hc

/-- No value goes on with such a character. A container or string must be closed before it. -/
theorem extent_append_of_endsScalars (hmark : endsScalars mark = true)
    (htail : tail.head? = some mark)
    (hclosed : ∀ c ∈ t.head?, isOpening c = true ∨ c = '"' → (extent t).isSome = true) :
    extent (t ++ tail) = extent t := by
  simp only [endsScalars, Bool.and_eq_true, Bool.not_eq_true'] at hmark
  obtain ⟨⟨hneutral, hnumeric⟩, hletter⟩ := hmark
  cases t with
  | nil =>
      obtain ⟨rest, rfl⟩ := List.head?_eq_some_iff.1 htail
      simp only [isNeutral, bne_iff_ne, Bool.and_eq_true, Bool.not_eq_true'] at hneutral
      simp only [isNumeric, Bool.or_eq_false_iff, beq_eq_false_iff_ne] at hnumeric
      simp only [wordLetters, List.contains_eq_mem, decide_eq_false_iff_not, List.mem_cons,
        not_or] at hletter
      simp [extent, hneutral, hnumeric, hletter]
  | cons c t =>
      have hlacks : Lacks isNumeric tail := by
        intro d hd
        rw [htail] at hd
        cases hd
        exact hnumeric
      have hfound : isOpening c = true ∨ c = '"' → extent (c :: t ++ tail) = extent (c :: t) := by
        intro hc
        obtain ⟨⟨kind, n⟩, hext⟩ := Option.isSome_iff_exists.1 (hclosed c rfl hc)
        obtain ⟨raw, rest, heq, rfl, hfills⟩ := fills_of_extent hext
        obtain ⟨d, s, rfl, -⟩ := hfills.head
        obtain ⟨rfl, -⟩ := List.cons.inj heq
        rw [hext, heq, List.append_assoc,
          hfills.extent_append_of fun hnumber => absurd hnumber (hfills.ne_number hc)]
      by_cases hc : isOpening c = true ∨ c = '"'
      · exact hfound hc
      · rw [not_or] at hc
        have hnumber : numberEnd? (c :: (t ++ tail)) = numberEnd? (c :: t) :=
          numberEnd?_append_lacks (u := c :: t) hlacks
        have hword : ∀ {word : Text}, word.all wordLetters.contains = true →
            wordEnd? word (c :: (t ++ tail)) = wordEnd? word (c :: t) := by
          intro word hall
          refine wordEnd?_append_of_not_mem (t := c :: t) (fun hmem => ?_) htail
          rw [List.all_eq_true.1 hall mark hmem] at hletter
          cases hletter
        simp only [extent, List.cons_append, hc, beq_iff_eq, Bool.false_eq_true, if_false]
        rw [hword rfl, hword rfl, hword rfl, hnumber]

end Mark

end DotPath.Json

/-! ## Places in a container and in its document -/

namespace DotPath.Json

/-- A member of a part of a text, as a member of the whole text. -/
def Member.shift (m : Member) (octets : Nat) : Member :=
  ⟨m.key.shift octets, m.value.shift octets⟩

end DotPath.Json

namespace DotPath.Place

open Json

/-- The same place in a larger text, with `k` octets before it and more text behind it. -/
def embed (k : Nat) (tail : Text) (p : Place) : Place :=
  ⟨k + p.offset, p.rest ++ tail⟩

/-- The place is inside a container, and its text ends where the container does. -/
def IsInside (p : Place) : Prop :=
  Closes 1 .plain p.rest

section Embed

variable {p : Place} (k : Nat) (tail : Text)

theorem skip_embed {n : Nat} (hn : n ≤ p.rest.length) :
    (p.embed k tail).skip n = (p.skip n).embed k tail := by
  simp [skip, embed, List.take_append_of_le_length hn, List.drop_append_of_le_length hn,
    Nat.add_assoc]

theorem IsInside.skip (h : p.IsInside) {n : Nat} (hp : Passes (p.rest.take n)) :
    (p.skip n).IsInside := by
  refine Closes.of_append hp ?_
  show Closes 1 .plain (p.rest.take n ++ p.rest.drop n)
  rw [List.take_append_drop]
  exact h

theorem IsInside.ne_nil (h : p.IsInside) : p.rest ≠ [] := by
  intro hnil
  refine h.ne_neutral ?_
  rw [hnil]
  simp

theorem skipSpace_embed (h : p.IsInside) :
    (p.embed k tail).skipSpace = p.skipSpace.embed k tail ∧ p.skipSpace.IsInside := by
  obtain ⟨s, hs, hlacks⟩ := exists_spaces p.rest
  have hinside : Closes 1 .plain (p.rest.dropWhile isSpace) := by
    refine Closes.of_append (passes_spaces s.2) ?_
    rw [← hs]
    exact h
  obtain ⟨off, rest⟩ := p
  simp only at hs hlacks hinside
  generalize rest.dropWhile isSpace = t at hs hlacks hinside
  subst hs
  have ht : t ≠ [] := IsInside.ne_nil (p := ⟨0, t⟩) hinside
  have hlacks' : Lacks isSpace (t ++ tail) := by
    cases t with
    | nil => exact absurd rfl ht
    | cons c t => exact hlacks
  have hskip := skipSpace_append off s hlacks
  have hskip' := skipSpace_append (k + off) s hlacks'
  rw [hskip]
  constructor
  · rw [embed, List.append_assoc, hskip', embed, Nat.add_assoc]
  · exact hinside

/-- A character that the scan of a container does not look at is found as before. -/
theorem expect?_embed {c : Char} (h : p.IsInside) (hc : isNeutral c) :
    (p.embed k tail).expect? c = (p.expect? c).map (embed k tail) ∧
      ∀ q, p.expect? c = some q → q.IsInside := by
  have hne := h.ne_nil
  obtain ⟨off, rest⟩ := p
  cases rest with
  | nil => exact absurd rfl hne
  | cons d rest =>
      by_cases hd : d = c
      · subst hd
        have hpass : Passes [d] := passes_singleton hc
        have hskip := skip_embed (p := ⟨off, d :: rest⟩) k tail (n := 1) (by simp)
        constructor
        · simp only [expect?, embed, List.cons_append, List.head?_cons, if_true, Option.map_some]
          exact congrArg some hskip
        · intro q hq
          simp only [expect?, List.head?_cons, if_true, Option.some.injEq] at hq
          subst hq
          exact h.skip hpass
      · simp [expect?, embed, hd]

/-- Where the extent is the same, so is the value. -/
theorem value?_embed_of_extent (h : extent (p.rest ++ tail) = extent p.rest) :
    (p.embed k tail).value? = p.value?.map (fun (v, q) => (v.shift k, q.embed k tail)) := by
  simp only [value?, embed, h, Option.map_map]
  cases hp : extent p.rest with
  | none => rfl
  | some found =>
      obtain ⟨kind, n⟩ := found
      obtain ⟨raw, rest, hrest, rfl, -⟩ := fills_of_extent hp
      have hlen : raw.length ≤ p.rest.length := by
        rw [hrest, List.length_append]
        exact Nat.le_add_right _ _
      have hskip := skip_embed k tail hlen
      have htake : (p.rest ++ tail).take raw.length = p.rest.take raw.length :=
        List.take_append_of_le_length hlen
      simp only [embed] at hskip
      simp only [Option.map_some, Function.comp_apply, htake, Occurrence.shift, hskip]

theorem value?_embed (h : p.IsInside) :
    (p.embed k tail).value? = p.value?.map (fun (v, q) => (v.shift k, q.embed k tail)) ∧
      ∀ v q, p.value? = some (v, q) → q.IsInside := by
  constructor
  · exact value?_embed_of_extent k tail (Closes.extent_append h tail)
  · intro v q hq
    obtain ⟨hfills, -, hrest, -⟩ := eq_of_value? hq
    refine Closes.of_append hfills.passes ?_
    rw [← hrest]
    exact h

/-- A literal is a value that begins with a quote. -/
theorem literal?_eq (p : Place) :
    p.literal? = if p.rest.head? = some '"' then p.value? else none := by
  obtain ⟨off, rest⟩ := p
  cases rest with
  | nil => rfl
  | cons c rest =>
      by_cases hc : c = '"'
      · subst hc
        have hext : extent ('"' :: rest) = (stringEnd 1 rest).map (.string, ·) := rfl
        simp only [literal?, value?, hext, List.head?_cons, if_true, Option.map_map]
        rfl
      · simp [literal?, hc]

theorem literal?_embed (h : p.IsInside) :
    (p.embed k tail).literal? = p.literal?.map (fun (v, q) => (v.shift k, q.embed k tail)) ∧
      ∀ v q, p.literal? = some (v, q) → q.IsInside := by
  have hvalue := value?_embed k tail h
  have hhead : (p.embed k tail).rest.head? = p.rest.head? := by
    have hne := h.ne_nil
    obtain ⟨off, rest⟩ := p
    cases rest with
    | nil => exact absurd rfl hne
    | cons c rest => rfl
  rw [literal?_eq, literal?_eq, hhead]
  by_cases hq : p.rest.head? = some '"'
  · rw [if_pos hq, if_pos hq]
    exact hvalue
  · rw [if_neg hq, if_neg hq]
    exact ⟨rfl, by simp⟩

theorem slot?_embed (closing : Char) (first : Bool) (h : p.IsInside) :
    slot? closing first (p.embed k tail) = (slot? closing first p).map (embed k tail) ∧
      ∀ q, slot? closing first p = some q → q.IsInside := by
  obtain ⟨hskip, hinside⟩ := skipSpace_embed k tail h
  have hcomma := expect?_embed k tail hinside (c := ',') rfl
  simp only [slot?, hskip]
  have hne := hinside.ne_nil
  generalize p.skipSpace = r at hinside hcomma hne
  obtain ⟨off, rest⟩ := r
  cases rest with
  | nil => exact absurd rfl hne
  | cons c rest =>
      show (if c == closing then _ else _) = _ ∧ _
      by_cases hc : (c == closing) = true
      · simp [hc]
      · cases first with
        | true =>
            simp only [hc, if_true, Bool.false_eq_true, if_false]
            exact ⟨rfl, by rintro q ⟨⟩; exact hinside⟩
        | false =>
            simp only [hc, Bool.false_eq_true, if_false, hcomma.1]
            cases hexp : expect? ',' ⟨off, c :: rest⟩ with
            | none => exact ⟨rfl, by simp⟩
            | some q =>
                have hq := skipSpace_embed k tail (hcomma.2 q hexp)
                simp only [Option.map_some, hq.1, Option.some.injEq, forall_eq', true_and]
                exact hq.2

theorem member?_embed (h : p.IsInside) :
    member? (p.embed k tail) = (member? p).map (fun (m, q) => (m.shift k, q.embed k tail)) ∧
      ∀ m q, member? p = some (m, q) → q.IsInside := by
  obtain ⟨hkey, hkeyIn⟩ := literal?_embed k tail h
  simp only [member?, hkey, Option.bind_eq_bind, Option.pure_def]
  cases hk : p.literal? with
  | none => exact ⟨rfl, by simp⟩
  | some found =>
      obtain ⟨key, a⟩ := found
      obtain ⟨hgap, hgapIn⟩ := skipSpace_embed k tail (hkeyIn key a hk)
      obtain ⟨hcolon, hcolonIn⟩ := expect?_embed k tail hgapIn (c := ':') rfl
      simp only [Option.map_some, Option.bind_some, hgap, hcolon]
      cases hc : a.skipSpace.expect? ':' with
      | none => exact ⟨rfl, by simp⟩
      | some b =>
          obtain ⟨hspace, hspaceIn⟩ := skipSpace_embed k tail (hcolonIn b hc)
          obtain ⟨hvalue, hvalueIn⟩ := value?_embed k tail hspaceIn
          simp only [Option.map_some, Option.bind_some, hspace, hvalue]
          cases hv : b.skipSpace.value? with
          | none => exact ⟨rfl, by simp⟩
          | some found =>
              refine ⟨rfl, ?_⟩
              rintro m q ⟨⟩
              exact hvalueIn found.1 found.2 hv

end Embed

end DotPath.Place

namespace DotPath.Json

/-! ## Scans for items -/

/-- The scan for elements does not get past the end of the container. -/
theorem elementsFrom_embed {first : Bool} {p : Place} (h : p.IsInside) (k : Nat) (tail : Text) :
    elementsFrom first (p.embed k tail) = (elementsFrom first p).map (·.shift k) := by
  fun_induction elementsFrom first p with
  | case1 first p hs =>
      have hslot := (Place.slot?_embed k tail ']' first h).1
      rw [hs, Option.map_none] at hslot
      rw [elementsFrom_of_no_slot hslot]
      rfl
  | case2 first p q hs hv =>
      obtain ⟨hslot, hinside⟩ := Place.slot?_embed k tail ']' first h
      have hvalue := (Place.value?_embed k tail (hinside q hs)).1
      rw [hs, Option.map_some] at hslot
      rw [hv, Option.map_none] at hvalue
      rw [elementsFrom_of_no_value hslot hvalue]
      rfl
  | case3 first p q hs v next hv ih =>
      obtain ⟨hslot, hinside⟩ := Place.slot?_embed k tail ']' first h
      obtain ⟨hvalue, hnext⟩ := Place.value?_embed k tail (hinside q hs)
      rw [hs, Option.map_some] at hslot
      rw [hv, Option.map_some] at hvalue
      rw [elementsFrom_of_slot hslot hvalue, ih (hnext v next hv), List.map_cons]

/-- Nor does the scan for members. -/
theorem membersFrom_embed {first : Bool} {p : Place} (h : p.IsInside) (k : Nat) (tail : Text) :
    membersFrom first (p.embed k tail) = (membersFrom first p).map (·.shift k) := by
  fun_induction membersFrom first p with
  | case1 first p hs =>
      have hslot := (Place.slot?_embed k tail '\x7d' first h).1
      rw [hs, Option.map_none] at hslot
      rw [membersFrom_of_no_slot hslot]
      rfl
  | case2 first p q hs hm =>
      obtain ⟨hslot, hinside⟩ := Place.slot?_embed k tail '\x7d' first h
      have hmember := (Place.member?_embed k tail (hinside q hs)).1
      rw [hs, Option.map_some] at hslot
      rw [hm, Option.map_none] at hmember
      rw [membersFrom_of_no_member hslot hmember]
      rfl
  | case3 first p q hs m next hm ih =>
      obtain ⟨hslot, hinside⟩ := Place.slot?_embed k tail '\x7d' first h
      obtain ⟨hmember, hnext⟩ := Place.member?_embed k tail (hinside q hs)
      rw [hs, Option.map_some] at hslot
      rw [hm, Option.map_some] at hmember
      rw [membersFrom_of_slot hslot hmember, ih (hnext m next hm), List.map_cons]

/--
The members from a place on are those of the value that starts there, cut out of the text: the scan
over the whole text does not find more than the scan over the value.
-/
theorem membersAt_eq {p q : Place} {v : Occurrence} (h : p.value? = some (v, q)) :
    membersAt p = (members v.raw).map (·.shift p.offset) := by
  obtain ⟨hfills, -, hrest, -⟩ := Place.eq_of_value? h
  obtain ⟨off, rest⟩ := p
  simp only at hrest
  subst hrest
  obtain ⟨c, s, hraw, -⟩ := hfills.head
  by_cases hc : c = '\x7b'
  · subst hc
    rw [hraw] at hfills
    have hinside : Place.IsInside ⟨1, s⟩ := by
      generalize hk : v.kind = kind at hfills
      cases hfills with
      | container _ hrun => exact hrun
      | number hnum =>
          obtain ⟨d, u, heq, hd⟩ := hnum.head
          cases heq
          rcases hd with hd | hd <;> cases hd
    have hembed : membersFrom true (Place.embed off q.rest ⟨1, s⟩) =
        (membersFrom true ⟨1, s⟩).map (·.shift off) := membersFrom_embed hinside off q.rest
    rw [hraw, members_cons, ← hembed]
    rfl
  · have hnone : members v.raw = [] := by
      rw [members, membersAt, hraw]
      simp [opensObject, Place.start, hc]
    rw [hnone, hraw, membersAt]
    simp [opensObject, hc]

end DotPath.Json
