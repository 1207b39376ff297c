import DotPath.Proofs.Json.Numeral

/-!
# What the scan for extents finds

`extent` reads a text from its start and stops where one value ends. This file says which texts it
takes for a value, whatever comes after them: `Fills kind raw` lists them, form by form. The forms
are lenient. Brackets only have to balance, without being told apart, a string only has to close,
and a number may have leading zeros; so the theory covers malformed texts as well.

A value inside a container is seen twice: by the scan that looks for its end, and by the scan of the
container, which passes over it. `Passes` is the second view, and every value has it.

## Main definitions

* `Fills`: the texts that are taken for a value.
* `openAfter`: what one character does to the brackets that are open in a container.

## Main results

* `openAfter_cases`: a character closes the last bracket, or leaves some open.
* `fills_of_extent` and `Fills.extent_append`: the scan finds exactly the texts that `Fills` lists,
  and the text behind a value matters only to a number, which must not run on.
* `Fills.passes`: the scan of a container passes over any value with its brackets in balance.
* `IsScalar.fills`, `passes_spaces`: the tokens of the strict grammar among them.
-/

namespace DotPath.Json

/-! ## Strings -/

/-- What the scan takes for the inside of a string: a backslash protects the character after it. -/
inductive IsRun : Text → Prop where
  | nil : IsRun []
  | plain {c : Char} {t : Text} : c ≠ '"' → c ≠ '\\' → IsRun t → IsRun (c :: t)
  | escaped (c : Char) {t : Text} : IsRun t → IsRun ('\\' :: c :: t)

theorem IsRun.append {s t : Text} (hs : IsRun s) (ht : IsRun t) : IsRun (s ++ t) := by
  induction hs with
  | nil => exact ht
  | plain hq hb _ ih => exact .plain hq hb ih
  | escaped c _ ih => exact .escaped c ih

/-- The strict grammar of strings lies within the lenient one. -/
theorem IsBody.isRun {t : Text} (h : IsBody t) : IsRun t := by
  induction h with
  | nil => exact .nil
  | plain _ hq hb _ ih => exact .plain hq hb ih
  | escape _ _ ih => exact .escaped _ ih
  | @unicode a b c d t ha hb hc hd _ ih =>
      have hne : ∀ x : Char, isHexDigit x → x ≠ '"' ∧ x ≠ '\\' := by
        intro x hx
        constructor <;> rintro rfl <;> simp [isHexDigit] at hx
      have plain : ∀ {x : Char} {s : Text}, isHexDigit x → IsRun s → IsRun (x :: s) :=
        fun hx hs => .plain (hne _ hx).1 (hne _ hx).2 hs
      exact .escaped _ (plain ha (plain hb (plain hc (plain hd ih))))

theorem IsRun.stringEnd_append {body : Text} (h : IsRun body) :
    ∀ (n : Nat) (rest : Text),
      stringEnd n (body ++ '"' :: rest) = some (n + body.length + 1) := by
  induction h with
  | nil =>
      intro n rest
      simp [stringEnd]
  | @plain c t hq hb _ ih =>
      intro n rest
      have := ih (n + 1) rest
      simp [stringEnd, hq, hb, this]
      omega
  | @escaped c t _ ih =>
      intro n rest
      have := ih (n + 2) rest
      simp [stringEnd, this]
      omega

theorem isRun_of_stringEnd {n k : Nat} {t : Text} (h : stringEnd n t = some k) :
    ∃ body rest, t = body ++ '"' :: rest ∧ IsRun body ∧ k = n + body.length + 1 := by
  fun_induction stringEnd n t with
  | case1 => simp at h
  | case2 => simp at h
  | case3 n c rest ih =>
      obtain ⟨body, tail, rfl, hb, rfl⟩ := ih h
      exact ⟨'\\' :: c :: body, tail, rfl, .escaped c hb, by simp; omega⟩
  | case4 n c rest _ _ hc =>
      simp only [beq_iff_eq] at hc
      simp only [Option.some.injEq] at h
      exact ⟨[], rest, by simp [hc], .nil, by simp [← h]⟩
  | case5 n c rest h1 h2 hc ih =>
      obtain ⟨body, tail, rfl, hb, rfl⟩ := ih h
      have hq : c ≠ '"' := by simpa using hc
      have hs : c ≠ '\\' := by
        rintro rfl
        cases body with
        | nil => exact h2 _ _ rfl rfl
        | cons d body => exact h2 _ _ rfl rfl
      exact ⟨c :: body, tail, rfl, .plain hq hs hb, by simp; omega⟩

/-! ## Containers -/

/-- Where the scan stands with respect to strings after one more character. -/
def Mode.next : Mode → Char → Mode
  | .escaped, _ => .quoted
  | .quoted, c => if c == '"' then .plain else if c == '\\' then .escaped else .quoted
  | .plain, c => if c == '"' then .quoted else .plain

/-- How many brackets are open after one more character; none if it closes the last of them. -/
def openAfter (e : Nat) (mode : Mode) (c : Char) : Option Nat :=
  match mode with
  | .plain =>
    if c == '"' then some e
    else if isOpening c then some (e + 1)
    else if isClosing c then if e ≤ 1 then none else some (e - 1)
    else some e
  | .quoted | .escaped => some e

/-- The scan of a container takes one character after the other. -/
theorem containerEnd_cons (e : Nat) (mode : Mode) (n : Nat) (c : Char) (t : Text) :
    containerEnd e mode n (c :: t) =
      (openAfter e mode c).elim (some (n + 1)) fun e' =>
        containerEnd e' (mode.next c) (n + 1) t := by
  cases mode with
  | escaped => rfl
  | quoted =>
      rw [containerEnd, openAfter, Mode.next]
      split
      · rfl
      · split <;> rfl
  | plain =>
      rw [containerEnd, openAfter, Mode.next]
      split
      · rfl
      · split
        · rfl
        · split
          · split <;> rfl
          · rfl

/-- A character closes the last bracket, or leaves some open, and those around them do not matter. -/
theorem openAfter_cases {e : Nat} (he : 0 < e) (mode : Mode) (c : Char) :
    (isClosing c ∧ mode.next c = .plain ∧ openAfter e mode c = none ∧
      ∀ d, 0 < d → openAfter (d + e) mode c = some d) ∨
    ∃ e', 0 < e' ∧ openAfter e mode c = some e' ∧
      ∀ d, openAfter (d + e) mode c = some (d + e') := by
  cases mode with
  | escaped | quoted => exact .inr ⟨e, he, rfl, fun d => rfl⟩
  | plain =>
      simp only [openAfter, Mode.next]
      by_cases hquote : (c == '"') = true
      · exact .inr ⟨e, he, if_pos hquote, fun d => if_pos hquote⟩
      · simp only [if_neg hquote]
        by_cases hopen : isOpening c = true
        · exact .inr ⟨e + 1, Nat.succ_pos e, if_pos hopen, fun d => if_pos hopen⟩
        · simp only [if_neg hopen]
          by_cases hclose : isClosing c = true
          · simp only [if_pos hclose]
            by_cases hone : e ≤ 1
            · refine .inl ⟨hclose, trivial, if_pos hone, fun d hd => ?_⟩
              rw [if_neg (by omega)]
              congr 1
              omega
            · refine .inr ⟨e - 1, by omega, if_neg hone, fun d => ?_⟩
              rw [if_neg (by omega)]
              congr 1
              omega
          · exact .inr ⟨e, he, if_neg hclose, fun d => if_neg hclose⟩

/--
The scan of a container, with `e` brackets open, ends exactly with `run`; and where more brackets
are open around those, it goes on behind `run` with those.
-/
structure Closes (e : Nat) (mode : Mode) (run : Text) : Prop where
  ends : ∀ n rest, containerEnd e mode n (run ++ rest) = some (n + run.length)
  passes : ∀ d n rest, 0 < d →
    containerEnd (d + e) mode n (run ++ rest) = containerEnd d .plain (n + run.length) rest

/-- One more character in front, where the scan takes it without ending. -/
theorem Closes.cons {e e' : Nat} {mode mode' : Mode} {c : Char} {run : Text}
    (hstep : ∀ d n rest,
      containerEnd (d + e) mode n (c :: rest) = containerEnd (d + e') mode' (n + 1) rest)
    (h : Closes e' mode' run) : Closes e mode (c :: run) := by
  constructor
  · intro n rest
    have hone := hstep 0 n (run ++ rest)
    simp only [Nat.zero_add] at hone
    rw [List.cons_append, hone, h.ends]
    simp only [List.length_cons, Option.some.injEq]
    omega
  · intro d n rest hd
    rw [List.cons_append, hstep, h.passes d _ _ hd]
    congr 1
    simp only [List.length_cons]
    omega

/-- Where the scan of a container ends, it ends by itself, whatever comes behind. -/
theorem closes_of_containerEnd {e n k : Nat} {mode : Mode} {t : Text} (he : 0 < e)
    (h : containerEnd e mode n t = some k) :
    ∃ run rest, t = run ++ rest ∧ k = n + run.length ∧ Closes e mode run := by
  induction t generalizing e n mode with
  | nil => cases h
  | cons c t ih =>
      rw [containerEnd_cons] at h
      rcases openAfter_cases he mode c with ⟨-, hmode, hstop, hbehind⟩ | ⟨e', he', hgo, hbehind⟩
      · rw [hstop] at h
        cases h
        refine ⟨[c], t, rfl, rfl, fun n rest => ?_, fun d n rest hd => ?_⟩
        · rw [List.singleton_append, containerEnd_cons, hstop]
          rfl
        · rw [List.singleton_append, containerEnd_cons, hbehind d hd, hmode]
          rfl
      · rw [hgo] at h
        obtain ⟨run, rest, rfl, rfl, hrun⟩ := ih he' h
        refine ⟨c :: run, rest, rfl, ?_, hrun.cons fun d n rest => ?_⟩
        · rw [List.length_cons]
          omega
        · rw [containerEnd_cons, hbehind]
          rfl

/-- The scan of a container goes over `run` with as many brackets open behind it as before it. -/
def Passes (run : Text) : Prop :=
  ∀ d n rest, 0 < d →
    containerEnd d .plain n (run ++ rest) = containerEnd d .plain (n + run.length) rest

theorem passes_nil : Passes [] := by
  intro d n rest _
  rfl

theorem Passes.append {s t : Text} (hs : Passes s) (ht : Passes t) : Passes (s ++ t) := by
  intro d n rest hd
  rw [List.append_assoc, hs d n _ hd, ht d _ _ hd, List.length_append, Nat.add_assoc]

/-- A character that means nothing to the scan of a container. -/
def isNeutral (c : Char) : Bool :=
  c != '"' && !isOpening c && !isClosing c

theorem passes_neutral {run : Text} (h : ∀ c ∈ run, isNeutral c) : Passes run := by
  intro d n rest hd
  induction run generalizing n with
  | nil => rfl
  | cons c run ih =>
      have hc : c ≠ '"' ∧ isOpening c = false ∧ isClosing c = false := by
        simpa [isNeutral, and_assoc] using h c (by simp)
      have hrun := ih (fun x hx => h x (by simp [hx])) (n + 1)
      simp only [List.cons_append, containerEnd, beq_iff_eq, hc.1, hc.2.1, hc.2.2, if_false,
        Bool.false_eq_true, hrun, List.length_cons]
      congr 1
      omega

theorem passes_singleton {c : Char} (h : isNeutral c) : Passes [c] := by
  refine passes_neutral fun d hd => ?_
  rw [List.mem_singleton.1 hd]
  exact h

theorem passes_spaces {t : Text} (h : ∀ c ∈ t, isSpace c) : Passes t := by
  refine passes_neutral fun c hc => ?_
  rcases eq_of_isSpace (h c hc) with rfl | rfl | rfl | rfl <;> rfl

private theorem quoted_run {body : Text} (h : IsRun body) :
    ∀ d n rest, containerEnd d .quoted n (body ++ '"' :: rest) =
      containerEnd d .plain (n + body.length + 1) rest := by
  induction h with
  | nil =>
      intro d n rest
      rfl
  | @plain c t hq hb _ ih =>
      intro d n rest
      have := ih d (n + 1) rest
      simp only [List.cons_append, containerEnd, beq_iff_eq, hq, hb, if_false, this,
        List.length_cons]
      congr 1
      omega
  | @escaped c t _ ih =>
      intro d n rest
      have := ih d (n + 1 + 1) rest
      simp only [List.cons_append, containerEnd, this, List.length_cons]
      simp
      congr 1
      omega

theorem IsRun.passes {body : Text} (h : IsRun body) : Passes ('"' :: (body ++ ['"'])) := by
  intro d n rest _
  have := quoted_run h d (n + 1) rest
  simp only [List.cons_append, List.append_assoc, List.nil_append, containerEnd, beq_self_eq_true,
    if_true, this, List.length_cons, List.length_append, List.length_nil]
  congr 1
  omega

/-- A container whose inside is in balance closes with its bracket, of whatever shape. -/
theorem Passes.closes {inside : Text} {c : Char} (h : Passes inside) (hc : isClosing c) :
    Closes 1 .plain (inside ++ [c]) := by
  have hn : c ≠ '"' ∧ isOpening c = false := by
    simp only [isClosing, Bool.or_eq_true, beq_iff_eq] at hc
    rcases hc with rfl | rfl <;> simp [isOpening]
  constructor
  · intro n rest
    rw [List.append_assoc, h 1 n _ Nat.one_pos]
    simp [containerEnd, hn, hc]
    omega
  · intro d n rest hd
    rw [List.append_assoc, h (d + 1) n _ (Nat.succ_pos d)]
    have hgt : ¬ d + 1 ≤ 1 := by omega
    simp only [List.cons_append, List.nil_append, containerEnd, beq_iff_eq, hn.1, hn.2, hc, hgt,
      if_false, if_true, Bool.false_eq_true, Nat.add_sub_cancel, List.length_append,
      List.length_cons, List.length_nil]
    congr 1

/-- A whole container is passed over from its opening bracket on. -/
theorem Closes.passes_cons {c : Char} {run : Text} (hc : isOpening c) (h : Closes 1 .plain run) :
    Passes (c :: run) := by
  intro d n rest hd
  have hq : c ≠ '"' := by
    rintro rfl
    simp [isOpening] at hc
  simp only [List.cons_append, containerEnd, beq_iff_eq, hq, hc, if_false, if_true,
    h.passes d _ _ hd, List.length_cons]
  congr 1
  omega

/-! ## Words and numbers -/

private theorem eq_append_of_wordEnd? {word t : Text} {n : Nat} (h : wordEnd? word t = some n) :
    ∃ rest, t = word ++ rest ∧ n = word.length := by
  unfold wordEnd? at h
  split at h
  · next hp =>
      obtain ⟨rest, rfl⟩ := List.isPrefixOf_iff_prefix.1 hp
      exact ⟨rest, rfl, by simpa using h.symm⟩
  · simp at h

theorem neutral_of_isDigit {c : Char} (h : c.isDigit) : isNeutral c := by
  simp [isNeutral, isOpening, isClosing, ne_of_isDigit h]

theorem neutral_of_isNumeric {c : Char} (h : isNumeric c) : isNeutral c := by
  simp only [isNumeric, Bool.or_eq_true, beq_iff_eq] at h
  rcases h with ((((h | rfl) | rfl) | rfl) | rfl) | rfl
  · exact neutral_of_isDigit h
  all_goals rfl

/-! ## Values -/

/-- The texts that the scan takes for one value of a kind, from the first character to the last. -/
inductive Fills : Kind → Text → Prop where
  | container {c : Char} {run : Text} :
      isOpening c → Closes 1 .plain run → Fills .container (c :: run)
  | string {body : Text} : IsRun body → Fills .string ('"' :: (body ++ ['"']))
  | trueWord : Fills .true ['t', 'r', 'u', 'e']
  | falseWord : Fills .false ['f', 'a', 'l', 's', 'e']
  | nullWord : Fills .null ['n', 'u', 'l', 'l']
  | number {t : Text} : IsNumeral t → Fills .number t

/-- What the scan finds at the start of a text is one of those texts. -/
theorem fills_of_extent {t : Text} {kind : Kind} {n : Nat} (h : extent t = some (kind, n)) :
    ∃ raw rest, t = raw ++ rest ∧ n = raw.length ∧ Fills kind raw := by
  unfold extent at h
  split at h
  · simp at h
  · next c rest =>
      have word : ∀ {word : Text} {k : Kind}, Fills k word →
          (wordEnd? word (c :: rest)).map (k, ·) = some (kind, n) →
          ∃ raw tail, c :: rest = raw ++ tail ∧ n = raw.length ∧ Fills kind raw := by
        intro word k hk hw
        simp only [Option.map_eq_some_iff, Prod.mk.injEq] at hw
        obtain ⟨m, hm, rfl, rfl⟩ := hw
        obtain ⟨tail, htail, rfl⟩ := eq_append_of_wordEnd? hm
        exact ⟨word, tail, htail, rfl, hk⟩
      split at h
      · next hc =>
          simp only [Option.map_eq_some_iff, Prod.mk.injEq] at h
          obtain ⟨k, hk, rfl, rfl⟩ := h
          obtain ⟨run, tail, rfl, rfl, hrun⟩ := closes_of_containerEnd Nat.one_pos hk
          exact ⟨c :: run, tail, rfl, by simp only [List.length_cons]; omega, .container hc hrun⟩
      · split at h
        · next hq =>
            simp only [Option.map_eq_some_iff, Prod.mk.injEq] at h
            obtain ⟨k, hk, rfl, rfl⟩ := h
            obtain ⟨body, tail, rfl, hb, rfl⟩ := isRun_of_stringEnd hk
            rw [beq_iff_eq] at hq
            refine ⟨'"' :: (body ++ ['"']), tail, by simp [hq], ?_, .string hb⟩
            simp only [List.length_cons, List.length_append, List.length_nil]
            omega
        · split at h
          · exact word .trueWord h
          · split at h
            · exact word .falseWord h
            · split at h
              · exact word .nullWord h
              · split at h
                · simp only [Option.map_eq_some_iff, Prod.mk.injEq] at h
                  obtain ⟨k, hk, rfl, rfl⟩ := h
                  obtain ⟨num, tail, heq, rfl, hnum⟩ := isNumeral_of_numberEnd? hk
                  exact ⟨num, tail, heq, rfl, .number hnum⟩
                · simp at h

/-- Such a text is found whole, unless it is a number and what follows runs on in it. -/
theorem Fills.extent_append_of {kind : Kind} {raw rest : Text} (h : Fills kind raw)
    (hr : kind = .number → Delimited rest) : extent (raw ++ rest) = some (kind, raw.length) := by
  cases h with
  | container hc hrun =>
      simp [extent, hc, hrun.ends]
      omega
  | @string body hb =>
      have := hb.stringEnd_append 1 rest
      simp [extent, isOpening, this]
      omega
  | trueWord => simp [extent, isOpening, wordEnd?]
  | falseWord => simp [extent, isOpening, wordEnd?]
  | nullWord => simp [extent, isOpening, wordEnd?]
  | number hn =>
      have hend := hn.numberEnd?_append (hr rfl)
      obtain ⟨c, s, rfl, hc⟩ := hn.head
      have hne : isOpening c = false ∧ c ≠ '"' ∧ c ≠ 't' ∧ c ≠ 'f' ∧ c ≠ 'n' := by
        rcases hc with rfl | hc
        · decide
        · simp [isOpening, ne_of_isDigit hc]
      have hc' : (c == '-' || c.isDigit) = true := by simpa using hc
      simp only [List.cons_append] at hend ⊢
      simp [extent, hne, hc', hend]

theorem Fills.extent_append {kind : Kind} {raw rest : Text} (h : Fills kind raw)
    (hr : Delimited rest) : extent (raw ++ rest) = some (kind, raw.length) :=
  h.extent_append_of fun _ => hr

theorem fills_iff {kind : Kind} {raw : Text} :
    Fills kind raw ↔ extent raw = some (kind, raw.length) := by
  constructor
  · intro h
    have := h.extent_append (lacks_nil extendsNumber)
    rwa [List.append_nil] at this
  · intro h
    obtain ⟨run, rest, rfl, hlen, hrun⟩ := fills_of_extent h
    have hrest : rest = [] := by
      rw [List.length_append] at hlen
      exact List.length_eq_zero_iff.1 (by omega)
    rwa [hrest, List.append_nil]

/-- Every value is passed over by the scan of a container around it. -/
theorem Fills.passes {kind : Kind} {raw : Text} (h : Fills kind raw) : Passes raw := by
  cases h with
  | container hc hrun => exact hrun.passes_cons hc
  | string hb => exact hb.passes
  | trueWord => exact passes_neutral (by simp [isNeutral, isOpening, isClosing])
  | falseWord => exact passes_neutral (by simp [isNeutral, isOpening, isClosing])
  | nullWord => exact passes_neutral (by simp [isNeutral, isOpening, isClosing])
  | number hn => exact passes_neutral fun c hc => neutral_of_isNumeric (hn.isNumeric c hc)

/-- What a value may begin with other than a digit. -/
def firstMarks : List Char :=
  ['[', '\x7b', '"', 't', 'f', 'n', '-']

/-- What a value may end with other than a digit. -/
def lastMarks : List Char :=
  [']', '\x7d', '"', 'e', 'l']

theorem Fills.first {kind : Kind} {raw : Text} (h : Fills kind raw) :
    ∃ c s, raw = c :: s ∧ (c ∈ firstMarks ∨ c.isDigit) := by
  cases h with
  | container hc _ =>
      simp only [isOpening, Bool.or_eq_true, beq_iff_eq] at hc
      rcases hc with rfl | rfl <;> exact ⟨_, _, rfl, .inl (by decide)⟩
  | number hn =>
      obtain ⟨c, s, rfl, hc⟩ := hn.head
      rcases hc with rfl | hc
      · exact ⟨_, _, rfl, .inl (by decide)⟩
      · exact ⟨c, s, rfl, .inr hc⟩
  | string | trueWord | falseWord | nullWord => exact ⟨_, _, rfl, .inl (by decide)⟩

/-- A value starts with a character that is no space, closes nothing and separates nothing. -/
theorem Fills.head {kind : Kind} {raw : Text} (h : Fills kind raw) :
    ∃ c s, raw = c :: s ∧ isSpace c = false ∧ isClosing c = false ∧ c ≠ ',' := by
  have hmarks : ∀ c ∈ firstMarks, isSpace c = false ∧ isClosing c = false ∧ c ≠ ',' := by
    simp [firstMarks, isSpace, isClosing]
  obtain ⟨c, s, rfl, hc⟩ := h.first
  refine ⟨c, s, rfl, ?_⟩
  rcases hc with hc | hc
  · exact hmarks c hc
  · simp [isSpace, isClosing, ne_of_isDigit hc]

/-- A container ends with a closing bracket, of whatever shape. -/
private theorem closing_of_containerEnd {e n k : Nat} {mode : Mode} {t : Text} (he : 0 < e)
    (h : containerEnd e mode n t = some k) :
    ∃ run c rest, t = run ++ c :: rest ∧ k = n + run.length + 1 ∧ isClosing c := by
  induction t generalizing e n mode with
  | nil => cases h
  | cons d t ih =>
      rw [containerEnd_cons] at h
      rcases openAfter_cases he mode d with ⟨hd, -, hstop, -⟩ | ⟨e', he', hgo, -⟩
      · rw [hstop] at h
        cases h
        exact ⟨[], d, t, rfl, rfl, hd⟩
      · rw [hgo] at h
        obtain ⟨run, c, rest, rfl, rfl, hc⟩ := ih he' h
        refine ⟨d :: run, c, rest, rfl, ?_, hc⟩
        rw [List.length_cons]
        omega

theorem Closes.last {run : Text} (h : Closes 1 .plain run) :
    ∃ inside c, run = inside ++ [c] ∧ isClosing c := by
  have hends := h.ends 0 []
  rw [List.append_nil] at hends
  obtain ⟨inside, c, rest, rfl, hlen, hc⟩ := closing_of_containerEnd Nat.one_pos hends
  have hrest : rest = [] := by
    simp only [List.length_append, List.length_cons] at hlen
    exact List.length_eq_zero_iff.1 (by omega)
  subst hrest
  exact ⟨inside, c, rfl, hc⟩

theorem Fills.final {kind : Kind} {raw : Text} (h : Fills kind raw) :
    ∃ s c, raw = s ++ [c] ∧ (c ∈ lastMarks ∨ c.isDigit) := by
  cases h with
  | @container o run _ hrun =>
      obtain ⟨s, c, rfl, hc⟩ := hrun.last
      refine ⟨o :: s, c, rfl, .inl ?_⟩
      simp only [isClosing, Bool.or_eq_true, beq_iff_eq] at hc
      rcases hc with rfl | rfl <;> decide
  | @string body _ => exact ⟨'"' :: body, '"', rfl, .inl (by decide)⟩
  | trueWord => exact ⟨['t', 'r', 'u'], 'e', rfl, .inl (by decide)⟩
  | falseWord => exact ⟨['f', 'a', 'l', 's'], 'e', rfl, .inl (by decide)⟩
  | nullWord => exact ⟨['n', 'u', 'l'], 'l', rfl, .inl (by decide)⟩
  | number hn =>
      obtain ⟨s, c, rfl, hc⟩ := hn.last
      exact ⟨s, c, rfl, .inr hc⟩

/-- A value ends with a character that is no space. -/
theorem Fills.last {kind : Kind} {raw : Text} (h : Fills kind raw) :
    ∃ s c, raw = s ++ [c] ∧ isSpace c = false := by
  have hmarks : ∀ c ∈ lastMarks, isSpace c = false := by
    simp [lastMarks, isSpace]
  obtain ⟨s, c, rfl, hc⟩ := h.final
  refine ⟨s, c, rfl, ?_⟩
  rcases hc with hc | hc
  · exact hmarks c hc
  · simp [isSpace, ne_of_isDigit hc]

/-- So there is no space around a value that could be cut off. -/
theorem Fills.trim_eq {kind : Kind} {raw : Text} (h : Fills kind raw) :
    Text.trim isSpace raw = raw := by
  obtain ⟨c, s, hhead, hc, -⟩ := h.head
  obtain ⟨s', d, hlast, hd⟩ := h.last
  have hfront : raw.dropWhile isSpace = raw := by
    rw [hhead, List.dropWhile_cons_of_neg (by simp [hc])]
  rw [Text.trim, hfront, hlast, List.reverse_append, List.reverse_singleton,
    List.singleton_append, List.dropWhile_cons_of_neg (by simp [hd]), List.reverse_cons,
    List.reverse_reverse]

/-- Nor does space that comes before a value run on in it. -/
theorem Fills.lacks_space {kind : Kind} {raw : Text} (h : Fills kind raw) (rest : Text) :
    Lacks isSpace (raw ++ rest) := by
  obtain ⟨c, s, rfl, hc, -⟩ := h.head
  exact lacks_cons hc

theorem Fills.ne_nil {kind : Kind} {raw : Text} (h : Fills kind raw) : raw ≠ [] := by
  obtain ⟨c, s, rfl, _⟩ := h.head
  simp

/-- The scalars of the strict grammar are values. -/
theorem IsScalar.fills {kind : Kind} {raw : Text} (h : IsScalar kind raw) : Fills kind raw := by
  cases h with
  | nullWord => exact .nullWord
  | falseWord => exact .falseWord
  | trueWord => exact .trueWord
  | number hn => exact .number hn.isNumeral
  | string hb => exact .string hb.isRun

end DotPath.Json
