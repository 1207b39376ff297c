import DotPath.Proofs.Json.Slice
import DotPath.Proofs.Json.WellFormed

/-!
# What a line leaves open

A line that holds no value on its own may still begin one: a container or a string that is not
closed. The scan for its end goes on in the next lines, without a look at the line end. What it
meets there depends on where it stands at the end of the line. Outside strings, well-formed values
are passed over, and no bracket in them closes what the line has opened. Inside a string, the next
quote ends the string, and all that was text is taken for brackets and the other way round.

So a line that is left outside strings holds no value whatever well-formed values follow, and after
a line that is left inside one there are well-formed values that close it.

## Main results

* `containerEnd_open`: the scan of a container that is not closed stands where the modes say.
* `extent_line_eq_none`, `exists_extent_line`: when lines behind a line can close what it opens.
-/

namespace DotPath.Json

/-! ## Modes -/

/-- Where the scan stands with respect to strings after a text. -/
def modeAfter (mode : Mode) (t : Text) : Mode :=
  t.foldl Mode.next mode

theorem modeAfter_cons (mode : Mode) (c : Char) (t : Text) :
    modeAfter mode (c :: t) = modeAfter (mode.next c) t :=
  rfl

/-- A bracket leaves the scan outside strings. -/
theorem modeAfter_opening {c : Char} (hc : isOpening c = true) (t : Text) :
    modeAfter .plain (c :: t) = modeAfter .plain t := by
  have hquote : ¬ (c == '"') = true := by
    rw [beq_iff_eq]
    rintro rfl
    cases hc
  rw [modeAfter_cons, Mode.next, if_neg hquote]

/-- Whether a text begins a container or a string and ends inside a string. -/
def endsInString (t : Text) : Bool :=
  t.head?.any (fun c => isOpening c || c == '"') && modeAfter .plain t != .plain

/-- Whether a line does so behind the space in front. -/
def leavesString (line : Text) : Bool :=
  endsInString (line.dropWhile isSpace)

/-! ## Containers that are not closed -/

/-- A scan that does not end in a text goes on behind it, with brackets still open. -/
theorem containerEnd_open {e n : Nat} (he : 0 < e) {mode : Mode} {t : Text}
    (h : containerEnd e mode n t = none) :
    ∃ e', 0 < e' ∧ ∀ rest, containerEnd e mode n (t ++ rest) =
      containerEnd e' (modeAfter mode t) (n + t.length) rest := by
  induction t generalizing e n mode with
  | nil => exact ⟨e, he, fun rest => rfl⟩
  | cons c t ih =>
      rw [containerEnd_cons] at h
      rcases openAfter_cases he mode c with ⟨-, -, hstop, -⟩ | ⟨e', he', hgo, -⟩
      · rw [hstop] at h
        cases h
      · rw [hgo] at h
        obtain ⟨e'', he'', hrest⟩ := ih he' h
        refine ⟨e'', he'', fun rest => ?_⟩
        rw [List.cons_append, containerEnd_cons, hgo, Option.elim_some, hrest, modeAfter_cons,
          List.length_cons]
        congr 1
        omega

/-- As many closing brackets as are open end the scan. -/
theorem isSome_containerEnd_closing {e : Nat} (he : 0 < e) (n : Nat) (rest : Text) :
    (containerEnd e .plain n (List.replicate e ']' ++ rest)).isSome = true := by
  induction e generalizing n with
  | zero => omega
  | succ e ih =>
      rw [List.replicate_succ, List.cons_append, containerEnd]
      by_cases hone : e + 1 ≤ 1
      · simp [isOpening, isClosing, hone]
      · have hgo := ih (by omega) (n + 1)
        simpa [isOpening, isClosing, hone] using hgo

/-! ## Strings that are not closed -/

/-- A string that is not closed is left inside. -/
theorem modeAfter_of_stringEnd {n : Nat} {t : Text} (h : stringEnd n t = none) :
    modeAfter .quoted t ≠ .plain := by
  fun_induction stringEnd n t with
  | case1 =>
      intro hmode
      cases hmode
  | case2 =>
      intro hmode
      cases hmode
  | case3 n c rest ih => exact ih h
  | case4 => cases h
  | case5 n c rest h1 h2 hc ih =>
      have hb := ne_backslash_of_alone h1 h2
      rw [modeAfter_cons, Mode.next, if_neg hc, if_neg hb]
      exact ih h

/-- The first quote of the next line closes it. -/
theorem isSome_stringEnd_newline {n : Nat} {t : Text} (h : stringEnd n t = none) (rest : Text) :
    (stringEnd n (t ++ '\n' :: '"' :: rest)).isSome = true := by
  fun_induction stringEnd n t with
  | case1 => rfl
  | case2 => rfl
  | case3 n c t ih => exact ih h
  | case4 => cases h
  | case5 n c t h1 h2 hc ih =>
      have hb := ne_backslash_of_alone h1 h2
      rw [List.cons_append, stringEnd, if_neg hc]
      · exact ih h
      · rintro rfl
        exact absurd rfl hb
      · rintro d u rfl
        exact absurd rfl hb

/-! ## Lines behind a line -/

variable {t : Text}

theorem extent_opening {c : Char} (hc : isOpening c = true) (t : Text) :
    extent (c :: t) = (containerEnd 1 .plain 1 t).map (.container, ·) := by
  rw [extent, if_pos hc]

theorem extent_quote (t : Text) : extent ('"' :: t) = (stringEnd 1 t).map (.string, ·) :=
  rfl

/-- A line that begins no container and no string holds the same value before a line end. -/
theorem extent_append_newline (hhead : ∀ c ∈ t.head?, ¬ (isOpening c = true ∨ c = '"'))
    (rest : Text) : extent (t ++ '\n' :: rest) = extent t := by
  have hmark : endsScalars '\n' = true := by decide
  exact extent_append_of_endsScalars hmark rfl fun c hc hopen => absurd hopen (hhead c hc)

/-- Outside strings, what passes closes nothing that a line has opened. -/
theorem extent_line_eq_none (h : extent t = none) (hends : endsInString t = false) {run : Text}
    (hrun : Passes run) : extent (t ++ '\n' :: run) = none := by
  by_cases hhead : ∃ c ∈ t.head?, isOpening c = true ∨ c = '"'
  · obtain ⟨c, hc, hopen⟩ := hhead
    obtain ⟨t, rfl⟩ := List.head?_eq_some_iff.1 hc
    have hplain : modeAfter .plain (c :: t) = .plain := by
      have hany : (isOpening c || c == '"') = true := by simpa using hopen
      simpa [endsInString, hany] using hends
    rcases hopen with hopen | rfl
    · rw [modeAfter_opening hopen] at hplain
      rw [extent_opening hopen] at h
      obtain ⟨e, he, hrest⟩ := containerEnd_open Nat.one_pos (Option.map_eq_none_iff.1 h)
      have hnewline : Passes ('\n' :: run) := (passes_singleton (by decide)).append hrun
      have hpass := hnewline e (1 + t.length) [] he
      rw [List.append_nil] at hpass
      rw [List.cons_append, extent_opening hopen, hrest, hplain, hpass]
      rfl
    · rw [extent_quote] at h
      exact absurd hplain (modeAfter_of_stringEnd (Option.map_eq_none_iff.1 h))
  · rw [extent_append_newline fun c hc hopen => hhead ⟨c, hc, hopen⟩, h]

/-- A string of closing brackets, which is a well-formed value of one line. -/
def closingString (e : Nat) : Text :=
  '"' :: (List.replicate e ']' ++ ['"'])

theorem wellFormed_closingString (e : Nat) (limit : Option Nat) :
    wellFormed limit (closingString e) = true := by
  have hbody : IsBody (List.replicate e ']') := by
    induction e with
    | zero => exact .nil
    | succ e ih => exact .plain (by decide) (by decide) (by decide) ih
  refine wellFormed_iff.2 ⟨⟨.none, .scalar .string (closingString e) (.string hbody), .none⟩,
    ?_, fun d _ => Nat.zero_le d⟩
  rw [Document.source, Spaces.none, List.nil_append, List.append_nil]
  rfl

theorem newline_not_mem_closingString (e : Nat) : '\n' ∉ closingString e := by
  simp [closingString]

/-- Inside a string, there is a string that closes all that a line has opened. -/
theorem exists_extent_line (h : extent t = none) (hends : endsInString t = true) :
    ∃ e, (extent (t ++ '\n' :: closingString e)).isSome = true := by
  rw [endsInString, Bool.and_eq_true, bne_iff_ne] at hends
  obtain ⟨hhead, hmode⟩ := hends
  cases t with
  | nil => cases hhead
  | cons c t =>
      have hopen : isOpening c = true ∨ c = '"' := by simpa using hhead
      rcases hopen with hopen | rfl
      · rw [modeAfter_opening hopen] at hmode
        rw [extent_opening hopen] at h
        obtain ⟨e, he, hrest⟩ := containerEnd_open Nat.one_pos (Option.map_eq_none_iff.1 h)
        refine ⟨e, ?_⟩
        rw [List.cons_append, extent_opening hopen, hrest, Option.isSome_map]
        -- The line end is text, and the quote behind it ends the string.
        have hclose := isSome_containerEnd_closing he (1 + t.length + 1 + 1) ['"']
        cases hm : modeAfter .plain t with
        | plain => exact absurd hm hmode
        | quoted => exact hclose
        | escaped => exact hclose
      · rw [extent_quote] at h
        refine ⟨0, ?_⟩
        rw [List.cons_append, extent_quote, Option.isSome_map]
        exact isSome_stringEnd_newline (Option.map_eq_none_iff.1 h) _

/-- A value that a line begins but does not hold has the line end in it. -/
theorem newline_mem_of_extent (h : extent t = none) {rest : Text} {kind : Kind} {n : Nat}
    (hext : extent (t ++ '\n' :: rest) = some (kind, n)) :
    '\n' ∈ (t ++ '\n' :: rest).take n := by
  have hhead : ∃ c ∈ t.head?, isOpening c = true ∨ c = '"' := by
    refine Classical.byContradiction fun hnone => ?_
    rw [extent_append_newline fun c hc hopen => hnone ⟨c, hc, hopen⟩, h] at hext
    cases hext
  obtain ⟨raw, tail, heq, rfl, hfills⟩ := fills_of_extent hext
  rw [heq, List.take_left]
  by_cases hlength : t.length < raw.length
  · have hline : t ++ ['\n'] <+: raw ++ tail := by
      rw [← heq]
      exact ⟨rest, by simp⟩
    have hprefix : t ++ ['\n'] <+: raw := by
      refine List.prefix_of_prefix_length_le hline (List.prefix_append raw tail) ?_
      rw [List.length_append, List.length_singleton]
      omega
    exact hprefix.subset (by simp)
  · -- The value would have ended in the line.
    have hvalue : raw <+: t ++ '\n' :: rest := by
      rw [heq]
      exact List.prefix_append raw tail
    obtain ⟨u, rfl⟩ := List.prefix_of_prefix_length_le hvalue (List.prefix_append t _) (by omega)
    obtain ⟨c, hc, hopen⟩ := hhead
    obtain ⟨d, s, rfl, -⟩ := hfills.head
    obtain rfl : d = c := Option.some.inj hc
    rw [hfills.extent_append_of fun hnumber => absurd hnumber (hfills.ne_number hopen)] at h
    cases h

end DotPath.Json
