import DotPath.Transformer.Builtin

/-!
# Room for the output of a transformer

The only room that a built-in transformer asks for by a number is that for a filling. Its size is
told from the number of characters without writing them, as the number may be too large for that.
Besides, three transformers follow paths that their argument gives, and abort where one of these
aborts; one of them, the filter, makes something of the elements that it is given and not of what
its path leads to.

## Main results

* `Text.byteLength_cycle`, `padBy_fills`: the size of a filling is that of what is filled in.
* `Builtin.aborts_iff_runsOut`: which built-in transformers abort, and on what.
-/

namespace DotPath

namespace Text

theorem byteLength_flatten_replicate (q : Nat) (t : Text) :
    byteLength (List.replicate q t).flatten = q * t.byteLength := by
  induction q with
  | zero => simp
  | succ q ih =>
      rw [List.replicate_succ, List.flatten_cons, byteLength_append, ih, Nat.succ_mul, Nat.add_comm]

/-- A text is repeated as often as it goes in whole, and then in part. -/
theorem cycle_eq (n : Nat) (t : Text) :
    cycle n t = (List.replicate (n / t.length) t).flatten ++ t.take (n % t.length) := by
  have hlength : (List.replicate (n / t.length) t).flatten.length = n / t.length * t.length := by
    simp
  have hwhole : n / t.length * t.length ≤ n := Nat.div_mul_le_self n t.length
  have hpart : n - n / t.length * t.length = n % t.length := by
    rw [Nat.mul_comm, Nat.mod_eq_sub]
  rw [cycle, List.replicate_succ', List.flatten_append, List.flatten_singleton, List.take_append,
    List.take_of_length_le (hlength ▸ hwhole), hlength, hpart]

/-- The size that is told is that of the characters. -/
theorem byteLength_cycle (n : Nat) (t : Text) : byteLength (cycle n t) = cycleSize n t := by
  rw [cycle_eq, byteLength_append, byteLength_flatten_replicate, cycleSize]

theorem length_cycle {t : Text} (ht : t ≠ []) (n : Nat) : (cycle n t).length = n := by
  have hpos : 0 < t.length := List.length_pos_iff.2 ht
  have hpart : n % t.length ≤ t.length := Nat.le_of_lt (Nat.mod_lt n hpos)
  have hwhole : (List.replicate (n / t.length) t).flatten.length = n / t.length * t.length := by
    simp
  rw [cycle_eq, List.length_append, hwhole, List.length_take_of_le hpart]
  exact Nat.div_add_mod' n t.length

end Text

namespace Transformer

/-- A string is filled up with as many characters as it lacks, and room is asked for these. -/
theorem padBy_fills {argument padding : Text} {length : Nat}
    (hargument : padArguments? argument = some (length, padding)) (hpadding : padding ≠ [])
    {json : Text} (hkind : (Selection.document json).kind = .string)
    (place : Text → Text → Text) (follow : Follow) :
    ∃ filling : Text,
      padBy place follow json argument =
        Json.Quoted.encode (place filling (Selection.document json).text) ∧
      filling.length = length - (Selection.document json).text.length ∧
      filling.byteLength = fillingSize json argument := by
  have hstring : ((Selection.document json).kind == .string) = true := beq_iff_eq.2 hkind
  refine ⟨Text.cycle (length - (Selection.document json).text.length) padding, ?_,
    Text.length_cycle hpadding _, ?_⟩
  · rw [padBy, withArgument, hargument]
    dsimp only
    rw [if_neg (by simpa using hpadding), mapString, if_pos hstring]
  · rw [fillingSize, hargument, Text.byteLength_cycle]
    dsimp only
    rw [if_pos hstring]

end Transformer

namespace Builtin

open Transformer

theorem output?_eq_none_iff {b : Builtin} {memory : Memory} {follow : Follow}
    {aborts : FollowAborts} {json argument : Text} :
    b.output? memory follow aborts json argument = none ↔
      b.aborts memory aborts json argument = true := by
  rw [output?]
  split <;> simp_all

theorem output?_eq_some_iff {b : Builtin} {memory : Memory} {follow : Follow}
    {aborts : FollowAborts} {json argument output : Text} :
    b.output? memory follow aborts json argument = some output ↔
      b.aborts memory aborts json argument = false ∧
        b.transformer follow json argument = output := by
  rw [output?]
  split <;> simp_all

/--
What stops a built-in transformer that follows no path for its output: room for a filling that is
not there, or a field to filter by whose path aborts.
-/
def RunsOut (b : Builtin) (memory : Memory) (aborts : FollowAborts) (json argument : Text) : Prop :=
  (b.name = "padLeft".toList ∨ b.name = "padRight".toList) ∧
      memory.grants (fillingSize json argument) = false ∨
    b.name = "filter".toList ∧ ∃ key test value,
      filterArguments? argument = some (key, test, value) ∧ key ≠ [] ∧
        (Selection.document json).isArray = true ∧
        ∃ e ∈ (Selection.document json).array, aborts key e = true

theorem filterAborts_iff {memory : Memory} {aborts : FollowAborts} {json argument : Text} :
    filterAborts memory aborts json argument = true ↔
      ∃ key test value, filterArguments? argument = some (key, test, value) ∧ key ≠ [] ∧
        (Selection.document json).isArray = true ∧
        ∃ e ∈ (Selection.document json).array, aborts key e = true := by
  rw [filterAborts, Option.any_eq_true]
  constructor
  · rintro ⟨⟨key, test, value⟩, harguments, h⟩
    have h : ((Selection.document json).isArray = true ∧ key ≠ []) ∧
        ∃ e ∈ (Selection.document json).array, aborts key e = true := by simpa using h
    exact ⟨key, test, value, harguments, h.1.2, h.1.1, h.2⟩
  · rintro ⟨key, test, value, harguments, hkey, harray, h⟩
    exact ⟨(key, test, value), harguments, by simpa using ⟨⟨harray, hkey⟩, h⟩⟩

/-- How the built-in transformers that follow no path for their output can abort. -/
inductive AbortForm (b : Builtin) : Prop where
  | padding (hname : b.name = "padLeft".toList ∨ b.name = "padRight".toList)
      (h : b.aborts = paddingAborts)
  | filter (hname : b.name = "filter".toList) (h : b.aborts = filterAborts)
  | never (hleft : b.name ≠ "padLeft".toList) (hright : b.name ≠ "padRight".toList)
      (hfilter : b.name ≠ "filter".toList) (h : b.aborts = fun _ _ _ _ => false)

theorem abortForm_of_mem_all {b : Builtin} (hb : b ∈ all) (hsearch : b.name ≠ "search".toList)
    (hpluck : b.name ≠ "pluck".toList) : b.AbortForm := by
  simp only [all, List.mem_cons, List.not_mem_nil, or_false] at hb
  rcases hb with rfl | rfl | rfl | rfl | rfl | rfl | rfl | rfl | rfl | rfl | rfl | rfl | rfl | rfl |
    rfl | rfl | rfl | rfl | rfl | rfl | rfl | rfl | rfl | rfl | rfl | rfl | rfl | rfl | rfl | rfl |
    rfl | rfl | rfl | rfl | rfl | rfl | rfl | rfl | rfl | rfl | rfl
  all_goals first
    | exact .never (by decide) (by decide) (by decide) rfl
    | exact .padding (by decide) rfl
    | exact .filter rfl rfl
    | exact absurd rfl hsearch
    | exact absurd rfl hpluck

/--
Apart from those that follow a path for their output, a built-in transformer aborts exactly where it
runs out.
-/
theorem aborts_iff_runsOut {b : Builtin} (hb : b ∈ all) (hsearch : b.name ≠ "search".toList)
    (hpluck : b.name ≠ "pluck".toList) {memory : Memory} {aborts : FollowAborts}
    {json argument : Text} :
    b.aborts memory aborts json argument = true ↔ b.RunsOut memory aborts json argument := by
  rw [RunsOut]
  cases abortForm_of_mem_all hb hsearch hpluck with
  | padding hname h =>
      have hfilter : b.name ≠ "filter".toList := by
        rcases hname with hname | hname <;> rw [hname] <;> decide
      rw [h, paddingAborts, Bool.not_eq_true']
      exact ⟨fun hgrants => .inl ⟨hname, hgrants⟩,
        fun hruns => (hruns.resolve_right fun h => hfilter h.1).2⟩
  | filter hname h =>
      have hpad : ¬ (b.name = "padLeft".toList ∨ b.name = "padRight".toList) := by
        rw [hname]
        decide
      rw [h, filterAborts_iff]
      exact ⟨fun hfilter => .inr ⟨hname, hfilter⟩,
        fun hruns => (hruns.resolve_left fun h => hpad h.1).2⟩
  | never hleft hright hfilter h =>
      rw [h]
      refine ⟨nofun, ?_⟩
      rintro (⟨hname, -⟩ | ⟨hname, -⟩)
      · exact absurd hname (not_or.2 ⟨hleft, hright⟩)
      · exact absurd hname hfilter

end Builtin

end DotPath
