import DotPath.Proofs.Indexed.Selection

/-!
# Accessors by index

What a caller reads off a selection, and what a query compares: each goes back to what a string
stands for, to the items of a container, or to what stands between its brackets.

## Main results

* `truthy_eq`: what stands between the brackets of a container can be cut out.
* `Accessible`: every accessor is defined and gives the answer of the selection; that holds of each
  selection that is delimited.
* `meets_eq`: so do comparisons.
-/

namespace DotPath.Indexed

open Json Selection

/-! ## Numbers and truth values -/

/-- The value as a double. -/
def float (s : Selection) : Part Float :=
  match s.kind with
  | .true => pure 1
  | .number => pure ((Number.float? s.raw).getD 0)
  | .string => do return (Number.float? (Text.trimBlank (← text s))).getD 0
  | _ => pure 0

/-- The text of a string as a signed 64-bit integer. -/
def int64OfText (t : Text) : Int :=
  (Number.int64? t).getD (((Number.float? t).map clampInt64).getD 0)

/-- The value as a signed 64-bit integer. -/
def int64 (s : Selection) : Part Int :=
  match s.kind with
  | .true => pure 1
  | .number => do return (Number.int64? s.raw).getD (clampInt64 (← float s))
  | .string => do return int64OfText (Text.trimBlank (← text s))
  | _ => pure 0

/-- The value as an unsigned 64-bit integer. -/
def uint64 (s : Selection) : Part Nat :=
  match s.kind with
  | .true => pure 1
  | .number => do
    let x ← float s
    return (Number.uint64? s.raw).getD (Binary64.truncateTo 0 Number.maxUInt64 x).toNat
  | _ => do return (← int64 s).toNat

/-- The value as a truth value. -/
def bool (s : Selection) : Part Bool :=
  match s.kind with
  | .true => pure true
  | .string => do return trueWords.contains (← text s)
  | .number => do return !Binary64.isZero (← float s)
  | _ => pure false

/-- What stands between the brackets of a container. -/
def inside (s : Selection) : Part Text :=
  slice s.raw 1 (max (Text.byteLength s.raw - 1) 1)

/-- Whether the value counts as true. -/
def truthy (s : Selection) : Part Bool :=
  match s.kind with
  | .true => pure true
  | .number => do return !Binary64.isZero (← float s)
  | .string => do return !falseWords.contains (← text s)
  | .container => do return !(← inside s).all Text.isBlank
  | .null | .false => pure false

/-- Whether one value comes before another. -/
def less (a b : Selection) (caseSensitive : Bool) : Part Bool :=
  if a.kind ≠ b.kind then pure (a.kind.rank < b.kind.rank)
  else match a.kind with
    | .string => do
      let s ← text a
      let t ← text b
      return if caseSensitive then Text.order s t == .lt
        else Text.order (Text.toLower s) (Text.toLower t) == .lt
    | .number => do return Binary64.compare? (← float a) (← float b) == some .lt
    | _ => pure (Text.order a.raw b.raw == .lt)

/-! ## Children -/

/-- The elements of an array. A value that is no array stands for itself alone. -/
def array (s : Selection) : Part (List Selection) := do
  if !s.isPresent then return []
  else if !s.isArray then return [s]
  else return (← elementViews s).map s.derivedFrom

/-- A member of an object, under its name. -/
def namedView (s : Selection) (m : Span × Span) : Part (Text × Selection) := do
  let name ← stringText (← slice s.raw m.1.start m.1.stop)
  return (name, s.derivedFrom (← view s.raw s.base m.2))

/-- The members of an object, those with a name that has occurred before left out. -/
def namedViews (s : Selection) : Part (List (Text × Selection)) := do
  if !s.isObject then return []
  else
    let named ← (← members s.raw.asOctets 0).mapM (namedView s)
    return named.foldl (fun kept m => if kept.any (·.1 == m.1) then kept else kept ++ [m]) []

/-- A member as a visitor sees it. -/
def visitMember (s : Selection) (m : Span × Span) : Part (Selection × Selection) := do
  return (← view s.raw s.index m.1, ← view s.raw s.index m.2)

/-- An element as a visitor sees it. -/
def visitElement (s : Selection) (span : Span) : Part (Selection × Selection) := do
  return (missing, ← view s.raw s.index span)

/-- Keys and values as a visitor sees them. -/
def visits (s : Selection) : Part (List (Selection × Selection)) := do
  if !s.isPresent then return []
  else if s.isObject then (← members s.raw.asOctets 0).mapM (visitMember s)
  else if s.isArray then (← elements s.raw.asOctets 0).mapM (visitElement s)
  else return [(missing, s)]

/-! ## Comparisons -/

/-- How a value compares with an operand of its own kind. -/
def order (s : Selection) (operand : Operand) : Part (Option Ordering) :=
  match s.kind, operand with
  | .number, .number x => do return Binary64.compare? (← float s) x
  | .string, .text t => do return some (Text.order (← text s) t)
  | .true, .bool b | .false, .bool b => do return some (compare (← bool s).toNat b.toNat)
  | .null, .null => pure (some .eq)
  | _, _ => pure none

/-- Whether the value, as a text, matches a pattern given as operand. -/
def like (s : Selection) (operand : Operand) : Part Bool :=
  match operand with
  | .text pattern => do matchGlob pattern (← text s)
  | _ => pure false

/-- Whether a selection has a property. -/
def hasProperty (s : Selection) (tilde : Tilde) : Part Bool :=
  match tilde with
  | .true => if s.isPresent then truthy s else pure false
  | .false => if s.isPresent then do return !(← truthy s) else pure true
  | .null => pure (!s.isPresent || s.kind == .null)
  | .any => pure s.isPresent

/-- Whether a comparison holds of a selection. -/
def meets (s : Selection) (operator : Operator) (operand : Operand) : Part Bool :=
  match operand with
  | .tilde t => do
    let hit ← hasProperty s t
    return match operator with
      | .equal | .like => hit
      | .notEqual | .unlike => !hit
      | _ => false
  | _ =>
    if s.isPresent then
      match operator with
      | .like => like s operand
      | .unlike => do return !(← like s operand)
      | _ => do return operator.accepts (← order s operand)
    else pure false

/-! ## What is read -/

section Read

variable {s : Selection}

theorem float_eq (h : Delimited s.kind s.raw) : float s = .some s.float := by
  rw [float, Selection.float]
  cases s.kind with
  | string =>
      dsimp only
      rw [text_eq h]
      exact some_bind _ _
  | _ => rfl

theorem int64_eq (h : Delimited s.kind s.raw) : int64 s = .some s.int64 := by
  rw [int64, Selection.int64, float_eq h, text_eq h]
  cases s.kind with
  | number => exact some_bind _ _
  | string =>
      refine (some_bind _ _).trans (congrArg Part.some ?_)
      dsimp only
      rw [int64OfText]
      split
      · next h => rw [h, Option.getD_some]
      · next h h' => rw [h, h', Option.getD_none, Option.map_some, Option.getD_some]
      · next h h' => rw [h, h', Option.getD_none, Option.map_none, Option.getD_none]
  | _ => rfl

theorem uint64_eq (h : Delimited s.kind s.raw) : uint64 s = .some s.uint64 := by
  rw [uint64, Selection.uint64, float_eq h, int64_eq h]
  cases s.kind with
  | true => rfl
  | number => exact some_bind _ _
  | _ => exact some_bind _ _

theorem bool_eq (h : Delimited s.kind s.raw) : bool s = .some s.bool := by
  rw [bool, Selection.bool, float_eq h, text_eq h]
  cases s.kind with
  | number => exact some_bind _ _
  | string => exact some_bind _ _
  | _ => rfl

theorem inside_eq (h : Delimited s.kind s.raw) (hk : s.kind = .container) :
    inside s = .some (s.raw.drop 1).dropLast := by
  obtain ⟨o, inner, c, hraw, ho, hc⟩ := h.container hk
  have hlength : Text.byteLength s.raw = 1 + (Text.byteLength inner + 1) := by
    rw [hraw, Text.byteLength_cons, Text.byteLength_append, utf8Size_of_lt ho, Text.byteLength_cons,
      utf8Size_of_lt hc]
    rfl
  have hinner : (s.raw.drop 1).dropLast = inner := by
    rw [hraw, List.drop_succ_cons, List.drop_zero, List.dropLast_concat]
  rw [inside, hinner, slice_eq_some_iff]
  refine ⟨⟨[o], [c], ?_, ?_⟩, by omega⟩
  · rw [hraw]
    simp
  · rw [Text.byteLength_cons, utf8Size_of_lt ho]
    rfl

theorem truthy_eq (h : Delimited s.kind s.raw) : truthy s = .some s.truthy := by
  rw [truthy, Selection.truthy, float_eq h, text_eq h]
  cases hk : s.kind with
  | container =>
      dsimp only
      rw [inside_eq h hk]
      exact some_bind _ _
  | number => exact some_bind _ _
  | string => exact some_bind _ _
  | _ => rfl

theorem less_eq {t : Selection} (hs : Delimited s.kind s.raw) (ht : Delimited t.kind t.raw)
    (caseSensitive : Bool) :
    less s t caseSensitive = .some (s.less t caseSensitive) := by
  rw [less, Selection.less, float_eq hs, float_eq ht, text_eq hs, text_eq ht]
  split
  · rfl
  · cases s.kind with
    | number => exact (some_bind _ _).trans (some_bind _ _)
    | string => exact (some_bind _ _).trans (some_bind _ _)
    | _ => rfl

theorem array_eq (s : Selection) : array s = .some s.array := by
  rw [array, Selection.array, elementViews_eq]
  split
  · rfl
  · split
    · rfl
    · rw [some_bind, Selection.elementViews, List.map_map]
      rfl

theorem namedView_eq {m : Member} (hm : m ∈ Json.members s.raw) :
    namedView s (spans m) =
      .some (Quoted.text m.key.raw, s.derivedFrom (ofOccurrence s.base m.value)) := by
  obtain ⟨⟨hkey, hliteral⟩, hkind⟩ := key_of_mem_members hm
  rw [hkind] at hliteral
  have hslice : slice s.raw (spans m).1.start (spans m).1.stop = .some m.key.raw := slice_of hkey
  have hview : view s.raw s.base (spans m).2 = .some (ofOccurrence s.base m.value) :=
    view_eq (isIn_of_mem_members hm).1 s.base
  rw [namedView, hslice, some_bind, stringText_eq hliteral, some_bind, hview]
  exact some_bind _ _

theorem namedViews_eq (s : Selection) : namedViews s = .some s.members := by
  rw [namedViews, Selection.members]
  split
  · rfl
  · rw [members_eq, some_bind, mapM_map fun m hm => namedView_eq hm]
    exact some_bind _ _

theorem visits_eq (s : Selection) : visits s = .some s.visits := by
  have hmember : ∀ m ∈ Json.members s.raw, visitMember s (spans m) =
      .some (ofOccurrence s.index m.key, ofOccurrence s.index m.value) := by
    intro m hm
    have hkey : view s.raw s.index (spans m).1 = .some (ofOccurrence s.index m.key) :=
      view_eq (key_of_mem_members hm).1.1 s.index
    have hvalue : view s.raw s.index (spans m).2 = .some (ofOccurrence s.index m.value) :=
      view_eq (isIn_of_mem_members hm).1 s.index
    rw [visitMember, hkey, some_bind, hvalue]
    exact some_bind _ _
  have helement : ∀ v ∈ Json.elements s.raw,
      visitElement s (.of v) = .some (missing, ofOccurrence s.index v) := by
    intro v hv
    rw [visitElement, view_eq (isIn_of_mem_elements hv).1]
    exact some_bind _ _
  rw [visits, Selection.visits, members_eq, elements_eq, some_bind, some_bind, mapM_map hmember,
    mapM_map helement]
  split
  · rfl
  · split
    · rfl
    · split <;> rfl

theorem order_eq (h : Delimited s.kind s.raw) (operand : Operand) :
    order s operand = .some (s.order? operand) := by
  unfold order order?
  rw [float_eq h, text_eq h, bool_eq h, Selection.bool]
  cases hk : s.kind <;> cases operand <;> first | rfl | exact some_bind _ _

theorem like_eq (h : Delimited s.kind s.raw) (operand : Operand) :
    like s operand = .some (s.like operand) := by
  unfold like Selection.like
  rw [text_eq h]
  cases operand with
  | text pattern => exact (some_bind _ _).trans (matchGlob_eq pattern s.text)
  | _ => rfl

theorem hasProperty_eq (h : Delimited s.kind s.raw) (tilde : Tilde) :
    hasProperty s tilde = .some (s.hasProperty tilde) := by
  unfold hasProperty Selection.hasProperty
  rw [truthy_eq h]
  cases tilde with
  | true => cases s.isPresent <;> rfl
  | false => cases s.isPresent <;> first | rfl | exact some_bind _ _
  | _ => rfl

theorem meets_eq (h : Delimited s.kind s.raw) (operator : Operator) (operand : Operand) :
    meets s operator operand = .some (s.meets operator operand) := by
  unfold meets Selection.meets
  rw [order_eq h, like_eq h]
  cases operand with
  | tilde t =>
      dsimp only
      rw [hasProperty_eq h, some_bind]
      cases operator <;> rfl
  | _ =>
      cases s.isPresent with
      | false => rfl
      | true => cases operator <;> first | rfl | exact some_bind _ _

end Read

/-- Every accessor is defined for a selection, and gives the answer of the selection. -/
structure Accessible (s : Selection) : Prop where
  text : text s = .some s.text
  bool : bool s = .some s.bool
  float : float s = .some s.float
  int64 : int64 s = .some s.int64
  uint64 : uint64 s = .some s.uint64
  truthy : truthy s = .some s.truthy
  array : array s = .some s.array
  members : namedViews s = .some s.members
  visits : visits s = .some s.visits

theorem accessible_of_delimited {s : Selection} (h : Delimited s.kind s.raw) : Accessible s :=
  ⟨text_eq h, bool_eq h, float_eq h, int64_eq h, uint64_eq h, truthy_eq h, array_eq s,
    namedViews_eq s, visits_eq s⟩

end DotPath.Indexed
