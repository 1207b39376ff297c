import DotPath.Json.Extent
import DotPath.Json.Kind

/-!
# The grammar of JSON texts

The strict grammar, stated without reference to any reader of it. The tokens are predicates on
texts; values and documents are trees that remember how they are written, spaces included. A tree
cannot hold anything that the grammar does not derive: spaces, scalars and keys carry the proofs of
their own form. So a text belongs to the grammar exactly when some `Document` is written as that
text.

## Main definitions

* `IsBody`, `IsNumber`, `IsScalar`: strings, numbers and values that are no containers.
* `Tree`: a value as it is written, with `Tree.source` its text and `Tree.height` the number of
  non-empty containers that are open at once in it.
* `Document`: a value with the space around it.
-/

namespace DotPath.Json

/-! ## Strings -/

/-- The digits of a `\u` escape. -/
def isHexDigit (c : Char) : Bool :=
  c.isDigit || ('a' ≤ c && c ≤ 'f') || ('A' ≤ c && c ≤ 'F')

/-- The characters that may follow a backslash alone. -/
def escapeLetters : List Char :=
  ['"', '\\', '/', 'b', 'f', 'n', 'r', 't']

/-- What may stand between the quotes of a string. Surrogates need not be paired. -/
inductive IsBody : Text → Prop where
  | nil : IsBody []
  /-- Any character but the quote, the backslash and the control characters below the space. -/
  | plain {c : Char} {t : Text} :
      0x20 ≤ c.toNat → c ≠ '"' → c ≠ '\\' → IsBody t → IsBody (c :: t)
  | escape {c : Char} {t : Text} : c ∈ escapeLetters → IsBody t → IsBody ('\\' :: c :: t)
  | unicode {a b c d : Char} {t : Text} :
      isHexDigit a → isHexDigit b → isHexDigit c → isHexDigit d → IsBody t →
        IsBody ('\\' :: 'u' :: a :: b :: c :: d :: t)

/-! ## Numbers -/

theorem ne_of_isDigit {c d : Char} (hc : c.isDigit) (hd : d.isDigit = false) : c ≠ d := by
  rintro rfl
  rw [hc] at hd
  cases hd

/-- A run of at least one digit. -/
def IsDigits (t : Text) : Prop :=
  t ≠ [] ∧ ∀ c ∈ t, c.isDigit

/-- The whole part of a number: a zero alone, or digits of which the first is no zero. -/
inductive IsWhole : Text → Prop where
  | zero : IsWhole ['0']
  | digits {c : Char} {t : Text} : c ≠ '0' → IsDigits (c :: t) → IsWhole (c :: t)

/-- The fraction of a number, which may be missing. -/
inductive IsFraction : Text → Prop where
  | absent : IsFraction []
  | present {ds : Text} : IsDigits ds → IsFraction ('.' :: ds)

/-- The exponent of a number, which may be missing. -/
inductive IsExponent : Text → Prop where
  | absent : IsExponent []
  | present {e : Char} {sign ds : Text} : e = 'e' ∨ e = 'E' →
      sign = [] ∨ sign = ['+'] ∨ sign = ['-'] → IsDigits ds → IsExponent (e :: (sign ++ ds))

/-- A number: a minus sign or none, a whole part, a fraction and an exponent. -/
inductive IsNumber : Text → Prop where
  | mk {sign whole fraction exponent : Text} : sign = [] ∨ sign = ['-'] → IsWhole whole →
      IsFraction fraction → IsExponent exponent →
        IsNumber (sign ++ (whole ++ (fraction ++ exponent)))

/-! ## Values -/

/-- A value that is no container, with its kind. -/
inductive IsScalar : Kind → Text → Prop where
  | nullWord : IsScalar .null ['n', 'u', 'l', 'l']
  | falseWord : IsScalar .false ['f', 'a', 'l', 's', 'e']
  | trueWord : IsScalar .true ['t', 'r', 'u', 'e']
  | number {t : Text} : IsNumber t → IsScalar .number t
  | string {body : Text} : IsBody body → IsScalar .string ('"' :: (body ++ ['"']))

/-- The space that may stand between tokens. -/
abbrev Spaces := { t : Text // ∀ c ∈ t, isSpace c }

theorem eq_of_isSpace {c : Char} (h : isSpace c) : c = ' ' ∨ c = '\t' ∨ c = '\n' ∨ c = '\r' := by
  simpa [isSpace, or_assoc] using h

/-- No space. -/
def Spaces.none : Spaces :=
  ⟨[], by simp⟩

/-- A line end. -/
def Spaces.newline : Spaces :=
  ⟨['\n'], by simp [isSpace]⟩

/-- The key of a member: a string literal, by what stands between its quotes. -/
structure Key where
  body : Text
  spelled : IsBody body

/-- A key as it is written. -/
def Key.source (key : Key) : Text :=
  '"' :: (key.body ++ ['"'])

/-- Something in a container, with the space around it. -/
structure Item (α : Type) where
  before : Spaces
  value : α
  after : Spaces

/-- A member of an object: the key with the space around it, and what follows its colon. -/
structure Entry (α : Type) where
  before : Spaces
  key : Key
  gap : Spaces
  item : Item α

/-- A value as it is written. A container that is not empty has a first item. -/
inductive Tree where
  | scalar (kind : Kind) (raw : Text) (spelled : IsScalar kind raw)
  | emptyArray (inside : Spaces)
  | array (first : Item Tree) (rest : List (Item Tree))
  | emptyObject (inside : Spaces)
  | object (first : Entry Tree) (rest : List (Entry Tree))

/-- An item as it is written, given how its value is written. -/
def Item.source {α : Type} (write : α → Text) (i : Item α) : Text :=
  i.before.1 ++ (write i.value ++ i.after.1)

/-- A member as it is written, given how its value is written. -/
def Entry.source {α : Type} (write : α → Text) (e : Entry α) : Text :=
  e.before.1 ++ (e.key.source ++ (e.gap.1 ++ ':' :: e.item.source write))

namespace Tree

mutual
/-- The text of a value. -/
def source : Tree → Text
  | .scalar _ raw _ => raw
  | .emptyArray inside => '[' :: (inside.1 ++ [']'])
  | .array ⟨before, value, after⟩ rest =>
    '[' :: (before.1 ++ (source value ++ after.1) ++ (itemsSource rest ++ [']']))
  | .emptyObject inside => '\x7b' :: (inside.1 ++ ['\x7d'])
  | .object ⟨before, key, gap, ⟨lead, value, after⟩⟩ rest =>
    '\x7b' ::
      (before.1 ++ (key.source ++ (gap.1 ++ ':' :: (lead.1 ++ (source value ++ after.1)))) ++
        (entriesSource rest ++ ['\x7d']))

/-- The text of the items after the first, each with the comma in front of it. -/
def itemsSource : List (Item Tree) → Text
  | [] => []
  | ⟨before, value, after⟩ :: rest =>
    ',' :: (before.1 ++ (source value ++ after.1) ++ itemsSource rest)

/-- The text of the members after the first, each with the comma in front of it. -/
def entriesSource : List (Entry Tree) → Text
  | [] => []
  | ⟨before, key, gap, ⟨lead, value, after⟩⟩ :: rest =>
    ',' :: (before.1 ++ (key.source ++ (gap.1 ++ ':' :: (lead.1 ++ (source value ++ after.1)))) ++
      entriesSource rest)
end

mutual
/-- The greatest number of non-empty containers that are open at once in a value. -/
def height : Tree → Nat
  | .scalar .. | .emptyArray _ | .emptyObject _ => 0
  | .array ⟨_, value, _⟩ rest => max (height value) (itemsHeight rest) + 1
  | .object ⟨_, _, _, ⟨_, value, _⟩⟩ rest => max (height value) (entriesHeight rest) + 1

/-- The greatest height among items. -/
def itemsHeight : List (Item Tree) → Nat
  | [] => 0
  | ⟨_, value, _⟩ :: rest => max (height value) (itemsHeight rest)

/-- The greatest height among the values of members. -/
def entriesHeight : List (Entry Tree) → Nat
  | [] => 0
  | ⟨_, _, _, ⟨_, value, _⟩⟩ :: rest => max (height value) (entriesHeight rest)
end

/-- The kind of a value. -/
def kind : Tree → Kind
  | .scalar kind _ _ => kind
  | _ => .container

/-! ### Rules of computation -/

theorem source_array (first : Item Tree) (rest : List (Item Tree)) :
    (array first rest).source = '[' :: (first.source source ++ (itemsSource rest ++ [']'])) := by
  rfl

theorem itemsSource_cons (i : Item Tree) (rest : List (Item Tree)) :
    itemsSource (i :: rest) = ',' :: (i.source source ++ itemsSource rest) := by
  rfl

theorem source_object (first : Entry Tree) (rest : List (Entry Tree)) :
    (object first rest).source =
      '\x7b' :: (first.source source ++ (entriesSource rest ++ ['\x7d'])) := by
  rfl

theorem entriesSource_cons (e : Entry Tree) (rest : List (Entry Tree)) :
    entriesSource (e :: rest) = ',' :: (e.source source ++ entriesSource rest) := by
  rfl

/-! ### Induction -/

private theorem sizeOf_item (i : Item Tree) : sizeOf i.value < sizeOf i := by
  cases i
  simp only [Item.mk.sizeOf_spec]
  omega

private theorem sizeOf_entry (e : Entry Tree) : sizeOf e.item.value < sizeOf e := by
  have := sizeOf_item e.item
  cases e
  simp only [Entry.mk.sizeOf_spec] at *
  omega

/-- Induction on values: what holds of a container follows from what holds of its items. -/
@[elab_as_elim, induction_eliminator]
theorem induct {motive : Tree → Prop}
    (scalar : ∀ kind raw spelled, motive (.scalar kind raw spelled))
    (emptyArray : ∀ inside, motive (.emptyArray inside))
    (array : ∀ first rest, motive first.value → (∀ i ∈ rest, motive i.value) →
      motive (.array first rest))
    (emptyObject : ∀ inside, motive (.emptyObject inside))
    (object : ∀ first rest, motive first.item.value → (∀ e ∈ rest, motive e.item.value) →
      motive (.object first rest)) (t : Tree) : motive t :=
  match t with
  | .scalar kind raw spelled => scalar kind raw spelled
  | .emptyArray inside => emptyArray inside
  | .array first rest =>
    array first rest (induct scalar emptyArray array emptyObject object first.value)
      fun i _ => induct scalar emptyArray array emptyObject object i.value
  | .emptyObject inside => emptyObject inside
  | .object first rest =>
    object first rest (induct scalar emptyArray array emptyObject object first.item.value)
      fun e _ => induct scalar emptyArray array emptyObject object e.item.value
termination_by sizeOf t
decreasing_by
  · have := sizeOf_item first
    simp only [Tree.array.sizeOf_spec]
    omega
  · have := sizeOf_item i
    have := List.sizeOf_lt_of_mem ‹i ∈ rest›
    simp only [Tree.array.sizeOf_spec]
    omega
  · have := sizeOf_entry first
    simp only [Tree.object.sizeOf_spec]
    omega
  · have := sizeOf_entry e
    have := List.sizeOf_lt_of_mem ‹e ∈ rest›
    simp only [Tree.object.sizeOf_spec]
    omega

end Tree

/-- A document: one value with space around it. -/
structure Document where
  before : Spaces
  root : Tree
  after : Spaces

/-- The text of a document. -/
def Document.source (d : Document) : Text :=
  d.before.1 ++ (d.root.source ++ d.after.1)

end DotPath.Json
