/-!
# Texts

A text is the list of its characters. Positions inside a text are counted in octets of its UTF-8
form, so every operation that reports a position goes through `Text.byteLength`.

The module also holds the few operations on texts that several parts of the library share: trimming
by a character class, searching for a fixed text, replacing it, and writing a natural number.
-/

namespace DotPath

/-- A text is the list of its characters. -/
abbrev Text := List Char

namespace Text

/-- Number of octets in the UTF-8 form of a text. -/
def byteLength (t : Text) : Nat :=
  t.foldr (fun c n => c.utf8Size + n) 0

@[simp] theorem byteLength_nil : byteLength [] = 0 := rfl

@[simp] theorem byteLength_cons (c : Char) (t : Text) :
    byteLength (c :: t) = c.utf8Size + byteLength t := rfl

@[simp] theorem byteLength_append (s t : Text) :
    byteLength (s ++ t) = byteLength s + byteLength t := by
  induction s with
  | nil => simp
  | cons c s ih => simp [ih, Nat.add_assoc]

/-- A natural number in decimal, without leading zeros. -/
def ofNat (n : Nat) : Text :=
  Nat.toDigits 10 n

/-- An integer in decimal, with a minus sign when it is negative. -/
def ofInt : Int → Text
  | .ofNat n => ofNat n
  | .negSucc n => '-' :: ofNat (n + 1)

/-- The text without its leading and trailing characters of class `p`. -/
def trim (p : Char → Bool) (t : Text) : Text :=
  ((t.dropWhile p).reverse.dropWhile p).reverse

/-- Whether `needle` occurs somewhere in the text. The empty text occurs everywhere. -/
def occursIn (needle : Text) : Text → Bool
  | [] => needle.isEmpty
  | c :: rest => needle.isPrefixOf (c :: rest) || occursIn needle rest

/-- The first occurrence of `target` replaced by `replacement`. -/
def replaceFirst (target replacement : Text) : Text → Text
  | [] => if target.isEmpty then replacement else []
  | c :: rest =>
    if target.isPrefixOf (c :: rest) then replacement ++ (c :: rest).drop target.length
    else c :: replaceFirst target replacement rest

/--
Every occurrence of a non-empty `target` replaced by `replacement`, from left to right and without
overlap: `pending` characters still belong to the occurrence that was replaced last.
-/
def replaceFrom (target replacement : Text) (pending : Nat) : Text → Text
  | [] => []
  | c :: rest =>
    match pending with
    | skipped + 1 => replaceFrom target replacement skipped rest
    | 0 =>
      if target.isPrefixOf (c :: rest) then
        replacement ++ replaceFrom target replacement (target.length - 1) rest
      else c :: replaceFrom target replacement 0 rest

/-- Every occurrence of a non-empty `target` replaced, from left to right and without overlap. -/
def replaceAll (target replacement : Text) (t : Text) : Text :=
  replaceFrom target replacement 0 t

/-- Order by code points, the first difference deciding. -/
def order : Text → Text → Ordering
  | [], [] => .eq
  | [], _ :: _ => .lt
  | _ :: _, [] => .gt
  | a :: s, b :: t => (compare a.val b.val).then (order s t)

end Text

end DotPath
