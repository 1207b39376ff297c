import DotPath.Json.Items
import DotPath.Json.Quoted

/-!
# Selections

A selection is what a path leads to: one value with its text. It is either a view of the document,
which knows the offset where it starts, or a text of its own, made by a segment that collects,
projects or transforms. The missing selection stands for a path that leads nowhere.

A selection that collects several values also knows the offsets of those that are views.
-/

namespace DotPath

open Json

/-- A value that a path leads to, or nothing. -/
structure Selection where
  kind : Kind
  /-- The text of the value; empty when nothing is selected. -/
  raw : Text
  /-- Whether the text is a part of the document. -/
  isView : Bool
  /-- Octets of the document before the value. -/
  index : Option Nat
  /-- Offsets of the collected values that are views. -/
  indexes : List Nat
  deriving DecidableEq, Repr

namespace Selection

/-- Nothing is selected. -/
def missing : Selection :=
  ⟨.null, [], false, none, []⟩

/-- A view of a value in a text that itself starts at `base` in the document, if that is known. -/
def ofOccurrence (base : Option Nat) (v : Occurrence) : Selection :=
  ⟨v.kind, v.raw, true, base.map (· + v.offset), []⟩

/-- The first value of a text made by a segment; nothing if the text does not begin with a value. -/
def ofText (t : Text) : Selection :=
  match firstValue? t with
  | some v => ⟨v.kind, v.raw, false, none, []⟩
  | none => missing

/-- A number made by a segment. -/
def ofNat (n : Nat) : Selection :=
  ⟨.number, Text.ofNat n, false, none, []⟩

/-- The whole document. What follows its first value is not looked at. -/
def document (t : Text) : Selection :=
  match firstValue? t with
  | some v => ofOccurrence (some 0) v
  | none => missing

/-- The selection as a text of its own. It keeps the offset that it came from. -/
def detach (s : Selection) : Selection :=
  { s with isView := false }

/-- A selection made from the text of `s`: a text of its own if `s` is one. -/
def derivedFrom (s result : Selection) : Selection :=
  if s.isView then result else result.detach

/-- Where the text of `s` starts in the document, for selections made from it. -/
def base (s : Selection) : Option Nat :=
  if s.isView then s.index else none

/-- Whether anything is selected. -/
def isPresent (s : Selection) : Bool :=
  !s.raw.isEmpty

/-- Whether an object is selected. -/
def isObject (s : Selection) : Bool :=
  s.kind == .container && opensObject s.raw

/-- Whether an array is selected. -/
def isArray (s : Selection) : Bool :=
  s.kind == .container && opensArray s.raw

/-- Whether a truth value is selected. -/
def isBool (s : Selection) : Bool :=
  s.kind == .true || s.kind == .false

/--
What the value stands for as a text: the decoded text of a string, the written form of a number, a
truth value or a container, and nothing for null.
-/
def text (s : Selection) : Text :=
  match s.kind with
  | .null => []
  | .string => Quoted.text s.raw
  | _ => s.raw

/-- The elements of an array. A value that is no array stands for itself alone. -/
def array (s : Selection) : List Selection :=
  if !s.isPresent then []
  else if !s.isArray then [s]
  else (elements s.raw).map fun e => s.derivedFrom (ofOccurrence s.base e)

/-- The members of an object in order, those with a name that has occurred before left out. -/
def members (s : Selection) : List (Text × Selection) :=
  if !s.isObject then []
  else
    let named := (Json.members s.raw).map fun m =>
      (Quoted.text m.key.raw, s.derivedFrom (ofOccurrence s.base m.value))
    named.foldl (fun kept m => if kept.any (·.1 == m.1) then kept else kept ++ [m]) []

/-- The member with a name. -/
def member? (s : Selection) (name : Text) : Option Selection :=
  s.members.lookup name

/--
Keys and values as a visitor sees them: all members of an object, repeated names included, the
elements of an array without keys, and any other value alone. Children of a text of its own are
views of that text.
-/
def visits (s : Selection) : List (Selection × Selection) :=
  if !s.isPresent then []
  else if s.isObject then
    (Json.members s.raw).map fun m => (ofOccurrence s.index m.key, ofOccurrence s.index m.value)
  else if s.isArray then
    (elements s.raw).map fun e => (missing, ofOccurrence s.index e)
  else [(missing, s)]

end Selection

end DotPath
