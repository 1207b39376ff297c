import DotPath.Json.Items
import DotPath.Json.Quoted
import DotPath.Json.WellFormed

/-!
# Layout of documents

`minify` removes the space between tokens, `pretty` puts every item on a line of its own. Both copy
keys and scalars as they are spelled, and both leave a text that is not one well-formed value alone.
-/

namespace DotPath.Json

/-! ## Compact layout -/

/-- The text without the space that stands outside strings. -/
def compactFrom (mode : Mode) : Text → Text
  | [] => []
  | c :: rest =>
    match mode with
    | .escaped => c :: compactFrom .quoted rest
    | .quoted =>
      c :: compactFrom (if c == '"' then .plain else if c == '\\' then .escaped else .quoted) rest
    | .plain =>
      if isSpace c then compactFrom .plain rest
      else c :: compactFrom (if c == '"' then .quoted else .plain) rest

/-- The document in its shortest layout. -/
def minify (t : Text) : Text :=
  match document? t with
  | some v => compactFrom .plain v.raw
  | none => t

/-! ## Layout in lines -/

/-- Choices for the layout in lines. -/
structure LineOptions where
  /-- What a line begins with, once per level. -/
  indent : Text
  /-- What every line begins with. -/
  margin : Text
  /-- Whether the members of every object are put in the order of their keys. -/
  sortKeys : Bool
  deriving DecidableEq, Repr

/-- Two spaces per level, no margin, and members in their own order. -/
def LineOptions.standard : LineOptions :=
  ⟨[' ', ' '], [], false⟩

/-- The beginning of a new line at a level. -/
def LineOptions.newLine (options : LineOptions) (level : Nat) : Text :=
  '\n' :: options.margin ++ (List.replicate level options.indent).flatten

/-- The decoded name of a member. -/
def Member.name (m : Member) : Text :=
  Quoted.text m.key.raw

/-- Members in the order of their names; those of one name stay in their order. -/
def sortMembers (members : List Member) : List Member :=
  members.mergeSort fun a b => Text.order a.name b.name != .gt

/-- Items between brackets, each on its own line one level deeper. -/
def LineOptions.enclose (options : LineOptions) (level : Nat) (opening closing : Char)
    (items : List Text) : Text :=
  if items.isEmpty then [opening, closing]
  else
    opening :: List.intercalate [','] (items.map (options.newLine (level + 1) ++ ·)) ++
      options.newLine level ++ [closing]

/-- A value laid out in lines for `depth` levels of containers, and compactly below them. -/
def LineOptions.lay (options : LineOptions) (depth level : Nat) (v : Occurrence) : Text :=
  if v.kind ≠ .container then v.raw
  else match depth with
    | 0 => compactFrom .plain v.raw
    | depth + 1 =>
      if opensObject v.raw then
        let members := members v.raw
        let members := if options.sortKeys then sortMembers members else members
        options.enclose level '\x7b' '\x7d' <|
          members.map fun m => m.key.raw ++ ':' :: ' ' :: options.lay depth (level + 1) m.value
      else
        options.enclose level '[' ']' <|
          (elements v.raw).map fun e => options.lay depth (level + 1) e

/-- The document laid out in lines, for `depth` levels of containers. -/
def prettyWithin (options : LineOptions) (depth : Nat) (t : Text) : Text :=
  match document? t with
  | some v => options.margin ++ options.lay depth 0 v
  | none => t

/-- The document laid out in lines, to the default depth. -/
def pretty (options : LineOptions) (t : Text) : Text :=
  prettyWithin options defaultDepth t

end DotPath.Json
