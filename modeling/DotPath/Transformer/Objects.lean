import DotPath.Transformer.Argument
import DotPath.Transformer.Basic

/-!
# Transformers of objects

Both transformers also work on every object in an array.
-/

namespace DotPath.Transformer

open Json

/-- The members of an object to keep, in the order in which they are to appear. -/
def picked (pick : Option (List Text)) (object : Selection) : List (Text × Selection) :=
  match pick with
  | some names => names.filterMap fun name => (object.member? name).map (name, ·)
  | none => object.members

/-- Keeps some members of an object, or all, and gives some of them new names. -/
def projectMembers : Transformer := .withArgument fun json argument =>
  let arguments? := do
    match ← Argument.fields? ["pick".toList, "rename".toList] argument with
    | [pick, rename] =>
      let pick ← Argument.decodeD none (Argument.optional? Argument.texts?) pick
      let rename ← Argument.decodeD [] Argument.textMap? rename
      return (pick, rename)
    | _ => none
  match arguments? with
  | none => json
  | some (pick, rename) =>
    json |> mapObjects fun object =>
      composeObject <|
        (picked pick object).map fun (name, v) => ((rename.lookup name).getD name, v.raw)

/--
An object with the defaults in place of members that are null, and after its members those it lacks.
-/
def withDefaults (defaults : List (Text × Value)) (object : Selection) : Text :=
  let members := object.members
  let filled := members.map fun (name, v) =>
    match defaults.lookup name with
    | some default => (name, if v.kind == .null then default.encode else v.raw)
    | none => (name, v.raw)
  let added := defaults.filter fun (name, _) => !members.any (·.1 == name)
  composeObject (filled ++ added.map fun (name, default) => (name, default.encode))

/-- The defaults that an argument gives. -/
def defaults? (argument : Text) : Option (List (Text × Value)) :=
  if argument.all Text.isBlank then some []
  else match decode? argument with
    | some (.object members) => some members
    | _ => none

/-- Gives values to the members of an object that are null or absent. -/
def fillDefaults : Transformer := .withArgument fun json argument =>
  match defaults? argument with
  | none => json
  | some defaults => mapObjects (withDefaults defaults) json

end DotPath.Transformer
