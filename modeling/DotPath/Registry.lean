import DotPath.Evaluator.Abort
import DotPath.Transformer.Builtin

/-!
# Registries of transformers

A registry is a layer of own transformers over the built-in ones. An own transformer hides a
built-in one of the same name for as long as it is registered.
-/

namespace DotPath

/-- The own transformers of a registry under their names. -/
structure Registry where
  own : List (Text × Transformer)

namespace Registry

/-- The registry without own transformers. -/
def empty : Registry :=
  ⟨[]⟩

/-- Registers a transformer under a name, in place of the own one of that name. -/
def insert (r : Registry) (name : Text) (transformer : Transformer) : Registry :=
  ⟨(name, transformer) :: r.own.filter (·.1 != name)⟩

/-- Removes the own transformer of a name. -/
def erase (r : Registry) (name : Text) : Registry :=
  ⟨r.own.filter (·.1 != name)⟩

/-- Whether a name has an own transformer. -/
def hasOwn (r : Registry) (name : Text) : Bool :=
  r.own.any (·.1 == name)

/-- Removes the own transformer of a name, and tells whether there was one. -/
def unregister (r : Registry) (name : Text) : Bool × Registry :=
  (r.hasOwn name, r.erase name)

/-- The transformer with a name: an own one, or else a built-in one. -/
def find? (r : Registry) (name : Text) : Option Transformer :=
  match r.own.lookup name with
  | some transformer => some transformer
  | none => (Builtin.find? name).map (·.transformer)

/-- The built-in transformer with a name, unless an own one hides it. -/
def builtin? (r : Registry) (name : Text) : Option Builtin :=
  if r.hasOwn name then none else Builtin.find? name

/-- Whether the transformer with a name aborts. Own transformers do not. -/
def aborts (r : Registry) (memory : Memory) (aborts : FollowAborts) : CallAborts :=
  fun name json argument => (r.builtin? name).any fun b => b.aborts memory aborts json argument

/-- Whether a name leads to a transformer. -/
def contains (r : Registry) (name : Text) : Bool :=
  r.hasOwn name || (Builtin.find? name).isSome

/-- A sorted list of texts with one more, unless it is there already. -/
def insertName (name : Text) : List Text → List Text
  | [] => [name]
  | other :: rest =>
    match Text.order name other with
    | .lt => name :: other :: rest
    | .eq => other :: rest
    | .gt => other :: insertName name rest

/-- Every name that leads to a transformer, in order of code points. -/
def names (r : Registry) : List Text :=
  (r.own.map (·.1) ++ Builtin.all.flatMap Builtin.names).foldr insertName []

/-- The text that a transformer makes. Under an unknown name the text stays as it is. -/
def apply (r : Registry) (follow : Follow) (json name argument : Text) : Text :=
  match r.find? name with
  | some transformer => transformer follow json argument
  | none => json

/-- The text that a transformer makes, unless it aborts. -/
def applyWithin (r : Registry) (memory : Memory) (follow : Follow) (aborts : FollowAborts)
    (json name argument : Text) : Option Text :=
  if r.aborts memory aborts name json argument then none
  else some (r.apply follow json name argument)

end Registry

end DotPath
