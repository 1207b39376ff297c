import DotPath.Evaluator.Basic
import DotPath.Registry

/-!
# The shared environment

Transformers that follow paths of their own, and lookups on a selection, use one shared registry
with default options. The environment holds that registry and the switch for transformers.

A path inside a transformer's argument may call transformers again. Its text is part of the argument
and so shorter than the path around it, which is what the recursion in `Environment.follow` goes by.
-/

namespace DotPath

/-- What is shared by all evaluations that are not given a registry of their own. -/
structure Environment where
  registry : Registry
  /-- Whether transformers are applied where no options say otherwise. -/
  transformers : Bool

namespace Environment

/-- The environment at the start: no own transformers, and transformers applied. -/
def initial : Environment :=
  ⟨.empty, true⟩

/-- The options where nothing else is said. -/
def options (env : Environment) : Options :=
  ⟨env.transformers, Json.defaultDepth⟩

/-- An evaluator with given transformers, whose own paths are followed in a given way. -/
def evaluatorWith (registry : Registry) (options : Options) (follow : Follow) : Evaluator :=
  ⟨options, fun name => (registry.find? name).map fun transformer => transformer follow⟩

/-- The route of a path through the shared registry. -/
def follow (env : Environment) (path : Text) : Except PathError Route :=
  (Path.compile path).map fun compiled =>
    let inner : Follow := fun nested =>
      if _h : nested.length < path.length then follow env nested else .error .empty
    ⟨evaluatorWith env.registry env.options inner, compiled⟩
termination_by path.length

/-- Whether following a path through the shared registry, from a selection, aborts. -/
def followAborts (env : Environment) (memory : Memory) (path : Text) (cur : Selection) : Bool :=
  match env.follow path with
  | .error _ => false
  | .ok route =>
    let inner : FollowAborts := fun nested e =>
      if _h : nested.length < path.length then followAborts env memory nested e else false
    route.evaluator.resolveAborts (env.registry.aborts memory inner) cur route.path
termination_by path.length

/--
An evaluator over a registry. Its transformers follow their own paths with the shared registry.
-/
def evaluator (env : Environment) (registry : Registry) (options : Options) : Evaluator :=
  evaluatorWith registry options env.follow

/-- The evaluator over the shared registry with default options. -/
def shared (env : Environment) : Evaluator :=
  env.evaluator env.registry env.options

/-- Follows a path from a document. A text that is no path selects nothing. -/
def get (env : Environment) (json path : Text) : Selection :=
  env.shared.get json path

/-- Follows a path from a selection. A text that is no path selects nothing. -/
def getFrom (env : Environment) (cur : Selection) (path : Text) : Selection :=
  env.shared.getFrom cur path

/-- The text that a transformer of a registry makes. -/
def apply (env : Environment) (registry : Registry) (json name argument : Text) : Text :=
  registry.apply env.follow json name argument

/-! ## Where a call aborts -/

/-- Which calls of transformers of a registry abort. -/
def aborts (env : Environment) (memory : Memory) (registry : Registry) : CallAborts :=
  registry.aborts memory (env.followAborts memory)

/-- The text that a transformer of a registry makes, unless it aborts. -/
def applyWithin (env : Environment) (memory : Memory) (registry : Registry)
    (json name argument : Text) : Option Text :=
  registry.applyWithin memory env.follow (env.followAborts memory) json name argument

end Environment

end DotPath
