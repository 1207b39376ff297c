import DotPath.Proofs.Evaluator.Alike
import DotPath.Proofs.Json.Made
import DotPath.Transformer.Objects
import DotPath.Transformer.Structure

/-!
# What transformers read

A transformer looks at the text of a document, and at the text of its argument. On the text of a
tree it finds the parts of the tree: the members of an object as they are spelled, or the first
member with each decoded name.

Two transformers have one field in their argument, which is a truth value. Another takes an object
whose members are decoded; no name occurs twice among them then.

## Main definitions

* `Argument.flag?`: the truth value in an argument.

## Main results

* `Transformer.spelledMembers_source`, `Selection.map_members_of_shows`: the members of an object.
* `Transformer.nodup_of_defaults?`: the names of decoded members are distinct.
-/

namespace DotPath

open Json

theorem Json.Tree.field_eq (t : Tree) (name : Text) : t.field name = t.members.lookup name := by
  rw [Tree.field]
  induction t.members with
  | nil => rfl
  | cons m rest ih =>
      rw [List.find?_cons, List.lookup_cons, BEq.comm]
      cases name == m.1 with
      | true => rfl
      | false => exact ih

namespace Selection

/-! ## Values -/

variable {s : Selection} {t : Tree}

theorem isObject_of_shows (h : s.Shows t) : s.isObject = t.isObject := by
  rw [isObject, opensObject_of_shows h, h.1]
  cases t with
  | scalar kind raw spelled => simp [Tree.isObject]
  | _ => rfl

theorem shows_bare (t : Tree) : (document t.source).Shows t := by
  have hshows := Evaluator.shows_document (.bare t)
  rwa [Document.source_bare] at hshows

/-- Of members with the same name, the first is a member of the object. -/
theorem map_members_of_shows (h : s.Shows t) (hobject : t.isObject = true) :
    s.members.map (fun m => (m.1, m.2.kind, m.2.raw)) =
      (firstMembers t.members).map fun m => (m.1, m.2.kind, m.2.source) := by
  rw [map_members (by rwa [isObject_of_shows h]), h.2, t.members_source,
    firstMembers_map fun v : Tree => (v.kind, v.source)]

end Selection

namespace Transformer

open Selection

theorem spelledMembers_of_shows {json : Text} {t : Tree} (h : (document json).Shows t) :
    spelledMembers json = t.entries.map fun e => (e.1.source, e.2.source) := by
  rw [spelledMembers, h.2]
  exact t.spelled_members_source

/-- The members of an object as they are spelled; none for any other value. -/
theorem spelledMembers_source (t : Tree) :
    spelledMembers t.source = t.entries.map fun e => (e.1.source, e.2.source) :=
  spelledMembers_of_shows (shows_bare t)

end Transformer

/-! ## Arguments -/

/--
The truth value that an argument gives to the one field that a transformer declares; false if it
gives none.
-/
def Argument.flag? (field argument : Text) : Option Bool := do
  match ← fields? [field] argument with
  | [v] => decodeD false bool? v
  | _ => none

/-- An object that is decoded has every name once. -/
theorem Json.nodup_of_valueWithin? {depth : Nat} {v : Occurrence} {members : List (Text × Value)}
    (h : valueWithin? depth v = some (.object members)) : (names members).Nodup := by
  unfold valueWithin? at h
  split at h
  · cases h
  · cases h
  · cases h
  · unfold numberValue? at h
    dsimp only at h
    split at h
    · cases h
    · split at h
      · cases h
      · obtain ⟨x, -, hx⟩ := Option.map_eq_some_iff.1 h
        cases hx
  · obtain ⟨t, -, ht⟩ := Option.map_eq_some_iff.1 h
    cases ht
  · split at h
    · cases h
    · split at h
      · simp only [Option.bind_eq_bind, Option.bind_eq_some_iff, Option.pure_def,
          Option.some.injEq] at h
        obtain ⟨decoded, -, heq⟩ := h
        cases heq
        exact nodup_mergeMembers decoded
      · simp only [Option.bind_eq_bind, Option.bind_eq_some_iff, Option.pure_def,
          Option.some.injEq] at h
        obtain ⟨items, -, heq⟩ := h
        cases heq

/-- Defaults have every name once. -/
theorem Transformer.nodup_of_defaults? {argument : Text} {defaults : List (Text × Value)}
    (h : defaults? argument = some defaults) : (names defaults).Nodup := by
  unfold defaults? at h
  split at h
  · cases h
    exact List.nodup_nil
  · split at h
    · next members hdecode =>
        cases h
        obtain ⟨v, -, hv⟩ := Option.bind_eq_some_iff.1 hdecode
        exact nodup_of_valueWithin? hv
    · cases h

end DotPath
