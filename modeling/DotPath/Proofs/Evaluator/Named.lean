import DotPath.Proofs.Json.Quoted
import DotPath.Proofs.Json.WellFormed
import DotPath.Proofs.Search

/-!
# Members by escaped names

A key is escaped so that a path reads it back as one plain component, whatever characters it has. In
an object this component leads to the first member with the name, and to nothing if no member has
it. The name may be spelled with escapes in the document, and other members may have it as well.

There is one kind of key that is not read back. Digits are a position where they fit into a machine
word, and a position is written without the zeros that may stand in front of it. A key that has such
zeros is led to the member named by the digits without them. No backslash is put before a digit, so
escaping does not help.

## Main results

* `compile_escapeComponent`: an escaped key is one component.
* `Evaluator.get_escapeComponent`: the member that it leads to.
* `Evaluator.get_escapeComponent_iff`: exactly which keys are read back.
-/

namespace DotPath

open Json Selection

/-! ## The name that is read -/

/-- Digits with a zero in front that is left out again, because they fit into a machine word. -/
def LosesZeros (key : Text) : Prop :=
  Number.IsPadded key ∧ Number.natOfDigits key ≤ Number.maxUInt64

instance (key : Text) : Decidable (LosesZeros key) := by
  unfold LosesZeros
  infer_instance

/-- No number is written with a zero too many. -/
theorem Number.not_isPadded_ofNat (n : Nat) : ¬ Number.IsPadded (Text.ofNat n) := by
  intro hpadded
  obtain ⟨-, hlength, hhead⟩ := hpadded
  by_cases hn : 0 < n
  · obtain ⟨c, s, hdigits, hc⟩ := head_toDigits hn
    rw [Text.ofNat, hdigits] at hhead
    exact hc (Option.some.inj hhead)
  · have hzero : n = 0 := by omega
    rw [hzero] at hlength
    exact absurd hlength (by decide)

theorem nameRead_eq_self_iff {key : Text} (hne : key ≠ []) :
    nameRead key = key ↔ ¬ LosesZeros key := by
  constructor
  · intro hread hloses
    rw [nameRead, if_pos ⟨hloses.1.1, hloses.2⟩] at hread
    refine Number.not_isPadded_ofNat (Number.natOfDigits key) ?_
    rw [hread]
    exact hloses.1
  · intro hkeeps
    by_cases hpadded : Number.IsPadded key
    · have hlarge : ¬ Number.natOfDigits key ≤ Number.maxUInt64 := by
        intro hfits
        exact hkeeps ⟨hpadded, hfits⟩
      rw [nameRead, if_neg fun hdigits => hlarge hdigits.2]
    · exact nameRead_of_not_isPadded hne hpadded

/-! ## What an escaped key leads to -/

/-- An escaped key is read as one component, whatever characters it has. -/
theorem compile_escapeComponent {key : Text} (hne : key ≠ []) :
    Path.compile (escapeComponent key) = .ok [plainSegment (escapeComponent key)] := by
  have hescaped := escapeComponent_ne_nil hne
  rw [compile_eq_readPath hescaped, Place.start,
    readPath_plain _ _ _ _ hescaped (guarded_escapeComponent key)]

/-- The first member of a document with a name, as a view; nothing if no member has the name. -/
def Json.Document.named (d : Document) (name : Text) : Selection :=
  d.root.named (Text.byteLength d.before.1) name

namespace Evaluator

/-- An escaped key leads to the first member with the name that it is read as. -/
theorem get_escapeComponent (ev : Evaluator) {d : Document} (h : d.root.isObject = true)
    {key : Text} (hne : key ≠ []) :
    ev.get d.source (escapeComponent key) = d.named (nameRead key) := by
  have hlines : ∀ each, [plainSegment (escapeComponent key)].head? ≠ some (.lines each) := by
    intro each hhead
    exact plainSegment_ne_lines _ each (Option.some.inj hhead)
  rw [get, compile_escapeComponent hne]
  show ev.eval d.source [plainSegment (escapeComponent key)] = _
  rw [ev.eval_of_ne_lines _ hlines, document_source, resolve, Tree.view_isPresent, resolve_nil,
    ev.step_escapeComponent h _ hne]
  rfl

end Evaluator

/-! ## A document in which a zero makes the difference -/

/-- A literal without backslashes stands for what is between its quotes. -/
theorem Json.text_of_not_mem {body : Text} (h : '\\' ∉ body) :
    Quoted.text ('"' :: (body ++ ['"'])) = body := by
  rw [Quoted.text, Quoted.body_quoted, Quoted.unescape, if_neg (by simpa using h)]

theorem Json.isBody_of_digits {t : Text} (h : t.all Char.isDigit = true) : IsBody t := by
  induction t with
  | nil => exact .nil
  | cons c t ih =>
      rw [List.all_cons, Bool.and_eq_true] at h
      have hlow := (Char.isDigit_iff_toNat.1 h.1).1
      have hzero : '0'.toNat = 0x30 := rfl
      exact .plain (by omega) (ne_of_isDigit h.1 rfl) (ne_of_isDigit h.1 rfl) (ih h.2)

/-- An object with one member, whose name is digits. -/
def Json.Document.ofDigits (key : Text) (h : key.all Char.isDigit = true) : Document :=
  ⟨.none, .object ⟨.none, ⟨key, isBody_of_digits h⟩, .none, .bare (.ofNat 1)⟩ [], .none⟩

/-- The member is found under its name and under no other. -/
theorem Json.Document.named_ofDigits {key : Text} (h : key.all Char.isDigit = true) (name : Text) :
    ((Document.ofDigits key h).named name).isPresent = true ↔ name = key := by
  have hslash : '\\' ∉ key := by
    intro hmem
    cases List.all_eq_true.1 h _ hmem
  have hstep : Quoted.text (Key.mk key (isBody_of_digits h)).source = key := text_of_not_mem hslash
  rw [named, Document.ofDigits, Tree.named, Tree.parts, Tree.laidOut, Tree.laidOut, Tree.entryPart,
    List.find?_singleton, hstep]
  by_cases hname : name = key
  · rw [hname, beq_self_eq_true]
    exact iff_of_true (Tree.view_isPresent _ _) rfl
  · have hother : (Step.key key == Step.key name) = false := by
      simpa using fun heq => hname heq.symm
    rw [hother, if_neg Bool.false_ne_true]
    exact iff_of_false Bool.false_ne_true hname

namespace Evaluator

/--
A key that is escaped is one component of a path, and stands for itself unless it is digits that fit
into a machine word. In every well-formed document whose root is an object it leads to the first
member with the name that it is read as, and to nothing if there is no such member. This is the
first member with the key itself as its name, in all such documents, exactly if the key has no zero
in front that is left out.
-/
theorem get_escapeComponent_iff {key : Text} (hne : key ≠ []) :
    Path.compile (escapeComponent key) =
        .ok [if key.all Char.isDigit ∧ Number.natOfDigits key ≤ Number.maxUInt64 then
          .index (Number.natOfDigits key) else .field key] ∧
      (∀ (ev : Evaluator) (limit : Option Nat) (json : Text), wellFormed limit json = true →
        (∃ d : Document, d.source = json) ∧
          ∀ d : Document, d.source = json → d.root.isObject = true →
            ev.get json (escapeComponent key) = d.named (nameRead key)) ∧
      ((∀ (ev : Evaluator) (d : Document), d.root.isObject = true →
        ev.get d.source (escapeComponent key) = d.named key) ↔ ¬ LosesZeros key) := by
  refine ⟨?_, ?_, ?_, ?_⟩
  · rw [compile_escapeComponent hne, plainSegment_escapeComponent hne]
  · intro ev limit json hjson
    obtain ⟨d, hd, -⟩ := wellFormed_iff.1 hjson
    refine ⟨⟨d, hd⟩, ?_⟩
    rintro d rfl hobject
    exact ev.get_escapeComponent hobject hne
  · intro hread hloses
    have hfound := hread ⟨⟨true, 256⟩, fun _ => none⟩ (Document.ofDigits key hloses.1.1) rfl
    rw [get_escapeComponent _ rfl hne] at hfound
    have hpresent := (Document.named_ofDigits hloses.1.1 key).2 rfl
    rw [← hfound, Document.named_ofDigits] at hpresent
    exact (nameRead_eq_self_iff hne).1 hpresent hloses
  · intro hkeeps ev d hobject
    rw [ev.get_escapeComponent hobject hne, (nameRead_eq_self_iff hne).2 hkeeps]

/-- The first of two members with the name, which is spelled with an escape and has marks in it. -/
def dottedMembers : Document :=
  ⟨.none, .object
    ⟨.none, ⟨"a.\\u0031".toList, .plain (by decide) (by decide) (by decide)
      (.plain (by decide) (by decide) (by decide) (.unicode rfl rfl rfl rfl .nil))⟩, .none,
        .bare (.ofNat 7)⟩
    [⟨.none, .ofName "a.1".toList, .none, .bare (.ofNat 8)⟩], .none⟩

theorem get_escapeComponent_iff_of_dotted :
    "a.1".toList ≠ [] ∧ ¬ LosesZeros "a.1".toList ∧
      Evaluator.get ⟨⟨true, 256⟩, fun _ => none⟩ dottedMembers.source
        (escapeComponent "a.1".toList) = ⟨.number, ['7'], true, some 12, []⟩ := by
  have hne : "a.1".toList ≠ [] := by decide
  have hkeeps : ¬ LosesZeros "a.1".toList := by decide
  have h := (get_escapeComponent_iff hne).2.2.2 hkeeps
    ⟨⟨true, 256⟩, fun _ => none⟩ dottedMembers rfl
  have hnamed : dottedMembers.named "a.1".toList = ⟨.number, ['7'], true, some 12, []⟩ := by
    decide +kernel
  exact ⟨hne, hkeeps, h.trans hnamed⟩

/-- A key with two zeros in front is not found where it is the name of the only member. -/
theorem get_escapeComponent_loses_zeros :
    wellFormed none "\x7b\"007\":1\x7d".toList = true ∧
      (Document.ofDigits "007".toList rfl).source = "\x7b\"007\":1\x7d".toList ∧
      (Document.ofDigits "007".toList rfl).named "007".toList =
        ⟨.number, ['1'], true, some 7, []⟩ ∧
      Evaluator.get ⟨⟨true, 256⟩, fun _ => none⟩ "\x7b\"007\":1\x7d".toList
        (escapeComponent "007".toList) = missing := by
  decide +kernel

end Evaluator

end DotPath
