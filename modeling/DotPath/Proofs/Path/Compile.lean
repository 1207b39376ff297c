import DotPath.Proofs.Path.Segments

/-!
# Paths inside a longer path

A component with paths inside is delimited first, and the paths are read from its parts alone. So
two things have to be said of the readers. What is read from a part does not depend on where the
part stands (`Steady`). And a component is read the same in a longer text, with any tail that fits
(`Keeps`). From this it follows component by component that a path is read the same at the front of
a longer text, and that a pipe behind it starts the components of a second path.

## Main results

* `readCondition_steady`, `readEntries_steady`: what is read from parts.
* `readComponent_keeps`, `readDescent_keeps`, `readLines_keeps`: the readers for components.
* `readComponents_embed`: components, by recursion on what is left of the path.
* `compile_append`: two paths with a pipe between them.
-/

namespace DotPath

open Json Place

/-! ## Parts that are read alone -/

/-- What is read from a part of a text does not depend on where the part stands. -/
def Steady {α : Type} (read : Place → Except PathError α) : Prop :=
  ∀ {p : Place} {a : α}, read p = .ok a → ∀ k, read (p.shift k) = .ok a

/-- Two choices by one test give the same answer if their branches do. -/
theorem ite_eq_ok {ε α : Type} {c : Prop} [Decidable c] {x y x' y' : Except ε α} {a : α}
    (h : (if c then x else y) = .ok a) (hx : x = .ok a → x' = .ok a)
    (hy : y = .ok a → y' = .ok a) : (if c then x' else y') = .ok a := by
  split at h
  · next hc => rw [if_pos hc, hx h]
  · next hc => rw [if_neg hc, hy h]

section Parts

variable {nested : PathReader} {p : Place}

theorem value?_shift (k : Nat) (p : Place) :
    (p.shift k).value? = p.value?.map fun (v, q) => (v.shift k, q.shift k) := by
  have hembed := value?_embed_of_extent (p := p) k [] (by rw [List.append_nil])
  simpa only [embed_nil] using hembed

theorem literal?_shift (k : Nat) (p : Place) :
    (p.shift k).literal? = p.literal?.map fun (v, q) => (v.shift k, q.shift k) := by
  rw [literal?_eq, literal?_eq, rest_shift, value?_shift]
  split <;> rfl

theorem skipWhile_shift (k : Nat) (p : Place) (c : Char → Bool) :
    (p.shift k).skipWhile c = (p.skipWhile c).shift k :=
  skip_shift k p _

theorem readEntry_steady (hn : Steady nested) : Steady (readEntry nested) := by
  intro p entry h k
  unfold readEntry at h ⊢
  rw [rest_shift, literal?_shift]
  split at h
  · next t hrest =>
      cases hliteral : p.literal? with
      | none =>
          rw [hliteral] at h
          cases h
      | some found =>
          obtain ⟨key, q⟩ := found
          rw [hliteral] at h
          dsimp only [Option.map_some] at h ⊢
          rw [skipWhile_shift, rest_shift]
          generalize q.skipWhile isPathSpace = q at h ⊢
          split at h
          · cases h
          · next c u hq =>
              rw [skip_shift, skipWhile_shift, rest_shift]
              refine ite_eq_ok h nofun fun h => ite_eq_ok h nofun fun h => ?_
              obtain ⟨path, hpath, heq⟩ := exists_of_map_eq_ok h
              rw [hn hpath k]
              exact congrArg Except.ok heq
  · next hother =>
      obtain ⟨path, hpath, heq⟩ := exists_of_map_eq_ok h
      rw [hn hpath k]
      exact congrArg Except.ok heq

theorem readEntries_steady (hn : Steady nested) {parts : List Place} {entries : List (Text × Path)}
    (h : readEntries nested parts = .ok entries) (k : Nat) :
    readEntries nested (parts.map (Place.shift k)) = .ok entries := by
  induction parts generalizing entries with
  | nil => exact h
  | cons part rest ih =>
      rw [readEntries] at h
      rw [List.map_cons, readEntries, trim_shift, rest_shift]
      refine ite_eq_ok h (fun h => by cases h) fun h => ?_
      obtain ⟨entry, hentry, h⟩ := exists_of_bind_eq_ok h
      obtain ⟨found, hfound, h⟩ := exists_of_bind_eq_ok h
      rw [readEntry_steady hn hentry k, ih hfound]
      exact h

theorem mapM_steady {α : Type} {read : Place → Except PathError α} (hread : Steady read)
    {parts : List Place} {found : List α} (h : parts.mapM read = .ok found) (k : Nat) :
    (parts.map (Place.shift k)).mapM read = .ok found := by
  induction parts generalizing found with
  | nil => exact h
  | cons part rest ih =>
      rw [List.mapM_cons] at h
      obtain ⟨a, ha, h⟩ := exists_of_bind_eq_ok h
      obtain ⟨as, has, h⟩ := exists_of_bind_eq_ok h
      rw [List.map_cons, List.mapM_cons, hread ha k, ih has]
      exact h

theorem readOperand_steady : Steady readOperand := by
  intro p operand h k
  unfold readOperand at h ⊢
  rw [literal?_shift]
  refine ite_eq_ok h id fun h => ite_eq_ok h id fun h => ite_eq_ok h id fun h =>
    ite_eq_ok h id fun h => ite_eq_ok h id fun h => ite_eq_ok h id fun h =>
      ite_eq_ok h id fun h => ite_eq_ok h nofun fun h => ite_eq_ok h (fun h => ?_) id
  cases hliteral : p.literal? with
  | none =>
      rw [hliteral] at h
      cases h
  | some found =>
      obtain ⟨v, q⟩ := found
      rw [hliteral] at h
      exact ite_eq_ok h id nofun

theorem readComparison_steady (hn : Steady nested) : Steady (readComparison nested) := by
  intro p condition h k
  unfold readComparison at h ⊢
  rw [trim_shift]
  generalize p.trim isPathSpace = p at h ⊢
  refine ite_eq_ok h nofun fun h => ?_
  cases hfound : operatorFrom 0 p with
  | error e =>
      rw [hfound] at h
      cases h
  | ok found =>
      rw [hfound] at h
      rw [operatorFrom_shift hfound k]
      cases found with
      | none =>
          obtain ⟨path, hpath, heq⟩ := exists_of_map_eq_ok h
          dsimp only [Option.map_none]
          rw [hn hpath k]
          exact congrArg Except.ok heq
      | some found =>
          obtain ⟨place, operator, length⟩ := found
          obtain ⟨field, hfield, h⟩ := exists_of_bind_eq_ok h
          dsimp only [Option.map_some] at h ⊢
          rw [upTo_shift, trim_shift, skip_shift, trim_shift, hn hfield k]
          generalize (place.skip length).trim isPathSpace = part at h ⊢
          refine ite_eq_ok h nofun fun h => ?_
          obtain ⟨operand, hoperand, h⟩ := exists_of_bind_eq_ok h
          show (do
            let operand ← readOperand (part.shift k)
            pure (Condition.compare field operator operand)) = _
          rw [readOperand_steady hoperand k]
          exact h

theorem joinConditions_eq_ok {join : Condition → Condition → Condition} {position other : Nat}
    {conditions : List Condition} {c : Condition}
    (h : joinConditions join position conditions = .ok c) :
    joinConditions join other conditions = .ok c := by
  cases conditions with
  | nil => cases h
  | cons first rest => exact h

/-- An alternative of a condition: terms that hold together. -/
theorem readAlternative_steady (hn : Steady nested) :
    Steady (fun alternative => do
      let terms ← splitParts ['&', '&'] alternative
      let comparisons ← terms.mapM (readComparison nested)
      joinConditions .both alternative.offset comparisons) := by
  intro p condition h k
  obtain ⟨terms, hterms, h⟩ := exists_of_bind_eq_ok h
  obtain ⟨comparisons, hcomparisons, h⟩ := exists_of_bind_eq_ok h
  dsimp only
  rw [splitParts_shift hterms k]
  show (do
    let comparisons ← (terms.map (Place.shift k)).mapM (readComparison nested)
    joinConditions .both (p.shift k).offset comparisons) = _
  rw [mapM_steady (readComparison_steady hn) hcomparisons k]
  exact joinConditions_eq_ok h

theorem readCondition_steady (hn : Steady nested) : Steady (readCondition nested) := by
  intro p condition h k
  obtain ⟨alternatives, halternatives, h⟩ := exists_of_bind_eq_ok h
  obtain ⟨conditions, hconditions, h⟩ := exists_of_bind_eq_ok h
  rw [readCondition, splitParts_shift halternatives k]
  show (do
    let conditions ← (alternatives.map (Place.shift k)).mapM _
    joinConditions .either (p.shift k).offset conditions) = _
  rw [mapM_steady (readAlternative_steady hn) hconditions k]
  exact joinConditions_eq_ok h

end Parts

/-! ## Components with paths inside -/

section Components

variable {nested : PathReader} {condition : ConditionReader} {p q : Place} {tail : Text}

theorem eachStart_embed (htail : tail = [] ∨ tail.head? = some '|') {t : Text}
    (hp : p.rest = '.' :: t) (k : Nat) :
    eachStart (p.embed k tail) = (eachStart p).embed k tail := by
  have hskip := skip_one_embed hp k tail
  have hrest := rest_skip_one hp
  rw [eachStart, eachStart, hp]
  split
  · next c u hu =>
      have hu' : ((p.skip 1).embed k tail).rest = '.' :: u := by
        rw [← hskip, skip, hu]
        rfl
      obtain ⟨u', hu'⟩ := exists_rest_of_embed htail (by decide) hu'
      rw [hrest] at hu'
      rw [hu']
      rfl
  · next hother =>
      rw [hskip]
      split
      · next c u hu =>
          cases hu
          refine absurd ?_ (hother '.' (u ++ tail))
          rw [embed, hp]
          rfl
      · rfl

theorem eachStart_spec {t : Text} (hp : p.rest = '.' :: t) :
    (eachStart p).rest <:+ p.rest ∧ (Settles p.rest → Settles (eachStart p).rest) := by
  unfold eachStart
  split
  · exact ⟨List.suffix_rfl, id⟩
  · refine ⟨suffix_skip p 1, fun hsettles => ?_⟩
    rw [hp] at hsettles
    rw [rest_skip_one hp]
    exact hsettles.of_cons (by decide)

theorem readEach_keeps (hn : Steady nested) {each : Path} (h : readEach nested p = .ok (each, q))
    {t : Text} (hp : p.rest = '.' :: t) : Keeps (readEach nested) p each q := by
  obtain ⟨hsuffix, hsettles⟩ := eachStart_spec hp
  unfold readEach at h
  split at h
  · cases h
  · next stop hstop =>
      split at h
      · cases h
      · next hlength =>
          obtain ⟨path, hpath, heq⟩ := exists_of_map_eq_ok h
          cases heq
          refine ⟨(suffix_of_pipeFrom hstop).trans hsuffix, fun k tail hfits => ?_⟩
          have hstart := eachStart_embed hfits.head hp k
          have hstop' := pipeFrom_embed_of_fits hstop (hfits.of_settles hsettles) k
          have hlength' :
              ¬ (q.embed k tail).rest.length = ((eachStart p).embed k tail).rest.length := by
            rw [embed, embed, List.length_append, List.length_append]
            omega
          rw [readEach, hstart, hstop']
          dsimp only
          rw [if_neg hlength', upTo_embed, hn hpath k]
          rfl

theorem readDescent_eq (h : plainLength p.rest ≠ 0) :
    readDescent nested p =
      match (p.skip (plainLength p.rest)).rest with
      | '.' :: _ =>
        (readEach nested (p.skip (plainLength p.rest))).map fun (each, q) =>
          (.descend (p.rest.take (plainLength p.rest)) each, q)
      | _ =>
        .ok (.descend (p.rest.take (plainLength p.rest)) [], p.skip (plainLength p.rest)) := by
  rw [readDescent]
  split
  · next hzero => exact absurd hzero h
  · rfl

/-- The key of a descent is not empty. -/
theorem plainLength_ne_zero_of_readDescent {s : Segment}
    (h : readDescent nested p = .ok (s, q)) : plainLength p.rest ≠ 0 := by
  intro hzero
  rw [readDescent, hzero] at h
  cases h

theorem readDescent_keeps (hn : Steady nested) {s : Segment}
    (h : readDescent nested p = .ok (s, q)) : Keeps (readDescent nested) p s q := by
  have hpos := plainLength_ne_zero_of_readDescent h
  have hsuffix := suffix_skip p (plainLength p.rest)
  have hlonger : ∀ k tail, Fits tail p →
      plainLength (p.embed k tail).rest = plainLength p.rest ∧
        (p.embed k tail).rest.take (plainLength p.rest) = p.rest.take (plainLength p.rest) ∧
          (p.embed k tail).skip (plainLength p.rest) =
            (p.skip (plainLength p.rest)).embed k tail :=
    fun k tail hfits => ⟨plainLength_embed hfits k, skip_plainLength_embed k tail p⟩
  rw [readDescent_eq hpos] at h
  generalize p.skip (plainLength p.rest) = after at h hsuffix hlonger
  split at h
  · next u hdot =>
      obtain ⟨⟨each, r⟩, heach, heq⟩ := exists_of_map_eq_ok h
      cases heq
      have hkeeps := readEach_keeps hn heach hdot
      refine ⟨hkeeps.suffix.trans hsuffix, fun k tail hfits => ?_⟩
      obtain ⟨hlength, htake, hafter⟩ := hlonger k tail hfits
      rw [readDescent_eq (by rwa [hlength]), hlength, htake, hafter, rest_embed hdot]
      dsimp only
      rw [hkeeps.embed k tail (hfits.of_separator hsuffix (by rw [hdot]; rintro c ⟨⟩; rfl))]
      rfl
  · next hother =>
      cases h
      refine ⟨hsuffix, fun k tail hfits => ?_⟩
      obtain ⟨hlength, htake, hafter⟩ := hlonger k tail hfits
      rw [readDescent_eq (by rwa [hlength]), hlength, htake, hafter]
      split
      · next u hdot =>
          obtain ⟨u', hu'⟩ := exists_rest_of_embed hfits.head (by decide) hdot
          exact absurd hu' (hother u')
      · rfl

theorem readLines_keeps (hn : Steady nested) {s : Segment} (h : readLines nested p = .ok (s, q)) :
    Keeps (readLines nested) p s q := by
  unfold readLines at h
  split at h
  · cases h
  · next stop hstop =>
      obtain ⟨each, heach, heq⟩ := exists_of_map_eq_ok h
      cases heq
      refine ⟨suffix_of_pipeFrom hstop, fun k tail hfits => ?_⟩
      rw [readLines, pipeFrom_embed_of_fits hstop hfits k]
      dsimp only
      rw [upTo_embed, hn heach k]
      rfl

/-- A group, and what is inside it, is delimited without a look at what comes behind. -/
theorem skip_groupEnd_embed {close : Place} (h : groupEnd p = .ok close) (k : Nat) (tail : Text) :
    (close.embed k tail).skip 1 = (close.skip 1).embed k tail := by
  have hne := (length_of_closeFrom h).2
  have hpos := List.length_pos_iff.2 hne
  exact skip_embed k tail hpos

theorem readSelector_keeps (hn : Steady nested) {s : Segment}
    (h : readSelector nested p = .ok (s, q)) {c : Char} {t : Text} (hp : p.rest = c :: t) :
    Keeps (readSelector nested) p s q := by
  unfold readSelector at h
  split at h
  · cases h
  · next close hclose =>
      dsimp only at h
      split at h
      · cases h
      · next hinner =>
          split at h
          · cases h
          · next parts hparts =>
              obtain ⟨entries, hentries, heq⟩ := exists_of_map_eq_ok h
              cases heq
              have hsuffix := (suffix_skip close 1).trans (suffix_of_closeFrom hclose)
              refine ⟨hsuffix, fun k tail hfits => ?_⟩
              rw [readSelector, groupEnd_embed hclose k tail]
              dsimp only
              rw [skip_one_embed hp, upTo_embed, trim_shift, rest_shift,
                if_neg hinner, splitParts_shift hparts k]
              dsimp only
              rw [readEntries_steady hn hentries k, rest_embed hp, hp, skip_groupEnd_embed hclose]
              rfl

/-- What a condition selects, by what stands behind its group: all elements or the first one. -/
def readSelected (nested : PathReader) (c : Condition) (stop : Place) : Reading Segment :=
  match stop.rest with
  | '#' :: '.' :: _ =>
    (readEach nested (stop.skip 1)).map fun (each, q) => (.query c true each, q)
  | '#' :: _ => .ok (.query c true [], stop.skip 1)
  | _ => .ok (.query c false [], stop)

theorem readQuery_of_group {close : Place} {c : Condition}
    (hclose : groupEnd (p.skip 1) = .ok close)
    (hc : condition (((p.skip 1).skip 1).upTo close) = .ok c) :
    readQuery nested condition p = readSelected nested c (close.skip 1) := by
  rw [readQuery]
  dsimp only
  rw [hclose]
  dsimp only
  rw [hc]
  rfl

theorem readSelected_embed (hn : Steady nested) {c : Condition} {stop : Place} {s : Segment}
    (hsuffix : stop.rest <:+ p.rest) (h : readSelected nested c stop = .ok (s, q)) :
    q.rest <:+ p.rest ∧ ∀ k tail, Fits tail p →
      readSelected nested c (stop.embed k tail) = .ok (s, q.embed k tail) := by
  have hsuffix' := (suffix_skip stop 1).trans hsuffix
  unfold readSelected at h
  split at h
  · next u hstop =>
      obtain ⟨⟨each, r⟩, heach, heq⟩ := exists_of_map_eq_ok h
      cases heq
      have hdot := rest_skip_one hstop
      have hkeeps := readEach_keeps hn heach hdot
      refine ⟨hkeeps.suffix.trans hsuffix', fun k tail hfits => ?_⟩
      have hfits' := hfits.of_separator hsuffix' (by rw [hdot]; rintro c ⟨⟩; rfl)
      rw [readSelected, rest_embed hstop]
      dsimp only [List.cons_append]
      rw [skip_one_embed hstop, hkeeps.embed k tail hfits']
      rfl
  · next u hother hstop =>
      cases h
      refine ⟨hsuffix', fun k tail hfits => ?_⟩
      have hskip := skip_one_embed hstop k tail
      rw [readSelected]
      split
      · next w hw =>
          have hdot : ((stop.skip 1).embed k tail).rest = '.' :: w := by
            rw [← hskip]
            exact rest_skip_one hw
          obtain ⟨w', hw'⟩ := exists_rest_of_embed hfits.head (by decide) hdot
          refine absurd ?_ (hother w')
          rwa [rest_skip_one hstop] at hw'
      · rw [hskip]
      · next _ hnone => exact absurd (rest_embed hstop k tail) (hnone _)
  · next hother hother' =>
      cases h
      refine ⟨hsuffix, fun k tail hfits => ?_⟩
      rw [readSelected]
      split
      · next w hw =>
          obtain ⟨w', hw'⟩ := exists_rest_of_embed hfits.head (by decide) hw
          exact absurd hw' (hother' w')
      · next w _ hw =>
          obtain ⟨w', hw'⟩ := exists_rest_of_embed hfits.head (by decide) hw
          exact absurd hw' (hother' w')
      · rfl

theorem readQuery_keeps (hn : Steady nested) (hc : Steady condition) {s : Segment}
    (h : readQuery nested condition p = .ok (s, q)) {t : Text} (hp : p.rest = '#' :: '(' :: t) :
    Keeps (readQuery nested condition) p s q := by
  cases hclose : groupEnd (p.skip 1) with
  | error e =>
      rw [readQuery, hclose] at h
      cases h
  | ok close =>
      cases hcondition : condition (((p.skip 1).skip 1).upTo close) with
      | error e =>
          rw [readQuery] at h
          dsimp only at h
          rw [hclose] at h
          dsimp only at h
          rw [hcondition] at h
          cases h
      | ok c =>
          rw [readQuery_of_group hclose hcondition] at h
          have hsuffix : (close.skip 1).rest <:+ p.rest :=
            ((suffix_skip close 1).trans (suffix_of_closeFrom hclose)).trans (suffix_skip p 1)
          obtain ⟨hq, hembed⟩ := readSelected_embed hn hsuffix h
          refine ⟨hq, fun k tail hfits => ?_⟩
          have hskip := skip_one_embed hp k tail
          have hskip' := skip_one_embed (rest_skip_one hp) k tail
          have hclose' : groupEnd ((p.embed k tail).skip 1) = .ok (close.embed k tail) := by
            rw [hskip]
            exact groupEnd_embed hclose k tail
          rw [readQuery_of_group hclose' (c := c), skip_groupEnd_embed hclose]
          · exact hembed k tail hfits
          · rw [hskip, hskip', upTo_embed]
            exact hc hcondition k

theorem readComponent_hash {t : Text} (hp : p.rest = '#' :: t) :
    readComponent nested condition p =
      match (p.skip 1).rest with
      | [] => .ok (.length, p.skip 1)
      | '|' :: _ => .ok (.length, p.skip 1)
      | '.' :: _ => (readEach nested (p.skip 1)).map fun (each, q) => (.collect each, q)
      | '(' :: _ => readQuery nested condition p
      | _ => readPlain p := by
  rw [rest_skip_one hp, readComponent, hp]
  rfl

theorem readComponent_cons {c : Char} {t : Text} (hp : p.rest = c :: t) (hc : c ≠ '#') :
    readComponent nested condition p =
      if isSeparator c then .error (.emptySegment p.offset)
      else if c == '@' then readTransform p
      else if c == '!' then readLiteral p
      else if isOpening c then readSelector nested p
      else readPlain p := by
  rw [readComponent, hp]
  dsimp only
  rw [if_neg (c := (c == '#') = true) (by simpa using hc)]

/-- A number sign that ends its component stands for the number of elements. -/
theorem readComponent_length {t : Text} (hp : p.rest = '#' :: t)
    (ht : t = [] ∨ t.head? = some '|') :
    readComponent nested condition p = .ok (.length, p.skip 1) := by
  rw [readComponent_hash hp, rest_skip_one hp]
  rcases ht with rfl | hpipe
  · rfl
  · obtain ⟨u, rfl⟩ := List.head?_eq_some_iff.1 hpipe
    rfl

theorem readComponent_collect {t : Text} (hp : p.rest = '#' :: '.' :: t) :
    readComponent nested condition p =
      (readEach nested (p.skip 1)).map fun (each, q) => (.collect each, q) := by
  rw [readComponent_hash hp, rest_skip_one hp]
  rfl

theorem readComponent_query {t : Text} (hp : p.rest = '#' :: '(' :: t) :
    readComponent nested condition p = readQuery nested condition p := by
  rw [readComponent_hash hp, rest_skip_one hp]
  rfl

/-- Before any other character a number sign is the first of a plain component. -/
theorem readComponent_hash_plain {d : Char} {t : Text} (hp : p.rest = '#' :: d :: t)
    (hpipe : d ≠ '|') (hdot : d ≠ '.') (hparen : d ≠ '(') :
    readComponent nested condition p = readPlain p := by
  rw [readComponent_hash hp, rest_skip_one hp]
  split
  · next heq => cases heq
  · next heq => exact absurd (List.cons.inj heq).1 hpipe
  · next heq => exact absurd (List.cons.inj heq).1 hdot
  · next heq => exact absurd (List.cons.inj heq).1 hparen
  · rfl

theorem readComponent_length_keeps {t : Text} (hp : p.rest = '#' :: t)
    (ht : t = [] ∨ t.head? = some '|') :
    Keeps (readComponent nested condition) p .length (p.skip 1) := by
  refine ⟨suffix_skip p 1, fun k tail hfits => ?_⟩
  have ht' : t ++ tail = [] ∨ (t ++ tail).head? = some '|' := by
    rcases ht with rfl | hpipe
    · exact hfits.head
    · exact .inr (by rw [List.head?_append, hpipe, Option.some_or])
  rw [readComponent_length (rest_embed hp k tail) ht', skip_one_embed hp]

theorem readComponent_collect_keeps (hn : Steady nested) {t : Text} (hp : p.rest = '#' :: '.' :: t)
    {each : Path} (heach : readEach nested (p.skip 1) = .ok (each, q)) :
    Keeps (readComponent nested condition) p (.collect each) q := by
  have hsuffix := suffix_skip p 1
  have hdot : (p.skip 1).rest = '.' :: t := rest_skip_one hp
  have hkeeps := readEach_keeps hn heach hdot
  refine ⟨hkeeps.suffix.trans hsuffix, fun k tail hfits => ?_⟩
  have hfits' := hfits.of_separator hsuffix (by rw [hdot]; rintro c ⟨⟩; rfl)
  rw [readComponent_collect (rest_embed hp k tail), skip_one_embed hp,
    hkeeps.embed k tail hfits']
  rfl

theorem readComponent_hash_keeps (hn : Steady nested) (hc : Steady condition) {s : Segment}
    (h : readComponent nested condition p = .ok (s, q)) {t : Text} (hp : p.rest = '#' :: t) :
    Keeps (readComponent nested condition) p s q := by
  by_cases ht : t = [] ∨ t.head? = some '|'
  · rw [readComponent_length hp ht] at h
    cases h
    exact readComponent_length_keeps hp ht
  · obtain ⟨hne, hpipe⟩ := not_or.1 ht
    obtain ⟨d, u, rfl⟩ := List.exists_cons_of_ne_nil hne
    have hpipe : d ≠ '|' := fun heq => hpipe (congrArg some heq)
    by_cases hdot : d = '.'
    · subst hdot
      rw [readComponent_collect hp] at h
      obtain ⟨⟨each, r⟩, heach, heq⟩ := exists_of_map_eq_ok h
      cases heq
      exact readComponent_collect_keeps hn hp heach
    · by_cases hparen : d = '('
      · subst hparen
        rw [readComponent_query hp] at h
        exact (readQuery_keeps hn hc h hp).of_eq fun k tail =>
          readComponent_query (rest_embed hp k tail)
      · rw [readComponent_hash_plain hp hpipe hdot hparen] at h
        exact (readPlain_keeps h).of_eq fun k tail =>
          readComponent_hash_plain (rest_embed hp k tail) hpipe hdot hparen

theorem readComponent_keeps (hn : Steady nested) (hc : Steady condition) {s : Segment}
    (h : readComponent nested condition p = .ok (s, q)) :
    Keeps (readComponent nested condition) p s q := by
  cases hp : p.rest with
  | nil =>
      rw [readComponent, hp] at h
      cases h
  | cons c t =>
      by_cases hhash : c = '#'
      · subst hhash
        exact readComponent_hash_keeps hn hc h hp
      · have hlonger : ∀ k tail, readComponent nested condition (p.embed k tail) = _ :=
          fun k tail => readComponent_cons (rest_embed hp k tail) hhash
        rw [readComponent_cons hp hhash] at h
        split at h
        · cases h
        · next hsep =>
            split at h
            · next hat =>
                refine (readTransform_keeps h (by rw [hp, beq_iff_eq.1 hat])).of_eq fun k tail => ?_
                rw [hlonger, if_neg hsep, if_pos hat]
            · next hat =>
                split at h
                · next hmark =>
                    have hkeeps := readLiteral_keeps h (by rw [hp, beq_iff_eq.1 hmark])
                    refine hkeeps.of_eq fun k tail => ?_
                    rw [hlonger, if_neg hsep, if_neg hat, if_pos hmark]
                · next hmark =>
                    split at h
                    · next hopen =>
                        refine (readSelector_keeps hn h hp).of_eq fun k tail => ?_
                        rw [hlonger, if_neg hsep, if_neg hat, if_neg hmark, if_pos hopen]
                    · next hopen =>
                        refine (readPlain_keeps h).of_eq fun k tail => ?_
                        rw [hlonger, if_neg hsep, if_neg hat, if_neg hmark, if_neg hopen]

end Components

/-! ## Whole paths -/

section Paths

variable {nested : PathReader} {condition : ConditionReader} {p q : Place} {path : Path}

theorem readComponents_of {s : Segment} (h : readComponent nested condition p = .ok (s, q)) :
    readComponents nested condition p = (readRest nested condition q).map (s :: ·) := by
  rw [readComponents]
  split
  · next hs => rw [h] at hs; cases hs
  · next hs => rw [h] at hs; cases hs; rfl

theorem readComponents_cases (h : readComponents nested condition p = .ok path) :
    ∃ s q rest, readComponent nested condition p = .ok (s, q) ∧
      readRest nested condition q = .ok rest ∧ path = s :: rest := by
  rw [readComponents] at h
  split at h
  · cases h
  · next s q hs =>
      obtain ⟨rest, hrest, heq⟩ := exists_of_map_eq_ok h
      exact ⟨s, q, rest, hs, hrest, heq.symm⟩

theorem readRest_nil (h : p.rest = []) : readRest nested condition p = .ok [] := by
  rw [readRest]
  split
  · rfl
  · next hp => rw [h] at hp; cases hp
  · next hp => rw [h] at hp; cases hp

theorem readRest_descent {t : Text} (h : p.rest = '.' :: '.' :: t) {s : Segment}
    (hs : readDescent nested (p.skip 2) = .ok (s, q)) :
    readRest nested condition p = (readRest nested condition q).map (s :: ·) := by
  rw [readRest]
  split
  · next hp => rw [h] at hp; cases hp
  · next hp => rw [h] at hp; cases hp
  · next hp =>
      rw [h] at hp
      cases hp
      rw [if_pos (show ('.' == '.' && '.' == '.') = true from rfl)]
      split
      · next hd => rw [hs] at hd; cases hd
      · next hd => rw [hs] at hd; cases hd; rfl

theorem readRest_separator {c d : Char} {t : Text} (h : p.rest = c :: d :: t)
    (hsep : isSeparator c = true) (hdots : ¬ (c == '.' && d == '.') = true) :
    readRest nested condition p = readComponents nested condition (p.skip 1) := by
  rw [readRest]
  split
  · next hp => rw [h] at hp; cases hp
  · next hp => rw [h] at hp; cases hp
  · next hp =>
      rw [h] at hp
      cases hp
      rw [if_neg hdots, if_pos hsep]

/-- What comes after a component is nothing, a descent, or a separator and further components. -/
theorem readRest_cases (h : readRest nested condition p = .ok path) :
    (p.rest = [] ∧ path = []) ∨
      (∃ t s q rest, p.rest = '.' :: '.' :: t ∧ readDescent nested (p.skip 2) = .ok (s, q) ∧
        readRest nested condition q = .ok rest ∧ path = s :: rest) ∨
      ∃ c d t, p.rest = c :: d :: t ∧ isSeparator c = true ∧ ¬ (c == '.' && d == '.') = true ∧
        readComponents nested condition (p.skip 1) = .ok path := by
  rw [readRest] at h
  split at h
  · next hp =>
      cases h
      exact .inl ⟨hp, rfl⟩
  · split at h <;> cases h
  · next c d t hp =>
      split at h
      · next hdots =>
          rw [Bool.and_eq_true, beq_iff_eq, beq_iff_eq] at hdots
          obtain ⟨rfl, rfl⟩ := hdots
          split at h
          · cases h
          · next s q hs =>
              obtain ⟨rest, hrest, heq⟩ := exists_of_map_eq_ok h
              exact .inr (.inl ⟨t, s, q, rest, hp, hs, hrest, heq.symm⟩)
      · next hdots =>
          split at h
          · next hsep => exact .inr (.inr ⟨c, d, t, hp, hsep, hdots, h⟩)
          · cases h

/-- A component that has been read ends at a separator, or at the end. -/
theorem separator_of_readRest (h : readRest nested condition p = .ok path) :
    ∀ c ∈ p.rest.head?, isSeparator c = true := by
  rcases readRest_cases h with ⟨hp, -⟩ | ⟨t, s, q, rest, hp, -⟩ | ⟨c, d, t, hp, hsep, -⟩
  · rw [hp]
    nofun
  · rw [hp]
    rintro c ⟨⟩
    rfl
  · rw [hp]
    rintro c ⟨⟩
    exact hsep

mutual

/-- Components are read as before, and then what the tail holds. -/
theorem readComponents_embed (hn : Steady nested) (hc : Steady condition) {tail : Text}
    {more : Path} (hmore : ∀ k, readRest nested condition ⟨k, tail⟩ = .ok more) {p : Place}
    {path : Path} (h : readComponents nested condition p = .ok path) (hfits : Fits tail p)
    (k : Nat) :
    readComponents nested condition (p.embed k tail) = .ok (path ++ more) := by
  obtain ⟨s, q, rest, hs, hrest, rfl⟩ := readComponents_cases h
  have hkeeps := readComponent_keeps hn hc hs
  have hfits' := hfits.of_separator hkeeps.suffix (separator_of_readRest hrest)
  have hlength := length_of_readComponent hs
  rw [readComponents_of (hkeeps.embed k tail hfits), readRest_embed hn hc hmore hrest hfits' k]
  rfl
termination_by p.rest.length

/-- So is what comes after a component. -/
theorem readRest_embed (hn : Steady nested) (hc : Steady condition) {tail : Text}
    {more : Path} (hmore : ∀ k, readRest nested condition ⟨k, tail⟩ = .ok more) {p : Place}
    {path : Path} (h : readRest nested condition p = .ok path) (hfits : Fits tail p) (k : Nat) :
    readRest nested condition (p.embed k tail) = .ok (path ++ more) := by
  rcases readRest_cases h with ⟨hp, rfl⟩ | ⟨t, s, q, rest, hp, hs, hrest, rfl⟩ |
    ⟨c, d, t, hp, hsep, hdots, hcomponents⟩
  · rw [embed, hp]
    exact hmore _
  · have hkeeps := readDescent_keeps hn hs
    have hafter := hfits.skip_dots hp
    have hfits' := hafter.of_separator hkeeps.suffix (separator_of_readRest hrest)
    have hlength : q.rest.length < p.rest.length := by
      have := length_of_readDescent hs
      have := p.length_skip_le 2
      omega
    have hs' := hkeeps.embed k tail hafter
    rw [← skip_two_embed hp] at hs'
    have hdots : (p.embed k tail).rest = '.' :: '.' :: (t ++ tail) := rest_embed hp k tail
    rw [readRest_descent hdots hs', readRest_embed hn hc hmore hrest hfits' k]
    rfl
  · have hfits' : Fits tail (p.skip 1) := by
      refine hfits.skip_one hp ?_
      rintro rfl
      cases hsep
    have hlength : (p.skip 1).rest.length < p.rest.length := by
      rw [rest_skip_one hp, hp]
      exact Nat.lt_succ_self _
    have hrest : (p.embed k tail).rest = c :: d :: (t ++ tail) := rest_embed hp k tail
    rw [readRest_separator hrest hsep hdots, skip_one_embed hp]
    exact readComponents_embed hn hc hmore hcomponents hfits' k
termination_by p.rest.length

end

/-- Components are read the same wherever they stand. -/
theorem readComponents_shift (hn : Steady nested) (hc : Steady condition)
    (h : readComponents nested condition p = .ok path) (k : Nat) :
    readComponents nested condition (p.shift k) = .ok path := by
  have hembed := readComponents_embed hn hc (fun _ => readRest_nil rfl) h (fits_nil p) k
  rwa [embed_nil, List.append_nil] at hembed

/-- No component begins with a separator. -/
theorem readComponents_separator {c : Char} {t : Text} (hp : p.rest = c :: t)
    (hsep : isSeparator c = true) : readComponents nested condition p ≠ .ok path := by
  intro h
  obtain ⟨s, q, rest, hs, -⟩ := readComponents_cases h
  rw [readComponent, hp] at hs
  dsimp only at hs
  rw [if_pos hsep] at hs
  cases hs

/-- A path is empty, begins with two dots, or is made of components. -/
theorem readPath_cases {top : Bool} (h : readPath nested condition top p = .ok path) :
    (p.rest = [] ∧ path = []) ∨
      (∃ t s q rest, p.rest = '.' :: '.' :: t ∧
        (if top then readLines nested (p.skip 2) else readDescent nested (p.skip 2)) = .ok (s, q) ∧
          readRest nested condition q = .ok rest ∧ path = s :: rest) ∨
      readComponents nested condition p = .ok path := by
  unfold readPath at h
  split at h
  · next hp =>
      cases h
      exact .inl ⟨hp, rfl⟩
  · next t hp =>
      split at h
      · cases h
      · next s q hs =>
          obtain ⟨rest, hrest, heq⟩ := exists_of_map_eq_ok h
          exact .inr (.inl ⟨t, s, q, rest, hp, hs, hrest, heq.symm⟩)
  · exact .inr (.inr h)

/-- Two dots in front of a path: the values of a stream, or a descent. -/
theorem readLeading_keeps (hn : Steady nested) {top : Bool} {s : Segment}
    (h : (if top then readLines nested p else readDescent nested p) = .ok (s, q)) :
    Keeps (fun p => if top then readLines nested p else readDescent nested p) p s q := by
  cases top with
  | true => exact readLines_keeps hn h
  | false => exact readDescent_keeps hn h

theorem readPath_embed (hn : Steady nested) (hc : Steady condition) {tail : Text} {more : Path}
    (hmore : ∀ k, readRest nested condition ⟨k, tail⟩ = .ok more) {top : Bool}
    (h : readPath nested condition top p = .ok path) (hp : p.rest ≠ []) (hfits : Fits tail p)
    (k : Nat) : readPath nested condition top (p.embed k tail) = .ok (path ++ more) := by
  rcases readPath_cases h with ⟨hnil, -⟩ | ⟨t, s, q, rest, hdots, hs, hrest, rfl⟩ | hcomponents
  · exact absurd hnil hp
  · have hkeeps := readLeading_keeps hn hs
    have hafter := hfits.skip_dots hdots
    have hfits' := hafter.of_separator hkeeps.suffix (separator_of_readRest hrest)
    rw [readPath, rest_embed hdots, skip_two_embed hdots, hkeeps.embed k tail hafter]
    dsimp only [List.cons_append]
    rw [readRest_embed hn hc hmore hrest hfits' k]
    rfl
  · rw [readPath]
    split
    · next hnil =>
        rw [embed, List.append_eq_nil_iff] at hnil
        exact absurd hnil.1 hp
    · next t hdots =>
        obtain ⟨u, hu⟩ := exists_rest_of_embed hfits.head (by decide) hdots
        exact absurd hcomponents (readComponents_separator hu rfl)
    · exact readComponents_embed hn hc hmore hcomponents hfits k

theorem readPath_steady (hn : Steady nested) (hc : Steady condition) :
    Steady (readPath nested condition false) := by
  intro p path h k
  by_cases hp : p.rest = []
  · rw [readPath, hp] at h
    rw [readPath, rest_shift, hp]
    exact h
  · have hembed := readPath_embed hn hc (fun _ => readRest_nil rfl) h hp (fits_nil p) k
    rwa [embed_nil, List.append_nil] at hembed

end Paths

/-- At every depth, paths and conditions are read the same wherever they stand. -/
theorem within_steady (levels : Nat) :
    Steady (compileWithin levels false) ∧ Steady (conditionWithin levels) := by
  induction levels with
  | zero =>
      constructor
      · intro p path h
        rw [compileWithin] at h
        cases h
      · intro p condition h
        rw [conditionWithin] at h
        cases h
  | succ levels ih =>
      constructor
      · intro p path h k
        rw [compileWithin] at h ⊢
        exact readPath_steady ih.1 ih.2 h k
      · intro p condition h k
        rw [conditionWithin] at h ⊢
        exact readCondition_steady ih.1 h k

/-! ## Paths one after another -/

theorem ne_nil_of_compile {t : Text} {path : Path} (h : Path.compile t = .ok path) : t ≠ [] := by
  rintro rfl
  cases h

theorem compile_eq_readPath {t : Text} (ht : t ≠ []) :
    Path.compile t =
      readPath (compileWithin maxNesting false) (conditionWithin maxNesting) true
        (Place.start t) := by
  rw [Path.compile, if_neg (by simpa using ht), compileWithin]

/-- A path has at least one segment. -/
theorem segments_ne_nil {t : Text} {path : Path} (h : Path.compile t = .ok path) : path ≠ [] := by
  have ht := ne_nil_of_compile h
  rw [compile_eq_readPath ht] at h
  rcases readPath_cases h with ⟨hnil, -⟩ | ⟨t, s, q, rest, -, -, -, rfl⟩ | hcomponents
  · exact absurd hnil ht
  · exact List.cons_ne_nil _ _
  · obtain ⟨s, q, rest, -, -, rfl⟩ := readComponents_cases hcomponents
    exact List.cons_ne_nil _ _

/-! ### Where the values of a stream may stand -/

/-- A path that begins with the values of a stream begins with two dots. -/
theorem dots_of_compile_lines {t : Text} {each rest : Path}
    (h : Path.compile t = .ok (.lines each :: rest)) : ['.', '.'] <+: t := by
  have ht := ne_nil_of_compile h
  rw [compile_eq_readPath ht] at h
  rcases readPath_cases h with ⟨hnil, -⟩ | ⟨tail, s, q, more, hdots, -⟩ | hcomponents
  · exact absurd hnil ht
  · exact ⟨tail, hdots.symm⟩
  · obtain ⟨s, q, more, hs, -, heq⟩ := readComponents_cases hcomponents
    cases heq
    exact absurd rfl (ne_lines_of_readComponent hs each)

/--
Two paths with a pipe between them are one path, with the segments of both, if the first closes what
it opens. The second must not begin with two dots, which mean something else at the top of a path.
-/
theorem compile_append {first second : Text} {a b : Path} (hfirst : Path.compile first = .ok a)
    (hsecond : Path.compile second = .ok b) (hclosed : Path.isClosed first = true)
    (hdots : ¬ ['.', '.'] <+: second) :
    Path.compile (first ++ '|' :: second) = .ok (a ++ b) := by
  have hsteady := within_steady maxNesting
  have hfirst' := ne_nil_of_compile hfirst
  rw [compile_eq_readPath hfirst'] at hfirst
  have hsecond' := ne_nil_of_compile hsecond
  rw [compile_eq_readPath hsecond'] at hsecond
  have hcomponents : readComponents (compileWithin maxNesting false) (conditionWithin maxNesting)
      (Place.start second) = .ok b := by
    rcases readPath_cases hsecond with ⟨hnil, -⟩ | ⟨t, s, q, rest, ht, -⟩ | hcomponents
    · exact absurd hnil hsecond'
    · exact absurd ⟨t, ht.symm⟩ hdots
    · exact hcomponents
  have hmore : ∀ k, readRest (compileWithin maxNesting false) (conditionWithin maxNesting)
      ⟨k, '|' :: second⟩ = .ok b := by
    intro k
    obtain ⟨d, t, rfl⟩ := List.exists_cons_of_ne_nil hsecond'
    rw [readRest_separator (p := ⟨k, '|' :: d :: t⟩) rfl rfl (by simp)]
    exact readComponents_shift hsteady.1 hsteady.2 hcomponents (k + 1)
  have hfits : Fits ('|' :: second) (Place.start first) := .inr ⟨rfl, 0, false, hclosed⟩
  have hembed := readPath_embed hsteady.1 hsteady.2 hmore hfirst hfirst' hfits 0
  rw [compile_eq_readPath (by simp)]
  exact hembed

end DotPath
