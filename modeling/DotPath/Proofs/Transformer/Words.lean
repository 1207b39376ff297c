import DotPath.Proofs.Evaluator.Projection
import DotPath.Proofs.Transformer.Quoting

/-!
# Words of a text

A text is read once for its words, with a look at the character before and the one ahead. A word is
finished where a character is neither letter nor number, and where the case changes, and the letters
of the word that is open are kept aside until then. None of them is lost and none is taken twice:
the words one after the other are the text without what separates them.

Words in lowercase that are joined again are read as the same words, if no letter of them begins a
word by its case or has a lowercase form of its own. In ASCII this is so for all words. So a text
that has been put into snake case stays as it is when it is put into snake case again.

## Main definitions

* `Text.isSettled`: letters and numbers that begin no word by their case and are in lowercase.

## Main results

* `Text.flatten_wordsFrom`, `Text.ne_nil_of_mem_wordsFrom`: what the words consist of.
* `Text.wordsFrom_intercalate`, `Text.words_joinWords`: joined words are read as they were.
* `Text.joinWords_joinWords`: so joining them twice is joining them once.
* `Transformer.words_settle`: the words of any text, and both transformers applied twice.
-/

namespace DotPath

namespace Text

/-! ## Reading words -/

section Words

variable {previous : Option Char} {letters t : Text} {others : List Text} {c : Char}

theorem flatten_consWord (letters : Text) (others : List Text) :
    (consWord letters others).flatten = letters.reverse ++ others.flatten := by
  rw [consWord]
  split
  · next hempty =>
      rw [List.isEmpty_iff.1 hempty]
      rfl
  · rfl

theorem consWord_of_ne_nil (h : letters ≠ []) :
    consWord letters others = letters.reverse :: others := by
  rw [consWord, if_neg fun hempty => h (List.isEmpty_iff.1 hempty)]

theorem ne_nil_of_mem_consWord (h : ∀ w ∈ others, w ≠ []) :
    ∀ w ∈ consWord letters others, w ≠ [] := by
  intro w hw
  by_cases hempty : letters = []
  · rw [hempty] at hw
    exact h w hw
  · rw [consWord_of_ne_nil hempty] at hw
    rcases List.mem_cons.1 hw with rfl | hw
    · simpa using hempty
    · exact h w hw

/-- What is neither letter nor number finishes the open word. -/
theorem wordsFrom_separator (hc : isAlphanumeric c = false) :
    wordsFrom previous letters (c :: t) = consWord letters (wordsFrom (some c) [] t) := by
  rw [wordsFrom, hc]
  rfl

/-- So does a letter that begins a word, which it is the first letter of. -/
theorem wordsFrom_start (hc : isAlphanumeric c = true) (hstart : startsWord previous c t = true) :
    wordsFrom previous letters (c :: t) = consWord letters (wordsFrom (some c) [c] t) := by
  rw [wordsFrom, hc, hstart]
  rfl

/-- Any other letter belongs to the open word. -/
theorem wordsFrom_letter (hc : isAlphanumeric c = true) (hstart : startsWord previous c t = false) :
    wordsFrom previous letters (c :: t) = wordsFrom (some c) (c :: letters) t := by
  rw [wordsFrom, hc, hstart]
  rfl

/-- The words consist of the letters of the open word, and of the letters and numbers ahead. -/
theorem flatten_wordsFrom (previous : Option Char) (letters t : Text) :
    (wordsFrom previous letters t).flatten = letters.reverse ++ t.filter isAlphanumeric := by
  induction t generalizing previous letters with
  | nil => exact flatten_consWord letters []
  | cons c t ih =>
      cases hc : isAlphanumeric c with
      | false =>
          rw [wordsFrom_separator hc, flatten_consWord, ih, List.filter_cons, hc]
          rfl
      | true =>
          rw [List.filter_cons, hc, if_pos rfl]
          cases hstart : startsWord previous c t with
          | true =>
              rw [wordsFrom_start hc hstart, flatten_consWord, ih]
              rfl
          | false =>
              rw [wordsFrom_letter hc hstart, ih, List.reverse_cons, List.append_assoc]
              rfl

/-- No word is empty. -/
theorem ne_nil_of_mem_wordsFrom (previous : Option Char) (letters t : Text) :
    ∀ w ∈ wordsFrom previous letters t, w ≠ [] := by
  induction t generalizing previous letters with
  | nil => exact ne_nil_of_mem_consWord fun w hw => by cases hw
  | cons c t ih =>
      cases hc : isAlphanumeric c with
      | false =>
          rw [wordsFrom_separator hc]
          exact ne_nil_of_mem_consWord (ih _ _)
      | true =>
          cases hstart : startsWord previous c t with
          | true =>
              rw [wordsFrom_start hc hstart]
              exact ne_nil_of_mem_consWord (ih _ _)
          | false =>
              rw [wordsFrom_letter hc hstart]
              exact ih _ _

theorem flatten_words (t : Text) : (words t).flatten = t.filter isAlphanumeric :=
  flatten_wordsFrom none [] t

/-- The characters of a word are letters and numbers of the text. -/
theorem mem_of_mem_words {w : Text} (hw : w ∈ words t) (hc : c ∈ w) :
    c ∈ t ∧ isAlphanumeric c = true := by
  have hmem : c ∈ (words t).flatten := List.mem_flatten.2 ⟨w, hw, hc⟩
  rw [flatten_words] at hmem
  exact List.mem_filter.1 hmem

end Words

/-! ## Settled words -/

/-- Whether a character is a letter or number that begins no word and is in lowercase. -/
def isSettled (c : Char) : Bool :=
  isAlphanumeric c && !isUppercase c && lowerOf c == [c]

section Settled

variable {previous : Option Char} {letters t w : Text} {c s : Char}

theorem isSettled_iff :
    isSettled c = true ↔ isAlphanumeric c = true ∧ isUppercase c = false ∧ lowerOf c = [c] := by
  simp [isSettled, and_assoc]

/-- Only capitals begin a word by their case. -/
theorem startsWord_of_settled (hc : isSettled c = true) : startsWord previous c t = false := by
  obtain ⟨-, hupper, -⟩ := isSettled_iff.1 hc
  cases previous with
  | none => rfl
  | some p => rw [startsWord, hupper, Bool.false_and]

/-- Settled characters all go into the open word. -/
theorem exists_wordsFrom_append (hw : ∀ c ∈ w, isSettled c = true) (previous : Option Char)
    (letters t : Text) :
    ∃ last, wordsFrom previous letters (w ++ t) = wordsFrom last (w.reverse ++ letters) t := by
  induction w generalizing previous letters with
  | nil => exact ⟨previous, rfl⟩
  | cons c w ih =>
      have hc := hw c List.mem_cons_self
      obtain ⟨last, hlast⟩ := ih (fun d hd => hw d (List.mem_cons_of_mem c hd)) (some c)
        (c :: letters)
      refine ⟨last, ?_⟩
      rw [List.cons_append, wordsFrom_letter (isSettled_iff.1 hc).1 (startsWord_of_settled hc),
        hlast, List.reverse_cons, List.append_assoc]
      rfl

/-- Settled words with a separator between them are read as these words. -/
theorem wordsFrom_intercalate (hs : isAlphanumeric s = false) {ws : List Text}
    (hws : ∀ w ∈ ws, w ≠ [] ∧ ∀ c ∈ w, isSettled c = true) (previous : Option Char) :
    wordsFrom previous [] (List.intercalate [s] ws) = ws := by
  induction ws generalizing previous with
  | nil => rfl
  | cons w ws ih =>
      obtain ⟨hne, hw⟩ := hws w List.mem_cons_self
      have hword : ∀ others, consWord (w.reverse ++ []) others = w :: others := by
        intro others
        rw [List.append_nil, consWord_of_ne_nil (by simpa using hne), List.reverse_reverse]
      cases ws with
      | nil =>
          obtain ⟨last, hlast⟩ := exists_wordsFrom_append hw previous [] []
          rw [List.append_nil] at hlast
          rw [List.intercalate_singleton, hlast]
          exact hword []
      | cons v ws =>
          obtain ⟨last, hlast⟩ :=
            exists_wordsFrom_append hw previous [] (s :: List.intercalate [s] (v :: ws))
          rw [List.intercalate_cons_cons, List.append_assoc, List.singleton_append, hlast,
            wordsFrom_separator hs, hword, ih fun u hu => hws u (List.mem_cons_of_mem w hu)]

/-! ### Lowercase -/

/-- Without a capital sigma, every character is lowered by itself. -/
theorem toLowerAfter_of_no_sigma (ht : ∀ c ∈ t, c ≠ 'Σ') (before : Text) :
    toLowerAfter before t = t.flatMap lowerOf := by
  induction t generalizing before with
  | nil => rfl
  | cons c t ih =>
      rw [toLowerAfter, ih fun d hd => ht d (List.mem_cons_of_mem c hd), List.flatMap_cons,
        beq_false_of_ne (ht c List.mem_cons_self)]
      rfl

theorem toLower_of_settled (hw : ∀ c ∈ w, isSettled c = true) : toLower w = w := by
  have hsigma : ∀ c ∈ w, c ≠ 'Σ' := by
    rintro c hc rfl
    exact absurd (hw _ hc) (by decide +kernel)
  rw [toLower, toLowerAfter_of_no_sigma hsigma]
  have hself : ∀ c ∈ w, lowerOf c = [c] := fun c hc => (isSettled_iff.1 (hw c hc)).2.2
  rw [List.flatMap_congr hself]
  exact List.flatMap_singleton' w

/-- The letters and numbers of ASCII are settled in lowercase. -/
theorem isSettled_toLower (hc : c.toNat < 0x80) (h : isAlphanumeric c = true) :
    isSettled c.toLower = true := by
  have hall : ∀ n : Fin 0x80, isAlphanumeric (Char.ofNat n) = true →
      isSettled (Char.ofNat n).toLower = true := by
    decide +kernel
  have hsettled := hall ⟨c.toNat, hc⟩
  dsimp only at hsettled
  rw [Char.ofNat_toNat] at hsettled
  exact hsettled h

/-- ASCII is lowered character by character. -/
theorem toLower_of_ascii (ht : ∀ c ∈ t, c.toNat < 0x80) : toLower t = t.map Char.toLower := by
  have hsigma : ∀ c ∈ t, c ≠ 'Σ' := by
    rintro c hc rfl
    exact absurd (ht _ hc) (by decide)
  have hlower : ∀ c ∈ t, lowerOf c = [c.toLower] := fun c hc => if_pos (ht c hc)
  rw [toLower, toLowerAfter_of_no_sigma hsigma, List.flatMap_congr hlower, List.map_eq_flatMap]

/-! ### Joined words -/

/-- The words of ASCII are settled in lowercase. -/
theorem settled_of_mem_words (ht : ∀ c ∈ t, c.toNat < 0x80) (hw : w ∈ words t) :
    toLower w ≠ [] ∧ ∀ c ∈ toLower w, isSettled c = true := by
  have hword := fun c hc => mem_of_mem_words (c := c) hw hc
  rw [toLower_of_ascii fun c hc => ht c (hword c hc).1]
  constructor
  · intro hempty
    exact ne_nil_of_mem_wordsFrom none [] t w hw (List.map_eq_nil_iff.1 hempty)
  · intro d hd
    obtain ⟨c, hc, rfl⟩ := List.mem_map.1 hd
    exact isSettled_toLower (ht c (hword c hc).1) (hword c hc).2

/-- The words of ASCII, joined in lowercase, are read as these words in lowercase. -/
theorem words_joinWords (hs : isAlphanumeric s = false) (ht : ∀ c ∈ t, c.toNat < 0x80) :
    words (joinWords [s] t) = (words t).map toLower := by
  refine wordsFrom_intercalate hs (fun u hu => ?_) none
  obtain ⟨w, hw, rfl⟩ := List.mem_map.1 hu
  exact settled_of_mem_words ht hw

/-- Of the words of ASCII, joined once, joining makes what it makes of the text itself. -/
theorem joinWords_joinWords (hs : isAlphanumeric s = false) (ht : ∀ c ∈ t, c.toNat < 0x80)
    (separator : Text) : joinWords separator (joinWords [s] t) = joinWords separator t := by
  have hlower : ∀ w ∈ words t, toLower (toLower w) = toLower w := fun w hw =>
    toLower_of_settled (settled_of_mem_words ht hw).2
  rw [joinWords, words_joinWords hs ht, List.map_map, joinWords]
  congr 1
  exact List.map_congr_left hlower

/-- Beyond ASCII it is not so: the dot above a capital I is a mark of its own in lowercase. -/
example : joinWords ['_'] "İa".toList = "i̇a".toList ∧
    joinWords ['_'] (joinWords ['_'] "İa".toList) = "i_a".toList := by
  decide +kernel

end Settled

end Text

/-! ## Transformers applied again -/

open Json Selection

namespace Evaluator

variable {ev : Evaluator} {name made : Text} {f : Text → Text → Text} {kind : Kind}
  {cur : Selection}

/-- What a transformer makes, if it is one value, is a text of its own. -/
theorem step_transform_of_fills (hon : ev.options.transformers = true)
    (hfind : ev.transformer? name = some f) (hmade : f cur.raw [] = made) (h : Fills kind made)
    (source : Text) :
    ev.step cur (.transform name none source) = ⟨kind, made, false, none, []⟩ := by
  rw [step, applyTransformer, if_pos hon, hfind]
  dsimp only [Option.getD_none]
  rw [hmade, ofText_of_fills h, derivedFrom]
  split <;> rfl

/-- A transformer that would make the same of what it has made may as well be applied once. -/
theorem resolve_transform_again (hon : ev.options.transformers = true)
    (hfind : ev.transformer? name = some f) (hmade : f cur.raw [] = made) (h : Fills kind made)
    (hagain : f made [] = made) (source : Text) :
    ev.resolve cur [.transform name none source, .transform name none source] =
      ev.resolve cur [.transform name none source] := by
  have hfirst := step_transform_of_fills hon hfind hmade h source
  have hsecond : ev.step ⟨kind, made, false, none, []⟩ (.transform name none source) =
      ⟨kind, made, false, none, []⟩ := step_transform_of_fills hon hfind hagain h source
  have hpresent : (⟨kind, made, false, none, []⟩ : Selection).isPresent = true := by
    simp [isPresent, h.ne_nil]
  simp only [resolve, hfirst, hsecond, hpresent, Bool.not_true, Bool.false_and,
    Bool.false_eq_true, if_false]

end Evaluator

namespace Transformer

variable {f : Text → Text} {json : Text}

theorem mapString_of_string (h : (document json).kind = .string) :
    mapString f json = Quoted.encode (f (document json).text) := by
  rw [mapString]
  exact if_pos (beq_iff_eq.2 h)

theorem mapString_of_ne_string (h : (document json).kind ≠ .string) : mapString f json = json := by
  rw [mapString]
  exact if_neg fun hkind => h (beq_iff_eq.1 hkind)

/-- What does nothing to the text that it has made does nothing to the string either. -/
theorem mapString_again
    (h : (document json).kind = .string → f (f (document json).text) = f (document json).text) :
    mapString f (mapString f json) = mapString f json := by
  by_cases hkind : (document json).kind = .string
  · have hquoted : (document (Quoted.encode (f (document json).text))).kind = .string := by
      rw [document_encode]
    rw [mapString_of_string hkind, mapString_of_string hquoted, text_document_encode, h hkind]
  · rw [mapString_of_ne_string hkind, mapString_of_ne_string hkind]

/-- Of one value a function on strings makes one value. -/
theorem exists_fills_mapString {kind : Kind} (h : Fills kind json) :
    ∃ kind', Fills kind' (mapString f json) := by
  by_cases hkind : (document json).kind = .string
  · rw [mapString_of_string hkind]
    exact ⟨.string, (Value.string _).tree.fills⟩
  · rw [mapString_of_ne_string hkind]
    exact ⟨kind, h⟩

/-- The first value of a document, by itself, is of the same kind and stands for the same text. -/
theorem document_raw {v : Occurrence} (h : firstValue? json = some v) :
    (document v.raw).kind = (document json).kind ∧
      (document v.raw).text = (document json).text := by
  have hvalue := (isIn_of_firstValue? h).2.firstValue?
  rw [document, document, h, hvalue]
  exact ⟨rfl, rfl⟩

/-- A path that names a transformer of strings twice selects what it selects with the name once. -/
theorem get_transform_again {ev : Evaluator} {name source : Text} {once twice : Text}
    (hon : ev.options.transformers = true)
    (hfind : ev.transformer? name = some fun raw _ => mapString f raw)
    (honce : Path.compile once = .ok [.transform name none source])
    (htwice : Path.compile twice = .ok [.transform name none source, .transform name none source])
    (h : (document json).kind = .string → f (f (document json).text) = f (document json).text) :
    ev.get json twice = ev.get json once := by
  rw [Evaluator.get, Evaluator.get, honce, htwice]
  dsimp only
  rw [ev.eval_of_ne_lines _ (by rintro _ ⟨⟩), ev.eval_of_ne_lines _ (by rintro _ ⟨⟩)]
  cases hfirst : firstValue? json with
  | none =>
      have hmissing : document json = missing := by rw [document, hfirst]
      have hnone : ∀ rest, ev.resolve missing (.transform name none source :: rest) = missing :=
        fun rest => ev.resolve_missing (by rintro s ⟨⟩; rfl)
      rw [hmissing, hnone, hnone]
  | some v =>
      have hview : document json = ofOccurrence (some 0) v := by rw [document, hfirst]
      obtain ⟨hkind, htext⟩ := document_raw hfirst
      have hagain : mapString f (mapString f v.raw) = mapString f v.raw := by
        apply mapString_again
        rw [hkind, htext]
        exact h
      obtain ⟨kind, hmade⟩ := exists_fills_mapString (f := f) (isIn_of_firstValue? hfirst).2
      rw [hview]
      have hraw : (ofOccurrence (some 0) v).raw = v.raw := rfl
      exact Evaluator.resolve_transform_again hon hfind (congrArg (mapString f) hraw) hmade hagain
        source

/-! ### By name -/

section CaseNames

variable {name : Text} (hname : name = "snake".toList ∨ name = "kebab".toList)

include hname

/-- Both transformers join words by a character that is neither letter nor number. -/
theorem exists_separator : ∃ s, Text.isAlphanumeric s = false ∧
    (Builtin.find? name).map (·.transformer) =
      some (.withoutArgument (mapString (Text.joinWords [s]))) := by
  rcases hname with rfl | rfl
  · exact ⟨'_', by decide +kernel, rfl⟩
  · exact ⟨'-', by decide +kernel, rfl⟩

theorem compile_caseName :
    Path.compile ('@' :: name) = .ok [.transform name none ('@' :: name)] ∧
      Path.compile ('@' :: (name ++ '|' :: '@' :: name)) =
        .ok [.transform name none ('@' :: name), .transform name none ('@' :: name)] := by
  rcases hname with rfl | rfl
  · exact ⟨by with_unfolding_all rfl, by with_unfolding_all rfl⟩
  · exact ⟨by with_unfolding_all rfl, by with_unfolding_all rfl⟩

end CaseNames

/--
The words of a text are not empty, and one after the other they are its letters and numbers. If a
JSON text is a string of ASCII characters, however they are spelled, then the words of what snake
case and kebab case make of it are its words in lowercase, and each of the two leaves as it is what
it has made. What is no string, both leave as it is. This holds for every argument, and in paths, in
all registries that have no own transformers under the two names.
-/
theorem words_settle (env : Environment) {registry : Registry}
    (hsnake : registry.hasOwn "snake".toList = false)
    (hkebab : registry.hasOwn "kebab".toList = false) :
    (∀ t, (∀ w ∈ Text.words t, w ≠ []) ∧
      (Text.words t).flatten = t.filter Text.isAlphanumeric) ∧
    ∀ name, name = "snake".toList ∨ name = "kebab".toList → ∀ json,
      ((document json).kind = .string → ∀ c ∈ (document json).text, c.toNat < 0x80) →
        (∀ argument, (document json).kind = .string →
          Text.words (document (env.apply registry json name argument)).text =
            (Text.words (document json).text).map Text.toLower) ∧
        (∀ argument argument',
          env.apply registry (env.apply registry json name argument) name argument' =
            env.apply registry json name argument) ∧
        ∀ options : Options, options.transformers = true →
          (env.evaluator registry options).get json ('@' :: (name ++ '|' :: '@' :: name)) =
            (env.evaluator registry options).get json ('@' :: name) := by
  refine ⟨fun t => ⟨Text.ne_nil_of_mem_wordsFrom none [] t, Text.flatten_words t⟩, ?_⟩
  intro name hname json hascii
  obtain ⟨s, hs, hbuiltin⟩ := exists_separator hname
  have hown : registry.hasOwn name = false := by
    rcases hname with rfl | rfl
    · exact hsnake
    · exact hkebab
  have hfind : registry.find? name = some (.withoutArgument (mapString (Text.joinWords [s]))) :=
    (Registry.find?_of_hasOwn hown).trans hbuiltin
  have happly : ∀ t argument, env.apply registry t name argument =
      mapString (Text.joinWords [s]) t := by
    intro t argument
    rw [Environment.apply, Registry.apply, hfind]
    rfl
  have hagain : (document json).kind = .string →
      Text.joinWords [s] (Text.joinWords [s] (document json).text) =
        Text.joinWords [s] (document json).text :=
    fun hkind => Text.joinWords_joinWords hs (hascii hkind) [s]
  refine ⟨fun argument hkind => ?_, fun argument argument' => ?_, fun options hon => ?_⟩
  · rw [happly, mapString_of_string hkind, text_document_encode,
      Text.words_joinWords hs (hascii hkind)]
  · rw [happly, happly]
    exact mapString_again hagain
  · obtain ⟨honce, htwice⟩ := compile_caseName hname
    have htransformer : (env.evaluator registry options).transformer? name =
        some fun raw _ => mapString (Text.joinWords [s]) raw :=
      congrArg (Option.map fun f : Transformer => f env.follow) hfind
    exact get_transform_again hon htransformer honce htwice hagain

/-- Capitals and a number, and a separator that is written as an escape. -/
theorem words_settle_of_mixed :
    Registry.empty.hasOwn "snake".toList = false ∧ Registry.empty.hasOwn "kebab".toList = false ∧
      (∀ c ∈ "XMLNode\tv2".toList, c.toNat < 0x80) ∧
      Quoted.encode "XMLNode\tv2".toList = "\"XMLNode\\tv2\"".toList ∧
      Text.words "XMLNode\tv2".toList = ["XML".toList, "Node".toList, "v2".toList] ∧
      (Environment.initial.get (Quoted.encode "XMLNode\tv2".toList) "@snake|@snake".toList).raw =
        "\"xml_node_v2\"".toList := by
  have hsnake : Registry.empty.hasOwn "snake".toList = false := rfl
  have hkebab : Registry.empty.hasOwn "kebab".toList = false := rfl
  have hall : "XMLNode\tv2".toList.all (fun c => c.toNat < 0x80) = true := by decide
  have hascii : ∀ c ∈ "XMLNode\tv2".toList, c.toNat < 0x80 := fun c hc =>
    of_decide_eq_true (List.all_eq_true.1 hall c hc)
  obtain ⟨-, hnames⟩ := words_settle .initial hsnake hkebab
  obtain ⟨-, -, htwice⟩ := hnames "snake".toList (.inl rfl)
    (Quoted.encode "XMLNode\tv2".toList) fun _ => by
      rw [text_document_encode]
      exact hascii
  have hpath : "@snake|@snake".toList =
      '@' :: ("snake".toList ++ '|' :: '@' :: "snake".toList) := rfl
  refine ⟨hsnake, hkebab, hascii, by decide +kernel, by decide +kernel, ?_⟩
  rw [hpath]
  exact (congrArg Selection.raw (htwice Environment.initial.options rfl)).trans (by decide +kernel)

end Transformer

end DotPath
