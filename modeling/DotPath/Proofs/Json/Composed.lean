import DotPath.Proofs.Json.Items

/-!
# Texts that are put together

Counts, arrays and objects that are made anew are written as texts and scanned like any others. The
parts that they are made of are spelled by the strict grammar, and an array of values is a value.

## Main results

* `isNumber_ofNat`: a natural number in decimal is a number of the grammar.
* `isBody_flatMap_escape`: a text that is escaped is the body of a string.
* `fills_composeArray`: an array of values is found whole.
-/

namespace DotPath.Json

/-! ## Numbers -/

/-- The first digit of a positive number is no zero. -/
theorem head_toDigits {n : Nat} (hn : 0 < n) :
    ∃ c s, Nat.toDigits 10 n = c :: s ∧ c ≠ '0' := by
  induction n using Nat.strongRecOn with
  | ind n ih =>
      rw [Nat.toDigits_eq_if (by decide)]
      split
      · next hlt =>
          refine ⟨n.digitChar, [], rfl, ?_⟩
          have : ∀ k : Fin 10, 0 < k.val → k.val.digitChar ≠ '0' := by decide
          exact this ⟨n, hlt⟩ hn
      · next hge =>
          obtain ⟨c, s, hdigits, hc⟩ := ih (n / 10) (Nat.div_lt_self hn (by decide))
            (Nat.div_pos (Nat.le_of_not_lt hge) (by decide))
          exact ⟨c, s ++ [(n % 10).digitChar], by rw [hdigits]; rfl, hc⟩

theorem isDigits_ofNat (n : Nat) : IsDigits (Text.ofNat n) :=
  ⟨Nat.toDigits_ne_nil, fun _ hc => Nat.isDigit_of_mem_toDigits (by decide) (by decide) hc⟩

/-- A natural number in decimal is written without leading zeros. -/
theorem isWhole_ofNat (n : Nat) : IsWhole (Text.ofNat n) := by
  have hdigits := isDigits_ofNat n
  by_cases hn : 0 < n
  · obtain ⟨c, s, hsource, hc⟩ := head_toDigits hn
    rw [Text.ofNat, hsource] at hdigits ⊢
    exact .digits hc hdigits
  · obtain rfl : n = 0 := by omega
    exact .zero

theorem isNumber_ofNat (n : Nat) : IsNumber (Text.ofNat n) := by
  have hnumber := IsNumber.mk (.inl rfl) (isWhole_ofNat n) .absent .absent
  simpa using hnumber

/-! ## Strings -/

theorem IsBody.append {s t : Text} (hs : IsBody s) (ht : IsBody t) : IsBody (s ++ t) := by
  induction hs with
  | nil => exact ht
  | plain hc hq hb _ ih => exact .plain hc hq hb ih
  | escape hc _ ih => exact .escape hc ih
  | unicode ha hb hc hd _ ih => exact .unicode ha hb hc hd ih

private theorem isHexDigit_hexDigit (n : Nat) : isHexDigit (Quoted.hexDigit n) := by
  have : ∀ k : Fin 16, isHexDigit (Nat.digitChar k.val) = true := by decide
  exact this ⟨n % 16, Nat.mod_lt n (by decide)⟩

/-- However a character is written inside a literal, the grammar allows it there. -/
theorem isBody_escape (c : Char) : IsBody (Quoted.escape c) := by
  have letter : ∀ {d : Char}, d ∈ escapeLetters → IsBody ['\\', d] := fun hd => .escape hd .nil
  unfold Quoted.escape
  split
  · exact letter (by decide)
  · next hq =>
      split
      · exact letter (by decide)
      · next hb =>
          iterate 5
            split
            · exact letter (by decide)
          split
          · exact .unicode rfl rfl (isHexDigit_hexDigit _) (isHexDigit_hexDigit _) .nil
          · next hctrl =>
              exact .plain (Nat.le_of_not_lt hctrl) (by simpa using hq) (by simpa using hb) .nil

theorem isBody_flatMap_escape (t : Text) : IsBody (t.flatMap Quoted.escape) := by
  induction t with
  | nil => exact .nil
  | cons c t ih =>
      rw [List.flatMap_cons]
      exact (isBody_escape c).append ih

/-- A name as the key of a member. -/
def Key.ofName (name : Text) : Key :=
  ⟨name.flatMap Quoted.escape, isBody_flatMap_escape name⟩

theorem Key.source_ofName (name : Text) : (Key.ofName name).source = Quoted.encode name := by
  rfl

/-! ## Containers -/

section Containers

variable {α : Type} {kind : α → Kind} {write : α → Text}

theorem Item.passes {i : Item α} (h : Passes (write i.value)) : Passes (i.source write) :=
  (passes_spaces i.before.2).append (h.append (passes_spaces i.after.2))

theorem Entry.passes {e : Entry α} (h : Passes (write e.item.value)) : Passes (e.source write) := by
  have hcolon : Passes [':'] := passes_singleton rfl
  have hrest := (passes_spaces e.gap.2).append (hcolon.append (e.item.passes h))
  exact (passes_spaces e.before.2).append (e.key.spelled.isRun.passes.append hrest)

theorem passes_tailSource {items : List (Item α)} (h : ∀ i ∈ items, Passes (write i.value)) :
    Passes (tailSource write items) := by
  have hcomma : Passes [','] := passes_singleton rfl
  induction items with
  | nil => exact passes_nil
  | cons i items ih =>
      have hi := i.passes (h i List.mem_cons_self)
      exact hcomma.append (hi.append (ih fun j hj => h j (List.mem_cons_of_mem i hj)))

theorem passes_entryTailSource {entries : List (Entry α)}
    (h : ∀ e ∈ entries, Passes (write e.item.value)) : Passes (entryTailSource write entries) := by
  have hcomma : Passes [','] := passes_singleton rfl
  induction entries with
  | nil => exact passes_nil
  | cons e entries ih =>
      have he := e.passes (h e List.mem_cons_self)
      exact hcomma.append (he.append (ih fun f hf => h f (List.mem_cons_of_mem e hf)))

/-- A container is a value, if its brackets enclose what is in balance. -/
theorem fills_container {o c : Char} {inside : Text} (ho : isOpening o) (hc : isClosing c)
    (h : Passes inside) : Fills .container (o :: (inside ++ [c])) :=
  .container ho (h.closes hc)

/-- An array that is composed of values is a value. -/
theorem fills_composeArray {as : List α} (hfills : ∀ a ∈ as, Fills (kind a) (write a)) :
    Fills .container (composeArray (as.map write)) := by
  cases as with
  | nil => exact fills_container rfl rfl passes_nil
  | cons a as =>
      have ha := (Item.bare a).passes (hfills a List.mem_cons_self).passes
      have htail : Passes (tailSource write (as.map Item.bare)) := by
        refine passes_tailSource fun i hi => ?_
        obtain ⟨b, hb, rfl⟩ := List.mem_map.1 hi
        exact (hfills b (List.mem_cons_of_mem a hb)).passes
      rw [composeArray_cons, ← List.append_assoc]
      exact fills_container rfl rfl (ha.append htail)

end Containers

end DotPath.Json
