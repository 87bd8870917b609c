import Chargeback.Json.Reading
import Chargeback.Json.Writing
import Chargeback.Proofs.Decimal.Digits

/-!
# Written JSON is read back

Reading the text that is written for a value gives the value, with all its parts: the order
and the number of the fields, and the way in which a number was written. What follows a value
in a text is no part of it, so that values can be put together to larger ones. The bound on
the steps of the reader is never met: twice the length of the text is enough.

## Main definitions

* `Json.Legible`: the values that a text can stand for.
* `Json.Legible.readsBack`: a written value is read, whatever comes behind it.
* `Json.parse?_write`: the text of a value is read back.
-/

namespace Chargeback

namespace Json

/-! ## Strings -/

theorem hexValue?_hexDigit {d : Nat} (h : d < 16) : hexValue? (hexDigit d) = some d := by
  have hall : ∀ d < 16, hexValue? (hexDigit d) = some d := by decide
  exact hall d h

/-- A character that is not escaped stands for itself. -/
theorem readCodes_of_plain {c : Char} (hquote : c ≠ '"') (hslash : c ≠ '\\')
    (hcontrol : ¬c.toNat < 0x20) (rest : List Char) :
    readCodes (c :: rest) = (readCodes rest).map fun r => (c.toNat :: r.1, r.2) := by
  rw [readCodes.eq_def]
  split
  next heq => cases heq
  next heq => cases heq; exact absurd rfl hquote
  next heq => cases heq; exact absurd rfl hslash
  next heq => cases heq; exact absurd rfl hslash
  next c' rest' _ _ _ heq =>
    cases heq
    simp [hcontrol, hslash]
    cases readCodes rest <;> rfl

/-- A letter behind a backslash stands for one character. -/
theorem readCodes_of_simple {e c : Char} (h : simpleEscape? e = some c) (rest : List Char) :
    readCodes ('\\' :: e :: rest) = (readCodes rest).map fun r => (c.toNat :: r.1, r.2) := by
  rw [readCodes.eq_def]
  split
  next heq => cases heq
  next heq => cases heq
  next heq => cases heq; cases h
  next heq =>
    cases heq
    rw [h]
    cases readCodes rest <;> rfl
  next hother heq =>
    cases heq
    exact absurd rfl (hother e rest rfl)

/-- Four hexadecimal digits behind a backslash and the letter stand for a code. -/
theorem readCodes_of_hex {a b c d : Char} {code : Nat} (h : hexCode? a b c d = some code)
    (rest : List Char) :
    readCodes ('\\' :: 'u' :: a :: b :: c :: d :: rest) =
      (readCodes rest).map fun r => (code :: r.1, r.2) := by
  rw [readCodes, h]
  cases readCodes rest <;> rfl

/-- The written form of a character is read as its code. -/
theorem readCodes_escape (c : Char) (rest : List Char) :
    readCodes (escape c ++ rest) = (readCodes rest).map fun r => (c.toNat :: r.1, r.2) := by
  unfold escape
  -- seven characters have an escape of one letter
  iterate 7
    split
    next h => exact readCodes_of_simple (by rw [h]; rfl) rest
  split
  next hquote hslash _ _ _ _ _ hcontrol =>
    have hhigh := hexValue?_hexDigit (by omega : c.toNat / 16 < 16)
    have hlow := hexValue?_hexDigit (by omega : c.toNat % 16 < 16)
    have hcode : hexCode? '0' '0' (hexDigit (c.toNat / 16)) (hexDigit (c.toNat % 16)) =
        some c.toNat := by
      have hzero : hexValue? '0' = some 0 := rfl
      simp only [hexCode?, hzero, hhigh, hlow, bind, Option.bind, Option.some.injEq]
      omega
    exact readCodes_of_hex hcode rest
  next hquote hslash _ _ _ _ _ hcontrol => exact readCodes_of_plain hquote hslash hcontrol rest

/-- The codes of written characters are read up to the closing quote. -/
theorem readCodes_escapes (cs : List Char) (rest : List Char) :
    readCodes (cs.flatMap escape ++ '"' :: rest) = some (cs.map Char.toNat, rest) := by
  induction cs with
  | nil => rw [List.flatMap_nil, List.nil_append, readCodes]; rfl
  | cons c cs ih => rw [List.flatMap_cons, List.append_assoc, readCodes_escape, ih]; rfl

/-- A character is never half of one. -/
theorem charactersOf_toNat (cs : List Char) : charactersOf (cs.map Char.toNat) = some cs := by
  induction cs with
  | nil => rfl
  | cons c cs ih =>
    have hscalar : isHighHalf c.toNat = false ∧ isLowHalf c.toNat = false := by
      have hvalid : c.toNat < 0xD800 ∨ (0xDFFF < c.toNat ∧ c.toNat < 0x110000) := c.valid
      simp only [isHighHalf, isLowHalf, Bool.and_eq_false_iff, decide_eq_false_iff_not]
      omega
    rw [List.map_cons, charactersOf.eq_def]
    simp only [hscalar.1, hscalar.2, Bool.false_eq_true, if_false, ih, Option.map_some,
      Char.ofNat_toNat]

theorem readString_writeString (s : String) (rest : List Char) :
    ∃ body, writeString s.toList ++ rest = '"' :: body ∧
      readString body = some (.string s, rest) := by
  refine ⟨s.toList.flatMap escape ++ '"' :: rest, ?_, ?_⟩
  · simp [writeString]
  · simp only [readString, readCodes_escapes, charactersOf_toNat, bind, Option.bind,
      String.ofList_toList]

/-! ## Numbers -/

/-- What may stand behind a value: the end of the text, or what ends an item or a field. -/
def Ends (rest : List Char) : Prop := ∀ c ∈ rest.head?, c = ',' ∨ c = ']' ∨ c = '}'

theorem ends_nil : Ends [] := fun _ h => by cases h

theorem ends_cons {c : Char} {rest : List Char} (h : c = ',' ∨ c = ']' ∨ c = '}') :
    Ends (c :: rest) := by
  simpa [Ends] using h

theorem Ends.noDigit {rest : List Char} (h : Ends rest) : Decimal.NoDigit rest := by
  intro c hc
  rcases h c hc with rfl | rfl | rfl
  · rfl
  · rfl
  · rfl

theorem readWhole_digits (n : Nat) {rest : List Char} (h : Decimal.NoDigit rest) :
    readWhole (Decimal.digits n ++ rest) = some (n, rest) := by
  have hspan := Decimal.spanDigits_append (Decimal.all_isDigit_digits n) h
  rcases Nat.eq_zero_or_pos n with rfl | hpos
  · rw [Decimal.digits]
    rfl
  · obtain ⟨c, ds, hds, hc⟩ := Decimal.digits_of_pos hpos
    rw [hds, List.cons_append] at hspan ⊢
    unfold readWhole
    split
    next heq => cases heq; exact absurd rfl hc
    next =>
      rw [hspan, ← hds]
      simp [Decimal.value_digits, Decimal.digits_ne_nil]

/-- The digits behind the point of a number, as they are written. -/
def writeFraction : Option (List Char) → List Char
  | none => []
  | some ds => '.' :: ds

/-- The power of ten of a number, as it is written. -/
def writePower : Option Int → List Char
  | none => []
  | some e => 'e' :: (if e < 0 then ['-'] else []) ++ Decimal.digits e.natAbs

/-- A number with digits behind its point, if it has one. -/
def Numeral.Legible (n : Numeral) : Prop :=
  ∀ ds ∈ n.fraction, ds ≠ [] ∧ ∀ c ∈ ds, c.isDigit = true

/-- The sign and the digits of a power are read back. -/
theorem readPower_of_mark (negative : Bool) (e : Nat) {rest : List Char}
    (h : Decimal.NoDigit rest) :
    readPower ('e' :: (if negative then ['-'] else []) ++ Decimal.digits e ++ rest) =
      some (some (if negative then -(e : Int) else e), rest) := by
  have hspan := Decimal.spanDigits_append (Decimal.all_isDigit_digits e) h
  have hsign : Decimal.takeSign ((if negative then ['-'] else []) ++ (Decimal.digits e ++ rest)) =
      (negative, Decimal.digits e ++ rest) := by
    cases negative with
    | true => rfl
    | false =>
      obtain ⟨c, ds, hds, hc⟩ := Decimal.digits_eq_cons e
      rw [hds]
      exact Decimal.takeSign_of_isDigit hc
  rw [List.cons_append, List.cons_append, List.append_assoc, readPower, if_pos (by rfl), hsign]
  simp [hspan, Decimal.digits_ne_nil, Decimal.value_digits]

theorem readPower_writePower (e : Option Int) {rest : List Char} (h : Ends rest) :
    readPower (writePower e ++ rest) = some (e, rest) := by
  cases e with
  | none =>
    cases rest with
    | nil => rfl
    | cons c rest =>
      rcases h c rfl with rfl | rfl | rfl
      · rfl
      · rfl
      · rfl
  | some e =>
    have hread := readPower_of_mark (e < 0) e.natAbs h.noDigit
    have hvalue : (if decide (e < 0) = true then -(e.natAbs : Int) else e.natAbs) = e := by
      split
      next hneg => rw [decide_eq_true_eq] at hneg; omega
      next hpos => rw [decide_eq_true_eq] at hpos; omega
    rw [hvalue] at hread
    simpa [writePower] using hread

/-- What stands behind the fraction of a number is no part of it. -/
theorem writePower_ends (e : Option Int) {rest : List Char} (h : Ends rest) :
    ∀ c ∈ (writePower e ++ rest).head?, c.isDigit = false ∧ c ≠ '.' := by
  intro c hc
  cases e with
  | none =>
    rcases h c hc with rfl | rfl | rfl
    · decide
    · decide
    · decide
  | some e =>
    cases hc
    decide

theorem readFraction_writeFraction {f : Option (List Char)} {rest : List Char}
    (hf : ∀ ds ∈ f, ds ≠ [] ∧ ∀ c ∈ ds, c.isDigit = true)
    (hrest : ∀ c ∈ rest.head?, c.isDigit = false ∧ c ≠ '.') :
    readFraction (writeFraction f ++ rest) = some (f, rest) := by
  cases f with
  | none =>
    rw [writeFraction, List.nil_append]
    unfold readFraction
    split
    next => exact absurd rfl (hrest '.' rfl).2
    next => rfl
  | some ds =>
    obtain ⟨hne, hdigits⟩ := hf ds rfl
    have hspan := Decimal.spanDigits_append hdigits fun c hc => (hrest c hc).1
    rw [writeFraction, List.cons_append, readFraction]
    simp [hspan, hne]

theorem takeMinus_of_isDigit {c : Char} {rest : List Char} (h : c.isDigit = true) :
    takeMinus (c :: rest) = (false, c :: rest) := by
  unfold takeMinus
  split
  next heq => cases heq; cases h
  next => rfl

/-- A written number is a sign, a whole part, a fraction and a power. -/
theorem Numeral.write_append (n : Numeral) (rest : List Char) :
    n.write ++ rest = (if n.negative then ['-'] else []) ++ (Decimal.digits n.whole ++
      (writeFraction n.fraction ++ (writePower n.exponent ++ rest))) := by
  obtain ⟨negative, whole, fraction, exponent⟩ := n
  cases fraction <;> cases exponent <;>
    simp [Numeral.write, writeFraction, writePower]

theorem takeMinus_write (n : Numeral) (rest : List Char) :
    takeMinus (n.write ++ rest) = (n.negative, Decimal.digits n.whole ++
      (writeFraction n.fraction ++ (writePower n.exponent ++ rest))) := by
  rw [Numeral.write_append]
  cases n.negative with
  | true => rfl
  | false =>
    obtain ⟨c, ds, hds, hc⟩ := Decimal.digits_eq_cons n.whole
    rw [hds]
    exact takeMinus_of_isDigit hc

theorem readNumber_write {n : Numeral} (hn : n.Legible) {rest : List Char} (h : Ends rest) :
    readNumber (n.write ++ rest) = some (.number n, rest) := by
  have hends := writePower_ends n.exponent h
  have hwhole : Decimal.NoDigit (writeFraction n.fraction ++ (writePower n.exponent ++ rest)) := by
    cases n.fraction with
    | none => exact fun c hc => (hends c hc).1
    | some ds => exact Decimal.noDigit_cons rfl
  simp only [readNumber, takeMinus_write, readWhole_digits _ hwhole,
    readFraction_writeFraction hn hends, readPower_writePower _ h, bind, Option.bind]

/-! ## Values -/

/-- The values that a text can stand for. -/
inductive Legible : Json → Prop
  | null : Legible .null
  | bool (b : Bool) : Legible (.bool b)
  | number {n : Numeral} (h : n.Legible) : Legible (.number n)
  | string (s : String) : Legible (.string s)
  | array {items : List Json} (h : ∀ j ∈ items, Legible j) : Legible (.array items)
  | object {fields : List (String × Json)} (h : ∀ f ∈ fields, Legible f.2) :
    Legible (.object fields)

/-- A written value is read in as many steps as twice its length, whatever comes behind it. -/
def ReadsBack (j : Json) : Prop :=
  ∀ steps rest, Ends rest → 2 * (writeChars j).length ≤ steps →
    readValue steps (writeChars j ++ rest) = some (j, rest)

/-- A character that a written value can begin with. -/
def Opens (c : Char) : Prop :=
  c ∈ ['n', 't', 'f', '"', '[', '{', '-'] ∨ c.isDigit = true

theorem Opens.not_isSpace {c : Char} (h : Opens c) : isSpace c = false ∧ c ≠ ']' := by
  rcases h with h | h
  · simp only [List.mem_cons, List.not_mem_nil, or_false] at h
    rcases h with rfl | rfl | rfl | rfl | rfl | rfl | rfl <;> decide
  · refine ⟨?_, ?_⟩
    · simp only [isSpace, Bool.or_eq_false_iff, decide_eq_false_iff_not]
      refine ⟨⟨⟨?_, ?_⟩, ?_⟩, ?_⟩ <;> (rintro rfl; cases h)
    · rintro rfl
      cases h

theorem Numeral.opens_write (n : Numeral) :
    ∃ c cs, n.write = c :: cs ∧ (c = '-' ∨ c.isDigit = true) := by
  have happend := n.write_append []
  rw [List.append_nil] at happend
  rw [happend]
  cases n.negative with
  | true => exact ⟨_, _, rfl, .inl rfl⟩
  | false =>
    obtain ⟨c, ds, hds, hc⟩ := Decimal.digits_eq_cons n.whole
    rw [hds]
    exact ⟨_, _, rfl, .inr hc⟩

theorem opens_writeChars (j : Json) : ∃ c cs, writeChars j = c :: cs ∧ Opens c := by
  cases j with
  | null => exact ⟨_, _, rfl, .inl (by decide)⟩
  | bool b =>
    cases b with
    | true => exact ⟨_, _, rfl, .inl (by decide)⟩
    | false => exact ⟨_, _, rfl, .inl (by decide)⟩
  | number n =>
    obtain ⟨c, cs, hwrite, hc⟩ := n.opens_write
    refine ⟨c, cs, by rw [writeChars, hwrite], ?_⟩
    rcases hc with rfl | hc
    · exact .inl (by decide)
    · exact .inr hc
  | string s => exact ⟨_, _, rfl, .inl (by decide)⟩
  | halfCharacter => exact ⟨_, _, rfl, .inl (by decide)⟩
  | array items => exact ⟨_, _, rfl, .inl (by decide)⟩
  | object fields => exact ⟨_, _, rfl, .inl (by decide)⟩

theorem skipSpace_of_not_isSpace {c : Char} (h : isSpace c = false) (rest : List Char) :
    skipSpace (c :: rest) = c :: rest := by
  rw [skipSpace, List.dropWhile_cons, h]
  rfl

theorem skipSpace_writeChars (j : Json) (rest : List Char) :
    skipSpace (writeChars j ++ rest) = writeChars j ++ rest := by
  obtain ⟨c, cs, hwrite, hc⟩ := opens_writeChars j
  rw [hwrite, List.cons_append, skipSpace_of_not_isSpace hc.not_isSpace.1]

/-- No value is written without a character, so there is always a step to read it in. -/
theorem readsBack_of_succ {j : Json} (h : ∀ steps rest, Ends rest →
    2 * (writeChars j).length ≤ steps + 1 →
      readValue (steps + 1) (writeChars j ++ rest) = some (j, rest)) : ReadsBack j := by
  intro steps rest hrest hsteps
  obtain ⟨c, cs, hwrite, -⟩ := opens_writeChars j
  have hlength : 0 < (writeChars j).length := by
    rw [hwrite]
    exact Nat.succ_pos _
  obtain ⟨steps, rfl⟩ := Nat.exists_eq_add_one_of_ne_zero (by omega : steps ≠ 0)
  exact h steps rest hrest hsteps

theorem readsBack_number {n : Numeral} (h : n.Legible) : ReadsBack (.number n) := by
  refine readsBack_of_succ fun steps rest hrest _ => ?_
  obtain ⟨c, cs, hwrite, hc⟩ := n.opens_write
  have hchars : writeChars (.number n) = n.write := by rw [writeChars]
  have hread := readNumber_write h hrest
  rw [readValue, skipSpace_writeChars, hchars]
  rw [hwrite, List.cons_append] at hread ⊢
  have hother : c ≠ 'n' ∧ c ≠ 't' ∧ c ≠ 'f' ∧ c ≠ '"' ∧ c ≠ '[' ∧ c ≠ '{' := by
    rcases hc with rfl | hc
    · decide
    · refine ⟨?_, ?_, ?_, ?_, ?_, ?_⟩ <;> (rintro rfl; cases hc)
  split
  next heq => exact absurd (List.cons.inj heq).1 hother.1
  next heq => exact absurd (List.cons.inj heq).1 hother.2.1
  next heq => exact absurd (List.cons.inj heq).1 hother.2.2.1
  next heq => exact absurd (List.cons.inj heq).1 hother.2.2.2.1
  next heq => exact absurd (List.cons.inj heq).1 hother.2.2.2.2.1
  next heq => exact absurd (List.cons.inj heq).1 hother.2.2.2.2.2
  next => exact hread

theorem readsBack_string (s : String) : ReadsBack (.string s) := by
  refine readsBack_of_succ fun steps rest _ _ => ?_
  obtain ⟨body, hwrite, hread⟩ := readString_writeString s rest
  have hchars : writeChars (.string s) = writeString s.toList := by rw [writeChars]
  rw [readValue, skipSpace_writeChars, hchars, hwrite]
  exact hread

/-! ## Arrays -/

theorem writeItems_singleton (j : Json) : writeItems [j] = writeChars j ++ [']'] := by
  rw [writeItems]

theorem writeItems_cons_cons (j i : Json) (items : List Json) :
    writeItems (j :: i :: items) = writeChars j ++ ',' :: writeItems (i :: items) := by
  simp [writeItems]

section Items

variable {steps : Nat} {s rest more : List Char} {j : Json}

theorem readItems_last (h : readValue steps s = some (j, ']' :: rest)) :
    readItems (steps + 1) s = some ([j], rest) := by
  rw [readItems, h]
  rfl

theorem readItems_more (h : readValue steps s = some (j, ',' :: more)) :
    readItems (steps + 1) s = (readItems steps more).map fun r => (j :: r.1, r.2) := by
  rw [readItems, h]
  rfl

/-- A value is read up to the comma or the bracket behind it. -/
theorem ReadsBack.readValue_before {c : Char} (h : ReadsBack j) (hc : c = ',' ∨ c = ']' ∨ c = '}')
    (hsteps : 2 * (writeChars j).length ≤ steps) :
    readValue steps (writeChars j ++ c :: rest) = some (j, c :: rest) :=
  h steps (c :: rest) (ends_cons hc) hsteps

/-- The items of an array are read one by one. Each takes one step off the rest, and leaves two
for the comma or the bracket behind it. -/
theorem readItems_writeItems {items : List Json} (h : ∀ i ∈ j :: items, ReadsBack i)
    (hsteps : 2 * (writeItems (j :: items)).length < steps) :
    readItems steps (writeItems (j :: items) ++ rest) = some (j :: items, rest) := by
  induction items generalizing j steps with
  | nil =>
    have hj := h j List.mem_cons_self
    rw [writeItems_singleton, List.length_append] at hsteps
    obtain ⟨steps, rfl⟩ := Nat.exists_eq_add_one_of_ne_zero (by omega : steps ≠ 0)
    rw [writeItems_singleton, List.append_assoc]
    exact readItems_last (hj.readValue_before (.inr (.inl rfl)) (by omega))
  | cons i items ih =>
    have hj := h j List.mem_cons_self
    have hitems : ∀ k ∈ i :: items, ReadsBack k := fun k hk => h k (List.mem_cons_of_mem j hk)
    rw [writeItems_cons_cons, List.length_append, List.length_cons] at hsteps
    obtain ⟨steps, rfl⟩ := Nat.exists_eq_add_one_of_ne_zero (by omega : steps ≠ 0)
    rw [writeItems_cons_cons, List.append_assoc, List.cons_append,
      readItems_more (hj.readValue_before (.inl rfl) (by omega)), ih hitems (by omega)]
    rfl

/-- What stands behind an opening bracket is read as items, unless the array ends at once. -/
theorem readValue_bracket {c : Char} (hspace : isSpace c = false) (hc : c ≠ ']') :
    readValue (steps + 1) ('[' :: c :: s) =
      (readItems steps (c :: s)).map fun r => (Json.array r.1, r.2) := by
  rw [readValue, skipSpace_of_not_isSpace rfl]
  simp only [skipSpace_of_not_isSpace hspace]
  split
  next heq => exact absurd (List.cons.inj heq).1 hc
  next => rfl

end Items

theorem opens_writeItems (j : Json) (items : List Json) :
    ∃ c cs, writeItems (j :: items) = c :: cs ∧ Opens c := by
  obtain ⟨c, cs, hwrite, hc⟩ := opens_writeChars j
  cases items with
  | nil => exact ⟨c, _, by rw [writeItems_singleton, hwrite, List.cons_append], hc⟩
  | cons i items => exact ⟨c, _, by rw [writeItems_cons_cons, hwrite, List.cons_append], hc⟩

theorem readsBack_array {items : List Json} (h : ∀ j ∈ items, ReadsBack j) :
    ReadsBack (.array items) := by
  refine readsBack_of_succ fun steps rest _ hsteps => ?_
  rw [writeChars, List.length_cons] at hsteps
  rw [writeChars, List.cons_append]
  cases items with
  | nil =>
    rw [readValue]
    rfl
  | cons j items =>
    have hread : readItems steps (writeItems (j :: items) ++ rest) = some (j :: items, rest) :=
      readItems_writeItems h (by omega)
    obtain ⟨c, cs, hwrite, hc⟩ := opens_writeItems j items
    rw [hwrite, List.cons_append] at hread ⊢
    rw [readValue_bracket hc.not_isSpace.1 hc.not_isSpace.2, hread]
    rfl

/-! ## Objects -/

theorem writeFields_singleton (key : String) (j : Json) :
    writeFields [(key, j)] = writeString key.toList ++ ':' :: (writeChars j ++ ['}']) := by
  rw [writeFields]

theorem writeFields_cons_cons (key : String) (j : Json) (f : String × Json)
    (fields : List (String × Json)) :
    writeFields ((key, j) :: f :: fields) =
      writeString key.toList ++ ':' :: (writeChars j ++ ',' :: writeFields (f :: fields)) := by
  simp [writeFields]

section Fields

variable {steps : Nat} {s rest more : List Char} {key : String} {j : Json}
  {f : String × Json} {fields : List (String × Json)}

theorem readFields_last (h : readValue steps s = some (j, '}' :: rest)) :
    readFields (steps + 1) (writeString key.toList ++ ':' :: s) = some ([(key, j)], rest) := by
  obtain ⟨body, hwrite, hread⟩ := readString_writeString key (':' :: s)
  rw [hwrite, readFields, skipSpace_of_not_isSpace rfl]
  simp only [hread, skipSpace_of_not_isSpace (by rfl : isSpace ':' = false), h]
  rfl

theorem readFields_more (h : readValue steps s = some (j, ',' :: more)) :
    readFields (steps + 1) (writeString key.toList ++ ':' :: s) =
      (readFields steps more).map fun r => ((key, j) :: r.1, r.2) := by
  obtain ⟨body, hwrite, hread⟩ := readString_writeString key (':' :: s)
  rw [hwrite, readFields, skipSpace_of_not_isSpace rfl]
  simp only [hread, skipSpace_of_not_isSpace (by rfl : isSpace ':' = false), h]
  rfl

/-- The fields of an object are read one by one, as the items of an array are. -/
theorem readFields_writeFields (h : ∀ g ∈ f :: fields, ReadsBack g.2)
    (hsteps : 2 * (writeFields (f :: fields)).length < steps) :
    readFields steps (writeFields (f :: fields) ++ rest) = some (f :: fields, rest) := by
  induction fields generalizing f steps with
  | nil =>
    obtain ⟨key, j⟩ := f
    have hj : ReadsBack j := h (key, j) List.mem_cons_self
    rw [writeFields_singleton, List.length_append, List.length_cons, List.length_append] at hsteps
    obtain ⟨steps, rfl⟩ := Nat.exists_eq_add_one_of_ne_zero (by omega : steps ≠ 0)
    rw [writeFields_singleton, List.append_assoc, List.cons_append, List.append_assoc]
    exact readFields_last (hj.readValue_before (.inr (.inr rfl)) (by omega))
  | cons g fields ih =>
    obtain ⟨key, j⟩ := f
    have hj : ReadsBack j := h (key, j) List.mem_cons_self
    have hfields : ∀ k ∈ g :: fields, ReadsBack k.2 := fun k hk => h k (List.mem_cons_of_mem _ hk)
    rw [writeFields_cons_cons, List.length_append, List.length_cons, List.length_append,
      List.length_cons] at hsteps
    obtain ⟨steps, rfl⟩ := Nat.exists_eq_add_one_of_ne_zero (by omega : steps ≠ 0)
    rw [writeFields_cons_cons, List.append_assoc, List.cons_append, List.append_assoc,
      List.cons_append, readFields_more (hj.readValue_before (.inl rfl) (by omega)),
      ih hfields (by omega)]
    rfl

/-- What stands behind an opening brace is read as fields, unless the object ends at once. -/
theorem readValue_brace {c : Char} (hspace : isSpace c = false) (hc : c ≠ '}') :
    readValue (steps + 1) ('{' :: c :: s) =
      (readFields steps (c :: s)).map fun r => (Json.object r.1, r.2) := by
  rw [readValue, skipSpace_of_not_isSpace rfl]
  simp only [skipSpace_of_not_isSpace hspace]
  split
  next heq => exact absurd (List.cons.inj heq).1 hc
  next => rfl

theorem writeFields_eq_cons : ∃ body, writeFields (f :: fields) = '"' :: body := by
  cases fields with
  | nil => exact ⟨_, by rw [writeFields_singleton, writeString, List.cons_append, List.cons_append]⟩
  | cons g fields =>
    exact ⟨_, by rw [writeFields_cons_cons, writeString, List.cons_append, List.cons_append]⟩

end Fields

theorem readsBack_object {fields : List (String × Json)} (h : ∀ f ∈ fields, ReadsBack f.2) :
    ReadsBack (.object fields) := by
  refine readsBack_of_succ fun steps rest _ hsteps => ?_
  rw [writeChars, List.length_cons] at hsteps
  rw [writeChars, List.cons_append]
  cases fields with
  | nil =>
    rw [readValue]
    rfl
  | cons f fields =>
    have hread : readFields steps (writeFields (f :: fields) ++ rest) = some (f :: fields, rest) :=
      readFields_writeFields h (by omega)
    obtain ⟨body, hwrite⟩ : ∃ body, writeFields (f :: fields) = '"' :: body := writeFields_eq_cons
    rw [hwrite, List.cons_append] at hread ⊢
    rw [readValue_brace rfl (by decide), hread]
    rfl

/-! ## Texts -/

theorem readsBack_word {j : Json} (word : List Char) (hchars : writeChars j = word)
    (hread : ∀ steps rest, readValue (steps + 1) (word ++ rest) = some (j, rest)) :
    ReadsBack j := by
  refine readsBack_of_succ fun steps rest _ _ => ?_
  rw [hchars]
  exact hread steps rest

/-- By induction on the value: a legible value is read back, whatever comes behind it. -/
theorem Legible.readsBack {j : Json} (h : Legible j) : ReadsBack j := by
  induction h with
  | null => exact readsBack_word "null".toList (by rw [writeChars]) fun _ _ => rfl
  | bool b =>
    cases b with
    | true => exact readsBack_word "true".toList (by rw [writeChars]) fun _ _ => rfl
    | false => exact readsBack_word "false".toList (by rw [writeChars]) fun _ _ => rfl
  | number h => exact readsBack_number h
  | string s => exact readsBack_string s
  | array _ ih => exact readsBack_array ih
  | object _ ih => exact readsBack_object ih

/-- The text of a legible value is read back. -/
theorem parse?_write {j : Json} (h : Legible j) : parse? j.write = some j := by
  have hread := h.readsBack (2 * (writeChars j).length + 2) [] ends_nil (by omega)
  rw [List.append_nil] at hread
  rw [parse?, write, String.toList_ofList, hread]
  rfl

end Json

end Chargeback
