import SpendPlanner.Json.Codec
import Mathlib.Tactic

/-!
# What is written is read back

A plain value, whose numbers are spelled as numbers are written and whose strings have a text, is
read back from its compact form, whatever the form is followed by that does not go on a number.
The reader is given as many steps as the form has characters, and never needs more.
-/

namespace SpendPlanner

/-- No number but zero is written with a zero in front. -/
theorem Decimal.digits_eq_zero_cons {n : ℕ} {cs : List Char} (h : digits n = '0' :: cs) :
    n = 0 := by
  induction n using Nat.strongRecOn generalizing cs with
  | ind n ih =>
    rw [digits] at h
    split at h
    · next hlt =>
      have hdigit : digitChar n = '0' := (List.cons.inj h).1
      have hvalue := digitValue_digitChar hlt
      rw [hdigit] at hvalue
      exact hvalue.symm
    · next hge =>
      cases hdigits : digits (n / 10) with
      | nil => exact absurd hdigits (digits_ne_nil _)
      | cons c rest =>
          rw [hdigits, List.cons_append] at h
          obtain ⟨rfl, -⟩ := List.cons.inj h
          have hzero := ih (n / 10) (by omega) hdigits
          omega

namespace Json

/-! ## Strings -/

/-- A control character is read back from its escape. -/
theorem value?_escape {c : Char} (h : c.toNat < 0x20) :
    Hex.value? ('0' :: '0' :: Hex.encodeByte (UInt8.ofNat c.toNat)) = some c.toNat := by
  have hbyte : (UInt8.ofNat c.toNat).toNat = c.toNat :=
    UInt8.toNat_ofNat_of_lt (h.trans (by decide))
  have hhigh := Hex.digitValue?_digitChar (d := c.toNat / 16) (by omega)
  have hlow := Hex.digitValue?_digitChar (d := c.toNat % 16) (by omega)
  have hzero : Hex.digitValue? '0' = some 0 := rfl
  simp only [Hex.value?, Hex.encodeByte, hbyte, List.foldlM_cons, List.foldlM_nil, hzero, hhigh,
    hlow, Option.map_some, Option.bind_eq_bind, Option.bind_some, Option.pure_def]
  congr 1
  omega

/-- An escape of one letter is read as the character it stands for. -/
theorem readUnits_short {letter c : Char} (h : shortEscape? letter = some c)
    (hletter : letter ≠ 'u') (rest : List Char) :
    readUnits ('\\' :: letter :: rest) =
      (readUnits rest).map fun read => (.char c :: read.1, read.2) := by
  rw [readUnits.eq_4 _ _ fun _ _ _ _ _ heq => absurd heq hletter, h]
  cases readUnits rest <;> rfl

theorem readUnits_control {c : Char} (h : c.toNat < 0x20) (rest : List Char) :
    readUnits (['\\', 'u', '0', '0'] ++ Hex.encodeByte (UInt8.ofNat c.toNat) ++ rest) =
      (readUnits rest).map fun read => (.char c :: read.1, read.2) := by
  have hunit : Unit16.ofNat c.toNat = .char c := by
    rw [Unit16.ofNat, if_neg (by omega), if_neg (by omega), Char.ofNat_toNat]
  have hvalue := value?_escape h
  rw [Hex.encodeByte] at hvalue ⊢
  simp only [List.cons_append, List.nil_append]
  rw [readUnits.eq_3, hvalue]
  change ((readUnits rest).bind fun read => some (Unit16.ofNat c.toNat :: read.1, read.2)) = _
  rw [hunit]
  cases readUnits rest <;> rfl

/-- All other characters stand for themselves. -/
theorem readUnits_plain {c : Char} (hquote : c ≠ '"') (hbackslash : c ≠ '\\')
    (h : ¬c.toNat < 0x20) (rest : List Char) :
    readUnits (c :: rest) =
      (readUnits rest).map fun read => (.char c :: read.1, read.2) := by
  rw [readUnits.eq_5 _ _ hquote (fun _ _ _ _ _ heq => absurd heq hbackslash)
    (fun _ _ heq => absurd heq hbackslash), if_neg h]
  cases readUnits rest <;> rfl

theorem readUnits_escapeChar (c : Char) (rest : List Char) :
    readUnits (escapeChar c ++ rest) =
      (readUnits rest).map fun read => (.char c :: read.1, read.2) := by
  unfold escapeChar
  split
  case h_8 hquote hbackslash _ _ _ _ _ =>
    split
    · next hcontrol => exact readUnits_control hcontrol rest
    · next hplain => exact readUnits_plain hquote hbackslash hplain rest
  all_goals exact readUnits_short rfl (by decide) rest

theorem readUnits_escaped (cs rest : List Char) :
    readUnits (cs.flatMap escapeChar ++ '"' :: rest) = some (cs.map .char, rest) := by
  induction cs with
  | nil => rfl
  | cons c cs ih =>
      rw [List.flatMap_cons, List.append_assoc, readUnits_escapeChar, ih]
      rfl

theorem pairUnits_map_char (cs : List Char) : pairUnits (cs.map .char) = some cs := by
  induction cs with
  | nil => rfl
  | cons c cs ih => rw [List.map_cons, pairUnits, ih]; rfl

/-- A string is read back, its opening quote passed. -/
theorem readText_written (s : String) (rest : List Char) :
    readText (s.toList.flatMap escapeChar ++ '"' :: rest) = some (some s, rest) := by
  rw [readText, readUnits_escaped]
  change some ((pairUnits (s.toList.map .char)).map String.ofList, rest) = _
  rw [pairUnits_map_char, Option.map_some, String.ofList_toList]

theorem writeText_append (s : String) (rest : List Char) :
    writeText (some s) ++ rest = '"' :: (s.toList.flatMap escapeChar ++ '"' :: rest) := by
  simp [writeText]

/-! ## Numbers -/

/-- What may follow a number without going on it. -/
def EndsNumber (rest : List Char) : Prop :=
  ∀ c ∈ rest.head?, c.isDigit = false ∧ c ≠ '.' ∧ c ≠ 'e' ∧ c ≠ 'E'

theorem endsNumber_nil : EndsNumber [] := by
  simp [EndsNumber]

theorem endsNumber_cons {c : Char} {rest : List Char}
    (h : c.isDigit = false ∧ c ≠ '.' ∧ c ≠ 'e' ∧ c ≠ 'E') : EndsNumber (c :: rest) := by
  simpa [EndsNumber] using h

theorem readDigits_append {digits rest : List Char} (hne : digits ≠ [])
    (hall : digits.all Char.isDigit = true) (hrest : EndsNumber rest) :
    readDigits (digits ++ rest) = some (digits, rest) := by
  have hdigits := List.all_eq_true.mp hall
  have hstop : rest.takeWhile Char.isDigit = [] ∧ rest.dropWhile Char.isDigit = rest := by
    cases rest with
    | nil => exact ⟨rfl, rfl⟩
    | cons c rest =>
        have hc := (hrest c rfl).1
        simp [hc]
  rw [readDigits, List.takeWhile_append_of_pos hdigits, List.dropWhile_append_of_pos hdigits,
    hstop.1, hstop.2, List.append_nil]
  simp [hne]

theorem readUnsigned_digits (n : ℕ) {rest : List Char} (hrest : EndsNumber rest) :
    readUnsigned (Decimal.digits n ++ rest) = some (Decimal.digits n, rest) := by
  have hwhole : readWhole (Decimal.digits n ++ rest) = some (Decimal.digits n, rest) := by
    by_cases hzero : n = 0
    · have hdigits : Decimal.digits 0 = ['0'] := by
        rw [Decimal.digits]
        rfl
      rw [hzero, hdigits]
      rfl
    · rw [readWhole.eq_2]
      · exact readDigits_append (Decimal.digits_ne_nil n) (Decimal.all_isDigit_digits n) hrest
      · intro cs hcs
        cases hdigits : Decimal.digits n with
        | nil => exact Decimal.digits_ne_nil n hdigits
        | cons c digits =>
            rw [hdigits, List.cons_append] at hcs
            obtain ⟨rfl, -⟩ := List.cons.inj hcs
            exact hzero (Decimal.digits_eq_zero_cons hdigits)
  have hfraction : readFraction rest = some ([], rest) := by
    cases rest with
    | nil => rfl
    | cons c rest =>
        obtain ⟨-, hpoint, -⟩ := hrest c rfl
        rw [readFraction.eq_2 _ fun _ heq => hpoint (List.cons.inj heq).1]
  have hexponent : readExponent rest = some ([], rest) := by
    cases rest with
    | nil => rfl
    | cons c rest =>
        obtain ⟨-, -, he, hE⟩ := hrest c rfl
        rw [readExponent, if_neg (not_or.mpr ⟨he, hE⟩)]
  simp [readUnsigned, hwhole, hfraction, hexponent]

theorem skipBlanks_cons {c : Char} (h : isBlank c = false) (cs : List Char) :
    skipBlanks (c :: cs) = c :: cs :=
  List.dropWhile_cons_of_neg (by simp [h])

theorem ne_of_isDigit {c c' : Char} (h : c.isDigit = true) (h' : c'.isDigit = false) :
    c ≠ c' := by
  rintro rfl
  exact absurd (h.symm.trans h') (by decide)

theorem isBlank_of_isDigit {c : Char} (h : c.isDigit = true) : isBlank c = false := by
  simp [isBlank, ne_of_isDigit h]

/-- A digit starts a number, and nothing else. -/
theorem readValue_of_isDigit {c : Char} (h : c.isDigit = true) (steps : ℕ) (cs : List Char) :
    readValue (steps + 1) (c :: cs) =
      (readUnsigned (c :: cs)).map fun read => (.number read.1, read.2) := by
  rw [readValue.eq_2, skipBlanks_cons (isBlank_of_isDigit h)]
  split
  case h_7 =>
    rw [readNumber.eq_2 _ fun _ heq =>
      absurd (List.cons.inj heq).1 (ne_of_isDigit h (by decide))]
    cases readUnsigned (c :: cs) <;> rfl
  all_goals
    next heq => exact absurd (List.cons.inj heq).1 (ne_of_isDigit h (by decide))

/-! ## Values -/

mutual

/-- A value in the form in which values of the domain are written: numbers are spelled as numbers
are written, and strings have a text. -/
def Value.IsPlain : Value → Prop
  | .null | .bool _ => True
  | .number spelling => ∃ n, spelling = Decimal.digits n
  | .string text => text.isSome
  | .array items => PlainItems items
  | .object members => PlainMembers members

def PlainItems : List Value → Prop
  | [] => True
  | item :: items => item.IsPlain ∧ PlainItems items

def PlainMembers : List (Text × Value) → Prop
  | [] => True
  | (key, value) :: members => key.isSome ∧ value.IsPlain ∧ PlainMembers members

end

/-- A plain value starts with a character that is neither blank nor ends a list. -/
theorem Value.IsPlain.exists_write_eq_cons {v : Value} (h : v.IsPlain) :
    ∃ c cs, write v = c :: cs ∧ isBlank c = false ∧ c ≠ ']' := by
  cases v with
  | null => exact ⟨_, _, by rw [write], by decide⟩
  | bool b =>
      cases b
      · exact ⟨_, _, by rw [write], by decide⟩
      · exact ⟨_, _, by rw [write], by decide⟩
  | number spelling =>
      rw [IsPlain] at h
      obtain ⟨n, rfl⟩ := h
      cases hdigits : Decimal.digits n with
      | nil => exact absurd hdigits (Decimal.digits_ne_nil n)
      | cons c cs =>
          have hdigit : c.isDigit = true :=
            List.all_eq_true.mp (Decimal.all_isDigit_digits n) c (hdigits ▸ List.mem_cons_self)
          exact ⟨c, cs, by rw [write], isBlank_of_isDigit hdigit,
            ne_of_isDigit hdigit (by decide)⟩
  | string text => exact ⟨'"', _, by rw [write, writeText]; rfl, by decide⟩
  | array items => exact ⟨'[', _, by rw [write]; rfl, by decide⟩
  | object members => exact ⟨'{', _, by rw [write]; rfl, by decide⟩

theorem writeItems_cons_cons (item next : Value) (items : List Value) (rest : List Char) :
    writeItems (item :: next :: items) ++ rest =
      write item ++ ',' :: (writeItems (next :: items) ++ rest) := by
  rw [writeItems]
  simp

/-- The items of a list start as the first of them does. -/
theorem exists_writeItems_eq_cons {item : Value} (h : item.IsPlain) (items : List Value) :
    ∃ c cs, writeItems (item :: items) = c :: cs ∧ isBlank c = false ∧ c ≠ ']' := by
  obtain ⟨c, cs, hwrite, hc⟩ := h.exists_write_eq_cons
  cases items with
  | nil => exact ⟨c, cs, by rw [writeItems, hwrite], hc⟩
  | cons next items => exact ⟨c, _, by rw [writeItems, hwrite]; rfl, hc⟩

theorem exists_writeMembers_eq_cons (key : Text) (value : Value)
    (members : List (Text × Value)) :
    ∃ cs, writeMembers ((key, value) :: members) = '"' :: cs := by
  cases members with
  | nil => exact ⟨_, by rw [writeMembers, writeText]; rfl⟩
  | cons next members => exact ⟨_, by rw [writeMembers, writeText]; rfl⟩

theorem readNumber_written (n steps : ℕ) {rest : List Char} (hrest : EndsNumber rest) :
    readValue (steps + 1) (Decimal.digits n ++ rest) =
      some (.number (Decimal.digits n), rest) := by
  have hread := readUnsigned_digits n hrest
  cases hdigits : Decimal.digits n with
  | nil => exact absurd hdigits (Decimal.digits_ne_nil n)
  | cons c cs =>
      have hdigit : c.isDigit = true :=
        List.all_eq_true.mp (Decimal.all_isDigit_digits n) c (hdigits ▸ List.mem_cons_self)
      rw [hdigits] at hread
      rw [List.cons_append, readValue_of_isDigit hdigit, ← List.cons_append, hread]
      rfl

theorem readValue_quote (steps : ℕ) (cs : List Char) :
    readValue (steps + 1) ('"' :: cs) =
      (readText cs).map fun read => (.string read.1, read.2) := by
  rw [readValue.eq_2, skipBlanks_cons (by decide)]
  change (readText cs).bind _ = _
  cases readText cs <;> rfl

/-- A bracket that is not closed at once starts a list of items. -/
theorem readValue_bracket {c : Char} (hblank : isBlank c = false) (hne : c ≠ ']') (steps : ℕ)
    (cs : List Char) :
    readValue (steps + 1) ('[' :: c :: cs) =
      (readItems steps (c :: cs)).map fun read => (.array read.1, read.2) := by
  rw [readValue.eq_2, skipBlanks_cons (by decide)]
  simp only [skipBlanks_cons hblank]
  split
  · next heq => exact absurd (List.cons.inj heq).1 hne
  · cases readItems steps (c :: cs) <;> rfl

/-- A brace before a quote starts the members of an object. -/
theorem readValue_brace (steps : ℕ) (cs : List Char) :
    readValue (steps + 1) ('{' :: '"' :: cs) =
      (readMembers steps ('"' :: cs)).map fun read => (.object read.1, read.2) := by
  rw [readValue.eq_2, skipBlanks_cons (by decide)]
  simp only [skipBlanks_cons (show isBlank '"' = false from rfl)]
  split
  · next heq => exact absurd (List.cons.inj heq).1 (by decide)
  · cases readMembers steps ('"' :: cs) <;> rfl

section Members

variable {s : String} {value : Value} {steps : ℕ} {cs rest : List Char}

theorem readMembers_last (h : readValue steps cs = some (value, '}' :: rest)) :
    readMembers (steps + 1) (writeText (some s) ++ ':' :: cs) =
      some ([(some s, value)], rest) := by
  have hcolon := skipBlanks_cons (c := ':') rfl
  have hclosed := skipBlanks_cons (c := '}') rfl
  rw [writeText_append, readMembers, skipBlanks_cons (by decide)]
  simp only [readText_written, Option.bind_eq_bind, Option.bind_some,
    hcolon, hclosed, h]

theorem readMembers_next (h : readValue steps cs = some (value, ',' :: rest)) :
    readMembers (steps + 1) (writeText (some s) ++ ':' :: cs) =
      (readMembers steps rest).map fun read => ((some s, value) :: read.1, read.2) := by
  have hcolon := skipBlanks_cons (c := ':') rfl
  have hcomma := skipBlanks_cons (c := ',') rfl
  rw [writeText_append, readMembers, skipBlanks_cons (by decide)]
  simp only [readText_written, Option.bind_eq_bind, Option.bind_some,
    hcolon, hcomma, h]
  cases readMembers steps rest <;> rfl

end Members

mutual

theorem readValue_write : ∀ (v : Value) {steps : ℕ} {rest : List Char}, v.IsPlain →
    (write v).length ≤ steps → EndsNumber rest →
    readValue steps (write v ++ rest) = some (v, rest)
  | v, 0, rest, hplain, hsteps, hrest => by
      obtain ⟨c, cs, hwrite, -⟩ := hplain.exists_write_eq_cons
      rw [hwrite] at hsteps
      cases hsteps
  | .null, steps + 1, rest, hplain, hsteps, hrest => by
      rw [write]
      rfl
  | .bool true, steps + 1, rest, hplain, hsteps, hrest => by
      rw [write]
      rfl
  | .bool false, steps + 1, rest, hplain, hsteps, hrest => by
      rw [write]
      rfl
  | .number spelling, steps + 1, rest, hplain, hsteps, hrest => by
      rw [Value.IsPlain] at hplain
      obtain ⟨n, rfl⟩ := hplain
      rw [write]
      exact readNumber_written n steps hrest
  | .string text, steps + 1, rest, hplain, hsteps, hrest => by
      rw [Value.IsPlain] at hplain
      obtain ⟨s, rfl⟩ := Option.isSome_iff_exists.mp hplain
      rw [write, writeText_append, readValue_quote, readText_written]
      rfl
  | .array [], steps + 1, rest, hplain, hsteps, hrest => by
      rw [write, writeItems]
      rfl
  | .array (item :: items), steps + 1, rest, hplain, hsteps, hrest => by
      rw [Value.IsPlain] at hplain
      rw [write, List.length_append, List.length_cons, List.length_singleton] at hsteps
      obtain ⟨c, cs, hwrite, hblank, hne⟩ := exists_writeItems_eq_cons hplain.1 items
      have hread : readItems steps (writeItems (item :: items) ++ ']' :: rest) =
          some (item :: items, rest) :=
        readItems_writeItems (item :: items) (List.cons_ne_nil _ _) hplain (by omega)
      rw [hwrite] at hread
      rw [write, hwrite, List.cons_append, List.cons_append, List.append_assoc,
        List.singleton_append, List.cons_append, readValue_bracket hblank hne, ← List.cons_append,
        hread]
      rfl
  | .object [], steps + 1, rest, hplain, hsteps, hrest => by
      rw [write, writeMembers]
      rfl
  | .object ((key, value) :: members), steps + 1, rest, hplain, hsteps, hrest => by
      rw [Value.IsPlain] at hplain
      rw [write, List.length_append, List.length_cons, List.length_singleton] at hsteps
      obtain ⟨cs, hwrite⟩ := exists_writeMembers_eq_cons key value members
      have hread : readMembers steps (writeMembers ((key, value) :: members) ++ '}' :: rest) =
          some ((key, value) :: members, rest) :=
        readMembers_writeMembers ((key, value) :: members) (List.cons_ne_nil _ _) hplain
          (by omega)
      rw [hwrite] at hread
      rw [write, hwrite, List.cons_append, List.cons_append, List.append_assoc,
        List.singleton_append, List.cons_append, readValue_brace, ← List.cons_append, hread]
      rfl

theorem readItems_writeItems : ∀ (items : List Value) {steps : ℕ} {rest : List Char},
    items ≠ [] → PlainItems items → (writeItems items).length < steps →
    readItems steps (writeItems items ++ ']' :: rest) = some (items, rest)
  | [], steps, rest, hne, hplain, hsteps => absurd rfl hne
  | items, 0, rest, hne, hplain, hsteps => absurd hsteps (Nat.not_lt_zero _)
  | [item], steps + 1, rest, hne, hplain, hsteps => by
      rw [writeItems] at hsteps ⊢
      rw [PlainItems] at hplain
      rw [readItems, readValue_write item hplain.1 (by omega) (endsNumber_cons (by decide))]
      rfl
  | item :: next :: items, steps + 1, rest, hne, hplain, hsteps => by
      rw [PlainItems] at hplain
      have hlength : (writeItems (item :: next :: items)).length =
          (write item).length + 1 + (writeItems (next :: items)).length := by
        rw [writeItems]
        simp
        omega
      rw [writeItems_cons_cons, readItems,
        readValue_write item hplain.1 (by omega) (endsNumber_cons (by decide))]
      change (readItems steps (writeItems (next :: items) ++ ']' :: rest)).bind _ = _
      rw [readItems_writeItems (next :: items) (List.cons_ne_nil _ _) hplain.2 (by omega)]
      rfl

theorem readMembers_writeMembers : ∀ (members : List (Text × Value)) {steps : ℕ}
    {rest : List Char}, members ≠ [] → PlainMembers members →
    (writeMembers members).length < steps →
    readMembers steps (writeMembers members ++ '}' :: rest) = some (members, rest)
  | [], steps, rest, hne, hplain, hsteps => absurd rfl hne
  | members, 0, rest, hne, hplain, hsteps => absurd hsteps (Nat.not_lt_zero _)
  | [(key, value)], steps + 1, rest, hne, hplain, hsteps => by
      rw [PlainMembers] at hplain
      obtain ⟨s, rfl⟩ := Option.isSome_iff_exists.mp hplain.1
      have hlength : (writeMembers [(some s, value)]).length =
          (writeText (some s)).length + 1 + (write value).length := by
        rw [writeMembers]
        simp
        omega
      rw [writeMembers, List.append_assoc, List.cons_append]
      exact readMembers_last
        (readValue_write value hplain.2.1 (by omega) (endsNumber_cons (by decide)))
  | (key, value) :: next :: members, steps + 1, rest, hne, hplain, hsteps => by
      rw [PlainMembers] at hplain
      obtain ⟨s, rfl⟩ := Option.isSome_iff_exists.mp hplain.1
      have hlength : (writeMembers ((some s, value) :: next :: members)).length =
          (writeText (some s)).length + 1 + (write value).length + 1 +
            (writeMembers (next :: members)).length := by
        rw [writeMembers]
        simp
        omega
      have hmembers : writeMembers ((some s, value) :: next :: members) ++ '}' :: rest =
          writeText (some s) ++ ':' ::
            (write value ++ ',' :: (writeMembers (next :: members) ++ '}' :: rest)) := by
        rw [writeMembers]
        simp
      rw [hmembers, readMembers_next
        (readValue_write value hplain.2.1 (by omega) (endsNumber_cons (by decide)))]
      rw [readMembers_writeMembers (next :: members) (List.cons_ne_nil _ _) hplain.2.2 (by omega)]
      rfl

end

/-- What is written of a plain value is read back. -/
theorem read?_write {v : Value} (h : v.IsPlain) : read? (write v) = some v := by
  have hread := readValue_write v h (Nat.le_succ _) endsNumber_nil
  rw [List.append_nil] at hread
  rw [read?, hread]
  rfl

end Json
end SpendPlanner
