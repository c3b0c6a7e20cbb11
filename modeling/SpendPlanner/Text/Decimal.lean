/-!
# Decimal text

Natural numbers are written with ASCII digits, most significant first and without leading
zeros.  Reading accepts any nonempty run of digits.  The main statement is `value_digits`:
reading back what was written gives the number.
-/

namespace SpendPlanner.Decimal

/-- The character of a digit below ten. -/
def digitChar (d : Nat) : Char := Char.ofNat ('0'.toNat + d)

/-- The value of an ASCII digit. -/
def digitValue (c : Char) : Nat := c.toNat - '0'.toNat

/-- The digits of a number, most significant first. -/
def digits (n : Nat) : List Char :=
  if n < 10 then [digitChar n] else digits (n / 10) ++ [digitChar (n % 10)]

/-- The number a run of digits stands for. -/
def value (cs : List Char) : Nat := cs.foldl (fun n c => 10 * n + digitValue c) 0

/-- The text of a number. -/
def text (n : Nat) : String := String.ofList (digits n)

/-- The number written by a nonempty run of ASCII digits. -/
def read? (cs : List Char) : Option Nat :=
  if cs.isEmpty || !cs.all Char.isDigit then none else some (value cs)

theorem digitValue_digitChar {d : Nat} (h : d < 10) : digitValue (digitChar d) = d := by
  have : ∀ d < 10, digitValue (digitChar d) = d := by decide
  exact this d h

theorem isDigit_digitChar {d : Nat} (h : d < 10) : (digitChar d).isDigit = true := by
  have : ∀ d < 10, (digitChar d).isDigit = true := by decide
  exact this d h

theorem value_append_singleton (cs : List Char) (c : Char) :
    value (cs ++ [c]) = 10 * value cs + digitValue c := by
  simp [value, List.foldl_append]

/-- Reading back the digits of a number gives the number. -/
theorem value_digits (n : Nat) : value (digits n) = n := by
  induction n using Nat.strongRecOn with
  | ind n ih =>
    rw [digits]
    split
    · next h => simp [value, digitValue_digitChar h]
    · next h =>
      rw [value_append_singleton, ih (n / 10) (by omega),
        digitValue_digitChar (Nat.mod_lt n (by decide))]
      omega

theorem digits_ne_nil (n : Nat) : digits n ≠ [] := by
  rw [digits]
  split <;> simp

theorem all_isDigit_digits (n : Nat) : (digits n).all Char.isDigit = true := by
  induction n using Nat.strongRecOn with
  | ind n ih =>
    rw [digits]
    split
    · next h => simp [isDigit_digitChar h]
    · next h =>
      simp [ih (n / 10) (by omega), isDigit_digitChar (Nat.mod_lt n (by decide))]

/-- What is written is read back. -/
theorem read?_digits (n : Nat) : read? (digits n) = some n := by
  simp [read?, digits_ne_nil, all_isDigit_digits, value_digits]

end SpendPlanner.Decimal
