/-!
# Hexadecimal text

Bytes are written as two lower-case digits each, high half first.  Reading accepts digits
of either case and refuses an odd number of them.  The main statement is `decode?_encode`.
-/

namespace SpendPlanner.Hex

/-- The lower-case digit of a half byte. -/
def digitChar (d : Nat) : Char :=
  if d < 10 then Char.ofNat ('0'.toNat + d) else Char.ofNat ('a'.toNat + (d - 10))

/-- The value of a hexadecimal digit of either case. -/
def digitValue? (c : Char) : Option Nat :=
  if '0' ≤ c ∧ c ≤ '9' then some (c.toNat - '0'.toNat)
  else if 'a' ≤ c ∧ c ≤ 'f' then some (c.toNat - 'a'.toNat + 10)
  else if 'A' ≤ c ∧ c ≤ 'F' then some (c.toNat - 'A'.toNat + 10)
  else none

/-- The two digits of a byte. -/
def encodeByte (b : UInt8) : List Char := [digitChar (b.toNat / 16), digitChar (b.toNat % 16)]

/-- The digits of a list of bytes. -/
def encode (bytes : List UInt8) : List Char := bytes.flatMap encodeByte

/-- The hexadecimal text of a list of bytes. -/
def text (bytes : List UInt8) : String := String.ofList (encode bytes)

/-- The bytes written by pairs of digits. -/
def decode? : List Char → Option (List UInt8)
  | [] => some []
  | [_] => none
  | a :: b :: rest => do
    let high ← digitValue? a
    let low ← digitValue? b
    let bytes ← decode? rest
    return UInt8.ofNat (16 * high + low) :: bytes

/-- The number written by a run of hexadecimal digits. -/
def value? (cs : List Char) : Option Nat :=
  cs.foldlM (fun n c => (digitValue? c).map (16 * n + ·)) 0

/-- The digits of a number in base sixteen, without leading zeros. -/
def ofNat (n : Nat) : List Char :=
  if n < 16 then [digitChar n] else ofNat (n / 16) ++ [digitChar (n % 16)]

theorem digitValue?_digitChar {d : Nat} (h : d < 16) :
    digitValue? (digitChar d) = some d := by
  have : ∀ d < 16, digitValue? (digitChar d) = some d := by decide
  exact this d h

/-- What is written is read back. -/
theorem decode?_encode (bytes : List UInt8) : decode? (encode bytes) = some bytes := by
  induction bytes with
  | nil => rfl
  | cons b bytes ih =>
    have high : b.toNat / 16 < 16 := by have := b.toNat_lt; omega
    have low : b.toNat % 16 < 16 := Nat.mod_lt _ (by decide)
    have whole : 16 * (b.toNat / 16) + b.toNat % 16 = b.toNat := by omega
    have step : encode (b :: bytes) =
        digitChar (b.toNat / 16) :: digitChar (b.toNat % 16) :: encode bytes := rfl
    rw [step, decode?, digitValue?_digitChar high, digitValue?_digitChar low, ih]
    change some (UInt8.ofNat (16 * (b.toNat / 16) + b.toNat % 16) :: bytes) = _
    rw [whole, UInt8.ofNat_toNat]

theorem length_encode (bytes : List UInt8) : (encode bytes).length = 2 * bytes.length := by
  induction bytes with
  | nil => rfl
  | cons b bytes ih => simp_all [encode, encodeByte]; omega

end SpendPlanner.Hex
