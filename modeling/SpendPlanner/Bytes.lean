import SpendPlanner.Text.Hex

/-!
# Bytes

Byte strings of any length, byte strings of exactly thirty-two bytes (keys, key images,
digests), and the little-endian form of a word.
-/

namespace SpendPlanner

/-- A byte string of any length. -/
abbrev Bytes := List UInt8

/-- A byte string of exactly thirty-two bytes. -/
structure Bytes32 where
  bytes : Bytes
  length_eq : bytes.length = 32
  deriving DecidableEq

namespace Bytes32

/-- A byte string of the right length. -/
def ofBytes? (bytes : Bytes) : Option Bytes32 :=
  if h : bytes.length = 32 then some ⟨bytes, h⟩ else none

/-- One byte, thirty-two times. -/
def repeated (b : UInt8) : Bytes32 := ⟨List.replicate 32 b, by simp⟩

/-- The hexadecimal text of the bytes. -/
def hex (b : Bytes32) : String := Hex.text b.bytes

/-- Byte strings are ordered by their first difference. -/
instance : LT Bytes32 := ⟨fun a b => a.bytes < b.bytes⟩

instance (a b : Bytes32) : Decidable (a < b) :=
  inferInstanceAs (Decidable (a.bytes < b.bytes))

theorem ofBytes?_bytes (b : Bytes32) : ofBytes? b.bytes = some b := by
  simp [ofBytes?, b.length_eq]

theorem lt_irrefl (a : Bytes32) : ¬a < a := List.lt_irrefl a.bytes

theorem lt_trans {a b c : Bytes32} (hab : a < b) (hbc : b < c) : a < c :=
  List.lt_trans hab hbc

theorem lt_of_not_lt_of_ne {a b : Bytes32} (hlt : ¬a < b) (hne : a ≠ b) : b < a := by
  have hle : b.bytes ≤ a.bytes := List.not_lt.1 hlt
  rcases List.le_iff_lt_or_eq.1 hle with h | h
  · exact h
  · exact absurd (by cases a; cases b; simp_all) hne

end Bytes32

/-- The eight bytes of a word, least significant first. -/
def littleEndian (w : UInt64) : Bytes :=
  (List.range 8).map fun i => UInt8.ofNat (w.toNat >>> (8 * i))

theorem length_littleEndian (w : UInt64) : (littleEndian w).length = 8 := by
  simp [littleEndian]

end SpendPlanner
