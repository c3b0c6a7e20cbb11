/-!
# ASCII case

Names of networks and fee levels are compared without regard to ASCII case.  Characters
outside ASCII are left alone, so a name spelled with a look-alike stays unknown.
-/

namespace SpendPlanner.Ascii

/-- The lower-case form of an ASCII capital; every other character is itself. -/
def lowerChar (c : Char) : Char :=
  if 'A' ≤ c ∧ c ≤ 'Z' then Char.ofNat (c.toNat + 32) else c

/-- A text with its ASCII capitals lowered. -/
def lower (s : String) : String := String.ofList (s.toList.map lowerChar)

end SpendPlanner.Ascii
