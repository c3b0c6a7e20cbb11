import SpendPlanner.Json.Value
import SpendPlanner.Text.Hex

/-!
# Reading JSON

A strict reader: one value with nothing but blanks around it, no comments, no trailing
commas, no leading zeros, no raw control characters in strings.  Each reader takes the
characters from where it starts and returns what it read together with the characters after
it.  Values nest, so their readers take a bound on the remaining steps; `read?` starts with
one step more than there are characters, which is never used up, because every step consumes
a character.
-/

namespace SpendPlanner.Json

/-- The characters allowed between tokens. -/
def isBlank (c : Char) : Bool := c = ' ' || c = '\t' || c = '\n' || c = '\r'

/-- The characters from the first that is not blank. -/
def skipBlanks (cs : List Char) : List Char := cs.dropWhile isBlank

/-! ## Strings -/

/-- One unit of a string: a character, or half of a surrogate pair. -/
inductive Unit16 where
  | char (c : Char)
  | high (n : Nat)
  | low (n : Nat)
  deriving DecidableEq

/-- The unit that a four-digit escape stands for. -/
def Unit16.ofNat (n : Nat) : Unit16 :=
  if 0xD800 ≤ n ∧ n < 0xDC00 then high n
  else if 0xDC00 ≤ n ∧ n < 0xE000 then low n
  else char (Char.ofNat n)

/-- The characters of a list of units, if every surrogate is paired. -/
def pairUnits : List Unit16 → Option (List Char)
  | [] => some []
  | .char c :: rest => (pairUnits rest).map (c :: ·)
  | .high h :: .low l :: rest =>
    (pairUnits rest).map (Char.ofNat (0x10000 + 0x400 * (h - 0xD800) + (l - 0xDC00)) :: ·)
  | _ => none

/-- The character that a one-letter escape stands for. -/
def shortEscape? : Char → Option Char
  | '"' => some '"'
  | '\\' => some '\\'
  | '/' => some '/'
  | 'b' => some '\x08'
  | 'f' => some '\x0c'
  | 'n' => some '\n'
  | 'r' => some '\r'
  | 't' => some '\t'
  | _ => none

/-- Reads the rest of a string, its opening quote already passed. -/
def readUnits : List Char → Option (List Unit16 × List Char)
  | [] => none
  | '"' :: rest => some ([], rest)
  | '\\' :: 'u' :: a :: b :: c :: d :: rest => do
    let n ← Hex.value? [a, b, c, d]
    let (units, rest) ← readUnits rest
    return (.ofNat n :: units, rest)
  | '\\' :: e :: rest => do
    let c ← shortEscape? e
    let (units, rest) ← readUnits rest
    return (.char c :: units, rest)
  | c :: rest =>
    if c.toNat < 0x20 then none
    else do
      let (units, rest) ← readUnits rest
      return (.char c :: units, rest)

/-- Reads a string, its opening quote already passed. -/
def readText (cs : List Char) : Option (Text × List Char) := do
  let (units, rest) ← readUnits cs
  return ((pairUnits units).map String.ofList, rest)

/-! ## Numbers -/

/-- Reads one digit or more. -/
def readDigits (cs : List Char) : Option (List Char × List Char) :=
  let digits := cs.takeWhile Char.isDigit
  if digits.isEmpty then none else some (digits, cs.dropWhile Char.isDigit)

/-- Reads the digits before the point; only a lone zero may start with zero. -/
def readWhole : List Char → Option (List Char × List Char)
  | '0' :: rest => some (['0'], rest)
  | cs => readDigits cs

/-- Reads a point and the digits after it, if there is a point. -/
def readFraction : List Char → Option (List Char × List Char)
  | '.' :: rest => do
    let (digits, rest) ← readDigits rest
    return ('.' :: digits, rest)
  | cs => some ([], cs)

/-- Reads the sign of an exponent, if there is one. -/
def readSign : List Char → List Char × List Char
  | '+' :: rest => (['+'], rest)
  | '-' :: rest => (['-'], rest)
  | cs => ([], cs)

/-- Reads an exponent, if there is one. -/
def readExponent : List Char → Option (List Char × List Char)
  | c :: rest =>
    if c = 'e' ∨ c = 'E' then do
      let (sign, rest) := readSign rest
      let (digits, rest) ← readDigits rest
      return (c :: sign ++ digits, rest)
    else some ([], c :: rest)
  | [] => some ([], [])

/-- Reads a number without its sign. -/
def readUnsigned (cs : List Char) : Option (List Char × List Char) := do
  let (whole, rest) ← readWhole cs
  let (fraction, rest) ← readFraction rest
  let (exponent, rest) ← readExponent rest
  return (whole ++ fraction ++ exponent, rest)

/-- Reads a number, keeping its spelling. -/
def readNumber : List Char → Option (List Char × List Char)
  | '-' :: rest => do
    let (spelling, rest) ← readUnsigned rest
    return ('-' :: spelling, rest)
  | cs => readUnsigned cs

/-! ## Values -/

mutual

/-- Reads a value after any blanks. -/
def readValue : Nat → List Char → Option (Value × List Char)
  | 0, _ => none
  | steps + 1, cs =>
    match skipBlanks cs with
    | 'n' :: 'u' :: 'l' :: 'l' :: rest => some (.null, rest)
    | 't' :: 'r' :: 'u' :: 'e' :: rest => some (.bool true, rest)
    | 'f' :: 'a' :: 'l' :: 's' :: 'e' :: rest => some (.bool false, rest)
    | '"' :: rest => do
      let (text, rest) ← readText rest
      return (.string text, rest)
    | '[' :: rest =>
      match skipBlanks rest with
      | ']' :: rest => some (.array [], rest)
      | rest => do
        let (items, rest) ← readItems steps rest
        return (.array items, rest)
    | '{' :: rest =>
      match skipBlanks rest with
      | '}' :: rest => some (.object [], rest)
      | rest => do
        let (members, rest) ← readMembers steps rest
        return (.object members, rest)
    | rest => do
      let (spelling, rest) ← readNumber rest
      return (.number spelling, rest)

/-- Reads one item or more, up to the closing bracket. -/
def readItems : Nat → List Char → Option (List Value × List Char)
  | 0, _ => none
  | steps + 1, cs => do
    let (item, rest) ← readValue steps cs
    match skipBlanks rest with
    | ',' :: rest => do
      let (items, rest) ← readItems steps rest
      return (item :: items, rest)
    | ']' :: rest => some ([item], rest)
    | _ => none

/-- Reads one member or more, up to the closing brace. -/
def readMembers : Nat → List Char → Option (List (Text × Value) × List Char)
  | 0, _ => none
  | steps + 1, cs =>
    match skipBlanks cs with
    | '"' :: rest => do
      let (key, rest) ← readText rest
      match skipBlanks rest with
      | ':' :: rest => do
        let (value, rest) ← readValue steps rest
        match skipBlanks rest with
        | ',' :: rest => do
          let (members, rest) ← readMembers steps rest
          return ((key, value) :: members, rest)
        | '}' :: rest => some ([(key, value)], rest)
        | _ => none
      | _ => none
    | _ => none

end

/-- The value a whole text stands for. -/
def read? (text : List Char) : Option Value :=
  match readValue (text.length + 1) text with
  | some (value, rest) => if (skipBlanks rest).isEmpty then some value else none
  | none => none

end SpendPlanner.Json
