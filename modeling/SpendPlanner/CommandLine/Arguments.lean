import SpendPlanner.Fee

/-!
# Command line arguments

A command line names one command, and its amount where the command takes one.  Settings may
stand before or after the name; each is given at most once on either side, and the value
after the name counts.  A value follows its setting as the next argument, after an equals
sign or, with the short form, at once.  Two dashes after the name end the settings.
-/

namespace SpendPlanner.CommandLine

/-- The settings that take a value. -/
inductive Setting where
  | config
  | records
  | token
  | level
  deriving DecidableEq

namespace Setting

/-- The setting of a long form. -/
def ofName? (name : String) : Option Setting :=
  if name = "config" then some config
  else if name = "records" then some records
  else if name = "token" then some token
  else if name = "level" then some level
  else none

/-- The setting of a short form. -/
def ofLetter? : Char → Option Setting
  | 'c' => some config
  | 'r' => some records
  | 't' => some token
  | 'l' => some level
  | _ => none

end Setting

/-- A piece of a command line. -/
inductive Item where
  | setting (setting : Setting) (value : String)
  /-- Amounts are shown in the log. -/
  | reveal
  | word (text : String)
  /-- The settings end here. -/
  | terminator

/-- What a single argument is. -/
inductive Reading where
  | item (item : Item)
  /-- A setting whose value is the next argument. -/
  | awaiting (setting : Setting)
  | terminator
  | unknown

/-- Reads a long form, given without its dashes. -/
def readLong (form : List Char) : Reading :=
  let name := String.ofList (form.takeWhile (· ≠ '='))
  match form.dropWhile (· ≠ '=') with
  | [] =>
    if name = "reveal-amounts" then .item .reveal
    else (Setting.ofName? name).elim .unknown .awaiting
  | _ :: value =>
    (Setting.ofName? name).elim .unknown fun s => .item (.setting s (String.ofList value))

/-- Reads a short form, given without its dash. -/
def readShort (letter : Char) (rest : List Char) : Reading :=
  match Setting.ofLetter? letter, rest with
  | none, _ => .unknown
  | some s, [] => .awaiting s
  | some s, '=' :: value => .item (.setting s (String.ofList value))
  | some s, value => .item (.setting s (String.ofList value))

/-- Reads an argument; a single dash is a word. -/
def readArgument (argument : String) : Reading :=
  match argument.toList with
  | ['-', '-'] => .terminator
  | '-' :: '-' :: form => readLong form
  | '-' :: letter :: rest => readShort letter rest
  | _ => .item (.word argument)

/-- Whether an argument can be the value of the setting before it. -/
def canBeValue (argument : String) : Bool :=
  match argument.toList with
  | '-' :: _ :: _ => false
  | _ => true

/-- The pieces of a command line, if every argument has a reading. -/
def items? : List String → Option (List Item)
  | [] => some []
  | argument :: arguments =>
    match readArgument argument with
    | .item item => (items? arguments).map (item :: ·)
    | .terminator => some (.terminator :: arguments.map .word)
    | .unknown => none
    | .awaiting setting =>
      match arguments with
      | [] => none
      | value :: arguments =>
        if canBeValue value then (items? arguments).map (.setting setting value :: ·)
        else none

/-- The pieces before the first word, the word, and the pieces after it. -/
def splitAtWord? : List Item → Option (List Item × String × List Item)
  | [] => none
  | .word name :: items => some ([], name, items)
  | item :: items => do
    let (before, name, after) ← splitAtWord? items
    return (item :: before, name, after)

/-- The words among pieces. -/
def words (items : List Item) : List String :=
  items.filterMap fun
    | .word text => some text
    | _ => none

/-- A number, which may carry a plus sign, if it is a word. -/
def number? (text : String) : Option UInt64 :=
  let digits := match text.toList with
    | '+' :: digits => digits
    | digits => digits
  (Decimal.read? digits).bind word?

/-- The path of a file, which is not empty. -/
def path? (text : String) : Option String := if text.isEmpty then none else some text

/-- What settings say; where they are silent there is no value. -/
structure Settings where
  configPath : Option String
  recordsPath : Option String
  token : Option TokenId
  level : Option FeeLevel
  revealAmounts : Bool

namespace Settings

/-- Settings that say nothing. -/
def silent : Settings := ⟨none, none, none, none, false⟩

/-- Adds what a piece says, unless it has been said already or makes no sense. -/
def add? (s : Settings) : Item → Option Settings
  | .setting .config text =>
    if s.configPath.isSome then none
    else (path? text).map fun path => { s with configPath := some path }
  | .setting .records text =>
    if s.recordsPath.isSome then none
    else (path? text).map fun path => { s with recordsPath := some path }
  | .setting .token text =>
    if s.token.isSome then none
    else (number? text).map fun id => { s with token := some ⟨id⟩ }
  | .setting .level text =>
    if s.level.isSome then none
    else (FeeLevel.parse text).toOption.map fun level => { s with level := some level }
  | .reveal => if s.revealAmounts then none else some { s with revealAmounts := true }
  | .word _ | .terminator => some s

/-- What pieces say. -/
def ofItems? (items : List Item) : Option Settings := items.foldlM add? silent

/-- What two sides say together; the first counts where both speak. -/
def orElse (a b : Settings) : Settings where
  configPath := a.configPath.or b.configPath
  recordsPath := a.recordsPath.or b.recordsPath
  token := a.token.or b.token
  level := a.level.or b.level
  revealAmounts := a.revealAmounts || b.revealAmounts

end Settings

/-- What is asked for. -/
inductive Command where
  /-- The largest amount a single recipient could receive. -/
  | transferable
  /-- The fees of sending an amount. -/
  | fee (amount : UInt64)
  /-- The consolidations that come before sending an amount. -/
  | defragment (amount : UInt64)
  /-- The records and the fee of sending the whole balance. -/
  | sweep
  deriving DecidableEq

/-- The command of a name with the words that follow it. -/
def Command.ofWords? (name : String) (arguments : List String) : Option Command :=
  match arguments with
  | [] =>
    if name = "transferable" then some transferable
    else if name = "sweep" then some sweep
    else none
  | [amount] =>
    if name = "fee" then (number? amount).map fee
    else if name = "defrag" then (number? amount).map defragment
    else none
  | _ => none

/-- What a command line asks for, and under which settings. -/
structure Arguments where
  command : Command
  /-- The path of the configuration, if there is one. -/
  configPath : Option String
  recordsPath : String
  token : TokenId
  level : FeeLevel
  /-- Whether amounts are shown in the log. -/
  revealAmounts : Bool

namespace Arguments

/-- Whether a piece ends the settings. -/
def isTerminator : Item → Bool
  | .terminator => true
  | _ => false

/-- Reads a command line. -/
def parse? (arguments : List String) : Option Arguments := do
  let items ← items? arguments
  let (before, name, after) ← splitAtWord? items
  if before.any isTerminator then none
  let command ← Command.ofWords? name (words after)
  let settings := (← Settings.ofItems? after).orElse (← Settings.ofItems? before)
  return {
    command := command
    configPath := settings.configPath
    recordsPath := settings.recordsPath.getD "records.json"
    token := settings.token.getD .mob
    level := settings.level.getD .minimum
    revealAmounts := settings.revealAmounts }

end Arguments
end SpendPlanner.CommandLine
