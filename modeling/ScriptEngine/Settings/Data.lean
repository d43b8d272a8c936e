import ScriptEngine.Realm
import ScriptEngine.Yaml.Moment

namespace ScriptEngine

/-!
# Data for scripts

Data that is not written in the script language can be handed to a script: nothing,
truth values, numbers, texts, lists and tables.  It becomes values of a realm.
Some data has no counterpart there; the path that leads to it is reported.
-/

mutual

/-- Data; the entries of a table are in ascending order of their names. -/
inductive Data where
  | null
  | boolean (value : Bool)
  | integer (value : Int)
  | number (value : Float)
  | string (text : String)
  | list (items : List Data)
  | table (entries : List DataEntry)
  /-- A table with a key that is not a text. -/
  | mixedTable (entries : List MixedEntry)
  /-- A point in time. -/
  | moment (value : Yaml.Moment)

/-- A named entry of a table. -/
inductive DataEntry where
  | mk (name : String) (value : Data)

/-- An entry of a table whose keys are any data. -/
inductive MixedEntry where
  | mk (key value : Data)

end

namespace DataEntry

/-- The name of an entry. -/
def name : DataEntry → String
  | mk name _ => name

/-- The data of an entry. -/
def value : DataEntry → Data
  | mk _ value => value

/-- Entries in ascending order of their names; of entries with one name the last one counts. -/
def ordered (entries : List DataEntry) : List DataEntry :=
  let latest := entries.foldr
    (fun entry kept => if kept.any (·.name == entry.name) then kept else entry :: kept) []
  latest.mergeSort fun left right => !Text.before right.name left.name

end DataEntry

namespace Data

/-- A table of entries. -/
def ofEntries (entries : List DataEntry) : Data :=
  table (DataEntry.ordered entries)

end Data

/-- A step into data. -/
inductive DataStep where
  | item (index : Nat)
  | entry (name : String)
  deriving DecidableEq, Repr

namespace DataStep

/-- A step as messages show it. -/
def text : DataStep → String
  | item index => s!"[{index}]: "
  | entry name => "." ++ name ++ ": "

end DataStep

/-- Data without a counterpart among the values. -/
inductive ForeignData where
  | mixedTable
  | moment
  deriving DecidableEq, Repr

namespace ForeignData

/-- The name of the type of foreign data. -/
def typeText : ForeignData → String
  | mixedTable => "map[interface \x7b\x7d]interface \x7b\x7d"
  | moment => "time.Time"

end ForeignData

/-- Why data has no value: what is foreign, and the way to it. -/
structure DataFault where
  path : List DataStep
  foreign : ForeignData
  deriving DecidableEq, Repr

namespace DataFault

/-- A fault seen from one step further out. -/
def under (step : DataStep) (fault : DataFault) : DataFault :=
  { fault with path := step :: fault.path }

/-- The wording of a fault. -/
def message (fault : DataFault) : String :=
  String.join (fault.path.map DataStep.text) ++ "unsupported value of type " ++
    fault.foreign.typeText

end DataFault

mutual

/-- The value of data on a machine, with the machine that holds it. -/
def Data.toValue (machine : Machine) : Data → Except DataFault (Value × Machine)
  | .null => .ok (.undefined, machine)
  | .boolean value => .ok (.boolean value, machine)
  | .integer value => .ok (.number (Number.ofInt value), machine)
  | .number value => .ok (.number value, machine)
  | .string text => .ok (.string text, machine)
  | .list items =>
      match Data.toValues machine 0 items with
      | .error fault => .error fault
      | .ok (values, machine) =>
          let (id, heap) := machine.heap.make
            ⟨some Heap.arrayPrototype, [], .array (Storage.exact values.toArray)⟩
          .ok (.object .array id, { machine with heap := heap })
  | .table entries =>
      match DataEntry.toProperties machine entries with
      | .error fault => .error fault
      | .ok (properties, machine) =>
          let (id, heap) := machine.heap.make ⟨some Heap.objectPrototype, properties, .plain⟩
          .ok (.object .plain id, { machine with heap := heap })
  | .mixedTable _ => .error ⟨[], .mixedTable⟩
  | .moment _ => .error ⟨[], .moment⟩

/-- The values of the items of a list from an index on. -/
def Data.toValues (machine : Machine) (index : Nat) :
    List Data → Except DataFault (List Value × Machine)
  | [] => .ok ([], machine)
  | first :: rest =>
      match first.toValue machine with
      | .error fault => .error (fault.under (.item index))
      | .ok (value, machine) =>
          match Data.toValues machine (index + 1) rest with
          | .error fault => .error fault
          | .ok (values, machine) => .ok (value :: values, machine)

/-- The properties that the entries of a table become. -/
def DataEntry.toProperties (machine : Machine) :
    List DataEntry → Except DataFault (Properties × Machine)
  | [] => .ok ([], machine)
  | .mk name data :: rest =>
      match data.toValue machine with
      | .error fault => .error (fault.under (.entry name))
      | .ok (value, machine) =>
          match DataEntry.toProperties machine rest with
          | .error fault => .error fault
          | .ok (properties, machine) => .ok (⟨name, value, false⟩ :: properties, machine)

end

/-!
## The text of data

A message about data that cannot be a key shows all of it.  A table is shown in the
order of its keys: keys of one kind in their own order, and the kinds one after
another.
-/

/-- Numbers in messages: positional from a ten-thousandth up to a million, with a signed zero. -/
def Number.Layout.message : Number.Layout where
  leastPoint := -3
  greatestPoint := 6
  exponentWidth := 2
  notANumber := "NaN"
  infinity := "+Inf"
  negativeInfinity := "-Inf"
  zero := "0"
  negativeZero := "-0"

namespace Data

/-- A whole number in messages; one of 64 bits without room for a sign is in hexadecimal. -/
def integerText (value : Int) : String :=
  if value < Int.ofNat (Nat.pow 2 63) then toString value
  else "0x" ++ Text.hexText 1 value.toNat

/-- The name of the type of data that cannot be a key, if it cannot. -/
def collectionType? : Data → Option String
  | list _ => some "[]interface \x7b\x7d"
  | table _ => some "map[string]interface \x7b\x7d"
  | mixedTable _ => some ForeignData.mixedTable.typeText
  | _ => none

/-- The place of a kind of key among the kinds. -/
def kindRank : Data → Nat
  | null => 0
  | integer value => if value < Int.ofNat (Nat.pow 2 63) then 2 else 1
  | number _ => 3
  | boolean _ => 4
  | string _ => 5
  | moment _ => 6
  | _ => 7

/-- Whether a key of a kind comes before another one of the same kind. -/
def keyBefore : Data → Data → Bool
  | integer left, integer right => left < right
  | number left, number right => left < right || (Number.isNaN left && !Number.isNaN right)
  | boolean left, boolean right => !left && right
  | string left, string right => Text.before left right
  | moment left, moment right => left.before right
  | _, _ => false

/-- Whether a key comes before another one. -/
def before (left right : Data) : Bool :=
  left.kindRank < right.kindRank || (left.kindRank == right.kindRank && keyBefore left right)

end Data

/-- A key with the texts of an entry. -/
structure ShownEntry where
  key : Data
  text : String

namespace ShownEntry

/-- The texts of entries in the order of their keys. -/
def ordered (entries : List ShownEntry) : List String :=
  (entries.mergeSort fun left right => !right.key.before left.key).map ShownEntry.text

end ShownEntry

mutual

/-- Data as a message shows it. -/
def Data.shown : Data → String
  | .null => "interface \x7b\x7d(nil)"
  | .boolean value => if value then "true" else "false"
  | .integer value => Data.integerText value
  | .number value => Number.Layout.message.text value
  | .string text => Text.quoted text
  | .list items => "[]interface \x7b\x7d\x7b" ++ ", ".intercalate (Data.shownAll items) ++ "\x7d"
  | .table entries =>
      "map[string]interface \x7b\x7d\x7b" ++ ", ".intercalate (DataEntry.shownAll entries) ++ "\x7d"
  | .mixedTable entries =>
      ForeignData.mixedTable.typeText ++ "\x7b" ++
        ", ".intercalate (ShownEntry.ordered (MixedEntry.shownAll entries)) ++ "\x7d"
  | .moment value => value.text

/-- Items as a message shows them. -/
def Data.shownAll : List Data → List String
  | [] => []
  | first :: rest => first.shown :: Data.shownAll rest

/-- Entries as a message shows them. -/
def DataEntry.shownAll : List DataEntry → List String
  | [] => []
  | .mk name value :: rest => (Text.quoted name ++ ":" ++ value.shown) :: DataEntry.shownAll rest

/-- Entries with any keys as a message shows them. -/
def MixedEntry.shownAll : List MixedEntry → List ShownEntry
  | [] => []
  | .mk key value :: rest =>
      ⟨key, key.shown ++ ":" ++ value.shown⟩ :: MixedEntry.shownAll rest

end

end ScriptEngine
