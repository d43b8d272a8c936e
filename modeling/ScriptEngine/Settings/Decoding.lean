import ScriptEngine.Settings.Data
import ScriptEngine.Yaml.Document

namespace ScriptEngine

/-!
# Data from YAML nodes

A node becomes data of the kind that is wanted.  A node of another kind is reported
and left out, and reading goes on; only what makes the document meaningless as a
whole ends it.  Mappings can take over the entries of others.  A reference is followed
to its node, and it is an error to come upon it again while that is decoded; so there
is a bound on how many references are followed at a time.
-/

/-- What a node is wanted for. -/
inductive Wanted where
  | settings
  | globals
  | string
  | integer
  | boolean
  deriving DecidableEq, Repr

namespace Wanted

/-- The type a message names. -/
def text : Wanted → String
  | settings => "config.Config"
  | globals => "map[string]interface \x7b\x7d"
  | string => "string"
  | integer => "int"
  | boolean => "bool"

end Wanted

/-- What is reported of a node that is left out. -/
inductive NodeIssue where
  | repeatedKey (line : Nat) (key : String) (firstLine : Nat)
  | wrongKind (line : Nat) (tag text : String) (wanted : Wanted)
  | unknownField (line : Nat) (name : String)
  | repeatedField (line : Nat) (name : String)
  deriving DecidableEq, Repr

namespace NodeIssue

/-- A text as a report shows it, cut to its first bytes if it is long. -/
def shownText (text : String) : String :=
  if 10 < text.utf8ByteSize then " \x60" ++ Text.byteSlice text 0 7 ++ "...\x60"
  else " \x60" ++ text ++ "\x60"

/-- The wording of an issue. -/
def message : NodeIssue → String
  | repeatedKey line key firstLine =>
      s!"line {line}: mapping key " ++ Text.quoted key ++ s!" already defined at line {firstLine}"
  | wrongKind line tag text wanted =>
      let shown := if tag == Yaml.Tag.sequence || tag == Yaml.Tag.mapping then text
        else shownText text
      s!"line {line}: cannot unmarshal {tag}" ++ shown ++ " into " ++ wanted.text
  | unknownField line name =>
      s!"line {line}: field {name} not found in type " ++ Wanted.settings.text
  | repeatedField line name =>
      s!"line {line}: field {name} already set in type " ++ Wanted.settings.text

/-- The wording of several issues. -/
def messageAll (issues : List NodeIssue) : String :=
  "yaml: unmarshal errors:" ++ String.join (issues.map fun issue => "\n  " ++ issue.message)

end NodeIssue

/--
What was reported, the latest first, how many nodes were visited, also by reference,
the places of the references that are followed, and the anchored nodes.
-/
structure DecodingState where
  issues : List NodeIssue := []
  visited : Nat := 1
  referred : Nat := 0
  followed : List Nat := []
  anchored : List (Nat × Yaml.Node) := []

/-- A step of decoding. -/
abbrev Decoding :=
  StateT DecodingState (Except Yaml.Fault)

namespace DecodingState

/--
Whether too many of the visits go through references: more than 99 in 100 in a small
document, and less in a large one.
-/
def isExcessive (state : DecodingState) : Bool :=
  let span := 3600000
  let allowed :=
    if state.visited ≤ 400000 then 99 * span
    else if 4000000 ≤ state.visited then 10 * span
    else 99 * span - 89 * (state.visited - 400000)
  100 < state.referred && 1000 < state.visited &&
    allowed * state.visited < 100 * span * state.referred

end DecodingState

namespace Decoding

/-- Report an issue. -/
def report (issue : NodeIssue) : Decoding Unit :=
  modify fun state => { state with issues := issue :: state.issues }

/-- Count a visit to a node. -/
def visit : Decoding Unit := do
  modify fun state => { state with
    visited := state.visited + 1
    referred := if state.followed.isEmpty then state.referred else state.referred + 1 }
  if (← get).isExcessive then throw (.unplaced .excessiveAliases)

/-- Visit a reference and decode the node it refers to. -/
def follow (place : Nat) (name : String) (target : Yaml.Anchored)
    (decode : Yaml.Node → Decoding α) : Decoding α := do
  visit
  let state ← get
  if state.followed.contains place then throw (.unplaced (.selfContained name))
  match state.anchored.lookup target.place with
  | none => throw (.unplaced (.unknownAnchor name))
  | some node =>
      modify fun state => { state with followed := place :: state.followed }
      let result ← decode node
      modify fun state => { state with followed := state.followed.erase place }
      return result

/-- What a scalar stands for. -/
def scalar (tag text : String) : Decoding Yaml.Scalar := do
  if tag == Yaml.Tag.binary then return .string (← Yaml.Scalar.ofBase64 text)
  else Yaml.Scalar.resolve tag text

/-- Report the keys of a mapping that are there before; tells whether there are any. -/
def reportRepeated : List Yaml.Pair → Decoding Bool
  | [] => pure false
  | .mk key _ :: rest => do
      let again := rest.filter fun other =>
        key.form == other.key.form && key.text == other.key.text
      for other in again do
        report (.repeatedKey other.key.line other.key.text key.line)
      let more ← reportRepeated rest
      return !again.isEmpty || more

/-- Report that a node is of another kind than is wanted. -/
def refuse (line : Nat) (tag text : String) (wanted : Wanted) : Decoding (Option α) := do
  report (.wrongKind line tag text wanted)
  return none

/-- Decode a node that is no reference as a scalar of a wanted kind; nothing is left out silently. -/
def ownScalar (wanted : Wanted) (accepts : String → Yaml.Scalar → Option α) (node : Yaml.Node) :
    Decoding (Option α) := do
  visit
  match node with
  | .scalar tag _ text line =>
      match ← scalar tag text with
      | .null => return none
      | found =>
          match accepts text found with
          | some value => return some value
          | none => refuse line tag text wanted
  | .sequence tag _ line => refuse line tag "" wanted
  | .mapping tag pairs line =>
      if ← reportRepeated pairs then return none
      refuse line tag "" wanted
  | .reference .. => return none

/-- Decode a scalar of a wanted kind by what it stands for. -/
def wantedScalar (wanted : Wanted) (accepts : String → Yaml.Scalar → Option α) :
    Yaml.Node → Decoding (Option α)
  | .reference place name target _ => follow place name target (ownScalar wanted accepts)
  | node => ownScalar wanted accepts node

/-- Decode a text; any scalar but nothing is one. -/
def string (node : Yaml.Node) : Decoding (Option String) :=
  wantedScalar .string (fun text found =>
    match found with
    | .string value => some value
    | _ => some text) node

/-- The words for truth values besides the usual ones. -/
def truthWord? : String → Option Bool
  | "y" | "Y" | "yes" | "Yes" | "YES" | "on" | "On" | "ON" => some true
  | "n" | "N" | "no" | "No" | "NO" | "off" | "Off" | "OFF" => some false
  | _ => none

/-- Decode a truth value. -/
def boolean (node : Yaml.Node) : Decoding (Option Bool) :=
  wantedScalar .boolean (fun _ found =>
    match found with
    | .boolean value => some value
    | .string text => truthWord? text
    | _ => none) node

/-- The whole number of 64 bits a number is cut to; one that is out of range below is the least. -/
def cut? (value : Float) : Option Int :=
  if value ≤ Number.ofNat (Nat.pow 2 63) then
    let least := -Int.ofNat (Nat.pow 2 63)
    match Number.toInteger? value with
    | some whole => some (if whole < least || Int.ofNat (Nat.pow 2 63) ≤ whole then least else whole)
    | none => some least
  else none

/-- Decode a whole number. -/
def integer (node : Yaml.Node) : Decoding (Option Int) :=
  wantedScalar .integer (fun _ found =>
    match found with
    | .integer value => if value < Int.ofNat (Nat.pow 2 63) then some value else none
    | .float value => cut? value
    | _ => none) node

end Decoding

namespace Data

/-- Whether two pieces of data are the same key. -/
def sameKey : Data → Data → Bool
  | null, null => true
  | boolean left, boolean right => left == right
  | integer left, integer right => left == right
  | number left, number right => left == right
  | string left, string right => left == right
  | moment left, moment right => left == right
  | _, _ => false

end Data

/-- The entries of a mapping so far; `known` are the keys that are not taken over any more. -/
structure MappingState where
  entries : List (Data × Data) := []
  known : Option (List Data) := none

namespace MappingState

/-- Whether a key is not taken over any more. -/
def knows (state : MappingState) (key : Data) : Bool :=
  match state.known with
  | some keys => keys.any (Data.sameKey key)
  | none => false

/-- Note that a key is there. -/
def note (state : MappingState) (key : Data) : MappingState :=
  { state with known := state.known.map (key :: ·) }

/-- Set the value of a key. -/
def set (state : MappingState) (key value : Data) : MappingState :=
  { state with
    entries := state.entries.filter (fun entry => !Data.sameKey key entry.1) ++ [(key, value)] }

/-- The entries with texts for keys as a table. -/
def toEntries (state : MappingState) : List DataEntry :=
  DataEntry.ordered (state.entries.filterMap fun (key, value) =>
    match key with
    | .string name => some (.mk name value)
    | _ => none)

/-- The table of a mapping. -/
def toTable (state : MappingState) (textKeys : Bool) : Data :=
  if textKeys then .table state.toEntries
  else .mixedTable (state.entries.map fun (key, value) => .mk key value)

/-- Note a key of an entry; nothing if it is not taken over any more.  No collection is one. -/
def admit? (state : MappingState) (key : Data) : Decoding (Option MappingState) := do
  match key.collectionType? with
  | some kind =>
      throw (.unplaced (if state.known.isSome then .unusableKey kind else .badKey key.shown))
  | none => return if state.knows key then none else some (state.note key)

end MappingState

/-- How the nodes that references refer to are decoded. -/
structure Following where
  toData : Yaml.Node → Decoding (Option Data)
  mergeInto : Bool → Yaml.Node → MappingState → Decoding MappingState

/-- The data of what a scalar stands for. -/
def Yaml.Scalar.toData : Yaml.Scalar → Data
  | .null => .null
  | .boolean value => .boolean value
  | .integer value => .integer value
  | .float value => .number value
  | .moment value => .moment value
  | .string text => .string text

/-- Whether all keys of a mapping are texts. -/
def hasTextKeys (pairs : List Yaml.Pair) : Bool :=
  pairs.all fun pair => pair.key.tag == Yaml.Tag.string || pair.key.tag == Yaml.Tag.merge

mutual

/-- The data of a node, unless it is left out. -/
def Yaml.Node.toData (following : Following) : Yaml.Node → Decoding (Option Data)
  | .reference place name target _ => Decoding.follow place name target following.toData
  | .scalar tag _ text _ => do
      Decoding.visit
      return some (← Decoding.scalar tag text).toData
  | .sequence _ items _ => do
      Decoding.visit
      return some (.list (← Yaml.Node.toDataAll following items))
  | .mapping _ pairs _ => do
      Decoding.visit
      if ← Decoding.reportRepeated pairs then return none
      let textKeys := hasTextKeys pairs
      let state ← Yaml.Pair.fill following textKeys pairs {}
      let state ← Yaml.Pair.takeOver following textKeys pairs (Yaml.Pair.keys following pairs) state
      return some (state.toTable textKeys)

/-- The data of items, without those that are left out. -/
def Yaml.Node.toDataAll (following : Following) : List Yaml.Node → Decoding (List Data)
  | [] => pure []
  | first :: rest => do
      let data ← first.toData following
      let more ← Yaml.Node.toDataAll following rest
      return data.toList ++ more

/-- The keys of pairs as data, none of which may be a collection. -/
def Yaml.Pair.keys (following : Following) : List Yaml.Pair → Decoding (List Data)
  | [] => pure []
  | .mk key _ :: rest => do
      let data ← key.toData following
      if let some kind := data.bind Data.collectionType? then
        throw (.unplaced (.unusableKey kind))
      let more ← Yaml.Pair.keys following rest
      return data.toList ++ more

/-- Add the entries of pairs but the one that takes over others. -/
def Yaml.Pair.fill (following : Following) (textKeys : Bool) :
    List Yaml.Pair → MappingState → Decoding MappingState
  | [], state => pure state
  | .mk key value :: rest, state => do
      if key.isMerge then Yaml.Pair.fill following textKeys rest state
      else
        let name ←
          if textKeys then Option.map Data.string <$> Decoding.string key
          else key.toData following
        match name with
        | none => Yaml.Pair.fill following textKeys rest state
        | some name =>
            match ← state.admit? name with
            | none => Yaml.Pair.fill following textKeys rest state
            | some state =>
                match ← value.toData following with
                | some data => Yaml.Pair.fill following textKeys rest (state.set name data)
                | none => Yaml.Pair.fill following textKeys rest state

/-- Take over the entries that one of the pairs refers to, if it does. -/
def Yaml.Pair.takeOver (following : Following) (textKeys : Bool) :
    List Yaml.Pair → Decoding (List Data) → MappingState → Decoding MappingState
  | [], _, state => pure state
  | .mk key value :: rest, keys, state => do
      if key.isMerge then
        match state.known with
        | some _ => value.mergeInto following textKeys state
        | none =>
            let known ← keys
            let merged ← value.mergeInto following textKeys { state with known := some known }
            return { merged with known := none }
      else Yaml.Pair.takeOver following textKeys rest keys state

/-- Take over the entries of a node: a mapping or several. -/
def Yaml.Node.mergeInto (following : Following) (textKeys : Bool) :
    Yaml.Node → MappingState → Decoding MappingState
  | .mapping _ pairs _, state => do
      Decoding.visit
      if ← Decoding.reportRepeated pairs then return state
      let state ← Yaml.Pair.fill following textKeys pairs state
      Yaml.Pair.takeOver following textKeys pairs (pure []) state
  | .reference place name target _, state =>
      if target.form == .mapping then
        Decoding.follow place name target fun node => following.mergeInto textKeys node state
      else throw (.unplaced .badMerge)
  | .sequence _ items _, state => Yaml.Node.mergeAllInto following textKeys items state
  | .scalar .., _ => throw (.unplaced .badMerge)

/-- Take over the entries of several mappings; the first ones come first. -/
def Yaml.Node.mergeAllInto (following : Following) (textKeys : Bool) :
    List Yaml.Node → MappingState → Decoding MappingState
  | [], state => pure state
  | first :: rest, state => do
      if !first.yieldsMapping then throw (.unplaced .badMerge)
      let state ← first.mergeInto following textKeys state
      Yaml.Node.mergeAllInto following textKeys rest state

end

namespace Following

/-- No node is decoded: more references would be followed than there are. -/
def nowhere : Following where
  toData := fun _ => throw (.unplaced .excessiveAliases)
  mergeInto := fun _ _ _ => throw (.unplaced .excessiveAliases)

/-- The nodes are decoded with a bound on the number of references that are followed at a time. -/
def within : Nat → Following
  | 0 => nowhere
  | bound + 1 =>
      { toData := Yaml.Node.toData (within bound)
        mergeInto := fun textKeys node state => node.mergeInto (within bound) textKeys state }

end Following

namespace Decoding

/-- The entries of a node that is no reference, whose keys are texts; empty for nothing. -/
def ownGlobals (following : Following) (node : Yaml.Node) : Decoding (Option (List DataEntry)) := do
  visit
  match node with
  | .scalar tag _ text line =>
      match ← scalar tag text with
      | .null => return some []
      | _ => refuse line tag text .globals
  | .sequence tag _ line => refuse line tag "" .globals
  | .mapping _ pairs _ =>
      if ← reportRepeated pairs then return none
      let state ← Yaml.Pair.fill following true pairs {}
      let state ← Yaml.Pair.takeOver following true pairs (Yaml.Pair.keys following pairs) state
      return some state.toEntries
  | .reference .. => return none

/-- The entries of a mapping whose keys are texts, empty for nothing. -/
def globals (following : Following) : Yaml.Node → Decoding (Option (List DataEntry))
  | .reference place name target _ => follow place name target (ownGlobals following)
  | node => ownGlobals following node

end Decoding

end ScriptEngine
