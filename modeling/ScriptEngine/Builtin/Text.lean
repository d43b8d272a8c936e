import ScriptEngine.Builtin.Argument
import ScriptEngine.Pattern.Matcher
import ScriptEngine.Text.Normalization
import ScriptEngine.Text.Replacement

namespace ScriptEngine.Run

/-!
# Functions of texts and regular expressions

What `String`, `RegExp` and their prototypes offer.  Positions in texts count code
points.
-/

/-- The text a method is called on. -/
def receivingText (call : Caller) (method : String) (this : Value) : Run (List Char) := do
  if this.isUndefined then failType (.undefinedString method)
  else return (← toText call this).toList

/-- The text itself. -/
def textValueOf : Value → Run Value
  | .string text => pure (.string text)
  | _ => failType .stringReceiver

/-- The character at a position, if it lies in the text. -/
def charWithin? (text : List Char) (position : Float) : Option Char :=
  if position < 0 then none else text[Number.wholeMagnitude position]?

/-- The character at a position as a text. -/
def charAt (call : Caller) (this : Value) (arguments : List Value) : Run Value := do
  let text ← receivingText call "charAt" this
  let position ← toInteger call (argument arguments 0)
  if Number.isInfinite position then return .string ""
  return .string (((charWithin? text position).map String.singleton).getD "")

/-- The code point at a position. -/
def charCodeAt (call : Caller) (this : Value) (arguments : List Value) : Run Value := do
  let text ← receivingText call "charCodeAt" this
  let position ← toInteger call (argument arguments 0)
  if Number.isInfinite position then return .number Number.notANumber
  match charWithin? text position with
  | some char => return .ofNat char.toNat
  | none => return .number Number.notANumber

/-- The text between two positions in either order. -/
def substring (call : Caller) (this : Value) (arguments : List Value) : Run Value := do
  let text ← receivingText call "substring" this
  let length := text.length
  let start := clampIndex (← toInteger call (argument arguments 0)) length
  let stop ← match argument arguments 1 with
    | .undefined => pure length
    | value => do pure (clampIndex (← toInteger call value) length)
  let (first, last) := if stop < start then (stop, start) else (start, stop)
  return .string (String.ofList ((text.drop first).take (last - first)))

/-- The first place at or after a start where a text occurs. -/
def textIndexOf (call : Caller) (this : Value) (arguments : List Value) : Run Value := do
  let text ← receivingText call "indexOf" this
  let wanted := (← toText call (argument arguments 0)).toList
  let start := clampIndex (← toInteger call (argument arguments 1)) text.length
  match Text.indexOf? text wanted start with
  | some place => return .ofNat place
  | none => return .number (-1.0)

/-- The text in another case. -/
def changeCase (call : Caller) (method : String) (change : String → String) (this : Value) :
    Run Value := do
  let text ← receivingText call method this
  return .string (change (String.ofList text))

/-- The text in a normal form. -/
def normalize (call : Caller) (this : Value) (arguments : List Value) : Run Value := do
  let text ← receivingText call "normalize" this
  let name ← match argument arguments 0 with
    | .undefined => pure "NFC"
    | value => toText call value
  match Text.NormalForm.ofName? name with
  | some form => return .string (Text.normalize form (String.ofList text))
  | none => failRange .normalForm

/-- The result of a search, or the failure it ended in. -/
def searched {α : Type} : Except LookupFault α → Run α
  | .ok found => pure found
  | .error fault => throw (.broken (.lookupBounds fault.index fault.length))

/-- The piece of a text a span covers. -/
def piece (text : Array Char) (span : Span) : List Char :=
  (text.extract span.start span.stop).toList

/-- What a group took as a value. -/
def groupValue (text : Array Char) : Option Span → Value
  | some span => .string (String.ofList (piece text span))
  | none => .undefined

/--
The pieces of a text between matches, with what the groups of each match took
after the piece before it.  An empty match at the end of the piece before or at
the end of the text does not split.
-/
def splitAtMatches (text : Array Char) : Nat → List PatternMatch → List Value
  | last, [] => [.string (String.ofList (piece text ⟨last, text.size⟩))]
  | last, found :: rest =>
      let ⟨start, stop⟩ := found.span
      if start = stop ∧ (start = last ∨ text.size ≤ start) then splitAtMatches text last rest
      else
        .string (String.ofList (piece text ⟨last, start⟩)) ::
          found.groups.map (groupValue text) ++ splitAtMatches text stop rest

/-- The pieces of a text between the matches of a regular expression. -/
def splitByPattern (pattern : Pattern) (text : Array Char) :
    Except LookupFault (List Value) := do
  if text.isEmpty then
    return if (← pattern.find text 0).isSome then [] else [.string ""]
  else return splitAtMatches text 0 (← pattern.findAll text)

/-- The pieces of a text between the occurrences of another. -/
def splitByText (text separator : List Char) : List Value :=
  (Text.Units.chars.split text separator).map fun piece => .string (String.ofList piece)

/-- The pieces of a text, with the storage they come in. -/
def splitPieces (call : Caller) (text : List Char) (separator : Value) : Run Storage := do
  match separator with
  | .undefined => return Storage.exact #[.string (String.ofList text)]
  | .object .pattern id =>
      match (← heap).pattern? id with
      | some pattern =>
          let pieces ← searched (splitByPattern pattern text.toArray)
          return Storage.collected pieces.toArray
      | none => return Storage.exact #[]
  | value =>
      let separator ← toText call value
      return Storage.exact (splitByText text separator.toList).toArray

/-- Split a text into an array of pieces, at most a given number of them. -/
def split (call : Caller) (this : Value) (arguments : List Value) : Run Value := do
  let text ← receivingText call "split" this
  let limit : Option Nat ← match argument arguments 1 with
    | .undefined => pure none
    | value => do
        let wanted ← toInteger call value
        pure (if wanted ≥ 0 then some (clampIndex wanted Storage.maxLength) else none)
  let pieces ← splitPieces call text (argument arguments 0)
  match limit with
  | some limit => makeArray (if limit < pieces.length then pieces.truncate limit else pieces)
  | none => makeArray pieces

/-- A match as an occurrence to be replaced. -/
def occurrenceOf {α : Type} (units : Text.Units α) (text : Array Char) (found : PatternMatch) :
    Text.Occurrence α :=
  ⟨found.span.start, units.encode (piece text found.span),
    found.groups.map (·.map fun span => units.encode (piece text span))⟩

/-- The occurrences of a pattern or a text that are to be replaced. -/
def occurrences (call : Caller) (text : List Char) (pattern : Value) :
    Run (List (Text.Occurrence Char)) := do
  match pattern with
  | .object .pattern id =>
      match (← heap).pattern? id with
      | some pattern =>
          let chars := text.toArray
          if pattern.isGlobal then
            let found ← searched (pattern.findAll chars)
            changeHeap (·.setOwn id "lastIndex" (.ofNat 0))
            return found.map (occurrenceOf .chars chars)
          else return (← searched (pattern.find chars 0)).toList.map (occurrenceOf .chars chars)
      | none => return []
  | value => return (Text.Units.chars.occurrence? text (← toText call value).toList).toList

/-- What an occurrence is replaced by. -/
def replacementOf (call : Caller) (text : List Char) (whole replacement : Value)
    (found : Text.Occurrence Char) : Run (List Char) := do
  if replacement.isCallable then
    let groups := found.groups.map fun group =>
      match group with
      | some taken => Value.string (String.ofList taken)
      | none => .undefined
    let arguments := .string (String.ofList found.text) :: groups ++
      [.ofNat found.place, whole]
    let result ← call replacement .undefined arguments
    return (← toText call result).toList
  else
    let template ← toText call replacement
    return Text.Units.chars.expand text found template.toList

/-- What each of some occurrences is replaced by. -/
def replacements (call : Caller) (text : List Char) (whole replacement : Value) :
    List (Text.Occurrence Char) → Run (List (Text.Occurrence Char × List Char))
  | [] => pure []
  | found :: rest => do
      let inserted ← replacementOf call text whole replacement found
      let others ← replacements call text whole replacement rest
      return (found, inserted) :: others

/-- Replace the occurrences of a pattern. -/
def replace (call : Caller) (this : Value) (arguments : List Value) : Run Value := do
  let text ← receivingText call "replace" this
  let found ← occurrences call text (argument arguments 0)
  let whole := .string (String.ofList text)
  let filled ← replacements call text whole (argument arguments 1) found
  return .string (String.ofList (Text.Units.chars.fill text.toArray 0 filled))

/-- A new text. -/
def textNew (call : Caller) : List Value → Run Value
  | [] => pure (.string "")
  | value :: _ => return .string (← toText call value)

/-- The regular expression a method is called on. -/
def receivingPattern (method : String) (this : Value) : Run (Nat × Pattern) := do
  match this with
  | .object .pattern id =>
      match (← heap).pattern? id with
      | some pattern => return (id, pattern)
      | none => failType (.regexReceiver method this.typeof)
  | _ => failType (.regexReceiver method this.typeof)

/-- Where the next search of a regular expression starts. -/
def lastIndex (id : Nat) : Run Nat := do
  let position := (((← heap).getOwn? id "lastIndex").getD .undefined).toFloat
  return if Number.isNaN position || position < 0 || position ≥ 9223372036854775808.0 then 0
    else Number.wholeMagnitude position

/-- Search a text; a global expression goes on where it stopped and notes where it stops. -/
def search (id : Nat) (pattern : Pattern) (text : List Char) : Run (Option PatternMatch) := do
  let start ← if pattern.isGlobal then lastIndex id else pure 0
  let note := fun (place : Nat) => changeHeap (·.setOwn id "lastIndex" (.ofNat place))
  if text.length < start then
    note 0
    return none
  else
    let found ← searched (pattern.find text.toArray start)
    if pattern.isGlobal then
      match found with
      | some found =>
          let stop := found.span.stop
          note (if found.span.start = stop then stop + 1 else stop)
      | none => note 0
    return found

/-- Whether a regular expression matches a text. -/
def patternTest (call : Caller) (this : Value) (arguments : List Value) : Run Value := do
  let (id, pattern) ← receivingPattern "test" this
  let text ← toText call (argument arguments 0)
  return .boolean (← search id pattern text.toList).isSome

/-- The match of a regular expression and its groups as an array, undefined without one. -/
def patternExec (call : Caller) (this : Value) (arguments : List Value) : Run Value := do
  let (id, pattern) ← receivingPattern "exec" this
  let input ← toText call (argument arguments 0)
  let text := input.toList
  match ← search id pattern text with
  | none => return .undefined
  | some found =>
      let values := .string (String.ofList (piece text.toArray found.span)) ::
        found.groups.map (groupValue text.toArray)
      let array ← makeArray (Storage.exact values.toArray)
      match array with
      | .object _ arrayId =>
          changeHeap (·.setOwn arrayId "index" (.ofNat found.span.start))
          changeHeap (·.setOwn arrayId "input" (.string input))
          return array
      | other => return other

/-- The text of a regular expression. -/
def patternToText (this : Value) : Run Value := do
  let (_, pattern) ← receivingPattern "toString" this
  return .string pattern.text

/-- A new regular expression from a text or another expression, and flags. -/
def patternNew (call : Caller) (arguments : List Value) : Run Value := do
  let (source, flags) ← match argument arguments 0 with
    | .undefined => pure ("(?:)", "")
    | .object .pattern id => do
        match (← heap).pattern? id with
        | some pattern => pure (pattern.source, pattern.flags)
        | none => pure ("(?:)", "")
    | value => do pure (← toText call value, "")
  let flags ← match argument arguments 1 with
    | .undefined => pure flags
    | value => toText call value
  match Pattern.compile source flags with
  | .ok pattern => makePattern pattern
  | .error fault => fail (.grammar (.badPattern fault))

end ScriptEngine.Run
