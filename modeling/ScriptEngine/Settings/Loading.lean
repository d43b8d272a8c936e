import ScriptEngine.Settings
import ScriptEngine.Settings.Decoding

namespace ScriptEngine

/-!
# Settings from a file

Settings are read from the first document of a YAML text, on top of the default
ones.  Every key has to name a setting.  What was read has to be valid.
-/

/-- Why a text gives no settings. -/
inductive SettingsFault where
  | malformed (fault : Yaml.Fault)
  | mistyped (issues : List NodeIssue)
  | invalid (issues : List SettingsIssue)
  deriving DecidableEq, Repr

namespace SettingsFault

/-- The wording of a fault. -/
def message : SettingsFault → String
  | malformed fault => "parse: " ++ fault.message
  | mistyped issues => "parse: " ++ NodeIssue.messageAll issues
  | invalid issues => SettingsIssue.messageAll issues

end SettingsFault

/-- The settings so far; `known` are the names that are not taken over any more. -/
structure SettingsState where
  settings : Settings := {}
  given : List String := []
  known : Option (List String) := none

namespace SettingsState

/-- Whether a name is not taken over any more. -/
def knows (state : SettingsState) (name : String) : Bool :=
  match state.known with
  | some names => names.contains name
  | none => false

/-- Note that a name is there. -/
def note (state : SettingsState) (name : String) : SettingsState :=
  { state with known := state.known.map (name :: ·) }

/-- Change the settings by what was decoded, if anything was. -/
def change (state : SettingsState) (decode : Decoding (Option α))
    (update : Settings → α → Settings) : Decoding SettingsState := do
  match ← decode with
  | some value => return { state with settings := update state.settings value }
  | none => return state

/-- Change the setting of a name; nothing if there is no such setting. -/
def update? (following : Following) (state : SettingsState) (name : String) (node : Yaml.Node) :
    Option (Decoding SettingsState) :=
  match name with
  | "log_level" =>
      some (state.change (Decoding.string node) fun settings level =>
        { settings with logLevel := level })
  | "encoding" =>
      some (state.change (Decoding.string node) fun settings label =>
        { settings with encoding := label })
  | "assertions" =>
      some (state.change (Decoding.boolean node) fun settings checked =>
        { settings with assertions := checked })
  | "max_call_depth" =>
      some (state.change (Decoding.integer node) fun settings depth =>
        { settings with maxCallDepth := depth })
  | "globals" =>
      some (state.change (Decoding.globals following node) fun settings entries =>
        { settings with globals := entries })
  | "console" =>
      some (state.change (Decoding.string node) fun settings destination =>
        { settings with console := destination })
  | _ => none

/-- Apply a pair whose key names a setting. -/
def applyNamed (following : Following) (state : SettingsState) (name : String) (line : Nat)
    (node : Yaml.Node) : Decoding SettingsState :=
  match update? following state name node with
  | none => do
      Decoding.report (.unknownField line name)
      return state
  | some change =>
      if state.given.contains name then do
        Decoding.report (.repeatedField line name)
        return state
      else do
        let changed ← change
        return { changed with given := name :: changed.given }

/-- Apply pairs but the one that takes over others. -/
def applyPairs (following : Following) :
    List Yaml.Pair → SettingsState → Decoding SettingsState
  | [], state => pure state
  | .mk key value :: rest, state => do
      if key.isMerge then applyPairs following rest state
      else
        match ← Decoding.string key with
        | none => applyPairs following rest state
        | some name =>
            if state.knows name then applyPairs following rest state
            else
              let state ← applyNamed following (state.note name) name key.line value
              applyPairs following rest state

/-- The names that keys stand for. -/
def names (keys : List Data) : List String :=
  keys.filterMap fun
    | .string name => some name
    | _ => none

mutual

/-- Take over the settings that one of the pairs refers to, if it does. -/
def takeOver (following : Following)
    (mergeTarget : Yaml.Node → SettingsState → Decoding SettingsState) :
    List Yaml.Pair → Decoding (List Data) → SettingsState → Decoding SettingsState
  | [], _, state => pure state
  | .mk key value :: rest, keys, state => do
      if key.isMerge then
        match state.known with
        | some _ => merge following mergeTarget value state
        | none =>
            let known := names (← keys)
            let merged ← merge following mergeTarget value { state with known := some known }
            return { merged with known := none }
      else takeOver following mergeTarget rest keys state

/-- Take over the settings of a node: a mapping or several. -/
def merge (following : Following)
    (mergeTarget : Yaml.Node → SettingsState → Decoding SettingsState) :
    Yaml.Node → SettingsState → Decoding SettingsState
  | .mapping _ pairs _, state => do
      Decoding.visit
      if ← Decoding.reportRepeated pairs then return state
      let state ← applyPairs following pairs { state with given := [] }
      takeOver following mergeTarget pairs (pure []) state
  | .reference place name target _, state =>
      if target.form == .mapping then
        Decoding.follow place name target fun node => mergeTarget node state
      else throw (.unplaced .badMerge)
  | .sequence _ items _, state => mergeAll following mergeTarget items state
  | .scalar .., _ => throw (.unplaced .badMerge)

/-- Take over the settings of several mappings; the first ones come first. -/
def mergeAll (following : Following)
    (mergeTarget : Yaml.Node → SettingsState → Decoding SettingsState) :
    List Yaml.Node → SettingsState → Decoding SettingsState
  | [], state => pure state
  | first :: rest, state => do
      if !first.yieldsMapping then throw (.unplaced .badMerge)
      let state ← merge following mergeTarget first state
      mergeAll following mergeTarget rest state

end

/-- Take over the settings of a node with a bound on the number of references followed at a time. -/
def mergeWithin (following : Following) :
    Nat → Yaml.Node → SettingsState → Decoding SettingsState
  | 0, _, _ => throw (.unplaced .excessiveAliases)
  | bound + 1, node, state => merge following (mergeWithin following bound) node state

end SettingsState

namespace Settings

/-- The settings of a document. -/
def ofRoot (references : Nat) (root : Yaml.Node) : Decoding Settings := do
  match root with
  | .mapping _ pairs _ =>
      let following := Following.within references
      Decoding.visit
      if ← Decoding.reportRepeated pairs then return {}
      let state ← SettingsState.applyPairs following pairs {}
      let state ← SettingsState.takeOver following
        (SettingsState.mergeWithin following references) pairs
        (Yaml.Pair.keys following pairs) state
      return state.settings
  | node =>
      let _ ← Decoding.wantedScalar .settings (fun _ _ => (none : Option Unit)) node
      return {}

/-- The settings of a document, if nothing in it is mistyped. -/
def ofDocument : Option Yaml.Document → Except SettingsFault Settings
  | none => .ok {}
  | some document =>
      match (ofRoot document.references document.root).run { anchored := document.anchored } with
      | .error fault => .error (.malformed fault)
      | .ok (settings, state) =>
          if state.issues.isEmpty then .ok settings else .error (.mistyped state.issues.reverse)

/-- The valid settings of a text. -/
def ofYaml (bytes : ByteArray) : Except SettingsFault Settings :=
  match Yaml.readDocument (Yaml.Intake.ofBytes bytes) with
  | .error fault => .error (.malformed fault)
  | .ok document =>
      match ofDocument document with
      | .error fault => .error fault
      | .ok settings =>
          if settings.issues.isEmpty then .ok settings else .error (.invalid settings.issues)

end Settings

end ScriptEngine
