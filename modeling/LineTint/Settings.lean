import LineTint.Language
import LineTint.Theme
import LineTint.Toml.Document

/-!
# Settings

The settings of a user: whether lines are numbered and colored, the language of
texts that do not tell theirs, and a theme. They are read from a TOML document
with two tables, `editor` and `colors`; what it does not set keeps its default,
and keys that mean nothing are passed over. `Settings.ofTable` reports the first
setting that is wrong, `Settings.load` answers with the defaults in that case.
-/

namespace LineTint
set_option autoImplicit false

/-- The settings of a user. -/
structure Settings where
  lineNumbers : Bool
  color : Bool
  defaultLanguage : Option Language
  theme : Theme
  deriving DecidableEq, Repr

namespace Settings

/-- The settings of a user who sets nothing. -/
def standard : Settings where
  lineNumbers := false
  color := true
  defaultLanguage := none
  theme := .standard

/-! ## Values of one kind -/

/-- The fault that a value is not of the kind that a setting needs. -/
def mismatch (key expected : String) (v : Toml.Value) : Fault :=
  .invalidSetting key (.mismatch expected v.kindName)

/-- The table that the value of a setting is. -/
def table (key : String) : Toml.Value → Except Fault Toml.Table
  | .table entries => .ok entries
  | v => .error (mismatch key "a table" v)

/-- The truth value that the value of a setting is. -/
def boolean (key : String) : Toml.Value → Except Fault Bool
  | .boolean b => .ok b
  | v => .error (mismatch key "a boolean" v)

/-- The text that the value of a setting is. -/
def string (key : String) : Toml.Value → Except Fault String
  | .string s => .ok s
  | v => .error (mismatch key "a string" v)

/-- What a reader makes of the value of a key, or `default` without one. -/
def valueOr {α : Type} (entries : Toml.Table) (key : String) (default : α)
    (read : Toml.Value → Except Fault α) : Except Fault α :=
  match entries.lookup key with
  | some v => read v
  | none => .ok default

/-! ## Styles -/

/-- A style written as a table of a color, bold and italic, each of them
optional. -/
def styleOfTable (key : String) (entries : Toml.Table) : Except Fault Style := do
  let foreground ← valueOr entries "color" none fun v => do
    some <$> Color.parse (← string key v)
  let bold ← valueOr entries "bold" false (boolean key)
  let italic ← valueOr entries "italic" false (boolean key)
  return ⟨foreground, bold, italic⟩

/-- A style written as a color or as a table. -/
def styleOfValue (key : String) : Toml.Value → Except Fault Style
  | .string s => do return .ofForeground (some (← Color.parse s))
  | .table entries => styleOfTable key entries
  | v => .error (mismatch key "a color string or table" v)

/-- The theme with the style that one entry of `colors` gives. -/
def setColor (t : Theme) (entry : String × Toml.Value) : Except Fault Theme :=
  let key := "colors." ++ entry.1
  match TokenKind.ofName? entry.1 with
  | none => .error (.invalidSetting key .unknownToken)
  | some kind => do return t.set kind (← styleOfValue key entry.2)

/-! ## The whole -/

/-- The settings with those of the table `editor`. -/
def applyEditor (s : Settings) (entries : Toml.Table) : Except Fault Settings := do
  let lineNumbers ← valueOr entries "line-numbers" s.lineNumbers (boolean "editor.line-numbers")
  let color ← valueOr entries "color" s.color (boolean "editor.color")
  let defaultLanguage ← valueOr entries "default-language" s.defaultLanguage fun v => do
    some <$> Language.parse (← string "editor.default-language" v)
  return { s with lineNumbers, color, defaultLanguage }

/-- The settings with those of the table `colors`, entry by entry. -/
def applyColors (s : Settings) (entries : Toml.Table) : Except Fault Settings := do
  let theme ← entries.foldlM setColor s.theme
  return { s with theme }

/-- The settings that a table sets. -/
def ofTable (t : Toml.Table) : Except Fault Settings := do
  let s ← valueOr t "editor" standard fun v => do
    standard.applyEditor (← table "editor" v)
  valueOr t "colors" s fun v => do
    s.applyColors (← table "colors" v)

/-- The settings that a document sets. -/
def ofDocument (text : String) : Except Fault Settings :=
  match Toml.read? text with
  | none => .error .settingsSyntax
  | some t => ofTable t

/-- The settings in a file with the given bytes, where `none` is a file that
does not exist. -/
def ofFile (bytes : Option (List UInt8)) : Except Fault Settings :=
  match bytes with
  | none => .error (.io .notFound)
  | some bytes =>
    match Text.decode? bytes with
    | none => .error (.io .notText)
    | some text => ofDocument text

/-- The settings to go on with: those of the file, or the defaults if there is
none or anything is wrong with it. -/
def load (bytes : Option (List UInt8)) : Settings :=
  match ofFile bytes with
  | .ok s => s
  | .error _ => standard

/-- The name of the file that holds the settings. -/
def fileName : String := ".codepad.toml"

/-- The path of the file in a home directory; without a home there is none. -/
def path (home : Option String) : Option String :=
  home.map fun dir =>
    if dir.isEmpty then fileName
    else if dir.toList.getLast? = some '/' then dir ++ fileName
    else dir ++ "/" ++ fileName

end Settings
end LineTint
