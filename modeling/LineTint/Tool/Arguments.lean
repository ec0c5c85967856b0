import LineTint.Language

/-!
# Arguments

The arguments of the command line tool: options with a hyphen and one letter,
which may share a hyphen, options with two hyphens and a name, and one file. An
option's value stands behind its letter, behind an equals sign, or in the next
argument. Two hyphens alone end the options.

An argument is a row of bytes. The file may be any, since a path need not be
UTF-8; the name of a language must be a text. Messages show bytes as
`Text.shown` does.

A value in an argument of its own is looked at only when the next argument is
known to make sense, so `Progress` keeps it pending; an argument that makes no
sense is reported before a pending value that is wrong.
-/

namespace LineTint.Tool
set_option autoImplicit false

/-- What the tool is asked to do with a text. -/
structure Invocation where
  /-- The path of the file to show. -/
  file : Option (List UInt8)
  language : Option Language
  lineNumbers : Bool
  noColor : Bool
  listLanguages : Bool
  deriving DecidableEq, Repr

/-- The invocation without arguments. -/
def Invocation.initial : Invocation := ⟨none, none, false, false, false⟩

/-- What the tool is asked to do. -/
inductive Request where
  | help
  | version
  | run (i : Invocation)
  deriving DecidableEq, Repr

/-- Why arguments make no sense. Options are given as they are shown. -/
inductive UsageFault where
  | unexpectedArgument (argument : String)
  | unexpectedValue (value shown : String)
  | missingValue (shown : String)
  | repeated (shown : String)
  | invalidLanguage (value : String) (cause : Fault)
  /-- The name of a language is no UTF-8. -/
  | notText
  deriving DecidableEq, Repr

/-- How the option for a language is shown. -/
def languageShown : String := "--language <NAME>"

/-- The words for a fault of the arguments. -/
def UsageFault.message : UsageFault → String
  | .unexpectedArgument argument => "unexpected argument '" ++ argument ++ "' found"
  | .unexpectedValue value shown =>
    "unexpected value '" ++ value ++ "' for '" ++ shown ++ "' found; no more were expected"
  | .missingValue shown => "a value is required for '" ++ shown ++ "' but none was supplied"
  | .repeated shown => "the argument '" ++ shown ++ "' cannot be used multiple times"
  | .invalidLanguage value cause =>
    "invalid value '" ++ value ++ "' for '" ++ languageShown ++ "': " ++ cause.message
  | .notText => "invalid UTF-8 was detected in one or more arguments"

namespace Arguments

/-- The byte that options begin with. -/
@[match_pattern] def hyphen : UInt8 := 0x2D

/-- The byte between an option and its value. -/
@[match_pattern] def equalsSign : UInt8 := 0x3D

/-- An option without a value. -/
inductive Flag where
  | lineNumbers
  | noColor
  | listLanguages
  | verbose
  | help
  | version
  deriving DecidableEq, Repr

/-- How a flag is shown. -/
def Flag.shown : Flag → String
  | .lineNumbers => "--line-numbers"
  | .noColor => "--no-color"
  | .listLanguages => "--list-languages"
  | .verbose => "--verbose..."
  | .help => "--help"
  | .version => "--version"

/-- An option of the tool. -/
inductive Key where
  | language
  | flag (f : Flag)
  deriving DecidableEq, Repr

/-- The option of a letter, which is of ASCII. -/
def letter? (b : UInt8) : Option Key :=
  match Char.ofUInt8 b with
  | 'l' => some .language
  | 'n' => some (.flag .lineNumbers)
  | 'v' => some (.flag .verbose)
  | 'h' => some (.flag .help)
  | 'V' => some (.flag .version)
  | _ => none

/-- The options that have a name, which stands behind two hyphens. -/
def names : List (String × Key) := [
  ("language", .language),
  ("line-numbers", .flag .lineNumbers),
  ("no-color", .flag .noColor),
  ("list-languages", .flag .listLanguages),
  ("verbose", .flag .verbose),
  ("help", .flag .help),
  ("version", .flag .version)]

/-- What has been given but not been looked at. -/
inductive Pending where
  /-- The option for a language, with its value if that has come. -/
  | language (value : Option (List UInt8))
  | file (path : List UInt8)
  deriving DecidableEq, Repr

/-- What has been read of the arguments. -/
structure Progress where
  invocation : Invocation
  pending : Option Pending
  /-- A file has been given. -/
  hasFile : Bool
  /-- The options have ended. -/
  optionsEnded : Bool
  deriving DecidableEq, Repr

/-- Why reading stops before the end. -/
inductive Stop where
  | fault (f : UsageFault)
  | help
  | version
  deriving DecidableEq, Repr

/-- Stops for a fault. -/
def fail {α : Type} (f : UsageFault) : Except Stop α :=
  .error (.fault f)

/-- Sets the language, which must not have been set before. -/
def setLanguage (i : Invocation) (value : List UInt8) : Except Stop Invocation :=
  if i.language.isSome then fail (.repeated languageShown)
  else
    match Text.decode? value with
    | none => fail .notText
    | some value =>
      match Language.parse value with
      | .ok l => .ok { i with language := some l }
      | .error cause => fail (.invalidLanguage value cause)

/-- Looks at what is pending. -/
def Progress.settle (p : Progress) : Except Stop Progress :=
  match p.pending with
  | none => .ok p
  | some (.language none) => fail (.missingValue languageShown)
  | some (.language (some value)) => do
    return { p with invocation := ← setLanguage p.invocation value, pending := none }
  | some (.file path) =>
    if path.isEmpty then fail (.missingValue "[FILE]")
    else .ok { p with invocation := { p.invocation with file := some path }, pending := none }

/-- Sets a flag. All but the one for more messages may be set only once. -/
def Progress.setFlag (p : Progress) (f : Flag) : Except Stop Progress := do
  let p ← p.settle
  let i := p.invocation
  match f with
  | .lineNumbers =>
    if i.lineNumbers then fail (.repeated f.shown)
    else return { p with invocation := { i with lineNumbers := true } }
  | .noColor =>
    if i.noColor then fail (.repeated f.shown)
    else return { p with invocation := { i with noColor := true } }
  | .listLanguages =>
    if i.listLanguages then fail (.repeated f.shown)
    else return { p with invocation := { i with listLanguages := true } }
  | .verbose => return p
  | .help => .error .help
  | .version => .error .version

/-- Opens the option for a language; its value is the next argument. -/
def Progress.openLanguage (p : Progress) : Except Stop Progress := do
  return { ← p.settle with pending := some (.language none) }

/-- Sets the language to a value in the same argument. -/
def Progress.attachLanguage (p : Progress) (value : List UInt8) : Except Stop Progress := do
  let p ← p.settle
  return { p with invocation := ← setLanguage p.invocation value }

/-- The letter that bytes begin with, behind its hyphen; all of the bytes if
they begin with no character. -/
def letterShown (bytes : List UInt8) : String :=
  "-" ++ match Text.firstChar? bytes with
    | some c => .singleton c
    | none => Text.shown bytes

/-- Reads letters that share a hyphen. What stands behind the letter of an
option with a value is the value, perhaps after an equals sign. -/
def Progress.letters (p : Progress) : List UInt8 → Except Stop Progress
  | [] => .ok p
  | b :: rest =>
    match letter? b, rest with
    | none, _ => fail (.unexpectedArgument (letterShown (b :: rest)))
    | some (.flag f), _ => do (← p.setFlag f).letters rest
    | some .language, [] => p.openLanguage
    | some .language, equalsSign :: value => p.attachLanguage value
    | some .language, value => p.attachLanguage value

/-- Reads an option with a name, given without its hyphens. -/
def Progress.named (p : Progress) (bytes : List UInt8) : Except Stop Progress :=
  let name := bytes.takeWhile (· ≠ equalsSign)
  let value : Option (List UInt8) :=
    match bytes.dropWhile (· ≠ equalsSign) with
    | [] => none
    | _ :: value => some value
  match (names.find? fun entry => Text.utf8 entry.1 = name).map Prod.snd, value with
  | none, _ => fail (.unexpectedArgument ("--" ++ Text.shown name))
  | some .language, none => p.openLanguage
  | some .language, some value => p.attachLanguage value
  | some (.flag f), none => p.setFlag f
  | some (.flag f), some value => fail (.unexpectedValue (Text.shown value) f.shown)

/-- Reads an argument that is no option. -/
def Progress.positional (p : Progress) (argument : List UInt8) : Except Stop Progress :=
  if p.hasFile then fail (.unexpectedArgument (Text.shown argument))
  else do return { ← p.settle with pending := some (.file argument), hasFile := true }

/-- Reads an argument that is neither an option nor the end of the options:
the value that an option waits for, or a file. -/
def Progress.plain (p : Progress) (argument : List UInt8) : Except Stop Progress :=
  match p.pending with
  | some (.language none) => .ok { p with pending := some (.language (some argument)) }
  | _ => p.positional argument

/-- Reads one argument. -/
def Progress.step (p : Progress) (argument : List UInt8) : Except Stop Progress :=
  if p.optionsEnded then p.positional argument
  else
    match argument with
    | [hyphen, hyphen] => .ok { p with optionsEnded := true }
    | hyphen :: hyphen :: bytes => p.named bytes
    | hyphen :: b :: bytes => p.letters (b :: bytes)
    | _ => p.plain argument

/-- Reads the arguments of the tool. -/
def read (arguments : List (List UInt8)) : Except UsageFault Request :=
  let start : Progress := ⟨.initial, none, false, false⟩
  match arguments.foldlM Progress.step start >>= Progress.settle with
  | .ok p => .ok (.run p.invocation)
  | .error .help => .ok .help
  | .error .version => .ok .version
  | .error (.fault f) => .error f

end Arguments
end LineTint.Tool
