/-!
# Faults

Everything that can go wrong outside highlighting, by cause. Highlighting
itself never fails. `Fault.message` is the one place that words a cause.
-/

namespace LineTint
set_option autoImplicit false

/-- Why reading or writing failed. -/
inductive IoFault where
  | notFound
  | isDirectory
  | notDirectory
  | nameTooLong
  /-- The bytes read are no UTF-8. -/
  | notText
  /-- The output took no more bytes. -/
  | sinkFull
  /-- Any other fault of the system, in its own words. -/
  | other (text : String)
  deriving DecidableEq, Repr

/-- The words for a fault of reading or writing. -/
def IoFault.message : IoFault → String
  | .notFound => "No such file or directory (os error 2)"
  | .isDirectory => "Is a directory (os error 21)"
  | .notDirectory => "Not a directory (os error 20)"
  | .nameTooLong => "File name too long (os error 36)"
  | .notText => "stream did not contain valid UTF-8"
  | .sinkFull => "sink is full"
  | .other text => text

/-- What is wrong with the value of a setting. -/
inductive SettingProblem where
  /-- A value of one kind stands where another is expected. -/
  | mismatch (expected found : String)
  /-- A color is set for something that is no kind of token. -/
  | unknownToken
  deriving DecidableEq, Repr

/-- The words for a problem with a setting. -/
def SettingProblem.message : SettingProblem → String
  | .mismatch expected found => "expected " ++ expected ++ ", found " ++ found
  | .unknownToken => "unknown token type"

/-- A cause of failure. -/
inductive Fault where
  | io (cause : IoFault)
  /-- The settings are not written in their language. -/
  | settingsSyntax
  | invalidSetting (key : String) (problem : SettingProblem)
  | unknownLanguage (name : String)
  | invalidColor (text : String)
  deriving DecidableEq, Repr

/-- The words for a fault. -/
def Fault.message : Fault → String
  | .io cause => "I/O error: " ++ cause.message
  | .settingsSyntax => "Failed to parse the settings"
  | .invalidSetting key problem => "Invalid value for \x60" ++ key ++ "\x60: " ++ problem.message
  | .unknownLanguage name => "Unknown language: " ++ name
  | .invalidColor text => "Invalid color: " ++ text

end LineTint
