import LineTint.Fault
import LineTint.FileName
import LineTint.Text.Blank
import LineTint.Text.Bytes
import LineTint.Text.LetterCase

/-!
# Languages

The closed set of languages that can be highlighted. A language is found by
its name or an alias, or by the extension of a file name; both are read
without regard to ASCII case.
-/

namespace LineTint
set_option autoImplicit false

/-- A language that can be highlighted. -/
inductive Language where
  | kotlin
  | java
  | javaScript
  | python
  | cpp
  | c
  | xml
  | json
  | html
  | css
  | sql
  deriving DecidableEq, Repr

namespace Language

/-- Every language. -/
def all : List Language :=
  [.kotlin, .java, .javaScript, .python, .cpp, .c, .xml, .json, .html, .css, .sql]

/-- The name for readers. -/
def displayName : Language → String
  | .kotlin => "Kotlin"
  | .java => "Java"
  | .javaScript => "JavaScript"
  | .python => "Python"
  | .cpp => "C++"
  | .c => "C"
  | .xml => "XML"
  | .json => "JSON"
  | .html => "HTML"
  | .css => "CSS"
  | .sql => "SQL"

/-- The name for commands and settings. -/
def name : Language → String
  | .kotlin => "kotlin"
  | .java => "java"
  | .javaScript => "javascript"
  | .python => "python"
  | .cpp => "cpp"
  | .c => "c"
  | .xml => "xml"
  | .json => "json"
  | .html => "html"
  | .css => "css"
  | .sql => "sql"

/-- Other names for commands and settings. -/
def aliases : Language → List String
  | .kotlin => ["kt"]
  | .javaScript => ["js"]
  | .python => ["py"]
  | .cpp => ["c++", "cxx"]
  | _ => []

/-- The file name extensions of a language. -/
def extensions : Language → List String
  | .kotlin => ["kt", "kts"]
  | .java => ["java"]
  | .javaScript => ["js", "mjs", "cjs"]
  | .python => ["py", "pyw", "pyi"]
  | .cpp => ["cpp", "cc", "cxx", "hpp", "hh", "hxx"]
  | .c => ["c", "h"]
  | .xml => ["xml", "xsd", "svg"]
  | .json => ["json"]
  | .html => ["html", "htm"]
  | .css => ["css"]
  | .sql => ["sql"]

/-- The language that a text names. -/
def ofName? (text : String) : Option Language :=
  let key := Text.lowerAscii (Text.trim text.toList)
  all.find? fun l => (l.name :: l.aliases).any fun name => name.toList = key

/-- The language that a text names, or the fault that it names none. -/
def parse (text : String) : Except Fault Language :=
  match ofName? text with
  | some l => .ok l
  | none => .error (.unknownLanguage text)

/-- The language that a file name extension stands for. -/
def ofExtension? (extension : List Char) : Option Language :=
  let key := Text.lowerAscii extension
  all.find? fun l => l.extensions.any fun e => e.toList = key

/-- The language of a file, by its path. An extension that is no text stands
for no language. -/
def ofPath? (path : List UInt8) : Option Language := do
  let extension ← FileName.extension? path
  let text ← Text.decode? extension
  ofExtension? text.toList

end Language
end LineTint
