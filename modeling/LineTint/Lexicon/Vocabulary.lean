import LineTint.Language
import LineTint.Lexicon.Basic

/-!
# Vocabularies

The words of each language and, from them, its lexicon. `Language.lexicon` is
defined for every language, so none can be without one.
-/

namespace LineTint
set_option autoImplicit false

namespace Vocabulary

/-! ## Kotlin -/

/-- The reserved words of Kotlin. Two of them begin with an exclamation mark. -/
def kotlinKeywords : List String := [
  "fun", "val", "var", "class", "interface", "object", "typealias", "if", "else", "when",
  "for", "while", "do", "try", "catch", "finally", "return", "throw", "break", "continue",
  "this", "super", "is", "in", "!in", "as", "!is", "package", "import", "get", "set", "by",
  "where", "init", "constructor", "abstract", "open", "final", "enum", "sealed", "annotation",
  "data", "override", "private", "protected", "public", "internal", "const", "operator",
  "infix", "inline", "noinline", "crossinline", "tailrec", "external", "suspend", "expect",
  "actual", "reified", "lateinit", "companion", "inner", "out", "vararg", "dynamic"]

/-- The type names of Kotlin. -/
def kotlinTypes : List String := [
  "String", "Int", "Long", "Double", "Float", "Boolean", "Char", "Byte", "Short", "List",
  "Set", "Map", "Array", "MutableList", "MutableSet", "MutableMap", "Any", "Unit", "Nothing",
  "null"]

/-- The library names of Kotlin. The entry point of a program is defined, not called, and is not among them. -/
def kotlinBuiltins : List String := [
  "println", "print", "readLine", "listOf", "setOf", "mapOf", "mutableListOf", "mutableSetOf",
  "mutableMapOf", "arrayOf", "with", "apply", "also", "let", "run", "repeat", "require",
  "check", "assert", "error", "TODO", "lazy", "use"]

/-! ## Java -/

/-- The reserved words of Java. -/
def javaKeywords : List String := [
  "class", "interface", "enum", "public", "private", "protected", "static", "final",
  "abstract", "void", "int", "long", "double", "float", "boolean", "char", "byte", "short",
  "if", "else", "for", "while", "do", "switch", "case", "default", "break", "continue",
  "return", "try", "catch", "finally", "throw", "new", "this", "super", "extends",
  "implements", "import", "package", "native", "synchronized", "volatile", "transient",
  "instanceof", "assert"]

/-- The type names of Java. -/
def javaTypes : List String := [
  "String", "Object", "Integer", "Long", "Double", "Float", "Boolean"]

/-- The library names of Java. -/
def javaBuiltins : List String := [
  "System", "out", "println", "main", "Math"]

/-! ## JavaScript -/

/-- The reserved words of JavaScript. -/
def javaScriptKeywords : List String := [
  "function", "var", "let", "const", "if", "else", "for", "while", "do", "switch", "case",
  "default", "break", "continue", "return", "try", "catch", "finally", "throw", "new", "this",
  "class", "extends", "import", "export", "from", "as", "async", "await", "yield", "typeof",
  "instanceof", "in", "of", "delete", "void", "with", "debugger"]

/-- The library names of JavaScript. -/
def javaScriptBuiltins : List String := [
  "console", "log", "alert", "document", "window", "setTimeout", "setInterval", "fetch",
  "Promise", "Array", "Object", "String", "Number", "Boolean", "Date"]

/-! ## Python -/

/-- The reserved words of Python. -/
def pythonKeywords : List String := [
  "def", "class", "if", "elif", "else", "for", "while", "try", "except", "finally", "with",
  "as", "from", "import", "return", "yield", "pass", "break", "continue", "lambda", "in", "is",
  "and", "or", "not", "None", "True", "False", "async", "await", "global", "nonlocal", "del",
  "assert"]

/-- The library names of Python. -/
def pythonBuiltins : List String := [
  "print", "len", "range", "list", "dict", "set", "str", "int", "float", "bool", "type",
  "isinstance", "enumerate", "zip", "map", "filter"]

/-! ## C and C++ -/

/-- The reserved words of C. -/
def cKeywords : List String := [
  "if", "else", "for", "while", "do", "switch", "case", "default", "break", "continue",
  "return", "goto", "sizeof", "typedef", "struct", "union", "enum", "void", "char", "short",
  "int", "long", "float", "double", "signed", "unsigned", "const", "volatile", "static",
  "extern", "register", "auto", "inline", "restrict"]

/-- The reserved words that C++ adds to those of C, and some that both have. -/
def cppKeywords : List String := [
  "class", "struct", "namespace", "template", "typename", "using", "public", "private",
  "protected", "virtual", "override", "final", "const", "static", "extern", "mutable",
  "volatile", "register", "auto", "decltype", "sizeof", "alignof", "typeid", "dynamic_cast",
  "static_cast", "reinterpret_cast", "const_cast", "new", "delete", "this", "operator",
  "friend", "inline", "explicit", "noexcept"]

/-! ## Markup, data and queries -/

/-- The literals of JSON. -/
def jsonKeywords : List String := [
  "true", "false", "null"]

/-- The elements of HTML. -/
def htmlTags : List String := [
  "html", "head", "body", "div", "span", "p", "a", "img", "script", "style", "title", "meta",
  "link", "br", "hr", "input", "button", "form", "table", "tr", "td", "th", "ul", "ol", "li",
  "h1", "h2", "h3", "h4", "h5", "h6"]

/-- The properties of CSS. -/
def cssProperties : List String := [
  "margin", "padding", "border", "color", "background", "font", "display", "position", "width",
  "height", "top", "right", "bottom", "left", "flex", "grid", "animation", "transition",
  "transform", "media", "import"]

/-- The reserved words of SQL, in capitals only. Two words count as one where exactly a
space is between them. -/
def sqlKeywords : List String := [
  "SELECT", "FROM", "WHERE", "INSERT", "UPDATE", "DELETE", "CREATE", "ALTER", "DROP", "TABLE",
  "VIEW", "INDEX", "JOIN", "LEFT", "RIGHT", "INNER", "OUTER", "GROUP BY", "ORDER BY", "HAVING",
  "UNION", "DISTINCT", "LIKE", "IN", "BETWEEN", "AND", "OR", "NOT", "NULL", "AS", "ON", "SET",
  "VALUES", "INTO"]

end Vocabulary

open Vocabulary in
/-- The lexicon of a language. -/
def Language.lexicon : Language → Lexicon
  | .kotlin => .ofWords kotlinKeywords kotlinTypes kotlinBuiltins
  | .java => .ofWords javaKeywords javaTypes javaBuiltins
  | .javaScript => .ofWords javaScriptKeywords [] javaScriptBuiltins
  | .python => { Lexicon.ofWords pythonKeywords [] pythonBuiltins with lineComment := "#" }
  | .cpp => .ofWords (cppKeywords ++ cKeywords) [] []
  | .c => .ofWords cKeywords [] []
  | .xml => { Lexicon.ofWords [] [] [] with lineComment := "<!--", blockComment := ("<!--", "-->") }
  | .json => .ofWords jsonKeywords [] []
  | .html => .ofWords htmlTags [] []
  | .css => .ofWords cssProperties [] []
  | .sql => .ofWords sqlKeywords [] []

end LineTint
