import DocumentStore.Term.Basic

/-! Terms as literals of query text.

Strings and dates stand between single quotes, and a quote within is written behind a backslash. A
list is written as its scalars with commas between them, and the brackets are left to the operator. -/
namespace DocumentStore.Literal

/-- One character of a quoted string. -/
def escape (c : Char) : List Char := if c = '\'' then ['\\', '\''] else [c]

/-- A string between single quotes. -/
def quote (s : String) : String := String.ofList ('\'' :: s.toList.flatMap escape ++ ['\''])

/-- The string of a quoted literal behind its opening quote, and the text behind its closing one: a
backslash makes the next character stand for itself, and the first other quote ends the literal. -/
def unquote? : List Char → Option (List Char × List Char)
  | '\\' :: c :: rest => (unquote? rest).map fun (s, rest) => (c :: s, rest)
  | c :: rest =>
    if c = '\'' then some ([], rest)
    else if c = '\\' then none
    else (unquote? rest).map fun (s, rest) => (c :: s, rest)
  | [] => none

/-- The literals of a term's scalars: one of a scalar, one of each element of a list. -/
def scalars : Term → List String
  | .null => ["null"]
  | .string s => [quote s]
  | .integer n => [toString n]
  | .double x => [Decimal.plain x]
  | .boolean b => [Term.boolText b]
  | .date t => [quote t.preciseText]
  | .strings ss => ss.map quote
  | .integers ns => ns.map fun n => toString n
  | .doubles xs => xs.map Decimal.plain
  | .booleans bs => bs.map Term.boolText
  | .dates ts => ts.map fun t => quote t.preciseText

/-- A term as query text. -/
def text (t : Term) : String := ", ".intercalate (scalars t)

end DocumentStore.Literal
