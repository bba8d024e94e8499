import DocumentStore.Decimal.Printer
import DocumentStore.Json.Value

/-! JSON text of a value: compact, members in the order held, and escapes only where JSON requires
them. -/
namespace DocumentStore.Json

/-- One character inside a quoted string: quote, backslash and control characters are escaped. -/
def escapeChar (c : Char) : List Char :=
  match c with
  | '"' => ['\\', '"']
  | '\\' => ['\\', '\\']
  | '\n' => ['\\', 'n']
  | '\r' => ['\\', 'r']
  | '\t' => ['\\', 't']
  | '\x08' => ['\\', 'b']
  | '\x0c' => ['\\', 'f']
  | c =>
    if c.toNat < 0x20 then
      ['\\', 'u', '0', '0', Nat.digitChar (c.toNat / 16), Nat.digitChar (c.toNat % 16)]
    else [c]

/-- A string between quotes. -/
def quoted (s : String) : String := String.ofList ('"' :: s.toList.flatMap escapeChar ++ ['"'])

def Number.text : Number → String
  | int n => toString n
  | double x _ => Decimal.scientific x

mutual
/-- The compact text of a value. -/
def Value.text : Value → String
  | .null => "null"
  | .bool b => if b then "true" else "false"
  | .num n => n.text
  | .str s => quoted s
  | .arr elements => "[" ++ elementsText elements ++ "]"
  | .obj members => "\x7b" ++ membersText members ++ "\x7d"
/-- Elements with commas between them. -/
def elementsText : List Value → String
  | [] => ""
  | [v] => v.text
  | v :: rest => v.text ++ "," ++ elementsText rest
/-- Members with commas between them. -/
def membersText : List (String × Value) → String
  | [] => ""
  | [(k, v)] => quoted k ++ ":" ++ v.text
  | (k, v) :: rest => quoted k ++ ":" ++ v.text ++ "," ++ membersText rest
end

end DocumentStore.Json
