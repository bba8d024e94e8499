import DocumentStore.Text.Unprintable

/-! Strings as listings show them: between double quotes, with what cannot be seen escaped. -/
namespace DocumentStore.Text

/-- One character of a listed string. -/
def listedChar (c : Char) : List Char :=
  match c with
  | '"' => ['\\', '"']
  | '\\' => ['\\', '\\']
  | '\n' => ['\\', 'n']
  | '\r' => ['\\', 'r']
  | '\t' => ['\\', 't']
  | '\x00' => ['\\', '0']
  | c =>
    if isUnprintable c then '\\' :: 'u' :: '\x7b' :: Nat.toDigits 16 c.toNat ++ ['\x7d'] else [c]

/-- A string between double quotes. -/
def listed (s : String) : String := String.ofList ('"' :: s.toList.flatMap listedChar ++ ['"'])

end DocumentStore.Text
