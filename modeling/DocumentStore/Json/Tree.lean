import DocumentStore.Json.Numeral

/-! JSON text as written, before it is given a meaning.

A `Tree` keeps the members of an object in the order written, repeated names included, and keeps
strings and numbers that denote nothing (a lone surrogate, a number past the doubles) as blanks.
Reading a tree as a value fails on such a blank and on deep nesting; reading it as a record passes
over members the record does not name. -/
namespace DocumentStore.Json
open Text (Scan)

/-- JSON text as written. -/
inductive Tree where
  | null
  | bool (b : Bool)
  | num (n : Option Number)
  | str (s : Option String)
  | arr (elements : List Tree)
  | obj (members : List (Option String × Tree))

/-- The pieces of JSON text. -/
inductive Token where
  | openArray
  | closeArray
  | openObject
  | closeObject
  | comma
  | colon
  | null
  | bool (b : Bool)
  | num (n : Option Number)
  | str (s : Option String)

namespace Token

/-- A character of a string literal, or a 16-bit unit written as an escape. -/
inductive Piece where
  | char (c : Char)
  | unit (n : Nat)

/-- The value of a hexadecimal digit. -/
def hexValue? (c : Char) : Option Nat :=
  if '0' ≤ c ∧ c ≤ '9' then some (c.toNat - 48)
  else if 'a' ≤ c ∧ c ≤ 'f' then some (c.toNat - 87)
  else if 'A' ≤ c ∧ c ≤ 'F' then some (c.toNat - 55)
  else none

/-- The character that a backslash and the given letter stand for. -/
def escaped? : Char → Option Char
  | '"' => some '"'
  | '\\' => some '\\'
  | '/' => some '/'
  | 'b' => some '\x08'
  | 'f' => some '\x0c'
  | 'n' => some '\n'
  | 'r' => some '\r'
  | 't' => some '\t'
  | _ => none

/-- The pieces of a string literal behind its opening quote, and the text behind its closing one. -/
def pieces : List Char → Option (List Piece × List Char)
  | '"' :: rest => some ([], rest)
  | '\\' :: 'u' :: a :: b :: c :: d :: rest => do
    let a ← hexValue? a
    let b ← hexValue? b
    let c ← hexValue? c
    let d ← hexValue? d
    let (more, rest) ← pieces rest
    return (.unit (((a * 16 + b) * 16 + c) * 16 + d) :: more, rest)
  | '\\' :: c :: rest => do
    let c ← escaped? c
    let (more, rest) ← pieces rest
    return (.char c :: more, rest)
  | c :: rest =>
    if c.toNat < 0x20 then none
    else do
      let (more, rest) ← pieces rest
      return (.char c :: more, rest)
  | [] => none

/-- The characters of a string literal; a surrogate that is not half of a pair stands for none. -/
def characters : List Piece → Option (List Char)
  | [] => some []
  | .char c :: rest => (characters rest).map (c :: ·)
  | .unit n :: rest =>
    if 0xD800 ≤ n ∧ n < 0xDC00 then
      match rest with
      | .unit m :: rest =>
        if 0xDC00 ≤ m ∧ m < 0xE000 then
          (characters rest).map (Char.ofNat (0x10000 + (n - 0xD800) * 0x400 + (m - 0xDC00)) :: ·)
        else none
      | _ => none
    else if 0xDC00 ≤ n ∧ n < 0xE000 then none
    else (characters rest).map (Char.ofNat n :: ·)

/-- White space between tokens. -/
def isSpace (c : Char) : Bool := c == ' ' || c == '\t' || c == '\n' || c == '\r'

/-- The first token of a text that starts with one, and the text behind it. -/
def first? : List Char → Option (Token × List Char)
  | '[' :: rest => some (openArray, rest)
  | ']' :: rest => some (closeArray, rest)
  | '{' :: rest => some (openObject, rest)
  | '}' :: rest => some (closeObject, rest)
  | ',' :: rest => some (comma, rest)
  | ':' :: rest => some (colon, rest)
  | 'n' :: 'u' :: 'l' :: 'l' :: rest => some (null, rest)
  | 't' :: 'r' :: 'u' :: 'e' :: rest => some (bool true, rest)
  | 'f' :: 'a' :: 'l' :: 's' :: 'e' :: rest => some (bool false, rest)
  | '"' :: rest => do
    let (ps, rest) ← pieces rest
    return (str ((characters ps).map String.ofList), rest)
  | cs => do
    let (n, rest) ← Numeral.scan cs
    return (num n.number?, rest)

/-- The tokens of a text, none where it cannot be cut into tokens. Each takes a character at least,
so a bound past the length of the text is never met. -/
def list (bound : Nat) (cs : List Char) : Option (List Token) :=
  match bound, cs.dropWhile isSpace with
  | _, [] => some []
  | 0, _ => none
  | bound + 1, cs => do
    let (t, rest) ← first? cs
    return t :: (← list bound rest)

end Token

namespace Tree

mutual
/-- A value at the front of a list of tokens, read with a bound on the number of steps. -/
def value (bound : Nat) (ts : List Token) : Option (Tree × List Token) :=
  match bound, ts with
  | 0, _ => none
  | bound + 1, ts =>
    match ts with
    | .null :: rest => some (null, rest)
    | .bool b :: rest => some (bool b, rest)
    | .num n :: rest => some (num n, rest)
    | .str s :: rest => some (str s, rest)
    | .openArray :: .closeArray :: rest => some (arr [], rest)
    | .openArray :: rest => (elements bound rest).map fun (es, rest) => (arr es, rest)
    | .openObject :: .closeObject :: rest => some (obj [], rest)
    | .openObject :: rest => (members bound rest).map fun (ms, rest) => (obj ms, rest)
    | _ => none
/-- The elements of an array and its end. -/
def elements (bound : Nat) (ts : List Token) : Option (List Tree × List Token) :=
  match bound with
  | 0 => none
  | bound + 1 => do
    let (e, rest) ← value bound ts
    match rest with
    | .closeArray :: rest => return ([e], rest)
    | .comma :: rest =>
      let (es, rest) ← elements bound rest
      return (e :: es, rest)
    | _ => none
/-- The members of an object and its end. -/
def members (bound : Nat) (ts : List Token) : Option (List (Option String × Tree) × List Token) :=
  match bound, ts with
  | bound + 1, .str name :: .colon :: rest => do
    let (v, rest) ← value bound rest
    match rest with
    | .closeObject :: rest => return ([(name, v)], rest)
    | .comma :: rest =>
      let (ms, rest) ← members bound rest
      return ((name, v) :: ms, rest)
    | _ => none
  | _, _ => none
end

/-- The tree of a text that holds one value and nothing else. -/
def ofText? (s : String) : Option Tree := do
  let ts ← Token.list (s.length + 1) s.toList
  match ← value (2 * ts.length + 1) ts with
  | (t, []) => some t
  | _ => none

mutual
/-- The value of a tree with at most `depth` arrays and objects inside one another. Members are
entered one after the other: of two with one name the later counts. -/
def value? (depth : Nat) : Tree → Option Value
  | null => some .null
  | bool b => some (.bool b)
  | num n => n.map .num
  | str s => s.map .str
  | arr es =>
    match depth with
    | 0 => none
    | depth + 1 => (values? depth es).map .arr
  | obj ms =>
    match depth with
    | 0 => none
    | depth + 1 => (entries? depth ms).map fun es => .obj (Entries.ofList es)
def values? (depth : Nat) : List Tree → Option (List Value)
  | [] => some []
  | t :: rest => do return (← t.value? depth) :: (← values? depth rest)
def entries? (depth : Nat) : List (Option String × Tree) → Option (List (String × Value))
  | [] => some []
  | (k, t) :: rest => do return (← k, ← t.value? depth) :: (← entries? depth rest)
end

mutual
/-- A value as it would be written. -/
def ofValue : Value → Tree
  | .null => null
  | .bool b => bool b
  | .num n => num (some n)
  | .str s => str (some s)
  | .arr vs => arr (ofValues vs)
  | .obj ms => obj (ofMembers ms)
def ofValues : List Value → List Tree
  | [] => []
  | v :: rest => ofValue v :: ofValues rest
def ofMembers : List (String × Value) → List (Option String × Tree)
  | [] => []
  | (k, v) :: rest => (some k, ofValue v) :: ofMembers rest
end

end Tree

/-- The most arrays and objects inside one another that reading a value accepts. -/
def maxDepth : Nat := 127

/-- The value written in a text, none where the text is no JSON or nests too deep. -/
def read? (s : String) : Option Value := (Tree.ofText? s).bind (Tree.value? maxDepth)

end DocumentStore.Json
