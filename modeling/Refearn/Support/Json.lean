import Refearn.Support.Hex
/-!
# JSON texts

JSON values without fractional numbers and the text `JSON.stringify` gives them:
no blanks, object members in insertion order, strings with the short escapes and
`\u00xx` for the other control characters.
-/

namespace Refearn.Support

inductive Json where
  | null
  | bool (b : Bool)
  | num (n : Int)
  | str (s : String)
  | arr (elements : List Json)
  | obj (members : List (String × Json))

namespace Json

/-- The text of an integer, as `BigInt.prototype.toString` gives it. -/
def decimal : Int → List Char
  | .ofNat n => Nat.toDigits 10 n
  | .negSucc n => '-' :: Nat.toDigits 10 (n + 1)

def escapeChar (c : Char) : List Char :=
  if c = '"' then ['\\', '"']
  else if c = '\\' then ['\\', '\\']
  else if c.toNat = 8 then ['\\', 'b']
  else if c.toNat = 9 then ['\\', 't']
  else if c.toNat = 10 then ['\\', 'n']
  else if c.toNat = 12 then ['\\', 'f']
  else if c.toNat = 13 then ['\\', 'r']
  else if c.toNat < 32 then
    ['\\', 'u', '0', '0', hexDigit (c.toNat / 16), hexDigit c.toNat]
  else [c]

/-- A quoted string. -/
def quoted (s : String) : List Char :=
  '"' :: (s.toList.flatMap escapeChar ++ ['"'])

mutual

/-- The characters of the text of a value. -/
def chars : Json → List Char
  | .null => ['n', 'u', 'l', 'l']
  | .bool true => ['t', 'r', 'u', 'e']
  | .bool false => ['f', 'a', 'l', 's', 'e']
  | .num n => decimal n
  | .str s => quoted s
  | .arr [] => ['[', ']']
  | .arr (x :: xs) => '[' :: (chars x ++ tailChars xs)
  | .obj [] => ['{', '}']
  | .obj ((k, v) :: ms) => '{' :: (quoted k ++ ':' :: (chars v ++ tailMembers ms))

/-- The elements of an array after its first, and the closing bracket. -/
def tailChars : List Json → List Char
  | [] => [']']
  | x :: xs => ',' :: (chars x ++ tailChars xs)

/-- The members of an object after its first, and the closing brace. -/
def tailMembers : List (String × Json) → List Char
  | [] => ['}']
  | (k, v) :: ms => ',' :: (quoted k ++ ':' :: (chars v ++ tailMembers ms))

end

/-- `JSON.stringify`. -/
def stringify (j : Json) : String := String.ofList j.chars

/-- An amount as the text members of the source carry it. -/
def ofCents (n : Int) : Json := .str (String.ofList (decimal n))

/-- A text, or `null` for a missing one. -/
def ofOption : Option String → Json
  | none => .null
  | some s => .str s

/-- The members of an object literal that are not `undefined`. -/
def defined (members : List (String × Option Json)) : List (String × Json) :=
  members.filterMap fun m => m.2.map fun v => (m.1, v)

end Json

end Refearn.Support
