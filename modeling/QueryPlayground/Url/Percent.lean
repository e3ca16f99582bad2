import QueryPlayground.Text.Utf8

/-!
# Percent encoding

Each part of a URL keeps some characters as they are and writes the bytes of all others as a percent
sign with two hexadecimal digits. A percent sign itself is kept everywhere, so what is encoded already
stays as it is.
-/

namespace QueryPlayground.Url

/-! ## §1 Bytes -/

def hexDigit (n : Nat) : Char :=
  if n < 10 then Char.ofNat (48 + n) else Char.ofNat (55 + n)

def percentByte (b : Nat) : List Char :=
  ['%', hexDigit (b / 16 % 16), hexDigit (b % 16)]

/-- Encodes the characters that are not kept. -/
def percentEncode (keep : Char → Bool) (cs : List Char) : List Char :=
  cs.flatMap fun c => if keep c then [c] else (Text.utf8Bytes c).flatMap percentByte

/-- The value of a hexadecimal digit. -/
def hexValue? (c : Char) : Option Nat :=
  if '0' ≤ c ∧ c ≤ '9' then some (c.toNat - 48)
  else if 'a' ≤ c ∧ c ≤ 'f' then some (c.toNat - 87)
  else if 'A' ≤ c ∧ c ≤ 'F' then some (c.toNat - 55)
  else none

/-- The bytes that a text in percent encoding stands for. -/
def percentDecode : List Char → List Nat
  | [] => []
  | '%' :: a :: b :: cs =>
    match hexValue? a, hexValue? b with
    | some x, some y => (16 * x + y) :: percentDecode cs
    | _, _ => 37 :: percentDecode (a :: b :: cs)
  | c :: cs => Text.utf8Bytes c ++ percentDecode cs

/-! ## §2 What the parts of a URL keep -/

/-- Whether a character is visible ASCII or a space. -/
def isPlain (c : Char) : Bool :=
  0x20 ≤ c.toNat && c.toNat < 0x7F

/-- Whether a character is among those of a text. -/
def isOneOf (s : String) (c : Char) : Bool :=
  s.toList.contains c

def keptInFragment (c : Char) : Bool :=
  isPlain c && !isOneOf " \"<>`" c

/-- What a query keeps; in a web address not the apostrophe. -/
def keptInQuery (special : Bool) (c : Char) : Bool :=
  isPlain c && !isOneOf " \"#<>" c && !(special && c == '\'')

def keptInPath (c : Char) : Bool :=
  isPlain c && !isOneOf " \"#<>?`\x7b\x7d" c

end QueryPlayground.Url
