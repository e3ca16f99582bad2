import QueryPlayground.Program.Process
import QueryPlayground.Text.Utf8

/-!
# Text of programs

Programs work on bytes, and most bytes are text. `Octets` is such a text: every character stands for
the byte of its number. Beside the way in and out there are the two ways in which the standard tools
quote an argument in a message, and the number at the start of a text.
-/

namespace QueryPlayground.Program

/-- Text of bytes: every character stands for the byte of its number. -/
abbrev Octets := List Char

namespace Octets

/-! ## §1 In and out -/

/-- The text of bytes. -/
def ofBytes (bs : Bytes) : Octets :=
  bs.map Char.ofNat

/-- The bytes of a text. -/
def toBytes (cs : Octets) : Bytes :=
  cs.map Char.toNat

/-- The text of the UTF-8 bytes of a string. -/
def ofString (s : String) : Octets :=
  ofBytes (Text.utf8Encode s.toList)

/-- The string of a text; what is not UTF-8 is replaced. -/
def toText (cs : Octets) : String :=
  String.ofList (Text.utf8Lossy cs.toBytes)

/-- The decimal text of a number. -/
def ofNat (n : Nat) : Octets :=
  (toString n).toList

/-- The decimal text of an integer. -/
def ofInt (n : Int) : Octets :=
  (toString n).toList

/-- The byte of the low eight bits of a number. -/
def byte (n : Nat) : Char :=
  Char.ofNat (n % 256)

/-! ## §2 Quoting in messages -/

/-- Whether a byte has a printed form. -/
def isPrinted (c : Char) : Bool :=
  32 ≤ c.toNat && c.toNat < 127

/-- Three octal digits of a byte. -/
def octal (c : Char) : Octets :=
  let n := c.toNat
  [Nat.digitChar (n / 64 % 8), Nat.digitChar (n / 8 % 8), Nat.digitChar (n % 8)]

/-- The letter of the escape of a control character. -/
def controlLetter? (c : Char) : Option Char :=
  match c.toNat with
  | 7 => some 'a'
  | 8 => some 'b'
  | 9 => some 't'
  | 10 => some 'n'
  | 11 => some 'v'
  | 12 => some 'f'
  | 13 => some 'r'
  | _ => none

/-- A byte without a printed form as an escape. -/
def escaped (c : Char) : Octets :=
  '\\' :: (controlLetter? c).elim (octal c) ([·])

/-- An argument in single quotes, where a quote and a backslash are escaped. -/
def quoted (cs : Octets) : Octets :=
  '\'' :: cs.flatMap (fun c =>
    if !isPrinted c then escaped c else if c = '\'' || c = '\\' then ['\\', c] else [c]) ++ ['\'']

/-- Whether a character stands for itself in a name that is not quoted; `first` and `alone` say where
it stands. -/
def isPlainInName (first alone : Bool) (c : Char) : Bool :=
  if c = '\x7b' || c = '\x7d' then !alone
  else if c = '#' || c = '~' then !first
  else isPrinted c && !(" !\"$&()*;<=>?[^|\\':".toList.contains c) && c.toNat ≠ 96

/-- Whether a character stands for itself also between double quotes. -/
def isPlainInDouble (first alone : Bool) (c : Char) : Bool :=
  if c = '\x7b' || c = '\x7d' then alone
  else if c = '#' || c = '~' then first
  else c.isAlphanum || " %+,-./:]_'@".toList.contains c

/-- Quotes a name piece by piece; `inEscape` says whether an escape is open. -/
def quoteBytes : Bool → Octets → Octets
  | _, [] => ['\'']
  | inEscape, c :: cs =>
    if !isPrinted c then
      (if inEscape then [] else ['\'', '$', '\'']) ++ escaped c ++ quoteBytes true cs
    else
      (if inEscape then ['\'', '\''] else []) ++
        (if c = '\'' then ['\'', '\\', '\'', '\''] else [c]) ++ quoteBytes false cs

/-- A name as a user would write it in a shell: as it is if that is safe, else quoted. -/
def asName (cs : Octets) : Octets :=
  let alone := cs.length == 1
  if cs.isEmpty then ['\'', '\'']
  else if (cs.head?.all (isPlainInName true alone)) && (cs.drop 1).all (isPlainInName false alone)
  then cs
  else if cs.contains '\'' && cs.head?.all (isPlainInDouble true alone) &&
      (cs.drop 1).all (isPlainInDouble false alone)
  then '"' :: cs ++ ['"']
  else '\'' :: quoteBytes false cs

/-! ## §3 Numbers in text -/

/-- The value of a digit in bases up to sixteen. -/
def digitValue? (c : Char) : Option Nat :=
  if c.isDigit then some (c.toNat - 48)
  else if 'a' ≤ c && c ≤ 'f' then some (c.toNat - 87)
  else if 'A' ≤ c && c ≤ 'F' then some (c.toNat - 55)
  else none

def isDigitOf (base : Nat) (c : Char) : Bool :=
  (digitValue? c).any (· < base)

/-- The number of digits of a base. -/
def natOf (base : Nat) (ds : Octets) : Nat :=
  ds.foldl (fun n c => n * base + (digitValue? c).getD 0) 0

/-- Whether a byte is white space. -/
def isSpace (c : Char) : Bool :=
  c = ' ' || (9 ≤ c.toNat && c.toNat ≤ 13)

/-- The unsigned number at the start of a text, in hexadecimal behind `0x` and in octal behind `0`,
and the rest; nothing if there is none. -/
def unsigned? (cs : Octets) : Option (Nat × Octets) :=
  match cs with
  | '0' :: x :: rest =>
    if (x = 'x' || x = 'X') && rest.head?.any (isDigitOf 16) then
      some (natOf 16 (rest.takeWhile (isDigitOf 16)), rest.dropWhile (isDigitOf 16))
    else some (natOf 8 (cs.takeWhile (isDigitOf 8)), cs.dropWhile (isDigitOf 8))
  | _ =>
    if cs.head?.any Char.isDigit then
      some (natOf 10 (cs.takeWhile Char.isDigit), cs.dropWhile Char.isDigit)
    else none

/-- The integer at the start of a text, behind white space and a sign, and the rest. -/
def integer? (cs : Octets) : Option (Int × Octets) :=
  match cs.dropWhile isSpace with
  | '-' :: rest => (unsigned? rest).map fun (n, rest) => (-(n : Int), rest)
  | '+' :: rest => (unsigned? rest).map fun (n, rest) => ((n : Int), rest)
  | rest => (unsigned? rest).map fun (n, rest) => ((n : Int), rest)

/-- The decimal integer that is a whole text but for white space at its ends. -/
def decimal? (cs : Octets) : Option Int :=
  let number (ds : Octets) : Option Int :=
    let after := ds.dropWhile Char.isDigit
    if ds.head?.any Char.isDigit && after.all isSpace then
      some (natOf 10 (ds.takeWhile Char.isDigit))
    else none
  match cs.dropWhile isSpace with
  | '-' :: rest => (number rest).map Neg.neg
  | '+' :: rest => number rest
  | rest => number rest

end Octets

end QueryPlayground.Program
