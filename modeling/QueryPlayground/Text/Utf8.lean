/-!
# Characters as bytes

The UTF-8 form of characters and its strict inverse. A sequence is refused where it is cut off, is
longer than needed, or stands for a surrogate or a point beyond the last one. `utf8Lossy` never
refuses: it puts the replacement character for each longest piece that begins a character but does
not go on as one.
-/

namespace QueryPlayground.Text

/-! ## §1 Encoding -/

def utf8Bytes (c : Char) : List Nat :=
  let n := c.toNat
  if n < 0x80 then [n]
  else if n < 0x800 then [0xC0 + n / 64, 0x80 + n % 64]
  else if n < 0x10000 then [0xE0 + n / 4096, 0x80 + n / 64 % 64, 0x80 + n % 64]
  else [0xF0 + n / 262144, 0x80 + n / 4096 % 64, 0x80 + n / 64 % 64, 0x80 + n % 64]

/-! ## §2 Decoding -/

/-- How many bytes follow a leading byte, with its payload and the least code point of that length. -/
def leadingByte? (b : Nat) : Option (Nat × Nat × Nat) :=
  if b < 0x80 then some (0, b, 0)
  else if 0xC2 ≤ b && b < 0xE0 then some (1, b - 0xC0, 0x80)
  else if 0xE0 ≤ b && b < 0xF0 then some (2, b - 0xE0, 0x800)
  else if 0xF0 ≤ b && b < 0xF5 then some (3, b - 0xF0, 0x10000)
  else none

/-- The payload of the bytes that follow a leading byte. -/
def continuation? (n : Nat) : List Nat → Option Nat
  | [] => some n
  | b :: bs => if 0x80 ≤ b && b < 0xC0 then continuation? (n * 64 + (b - 0x80)) bs else none

/-- The character in front of a list of bytes and the number of its bytes. -/
def utf8Char? (bs : List Nat) : Option (Char × Nat) := do
  let b :: rest := bs | none
  let (count, payload, least) ← leadingByte? b
  let tail := rest.take count
  if tail.length < count then none
  else
    let n ← continuation? payload tail
    if n < least || (0xD800 ≤ n && n ≤ 0xDFFF) || 0x10FFFF < n then none
    else some (Char.ofNat n, count + 1)

/-- Decodes bytes, of which there are at most as many as the fuel. -/
def utf8DecodeFrom : Nat → List Char → List Nat → Option (List Char)
  | _, done, [] => some done.reverse
  | 0, _, _ => none
  | fuel + 1, done, bs =>
    match utf8Char? bs with
    | some (c, count) => utf8DecodeFrom fuel (c :: done) (bs.drop count)
    | none => none

/-- The characters of a list of bytes, if it is well formed. -/
def utf8Decode? (bs : List Nat) : Option (List Char) :=
  utf8DecodeFrom bs.length [] bs

def utf8Encode (cs : List Char) : List Nat :=
  cs.flatMap utf8Bytes

/-! ## §3 Decoding what may be malformed -/

/-- The character that stands for malformed bytes. -/
def replacement : Char := Char.ofNat 0xFFFD

/-- The second bytes that may follow a leading byte. -/
def secondRange (b : Nat) : Nat × Nat :=
  if b = 0xE0 then (0xA0, 0xBF)
  else if b = 0xED then (0x80, 0x9F)
  else if b = 0xF0 then (0x90, 0xBF)
  else if b = 0xF4 then (0x80, 0x8F)
  else (0x80, 0xBF)

/-- How many bytes in front, of a list that begins with no character, begin one that does not go
on. -/
def brokenLength (bs : List Nat) : Nat :=
  match bs with
  | [] => 0
  | b :: rest =>
    match leadingByte? b, rest with
    | some (count, _, _), second :: rest =>
      let (low, high) := secondRange b
      if count = 0 || second < low || high < second then 1
      else 2 + ((rest.take (count - 1)).takeWhile fun b => 0x80 ≤ b && b < 0xC0).length
    | _, _ => 1

/-- Decodes bytes with the replacement character for malformed ones; there are at most as many bytes
as the fuel. -/
def utf8LossyFrom : Nat → List Char → List Nat → List Char
  | _, done, [] => done.reverse
  | 0, done, _ => done.reverse
  | fuel + 1, done, b :: bs =>
    match utf8Char? (b :: bs) with
    | some (c, count) => utf8LossyFrom fuel (c :: done) (bs.drop (count - 1))
    | none => utf8LossyFrom fuel (replacement :: done) (bs.drop (brokenLength (b :: bs) - 1))

/-- The characters of a list of bytes, with the replacement character for malformed ones. -/
def utf8Lossy (bs : List Nat) : List Char :=
  utf8LossyFrom bs.length [] bs

end QueryPlayground.Text
