/-! Base64 with the standard alphabet and padding. Three bytes become four characters; a last group
of one or two bytes is filled up with zero bits and marked by `=`. The reader accepts canonical
text only: padding at the end, unused bits zero, no line breaks. -/
namespace WorkloadAdmission.Base64

def symbol (n : Nat) : Char :=
  if n < 26 then Char.ofNat (0x41 + n)
  else if n < 52 then Char.ofNat (0x61 + (n - 26))
  else if n < 62 then Char.ofNat (0x30 + (n - 52))
  else if n = 62 then '+'
  else '/'

def value? (c : Char) : Option Nat :=
  if 'A' ≤ c && c ≤ 'Z' then some (c.toNat - 0x41)
  else if 'a' ≤ c && c ≤ 'z' then some (c.toNat - 0x61 + 26)
  else if '0' ≤ c && c ≤ '9' then some (c.toNat - 0x30 + 52)
  else if c = '+' then some 62
  else if c = '/' then some 63
  else none

def encodeChars : List UInt8 → List Char
  | [] => []
  | [a] => [symbol (a.toNat / 4), symbol (a.toNat % 4 * 16), '=', '=']
  | [a, b] =>
    [symbol (a.toNat / 4), symbol (a.toNat % 4 * 16 + b.toNat / 16), symbol (b.toNat % 16 * 4), '=']
  | a :: b :: c :: rest =>
    symbol (a.toNat / 4) :: symbol (a.toNat % 4 * 16 + b.toNat / 16) ::
      symbol (b.toNat % 16 * 4 + c.toNat / 64) :: symbol (c.toNat % 64) :: encodeChars rest

def decodeChars? : List Char → Option (List UInt8)
  | [] => some []
  | [a, b, '=', '='] => do
    let (x, y) := (← value? a, ← value? b)
    guard (y % 16 = 0)
    return [(x * 4 + y / 16).toUInt8]
  | [a, b, c, '='] => do
    let (x, y, z) := (← value? a, ← value? b, ← value? c)
    guard (z % 4 = 0)
    return [(x * 4 + y / 16).toUInt8, (y % 16 * 16 + z / 4).toUInt8]
  | a :: b :: c :: d :: rest => do
    let (x, y, z, w) := (← value? a, ← value? b, ← value? c, ← value? d)
    return (x * 4 + y / 16).toUInt8 :: (y % 16 * 16 + z / 4).toUInt8 ::
      (z % 4 * 64 + w).toUInt8 :: (← decodeChars? rest)
  | _ => none

def encode (bytes : ByteArray) : String := String.ofList (encodeChars bytes.data.toList)

/-- The bytes of a text, if it is canonical. -/
def decode? (text : String) : Option ByteArray := (decodeChars? text.toList).map List.toByteArray

end WorkloadAdmission.Base64
