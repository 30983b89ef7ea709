import WorkloadAdmission.Text.Basic

/-! Texts as bytes in one of the five Unicode encodings. The encoding is read off a byte order mark
or, without one, off the zero bytes among the first four: a text that begins with two ASCII
characters shows its unit width and byte order there. Anything else is UTF-8. A surrogate that stands
alone is read as it is, in UTF-8 too, where three bytes write it. -/
namespace WorkloadAdmission.Text

/-! ### Surrogate pairs -/

def isHighSurrogate (n : Nat) : Bool := 0xd800 ≤ n && n < 0xdc00
def isLowSurrogate (n : Nat) : Bool := 0xdc00 ≤ n && n < 0xe000

/-- A part of a text as it is written: a code point, or a unit of sixteen bits, which may take the one
next to it to write a code point. -/
inductive Piece where
  | point (p : CodePoint)
  | unit (n : Nat)
  deriving DecidableEq

/-- The code points that pieces write. Two units next to each other that are a high and a low surrogate
write a character; any other surrogate is a code point by itself. -/
def ofPieces? : List Piece → Option (List CodePoint)
  | [] => some []
  | .point p :: rest => (ofPieces? rest).map (p :: ·)
  | .unit n :: .unit m :: rest =>
    if isHighSurrogate n && isLowSurrogate m then do
      return (← CodePoint.ofNat? (0x10000 + (n - 0xd800) * 0x400 + (m - 0xdc00))) :: (← ofPieces? rest)
    else do
      return (← CodePoint.ofNat? n) :: (← ofPieces? (.unit m :: rest))
  | .unit n :: rest => do return (← CodePoint.ofNat? n) :: (← ofPieces? rest)

/-- The units that write one code point. -/
def units (p : CodePoint) : List Nat :=
  if p.toNat < 0x10000 then [p.toNat]
  else [0xd800 + (p.toNat - 0x10000) / 0x400, 0xdc00 + (p.toNat - 0x10000) % 0x400]

/-! ### UTF-8 -/

/-- The code points of bytes in UTF-8. Of the first one, `missing` bytes are still to come, `value` are
the bits so far, and a number below `least` has a shorter form; nothing has been read of it if no byte
is missing. -/
def utf8From? : (missing value least : Nat) → List UInt8 → Option (List CodePoint)
  | 0, _, _, [] => some []
  | 0, _, _, b :: rest =>
    if b.toNat < 0x80 then do return (← CodePoint.ofNat? b.toNat) :: (← utf8From? 0 0 0 rest)
    else if b.toNat < 0xc0 then none
    else if b.toNat < 0xe0 then utf8From? 1 (b.toNat - 0xc0) 0x80 rest
    else if b.toNat < 0xf0 then utf8From? 2 (b.toNat - 0xe0) 0x800 rest
    else if b.toNat < 0xf8 then utf8From? 3 (b.toNat - 0xf0) 0x10000 rest
    else none
  | _ + 1, _, _, [] => none
  | missing + 1, value, least, b :: rest =>
    let whole := value * 0x40 + (b.toNat - 0x80)
    if b.toNat < 0x80 || 0xc0 ≤ b.toNat then none
    else if 0 < missing then utf8From? missing whole least rest
    else if whole < least then none
    else do return (← CodePoint.ofNat? whole) :: (← utf8From? 0 0 0 rest)

/-! ### Encodings -/

inductive ByteOrder where
  | big
  | little
  deriving DecidableEq

inductive Encoding where
  | utf8
  | utf16 (order : ByteOrder)
  | utf32 (order : ByteOrder)
  deriving DecidableEq

def ByteOrder.value : ByteOrder → List UInt8 → Nat
  | .big, bytes => bytes.foldl (fun n b => n * 256 + b.toNat) 0
  | .little, bytes => bytes.foldr (fun b n => n * 256 + b.toNat) 0

/-- Bytes taken two by two; an odd one is left over in no encoding. -/
def ByteOrder.pairs? (order : ByteOrder) : List UInt8 → Option (List Nat)
  | [] => some []
  | [_] => none
  | a :: b :: rest => (order.pairs? rest).map (order.value [a, b] :: ·)

def ByteOrder.quads? (order : ByteOrder) : List UInt8 → Option (List Nat)
  | [] => some []
  | a :: b :: c :: d :: rest => (order.quads? rest).map (order.value [a, b, c, d] :: ·)
  | _ => none

/-- The byte order marks. Those of four bytes come first, since one of them begins with a shorter one. -/
def Encoding.marks : List (List UInt8 × Encoding) := [
  ([0x00, 0x00, 0xfe, 0xff], .utf32 .big),
  ([0xff, 0xfe, 0x00, 0x00], .utf32 .little),
  ([0xfe, 0xff], .utf16 .big),
  ([0xff, 0xfe], .utf16 .little),
  ([0xef, 0xbb, 0xbf], .utf8)]

/-- The encoding of a text without a byte order mark. -/
def Encoding.unmarked : List UInt8 → Encoding
  | a :: b :: c :: d :: _ =>
    if a = 0 then if b = 0 then .utf32 .big else .utf16 .big
    else if b = 0 then if c = 0 && d = 0 then .utf32 .little else .utf16 .little
    else .utf8
  | [a, b] => if a = 0 then .utf16 .big else if b = 0 then .utf16 .little else .utf8
  | _ => .utf8

/-- The encoding of a text and its bytes less the byte order mark. -/
def Encoding.detect (bytes : List UInt8) : Encoding × List UInt8 :=
  match marks.find? fun m => m.1.isPrefixOf bytes with
  | some (mark, encoding) => (encoding, bytes.drop mark.length)
  | none => (unmarked bytes, bytes)

/-- The code points that bytes write in an encoding, if the bytes are well formed in it. -/
def Encoding.decode? : Encoding → List UInt8 → Option (List CodePoint)
  | .utf8, bytes => utf8From? 0 0 0 bytes
  | .utf16 order, bytes => (order.pairs? bytes).bind fun units => ofPieces? (units.map .unit)
  | .utf32 order, bytes => (order.quads? bytes).bind (·.mapM CodePoint.ofNat?)

/-- The code points of a text as bytes. -/
def decode? (bytes : ByteArray) : Option (List CodePoint) :=
  let (encoding, rest) := Encoding.detect bytes.data.toList
  encoding.decode? rest

end WorkloadAdmission.Text
