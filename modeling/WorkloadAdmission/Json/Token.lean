import WorkloadAdmission.Json.Basic
import WorkloadAdmission.Number.Decimal
import WorkloadAdmission.Text.Encoding

/-! The tokens of a JSON document. The document is read once, one code point at a time, by a scanner
whose state is the tokens so far and the token that is being read; so scanning a text in two parts
is scanning the one and going on with the other. Beyond the standard, `NaN`, `Infinity` and
`-Infinity` are numbers. -/
namespace WorkloadAdmission.Json

inductive Token where
  | beginArray
  | endArray
  | beginObject
  | endObject
  | comma
  | colon
  /-- A literal name or a number. -/
  | scalar (value : Json)
  | text (t : Text)
  deriving DecidableEq

namespace Token

def isSpace (c : Char) : Bool := c = ' ' || c = '\t' || c = '\n' || c = '\r'

def punctuation? : Char → Option Token
  | '[' => some .beginArray
  | ']' => some .endArray
  | '{' => some .beginObject
  | '}' => some .endObject
  | ',' => some .comma
  | ':' => some .colon
  | _ => none

/-- A number as the standard writes it: no plus sign, no leading zeros, digits on both sides of a
point. Without point and exponent it is an integer, and then not too long. -/
def number? (cs : List Char) : Option Json := do
  let n ← Number.Numeral.ofChars? cs
  guard (n.sign ≠ some .plus)
  guard (n.whole.length = 1 ∨ (1 < n.whole.length ∧ n.whole.head? ≠ some '0'))
  guard (n.point = !n.fraction.isEmpty)
  if n.point || n.exponent.isSome then
    return .float (.ofDecimal n.isNegative n.significand n.scale)
  guard (n.whole.length ≤ maxDigits)
  return .int (Decimal.signed n.isNegative n.significand)

/-- The value of an unbroken run of characters outside a text. -/
def atom? (cs : List Char) : Option Json :=
  match String.ofList cs with
  | "null" => some .null
  | "true" => some (.bool true)
  | "false" => some (.bool false)
  | "NaN" => some (.float .nan)
  | "Infinity" => some (.float (.infinite false))
  | "-Infinity" => some (.float (.infinite true))
  | _ => number? cs

/-- The character that an escape of one letter stands for. -/
def escaped? : Char → Option Char
  | '\x22' => some '\x22'
  | '\\' => some '\\'
  | '/' => some '/'
  | 'b' => some '\x08'
  | 'f' => some '\x0c'
  | 'n' => some '\n'
  | 'r' => some '\r'
  | 't' => some '\t'
  | _ => none

/-- The pieces of a text that stands between two quotes. Control characters have to be escaped. -/
def pieces? : List CodePoint → Option (List Text.Piece)
  | [] => some []
  | .char '\\' :: .char 'u' :: .char a :: .char b :: .char c :: .char d :: rest => do
    return .unit (← Text.hexValue? a b c d) :: (← pieces? rest)
  | .char '\\' :: .char c :: rest => do
    return .point (.char (← escaped? c)) :: (← pieces? rest)
  | p :: rest =>
    if p = .char '\\' || p.toNat < 0x20 then none else (pieces? rest).map (.point p :: ·)

def unquoted? (ps : List CodePoint) : Option Text := ((pieces? ps).bind Text.ofPieces?).map Text.ofPoints

/-- The token being read, in reverse. Only a text can hold what is no character. -/
inductive Pending where
  | nothing
  | atom (reversed : List Char)
  | text (reversed : List CodePoint)
  /-- A text after a backslash, whose next character cannot close it. -/
  | escape (reversed : List CodePoint)
  deriving DecidableEq

/-- The tokens read so far, in reverse, and the one being read. -/
structure Scan where
  reversed : List Token
  pending : Pending
  deriving DecidableEq

namespace Scan

def start : Scan := ⟨[], .nothing⟩

def between (reversed : List Token) (c : Char) : Scan :=
  if isSpace c then ⟨reversed, .nothing⟩
  else if c = '\x22' then ⟨reversed, .text []⟩
  else
    match punctuation? c with
    | some token => ⟨token :: reversed, .nothing⟩
    | none => ⟨reversed, .atom [c]⟩

def endsAtom (c : Char) : Bool := isSpace c || c = '\x22' || (punctuation? c).isSome

def step (s : Scan) (p : CodePoint) : Option Scan :=
  match s.pending with
  | .nothing => p.char?.map (between s.reversed)
  | .atom cs => p.char?.bind fun c =>
    if endsAtom c then (atom? cs.reverse).map fun v => between (.scalar v :: s.reversed) c
    else some ⟨s.reversed, .atom (c :: cs)⟩
  | .text ps =>
    if p = .char '\x22' then (unquoted? ps.reverse).map fun text => ⟨.text text :: s.reversed, .nothing⟩
    else if p = .char '\\' then some ⟨s.reversed, .escape (p :: ps)⟩
    else some ⟨s.reversed, .text (p :: ps)⟩
  | .escape ps => some ⟨s.reversed, .text (p :: ps)⟩

/-- The tokens at the end of a document, where an atom ends and a text must have. -/
def finish? (s : Scan) : Option (List Token) :=
  match s.pending with
  | .nothing => some s.reversed.reverse
  | .atom cs => (atom? cs.reverse).map fun v => (Token.scalar v :: s.reversed).reverse
  | _ => none

end Scan

def ofPoints? (ps : List CodePoint) : Option (List Token) := (ps.foldlM Scan.step Scan.start).bind Scan.finish?

end Token
end WorkloadAdmission.Json
