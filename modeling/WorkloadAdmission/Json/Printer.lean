import WorkloadAdmission.Json.Basic
import WorkloadAdmission.Number.Shortest
import WorkloadAdmission.Text.Encoding
import WorkloadAdmission.Text.Quoted

/-! Values as texts. As JSON, a value stands on one line, with a space after each comma and colon and in
ASCII only; numbers that are not finite have names outside the standard. In messages and names, a text
stands for itself and any other value is described: constants capitalised, texts quoted, arrays and
objects between brackets. -/
namespace WorkloadAdmission.Json

/-! ### JSON -/

def escapedUnit (n : Nat) : List Char := '\\' :: 'u' :: Text.hex 4 n

/-- A code point as the escapes of the units that write it. -/
def escapes (p : CodePoint) : List Char := (Text.units p).flatMap escapedUnit

def quotedPoint : CodePoint → List Char
  | .char c =>
    if c = '\x22' || c = '\\' then ['\\', c]
    else if c = '\n' then ['\\', 'n']
    else if c = '\r' then ['\\', 'r']
    else if c = '\t' then ['\\', 't']
    else if c = '\x08' then ['\\', 'b']
    else if c = '\x0c' then ['\\', 'f']
    else if 0x20 ≤ c.toNat && c.toNat < 0x7f then [c]
    else escapes (.char c)
  | .surrogate s => escapes (.surrogate s)

def quotedText (t : Text) : List Char := '\x22' :: t.points.flatMap quotedPoint ++ ['\x22']

def floatText : Binary64 → List Char
  | .finite negative index => (Binary64.finite negative index).text.toList
  | .infinite negative => (if negative then "-Infinity" else "Infinity").toList
  | .nan => "NaN".toList

mutual

def chars : Json → List Char
  | .null => "null".toList
  | .bool b => (if b then "true" else "false").toList
  | .int n => (toString n).toList
  | .float x => floatText x
  | .str s => quotedText s
  | .arr items => '[' :: itemChars items ++ [']']
  | .obj fields => '{' :: fieldChars fields ++ ['}']

def itemChars : List Json → List Char
  | [] => []
  | [v] => v.chars
  | v :: rest => v.chars ++ ',' :: ' ' :: itemChars rest

def fieldChars : List (Text × Json) → List Char
  | [] => []
  | [(k, v)] => quotedText k ++ ':' :: ' ' :: v.chars
  | (k, v) :: rest => quotedText k ++ ':' :: ' ' :: v.chars ++ ',' :: ' ' :: fieldChars rest

end

def render (v : Json) : String := String.ofList v.chars

/-! ### Descriptions -/

mutual

def describe : Json → String
  | .null => "None"
  | .bool b => if b then "True" else "False"
  | .int n => toString n
  | .float x => x.text
  | .str s => Text.quoted s
  | .arr items => "[" ++ describeItems items ++ "]"
  | .obj fields => "\x7b" ++ describeFields fields ++ "\x7d"

def describeItems : List Json → String
  | [] => ""
  | [v] => v.describe
  | v :: rest => v.describe ++ ", " ++ describeItems rest

def describeFields : List (Text × Json) → String
  | [] => ""
  | [(k, v)] => Text.quoted k ++ ": " ++ v.describe
  | (k, v) :: rest => Text.quoted k ++ ": " ++ v.describe ++ ", " ++ describeFields rest

end

/-- The text of a value: itself for a string, else its description. -/
def text : Json → Text
  | .str s => s
  | v => v.describe

/-- The text of a value that names something, empty where nothing is given. -/
def label (v : Json) : Text := if v.isFalsy then "" else v.text

def typeName : Json → String
  | .null => "NoneType"
  | .bool _ => "bool"
  | .int _ => "int"
  | .float _ => "float"
  | .str _ => "str"
  | .arr _ => "list"
  | .obj _ => "dict"

end WorkloadAdmission.Json
