import WorkloadAdmission.Json.Token
import WorkloadAdmission.Text.Encoding

/-! JSON values from documents. The tokens are read in one pass by a machine with a stack of the
arrays and objects that are still open. Of a repeated field name the last value counts, in the
place of the first. -/
namespace WorkloadAdmission.Json

/-- An array or object that is still open, around the value being read. -/
inductive Frame where
  | array (reversed : List Json)
  | object (fields : Fields Json) (key : Text)

/-- What has been read last, and so what may follow. -/
inductive Phase where
  | value
  /-- An array was opened: a value or its end follows. -/
  | item
  /-- A field name follows, or the end of the object if it has just been opened. -/
  | key (fields : Fields Json) (opened : Bool)
  | colon (fields : Fields Json) (key : Text)
  /-- A value has been read: a comma or the end of what is around it follows. -/
  | complete (value : Json)

structure Reading where
  frames : List Frame
  phase : Phase

namespace Reading

def start : Reading := ⟨[], .value⟩

def open? (frames : List Frame) : Token → Option Reading
  | .scalar v => some ⟨frames, .complete v⟩
  | .text s => some ⟨frames, .complete (.str s)⟩
  | .beginArray => some ⟨frames, .item⟩
  | .beginObject => some ⟨frames, .key [] true⟩
  | _ => none

def close? (frames : List Frame) (v : Json) (token : Token) : Option Reading :=
  match frames, token with
  | .array items :: rest, .comma => some ⟨.array (v :: items) :: rest, .value⟩
  | .array items :: rest, .endArray => some ⟨rest, .complete (.arr (v :: items).reverse)⟩
  | .object fields key :: rest, .comma => some ⟨rest, .key (Fields.insert key v fields) false⟩
  | .object fields key :: rest, .endObject => some ⟨rest, .complete (.obj (Fields.insert key v fields))⟩
  | _, _ => none

/-- Reads one token. An array that has just been opened gets its frame with its first value. -/
def step (r : Reading) (token : Token) : Option Reading :=
  match r.phase, token with
  | .item, .endArray => some ⟨r.frames, .complete (.arr [])⟩
  | .item, _ => open? (.array [] :: r.frames) token
  | .value, _ => open? r.frames token
  | .key _ true, .endObject => some ⟨r.frames, .complete (.obj [])⟩
  | .key fields _, .text key => some ⟨r.frames, .colon fields key⟩
  | .colon fields key, .colon => some ⟨.object fields key :: r.frames, .value⟩
  | .complete v, _ => close? r.frames v token
  | _, _ => none

def finish? (r : Reading) : Option Json :=
  match r.frames, r.phase with
  | [], .complete v => some v
  | _, _ => none

end Reading

def ofTokens? (tokens : List Token) : Option Json := (tokens.foldlM Reading.step Reading.start).bind Reading.finish?

def ofPoints? (ps : List CodePoint) : Option Json := (Token.ofPoints? ps).bind ofTokens?

/-- The value of a document as bytes in any Unicode encoding. -/
def ofBytes? (bytes : ByteArray) : Option Json := (Text.decode? bytes).bind ofPoints?

end WorkloadAdmission.Json
