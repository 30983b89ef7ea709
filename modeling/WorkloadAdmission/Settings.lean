import WorkloadAdmission.Json.Basic
import WorkloadAdmission.Number.Decimal
import WorkloadAdmission.Workload.Class

/-! Settings from an environment of named texts. Each setting is read on its own; an empty text, one
that is no number, and a shrink factor that is not above zero give the default. -/
namespace WorkloadAdmission

/-! ### Typed numbers

Numbers as people type them: blanks around them, single underscores between digits, digits of any script.
The information separators are not skipped. -/

namespace Number

/-- Removes the underscores of a text in which each stands between two digits. -/
def ungroup? (afterDigit : Bool) : List Char → Option (List Char)
  | [] => some []
  | [c] => if c = '_' then none else some [c]
  | c :: d :: rest =>
    if c = '_' then
      if afterDigit && d.isDigit then (ungroup? true rest).map (d :: ·) else none
    else (ungroup? c.isDigit (d :: rest)).map (c :: ·)

/-- A typed text with blanks and underscores removed and digits in ASCII. -/
def plain? (text : Text) : Option (List Char) := do
  let cs := (← text.string?).toList
  ungroup? false ((Text.trim (fun c => Text.isBlank c && !Text.isSeparator c) cs).map Text.asciiDigit)

def float? (text : Text) : Option Binary64 := do
  let cs ← plain? text
  match Numeral.ofChars? cs with
  | some n => return .ofDecimal n.isNegative n.significand n.scale
  | none =>
    let (sign, cs) := takeSign cs
    let name := String.ofList (cs.map Char.toLower)
    if name = "inf" || name = "infinity" then return .infinite (sign = some .minus)
    else if name = "nan" then return .nan
    else none

def typedInteger? (text : Text) : Option Int := do
  let cs ← plain? text
  guard ((takeSign cs).2.length ≤ maxDigits)
  integer? cs

end Number

/-! ### Settings -/

abbrev Environment := Fields Text

structure Settings where
  appEnv : Text := "production"
  shrinkBuild : Binary64 := Binary64.one
  shrinkTest : Binary64 := Binary64.one
  storeUrl : Text := ""
  keyspace : Text := "ci-scheduling"
  timeoutSeconds : Int := 2
  port : Int := 8443
  certFile : Text := "tls/tls.crt"
  keyFile : Text := "tls/tls.key"

namespace Environment

/-- The text of a variable that is set and not empty. -/
def text? (env : Environment) (name : Text) : Option Text := (Fields.get? env name).filter (· ≠ "")

def text (env : Environment) (name default : Text) : Text := (env.text? name).getD default

def integer (env : Environment) (name : Text) (default : Int) : Int :=
  ((env.text? name).bind Number.typedInteger?).getD default

/-- A factor above zero, possibly infinite. -/
def factor (env : Environment) (name : Text) : Binary64 :=
  (((env.text? name).bind Number.float?).filter Binary64.isPositive).getD Binary64.one

end Environment

namespace Settings

def default : Settings := {}

def ofEnvironment (env : Environment) : Settings where
  appEnv := env.text "APP_ENV" default.appEnv
  shrinkBuild := env.factor "SHRINK_BUILD_CPU"
  shrinkTest := env.factor "SHRINK_TEST_CPU"
  storeUrl := env.text "REDIS_URL" default.storeUrl
  keyspace := env.text "PRIORITIZATION_KEY_PREFIX" default.keyspace
  timeoutSeconds := env.integer "PRIORITIZATION_TIMEOUT_SECONDS" default.timeoutSeconds
  port := env.integer "PORT" default.port
  certFile := env.text "TLS_CERT_FILE" default.certFile
  keyFile := env.text "TLS_KEY_FILE" default.keyFile

/-- The factor that the CPU requests of a class shrink by. -/
def cpuFactor (s : Settings) (c : WorkloadClass) : Binary64 := if c.isTest then s.shrinkTest else s.shrinkBuild

/-- Why a service cannot start: outside a test environment it needs a verdict store. -/
inductive StartFault where
  | noStore
  deriving DecidableEq

def StartFault.message : StartFault → Text
  | .noStore => "REDIS_URL is required but not set"

/-- Where verdicts come from: nowhere in a test environment, else from a store at an address, of
which each operation may take so long. -/
inductive Backend where
  | none
  | store (url keyspace : Text) (timeoutSeconds : Int)
  deriving DecidableEq

def backend (s : Settings) : Except StartFault Backend :=
  if s.storeUrl = "" then if s.appEnv = "test" then .ok .none else .error .noStore
  else .ok (.store s.storeUrl s.keyspace s.timeoutSeconds)

end Settings
end WorkloadAdmission
