import WorkloadAdmission.Proofs.Writability

/-! Settings from any environment. Each setting looks at its own variable only: a text that the variable
accepts is its value, and any other text is as good as none. So no environment stops a service from being
set up, and the factors that come out of it shrink whatever containers can be decoded, as long as the counts
that result can be written. -/
namespace WorkloadAdmission

namespace Binary64

/-- Below zero; NaN is not. -/
def isNegative : Binary64 → Bool
  | .finite negative index => negative && 0 < index.val
  | .infinite negative => negative
  | .nan => false

theorem isPositive_eq_false_iff {x : Binary64} :
    x.isPositive = false ↔ x = .nan ∨ x.isZero = true ∨ x.isNegative = true := by
  cases x with
  | finite negative index =>
    cases negative <;> by_cases zero : index.val = 0 <;>
      simp [isPositive, isZero, isNegative, zero, Nat.pos_of_ne_zero]
  | infinite negative => cases negative <;> simp [isPositive, isZero, isNegative]
  | nan => simp [isPositive]

end Binary64

/-! ### Variables -/

/-- The variables that settings are read from, one for each setting. -/
inductive Variable where
  | appEnv
  | shrinkBuild
  | shrinkTest
  | storeUrl
  | keyspace
  | timeoutSeconds
  | port
  | certFile
  | keyFile
  deriving DecidableEq

/-- What a setting holds. -/
inductive Settings.Value where
  | text (s : Text)
  | factor (x : Binary64)
  | integer (n : Int)
  deriving DecidableEq

namespace Variable

def name : Variable → Text
  | .appEnv => "APP_ENV"
  | .shrinkBuild => "SHRINK_BUILD_CPU"
  | .shrinkTest => "SHRINK_TEST_CPU"
  | .storeUrl => "REDIS_URL"
  | .keyspace => "PRIORITIZATION_KEY_PREFIX"
  | .timeoutSeconds => "PRIORITIZATION_TIMEOUT_SECONDS"
  | .port => "PORT"
  | .certFile => "TLS_CERT_FILE"
  | .keyFile => "TLS_KEY_FILE"

inductive Kind where
  | text
  | factor
  | integer
  deriving DecidableEq

def kind : Variable → Kind
  | .shrinkBuild => .factor
  | .shrinkTest => .factor
  | .timeoutSeconds => .integer
  | .port => .integer
  | _ => .text

/-- The value that a text stands for, if it stands for one. -/
def Kind.read? : Kind → Text → Option Settings.Value
  | .text, t => some (.text t)
  | .factor, t => ((Number.float? t).filter Binary64.isPositive).map .factor
  | .integer, t => (Number.typedInteger? t).map .integer

/-- A text that does not set a variable: it is empty, it is no number where one is asked for, or it is a number
that no factor can be. -/
inductive Ignores (v : Variable) : Text → Prop where
  | empty : Ignores v ""
  | noInteger {t : Text} : v.kind = .integer → Number.typedInteger? t = none → Ignores v t
  | noNumber {t : Text} : v.kind = .factor → Number.float? t = none → Ignores v t
  | noFactor {t : Text} {x : Binary64} : v.kind = .factor → Number.float? t = some x →
      x = .nan ∨ x.isZero = true ∨ x.isNegative = true → Ignores v t

theorem ignores_iff {v : Variable} {t : Text} : v.Ignores t ↔ t = "" ∨ v.kind.read? t = none := by
  constructor
  · rintro (_ | ⟨integer, none⟩ | ⟨factor, none⟩ | ⟨factor, read, small⟩)
    · exact .inl rfl
    · right
      rw [integer, Kind.read?, none]
      rfl
    · right
      rw [factor, Kind.read?, none]
      rfl
    · right
      rw [factor, Kind.read?, read, Option.filter_some, Binary64.isPositive_eq_false_iff.mpr small]
      rfl
  · rintro (rfl | none)
    · exact .empty
    · cases kind : v.kind with
      | text =>
        rw [kind] at none
        cases none
      | integer =>
        rw [kind, Kind.read?, Option.map_eq_none_iff] at none
        exact .noInteger kind none
      | factor =>
        rw [kind, Kind.read?, Option.map_eq_none_iff, Option.filter_eq_none_iff] at none
        cases read : Number.float? t with
        | none => exact .noNumber kind read
        | some x =>
          have small : x.isPositive = false := by simpa using none x read
          exact .noFactor kind read (Binary64.isPositive_eq_false_iff.mp small)

theorem name_injective : Function.Injective name := by
  intro first second
  cases first <;> cases second <;> decide

end Variable

namespace Environment

theorem text?_congr {env env' : Environment} {name : Text} (same : Fields.get? env' name = Fields.get? env name) :
    env'.text? name = env.text? name := by
  rw [text?, text?, same]

theorem text?_erase (env : Environment) (name : Text) : text? (Fields.erase env name) name = none := by
  rw [text?, Fields.get?_erase_self]
  rfl

theorem text?_insert_empty (env : Environment) (name : Text) : text? (Fields.insert name "" env) name = none := by
  rw [text?, Fields.get?_insert_self]
  rfl

theorem text?_insert {t : Text} (given : t ≠ "") (env : Environment) (name : Text) :
    text? (Fields.insert name t env) name = some t := by
  rw [text?, Fields.get?_insert_self, Option.filter_some, if_pos (by simpa using given)]

end Environment

namespace Settings

/-- The setting that a variable sets. -/
def value (s : Settings) : Variable → Value
  | .appEnv => .text s.appEnv
  | .shrinkBuild => .factor s.shrinkBuild
  | .shrinkTest => .factor s.shrinkTest
  | .storeUrl => .text s.storeUrl
  | .keyspace => .text s.keyspace
  | .timeoutSeconds => .integer s.timeoutSeconds
  | .port => .integer s.port
  | .certFile => .text s.certFile
  | .keyFile => .text s.keyFile

/-- There are no settings beside those that variables set. -/
theorem ext_value {s t : Settings} (same : ∀ v, s.value v = t.value v) : s = t := by
  cases s
  cases t
  simp only [mk.injEq]
  exact ⟨Value.text.inj (same .appEnv), Value.factor.inj (same .shrinkBuild), Value.factor.inj (same .shrinkTest),
    Value.text.inj (same .storeUrl), Value.text.inj (same .keyspace), Value.integer.inj (same .timeoutSeconds),
    Value.integer.inj (same .port), Value.text.inj (same .certFile), Value.text.inj (same .keyFile)⟩

/-- A setting is what its variable reads from the environment, or else its default. -/
theorem value_ofEnvironment (env : Environment) (v : Variable) :
    (ofEnvironment env).value v = ((env.text? v.name).bind v.kind.read?).getD (default.value v) := by
  have text (name fallback : Text) : Value.text (env.text name fallback) =
      ((env.text? name).bind Variable.Kind.text.read?).getD (.text fallback) := by
    rw [Environment.text]
    cases env.text? name <;> rfl
  have integer (name : Text) (fallback : Int) : Value.integer (env.integer name fallback) =
      ((env.text? name).bind Variable.Kind.integer.read?).getD (.integer fallback) := by
    rw [Environment.integer]
    cases env.text? name with
    | none => rfl
    | some t =>
      rw [Option.bind_some, Option.bind_some, Variable.Kind.read?]
      cases Number.typedInteger? t <;> rfl
  have factor (name : Text) : Value.factor (env.factor name) =
      ((env.text? name).bind Variable.Kind.factor.read?).getD (.factor .one) := by
    rw [Environment.factor]
    cases env.text? name with
    | none => rfl
    | some t =>
      rw [Option.bind_some, Option.bind_some, Variable.Kind.read?]
      cases (Number.float? t).filter Binary64.isPositive <;> rfl
  cases v with
  | appEnv | storeUrl | keyspace | certFile | keyFile => exact text _ _
  | shrinkBuild | shrinkTest => exact factor _
  | timeoutSeconds | port => exact integer _ _

/-- What other variables hold has no say in a setting. -/
theorem value_congr {env env' : Environment} {v : Variable}
    (same : Fields.get? env' v.name = Fields.get? env v.name) :
    (ofEnvironment env').value v = (ofEnvironment env).value v := by
  rw [value_ofEnvironment, value_ofEnvironment, Environment.text?_congr same]

theorem value_unset (env : Environment) (v : Variable) :
    (ofEnvironment (Fields.erase env v.name)).value v = default.value v := by
  rw [value_ofEnvironment, Environment.text?_erase]
  rfl

theorem ofEnvironment_ignored {v : Variable} {t : Text} (ignored : v.Ignores t) (env : Environment) :
    ofEnvironment (Fields.insert v.name t env) = ofEnvironment (Fields.erase env v.name) := by
  apply ext_value
  intro w
  by_cases own : w = v
  · rw [own, value_unset, value_ofEnvironment]
    by_cases given : t = ""
    · rw [given, Environment.text?_insert_empty]
      rfl
    · rw [Environment.text?_insert given, Option.bind_some,
        (Variable.ignores_iff.mp ignored).resolve_left given]
      rfl
  · have apart : w.name ≠ v.name := fun same => own (Variable.name_injective same)
    apply value_congr
    rw [Fields.get?_insert_ne _ _ apart, Fields.get?_erase_ne _ apart]

theorem value_accepted {v : Variable} {t : Text} (accepted : ¬ v.Ignores t) (env : Environment) :
    ∃ held, v.kind.read? t = some held ∧ (ofEnvironment (Fields.insert v.name t env)).value v = held := by
  rw [Variable.ignores_iff, not_or] at accepted
  obtain ⟨given, some⟩ := accepted
  obtain ⟨held, read⟩ := Option.ne_none_iff_exists'.mp some
  refine ⟨held, read, ?_⟩
  rw [value_ofEnvironment, Environment.text?_insert given, Option.bind_some, read]
  rfl

/-- Every environment gives settings, with factors above zero. A text that a variable ignores is as good as none, a
text that it accepts is its setting, and it sets no other. Of the requests of decoded containers such factors
fail to shrink those alone that are too long to write. -/
theorem ofEnvironment_total (env : Environment) :
    let settings := ofEnvironment env
    settings.HasPositiveFactors ∧ settings.shrinkBuild ≠ .nan ∧ settings.shrinkTest ≠ .nan ∧
    (∀ (v : Variable) (t : Text), v.Ignores t →
      ofEnvironment (Fields.insert v.name t env) = ofEnvironment (Fields.erase env v.name)) ∧
    (∀ (v : Variable) (t : Text), ¬ v.Ignores t → ∃ held, v.kind.read? t = some held ∧
      (ofEnvironment (Fields.insert v.name t env)).value v = held) ∧
    (∀ v : Variable, (ofEnvironment (Fields.erase env v.name)).value v = default.value v) ∧
    (∀ (name : Text) (env' : Environment), Fields.AgreeBeside [name] env env' →
      ∀ v : Variable, v.name ≠ name → (ofEnvironment env').value v = settings.value v) ∧
    ∀ (kind : Text) (factor : Binary64) (containers : List Container) (cause : ArithmeticFault),
      factor ∈ [settings.shrinkBuild, settings.shrinkTest] →
      (∀ c ∈ containers, ∃ item, Container.ofJson item = .ok c) →
      (Container.reductions kind factor containers = .error cause ↔
        cause = .tooManyDigits ∧ ∃ c ∈ containers, ∃ r, c.ReducesTo factor r ∧ IsOverlong r) := by
  intro settings
  obtain ⟨build, test⟩ : settings.HasPositiveFactors := hasPositiveFactors_ofEnvironment env
  refine ⟨⟨build, test⟩, ?_, ?_, fun v t ignored => ofEnvironment_ignored ignored env,
    fun v t accepted => value_accepted accepted env, value_unset env, ?_, ?_⟩
  · intro none
    rw [none] at build
    cases build
  · intro none
    rw [none] at test
    cases test
  · intro name env' agree v apart
    exact value_congr (agree v.name (by simpa using apart))
  · intro kind factor containers cause among decoded
    have counted : ∀ c ∈ containers, c.IsCounted := by
      intro c member
      obtain ⟨item, decodes⟩ := decoded c member
      exact Container.isCounted_of_ofJson decodes
    have above : factor.isPositive = true := by
      rcases List.mem_pair.mp among with rfl | rfl
      · exact build
      · exact test
    exact Container.reductions_eq_error_iff counted above kind

/-- A factor below zero is ignored beside one with blanks around it, and a port is read in another script. -/
theorem ofEnvironment_total_mixed :
    let env : Environment := [("SHRINK_TEST_CPU", " 0.5 "), ("PRIORITIZATION_TIMEOUT_SECONDS", "2s")]
    let settings := ofEnvironment env
    let c : Container := ⟨"test", [("cpu", .str "500m")], some 500⟩
    Variable.shrinkBuild.Ignores "-inf" ∧ ¬ Variable.port.Ignores "٨٠" ∧
    ofEnvironment (Fields.insert "SHRINK_BUILD_CPU" "-inf" env) =
      ofEnvironment (Fields.erase env "SHRINK_BUILD_CPU") ∧
    (ofEnvironment (Fields.insert "PORT" "٨٠" env)).value .port = .integer 80 ∧
    (ofEnvironment (Fields.insert "PORT" "٨٠" env)).value .shrinkTest = settings.value .shrinkTest ∧
    (∃ item, Container.ofJson item = .ok c) ∧
    ∀ cause, Container.reductions "containers" settings.shrinkTest [c] = .error cause ↔
      cause = .tooManyDigits ∧ ∃ d ∈ [c], ∃ r, d.ReducesTo settings.shrinkTest r ∧ IsOverlong r := by
  intro env settings c
  obtain ⟨-, -, -, ignored, accepted, -, apart, shrinks⟩ := ofEnvironment_total env
  have negative : Variable.shrinkBuild.Ignores "-inf" := by
    have read : Number.float? "-inf" = some (.infinite true) := by decide +kernel
    exact .noFactor rfl read (.inr (.inr rfl))
  have given : ¬ Variable.port.Ignores "٨٠" := by
    rw [Variable.ignores_iff]
    decide +kernel
  obtain ⟨held, read, port⟩ := accepted .port "٨٠" given
  have eighty : Variable.port.kind.read? "٨٠" = some (.integer 80) := by decide +kernel
  cases eighty.symm.trans read
  have beside : Fields.AgreeBeside ["PORT"] env (Fields.insert "PORT" "٨٠" env) :=
    (Fields.AgreeBeside.refl _ _).insert List.mem_cons_self _
  have decoded : ∃ item, Container.ofJson item = .ok c := by
    refine ⟨.obj [("name", .str "test"), ("resources", .obj [("requests", .obj [("cpu", .str "500m")])])], ?_⟩
    decide +kernel
  exact ⟨negative, given, ignored _ _ negative, port, apart "PORT" _ beside .shrinkTest (by decide), decoded,
    fun cause => shrinks "containers" _ [c] cause (by simp [settings]) (by simpa using decoded)⟩

end Settings
end WorkloadAdmission
