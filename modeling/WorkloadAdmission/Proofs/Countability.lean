import WorkloadAdmission.Proofs.Decoding
import WorkloadAdmission.Proofs.Magnitude

/-! Quantities that are numbers and yet cannot be counted in millicores. A quantity that is refused is
the value's fault, and decoding says so of the object that asks for it. An infinity, a signalling NaN
and a number whose thousandfold leaves the range of products are not refused: there the fault of the
arithmetic comes through, out of the count and out of the decoder. -/
namespace WorkloadAdmission

/-- Whether a fault refuses a value as no quantity, which is what those who count expect. The other
faults are the arithmetic's own. -/
def ArithmeticFault.isRefusal : ArithmeticFault → Bool
  | .nanToInteger => true
  | .tooManyDigits => true
  | .overflow => false
  | .invalidOperation => false
  | .infinityToInteger => false

def QuantityFault.isRefusal : QuantityFault → Bool
  | .arithmetic cause => cause.isRefusal
  | _ => true

/-! ### Numbers -/

namespace Decimal

/-- A number that has no count in millicores although it is not refused, with the fault that it leads to. -/
inductive Uncountable : Decimal → ArithmeticFault → Prop where
  | tooLarge {c e : Int} : overflowBound ≤ |value c e * 1000| → Uncountable (.finite c e) .overflow
  | infinite {negative : Bool} : Uncountable (.infinite negative) .infinityToInteger
  | signalingNan : Uncountable .signalingNan .invalidOperation

theorem Uncountable.isRefusal {d : Decimal} {cause : ArithmeticFault} (uncountable : d.Uncountable cause) :
    cause.isRefusal = false := by
  cases uncountable <;> rfl

/-- Of a finite number the product alone can fail. -/
theorem count_finite_iff {c e : Int} {cause : ArithmeticFault} :
    ((finite c e).mul (.ofInt 1000)).bind ceil = .error cause ↔ (finite c e).Uncountable cause := by
  have thousandfold : value (c * 1000) (e + 0) = value c e * 1000 := by
    rw [value, value, Int.add_zero, Int.cast_mul, mul_right_comm, Int.cast_ofNat]
  have product : (finite c e).mul (.ofInt 1000) = round (c * 1000) (e + 0) := rfl
  rw [product]
  constructor
  · intro fails
    rcases Fallible.bind_eq_error.mp fails with overflows | ⟨d, rounded, ceilFails⟩
    · have fault := round_eq_error overflows
      subst fault
      exact .tooLarge (thousandfold ▸ round_overflow_iff.mp overflows)
    · obtain ⟨s, place, rfl⟩ := round_eq_ok rounded
      obtain ⟨n, counted⟩ := ceil_isOk s place
      rw [counted] at ceilFails
      cases ceilFails
  · rintro ⟨large⟩
    rw [round_overflow_iff.mpr (by rwa [thousandfold])]
    rfl

theorem count_eq_error_iff {d : Decimal} {cause : ArithmeticFault} :
    (d.mul (.ofInt 1000)).bind ceil = .error cause ↔
      d = .nan ∧ cause = .nanToInteger ∨ d.Uncountable cause := by
  cases d with
  | finite c e => simpa using count_finite_iff
  | infinite negative =>
    constructor
    · intro fails
      cases fails
      exact .inr .infinite
    · rintro (⟨apart, -⟩ | uncountable)
      · cases apart
      · cases uncountable
        rfl
  | nan =>
    constructor
    · intro fails
      cases fails
      exact .inl ⟨rfl, rfl⟩
    · rintro (⟨-, rfl⟩ | uncountable)
      · rfl
      · cases uncountable
  | signalingNan =>
    constructor
    · intro fails
      cases fails
      exact .inr .signalingNan
    · rintro (⟨apart, -⟩ | uncountable)
      · cases apart
      · cases uncountable
        rfl

end Decimal

/-! ### Quantities -/

namespace Quantity

/-- A quantity that is read as a number without a count. -/
def Uncountable (v : Json) (cause : ArithmeticFault) : Prop := ∃ n, ofJson v = .ok n ∧ n.Uncountable cause

variable {v : Json} {cause : ArithmeticFault}

/-- Reading refuses or succeeds: even a suffix that overflows is refused. -/
theorem number_ne_arithmetic (text : Text) : number text ≠ .error (.arithmetic cause) := by
  intro fails
  simp only [number] at fails
  split at fails
  · cases fails
  · split at fails
    · cases fails
    · split at fails
      · cases fails
      · obtain ⟨before, -, relabelled⟩ := Fallible.mapError_eq_error.mp fails
        cases relabelled

theorem ofJson_ne_arithmetic : ofJson v ≠ .error (.arithmetic cause) := by
  cases v with
  | bool b => exact fun fails => by cases fails
  | int n => exact fun fails => by cases fails
  | float x =>
    simp only [ofJson]
    split
    · exact number_ne_arithmetic _
    · exact fun fails => by cases fails
  | null | str | arr | obj =>
    simp only [ofJson]
    exact number_ne_arithmetic _

/-- Counting has a fault of the arithmetic exactly for what is read as no number or has no count. -/
theorem cpuMillis_arithmetic_iff : cpuMillis v = .error (.arithmetic cause) ↔
    ofJson v = .ok .nan ∧ cause = .nanToInteger ∨ Uncountable v cause := by
  simp only [cpuMillis, Fallible.bind_eq_error, Fallible.mapError_eq_error]
  constructor
  · rintro (fails | ⟨n, number, before, fails, same⟩)
    · exact absurd fails ofJson_ne_arithmetic
    · cases same
      rcases Decimal.count_eq_error_iff.mp fails with ⟨rfl, fault⟩ | uncountable
      · exact .inl ⟨number, fault⟩
      · exact .inr ⟨n, number, uncountable⟩
  · rintro (⟨number, fault⟩ | ⟨n, number, uncountable⟩)
    · exact .inr ⟨.nan, number, cause, Decimal.count_eq_error_iff.mpr (.inl ⟨rfl, fault⟩), rfl⟩
    · exact .inr ⟨n, number, cause, Decimal.count_eq_error_iff.mpr (.inr uncountable), rfl⟩

theorem Uncountable.isRefusal (uncountable : Uncountable v cause) : cause.isRefusal = false := by
  obtain ⟨n, -, uncountable⟩ := uncountable
  exact uncountable.isRefusal

theorem uncountable_iff :
    Uncountable v cause ↔ cpuMillis v = .error (.arithmetic cause) ∧ cause.isRefusal = false := by
  rw [cpuMillis_arithmetic_iff]
  constructor
  · intro uncountable
    exact ⟨.inr uncountable, uncountable.isRefusal⟩
  · rintro ⟨⟨-, rfl⟩ | uncountable, accepted⟩
    · cases accepted
    · exact uncountable

/-- A count or a refusal is what there is for all other values. -/
theorem counted_or_refused_iff :
    ((∃ n, cpuMillis v = .ok n) ∨ ∃ fault, cpuMillis v = .error fault ∧ fault.isRefusal = true) ↔
      ∀ cause, ¬ Uncountable v cause := by
  simp only [uncountable_iff]
  constructor
  · rintro (⟨n, counted⟩ | ⟨fault, fails, refused⟩) cause ⟨escapes, accepted⟩
    · rw [counted] at escapes
      cases escapes
    · rw [fails] at escapes
      cases escapes
      exact absurd refused (by simp [QuantityFault.isRefusal, accepted])
  · intro countable
    cases counts : cpuMillis v with
    | ok n => exact .inl ⟨n, rfl⟩
    | error fault =>
      refine .inr ⟨fault, rfl, ?_⟩
      cases fault with
      | arithmetic cause =>
        by_contra accepted
        exact countable cause ⟨counts, by simpa [QuantityFault.isRefusal] using accepted⟩
      | notAQuantity | badNumber | unknownSuffix | unscalable => rfl

end Quantity

/-! ### Pods -/

/-- A request is blamed on the object unless it is uncountable. -/
theorem Container.requestedMillis_arithmetic_iff {quantity : Json} {cause : ArithmeticFault} :
    requestedMillis quantity = .error (.arithmetic cause) ↔ Quantity.Uncountable quantity cause := by
  rw [Quantity.uncountable_iff]
  unfold requestedMillis
  constructor
  · intro fails
    split at fails
    all_goals cases fails
    all_goals exact ⟨‹_›, rfl⟩
  · rintro ⟨counts, accepted⟩
    rw [counts]
    cases cause with
    | overflow | invalidOperation | infinityToInteger => rfl
    | nanToInteger | tooManyDigits => cases accepted

namespace Pod

/-- Decoding a pod comes to a container that asks for an uncountable quantity. -/
def MeetsUncountable (document : Json) (cause : ArithmeticFault) : Prop :=
  ∃ item quantity, ComesTo document item ∧ Container.Asks item quantity ∧ Quantity.Uncountable quantity cause

variable {document : Json} {cause : ArithmeticFault}

theorem ofJson_arithmetic_iff :
    ofJson document = .error (.arithmetic cause) ↔ MeetsUncountable document cause := by
  constructor
  · intro fails
    rcases ofJson_eq_error fails with ⟨_, apart⟩ | ⟨item, comes, itemFails⟩
    · cases apart
    · rcases Container.ofJson_eq_error itemFails with ⟨_, apart⟩ | ⟨quantity, asks, fault⟩
      · cases apart
      · exact ⟨item, quantity, comes, asks, Container.requestedMillis_arithmetic_iff.mp fault⟩
  · rintro ⟨item, quantity, comes, asks, uncountable⟩
    exact ofJson_of_comesTo comes
      (Container.ofJson_of_asks asks (Container.requestedMillis_arithmetic_iff.mpr uncountable))

theorem decoded_or_blamed_iff :
    ((∃ pod, ofJson document = .ok pod) ∨ ∃ cause, ofJson document = .error (.object cause)) ↔
      ∀ cause, ¬ MeetsUncountable document cause := by
  simp only [← ofJson_arithmetic_iff]
  constructor
  · rintro (⟨pod, decoded⟩ | ⟨blamed, fails⟩) cause escapes
    · rw [decoded] at escapes
      cases escapes
    · rw [fails] at escapes
      cases escapes
  · intro countable
    cases decodes : ofJson document with
    | ok pod => exact .inl ⟨pod, rfl⟩
    | error fault =>
      rcases object_or_arithmetic decodes with ⟨blamed, rfl⟩ | ⟨cause, rfl⟩
      · exact .inr ⟨blamed, rfl⟩
      · exact absurd decodes (countable cause)

/-- What counting and decoding do not accept they refuse, unless they meet an uncountable quantity: then
its fault comes through, from the quantity and from a pod that asks for it alike. -/
theorem uncountable_requests_escape (v document : Json) (cause : ArithmeticFault) :
    (((∃ n, Quantity.cpuMillis v = .ok n) ∨
        ∃ fault, Quantity.cpuMillis v = .error fault ∧ fault.isRefusal = true) ↔
      ∀ fault, ¬ Quantity.Uncountable v fault) ∧
    (Quantity.cpuMillis v = .error (.arithmetic cause) ∧ cause.isRefusal = false ↔
      Quantity.Uncountable v cause) ∧
    (((∃ pod, ofJson document = .ok pod) ∨ ∃ blamed, ofJson document = .error (.object blamed)) ↔
      ∀ fault, ¬ MeetsUncountable document fault) ∧
    (ofJson document = .error (.arithmetic cause) ↔ MeetsUncountable document cause) :=
  ⟨Quantity.counted_or_refused_iff, Quantity.uncountable_iff.symm, decoded_or_blamed_iff, ofJson_arithmetic_iff⟩

/-- An infinity, a signalling NaN and a number of a million digits are not refused, and a pod that asks
for an infinity is not blamed. -/
theorem infinite_request_escapes :
    Quantity.cpuMillis (.str "inf") = .error (.arithmetic .infinityToInteger) ∧
    Quantity.cpuMillis (.str "sNaN") = .error (.arithmetic .invalidOperation) ∧
    Quantity.cpuMillis (.str "1e999999") = .error (.arithmetic .overflow) ∧
    ofJson (.obj [("spec", .obj [("containers", .arr [.obj [("resources", .obj [("requests",
      .obj [("cpu", .str "inf")])])]])])]) = .error (.arithmetic .infinityToInteger) := by
  decide +kernel

end Pod
end WorkloadAdmission
