import Mathlib
import Descent.Proofs.Config
import Descent.Proofs.Numbers.Signs

namespace Descent.Config

section

variable {α : Type} [Scalar α] {c : Config α}

inductive Built : Config α → Prop
  | ofSettings {changes : List (Setting α)} {c : Config α} (made : ofSettings changes = .ok c) : Built c
  | override {changes : List (Setting α)} {c c' : Config α} (built : Built c) (made : c.override changes = .ok c') :
      Built c'

structure InRange (c : Config α) : Prop where
  maximumIterations : 0 ≤ c.maximumIterations
  gradientTolerance : 0 ≤ c.gradientTolerance
  functionImprovementTolerance : 0 ≤ c.functionImprovementTolerance
  argumentImprovementTolerance : 0 ≤ c.argumentImprovementTolerance
  restartTolerance : 0 ≤ c.restartTolerance
  historySize : 0 < c.historySize
  sufficientDecrease : 0 < c.sufficientDecrease ∧ c.sufficientDecrease < 1
  contraction : 0 < c.contraction ∧ c.contraction < 1
  startStep : 0 < c.startStep

omit [Scalar α] in
def settings (c : Config α) : List (Setting α) :=
  [.maximumIterations c.maximumIterations, .gradientTolerance c.gradientTolerance,
    .functionImprovementTolerance c.functionImprovementTolerance,
    .argumentImprovementTolerance c.argumentImprovementTolerance, .historySize c.historySize,
    .restartTolerance c.restartTolerance, .sufficientDecrease c.sufficientDecrease, .contraction c.contraction,
    .startStep c.startStep, .sparsityMode (.known c.sparsityMode),
    .factorizationMethod (.known c.factorizationMethod), .autoSparseMinSize c.autoSparseMinSize,
    .autoSparseMaxDensity c.autoSparseMaxDensity]

theorem Accepted.check (accepted : c.Accepted) : c.toSettings.check = .ok c := by
  have history : ¬(c.historySize : Int) ≤ 0 := by
    have := accepted.historySize
    omega
  simp only [Settings.check, toSettings, Settings.checkTolerance, Settings.checkFraction, history,
    accepted.maximumIterations, accepted.gradientTolerance, accepted.functionImprovementTolerance,
    accepted.argumentImprovementTolerance, accepted.restartTolerance, accepted.sufficientDecrease,
    accepted.contraction, accepted.startStep, and_self, reduceIte]
  rfl

theorem built_iff : c.Built ↔ c.Accepted := by
  constructor
  · intro built
    induction built with
    | ofSettings made =>
        obtain ⟨s, -, checked⟩ := bind_eq_ok.1 made
        exact Settings.accepted_of_check checked
    | @override changes c c' built made ih =>
        rw [Config.override] at made
        split at made
        · cases made
          exact ih
        · obtain ⟨s, -, checked⟩ := bind_eq_ok.1 made
          exact Settings.accepted_of_check checked
  · intro accepted
    have made : ofSettings c.settings = .ok c := accepted.check
    exact .ofSettings made

end

variable {c : Config Float}

structure Known (c : Config Float) : Prop where
  gradientTolerance : c.gradientTolerance.isNaN = false
  functionImprovementTolerance : c.functionImprovementTolerance.isNaN = false
  argumentImprovementTolerance : c.argumentImprovementTolerance.isNaN = false
  restartTolerance : c.restartTolerance.isNaN = false
  startStep : c.startStep.isNaN = false

theorem InRange.accepted (inside : c.InRange) : c.Accepted where
  maximumIterations := not_lt.2 inside.maximumIterations
  gradientTolerance := Binary64.not_lt_zero_iff.2 (.inl inside.gradientTolerance)
  functionImprovementTolerance := Binary64.not_lt_zero_iff.2 (.inl inside.functionImprovementTolerance)
  argumentImprovementTolerance := Binary64.not_lt_zero_iff.2 (.inl inside.argumentImprovementTolerance)
  restartTolerance := Binary64.not_lt_zero_iff.2 (.inl inside.restartTolerance)
  historySize := inside.historySize
  sufficientDecrease := inside.sufficientDecrease
  contraction := inside.contraction
  startStep := Binary64.not_le_zero_iff.2 (.inl inside.startStep)

theorem Accepted.startStep_pos_iff (accepted : c.Accepted) : 0 < c.startStep ↔ c.startStep.isNaN = false := by
  refine ⟨Binary64.known_of_pos, fun number => ?_⟩
  exact (Binary64.not_le_zero_iff.1 accepted.startStep).resolve_right (Bool.eq_false_iff.1 number)

theorem Accepted.inRange_iff (accepted : c.Accepted) : c.InRange ↔ c.Known := by
  constructor
  · intro inside
    exact ⟨Binary64.known_of_zero_le inside.gradientTolerance,
      Binary64.known_of_zero_le inside.functionImprovementTolerance,
      Binary64.known_of_zero_le inside.argumentImprovementTolerance,
      Binary64.known_of_zero_le inside.restartTolerance, Binary64.known_of_pos inside.startStep⟩
  · intro known
    have tolerance {a : Float} (number : a.isNaN = false) (bounded : ¬a < 0) : 0 ≤ a :=
      (Binary64.not_lt_zero_iff.1 bounded).resolve_right (Bool.eq_false_iff.1 number)
    exact {
      maximumIterations := not_lt.1 accepted.maximumIterations
      gradientTolerance := tolerance known.gradientTolerance accepted.gradientTolerance
      functionImprovementTolerance :=
        tolerance known.functionImprovementTolerance accepted.functionImprovementTolerance
      argumentImprovementTolerance :=
        tolerance known.argumentImprovementTolerance accepted.argumentImprovementTolerance
      restartTolerance := tolerance known.restartTolerance accepted.restartTolerance
      historySize := accepted.historySize
      sufficientDecrease := accepted.sufficientDecrease
      contraction := accepted.contraction
      startStep := accepted.startStep_pos_iff.2 known.startStep }

end Descent.Config
