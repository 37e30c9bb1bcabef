import Mathlib
import Descent.Config
import Descent.Proofs.Computation

namespace Descent

structure Config.Accepted {α : Type} [Scalar α] (c : Config α) : Prop where
  maximumIterations : ¬c.maximumIterations < 0
  gradientTolerance : ¬c.gradientTolerance < 0
  functionImprovementTolerance : ¬c.functionImprovementTolerance < 0
  argumentImprovementTolerance : ¬c.argumentImprovementTolerance < 0
  restartTolerance : ¬c.restartTolerance < 0
  historySize : 0 < c.historySize
  sufficientDecrease : 0 < c.sufficientDecrease ∧ c.sufficientDecrease < 1
  contraction : 0 < c.contraction ∧ c.contraction < 1
  startStep : ¬c.startStep ≤ 0

namespace Settings

variable {α : Type} [Scalar α] {s : Settings α} {c : Config α}

theorem checkTolerance_ok {setting : String} {value : α}
    (checked : checkTolerance setting value = .ok ()) : ¬value < 0 := by
  intro negative
  rw [checkTolerance, if_pos negative] at checked
  cases checked

theorem checkFraction_ok {fault : α → Fault α} {value : α}
    (checked : checkFraction fault value = .ok ()) : 0 < value ∧ value < 1 := by
  by_contra outside
  rw [checkFraction, if_neg outside] at checked
  cases checked

omit [Scalar α] in
theorem refuse_ok {p : Prop} [Decidable p] {fault : Fault α} {rest : Except (Fault α) (Config α)}
    (checked : (do
      if p then throw fault
      rest) = .ok c) : ¬p ∧ rest = .ok c := by
  by_cases refused : p
  · rw [if_pos refused] at checked
    cases checked
  · rw [if_neg refused] at checked
    exact ⟨refused, checked⟩

theorem accepted_of_check (checked : s.check = .ok c) : c.Accepted := by
  obtain ⟨iterations, checked⟩ := refuse_ok checked
  obtain ⟨_, gradient, checked⟩ := bind_eq_ok.1 checked
  obtain ⟨_, improvement, checked⟩ := bind_eq_ok.1 checked
  obtain ⟨_, argument, checked⟩ := bind_eq_ok.1 checked
  obtain ⟨_, restart, checked⟩ := bind_eq_ok.1 checked
  obtain ⟨history, checked⟩ := refuse_ok checked
  obtain ⟨_, decrease, checked⟩ := bind_eq_ok.1 checked
  obtain ⟨_, contraction, checked⟩ := bind_eq_ok.1 checked
  obtain ⟨start, checked⟩ := refuse_ok checked
  obtain ⟨_, -, checked⟩ := bind_eq_ok.1 checked
  obtain ⟨_, -, checked⟩ := bind_eq_ok.1 checked
  cases checked
  exact ⟨iterations, checkTolerance_ok gradient, checkTolerance_ok improvement,
    checkTolerance_ok argument, checkTolerance_ok restart, Int.pos_iff_toNat_pos.1 (not_le.1 history),
    checkFraction_ok decrease, checkFraction_ok contraction, start⟩

end Settings

end Descent
