import Mathlib
import Descent.Proofs.Computation

namespace Descent

variable {ε σ α β : Type} {R : σ → σ → Prop}

def Agree (R : σ → σ → Prop) (x y : ExceptT ε (StateM σ) α) : Prop :=
  ∀ s t, R s t → (StateT.run (ExceptT.run x) s).1 = (StateT.run (ExceptT.run y) t).1 ∧
    R (StateT.run (ExceptT.run x) s).2 (StateT.run (ExceptT.run y) t).2

theorem Agree.exists_run {x y : ExceptT ε (StateM σ) α} (agree : Agree R x y) {s t : σ} (related : R s t) :
    ∃ result s' t', StateT.run (ExceptT.run x) s = (result, s') ∧ StateT.run (ExceptT.run y) t = (result, t') ∧
      R s' t' := by
  obtain ⟨same, related⟩ := agree s t related
  rcases outcome : StateT.run (ExceptT.run x) s with ⟨result, s'⟩
  rcases outcome' : StateT.run (ExceptT.run y) t with ⟨result', t'⟩
  rw [outcome, outcome'] at same related
  obtain rfl : result = result' := same
  exact ⟨result, s', t', rfl, rfl, related⟩

theorem agree_pure (a : α) : Agree R (pure a : ExceptT ε (StateM σ) α) (pure a) :=
  fun _ _ related => ⟨rfl, related⟩

theorem agree_throw (fault : ε) : Agree R (throw fault : ExceptT ε (StateM σ) α) (throw fault) :=
  fun _ _ related => ⟨rfl, related⟩

theorem agree_lift (result : Except ε α) :
    Agree R (liftM result : ExceptT ε (StateM σ) α) (liftM result) := by
  cases result <;> exact fun _ _ related => ⟨rfl, related⟩

theorem agree_set {s t : σ} (related : R s t) :
    Agree R (set s : ExceptT ε (StateM σ) PUnit) (set t) := fun _ _ _ => ⟨rfl, related⟩

theorem agree_modify {f g : σ → σ} (kept : ∀ s t, R s t → R (f s) (g t)) :
    Agree R (modify f : ExceptT ε (StateM σ) PUnit) (modify g) :=
  fun s t related => ⟨rfl, kept s t related⟩

theorem Agree.bind {x y : ExceptT ε (StateM σ) α} {next next' : α → ExceptT ε (StateM σ) β}
    (first : Agree R x y) (others : ∀ a, Agree R (next a) (next' a)) :
    Agree R (x >>= next) (y >>= next') := by
  intro s t related
  obtain ⟨result, s', t', outcome, outcome', related⟩ := first.exists_run related
  rw [run_run_bind, run_run_bind, outcome, outcome']
  cases result with
  | error fault => exact ⟨rfl, related⟩
  | ok a => exact others a s' t' related

theorem agree_get_bind {next next' : σ → ExceptT ε (StateM σ) β}
    (others : ∀ s t, R s t → Agree R (next s) (next' t)) :
    Agree R ((get : ExceptT ε (StateM σ) σ) >>= next) (get >>= next') := by
  intro s t related
  rw [run_run_bind, run_run_bind, run_run_get, run_run_get]
  exact others s t related s t related

theorem Agree.tryCatch {x y : ExceptT ε (StateM σ) α} {handler handler' : ε → ExceptT ε (StateM σ) α}
    (first : Agree R x y) (handled : ∀ fault, Agree R (handler fault) (handler' fault)) :
    Agree R (tryCatch x handler) (tryCatch y handler') := by
  intro s t related
  obtain ⟨result, s', t', outcome, outcome', related⟩ := first.exists_run related
  rw [run_run_tryCatch, run_run_tryCatch, outcome, outcome']
  cases result with
  | error fault => exact handled fault s' t' related
  | ok a => exact ⟨rfl, related⟩

theorem agree_forM {x y : β → ExceptT ε (StateM σ) PUnit} {l : List β} (each : ∀ b ∈ l, Agree R (x b) (y b)) :
    Agree R (l.forM x) (l.forM y) := by
  induction l with
  | nil => exact agree_pure _
  | cons b rest ih =>
      obtain ⟨here, each⟩ := List.forall_mem_cons.1 each
      exact here.bind fun _ => ih each

end Descent
