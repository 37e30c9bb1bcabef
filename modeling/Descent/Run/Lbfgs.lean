import Descent.Curvature
import Descent.Run.Basic

namespace Descent.Lbfgs

variable {σ α : Type} [Scalar α] {n : Nat}

structure State (α : Type) (n : Nat) where
  iterate : Iterate α n
  history : History α n
  last : Option (Vector α n × Vector α n)

def stalled (c : Config α) (before value : α) : Bool :=
  let tolerance := c.restartTolerance
  decide (Scalar.abs (before - value) < tolerance * (Scalar.abs value + tolerance))

def refresh (c : Config α) (s : State α n) (value : α) (g : Vector α n) :
    Except (Fault α) (History α n × List (Entry α)) := do
  match s.last, s.iterate.previous with
  | some (point, gradient), some before =>
      let (_, history, entries) ← s.history.update (s.iterate.point - point) (g - gradient)
      if stalled c before value then
        return (history.clear, entries ++ [⟨.debug, .restarted s.iterate.iterations⟩])
      return (history, entries)
  | _, _ => return (s.history, [])

def direction (c : Config α) (s : State α n) (value : α) (g : Vector α n) :
    Except (Fault α) (History.Search α n) := do
  let (history, entries) ← refresh c s value g
  let search ← history.searchDirection c.startStep g
  return { search with entries := entries ++ search.entries }

def follow (setup : RunSetup α n) (oracle : Oracle σ α n) (s : State α n) (value : α)
    (g : Vector α n) (search : History.Search α n) : Run σ α n (Turn α (State α n)) := do
  Run.log search.entries
  let s := { s with history := search.history }
  let p := search.direction
  match ← Run.attempt (LineSearch.search setup.config setup.searchBudget oracle.value
      s.iterate.point value g p search.start) with
  | .error fault => Run.failed .lbfgs .lineSearch fault s
  | .ok result =>
      Run.log result.entries
      if result.isFinished then
        return .next { s with
          iterate := s.iterate.advance value g p result.step
          last := some (s.iterate.point, g) }
      else return .stop .na s

def turn (setup : RunSetup α n) (oracle : Oracle σ α n) (exhausted : Bool) (s : State α n) :
    Run σ α n (Turn α (State α n)) := do
  match ← Run.attempt (oracle.gradient s.iterate.point) with
  | .error fault => Run.failed .lbfgs .evaluation fault s
  | .ok (value, g) =>
      let exit := setup.config.exit? (s.iterate.standing value g exhausted)
      Run.row (.columns .lbfgs) (.lbfgsRow s.iterate.iterations value (Vec.maxAbs g) s.iterate.step
        s.history.pairs.length) s.iterate.rows
      match exit with
      | some exit => return .stop exit s
      | none =>
          if ← Run.shown setup ⟨value, s.iterate.point, g, none⟩ then
            match direction setup.config s value g with
            | .error fault => return .abandon fault
            | .ok search => follow setup oracle s value g search
          else return .stop .userAbort s

def run (setup : RunSetup α n) (oracle : Oracle σ α n) (point : Vector α n) (iterations : Int) :
    Run σ α n (Except (Fault α) (ExitCondition × State α n)) :=
  Run.repeatTurn (turn setup oracle) (Run.remaining setup.config iterations)
    ⟨.start point iterations, .empty setup.config.historySize, none⟩

end Descent.Lbfgs
