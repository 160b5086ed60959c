import Rollup.Proofs.PersisterStates

/-!
# Witnesses

The calls that are made on others, written down beside their state as they are made.
-/

namespace Rollup

open Rollup.Action

variable {σ M : Type}

namespace OutsideCall

def ids [Record M] : OutsideCall M → List MetricId
  | load ids => ids
  | prepare _ record | dispatch record _ | forward record => [Record.id record]

/-- The identities that were to be loaded. -/
def asked? : OutsideCall M → Option (List MetricId)
  | load ids => some ids
  | _ => none

/-- What was shown to the consumers. -/
def event? : OutsideCall M → Option (M × EventKind)
  | dispatch record kind => some (record, kind)
  | _ => none

def forwarded? : OutsideCall M → Option M
  | forward record => some record
  | _ => none

/-- The drained record that was shown, as it is once its write is prepared. -/
def increment? : OutsideCall M → Option M
  | dispatch record .increment => some record
  | _ => none

end OutsideCall

/-- Others, and the calls that were made on them so far. -/
abbrev Witnessed (σ M : Type) := σ × List (OutsideCall M)

namespace Surroundings

def witness {α : Type} (call : OutsideCall M) (act : Action σ α) : Action (Witnessed σ M) α :=
  fun (s, calls) =>
    let (answer, s) := act.run.run s
    (answer, s, calls ++ [call])

/-- The same surroundings, with their calls witnessed. -/
def witnessed (env : Surroundings σ M) : Surroundings (Witnessed σ M) M where
  load model ids := witness (.load ids) (env.load model ids)
  prepare kind model record := witness (.prepare kind record) (env.prepare kind model record)
  dispatch record kind := witness (.dispatch record kind) (env.dispatch record kind)
  forward record := witness (.forward record) (env.forward record)

theorem ends_witness {α : Type} (call : OutsideCall M) (act : Action σ α) {s : Witnessed σ M}
    {done : α → Witnessed σ M → Prop} {broken : Fault → Witnessed σ M → Prop} :
    Ends (witness call act) s done broken ↔
      Ends act s.1 (fun answer s' => done answer (s', s.2 ++ [call]))
        (fun fault s' => broken fault (s', s.2 ++ [call])) := by
  have hrun : (witness call act).run.run s = ((act.run.run s.1 : Except Fault α × σ).1,
      (act.run.run s.1 : Except Fault α × σ).2, s.2 ++ [call]) := rfl
  unfold Ends
  rw [hrun]
  rcases (act.run.run s.1 : Except Fault α × σ) with ⟨_ | _, _⟩ <;> rfl

end Surroundings

end Rollup
