import ChargingSite.Scenario.Fault

/-!
# Verdicts

A verdict on a part of a configuration is the value it stands for, or its faults.  Verdicts on
several parts are combined so that no fault is lost (`Verdict.both`).  A check that meets a number
that does not exist ends everything at once, whatever has been found so far.
-/

namespace ChargingSite

/-- What checking a part of a configuration has found. -/
inductive Verdict (α : Type) where
  | valid (value : α)
  | faulty (faults : List Fault)
  /-- A check met a number that does not exist. -/
  | aborted (cause : NumberError)
  deriving DecidableEq

namespace Verdict

variable {α β : Type}

/-- One fault of the value itself. -/
def fault (kind : FaultKind) : Verdict α :=
  .faulty [{ kind }]

/-- Applies `f` to a valid value. -/
def map (f : α → β) : Verdict α → Verdict β
  | valid a => valid (f a)
  | faulty fs => faulty fs
  | aborted e => aborted e

/-- The verdict on a part, seen from the whole. -/
def under (part : PathPart) : Verdict α → Verdict α
  | faulty fs => faulty (fs.map fun f => { f with path := part :: f.path })
  | v => v

/-- The verdict on two parts, the second of which is checked even if the first is at fault. -/
def both : Verdict α → Verdict β → Verdict (α × β)
  | aborted e, _ | _, aborted e => aborted e
  | valid a, valid b => valid (a, b)
  | faulty fs, faulty gs => faulty (fs ++ gs)
  | faulty fs, valid _ => faulty fs
  | valid _, faulty gs => faulty gs

/-- A further check of a valid value. -/
def andThen (v : Verdict α) (check : α → Verdict β) : Verdict β :=
  match v with
  | valid a => check a
  | faulty fs => faulty fs
  | aborted e => aborted e

/-- A condition on a valid value. -/
def require (v : Verdict α) (holds : α → Bool) (kind : FaultKind) : Verdict α :=
  v.andThen fun a => if holds a then valid a else fault kind

/-- Rules about a valid record, of which the first broken one counts. -/
def obeying (v : Verdict α) (broken? : α → Except NumberError (Option BrokenRule)) : Verdict α :=
  v.andThen fun a =>
    match broken? a with
    | .ok none => valid a
    | .ok (some rule) => fault (.rule rule)
    | .error e => aborted e

end Verdict

end ChargingSite
