import CanaryRouting.Cluster.Faults

/-!
# Calls that run side by side

Several programs use one cluster. They take their steps in any order, given by a list of turns; a
turn says who takes a step, and whether the request that it asks fails. A failed request changes
nothing.

Programs run on hosts. On one host a lock is held by one program at a time, until that ends; a
turn of a program that waits for a lock held by another passes without effect. Different hosts
know nothing of each other's locks.
-/

namespace CanaryRouting

/-- A program that is being run. -/
structure Caller (α : Type) where
  /-- The host it runs on. -/
  host : Nat
  /-- The documents whose locks it has taken. -/
  held : List DocumentKey := []
  /-- What it has still to do. -/
  rest : Program α

namespace Caller

variable {α : Type}

/-- The result, once the program has ended. -/
def result? (p : Caller α) : Option α :=
  match p.rest with
  | .done a => some a
  | _ => none

/-- Whether the program holds the lock of a document. -/
def holds (p : Caller α) (key : DocumentKey) : Bool := p.result?.isNone && p.held.contains key

end Caller

/-- A request that has been carried out or has failed. -/
structure Event where
  /-- Which program asked it. -/
  caller : Nat
  /-- The request. -/
  request : Request
  /-- The answer. -/
  answer : Except ApiFailure request.Answer
  /-- The cluster as the request found it. -/
  before : Cluster

/-- A cluster and the programs that use it. -/
structure Traffic (α : Type) where
  /-- The cluster. -/
  cluster : Cluster
  /-- The programs. -/
  callers : List (Caller α)
  /-- The requests so far, the latest last. -/
  events : List Event := []

/-- A step in a run. -/
structure Turn where
  /-- Which program takes the step. -/
  caller : Nat
  /-- With which failure its request is answered, if it fails. -/
  failure : Option ApiFailure := none

namespace Traffic

variable {α : Type}

/-- Whether a lock is held by another program on the same host. -/
def isTaken (t : Traffic α) (host : Nat) (key : DocumentKey) : Bool :=
  t.callers.any fun p => p.host = host && p.holds key

/-- Lets a program take a step. -/
def step (t : Traffic α) (turn : Turn) : Traffic α :=
  match t.callers[turn.caller]? with
  | none => t
  | some p =>
    match p.rest with
    | .done _ => t
    | .lock space document next =>
      if t.isTaken p.host ⟨space, document⟩ then t
      else
        { t with
          callers := t.callers.set turn.caller
            { p with rest := next, held := ⟨space, document⟩ :: p.held } }
    | .ask r next =>
      let answered := t.cluster.respondUnless turn.failure r
      { cluster := answered.2
        callers := t.callers.set turn.caller { p with rest := next answered.1 }
        events := t.events ++ [⟨turn.caller, r, answered.1, t.cluster⟩] }

/-- Lets programs take steps in turn. -/
def run (t : Traffic α) (turns : List Turn) : Traffic α := turns.foldl step t

end Traffic

end CanaryRouting
