import ClockGating.Call

/-!
# Interleaving — several contexts on one block

The block is shared: an interrupt handler may come between any two accesses of the program that it
interrupts. A `Pool` is a set of contexts, each with the routine that it still has to run, over one
register file. A schedule names the context that takes the next step, and one step is one node of
its routine, so a modification can be torn between its read and its write.

The only constraint is that of critical sections: nobody enters one while somebody is inside. It
holds back those that enter, and nobody else; plain accesses go on.
-/

namespace ClockGating

/-- Contexts that share the registers. -/
structure Pool (ι α : Type) where
  file : RegisterFile
  /-- The context inside a critical section. -/
  inside : Option ι
  rest : ι → Routine α

namespace Pool

variable {ι α : Type}

/-- All contexts at their beginning, and none of them in a critical section. -/
def start (file : RegisterFile) (routines : ι → Routine α) : Pool ι α := ⟨file, none, routines⟩

def Finished (pool : Pool ι α) : Prop := ∀ i, ∃ a, pool.rest i = .done a

/-- The result of a context that has come to its end. -/
def result? (pool : Pool ι α) (i : ι) : Option α :=
  match pool.rest i with
  | .done a => some a
  | _ => none

variable [DecidableEq ι]

/-- One context is left with another routine. -/
def replace (pool : Pool ι α) (i : ι) (x : Routine α) : Pool ι α :=
  { pool with rest := fun j => if j = i then x else pool.rest j }

/-- The next step of one context. There is none if the context has come to its end, or if it has to
wait for a critical section. -/
def advance (pool : Pool ι α) (i : ι) : Option (Pool ι α) :=
  match pool.rest i with
  | .done _ => none
  | .read r next => some (pool.replace i (next (pool.file r)))
  | .write r v next => some { pool.replace i next with file := pool.file.set r v }
  | .enter next =>
    if pool.inside.isNone then some { pool.replace i next with inside := some i } else none
  | .leave next => some { pool.replace i next with inside := none }
  | .log _ _ next => some (pool.replace i next)

/-- The steps of a schedule, if all of them can be taken. -/
def run (pool : Pool ι α) : List ι → Option (Pool ι α)
  | [] => some pool
  | i :: schedule => (pool.advance i).bind fun next => next.run schedule

/-- A schedule that brings every context to its end. -/
def Completes (pool : Pool ι α) (schedule : List ι) (final : Pool ι α) : Prop :=
  pool.run schedule = some final ∧ final.Finished

end Pool

end ClockGating
