import ClockGating.Event

/-!
# Routines — register programs, access by access

A `Routine` is a program for the gating block written as data: one node for each register access,
each end of a critical section and each log record, and a result at the end. A read passes its value
on to the rest of the program, so a read-modify-write is a read node and a write node, with room
between them for whatever else is running. Nothing about the order of accesses is lost, and one
definition serves every way of looking at it: `Routine.run` executes a routine without interruption,
and other interpretations stop it between any two nodes.

- `Routine.run_bind` — running one routine after another is running their sequence;
- `Register.setBits`, `clearBits`, `setAndSettle`, `clearAndSettle`, `testBits` — the primitives
  from which all operations are made, each with one lemma saying what a run of it is.
-/

namespace ClockGating

/-- A program of register accesses with a result of type `α`. -/
inductive Routine (α : Type) where
  | done (result : α)
  /-- Read a register and go on with its contents. -/
  | read (r : Register) (next : Word → Routine α)
  | write (r : Register) (value : Word) (next : Routine α)
  | enter (next : Routine α)
  | leave (next : Routine α)
  | log (level : LogLevel) (text : String) (next : Routine α)

namespace Routine

variable {α β γ : Type}

/-! ## Sequencing -/

/-- One routine, and then another that depends on its result. -/
def bind : Routine α → (α → Routine β) → Routine β
  | done a, f => f a
  | read r next, f => read r fun v => (next v).bind f
  | write r v next, f => write r v (next.bind f)
  | enter next, f => enter (next.bind f)
  | leave next, f => leave (next.bind f)
  | log level text next, f => log level text (next.bind f)

instance : Monad Routine where
  pure := done
  bind := bind

@[simp] theorem pure_eq_done (a : α) : (pure a : Routine α) = done a := rfl

@[simp] theorem bind_eq (x : Routine α) (f : α → Routine β) : x >>= f = x.bind f := rfl

@[simp] theorem done_bind (a : α) (f : α → Routine β) : (done a).bind f = f a := rfl

theorem bind_done (x : Routine α) : x.bind done = x := by
  induction x with
  | done a => rfl
  | read r next ih => exact congrArg (read r) (funext ih)
  | write r v next ih => exact congrArg (write r v) ih
  | enter next ih => exact congrArg enter ih
  | leave next ih => exact congrArg leave ih
  | log level text next ih => exact congrArg (log level text) ih

theorem bind_assoc (x : Routine α) (f : α → Routine β) (g : β → Routine γ) :
    (x.bind f).bind g = x.bind fun a => (f a).bind g := by
  induction x with
  | done a => rfl
  | read r next ih => exact congrArg (read r) (funext ih)
  | write r v next ih => exact congrArg (write r v) ih
  | enter next ih => exact congrArg enter ih
  | leave next ih => exact congrArg leave ih
  | log level text next ih => exact congrArg (log level text) ih

instance : LawfulMonad Routine :=
  LawfulMonad.mk' Routine bind_done (fun _ _ => rfl) bind_assoc

/-! ## Single steps -/

def readWord (r : Register) : Routine Word := read r done

def writeWord (r : Register) (v : Word) : Routine Unit := write r v (done ())

def logRecord (level : LogLevel) (text : String) : Routine Unit := log level text (done ())

def critical (body : Routine α) : Routine α := enter (body.bind fun a => leave (done a))

/-! ## Running without interruption -/

/-- What a complete run comes to: the result, the registers it leaves, and its trace. -/
structure Execution (α : Type) where
  result : α
  file : RegisterFile
  events : List Event

/-- Run a routine on a register file, with the block beginning at `base`. -/
def run (base : Word) : Routine α → RegisterFile → Execution α
  | done a, file => ⟨a, file, []⟩
  | read r next, file =>
    let rest := (next (file r)).run base file
    { rest with events := .read (r.address base) (file r) :: rest.events }
  | write r v next, file =>
    let rest := next.run base (file.set r v)
    { rest with events := .write (r.address base) v :: rest.events }
  | enter next, file =>
    let rest := next.run base file
    { rest with events := .enter :: rest.events }
  | leave next, file =>
    let rest := next.run base file
    { rest with events := .leave :: rest.events }
  | log level text next, file =>
    let rest := next.run base file
    { rest with events := .log level text :: rest.events }

/-- **Runs compose.** A run of two routines in sequence is a run of the first, then one of the
second on the registers that the first has left. -/
theorem run_bind (base : Word) (x : Routine α) (f : α → Routine β) (file : RegisterFile) :
    (x.bind f).run base file =
      let first := x.run base file
      let second := (f first.result).run base first.file
      { second with events := first.events ++ second.events } := by
  induction x generalizing file with
  | done a => rfl
  | read r next ih => simp [bind, run, ih]
  | write r v next ih => simp [bind, run, ih]
  | enter next ih => simp [bind, run, ih]
  | leave next ih => simp [bind, run, ih]
  | log level text next ih => simp [bind, run, ih]

theorem run_bind_file (base : Word) (x : Routine α) (f : α → Routine β) (file : RegisterFile) :
    ((x.bind f).run base file).file =
      ((f (x.run base file).result).run base (x.run base file).file).file := by
  rw [run_bind]

/-- A critical section adds its two ends to the trace and nothing else. -/
theorem run_critical (base : Word) (body : Routine α) (file : RegisterFile) :
    (critical body).run base file =
      { body.run base file with
        events := .enter :: ((body.run base file).events ++ [.leave]) } := by
  simp [critical, run, run_bind]

end Routine

/-! ## Primitives -/

namespace Register

open Routine

/-- Replace the contents of a register by a function of them. -/
def modify (r : Register) (f : Word → Word) : Routine Unit := do
  let v ← readWord r
  writeWord r (f v)

def setBits (r : Register) (mask : Word) : Routine Unit := r.modify (· ||| mask)

def clearBits (r : Register) (mask : Word) : Routine Unit := r.modify (· &&& ~~~mask)

/-- Read a register for the sake of the delay. A write to the block takes some cycles to land, and a
read of the same register waits for it. -/
def settle (r : Register) : Routine Unit := do
  let _ ← readWord r

/-- Set the bits of a mask, and return when they have taken effect. -/
def setAndSettle (r : Register) (mask : Word) : Routine Unit := do
  r.setBits mask
  r.settle

/-- Clear the bits of a mask, and return when this has taken effect. -/
def clearAndSettle (r : Register) (mask : Word) : Routine Unit := do
  r.clearBits mask
  r.settle

def testBits (r : Register) (mask : Word) : Routine Bool := do
  let v ← readWord r
  return Word.covers v mask

/-! ### What a run of a primitive is -/

section Runs

variable (base : Word) (r : Register) (file : RegisterFile)

theorem run_modify (f : Word → Word) :
    (r.modify f).run base file =
      ⟨(), file.set r (f (file r)),
        [.read (r.address base) (file r), .write (r.address base) (f (file r))]⟩ := rfl

theorem run_settle :
    r.settle.run base file = ⟨(), file, [.read (r.address base) (file r)]⟩ := rfl

theorem run_setBits (mask : Word) :
    (r.setBits mask).run base file =
      ⟨(), file.set r (file r ||| mask),
        [.read (r.address base) (file r), .write (r.address base) (file r ||| mask)]⟩ := rfl

theorem run_clearBits (mask : Word) :
    (r.clearBits mask).run base file =
      ⟨(), file.set r (file r &&& ~~~mask),
        [.read (r.address base) (file r), .write (r.address base) (file r &&& ~~~mask)]⟩ := rfl

theorem run_setAndSettle (mask : Word) :
    (r.setAndSettle mask).run base file =
      ⟨(), file.set r (file r ||| mask),
        [.read (r.address base) (file r), .write (r.address base) (file r ||| mask),
          .read (r.address base) (file r ||| mask)]⟩ := by
  simp [setAndSettle, run_bind, run_setBits, run_settle]

theorem run_clearAndSettle (mask : Word) :
    (r.clearAndSettle mask).run base file =
      ⟨(), file.set r (file r &&& ~~~mask),
        [.read (r.address base) (file r), .write (r.address base) (file r &&& ~~~mask),
          .read (r.address base) (file r &&& ~~~mask)]⟩ := by
  simp [clearAndSettle, run_bind, run_clearBits, run_settle]

theorem run_testBits (mask : Word) :
    (r.testBits mask).run base file =
      ⟨Word.covers (file r) mask, file, [.read (r.address base) (file r)]⟩ := rfl

end Runs

end Register

end ClockGating
