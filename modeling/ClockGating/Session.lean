import ClockGating.Session.Request
import ClockGating.Target

/-!
# Sessions — sequences of requests to one gating block

A session constrains the block and then answers one request after another. What a request does to
the registers is the run of a routine; what it does to the handles is `Action.handlesAfter`. A
request that is refused leaves everything as it is.

Constraining the block is what decides where it begins. From then on this is known to the handles
alone: a call goes to the block of the handle that it is made through, and handles that are made
from others are made for the same block.

`Session.actions` is the session without its registers: the actions that are carried out depend on
the part and on the handles held, and on nothing that a register holds.
-/

namespace ClockGating

/-! ## Handles -/

/-- The handles that a program holds. Those of a kind are made together, and each of them is told
where the block begins. -/
inductive Handles where
  | groups (base : Word)
  | both (groupBase peripheralBase : Word)
  | peripherals (base : Word)
deriving DecidableEq

namespace Handles

def ownership : Handles → Ownership
  | groups _ => .groups
  | both _ _ => .both
  | peripherals _ => .peripherals

/-- Where the block begins for the handle that a call is made through. -/
def base : Handles → Call → Word
  | groups b, _ | peripherals b, _ => b
  | both _ b, .handle _ _ => b
  | both b _, .gate _ _ _ | both b _, .autonomous _ _ | both b _, .bus _ _ => b

/-- Whatever is called through these handles is called for the block that begins at `base`. -/
def BoundTo (base : Word) (handles : Handles) : Prop := ∀ c, handles.base c = base

/-- Where the block begins for peripheral handles that are made from these. -/
def passedOn : Handles → Word
  | groups b | both b _ | peripherals b => b

end Handles

/-! ## Steps -/

/-- What lasts from one step to the next. -/
structure State where
  handles : Handles
  file : RegisterFile

def State.held (s : State) : Ownership := s.handles.ownership

structure Outcome where
  reply : Reply
  events : List Event
deriving DecidableEq

abbrev Answer := Except Refusal Outcome

namespace Action

/-- The handles that are held after an action. Constraining the block starts over. -/
def heldAfter (held : Ownership) : Action → Ownership
  | constrain => .groups
  | trade => .peripherals
  | share => .both
  | poke _ _ | call _ => held

/-- The handles after an action, with what they are told. Only the group handles that constraining
makes are told it by the program; all others have it from the handles that they are made from. -/
def handlesAfter (t : Target) (handles : Handles) : Action → Handles
  | constrain => .groups t.base
  | trade => .peripherals handles.passedOn
  | share => .both handles.passedOn handles.passedOn
  | poke _ _ | call _ => handles

theorem ownership_handlesAfter (t : Target) (handles : Handles) (a : Action) :
    (a.handlesAfter t handles).ownership = a.heldAfter handles.ownership := by
  cases a <;> rfl

/-- What an action does to the registers. What is written behind the program's back is not a
part of the program and leaves no trace. -/
def perform (t : Target) (s : State) : Action → Routine.Execution Reply
  | poke r v => ⟨.nothing, s.file.set r v, []⟩
  | constrain => t.constrain.silent.run t.base s.file
  | trade | share => ⟨.nothing, s.file, []⟩
  | call c => c.routine.run (s.handles.base c) s.file

theorem perform_call {t : Target} {s : State} (bound : s.handles.BoundTo t.base) (c : Call) :
    (call c).perform t s = c.routine.run t.base s.file :=
  congrArg (fun base => c.routine.run base s.file) (bound c)

def step (t : Target) (s : State) (a : Action) : Outcome × State :=
  let run := a.perform t s
  (⟨run.result, run.events⟩, ⟨a.handlesAfter t s.handles, run.file⟩)

theorem step_call {t : Target} {s : State} (bound : s.handles.BoundTo t.base) (c : Call) :
    (call c).step t s = (⟨(c.routine.run t.base s.file).result,
      (c.routine.run t.base s.file).events⟩, ⟨s.handles, (c.routine.run t.base s.file).file⟩) := by
  rw [step, perform_call bound]
  rfl

theorem held_step (t : Target) (s : State) (a : Action) :
    (a.step t s).2.held = a.heldAfter s.held :=
  a.ownership_handlesAfter t s.handles

end Action

namespace Session

def step (t : Target) (s : State) (request : Request) : Answer × State :=
  match request.resolve t.device s.held with
  | .error cause => (.error cause, s)
  | .ok a =>
    let (outcome, s') := a.step t s
    (.ok outcome, s')

def steps (t : Target) (s : State) : List Request → List Answer × State
  | [] => ([], s)
  | request :: rest =>
    let (answer, s') := step t s request
    let (answers, last) := steps t s' rest
    (answer :: answers, last)

/-- Everything that a session answers. -/
structure Transcript where
  /-- The trace of constraining the block. -/
  start : List Event
  answers : List Answer
  file : RegisterFile

/-- The trace of one answer. A refusal leaves none. -/
def eventsOf : Answer → List Event
  | .ok outcome => outcome.events
  | .error _ => []

def Transcript.events (t : Transcript) : List Event := t.start ++ t.answers.flatMap eventsOf

/-- A whole session on a register file: constrain the block, then answer all requests. -/
def run (t : Target) (init : RegisterFile) (requests : List Request) : Transcript :=
  let first := t.constrain.run t.base init
  let (answers, last) := steps t ⟨.groups t.base, first.file⟩ requests
  ⟨first.events, answers, last.file⟩

/-- The actions that a session carries out. They depend on the part and on which handles are held,
and not on the contents of any register. -/
def actions (d : Device) (held : Ownership) : List Request → List Action
  | [] => []
  | request :: rest =>
    match request.resolve d held with
    | .error _ => actions d held rest
    | .ok a => a :: actions d (a.heldAfter held) rest

/-- Sessions compose: what comes later starts from what came before. -/
theorem steps_append (t : Target) (s : State) (xs ys : List Request) :
    steps t s (xs ++ ys) =
      ((steps t s xs).1 ++ (steps t (steps t s xs).2 ys).1, (steps t (steps t s xs).2 ys).2) := by
  induction xs generalizing s with
  | nil => rfl
  | cons x xs ih => simp [steps, ih]

theorem step_of_resolve_error {t : Target} {s : State} {request : Request} {cause : Refusal}
    (h : request.resolve t.device s.held = .error cause) :
    step t s request = (.error cause, s) := by
  simp [step, h]

/-- A resolved request is answered by its action. -/
theorem step_of_resolve_ok {t : Target} {s : State} {request : Request} {a : Action}
    (h : request.resolve t.device s.held = .ok a) :
    step t s request = (.ok (a.step t s).1, (a.step t s).2) := by
  simp [step, h]

end Session

end ClockGating
