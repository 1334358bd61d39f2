import ClockGating.Routine

/-!
# Replay — register contents recovered from a trace

A trace mentions addresses and values, and no register by name. Replaying it starts from known
contents, applies every write, and checks every read against what is there; a trace that claims to
have read anything else, or to have touched an address outside the register map, has no replay.

- `read_of_replay?` — what a trace that replays has read.
- `stages_run_bind` — the contents that a sequence passes through.

Main statement: `replay?_run`. The trace of a run replays to exactly the registers that the run
leaves, so what an observer of the bus can work out and what is in the registers are the same.
-/

namespace ClockGating

def Event.replay? (base : Word) (file : RegisterFile) : Event → Option RegisterFile
  | read a v => do
    let r ← Register.atAddress? base a
    if file r = v then some file else none
  | write a v => do
    let r ← Register.atAddress? base a
    return file.set r v
  | enter | leave | log _ _ => some file

namespace Trace

def replay? (base : Word) (file : RegisterFile) : List Event → Option RegisterFile
  | [] => some file
  | e :: es => (e.replay? base file).bind fun file' => replay? base file' es

/-- The contents after each write of a trace, in order. -/
def stages (base : Word) (file : RegisterFile) : List Event → List RegisterFile
  | [] => []
  | .write a v :: es =>
    match Register.atAddress? base a with
    | some r => file.set r v :: stages base (file.set r v) es
    | none => stages base file es
  | _ :: es => stages base file es

theorem replay?_append (base : Word) (file : RegisterFile) (xs ys : List Event) :
    replay? base file (xs ++ ys) = (replay? base file xs).bind fun f => replay? base f ys := by
  induction xs generalizing file with
  | nil => rfl
  | cons e es ih =>
    simp only [List.cons_append, replay?]
    cases e.replay? base file with
    | none => rfl
    | some file' => exact ih file'

/-- A trace that replays has read nothing but what was there. -/
theorem read_of_replay? {base a v : Word} {file final : RegisterFile} {before after : List Event}
    (h : replay? base file (before ++ .read a v :: after) = some final) :
    ∃ contents r, replay? base file before = some contents ∧ a = r.address base ∧
      contents r = v := by
  rw [replay?_append] at h
  obtain ⟨contents, hbefore, hread⟩ := Option.bind_eq_some_iff.mp h
  obtain ⟨_, hevent, _⟩ := Option.bind_eq_some_iff.mp hread
  obtain ⟨r, hr, hvalue⟩ := Option.bind_eq_some_iff.mp hevent
  split at hvalue
  · rename_i value
    exact ⟨contents, r, hbefore, Register.eq_address_of_atAddress? hr, value⟩
  · cases hvalue

/-- On the way through a sequence of two routines come the stages of the first, and then those of
the second from where the first has led. -/
theorem stages_run_bind {α β : Type} (base : Word) (x : Routine α) (f : α → Routine β)
    (file : RegisterFile) :
    stages base file ((x.bind f).run base file).events =
      stages base file (x.run base file).events ++
        stages base (x.run base file).file
          ((f (x.run base file).result).run base (x.run base file).file).events := by
  induction x generalizing file with
  | done a => rfl
  | read r next ih => exact ih (file r) file
  | write r v next ih =>
    simp only [Routine.bind, Routine.run, stages, Register.atAddress?_address, List.cons_append]
    exact congrArg _ (ih (file.set r v))
  | enter next ih => exact ih file
  | leave next ih => exact ih file
  | log level text next ih => exact ih file

/-- Critical sections do not show in the registers. -/
theorem stages_run_critical {α : Type} (base : Word) (body : Routine α) (file : RegisterFile) :
    stages base file ((Routine.critical body).run base file).events =
      stages base file (body.run base file).events := by
  show stages base file ((body.bind fun a => .leave (.done a)).run base file).events = _
  rw [stages_run_bind]
  exact List.append_nil _

/-- **Faithful traces.** The trace of a run replays to the registers that the run leaves. -/
theorem replay?_run {α : Type} (base : Word) (x : Routine α) (file : RegisterFile) :
    replay? base file (x.run base file).events = some (x.run base file).file := by
  induction x generalizing file with
  | done a => rfl
  | read r next ih =>
    simp [Routine.run, replay?, Event.replay?, Register.atAddress?_address, ih]
  | write r v next ih =>
    simp [Routine.run, replay?, Event.replay?, Register.atAddress?_address, ih]
  | enter next ih => simp [Routine.run, replay?, Event.replay?, ih]
  | leave next ih => simp [Routine.run, replay?, Event.replay?, ih]
  | log level text next ih => simp [Routine.run, replay?, Event.replay?, ih]

end Trace

end ClockGating
