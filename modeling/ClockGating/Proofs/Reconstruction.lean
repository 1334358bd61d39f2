import ClockGating.Proofs.Possession
import ClockGating.Replay

/-!
# Reconstruction — the registers, told from the answers

An observer who knows what the registers held at first, and is told every request and every answer,
knows what they hold at every later point: a poke does what its request says, and everything else
does what its events say. This is worked out here without a look at the registers. The values that
the program reads are the ones that the observer expects, access by access.

- `Session.replay?` — what the observer works out.
- `Session.replayAnswer?_step` — one answer.
- `Session.replayRecord?_steps` — all answers, by induction on the requests.

Main statement: `answers_tell_registers`.
-/

namespace ClockGating

namespace Session

/-! ## Replaying answers -/

/-- The registers after an answer. Where a poke was carried out, its request says what it did; it
leaves no events. -/
def replayAnswer? (base : Word) (file : RegisterFile) : Request × Answer → Option RegisterFile
  | (.poke name (some v), .ok _) => do
    let r ← name.bind Register.ofName?
    return file.set r v
  | (_, answer) => Trace.replay? base file (eventsOf answer)

/-- The registers after all answers of a record. -/
def replayRecord? (base : Word) (file : RegisterFile) :
    List (Request × Answer) → Option RegisterFile
  | [] => some file
  | x :: rest => (replayAnswer? base file x).bind fun file' => replayRecord? base file' rest

/-- The registers after the block has been constrained and a record of requests has been
answered. -/
def replay? (base : Word) (init : RegisterFile) (start : List Event)
    (record : List (Request × Answer)) : Option RegisterFile :=
  (Trace.replay? base init start).bind fun file => replayRecord? base file record

/-! ## Steps -/

/-- The events of an action replay, and unless it is a poke they account for all that it does. -/
theorem replay?_perform {t : Target} {s : State} (bound : s.handles.BoundTo t.base) (a : Action) :
    ∃ file', Trace.replay? t.base s.file (a.perform t s).events = some file' ∧
      ((∀ r v, a ≠ .poke r v) → file' = (a.perform t s).file) := by
  cases a with
  | poke r v => exact ⟨s.file, rfl, fun h => absurd rfl (h r v)⟩
  | trade => exact ⟨s.file, rfl, fun _ => rfl⟩
  | share => exact ⟨s.file, rfl, fun _ => rfl⟩
  | constrain => exact ⟨_, Trace.replay?_run t.base t.constrain.silent s.file, fun _ => rfl⟩
  | call c =>
      rw [Action.perform_call bound]
      exact ⟨_, Trace.replay?_run t.base c.routine s.file, fun _ => rfl⟩

theorem replay?_events_step {t : Target} {s : State} (bound : s.handles.BoundTo t.base)
    (request : Request) :
    ∃ file', Trace.replay? t.base s.file (eventsOf (step t s request).1) = some file' ∧
      ((∀ name v, request ≠ .poke name v) → file' = (step t s request).2.file) := by
  cases hr : request.resolve t.device s.held with
  | error cause =>
      rw [step_of_resolve_error hr]
      exact ⟨s.file, rfl, fun _ => rfl⟩
  | ok a =>
      rw [step_of_resolve_ok hr]
      obtain ⟨file', replayed, same⟩ := replay?_perform bound a
      refine ⟨file', replayed, fun h => same ?_⟩
      rintro r v rfl
      cases Request.resolves_of_resolve hr
      exact h _ _ rfl

theorem replayAnswer?_step {t : Target} {s : State} (bound : s.handles.BoundTo t.base)
    (request : Request) :
    replayAnswer? t.base s.file (request, (step t s request).1) =
      some (step t s request).2.file := by
  have byEvents (h : ∀ name v, request ≠ .poke name v) :
      Trace.replay? t.base s.file (eventsOf (step t s request).1) =
        some (step t s request).2.file := by
    obtain ⟨file', replayed, same⟩ := replay?_events_step bound request
    rw [replayed, same h]
  cases request with
  | poke name value =>
      cases hr : (Request.poke name value).resolve t.device s.held with
      | error cause =>
          rw [step_of_resolve_error hr]
          cases value <;> rfl
      | ok a =>
          rw [step_of_resolve_ok hr]
          cases Request.resolves_of_resolve hr with
          | @poke _ r v named =>
              show ((name.bind Register.ofName?).bind fun r => some (s.file.set r v)) = _
              rw [named]
              rfl
  | constrain => exact byEvents nofun
  | trade => exact byEvents nofun
  | share => exact byEvents nofun
  | handle name op => exact byEvents nofun
  | group op name mask => exact byEvents nofun

/-! ## Runs -/

theorem replayRecord?_steps {t : Target} {s : State} (bound : s.handles.BoundTo t.base)
    (requests : List Request) :
    replayRecord? t.base s.file (requests.zip (steps t s requests).1) =
      some (steps t s requests).2.file := by
  induction requests generalizing s with
  | nil => rfl
  | cons request rest ih =>
      show ((replayAnswer? t.base s.file (request, (step t s request).1)).bind fun file' =>
        replayRecord? t.base file' (rest.zip (steps t (step t s request).2 rest).1)) = _
      rw [replayAnswer?_step bound, Option.bind_some]
      exact ih (boundTo_steps bound [request])

/-- What an observer can work out from the first `k` answers. -/
def contentsAfter? (t : Target) (init : RegisterFile) (requests : List Request) (k : Nat) :
    Option RegisterFile :=
  replay? t.base init (run t init requests).start ((record t init requests).take k)

theorem contentsAfter?_eq (t : Target) (init : RegisterFile) (requests : List Request) (k : Nat) :
    contentsAfter? t init requests k = some (stateAfter t init (requests.take k)).file := by
  have start : Trace.replay? t.base init (run t init requests).start = some init :=
    Trace.replay?_run t.base t.constrain init
  unfold contentsAfter? replay?
  rw [start, record_take, Option.bind_some]
  exact replayRecord?_steps (s := ⟨.groups t.base, init⟩) (fun _ => rfl) (requests.take k)

/-- The answers of a session are a faithful record of the registers. -/
structure ToldByAnswers (t : Target) (init : RegisterFile) (requests : List Request) : Prop where
  start : ∀ a v, .read a v ∉ (run t init requests).start
  /-- What is read anywhere in an answer is what the answers before and the events before have
  made of the register. -/
  reads : ∀ (k : Nat) answer, (run t init requests).answers[k]? = some answer →
    ∀ before a v after, eventsOf answer = before ++ .read a v :: after →
      ∃ earlier contents r, contentsAfter? t init requests k = some earlier ∧
        Trace.replay? t.base earlier before = some contents ∧
        a = r.address t.base ∧ contents r = v
  file : contentsAfter? t init requests requests.length = some (run t init requests).file
  /-- The registers that are reported as different from `w` are those that the observer expects to
  be different. -/
  reported : ∀ w r v, (r, v) ∈ (run t init requests).file.changedFrom w ↔
    ∃ contents, contentsAfter? t init requests requests.length = some contents ∧
      contents r = v ∧ v ≠ w

end Session

/-- **The answers tell the registers**, after every session and at every access on the way. -/
theorem answers_tell_registers (t : Target) (init : RegisterFile) (requests : List Request) :
    Session.ToldByAnswers t init requests := by
  have last : Session.contentsAfter? t init requests requests.length =
      some (Session.run t init requests).file := by
    rw [Session.contentsAfter?_eq, List.take_length, Session.run_file]
  constructor
  case start =>
    intro a v h
    cases List.mem_singleton.mp h
  case reads =>
    intro k answer hanswer before a v after split
    obtain ⟨request, _, rfl⟩ := Session.run_answer_eq hanswer
    have bound := Session.boundTo_stateAfter t init (requests.take k)
    obtain ⟨_, replayed, _⟩ := Session.replay?_events_step bound request
    rw [split] at replayed
    obtain ⟨contents, r, hbefore, ha, hv⟩ := Trace.read_of_replay? replayed
    exact ⟨_, contents, r, Session.contentsAfter?_eq t init requests k, hbefore, ha, hv⟩
  case file => exact last
  case reported =>
    intro w r v
    rw [RegisterFile.mem_changedFrom, last]
    constructor
    · rintro ⟨hr, hne⟩
      exact ⟨_, rfl, hr, hne⟩
    · rintro ⟨_, told, hr, hne⟩
      cases told
      exact ⟨hr, hne⟩

end ClockGating
