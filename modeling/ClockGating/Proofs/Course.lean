import ClockGating.Proofs.Modification

/-!
# The course of a session

A request either is refused, and then nothing happens, or resolves to an action, and then the action
happens. Everything about whole sessions is derived here from these two cases.

- `stateAfter` — where a session stands between two requests.
- `steps_induction` — what every action that is carried out preserves holds at every later point.
- `steps_file` — the registers are those that the assignments of the actions make.
- `boundTo_stateAfter` — every handle that is ever held is for the block that was constrained.
-/

namespace ClockGating

theorem Action.perform_file (t : Target) (s : State) (a : Action) :
    (a.perform t s).file = s.file.assignAll a.assignments := by
  cases a with
  | poke r v => exact (RegisterFile.assign_fills s.file r v).symm
  | constrain => rfl
  | trade => rfl
  | share => rfl
  | call c => exact Call.run_file (s.handles.base c) c s.file

namespace Session

/-- Where a session stands when it has answered these requests. -/
def stateAfter (t : Target) (init : RegisterFile) (requests : List Request) : State :=
  (steps t ⟨.groups t.base, init⟩ requests).2

theorem run_file (t : Target) (init : RegisterFile) (requests : List Request) :
    (run t init requests).file = (stateAfter t init requests).file := rfl

theorem stateAfter_append (t : Target) (init : RegisterFile) (xs ys : List Request) :
    stateAfter t init (xs ++ ys) = (steps t (stateAfter t init xs) ys).2 := by
  unfold stateAfter
  rw [steps_append]

theorem run_append (t : Target) (init : RegisterFile) (xs ys : List Request) :
    run t init (xs ++ ys) =
      ⟨(run t init xs).start, (run t init xs).answers ++ (steps t (stateAfter t init xs) ys).1,
        (steps t (stateAfter t init xs) ys).2.file⟩ := by
  show Transcript.mk _ (steps t ⟨.groups t.base, init⟩ (xs ++ ys)).1
    (steps t ⟨.groups t.base, init⟩ (xs ++ ys)).2.file = _
  rw [steps_append]
  rfl

theorem step_eq_error_iff {t : Target} {s : State} {request : Request} {cause : Refusal} :
    (step t s request).1 = .error cause ↔ request.resolve t.device s.held = .error cause := by
  cases hr : request.resolve t.device s.held with
  | error cause' =>
      rw [step_of_resolve_error hr]
      simp
  | ok a =>
      rw [step_of_resolve_ok hr]
      simp

/-- What holds at the start and is preserved by every action that is carried out holds in the
end. -/
theorem steps_induction {t : Target} {P : State → Prop} {requests : List Request}
    (preserved : ∀ s request a, request ∈ requests →
      request.resolve t.device s.held = .ok a → P s → P (a.step t s).2)
    {s : State} (start : P s) : P (steps t s requests).2 := by
  induction requests generalizing s with
  | nil => exact start
  | cons request rest ih =>
      show P (steps t (step t s request).2 rest).2
      apply ih
      · intro s' request' a hmem
        exact preserved s' request' a (List.mem_cons_of_mem _ hmem)
      · cases hr : request.resolve t.device s.held with
        | error cause =>
            rw [step_of_resolve_error hr]
            exact start
        | ok a =>
            rw [step_of_resolve_ok hr]
            exact preserved s request a List.mem_cons_self hr start

theorem actions_cons_of_error {d : Device} {held : Ownership} {request : Request}
    {cause : Refusal} (rest : List Request) (h : request.resolve d held = .error cause) :
    actions d held (request :: rest) = actions d held rest := by
  simp only [actions, h]

theorem actions_cons_of_ok {d : Device} {held : Ownership} {request : Request} {a : Action}
    (rest : List Request) (h : request.resolve d held = .ok a) :
    actions d held (request :: rest) = a :: actions d (a.heldAfter held) rest := by
  simp only [actions, h]

theorem exists_request_of_mem_actions {d : Device} {held : Ownership} {requests : List Request}
    {a : Action} (h : a ∈ actions d held requests) :
    ∃ request ∈ requests, ∃ held', request.resolve d held' = .ok a := by
  induction requests generalizing held with
  | nil => cases h
  | cons request rest ih =>
      cases hr : request.resolve d held with
      | error cause =>
          rw [actions_cons_of_error rest hr] at h
          obtain ⟨later, hmem, hlater⟩ := ih h
          exact ⟨later, List.mem_cons_of_mem _ hmem, hlater⟩
      | ok b =>
          rw [actions_cons_of_ok rest hr] at h
          rcases List.mem_cons.mp h with rfl | h
          · exact ⟨request, List.mem_cons_self, held, hr⟩
          · obtain ⟨later, hmem, hlater⟩ := ih h
            exact ⟨later, List.mem_cons_of_mem _ hmem, hlater⟩

theorem length_steps (t : Target) (s : State) (requests : List Request) :
    (steps t s requests).1.length = requests.length := by
  induction requests generalizing s with
  | nil => rfl
  | cons request rest ih => exact congrArg (· + 1) (ih _)

/-- An answer is given where the session stands after all requests before. -/
theorem answer_eq {t : Target} {s : State} {requests : List Request} {k : Nat} {answer : Answer}
    (h : (steps t s requests).1[k]? = some answer) :
    ∃ next, requests[k]? = some next ∧
      answer = (step t (steps t s (requests.take k)).2 next).1 := by
  induction requests generalizing s k with
  | nil => cases h
  | cons request rest ih =>
      cases k with
      | zero => exact ⟨request, rfl, (Option.some.inj h).symm⟩
      | succ k => exact ih h

theorem run_answer_eq {t : Target} {init : RegisterFile} {requests : List Request} {k : Nat}
    {answer : Answer} (h : (run t init requests).answers[k]? = some answer) :
    ∃ next, requests[k]? = some next ∧
      answer = (step t (stateAfter t init (requests.take k)) next).1 :=
  answer_eq h

/-- Every request is answered. -/
theorem answer_at {t : Target} {init : RegisterFile} {requests : List Request} {k : Nat}
    {request : Request} (h : requests[k]? = some request) :
    (run t init requests).answers[k]? =
      some (step t (stateAfter t init (requests.take k)) request).1 := by
  obtain ⟨inside, _⟩ := List.getElem?_eq_some_iff.mp h
  have length : (run t init requests).answers.length = requests.length :=
    length_steps t ⟨.groups t.base, init⟩ requests
  have answered := List.getElem?_eq_getElem (length.symm ▸ inside)
  obtain ⟨next, hnext, heq⟩ := run_answer_eq answered
  rw [h] at hnext
  cases hnext
  rw [answered, heq]

theorem stateAfter_take_succ {t : Target} {init : RegisterFile} {requests : List Request} {k : Nat}
    {request : Request} (h : requests[k]? = some request) :
    stateAfter t init (requests.take (k + 1)) =
      (step t (stateAfter t init (requests.take k)) request).2 := by
  rw [List.take_add_one, h, stateAfter_append]
  rfl

theorem steps_take (t : Target) (s : State) (requests : List Request) (k : Nat) :
    (steps t s (requests.take k)).1 = (steps t s requests).1.take k := by
  induction requests generalizing s k with
  | nil => simp [steps]
  | cons request rest ih =>
      cases k with
      | zero => rfl
      | succ k => simp [steps, ih]

/-- The registers of a session are made by the assignments of its actions. -/
theorem steps_file (t : Target) (s : State) (requests : List Request) :
    (steps t s requests).2.file =
      s.file.assignAll ((actions t.device s.held requests).flatMap Action.assignments) := by
  induction requests generalizing s with
  | nil => rfl
  | cons request rest ih =>
      show (steps t (step t s request).2 rest).2.file = _
      rw [ih]
      cases hr : request.resolve t.device s.held with
      | error cause => rw [step_of_resolve_error hr, actions_cons_of_error rest hr]
      | ok a =>
          rw [step_of_resolve_ok hr, actions_cons_of_ok rest hr, List.flatMap_cons,
            RegisterFile.assignAll_append, ← Action.perform_file t s a, ← Action.held_step t]
          rfl

end Session

/-! ## Where handles lead -/

theorem Handles.BoundTo.passedOn_eq {base : Word} {handles : Handles}
    (bound : handles.BoundTo base) : handles.passedOn = base := by
  cases handles <;> exact bound (.bus .isEnabled .ahb1)

theorem Handles.BoundTo.handlesAfter {t : Target} {handles : Handles}
    (bound : handles.BoundTo t.base) (a : Action) :
    (a.handlesAfter t handles).BoundTo t.base := by
  cases a with
  | constrain => exact fun _ => rfl
  | trade => exact fun _ => bound.passedOn_eq
  | share =>
      intro c
      cases c <;> exact bound.passedOn_eq
  | poke r v => exact bound
  | call c => exact bound

namespace Session

theorem boundTo_steps {t : Target} {s : State} (bound : s.handles.BoundTo t.base)
    (requests : List Request) : (steps t s requests).2.handles.BoundTo t.base :=
  steps_induction (P := fun s => s.handles.BoundTo t.base)
    (fun _ _ a _ _ bound => bound.handlesAfter a) bound

/-- **One block.** Constraining decides where the block begins. After any sequence of trading,
sharing and constraining again, all handles still lead there. -/
theorem boundTo_stateAfter (t : Target) (init : RegisterFile) (requests : List Request) :
    (stateAfter t init requests).handles.BoundTo t.base :=
  boundTo_steps (fun _ => rfl) requests

end Session

end ClockGating
