import ClockGating.Proofs.AccessOrder

/-!
# The secure world — one block, two addresses

A program for the secure world works on the same registers by other addresses. It must not make any
other difference for which of the two worlds a program is built, and in particular no access may use
the address of the other world.

- `Routine.run_displaced` — a run of any routine with the block at another place.
- `Event.InBlock` — all accesses are accesses to the block.
- `Event.inSecureWorld` — how the secure world sees what happens in the other one.
- `State.displaced` — the same point of a session, with handles for the other alias.
- `Session.steps_secure` — sessions, step by step.

Main statement: `secure_world_displaced`.
-/

namespace ClockGating

/-! ## Routines at another place -/

/-- The same run with its events seen in another way. -/
def Routine.Execution.seenAs {α : Type} (view : Event → Event) (x : Execution α) : Execution α :=
  { x with events := x.events.map view }

/-- The same event with the block moved by an offset. -/
def Event.displaced (offset : Word) : Event → Event
  | read a v => read (a + offset) v
  | write a v => write (a + offset) v
  | enter => enter
  | leave => leave
  | log level text => log level text

theorem Register.address_add (base offset : Word) (r : Register) :
    r.address (base + offset) = r.address base + offset := by
  unfold address
  rw [BitVec.add_assoc, BitVec.add_comm offset, ← BitVec.add_assoc]

/-- **Moving the block.** A routine learns nothing about where the block is. -/
theorem Routine.run_displaced {α : Type} (base offset : Word) (x : Routine α)
    (file : RegisterFile) :
    x.run (base + offset) file = (x.run base file).seenAs (Event.displaced offset) := by
  induction x generalizing file with
  | done a => rfl
  | read r next ih => simp [run, ih, Register.address_add, Event.displaced, Execution.seenAs]
  | write r v next ih => simp [run, ih, Register.address_add, Event.displaced, Execution.seenAs]
  | enter next ih => simp [run, ih, Event.displaced, Execution.seenAs]
  | leave next ih => simp [run, ih, Event.displaced, Execution.seenAs]
  | log level text next ih => simp [run, ih, Event.displaced, Execution.seenAs]

/-- If the event is an access, then to a register of the block that begins at `base`. -/
def Event.InBlock (base : Word) : Event → Prop
  | read a _ | write a _ => ∃ r : Register, a = base + r.offset
  | enter | leave | log _ _ => True

theorem Routine.inBlock_run {α : Type} (base : Word) (x : Routine α) (file : RegisterFile) :
    ∀ e ∈ (x.run base file).events, e.InBlock base := by
  induction x generalizing file with
  | done a => exact List.forall_mem_nil _
  | read r next ih => exact List.forall_mem_cons.mpr ⟨⟨r, rfl⟩, ih _ file⟩
  | write r v next ih => exact List.forall_mem_cons.mpr ⟨⟨r, rfl⟩, ih _⟩
  | enter next ih => exact List.forall_mem_cons.mpr ⟨trivial, ih file⟩
  | leave next ih => exact List.forall_mem_cons.mpr ⟨trivial, ih file⟩
  | log level text next ih => exact List.forall_mem_cons.mpr ⟨trivial, ih file⟩

/-! ## The two worlds -/

/-- From the one alias of the block to the other. -/
def secureOffset : Word := 0x10000000

theorem secureBase_eq : secureBase = nonsecureBase + secureOffset := by decide

/-- What the secure world sees instead of an event: an access by the other address, and the other
address in the record of constraining the block. -/
def Event.inSecureWorld (d : Device) (e : Event) : Event :=
  if e = .log .debug ("RCC constrained at 0x46020c00 (" ++ d.partNumber ++ ")") then
    .log .debug ("RCC constrained at 0x56020c00 (" ++ d.partNumber ++ ")")
  else
    e.displaced secureOffset

def Outcome.inSecureWorld (d : Device) (outcome : Outcome) : Outcome :=
  { outcome with events := outcome.events.map (Event.inSecureWorld d) }

/-- The records of calls are of another level than that of constraining the block. -/
theorem Call.level_of_mem_events {c : Call} {base : Word} {file : RegisterFile} {level : LogLevel}
    {text : String} (h : .log level text ∈ (c.routine.run base file).events) : level = .trace := by
  obtain ⟨body, hevents, silent⟩ := (c.inOrder_run base file).record
  rw [hevents] at h
  rcases List.mem_append.mp h with h | h
  · have unlogged := silent _ h
    cases unlogged
  · unfold recorded at h
    split at h
    · cases List.mem_singleton.mp h
      rfl
    · cases List.mem_singleton.mp h
      rfl
    · cases h

theorem Call.run_secure (d : Device) (c : Call) (base : Word) (file : RegisterFile) :
    c.routine.run (base + secureOffset) file =
      (c.routine.run base file).seenAs (Event.inSecureWorld d) := by
  have same : ∀ e ∈ (c.routine.run base file).events,
      e.inSecureWorld d = e.displaced secureOffset := by
    intro e he
    refine if_neg ?_
    rintro rfl
    cases level_of_mem_events he
  rw [Routine.run_displaced]
  exact congrArg (Routine.Execution.mk _ _) (List.map_congr_left same).symm

theorem Target.run_constrain_secure (d : Device) (file : RegisterFile) :
    (constrain ⟨d, true⟩).run secureBase file =
      ((constrain ⟨d, false⟩).run nonsecureBase file).seenAs (Event.inSecureWorld d) := by
  have nonsecure : "RCC constrained at 0x" ++ Word.hex nonsecureBase ++ " (" =
      "RCC constrained at 0x46020c00 (" := by decide +kernel
  have secure : "RCC constrained at 0x" ++ Word.hex secureBase ++ " (" =
      "RCC constrained at 0x56020c00 (" := by decide +kernel
  show (⟨(), file, [.log .debug ("RCC constrained at 0x" ++ Word.hex secureBase ++ " (" ++
      d.partNumber ++ ")")]⟩ : Routine.Execution Unit) =
    ⟨(), file, [Event.inSecureWorld d (.log .debug ("RCC constrained at 0x" ++
      Word.hex nonsecureBase ++ " (" ++ d.partNumber ++ ")"))]⟩
  rw [nonsecure, secure, Event.inSecureWorld, if_pos rfl]

/-! ## Sessions -/

/-- The same handles, made for the block at another place. -/
def Handles.displaced (offset : Word) : Handles → Handles
  | groups b => groups (b + offset)
  | both b b' => both (b + offset) (b' + offset)
  | peripherals b => peripherals (b + offset)

theorem Handles.base_displaced (offset : Word) (handles : Handles) (c : Call) :
    (handles.displaced offset).base c = handles.base c + offset := by
  cases handles with
  | groups b => rfl
  | both b b' => cases c <;> rfl
  | peripherals b => rfl

/-- The same point of a session with the block at another place. -/
def State.displaced (offset : Word) (s : State) : State := ⟨s.handles.displaced offset, s.file⟩

theorem State.held_displaced (offset : Word) (s : State) : (s.displaced offset).held = s.held := by
  obtain ⟨handles, file⟩ := s
  cases handles <;> rfl

theorem Action.perform_secure (d : Device) (s : State) (a : Action) :
    a.perform ⟨d, true⟩ (s.displaced secureOffset) =
      (a.perform ⟨d, false⟩ s).seenAs (Event.inSecureWorld d) := by
  cases a with
  | poke r v => rfl
  | trade => rfl
  | share => rfl
  | call c =>
    show c.routine.run ((s.handles.displaced secureOffset).base c) s.file = _
    rw [Handles.base_displaced]
    exact c.run_secure d (s.handles.base c) s.file
  | constrain =>
    show (Target.constrain ⟨d, true⟩).silent.run secureBase s.file =
      ((Target.constrain ⟨d, false⟩).silent.run nonsecureBase s.file).seenAs _
    rw [Routine.run_silent, Routine.run_silent, Target.run_constrain_secure]
    rfl

/-- What handles are told by others moves with those, and what they are told by the program moves
with the program. -/
theorem Action.handlesAfter_secure (d : Device) (handles : Handles) (a : Action) :
    a.handlesAfter ⟨d, true⟩ (handles.displaced secureOffset) =
      (a.handlesAfter ⟨d, false⟩ handles).displaced secureOffset := by
  cases a with
  | constrain => exact congrArg Handles.groups secureBase_eq
  | poke r v => rfl
  | call c => rfl
  | trade => cases handles <;> rfl
  | share => cases handles <;> rfl

namespace Session

variable {d : Device}

theorem step_secure (s : State) (request : Request) :
    step ⟨d, true⟩ (s.displaced secureOffset) request =
      ((step ⟨d, false⟩ s request).1.map (Outcome.inSecureWorld d),
        (step ⟨d, false⟩ s request).2.displaced secureOffset) := by
  have held := s.held_displaced secureOffset
  cases hr : request.resolve d s.held with
  | error cause =>
    have secure : step ⟨d, true⟩ (s.displaced secureOffset) request = _ :=
      step_of_resolve_error (held.symm ▸ hr)
    have nonsecure : step ⟨d, false⟩ s request = _ := step_of_resolve_error hr
    rw [secure, nonsecure]
    rfl
  | ok a =>
    have secure : step ⟨d, true⟩ (s.displaced secureOffset) request = _ :=
      step_of_resolve_ok (held.symm ▸ hr)
    have nonsecure : step ⟨d, false⟩ s request = _ := step_of_resolve_ok hr
    rw [secure, nonsecure]
    unfold Action.step
    rw [Action.perform_secure, State.displaced, Action.handlesAfter_secure]
    rfl

theorem steps_secure (s : State) (requests : List Request) :
    steps ⟨d, true⟩ (s.displaced secureOffset) requests =
      ((steps ⟨d, false⟩ s requests).1.map (Except.map (Outcome.inSecureWorld d)),
        (steps ⟨d, false⟩ s requests).2.displaced secureOffset) := by
  induction requests generalizing s with
  | nil => rfl
  | cons request rest ih => simp [steps, step_secure, ih]

theorem inBlock_step {t : Target} {s : State} (bound : s.handles.BoundTo t.base)
    (request : Request) : ∀ e ∈ eventsOf (step t s request).1, e.InBlock t.base := by
  cases hr : request.resolve t.device s.held with
  | error cause =>
    rw [step_of_resolve_error hr]
    exact List.forall_mem_nil _
  | ok a =>
    rw [step_of_resolve_ok hr]
    cases a with
    | poke r v => exact List.forall_mem_nil _
    | trade => exact List.forall_mem_nil _
    | share => exact List.forall_mem_nil _
    | constrain => exact Routine.inBlock_run t.base t.constrain.silent s.file
    | call c =>
      show ∀ e ∈ ((Action.call c).perform t s).events, _
      rw [Action.perform_call bound]
      exact Routine.inBlock_run t.base c.routine s.file

theorem inBlock_run (t : Target) (init : RegisterFile) (requests : List Request) :
    ∀ e ∈ (run t init requests).events, e.InBlock t.base := by
  refine List.forall_mem_append.mpr ⟨Routine.inBlock_run t.base t.constrain init, ?_⟩
  intro e he
  obtain ⟨answer, hmem, he⟩ := List.mem_flatMap.mp he
  obtain ⟨k, hk⟩ := List.mem_iff_getElem?.mp hmem
  obtain ⟨next, _, rfl⟩ := run_answer_eq hk
  exact inBlock_step (boundTo_stateAfter t init (requests.take k)) next e he

/-- The session in the secure world is the session in the other world with all addresses moved. -/
structure OnlyDisplaced (d : Device) (init : RegisterFile) (requests : List Request) : Prop where
  start : (run ⟨d, true⟩ init requests).start =
    (run ⟨d, false⟩ init requests).start.map (Event.inSecureWorld d)
  answers : (run ⟨d, true⟩ init requests).answers =
    (run ⟨d, false⟩ init requests).answers.map (Except.map (Outcome.inSecureWorld d))
  file : (run ⟨d, true⟩ init requests).file = (run ⟨d, false⟩ init requests).file
  /-- At every point, whatever has been traded or shared or made anew, the handles of either world
  carry its own base. -/
  handles : ∀ k, (stateAfter ⟨d, true⟩ init (requests.take k)).handles.BoundTo 0x56020c00 ∧
    (stateAfter ⟨d, false⟩ init (requests.take k)).handles.BoundTo 0x46020c00
  /-- In either world all accesses are to the block, and by the addresses of that world. -/
  accesses : (∀ e ∈ (run ⟨d, true⟩ init requests).events, e.InBlock 0x56020c00) ∧
    ∀ e ∈ (run ⟨d, false⟩ init requests).events, e.InBlock 0x46020c00

end Session

/-- **The secure world is displaced, and nothing else.** -/
theorem secure_world_displaced (d : Device) (init : RegisterFile) (requests : List Request) :
    Session.OnlyDisplaced d init requests := by
  have start : (Target.constrain ⟨d, true⟩).run secureBase init =
      ((Target.constrain ⟨d, false⟩).run nonsecureBase init).seenAs (Event.inSecureWorld d) :=
    Target.run_constrain_secure d init
  have steps := Session.steps_secure (d := d) ⟨.groups nonsecureBase, init⟩ requests
  constructor
  case start => exact congrArg Routine.Execution.events start
  case answers => exact congrArg Prod.fst steps
  case file => exact congrArg (fun x => x.2.file) steps
  case handles =>
    exact fun k => ⟨Session.boundTo_stateAfter ⟨d, true⟩ init _,
      Session.boundTo_stateAfter ⟨d, false⟩ init _⟩
  case accesses =>
    exact ⟨Session.inBlock_run ⟨d, true⟩ init requests,
      Session.inBlock_run ⟨d, false⟩ init requests⟩

/-- The record names the alias, and the access is to the clock word of AHB3 in the alias. -/
example :
    let requests := [Request.constrain, .share, .handle (some "DAC1") (some .isEnabled)]
    (Session.run ⟨.u575, true⟩ (.filled 0) requests).events =
      [.log .debug "RCC constrained at 0x56020c00 (STM32U575)",
        .log .debug "RCC constrained at 0x56020c00 (STM32U575)", .read 0x56020c94 0] := by
  decide +kernel

end ClockGating
