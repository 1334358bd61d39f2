import ClockGating.Proofs.AccessOrder
import ClockGating.Proofs.Naming

/-!
# Handles by groups — two ways to the same bits

A program that shares its groups has two ways to gate a peripheral: the handle of that peripheral,
and the handle of its group together with the mask that goes by the name of the peripheral. The ways
are described by different tables, of seats on the one hand and of named masks on the other.

- `HandleOp.byGroup` — the group operations that stand in for an operation of a handle.
- `Session.byGroups` — a session with all handle operations replaced that can be replaced.
- `modifications_eq_flatMap` — a handle modifies what those group operations modify, in the same
  order.

Main statement: `groups_stand_in_for_handles`. A session does not notice the replacement, except
that the groups leave out the critical sections.
-/

namespace ClockGating

/-! ## The replacement -/

/-- What to do with the groups of a peripheral instead of using its handle. There is nothing for a
question after the mode, which no single group can answer. -/
def HandleOp.byGroup (p : Peripheral) : HandleOp → List (Group × GroupOp)
  | enable => [(.bus p.seat.group, .gate .enableClock)]
  | disable => [(.bus p.seat.group, .gate .disableClock)]
  | reset => [(.bus p.seat.group, .gate .forceReset), (.bus p.seat.group, .gate .releaseReset)]
  | isEnabled => [(.bus p.seat.group, .gate .isEnabledClock)]
  | setLowPower mode =>
    let stopSleep : GateOp :=
      if mode = .off then .disableStopSleepClock else .enableStopSleepClock
    let autonomous : SwitchOp := if mode = .autonomous then .enable else .disable
    (.bus p.seat.group, .gate stopSleep) ::
      if p.autonomousBit?.isSome then [(.smartRun, .autonomous autonomous)] else []
  | lowPower => []

namespace Request

/-- The use of a handle that is replaced: any that is carried out while the groups are held, too,
unless it asks for the mode. -/
def replaced? (d : Device) (held : Ownership) : Request → Option (Peripheral × HandleOp)
  | handle (some name) (some op) =>
    if held = .both ∧ op ≠ .lowPower then (d.handleNamed? name).map fun p => (p, op) else none
  | _ => none

/-- The requests that stand in for a request: operations on groups, with the mask that has the name
of the peripheral, or just the request itself. -/
def byGroups (d : Device) (held : Ownership) (request : Request) : List Request :=
  match request.replaced? d held with
  | some (p, op) =>
    (op.byGroup p).map fun (g, o) => .group (some o) (some g.name) (some (.name p.name))
  | none => [request]

def heldAfter (d : Device) (held : Ownership) (request : Request) : Ownership :=
  match request.resolve d held with
  | .ok a => a.heldAfter held
  | .error _ => held

end Request

/-- The session with everything replaced that can be replaced. -/
def Session.byGroups (d : Device) (held : Ownership) : List Request → List Request
  | [] => []
  | request :: rest => request.byGroups d held ++ byGroups d (request.heldAfter d held) rest

/-! ## What is expected of it -/

/-- The outcome of a handle operation, in terms of the outcomes of what stands in for it. A change
is silent either way, and it is those changes in a critical section. A query is the same query. -/
def Outcome.MadeOf (critical : Bool) (outcome : Outcome) (parts : List Outcome) : Prop :=
  if critical then
    (∀ part ∈ parts, part.reply = .nothing) ∧
      outcome = ⟨.nothing, .enter :: (parts.flatMap Outcome.events ++ [.leave])⟩
  else
    parts = [outcome]

/-- The answer to a request, in terms of the answers to what stands in for it. -/
def Request.Mirrored (d : Device) (held : Ownership) (request : Request) (answer : Answer)
    (parts : List Answer) : Prop :=
  match request.replaced? d held with
  | some (p, op) => ∃ outcome outcomes, answer = .ok outcome ∧ parts = outcomes.map .ok ∧
      outcome.MadeOf (Call.handle p op).isCritical outcomes
  | none => parts = [answer]

/-! ## Calls -/

namespace Modification

theorem sequence_append (xs ys : List Modification) :
    sequence (xs ++ ys) = (sequence xs).bind fun _ => sequence ys := by
  induction xs with
  | nil => rfl
  | cons m xs ih =>
      show (m.routine.bind fun _ => sequence (xs ++ ys)) = _
      rw [ih]
      exact (Routine.bind_assoc _ _ _).symm

theorem run_sequence_append (base : Word) (xs ys : List Modification) (file : RegisterFile) :
    let first := (sequence xs).run base file
    let second := (sequence ys).run base first.file
    ((sequence (xs ++ ys)).run base file).file = second.file ∧
      ((sequence (xs ++ ys)).run base file).events = first.events ++ second.events := by
  rw [sequence_append, Routine.run_bind]
  exact ⟨rfl, rfl⟩

end Modification

/-- The calls of the group operations that stand in for an operation of a handle. -/
def HandleOp.groupCalls (p : Peripheral) : HandleOp → List Call
  | enable => [.gate p.seat.group .enableClock p.clockMask]
  | disable => [.gate p.seat.group .disableClock p.clockMask]
  | reset =>
    [.gate p.seat.group .forceReset p.clockMask, .gate p.seat.group .releaseReset p.clockMask]
  | isEnabled => [.gate p.seat.group .isEnabledClock p.clockMask]
  | setLowPower mode =>
    let stopSleep : GateOp :=
      if mode = .off then .disableStopSleepClock else .enableStopSleepClock
    let autonomous : SwitchOp := if mode = .autonomous then .enable else .disable
    .gate p.seat.group stopSleep p.clockMask ::
      p.autonomousBit?.toList.map fun i => .autonomous autonomous (Mask.ofBit i)
  | lowPower => []

namespace Call

theorem run_file_eq_sequence (base : Word) (c : Call) (file : RegisterFile) :
    (c.routine.run base file).file =
      ((Modification.sequence c.modifications).run base file).file := by
  rw [run_file, Modification.run_sequence_file, assignAll_modifications]

theorem run_result_of_mutating {c : Call} (h : c.isQuery = false) (base : Word)
    (file : RegisterFile) : (c.routine.run base file).result = .nothing := by
  rw [routine_of_mutating h, Routine.run_silent]

/-- The call changes something, outside critical sections and without a record. -/
structure Bare (c : Call) : Prop where
  mutating : c.isQuery = false
  uncritical : c.isCritical = false
  unrecorded : c.recorded = []

theorem Bare.run_events {c : Call} (h : c.Bare) (base : Word) (file : RegisterFile) :
    (c.routine.run base file).events =
      ((Modification.sequence c.modifications).run base file).events := by
  rw [run_events_of_mutating h.mutating, h.uncritical, h.unrecorded, List.append_nil]
  rfl

/-- **One table from the other.** A handle modifies what the groups modify in its stead, in the same
order. -/
theorem modifications_eq_flatMap (p : Peripheral) (op : HandleOp) :
    (handle p op).modifications = (op.groupCalls p).flatMap modifications := by
  cases op with
  | enable => rfl
  | disable => rfl
  | reset => rfl
  | isEnabled => rfl
  | lowPower => rfl
  | setLowPower mode =>
      show mode.modifications p = _
      unfold LowPowerMode.modifications HandleOp.groupCalls
      cases p.autonomousBit? <;> cases mode <;> rfl

theorem bare_of_mem_groupCalls {p : Peripheral} {op : HandleOp} (change : op ≠ .isEnabled) :
    ∀ c ∈ op.groupCalls p, c.Bare := by
  cases op with
  | enable => exact List.forall_mem_singleton.mpr ⟨rfl, rfl, rfl⟩
  | disable => exact List.forall_mem_singleton.mpr ⟨rfl, rfl, rfl⟩
  | reset =>
      exact List.forall_mem_cons.mpr
        ⟨⟨rfl, rfl, rfl⟩, List.forall_mem_singleton.mpr ⟨rfl, rfl, rfl⟩⟩
  | isEnabled => exact absurd rfl change
  | lowPower => exact List.forall_mem_nil _
  | setLowPower mode =>
      refine List.forall_mem_cons.mpr ⟨by cases mode <;> exact ⟨rfl, rfl, rfl⟩, fun c hc => ?_⟩
      obtain ⟨i, _, rfl⟩ := List.mem_map.mp hc
      cases mode <;> exact ⟨rfl, rfl, rfl⟩

end Call

/-! ## Requests -/

namespace Request

/-- Only the use of an existing handle is replaced, and only where the groups are held, too. -/
theorem eq_of_replaced? {d : Device} {held : Ownership} {request : Request} {p : Peripheral}
    {op : HandleOp} (h : request.replaced? d held = some (p, op)) :
    ∃ name, request = handle (some name) (some op) ∧ held = .both ∧ op ≠ .lowPower ∧
      d.handleNamed? name = some p := by
  unfold replaced? at h
  split at h
  · obtain ⟨⟨both, change⟩, hmap⟩ := Option.ite_none_right_eq_some.mp h
    obtain ⟨q, hq, heq⟩ := Option.map_eq_some_iff.mp hmap
    cases heq
    exact ⟨_, rfl, both, change, hq⟩
  · cases h

/-- What stands in for the use of a handle resolves to the calls of the groups. -/
theorem forall₂_resolve_byGroup {d : Device} {held : Ownership} {p : Peripheral}
    (groups : held.hasGroups = true) (carried : d.carries p = true) (op : HandleOp) :
    List.Forall₂ (fun request c => request.resolve d held = .ok (.call c))
      ((op.byGroup p).map fun (g, o) => group (some o) (some g.name) (some (.name p.name)))
      (op.groupCalls p) := by
  have gate (o : GateOp) := resolve_gate groups carried o
  cases op with
  | enable => exact .cons (gate _) .nil
  | disable => exact .cons (gate _) .nil
  | reset => exact .cons (gate _) (.cons (gate _) .nil)
  | isEnabled => exact .cons (gate _) .nil
  | lowPower => exact .nil
  | setLowPower mode =>
      refine .cons (gate _) ?_
      cases hi : p.autonomousBit? with
      | none => exact .nil
      | some i => exact .cons (resolve_autonomous groups carried hi _) .nil

end Request

/-! ## Steps -/

namespace Session

variable {t : Target}

theorem step_held (s : State) (request : Request) :
    (step t s request).2.held = request.heldAfter t.device s.held := by
  unfold Request.heldAfter
  cases hr : request.resolve t.device s.held with
  | error cause => rw [step_of_resolve_error hr]
  | ok a =>
      rw [step_of_resolve_ok hr, Action.held_step]

/-- Calls that change something, asked for one after another, are answered with nothing and leave
the registers and the trace of all their modifications. -/
theorem steps_of_bare {handles : Handles} (bound : handles.BoundTo t.base)
    {requests : List Request} {calls : List Call}
    (resolved : List.Forall₂
      (fun request c => request.resolve t.device handles.ownership = .ok (.call c))
      requests calls) (bare : ∀ c ∈ calls, c.Bare) (file : RegisterFile) :
    ∃ outcomes : List Outcome,
      let changes := (Modification.sequence (calls.flatMap Call.modifications)).run t.base file
      steps t ⟨handles, file⟩ requests = (outcomes.map .ok, ⟨handles, changes.file⟩) ∧
        (∀ outcome ∈ outcomes, outcome.reply = .nothing) ∧
        outcomes.flatMap Outcome.events = changes.events := by
  induction resolved generalizing file with
  | nil => exact ⟨[], rfl, List.forall_mem_nil _, rfl⟩
  | @cons request c requests calls hr _ ih =>
      obtain ⟨first, later⟩ := List.forall_mem_cons.mp bare
      let run := c.routine.run t.base file
      obtain ⟨outcomes, hsteps, silent, events⟩ := ih later run.file
      obtain ⟨joinedFile, joinedEvents⟩ := Modification.run_sequence_append t.base c.modifications
        (calls.flatMap Call.modifications) file
      rw [← c.run_file_eq_sequence t.base file] at joinedFile joinedEvents
      refine ⟨⟨run.result, run.events⟩ :: outcomes, ?_, ?_, ?_⟩
      · have answered : step t ⟨handles, file⟩ request =
            (.ok ⟨run.result, run.events⟩, ⟨handles, run.file⟩) := by
          rw [step_of_resolve_ok hr, Action.step_call bound]
        simp only [steps, answered]
        rw [hsteps, List.flatMap_cons, joinedFile]
        rfl
      · exact List.forall_mem_cons.mpr ⟨Call.run_result_of_mutating first.mutating _ _, silent⟩
      · rw [List.flatMap_cons, List.flatMap_cons, joinedEvents, events, ← first.run_events]

/-- A query of a handle is a query of the group. -/
theorem steps_byGroup_isEnabled {s : State} (bound : s.handles.BoundTo t.base) {p : Peripheral}
    {requests : List Request}
    (resolved : List.Forall₂ (fun request c => request.resolve t.device s.held = .ok (.call c))
      requests (HandleOp.isEnabled.groupCalls p)) :
    steps t s requests = ([.ok ((Action.call (.handle p .isEnabled)).step t s).1],
      ((Action.call (.handle p .isEnabled)).step t s).2) := by
  cases resolved with
  | cons hr rest =>
      cases rest
      show ([(step t s _).1], (step t s _).2) = _
      rw [step_of_resolve_ok hr, Action.step_call bound, Action.step_call bound]
      rfl

/-- A change by a handle is the changes by the groups in a critical section. -/
theorem steps_byGroup_of_mutating {s : State} (bound : s.handles.BoundTo t.base)
    {p : Peripheral} {op : HandleOp} {requests : List Request}
    (h : (Call.handle p op).isQuery = false)
    (resolved : List.Forall₂ (fun request c => request.resolve t.device s.held = .ok (.call c))
      requests (op.groupCalls p)) :
    ∃ outcomes : List Outcome,
      steps t s requests = (outcomes.map .ok, ((Action.call (.handle p op)).step t s).2) ∧
        ((Action.call (.handle p op)).step t s).1.MadeOf (Call.handle p op).isCritical
          outcomes := by
  have noQuery : op ≠ .isEnabled := by
    rintro rfl
    cases h
  have critical : (Call.handle p op).isCritical = true := by
    rw [Call.isCritical, h]
    rfl
  obtain ⟨outcomes, hsteps, silent, events⟩ :=
    steps_of_bare bound resolved (Call.bare_of_mem_groupCalls noQuery) s.file
  rw [← Call.modifications_eq_flatMap, ← Call.run_file_eq_sequence] at hsteps
  rw [← Call.modifications_eq_flatMap] at events
  rw [Action.step_call bound]
  refine ⟨outcomes, hsteps, ?_⟩
  rw [Outcome.MadeOf, if_pos critical]
  refine ⟨silent, ?_⟩
  rw [Call.run_result_of_mutating h, Call.run_events_of_mutating h, if_pos critical, events,
    Call.recorded_of_isCritical critical, List.append_nil]

/-- **One request.** What stands in for it leads to the same state and is answered alike. -/
theorem steps_byGroups_one {s : State} (bound : s.handles.BoundTo t.base) (request : Request) :
    (steps t s (request.byGroups t.device s.held)).2 = (step t s request).2 ∧
      request.Mirrored t.device s.held (step t s request).1
        (steps t s (request.byGroups t.device s.held)).1 := by
  unfold Request.byGroups Request.Mirrored
  cases replaced : request.replaced? t.device s.held with
  | none => exact ⟨rfl, rfl⟩
  | some pair =>
      obtain ⟨p, op⟩ := pair
      obtain ⟨name, rfl, both, noMode, hp⟩ := Request.eq_of_replaced? replaced
      have groups : s.held.hasGroups = true := by rw [both]; rfl
      have peripherals : s.held.hasPeripherals = true := by rw [both]; rfl
      have carried := (Device.drivable_iff.mp (Device.drivable_of_handleNamed? hp)).1
      have resolved := Request.forall₂_resolve_byGroup groups carried op
      rw [step_of_resolve_ok (Request.resolve_handle peripherals hp op)]
      cases h : (Call.handle p op).isQuery with
      | false =>
          obtain ⟨outcomes, hsteps, madeOf⟩ := steps_byGroup_of_mutating bound h resolved
          show (steps t s _).2 = _ ∧ ∃ outcome outcomes', _ ∧ (steps t s _).1 = _ ∧ _
          rw [hsteps]
          exact ⟨rfl, _, outcomes, rfl, rfl, madeOf⟩
      | true =>
          cases op with
          | isEnabled =>
              show (steps t s _).2 = _ ∧ ∃ outcome outcomes', _ ∧ (steps t s _).1 = _ ∧ _
              rw [steps_byGroup_isEnabled bound resolved]
              exact ⟨rfl, _, [_], rfl, rfl, rfl⟩
          | lowPower => exact absurd rfl noMode
          | _ => cases h

/-- **Whole sessions.** -/
theorem steps_byGroups {s : State} (bound : s.handles.BoundTo t.base) (requests : List Request) :
    (steps t s (byGroups t.device s.held requests)).2 = (steps t s requests).2 := by
  induction requests generalizing s with
  | nil => rfl
  | cons request rest ih =>
      show (steps t s (request.byGroups t.device s.held ++ _)).2 = _
      rw [steps_append, (steps_byGroups_one bound request).1, ← step_held]
      exact ih (boundTo_steps bound [request])

theorem byGroups_append (s : State) (xs ys : List Request) :
    byGroups t.device s.held (xs ++ ys) =
      byGroups t.device s.held xs ++ byGroups t.device (steps t s xs).2.held ys := by
  induction xs generalizing s with
  | nil => rfl
  | cons request rest ih =>
      show request.byGroups t.device s.held ++ byGroups t.device _ (rest ++ ys) =
        request.byGroups t.device s.held ++ byGroups t.device _ rest ++ _
      rw [← step_held, ih, List.append_assoc]
      rfl

/-- A program that never trades its groups holds them all the time. -/
theorem groups_of_never_traded {init : RegisterFile} {requests : List Request}
    (never : .trade ∉ requests) : (stateAfter t init requests).held ≠ .peripherals := by
  have preserved (s : State) (request : Request) (a : Action) (hmem : request ∈ requests)
      (hr : request.resolve t.device s.held = .ok a) (h : s.held ≠ .peripherals) :
      (a.step t s).2.held ≠ .peripherals := by
    cases Request.resolves_of_resolve hr with
    | trade _ => exact absurd hmem never
    | constrain => exact nofun
    | share _ => exact nofun
    | poke _ => exact h
    | handle _ _ => exact h
    | bus _ _ => exact h
    | gate _ _ _ => exact h
    | autonomous _ _ _ => exact h
  have start : (⟨.groups t.base, init⟩ : State).held ≠ .peripherals := nofun
  exact steps_induction preserved start

/-- A use of a handle that is carried out while the groups are held is replaced. -/
theorem replaced?_of_resolve {s : State} {request : Request} {p : Peripheral} {op : HandleOp}
    (groups : s.held ≠ .peripherals)
    (hr : request.resolve t.device s.held = .ok (.call (.handle p op))) (change : op ≠ .lowPower) :
    request.replaced? t.device s.held = some (p, op) := by
  cases Request.resolves_of_resolve hr with
  | handle peripherals hp =>
      obtain ⟨name, rfl, hname⟩ := Option.bind_eq_some_iff.mp hp
      have both : s.held = .both := by
        cases held : s.held with
        | both => rfl
        | peripherals => exact absurd held groups
        | groups =>
            rw [held] at peripherals
            cases peripherals
      show (if s.held = .both ∧ op ≠ .lowPower then _ else none) = _
      rw [if_pos ⟨both, change⟩, hname]
      rfl

/-! ## Sessions -/

/-- The session and the session by groups come to the same. -/
structure SameByGroups (t : Target) (init : RegisterFile) (requests : List Request) : Prop where
  start : (run t init (byGroups t.device .groups requests)).start = (run t init requests).start
  /-- After each request, and after all that stands in for it, they stand at the same point. -/
  states : ∀ k, stateAfter t init (byGroups t.device .groups (requests.take k)) =
    stateAfter t init (requests.take k)
  /-- Each request is answered like all that stands in for it. -/
  answers : ∀ k answer, (run t init requests).answers[k]? = some answer →
    ∃ request parts, requests[k]? = some request ∧
      (run t init (byGroups t.device .groups (requests.take (k + 1)))).answers =
        (run t init (byGroups t.device .groups (requests.take k))).answers ++ parts ∧
      request.Mirrored t.device (stateAfter t init (requests.take k)).held answer parts
  /-- Unless the groups are given up, every use of a handle is replaced that can be replaced. -/
  complete : .trade ∉ requests → ∀ (k : Nat) (request : Request) (p : Peripheral) (op : HandleOp),
    requests[k]? = some request →
    request.resolve t.device (stateAfter t init (requests.take k)).held =
      .ok (.call (.handle p op)) → op ≠ .lowPower →
    request.replaced? t.device (stateAfter t init (requests.take k)).held = some (p, op)

end Session

/-- **Groups stand in for handles.** In a program that shares its groups, operations of the groups
on the mask with the peripheral's name may stand in for the operations of its handle. The registers
are the same at every point, all other requests are answered as before, the answers to queries are
the same, and what the handle does in a critical section the groups do without one. -/
theorem groups_stand_in_for_handles (t : Target) (init : RegisterFile)
    (requests : List Request) : Session.SameByGroups t init requests := by
  let start : State := ⟨.groups t.base, init⟩
  have bound : start.handles.BoundTo t.base := fun _ => rfl
  constructor
  case start => rfl
  case states =>
    intro k
    exact Session.steps_byGroups bound (requests.take k)
  case answers =>
    intro k answer hanswer
    obtain ⟨request, hrequest, rfl⟩ := Session.run_answer_eq hanswer
    obtain ⟨_, mirrored⟩ :=
      Session.steps_byGroups_one (Session.boundTo_stateAfter t init (requests.take k)) request
    refine ⟨request, _, hrequest, ?_, mirrored⟩
    have longer : requests.take (k + 1) = requests.take k ++ [request] := by
      rw [List.take_add_one, hrequest]
      rfl
    show (Session.steps t start (Session.byGroups t.device start.held (requests.take (k + 1)))).1 =
      (Session.steps t start (Session.byGroups t.device start.held (requests.take k))).1 ++ _
    rw [longer, Session.byGroups_append, Session.steps_append, Session.steps_byGroups bound]
    show _ ++ (Session.steps t _ (_ ++ [])).1 = _
    rw [List.append_nil]
    rfl
  case complete =>
    intro never k request p op _ hr change
    refine Session.replaced?_of_resolve (Session.groups_of_never_traded fun h => ?_) hr change
    exact never (List.mem_of_mem_take h)

example : Session.byGroups .u575 .groups
    [.share, .handle (some "ADC4") (some (.setLowPower .off)), .handle (some "JPEG") (some .reset),
      .handle (some "CRC") (some .lowPower)] =
    [.share, .group (some (.gate .disableStopSleepClock)) (some "AHB3") (some (.name "ADC4")),
      .group (some (.autonomous .disable)) (some "SRDAMR") (some (.name "ADC4")),
      .handle (some "JPEG") (some .reset), .handle (some "CRC") (some .lowPower)] := by
  decide +kernel

end ClockGating
