import ClockGating.Proofs.LowPower
import ClockGating.Replay

/-!
# Mode changes — what a peripheral passes through

A low-power mode that takes two bits cannot be changed in one write, because the bits are in two
registers. Between the two writes the registers stand for some mode as well, and a part that goes to
sleep at this moment treats the peripheral accordingly.

One of the four combinations of the two bits is of no use: a peripheral that may request its clock
in Stop modes and does not keep it. Handles never leave it behind. Where it does not occur, a change
of mode passes through nothing that is neither old nor new, with one exception.

- `Peripheral.ConsistentIn` — the registers do not hold that combination.
- `Session.consistent_steps` — use of handles keeps the registers consistent.
- `Peripheral.modesDuring_setLowPower` — the modes after the first and after the second write.

Main statement: `mode_changes_smooth`.
-/

namespace ClockGating

/-! ## The two bits -/

/-- The mode that two bits stand for. -/
def LowPowerMode.ofBits (keeps requests : Bool) : LowPowerMode :=
  if keeps then if requests then .autonomous else .enabled else .off

namespace Peripheral

/-- The Sleep/Stop bit of a peripheral. -/
def keepsClock (file : RegisterFile) (p : Peripheral) : Bool :=
  file.bits (.gate .stopSleep p.seat.group) p.seat.bit

/-- The autonomous mode bit of a peripheral. Outside the SmartRun domain there is none that could be
set. -/
def requestsClock (file : RegisterFile) (p : Peripheral) : Bool :=
  p.autonomousBit?.any (file.bits .autonomous)

theorem modeIn_eq_ofBits (file : RegisterFile) (p : Peripheral) :
    p.modeIn file = .ofBits (p.keepsClock file) (p.requestsClock file) :=
  mode_bits file p

section Bits

variable {p : Peripheral} {f g : RegisterFile}

theorem keepsClock_eq_of_agreeOn (h : AgreeOn p.modeBits f g) : p.keepsClock f = p.keepsClock g :=
  h _ _ (Or.inl rfl)

theorem requestsClock_eq_of_agreeOn (h : AgreeOn p.modeBits f g) :
    p.requestsClock f = p.requestsClock g := by
  unfold requestsClock
  cases hp : p.autonomousBit? with
  | none => rfl
  | some i => exact h _ _ (Or.inr ⟨i, hp, rfl⟩)

theorem keepsClock_assignAll (p : Peripheral) (mode : LowPowerMode) (file : RegisterFile) :
    p.keepsClock (file.assignAll (mode.assignments p)) = decide (mode ≠ .off) :=
  p.getLsbD_stopSleep_of_mode mode file

theorem requestsClock_assignAll (p : Peripheral) (mode : LowPowerMode) (file : RegisterFile) :
    p.requestsClock (file.assignAll (mode.assignments p)) =
      (p.autonomousBit?.isSome && decide (mode = .autonomous)) := by
  unfold requestsClock
  cases hp : p.autonomousBit? with
  | none => rfl
  | some i => exact getLsbD_autonomous_of_mode hp mode file

end Bits

/-! ## Consistent registers -/

/-- If the peripheral may request its clock in Stop modes, then it also keeps its clock there. -/
def ConsistentIn (file : RegisterFile) (p : Peripheral) : Prop :=
  p.requestsClock file = true → p.keepsClock file = true

instance (file : RegisterFile) (p : Peripheral) : Decidable (p.ConsistentIn file) := by
  unfold ConsistentIn
  infer_instance

theorem ConsistentIn.of_agreeOn {p : Peripheral} {f g : RegisterFile} (h : p.ConsistentIn g)
    (agree : AgreeOn p.modeBits f g) : p.ConsistentIn f := by
  unfold ConsistentIn
  rw [requestsClock_eq_of_agreeOn agree, keepsClock_eq_of_agreeOn agree]
  exact h

/-- No mode makes a peripheral inconsistent, whatever its bits were before. -/
theorem consistentIn_assignAll (p : Peripheral) (mode : LowPowerMode) (file : RegisterFile) :
    p.ConsistentIn (file.assignAll (mode.assignments p)) := by
  unfold ConsistentIn
  rw [requestsClock_assignAll, keepsClock_assignAll]
  intro requests
  have autonomous := of_decide_eq_true (Bool.and_eq_true_iff.mp requests).2
  rw [autonomous]
  rfl

end Peripheral

/-- All peripherals of a part that have a handle are consistent. -/
def Device.Consistent (d : Device) (file : RegisterFile) : Prop :=
  ∀ p ∈ d.handles, p.ConsistentIn file

instance (d : Device) (file : RegisterFile) : Decidable (d.Consistent file) := by
  unfold Device.Consistent
  infer_instance

/-- A call of a handle sets the mode of its own peripheral, if of any. -/
theorem Call.sparesMode_or (p q : Peripheral) (op : HandleOp) :
    (handle q op).SparesMode p ∨ q = p ∧ ∃ mode, op = .setLowPower mode := by
  by_cases same : q = p
  · cases op with
    | setLowPower mode => exact Or.inr ⟨same, mode, rfl⟩
    | _ => exact Or.inl trivial
  · cases op with
    | setLowPower mode => exact Or.inl same
    | _ => exact Or.inl trivial

/-- **One call.** A handle makes no peripheral inconsistent, neither its own nor one with which it
shares a register. -/
theorem Device.Consistent.assignAll {d : Device} {file : RegisterFile} (h : d.Consistent file)
    {q : Peripheral} (hq : d.drivable q = true) (op : HandleOp) :
    d.Consistent (file.assignAll (Call.handle q op).assignments) := by
  intro p hp
  have carried {r : Peripheral} (hr : d.drivable r = true) : d.carries r = true :=
    (drivable_iff.mp hr).1
  rcases Call.sparesMode_or p q op with spares | ⟨rfl, mode, rfl⟩
  · have own : ∀ r o, Call.handle q op = .handle r o → d.carries r = true := by
      rintro r o ⟨⟩
      exact carried hq
    have outside := Call.assigns_outside_modeBits (carried (mem_handles_iff.mp hp)) own spares
    exact (h p hp).of_agreeOn (RegisterFile.agreeOn_assignAll outside file)
  · exact q.consistentIn_assignAll mode file

/-- The request uses a handle, or it changes which handles are held. -/
def Request.ViaHandles : Request → Prop
  | handle _ _ | constrain | trade | share => True
  | poke _ _ | group _ _ _ => False

instance (request : Request) : Decidable request.ViaHandles := by
  unfold Request.ViaHandles
  split <;> infer_instance

/-- **All calls.** As long as peripherals are used by their handles only, the registers stay
consistent. -/
theorem Session.consistent_steps {t : Target} {s : State} {requests : List Request}
    (consistent : t.device.Consistent s.file) (via : ∀ request ∈ requests, request.ViaHandles) :
    t.device.Consistent (steps t s requests).2.file := by
  refine steps_induction (P := fun s => t.device.Consistent s.file) ?_ consistent
  intro s request a hmem hr consistent
  have handles := via request hmem
  cases Request.resolves_of_resolve hr with
  | constrain => exact consistent
  | trade _ => exact consistent
  | share _ => exact consistent
  | @handle _ q op _ hq =>
      obtain ⟨name, _, hname⟩ := Option.bind_eq_some_iff.mp hq
      show t.device.Consistent ((Call.handle q op).routine.run _ s.file).file
      rw [Call.run_file]
      exact consistent.assignAll (Device.drivable_of_handleNamed? hname) op
  | poke _ => exact handles.elim
  | bus _ _ => exact handles.elim
  | gate _ _ _ => exact handles.elim
  | autonomous _ _ _ => exact handles.elim

/-! ## The writes of a mode change -/

namespace Modification

theorem stages_routine (base : Word) (m : Modification) (file : RegisterFile) :
    Trace.stages base file (m.routine.run base file).events = [file.assign m.assignment] := by
  rw [assign_assignment]
  unfold routine
  cases m.settles <;>
    simp [Routine.run, Register.run_settle, Trace.stages, Register.atAddress?_address]

/-- A sequence of modifications passes through what they make of the registers one after
another. -/
theorem stages_sequence (base : Word) (ms : List Modification) (file : RegisterFile) :
    file :: Trace.stages base file ((sequence ms).run base file).events =
      (ms.map assignment).scanl RegisterFile.assign file := by
  induction ms generalizing file with
  | nil => rfl
  | cons m ms ih =>
      have split : sequence (m :: ms) = m.routine.bind fun _ => sequence ms := rfl
      rw [split, Trace.stages_run_bind, stages_routine, run_routine_file, List.map_cons,
        List.scanl_cons, ← ih]
      rfl

end Modification

/-- Where a change of mode stands halfway. The clock is already kept or stopped as the new mode
says, and it may be requested as the old one says. -/
def LowPowerMode.halfway (old new : LowPowerMode) : LowPowerMode :=
  if new = .off then .off else if old = .off then .enabled else old

/-- What halfway is, if the bits of the old mode are consistent. -/
theorem LowPowerMode.halfway_ofBits {keeps requests : Bool}
    (consistent : requests = true → keeps = true) (new : LowPowerMode) :
    (ofBits keeps requests).halfway new = ofBits (decide (new ≠ .off)) requests := by
  cases keeps <;> cases requests <;> cases new <;> first | rfl | cases consistent rfl

namespace Peripheral

/-- The modes that a peripheral is in after each single write of a trace, as its handle would tell
them. -/
def modesDuring (base : Word) (file : RegisterFile) (p : Peripheral) (events : List Event) :
    List LowPowerMode :=
  (Trace.stages base file events).map fun stage => (p.lowPower.run base stage).result

variable {base : Word} {p : Peripheral} {mode : LowPowerMode} {file : RegisterFile}

theorem modesDuring_eq (events : List Event) :
    p.modesDuring base file events = (Trace.stages base file events).map p.modeIn :=
  List.map_congr_left fun stage _ => (p.run_lowPower base stage).1

/-- The first write of a change. -/
theorem modeIn_halfway (consistent : p.ConsistentIn file) {w : Word}
    (written : w.getLsbD p.seat.bit = decide (mode ≠ .off)) :
    p.modeIn (file.set (.gate .stopSleep p.seat.group) w) = (p.modeIn file).halfway mode := by
  have apart : Register.autonomous ≠ .gate .stopSleep p.seat.group := nofun
  have keeps : p.keepsClock (file.set (.gate .stopSleep p.seat.group) w) =
      decide (mode ≠ .off) := by
    rw [← written, keepsClock, RegisterFile.bits, RegisterFile.set_self]
  have requests : p.requestsClock (file.set (.gate .stopSleep p.seat.group) w) =
      p.requestsClock file := by
    have same : (file.set (.gate .stopSleep p.seat.group) w).bits .autonomous =
        file.bits .autonomous := by
      unfold RegisterFile.bits
      rw [RegisterFile.set_of_ne _ _ apart]
    rw [requestsClock, same]
    rfl
  rw [modeIn_eq_ofBits, modeIn_eq_ofBits, LowPowerMode.halfway_ofBits consistent, keeps, requests]

theorem effective_of_autonomousBit {i : Fin 32} (hp : p.autonomousBit? = some i)
    (mode : LowPowerMode) : p.effective mode = mode := by
  rw [effective, hp, if_neg]
  rintro ⟨_, ⟨⟩⟩

/-- Once everything is written, the peripheral is in the new mode. -/
theorem modeIn_assignAll_modifications (p : Peripheral) (mode : LowPowerMode)
    (file : RegisterFile) :
    p.modeIn (file.assignAll ((mode.modifications p).map Modification.assignment)) =
      p.effective mode := by
  have same : file.assignAll ((mode.modifications p).map Modification.assignment) =
      file.assignAll (mode.assignments p) :=
    Call.assignAll_modifications (.handle p (.setLowPower mode)) file
  rw [same, modeIn_assignAll]

/-- **The course of a mode change.** From consistent registers, the first write leads halfway, and
the second one, where there is one, to the new mode. -/
theorem modesDuring_setLowPower (consistent : p.ConsistentIn file) :
    p.modesDuring base file ((p.setLowPower mode).run base file).events =
      (p.modeIn file).halfway mode :: p.autonomousBit?.toList.map fun _ => mode := by
  let m : Modification := ⟨.gate .stopSleep p.seat.group, Word.single p.seat.bit, mode ≠ .off,
    mode ≠ .off⟩
  have first : p.modeIn (file.assign m.assignment) = (p.modeIn file).halfway mode := by
    rw [Modification.assign_assignment]
    refine modeIn_halfway consistent ?_
    rw [Modification.getLsbD_apply, Word.getLsbD_single, decide_eq_true rfl]
    rfl
  rw [modesDuring_eq, setLowPower_eq, Trace.stages_run_critical, ← first]
  have stages := Modification.stages_sequence base (mode.modifications p) file
  have last := modeIn_assignAll_modifications p mode file
  unfold LowPowerMode.modifications at stages last ⊢
  cases hp : p.autonomousBit? with
  | none =>
      rw [hp] at stages
      exact congrArg (List.map p.modeIn) (List.cons.inj stages).2
  | some i =>
      rw [hp] at stages last
      have settled := last.trans (effective_of_autonomousBit hp mode)
      refine (congrArg (List.map p.modeIn) (List.cons.inj stages).2).trans ?_
      exact congrArg (fun mode' => [p.modeIn (file.assign m.assignment), mode']) settled

/-- Without an autonomous mode bit there is one write, and halfway is all the way. -/
theorem halfway_eq_effective (hp : p.autonomousBit? = none) :
    (p.modeIn file).halfway mode = p.effective mode := by
  have requests : p.requestsClock file = false := by
    rw [requestsClock, hp]
    rfl
  rw [modeIn_eq_ofBits, requests, LowPowerMode.halfway_ofBits (absurd · Bool.false_ne_true),
    effective, hp]
  cases mode <;> rfl

/-- A change of mode arrives. -/
theorem getLast?_modesDuring_setLowPower (consistent : p.ConsistentIn file) :
    (p.modesDuring base file ((p.setLowPower mode).run base file).events).getLast? =
      some (p.effective mode) := by
  rw [modesDuring_setLowPower consistent]
  cases hp : p.autonomousBit? with
  | none => exact congrArg some (halfway_eq_effective hp)
  | some i => exact congrArg some (effective_of_autonomousBit hp mode).symm

end Peripheral

/-! ## Smoothness -/

/-- A change from the old to the new mode may pass through this one. It is one of the two, unless
the clock is first kept so that it may then be requested. -/
structure LowPowerMode.MayPass (old new mode : LowPowerMode) : Prop where
  known : mode = old ∨ mode = new ∨ old = .off ∧ new = .autonomous ∧ mode = .enabled
  off : mode = .off → old = .off ∨ new = .off
  autonomous : mode = .autonomous → old = .autonomous ∨ new = .autonomous

theorem LowPowerMode.mayPass_new (old new : LowPowerMode) : old.MayPass new new :=
  ⟨Or.inr (Or.inl rfl), Or.inr, Or.inr⟩

theorem LowPowerMode.mayPass_halfway (old new : LowPowerMode) :
    old.MayPass new (old.halfway new) := by
  cases old <;> cases new <;> constructor <;> decide

/-- **Smooth changes.** From registers in which no peripheral requests a clock that it does not
keep, the use of handles leads to such registers only, after any number of requests. And there, a
peripheral whose mode is being changed is after each single write in the old or in the new mode; only
on the way from `off` to `autonomous` it is also `enabled`. It is never without a clock in between,
and never allowed to request one, if it is not before or after. -/
theorem mode_changes_smooth (t : Target) {s : State} (consistent : t.device.Consistent s.file) :
    (∀ requests : List Request, (∀ request ∈ requests, request.ViaHandles) →
      ∀ k, t.device.Consistent (Session.steps t s (requests.take k)).2.file) ∧
    ∀ p, t.device.drivable p = true → ∀ new : LowPowerMode,
      let base := s.handles.base (.handle p (.setLowPower new))
      let old := (p.lowPower.run base s.file).result
      let passed := p.modesDuring base s.file ((p.setLowPower new).run base s.file).events
      passed.getLast? = some (p.effective new) ∧ ∀ mode ∈ passed, old.MayPass new mode := by
  constructor
  · intro requests via k
    exact Session.consistent_steps consistent fun request h => via request (List.mem_of_mem_take h)
  · intro p hp new base old passed
    have own := consistent p (Device.mem_handles_iff.mpr hp)
    refine ⟨Peripheral.getLast?_modesDuring_setLowPower own, fun mode hmode => ?_⟩
    rw [show old = p.modeIn s.file from (p.run_lowPower base s.file).1]
    rw [show passed = _ from Peripheral.modesDuring_setLowPower own] at hmode
    rcases List.mem_cons.mp hmode with rfl | hmode
    · exact LowPowerMode.mayPass_halfway _ new
    · obtain ⟨_, _, rfl⟩ := List.mem_map.mp hmode
      exact LowPowerMode.mayPass_new _ new

/-- A peripheral that is allowed to request its clock, seen by a driver that is interrupted by other
handles, by refusals and by a fresh start. -/
def sharedDomain : RegisterFile :=
  ((RegisterFile.filled 0).set .autonomous 0x02000000).set (.gate .stopSleep .ahb3) 0x20

def restlessNights : List Request :=
  [.handle (some "DAC1") (some (.setLowPower .autonomous)), .trade,
    .handle (some "ADC4") (some (.setLowPower .off)), .handle (some "SRAM4") (some .lowPower),
    .handle (some "PWR") (some (.setLowPower .autonomous)), .constrain, .share,
    .handle (some "ADC4") (some (.setLowPower .autonomous)),
    .handle (some "DAC1") (some (.setLowPower .off)), .handle (some "SPI3") (some .reset)]

theorem mode_changes_smooth_restlessNights :
    let t : Target := ⟨.u585, true⟩
    let s : State := ⟨.peripherals t.base, sharedDomain⟩
    let passed (new : LowPowerMode) :=
      Peripheral.adc4.modesDuring t.base s.file
        ((Peripheral.adc4.setLowPower new).run t.base s.file).events
    t.device.Consistent s.file ∧ (∀ request ∈ restlessNights, request.ViaHandles) ∧
      (∀ k, t.device.Consistent (Session.steps t s (restlessNights.take k)).2.file) ∧
      t.device.drivable .adc4 = true ∧ passed .off = [.off, .off] ∧
      passed .enabled = [.autonomous, .enabled] ∧
      (∀ new, ∀ mode ∈ passed new, LowPowerMode.autonomous.MayPass new mode) := by
  intro t s passed
  have consistent : t.device.Consistent s.file := by decide +kernel
  have via : ∀ request ∈ restlessNights, request.ViaHandles := by decide
  have drivable : t.device.drivable .adc4 = true := by decide
  obtain ⟨always, smooth⟩ := mode_changes_smooth t consistent
  refine ⟨consistent, via, always restlessNights via, drivable, by decide +kernel,
    by decide +kernel, fun new => ?_⟩
  have old : (Peripheral.adc4.lowPower.run t.base s.file).result = .autonomous := by decide +kernel
  have passes : ∀ mode ∈ passed new,
      (Peripheral.adc4.lowPower.run t.base s.file).result.MayPass new mode :=
    (smooth .adc4 drivable new).2
  rw [old] at passes
  exact passes

/-- A request that was left behind by others turns up when the clock is kept again. -/
example :
    let file := (RegisterFile.filled 0).set .autonomous 0x02000000
    ¬ Peripheral.adc4.ConsistentIn file ∧ Peripheral.adc4.modeIn file = .off ∧
      Peripheral.adc4.modesDuring 0 file
        ((Peripheral.adc4.setLowPower .enabled).run 0 file).events = [.autonomous, .enabled] := by
  decide +kernel

end ClockGating
