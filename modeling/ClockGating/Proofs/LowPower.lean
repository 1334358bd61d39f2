import ClockGating.Proofs.LastWriter
import ClockGating.Proofs.Naming

/-!
# Low-power modes — what is set and what is read back

A low-power mode is one of three values. Registers hold it as one bit or as two, at unrelated
positions of words that are shared with other peripherals, and setting and reading it treat the two
bits one after the other.

- `Peripheral.modeBits` — the bits that hold the mode; a mode is read off these and no others.
- `modeIn_assignAll` — setting a mode and reading it back.
- `Action.SparesMode` — everything that may be done in between.

Main statement: `mode_last_set`. A program reads the mode that it has set last, whatever else it has
done since.
-/

namespace ClockGating

/-! ## The bits of a mode -/

namespace Peripheral

/-- The Sleep/Stop bit, and in the SmartRun domain the autonomous mode bit. -/
def modeBits (p : Peripheral) : Region :=
  { x | x = (.gate .stopSleep p.seat.group, p.seat.bit) ∨
    ∃ i, p.autonomousBit? = some i ∧ x = (.autonomous, i) }

theorem modeBits_subset_region (p : Peripheral) : p.modeBits ⊆ p.region := by
  rintro x (rfl | ⟨i, hi, rfl⟩)
  · exact ⟨rfl, rfl⟩
  · exact hi

theorem modeIn_eq_of_agreeOn {p : Peripheral} {f g : RegisterFile} (h : AgreeOn p.modeBits f g) :
    p.modeIn f = p.modeIn g := by
  have kept : (f (.gate .stopSleep p.seat.group)).getLsbD p.seat.bit =
      (g (.gate .stopSleep p.seat.group)).getLsbD p.seat.bit := h _ _ (Or.inl rfl)
  have requests : (p.autonomousBit?.any fun i => (f .autonomous).getLsbD i) =
      p.autonomousBit?.any fun i => (g .autonomous).getLsbD i := by
    cases hp : p.autonomousBit? with
    | none => rfl
    | some i => exact h _ _ (Or.inr ⟨i, hp, rfl⟩)
  unfold modeIn
  rw [kept, requests]

/-- The mode that a peripheral is in once a mode has been set. Outside the SmartRun domain there is
no autonomous mode, and the clock is merely kept. -/
def effective (p : Peripheral) (mode : LowPowerMode) : LowPowerMode :=
  if mode = .autonomous ∧ p.autonomousBit? = none then .enabled else mode

/-- Set in every mode but one. -/
theorem getLsbD_stopSleep_of_mode (p : Peripheral) (mode : LowPowerMode) (file : RegisterFile) :
    (file.assignAll (mode.assignments p) (.gate .stopSleep p.seat.group)).getLsbD p.seat.bit =
      decide (mode ≠ .off) := by
  rw [RegisterFile.getLsbD_assignAll]
  unfold lastAssigned LowPowerMode.assignments
  cases p.autonomousBit? <;> cases mode <;>
    simp [Assignment.names, Assignment.sets, Assignment.clears, -BitVec.getLsbD_eq_getElem]

/-- Set in one mode only. -/
theorem getLsbD_autonomous_of_mode {p : Peripheral} {i : Fin 32} (hi : p.autonomousBit? = some i)
    (mode : LowPowerMode) (file : RegisterFile) :
    (file.assignAll (mode.assignments p) .autonomous).getLsbD i =
      decide (mode = .autonomous) := by
  rw [RegisterFile.getLsbD_assignAll]
  unfold lastAssigned LowPowerMode.assignments
  rw [hi]
  cases mode <;>
    simp [Assignment.names, Assignment.sets, Assignment.clears, -BitVec.getLsbD_eq_getElem]

/-- **Decoding what was encoded**, whatever the two bits were before. -/
theorem modeIn_assignAll (p : Peripheral) (mode : LowPowerMode) (file : RegisterFile) :
    p.modeIn (file.assignAll (mode.assignments p)) = p.effective mode := by
  unfold modeIn effective
  rw [getLsbD_stopSleep_of_mode]
  cases hp : p.autonomousBit? with
  | none => cases mode <;> rfl
  | some i =>
    have requests := getLsbD_autonomous_of_mode hp mode file
    cases mode <;> simp [requests, -BitVec.getLsbD_eq_getElem]

end Peripheral

/-! ## What leaves a mode alone -/

/-- Assignments to other bits leave those of a region as they are. -/
theorem RegisterFile.agreeOn_assignAll {S : Region} {assignments : List Assignment}
    (outside : ∀ a ∈ assignments, MaskIn Sᶜ a.register a.mask) (file : RegisterFile) :
    AgreeOn S (file.assignAll assignments) file := by
  intro r i hi
  have unassigned : lastAssigned assignments r i = none := by
    refine lastAssigned_eq_none_iff.mpr fun a ha => ?_
    by_contra named
    obtain ⟨rfl, hbit⟩ := Assignment.names_iff.mp (Bool.eq_true_of_not_eq_false named)
    exact outside a ha i hbit hi
  rw [getLsbD_assignAll, unassigned]
  rfl

/-- The call does not set the mode of the peripheral, neither by its handle nor by a mask that
contains it. -/
def Call.SparesMode (p : Peripheral) : Call → Prop
  | handle q (.setLowPower _) => q ≠ p
  | gate g .enableStopSleepClock m | gate g .disableStopSleepClock m =>
    g = p.seat.group → m.bits.getLsbD p.seat.bit = false
  | autonomous .enable m | autonomous .disable m =>
    ∀ i, p.autonomousBit? = some i → m.bits.getLsbD i = false
  | handle _ _ | gate _ _ _ | autonomous .isEnabled _ | bus _ _ => True

/-- The action does not set the mode of the peripheral, and nothing is written behind the program's
back. Handles may be given up and made anew. -/
def Action.SparesMode (p : Peripheral) : Action → Prop
  | poke _ _ => False
  | constrain | trade | share => True
  | call c => c.SparesMode p

instance (p : Peripheral) (c : Call) : Decidable (c.SparesMode p) := by
  unfold Call.SparesMode
  split <;> infer_instance

instance (p : Peripheral) (a : Action) : Decidable (a.SparesMode p) := by
  unfold Action.SparesMode
  split <;> infer_instance

namespace Peripheral

variable {p : Peripheral}

theorem modeBits_register {r : Register} {i : Fin 32} (h : (r, i) ∈ p.modeBits) :
    r = .gate .stopSleep p.seat.group ∨ r = .autonomous := by
  rcases h with h | ⟨j, _, h⟩
  · exact Or.inl (Prod.mk.inj h).1
  · exact Or.inr (Prod.mk.inj h).1

/-- Most registers have nothing to do with modes. -/
theorem maskIn_outside_modeBits {r : Register} (hgate : r ≠ .gate .stopSleep p.seat.group)
    (hautonomous : r ≠ .autonomous) (mask : Word) : MaskIn p.modeBitsᶜ r mask := by
  intro i _ hmode
  rcases modeBits_register hmode with h | h
  · exact hgate h
  · exact hautonomous h

theorem maskIn_stopSleep_outside_modeBits {g : BusGroup} {mask : Word}
    (without : g = p.seat.group → mask.getLsbD p.seat.bit = false) :
    MaskIn p.modeBitsᶜ (.gate .stopSleep g) mask := by
  rintro i hi (h | ⟨j, _, h⟩)
  · cases h
    rw [without rfl] at hi
    cases hi
  · cases h

theorem maskIn_autonomous_outside_modeBits {mask : Word}
    (without : ∀ i, p.autonomousBit? = some i → mask.getLsbD i = false) :
    MaskIn p.modeBitsᶜ .autonomous mask := by
  rintro i hi (h | ⟨j, hj, h⟩)
  · cases h
  · cases h
    rw [without i hj] at hi
    cases hi

end Peripheral

/-- What spares a mode assigns none of its bits. -/
theorem Call.assigns_outside_modeBits {d : Device} {p : Peripheral} {c : Call}
    (carried : d.carries p = true) (own : ∀ q op, c = .handle q op → d.carries q = true)
    (h : c.SparesMode p) : ∀ a ∈ c.assignments, MaskIn p.modeBitsᶜ a.register a.mask := by
  have elsewhere {r : Register} {mask value : Word} (hgate : r ≠ .gate .stopSleep p.seat.group)
      (hautonomous : r ≠ .autonomous) :
      ∀ a ∈ [(⟨r, mask, value⟩ : Assignment)], MaskIn p.modeBitsᶜ a.register a.mask :=
    List.forall_mem_singleton.mpr (Peripheral.maskIn_outside_modeBits hgate hautonomous mask)
  match c, h with
  | gate _ .enableClock _, _ | gate _ .disableClock _, _ | gate _ .forceReset _, _
  | gate _ .releaseReset _, _ | handle _ .enable, _ | handle _ .disable, _ | handle _ .reset, _
  | bus .enable _, _ | bus .disable _, _ => exact elsewhere (by simp) (by simp)
  | gate _ .enableStopSleepClock _, h | gate _ .disableStopSleepClock _, h =>
    exact List.forall_mem_singleton.mpr (Peripheral.maskIn_stopSleep_outside_modeBits h)
  | autonomous .enable _, h | autonomous .disable _, h =>
    exact List.forall_mem_singleton.mpr (Peripheral.maskIn_autonomous_outside_modeBits h)
  | handle q (.setLowPower mode), h =>
    -- Both peripherals are on the part, so they have no bits in common.
    intro a ha i hi hmode
    have hq := Peripheral.region_handle_subset q _ (maskIn_region_of_assigns ha i hi)
    have hp := p.modeBits_subset_region hmode
    exact Peripheral.disjoint_region (own q _ rfl) carried h _ hq hp
  | gate _ .isEnabledClock _, _ | gate _ .isEnabledStopSleepClock _, _
  | autonomous .isEnabled _, _ | bus .isEnabled _, _ | handle _ .isEnabled, _
  | handle _ .lowPower, _ => exact List.forall_mem_nil _

/-! ## Runs -/

theorem Session.agree_modeBits {t : Target} {s : State} {p : Peripheral} {requests : List Request}
    (carried : t.device.carries p = true)
    (spared : ∀ a ∈ actions t.device s.held requests, a.SparesMode p) :
    AgreeOn p.modeBits (steps t s requests).2.file s.file := by
  rw [steps_file]
  refine RegisterFile.agreeOn_assignAll (fun a ha => ?_) s.file
  obtain ⟨action, hmem, ha⟩ := List.mem_flatMap.mp ha
  have spares := spared action hmem
  cases action with
  | poke r v => exact spares.elim
  | constrain => cases ha
  | trade => cases ha
  | share => cases ha
  | call c =>
    refine Call.assigns_outside_modeBits carried (fun q op hc => ?_) spares a ha
    subst hc
    obtain ⟨request, _, held, hr⟩ := exists_request_of_mem_actions hmem
    cases Request.resolves_of_resolve hr with
    | handle _ hq =>
      obtain ⟨name, _, hname⟩ := Option.bind_eq_some_iff.mp hq
      exact (Device.drivable_iff.mp (Device.drivable_of_handleNamed? hname)).1

/-- A handle that is used by the name of a peripheral is the handle of that peripheral. -/
theorem Session.step_handle_name {t : Target} {s s' : State} {p : Peripheral} {op : HandleOp}
    {outcome : Outcome} (h : step t s (.handle (some p.name) (some op)) = (.ok outcome, s')) :
    t.device.handleNamed? p.name = some p ∧
      s' = ⟨s.handles, s.file.assignAll (op.assignments p)⟩ := by
  cases hr : (Request.handle (some p.name) (some op)).resolve t.device s.held with
  | error cause =>
    rw [step_of_resolve_error hr] at h
    cases h
  | ok a =>
    rw [step_of_resolve_ok hr] at h
    have hstate := (Prod.mk.inj h).2
    cases Request.resolves_of_resolve hr with
    | @handle _ q _ _ hq =>
      have hname : t.device.handleNamed? p.name = some q := hq
      obtain rfl := Peripheral.name_injective (Device.name_of_handleNamed? hname)
      refine ⟨hname, ?_⟩
      rw [← hstate]
      exact congrArg (State.mk s.handles) (Call.run_file _ (.handle q op) s.file)

/-- The mode is asked for, and the answer is what the registers stand for. -/
theorem Session.step_lowPower {t : Target} {s : State} {p : Peripheral}
    (peripherals : s.held.hasPeripherals = true)
    (hp : t.device.handleNamed? p.name = some p) :
    (step t s (.handle (some p.name) (some .lowPower))).1.map Outcome.reply =
      .ok (.mode (p.modeIn s.file)) := by
  rw [step_of_resolve_ok (Request.resolve_handle peripherals hp .lowPower)]
  show Except.ok ((Call.handle p .lowPower).routine.run _ s.file).result = _
  rw [Call.run_result, mode_bits]
  rfl

/-- **The mode last set is the mode read.** A program sets the mode of a peripheral by its handle,
and later, perhaps by another handle of the same peripheral, asks for it. Whatever it has done in
between, to this peripheral or to others, by handles or by groups, the answer is the mode that was
set; only that `autonomous` counts as `enabled` outside the SmartRun domain. -/
theorem mode_last_set (t : Target) {s start : State} {p : Peripheral} {mode : LowPowerMode}
    {outcome : Outcome} {later : List Request}
    (set : Session.step t s (.handle (some p.name) (some (.setLowPower mode))) =
      (.ok outcome, start))
    (spared : ∀ a ∈ Session.actions t.device start.held later, a.SparesMode p)
    (peripherals : (Session.steps t start later).2.held.hasPeripherals = true) :
    (Session.step t (Session.steps t start later).2
      (.handle (some p.name) (some .lowPower))).1.map Outcome.reply =
      .ok (.mode (p.effective mode)) := by
  obtain ⟨hp, rfl⟩ := Session.step_handle_name set
  have carried := (Device.drivable_iff.mp (Device.drivable_of_handleNamed? hp)).1
  have undisturbed := Session.agree_modeBits carried spared
  have decoded : p.modeIn (s.file.assignAll (mode.assignments p)) = p.effective mode :=
    p.modeIn_assignAll mode s.file
  rw [Session.step_lowPower peripherals hp, Peripheral.modeIn_eq_of_agreeOn undisturbed]
  exact congrArg (fun m => Except.ok (Reply.mode m)) decoded

/-- Handles and groups, both shared words, new handles, and refusals. -/
def busyWords : List Request :=
  [.handle (some "DAC1") (some (.setLowPower .off)), .handle (some "ADC4") (some .reset),
    .group (some (.gate .disableStopSleepClock)) (some "AHB3")
      (some (.combine .union (.name "DAC1") (.raw 0xffffffdf))),
    .group (some (.gate .disableStopSleepClock)) (some "APB3") (some (.name "ALL")),
    .constrain, .handle (some "ADC4") (some (.setLowPower .off)),
    .group (some (.autonomous .disable)) (some "SRDAMR") (some (.raw 0xfdffffff)),
    .group (some (.gate .disableClock)) (some "AHB3") (some (.name "ALL")),
    .group (some (.bus .disable)) (some "AHB3") none, .trade,
    .handle (some "ADC4") (some .lowPower), .handle (some "SPI3") (some (.setLowPower .enabled))]

theorem mode_last_set_busyWords :
    let t : Target := ⟨.u5a9, true⟩
    let s : State := ⟨.both t.base t.base, .filled 0x02000000⟩
    let ask (s : State) (name : String) :=
      (Session.step t s (.handle (some name) (some .lowPower))).1.map Outcome.reply
    (∃ outcome start,
      Session.step t s (.handle (some "ADC4") (some (.setLowPower .autonomous))) =
        (.ok outcome, start) ∧
      (∀ a ∈ Session.actions .u5a9 start.held busyWords, a.SparesMode .adc4) ∧
      (Session.steps t start busyWords).2.held.hasPeripherals = true ∧
      ask (Session.steps t start busyWords).2 "ADC4" = .ok (.mode .autonomous)) ∧
    ∃ outcome start,
      Session.step t s (.handle (some "CRC") (some (.setLowPower .autonomous))) =
        (.ok outcome, start) ∧
      (∀ a ∈ Session.actions .u5a9 start.held busyWords, a.SparesMode .crc) ∧
      (Session.steps t start busyWords).2.held.hasPeripherals = true ∧
      ask (Session.steps t start busyWords).2 "CRC" = .ok (.mode .enabled) := by
  intro t s ask
  have spared : ∀ p ∈ [Peripheral.adc4, .crc],
      ∀ a ∈ Session.actions .u5a9 .both busyWords, a.SparesMode p := by decide +kernel
  have run (p : Peripheral) (hp : Device.u5a9.handleNamed? p.name = some p) :
      ∃ outcome start, Session.step t s (.handle (some p.name) (some (.setLowPower .autonomous))) =
          (.ok outcome, start) ∧ start.held = .both ∧
        (Session.steps t start busyWords).2.held.hasPeripherals = true := by
    refine ⟨_, _, Session.step_of_resolve_ok (Request.resolve_handle rfl hp _), rfl, ?_⟩
    rfl
  obtain ⟨_, start, set, both, peripherals⟩ := run .adc4 (by decide +kernel)
  obtain ⟨_, start', set', both', peripherals'⟩ := run .crc (by decide +kernel)
  have adc4 := spared .adc4 (by simp)
  have crc := spared .crc (by simp)
  rw [← both] at adc4
  rw [← both'] at crc
  exact ⟨⟨_, start, set, adc4, peripherals, mode_last_set t set adc4 peripherals⟩,
    _, start', set', crc, peripherals', mode_last_set t set' crc peripherals'⟩

end ClockGating
