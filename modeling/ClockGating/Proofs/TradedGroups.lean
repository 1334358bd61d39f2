import ClockGating.Proofs.Confinement
import ClockGating.Proofs.Course
import ClockGating.Proofs.Resolution

/-!
# Traded groups — what peripheral handles cannot reach

A program that trades its group handles for peripheral handles cannot get them back without
constraining the block anew. Until then it can stop neither a bus nor a memory. Nobody has a handle
of a memory, no memory shares a bit with a peripheral that has one, and no handle has anything to do
with the configuration words.

Main statement: `traded_groups_out_of_reach`, an invariant of everything that can be requested after
a trade.
-/

namespace ClockGating

/-! ## Handles and memories -/

/-- The bits of all peripherals that have a handle. -/
def Device.handleRegion (d : Device) : Region := { x | ∃ p ∈ d.handles, x ∈ p.region }

/-- The memories, one by one. -/
def Peripheral.memories : List Peripheral :=
  [flash, bkpsram, sram1, sram2, sram3, sram4, sram5, sram6]

theorem Peripheral.isMemory_iff {p : Peripheral} : p.isMemory = true ↔ p ∈ memories := by
  cases p <;> decide

/-- A memory shares no bit with a peripheral that is none, not even where no part has both. -/
theorem Peripheral.disjoint_memory {m p : Peripheral} (hm : m.isMemory = true)
    (hp : p.isMemory = false) : ∀ x, x ∈ m.region → x ∉ p.region := by
  have apart : ∀ m ∈ all, m.isMemory = true → ∀ p ∈ all, p.isMemory = false →
      m.seat ≠ p.seat ∧ (m.autonomousBit? = p.autonomousBit? → p.autonomousBit? = none) := by
    decide +kernel
  obtain ⟨seats, bits⟩ := apart m (mem_all m) hm p (mem_all p) hp
  rintro ⟨r, i⟩ hmx hpx
  cases r with
  | config w => exact hmx
  | gate b g =>
      obtain ⟨hmg, hmi⟩ := hmx
      obtain ⟨hpg, hpi⟩ := hpx
      apply seats
      calc
        m.seat = ⟨g, i⟩ := by rw [hmg, show i = m.seat.bit from hmi]
        _ = p.seat := by rw [hpg, show i = p.seat.bit from hpi]
  | autonomous =>
      have hm : m.autonomousBit? = some i := hmx
      have hp : p.autonomousBit? = some i := hpx
      have none := bits (hm.trans hp.symm)
      rw [hp] at none
      cases none

theorem Device.memory_subset {d : Device} {m : Peripheral} (hm : m.isMemory = true) :
    m.region ⊆ d.handleRegionᶜ := by
  rintro x hx ⟨p, hp, hpx⟩
  have drivable := mem_handles_iff.mp hp
  exact Peripheral.disjoint_memory hm (drivable_iff.mp drivable).2 x hx hpx

/-- The registers that hold bits of peripherals. -/
def peripheralRegisters : Set Register := { r | ∀ w, r ≠ .config w }

theorem Call.registers_handle (p : Peripheral) (op : HandleOp) :
    (handle p op).registers ⊆ peripheralRegisters := by
  have gate (b : Bank) (g : BusGroup) : Register.gate b g ∈ peripheralRegisters := by
    intro w h
    cases h
  have autonomous : Register.autonomous ∈ peripheralRegisters := by
    intro w h
    cases h
  have assigned : ∀ a ∈ (handle p op).assignments, a.register ∈ peripheralRegisters := by
    cases op with
    | enable => exact List.forall_mem_singleton.mpr (gate _ _)
    | disable => exact List.forall_mem_singleton.mpr (gate _ _)
    | reset => exact List.forall_mem_singleton.mpr (gate _ _)
    | isEnabled => exact List.forall_mem_nil _
    | lowPower => exact List.forall_mem_nil _
    | setLowPower mode =>
        show ∀ a ∈ mode.assignments p, _
        unfold LowPowerMode.assignments
        cases p.autonomousBit? with
        | none => cases mode <;> exact List.forall_mem_singleton.mpr (gate _ _)
        | some i =>
            cases mode <;> exact List.forall_mem_cons.mpr
              ⟨gate _ _, List.forall_mem_singleton.mpr autonomous⟩
  have observed : ∀ o ∈ (handle p op).observed, o.1 ∈ peripheralRegisters := by
    cases op with
    | isEnabled => exact List.forall_mem_singleton.mpr (gate _ _)
    | lowPower =>
        refine List.forall_mem_cons.mpr ⟨gate _ _, ?_⟩
        intro o ho
        obtain ⟨i, _, rfl⟩ := List.mem_map.mp ho
        exact autonomous
    | _ => exact List.forall_mem_nil _
  rintro r (⟨a, ha, rfl⟩ | ⟨o, ho, rfl⟩)
  · exact assigned a ha
  · exact observed o ho

theorem Call.confined_handle {d : Device} {p : Peripheral} (hp : p ∈ d.handles) (op : HandleOp) :
    (handle p op).routine.Confined peripheralRegisters peripheralRegisters d.handleRegion := by
  have registers := registers_handle p op
  have written : (handle p op).written ⊆ peripheralRegisters :=
    fun r hr => registers (Or.inl hr)
  refine (confined_routine _).mono registers written ?_
  intro x hx
  exact ⟨p, hp, Peripheral.region_handle_subset p op hx⟩

/-! ## After a trade -/

/-- The request neither pokes a register nor constrains the block. -/
def Request.IsQuiet : Request → Prop
  | poke _ _ | constrain => False
  | trade | share | handle _ _ | group _ _ _ => True

/-- Without group handles, all that can be done is to use a handle. -/
theorem Request.handle_of_resolve {d : Device} {request : Request} {a : Action}
    (quiet : request.IsQuiet) (h : request.resolve d .peripherals = .ok a) :
    ∃ p ∈ d.handles, ∃ op, a = .call (.handle p op) := by
  cases resolves_of_resolve h with
  | poke _ => exact quiet.elim
  | constrain => exact quiet.elim
  | trade groups => cases groups
  | share groups => cases groups
  | bus groups _ => cases groups
  | gate groups _ _ => cases groups
  | autonomous groups _ _ => cases groups
  | handle _ hp =>
      obtain ⟨s, _, hs⟩ := Option.bind_eq_some_iff.mp hp
      exact ⟨_, Device.mem_handles_iff.mpr (Device.drivable_of_handleNamed? hs), _, rfl⟩

namespace Session

/-- The program holds peripheral handles only, and has changed only their bits since `start`. -/
structure Dispossessed (t : Target) (start : RegisterFile) (s : State) : Prop where
  handles : s.handles = .peripherals t.base
  agree : AgreeOn t.device.handleRegionᶜ s.file start

variable {t : Target} {start : RegisterFile} {s : State}

theorem Dispossessed.held (h : Dispossessed t start s) : s.held = .peripherals :=
  congrArg Handles.ownership h.handles

theorem Dispossessed.bound (h : Dispossessed t start s) : s.handles.BoundTo t.base := by
  rw [h.handles]
  exact fun _ => rfl

theorem Dispossessed.steps {requests : List Request} (h : Dispossessed t start s)
    (quiet : ∀ request ∈ requests, request.IsQuiet) :
    Dispossessed t start (steps t s requests).2 := by
  refine steps_induction ?_ h
  intro s request a hmem hr h
  rw [h.held] at hr
  obtain ⟨p, hp, op, rfl⟩ := Request.handle_of_resolve (quiet request hmem) hr
  constructor
  · exact h.handles
  · exact ((Call.confined_handle hp op).run_file _ s.file).trans h.agree

theorem Dispossessed.events {request : Request} (h : Dispossessed t start s)
    (quiet : request.IsQuiet) :
    ∀ e ∈ eventsOf (step t s request).1,
      e.Confined t.base peripheralRegisters peripheralRegisters t.device.handleRegion start := by
  intro e he
  refine Event.Confined.of_agree h.agree (confined_events_step h.bound ?_ e he)
  intro c hr
  rw [h.held] at hr
  obtain ⟨p, hp, op, hc⟩ := Request.handle_of_resolve quiet hr
  cases hc
  exact Call.confined_handle hp op

theorem handles_of_trade {start : State} {outcome : Outcome} (bound : s.handles.BoundTo t.base)
    (h : step t s .trade = (.ok outcome, start)) : start.handles = .peripherals t.base := by
  cases hr : Request.trade.resolve t.device s.held with
  | error cause =>
      rw [step_of_resolve_error hr] at h
      cases h
  | ok a =>
      rw [step_of_resolve_ok hr] at h
      cases Request.resolves_of_resolve hr
      cases h
      exact congrArg Handles.peripherals bound.passedOn_eq

end Session

/-- The address of the register that an event is about. -/
def Event.address? : Event → Option Word
  | read a _ | write a _ => some a
  | enter | leave | log _ _ => none

theorem Event.Confined.not_config {base : Word} {S : Region} {file : RegisterFile} {e : Event}
    (h : e.Confined base peripheralRegisters peripheralRegisters S file) (w : ConfigWord) :
    e.address? ≠ some ((Register.config w).address base) := by
  intro hw
  cases e with
  | read a v =>
      obtain ⟨r, hr, ha⟩ := h
      exact hr w (Register.address_injective (ha.symm.trans (Option.some.inj hw)))
  | write a v =>
      obtain ⟨r, hr, ha, _⟩ := h
      exact hr w (Register.address_injective (ha.symm.trans (Option.some.inj hw)))
  | enter => cases hw
  | leave => cases hw
  | log level text => cases hw

/-- Between `start` and `last` only peripherals with handles were affected. -/
structure Session.HandlesOnly (t : Target) (start : RegisterFile) (answers : List Answer)
    (last : RegisterFile) : Prop where
  config : ∀ answer ∈ answers, ∀ e ∈ eventsOf answer, ∀ w,
    e.address? ≠ some ((Register.config w).address t.base)
  memories : ∀ m ∈ Peripheral.memories, AgreeOn m.region last start
  changes : ∀ r (i : Fin 32), (last r).getLsbD i ≠ (start r).getLsbD i →
    ∃ p ∈ t.device.handles, (r, i) ∈ p.region
  writes : ∀ answer ∈ answers, ∀ a v, .write a v ∈ eventsOf answer →
    ∃ r, a = r.address t.base ∧ AgreeAt t.device.handleRegionᶜ r v (start r)

/-- **Out of reach.** After a successful trade, and until the block is constrained again, nothing
that is requested reads or writes a configuration word, changes a bit of a memory, or changes any
bit but those of peripherals with handles. -/
theorem traded_groups_out_of_reach (t : Target) (init : RegisterFile)
    {before between : List Request} {outcome : Outcome} {start : State}
    (traded : Session.step t (Session.stateAfter t init before) .trade = (.ok outcome, start))
    (quiet : ∀ request ∈ between, request.IsQuiet) :
    Session.HandlesOnly t start.file (Session.steps t start between).1
      (Session.steps t start between).2.file := by
  have bound := Session.boundTo_stateAfter t init before
  have fresh : Session.Dispossessed t start.file start :=
    ⟨Session.handles_of_trade bound traded, AgreeOn.refl _ _⟩
  have last := fresh.steps quiet
  have events : ∀ answer ∈ (Session.steps t start between).1, ∀ e ∈ Session.eventsOf answer,
      e.Confined t.base peripheralRegisters peripheralRegisters t.device.handleRegion
        start.file := by
    intro answer hanswer
    obtain ⟨k, hk⟩ := List.mem_iff_getElem?.mp hanswer
    obtain ⟨next, hnext, rfl⟩ := Session.answer_eq hk
    have reached : Session.Dispossessed t start.file
        (Session.steps t start (between.take k)).2 :=
      fresh.steps fun request h => quiet request (List.mem_of_mem_take h)
    exact reached.events (quiet next (List.mem_of_getElem? hnext))
  constructor
  case config =>
    intro answer hanswer e he w
    exact (events answer hanswer e he).not_config w
  case memories =>
    intro m hm
    exact last.agree.mono (Device.memory_subset (Peripheral.isMemory_iff.mpr hm))
  case changes =>
    intro r i changed
    by_contra unowned
    exact changed (last.agree r i unowned)
  case writes =>
    intro answer hanswer a v hwrite
    obtain ⟨r, _, ha, hv⟩ := events answer hanswer _ hwrite
    exact ⟨r, ha, hv⟩

/-- A program that already has peripheral handles, and has stopped a bus. -/
def withGroups : List Request := [.share, .group (some (.bus .disable)) (some "AHB1") none]

/-- Everything that it might try later: its former handles, a handle that does not exist, a second
trade. -/
def attempts : List Request :=
  [.group (some (.bus .disable)) (some "AHB3") none,
    .group (some (.gate .disableClock)) (some "AHB1") (some (.raw 0xffffffff)),
    .handle (some "SRAM1") (some .disable), .handle (some "CRC") (some .disable), .trade, .share,
    .handle (some "DAC1") (some (.setLowPower .autonomous)),
    .handle (some "LPTIM2") (some .reset)]

theorem traded_groups_out_of_reach_attempts :
    ∃ start, Session.step ⟨.u5a9, false⟩
        (Session.stateAfter ⟨.u5a9, false⟩ (.filled 0xf0f0f0f0) withGroups) .trade =
        (.ok ⟨.nothing, []⟩, start) ∧
      (∀ request ∈ attempts, request.IsQuiet) ∧
      Session.HandlesOnly ⟨.u5a9, false⟩ start.file
        (Session.steps ⟨.u5a9, false⟩ start attempts).1
        (Session.steps ⟨.u5a9, false⟩ start attempts).2.file ∧
      (Session.steps ⟨.u5a9, false⟩ start attempts).2.file (.gate .clock .ahb1) = 0xf0f0e0f0 := by
  have traded : ∃ start, Session.step ⟨.u5a9, false⟩
      (Session.stateAfter ⟨.u5a9, false⟩ (.filled 0xf0f0f0f0) withGroups) .trade =
        (.ok ⟨.nothing, []⟩, start) ∧
      (Session.steps ⟨.u5a9, false⟩ start attempts).2.file (.gate .clock .ahb1) = 0xf0f0e0f0 :=
    ⟨_, rfl, by decide +kernel⟩
  have quiet : ∀ request ∈ attempts, request.IsQuiet := by
    simp [attempts, Request.IsQuiet]
  obtain ⟨start, traded, clock⟩ := traded
  have result := traded_groups_out_of_reach ⟨.u5a9, false⟩ (.filled 0xf0f0f0f0) traded quiet
  exact ⟨start, traded, quiet, result, clock⟩

end ClockGating
