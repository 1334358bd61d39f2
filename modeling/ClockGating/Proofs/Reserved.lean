import ClockGating.Proofs.Confinement
import ClockGating.Proofs.Course
import ClockGating.Proofs.Validity

/-!
# Reserved bits — what no program may change

Most bits of the block gate nothing on a given part. They are reserved, and writing them is safe
only as long as they are written back as they were read. Every write of a program is of that kind,
provided that its masks were made from names and checked numbers.

Main statement: `reserved_bits_kept`. At every point of a session the reserved bits are those of the
start or of the last poke, and so are those of every word that is written.
-/

namespace ClockGating

/-! ## Gated and reserved bits -/

/-- The bits of the bus switches: 16 to 20 in the one word, 16 and 17 in the other. -/
def ConfigWord.switches : ConfigWord → Word
  | cfgr2 => 0x001f0000
  | cfgr3 => 0x00030000

/-- The bits of a register that gate something on a part. -/
def Device.gates (d : Device) : Register → Word
  | .config w => w.switches
  | .gate _ g => (Mask.all d : Mask (.bus g)).bits
  | .autonomous => (Mask.all d : Mask .smartRun).bits

def Device.gated (d : Device) : Region := { x | (d.gates x.1).getLsbD x.2 = true }

/-- All other bits. -/
def Device.reserved (d : Device) : Region := d.gatedᶜ

theorem Mask.Valid.maskIn_gate {d : Device} {g : BusGroup} {m : Mask (.bus g)} (h : m.Valid d)
    (b : Bank) : MaskIn d.gated (.gate b g) m.bits :=
  fun i hi => valid_iff.mp h i hi

theorem Mask.Valid.maskIn_autonomous {d : Device} {m : Mask .smartRun} (h : m.Valid d) :
    MaskIn d.gated .autonomous m.bits :=
  fun i hi => valid_iff.mp h i hi

theorem BusSwitch.maskIn_config (d : Device) (s : BusSwitch) :
    MaskIn d.gated (.config s.word) (Word.single s.bit) := by
  apply maskIn_single
  show s.word.switches.getLsbD s.bit = true
  cases s <;> decide

/-! ## Calls with valid masks -/

/-- Every mask that the call hands to a register is valid. -/
def Call.Valid (d : Device) : Call → Prop
  | gate _ _ m => m.Valid d
  | autonomous _ m => m.Valid d
  | bus _ _ => True
  | handle p _ => p.clockMask.Valid d ∧
      ∀ i, p.autonomousBit? = some i → (Mask.ofBit i : Mask .smartRun).Valid d

theorem Call.valid_handle {d : Device} {p : Peripheral} (carried : d.carries p = true)
    (op : HandleOp) : (handle p op).Valid d :=
  ⟨Mask.valid_ofBit carried (if_pos rfl), fun _ hi => Mask.valid_ofBit carried hi⟩

theorem Call.Valid.region_subset {d : Device} {c : Call} (h : c.Valid d) :
    c.region ⊆ d.gated := by
  cases c with
  | gate g op m => exact Call.region_gate_subset (Mask.Valid.maskIn_gate h)
  | autonomous op m => exact Call.region_autonomous_subset (Mask.Valid.maskIn_autonomous h)
  | bus op s => exact Call.region_bus_subset (BusSwitch.maskIn_config d s)
  | handle p op =>
      obtain ⟨clock, autonomous⟩ := h
      refine (Peripheral.region_handle_subset p op).trans ?_
      rintro ⟨r, i⟩ hx
      cases r with
      | config w => exact absurd hx id
      | gate b g =>
          obtain ⟨rfl, rfl⟩ := hx
          refine clock.maskIn_gate b p.seat.bit ?_
          exact (Word.getLsbD_single _ _).trans (decide_eq_true rfl)
      | autonomous =>
          refine (autonomous i hx).maskIn_autonomous i ?_
          exact (Word.getLsbD_single _ _).trans (decide_eq_true rfl)

/-! ## Checked requests -/

/-- The request takes no number as a mask without checking it. -/
def Request.IsChecked : Request → Prop
  | group _ _ (some e) => e.IsChecked
  | _ => True

theorem Request.valid_of_resolve {d : Device} {held : Ownership} {request : Request} {c : Call}
    (checked : request.IsChecked) (h : request.resolve d held = .ok (.call c)) : c.Valid d := by
  cases resolves_of_resolve h with
  | handle _ hp =>
      obtain ⟨s, _, hs⟩ := Option.bind_eq_some_iff.mp hp
      have drivable := Device.drivable_of_handleNamed? hs
      exact Call.valid_handle (Device.drivable_iff.mp drivable).1 _
  | bus _ _ => trivial
  | gate _ _ he => exact MaskExpr.valid_of_eval checked he
  | autonomous _ _ he => exact MaskExpr.valid_of_eval checked he

theorem Request.confined_of_resolve {d : Device} {held : Ownership} {request : Request}
    {c : Call} (checked : request.IsChecked) (h : request.resolve d held = .ok (.call c)) :
    c.routine.Confined Set.univ Set.univ d.gated :=
  c.confined_routine.mono (Set.subset_univ _) (Set.subset_univ _)
    (valid_of_resolve checked h).region_subset

/-! ## Sessions -/

/-- What an action writes behind the program's back. -/
def Action.poked (file : RegisterFile) : Action → RegisterFile
  | poke r v => file.set r v
  | constrain | trade | share | call _ => file

namespace Session

/-- What each register held when it was last poked, or at the start. -/
def poked (d : Device) (init : RegisterFile) (requests : List Request) : RegisterFile :=
  (actions d .groups requests).foldl Action.poked init

theorem agree_poked_step {t : Target} {request : Request} {a : Action} {s : State}
    {file : RegisterFile} (checked : request.IsChecked)
    (hr : request.resolve t.device s.held = .ok a)
    (h : AgreeOn t.device.reserved s.file file) :
    AgreeOn t.device.reserved (a.perform t s).file (a.poked file) := by
  cases a with
  | poke r v => exact h.set (AgreeAt.refl _ r v)
  | constrain => exact h
  | trade => exact h
  | share => exact h
  | call c =>
      have confined := Request.confined_of_resolve checked hr
      exact (confined.run_file (s.handles.base c) s.file).trans h

theorem agree_poked {t : Target} {requests : List Request}
    (checked : ∀ request ∈ requests, request.IsChecked) {s : State} {file : RegisterFile}
    (h : AgreeOn t.device.reserved s.file file) :
    AgreeOn t.device.reserved (steps t s requests).2.file
      ((actions t.device s.held requests).foldl Action.poked file) := by
  induction requests generalizing s file with
  | nil => exact h
  | cons request rest ih =>
      obtain ⟨first, later⟩ := List.forall_mem_cons.mp checked
      show AgreeOn _ (steps t (step t s request).2 rest).2.file _
      cases hr : request.resolve t.device s.held with
      | error cause =>
          rw [step_of_resolve_error hr, actions_cons_of_error rest hr]
          exact ih later h
      | ok a =>
          rw [step_of_resolve_ok hr, actions_cons_of_ok rest hr, ← Action.held_step t]
          exact ih later (agree_poked_step first hr h)

/-- A session lets the reserved bits alone. Its calls have valid masks; after any number of requests
the reserved bits are as poked; and no word is written in which they are different. -/
structure KeepsReserved (t : Target) (init : RegisterFile) (requests : List Request) : Prop where
  masks : ∀ c, .call c ∈ actions t.device .groups requests → c.Valid t.device
  registers : ∀ k, AgreeOn t.device.reserved (run t init (requests.take k)).file
    (poked t.device init (requests.take k))
  start : ∀ a v, .write a v ∉ (run t init requests).start
  writes : ∀ k answer, (run t init requests).answers[k]? = some answer →
    ∀ a v, .write a v ∈ eventsOf answer → ∃ r, a = r.address t.base ∧
      AgreeAt t.device.reserved r v (poked t.device init (requests.take k) r)

end Session

/-- **Reserved bits are kept** by every session that takes no number as a mask without checking
it. -/
theorem reserved_bits_kept (t : Target) (init : RegisterFile) {requests : List Request}
    (checked : ∀ request ∈ requests, request.IsChecked) :
    Session.KeepsReserved t init requests := by
  have kept (k : Nat) : AgreeOn t.device.reserved
      (Session.stateAfter t init (requests.take k)).file
      (Session.poked t.device init (requests.take k)) :=
    Session.agree_poked (fun request h => checked request (List.mem_of_mem_take h))
      (AgreeOn.refl _ init)
  constructor
  case masks =>
    intro c hc
    obtain ⟨request, hmem, held, hr⟩ := Session.exists_request_of_mem_actions hc
    exact Request.valid_of_resolve (checked request hmem) hr
  case registers => exact kept
  case start =>
    intro a v h
    cases List.mem_singleton.mp h
  case writes =>
    intro k answer hanswer a v hwrite
    obtain ⟨next, hnext, rfl⟩ := Session.run_answer_eq hanswer
    have checkedNext := checked next (List.mem_of_getElem? hnext)
    have bound := Session.boundTo_stateAfter t init (requests.take k)
    have confined := Session.confined_events_step bound
      (fun c hc => Request.confined_of_resolve checkedNext hc) (.write a v) hwrite
    obtain ⟨r, _, ha, hv⟩ := confined
    exact ⟨r, ha, hv.trans (kept k r)⟩

/-- Every way of making a mask, a poke, a refusal and both kinds of handles. -/
def nestedSession : List Request :=
  [.group (some (.gate .enableClock)) (some "AHB2GRP1")
      (some (.combine .or (.name "ALL") (.truncate 0xffffffff))),
    .poke (some "AHB2ENR1") (some 0x0a0a0a0a),
    .group (some (.gate .disableClock)) (some "AHB2GRP1")
      (some (.combine .and (.combine .union (.name "ADC1") (.bits 0x00170000)) (.name "ALL"))),
    .group (some (.gate .enableClock)) (some "AHB2GRP1") (some (.bits 0x80000000)),
    .group (some (.bus .disable)) (some "AHB1") none,
    .trade,
    .handle (some "AES") (some (.setLowPower .autonomous))]

theorem reserved_bits_kept_nested :
    (∀ request ∈ nestedSession, request.IsChecked) ∧
      Session.KeepsReserved ⟨.u545, true⟩ (.filled 0x5a5a5a5a) nestedSession ∧
      (Session.run ⟨.u545, true⟩ (.filled 0x5a5a5a5a) nestedSession).file
        (.gate .clock .ahb2Grp1) = 0x0a080a0a := by
  have checked : ∀ request ∈ nestedSession, request.IsChecked := by
    simp [nestedSession, Request.IsChecked, MaskExpr.IsChecked]
  exact ⟨checked, reserved_bits_kept _ _ checked, by decide +kernel⟩

end ClockGating
