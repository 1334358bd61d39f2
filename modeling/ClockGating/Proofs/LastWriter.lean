import ClockGating.Proofs.Course

/-!
# The last writer of a bit

The 27 words of the block are read and rewritten as wholes, by two interfaces and by whoever pokes
them. Seen from outside they are a store of single bits in which every step assigns the bits of its
footprint and touches no other.

Main statement: `last_writer_wins`. After any session each bit has the value that was assigned to it
last, and whatever is asked next is answered from these bits.
-/

namespace ClockGating

/-- One value for every bit of every register. -/
abbrev BitStore := Register → Fin 32 → Bool

def RegisterFile.bits (file : RegisterFile) : BitStore := fun r i => (file r).getLsbD i

/-! ## Answers read off single bits -/

/-- All bits of the mask are set. -/
def BitStore.covers (store : BitStore) (r : Register) (mask : Word) : Bool :=
  decide (∀ i : Fin 32, mask.getLsbD i = true → store r i = true)

def BitStore.mode (store : BitStore) (p : Peripheral) : LowPowerMode :=
  if store (.gate .stopSleep p.seat.group) p.seat.bit then
    if p.autonomousBit?.any (store .autonomous) then .autonomous else .enabled
  else
    .off

def Call.replyIn (store : BitStore) : Call → Reply
  | gate g .isEnabledClock m => .flag (store.covers (.gate .clock g) m.bits)
  | gate g .isEnabledStopSleepClock m => .flag (store.covers (.gate .stopSleep g) m.bits)
  | autonomous .isEnabled m => .flag (store.covers .autonomous m.bits)
  | bus .isEnabled s => .flag !(store (.config s.word) s.bit)
  | handle p .isEnabled => .flag (store (.gate .clock p.seat.group) p.seat.bit)
  | handle p .lowPower => .mode (store.mode p)
  | _ => .nothing

def Action.replyIn (store : BitStore) : Action → Reply
  | call c => c.replyIn store
  | poke _ _ | constrain | trade | share => .nothing

theorem covers_bits (file : RegisterFile) (r : Register) (mask : Word) :
    Word.covers (file r) mask = file.bits.covers r mask := by
  rw [Bool.eq_iff_iff, Word.covers_iff, BitStore.covers, decide_eq_true_eq]
  constructor
  · intro h i hi
    exact h i hi
  · intro h k hk
    exact h ⟨k, BitVec.lt_of_getLsbD hk⟩ hk

theorem mode_bits (file : RegisterFile) (p : Peripheral) : p.modeIn file = file.bits.mode p := by
  unfold Peripheral.modeIn BitStore.mode RegisterFile.bits
  cases p.autonomousBit? <;> rfl

/-- A call answers what the bits say. -/
theorem Call.run_result (base : Word) (c : Call) (file : RegisterFile) :
    (c.routine.run base file).result = c.replyIn file.bits := by
  cases h : c.isQuery with
  | false =>
      rw [routine_of_mutating h, Routine.run_silent]
      unfold replyIn
      split <;> first | rfl | cases h
  | true =>
      match c, h with
      | gate g .isEnabledClock m, _ => exact congrArg Reply.flag (covers_bits file _ _)
      | gate g .isEnabledStopSleepClock m, _ => exact congrArg Reply.flag (covers_bits file _ _)
      | autonomous .isEnabled m, _ => exact congrArg Reply.flag (covers_bits file _ _)
      | bus .isEnabled s, _ =>
          exact congrArg (fun b => Reply.flag !b) (Word.covers_single (file s.register) s.bit)
      | handle p .isEnabled, _ => exact congrArg Reply.flag (Word.covers_single _ p.seat.bit)
      | handle p .lowPower, _ =>
          show ((p.lowPower.bind fun mode => .done (Reply.mode mode)).run base file).result = _
          rw [Routine.run_bind]
          exact congrArg Reply.mode ((p.run_lowPower base file).1.trans (mode_bits file p))

/-! ## Sessions -/

/-- The bits that a session leaves: what was assigned last, or what was there before. -/
def Session.lastWritten (d : Device) (init : RegisterFile) (requests : List Request) : BitStore :=
  fun r i =>
    (lastAssigned ((actions d .groups requests).flatMap Action.assignments) r i).getD (init.bits r i)

theorem Session.bits_stateAfter (t : Target) (init : RegisterFile) (requests : List Request) :
    (stateAfter t init requests).file.bits = lastWritten t.device init requests := by
  funext r i
  show ((stateAfter t init requests).file r).getLsbD i = _
  unfold stateAfter
  rw [steps_file, RegisterFile.getLsbD_assignAll]
  rfl

/-- An action answers what the bits say. -/
theorem Action.perform_result (t : Target) (s : State) (a : Action) :
    (a.perform t s).result = a.replyIn s.file.bits := by
  cases a with
  | poke r v => rfl
  | constrain => rfl
  | trade => rfl
  | share => rfl
  | call c => exact Call.run_result (s.handles.base c) c s.file

/-- **The last writer wins.** After any session, each bit of each register has the value that the
last action naming it has assigned, or its value from before if no action names it. Whatever is
requested next is answered, or refused, as these bits say. -/
theorem last_writer_wins (t : Target) (init : RegisterFile) (requests : List Request) :
    (∀ r (i : Fin 32), ((Session.run t init requests).file r).getLsbD i =
      Session.lastWritten t.device init requests r i) ∧
    ∀ next, (Session.step t (Session.stateAfter t init requests) next).1.map Outcome.reply =
      (next.resolve t.device (Session.stateAfter t init requests).held).map
        (Action.replyIn (Session.lastWritten t.device init requests)) := by
  have bits := Session.bits_stateAfter t init requests
  constructor
  · intro r i
    rw [Session.run_file]
    exact congrFun (congrFun bits r) i
  · intro next
    cases hr : next.resolve t.device (Session.stateAfter t init requests).held with
    | error cause =>
        rw [Session.step_of_resolve_error hr]
        rfl
    | ok a =>
        rw [Session.step_of_resolve_ok hr, ← bits]
        exact congrArg Except.ok (Action.perform_result t _ a)

end ClockGating
