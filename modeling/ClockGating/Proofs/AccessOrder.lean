import ClockGating.Proofs.Course

/-!
# The order of accesses

The registers that a session leaves say nothing about how they came to be. Whether a clock was
waited for, whether a word was read before it was written, whether that happened inside a critical
section: all this is in the trace alone. This file says what the trace of a step looks like, event
by event.

- `Event.Accounted` — why an event is there. A write puts back what was read right before it, with
  the bits of its modification changed; a read belongs to such a write, or waits for one.
- `Modification.ordered_sequence` — one modification more keeps all events accounted for.
- `Call.InOrder` — the trace of a call: its modifications one after another, inside a critical
  section or outside, and then its record; or the reads of a query.

Main statement: `accesses_in_order`, for every step of every session.
-/

namespace ClockGating

/-! ## Positions in a list -/

/-- The property holds of every entry, together with what is before it and what is after it. -/
def AtEach {α : Type} (P : List α → α → List α → Prop) (l : List α) : Prop :=
  ∀ before e after, l = before ++ e :: after → P before e after

section Positions

variable {α : Type} {P : List α → α → List α → Prop}

theorem atEach_nil : AtEach P [] := by
  intro before e after h
  cases before <;> cases h

theorem atEach_cons {x : α} {l : List α} :
    AtEach P (x :: l) ↔ P [] x l ∧ AtEach (fun before => P (x :: before)) l := by
  constructor
  · intro h
    constructor
    · exact h [] x l rfl
    · rintro before e after rfl
      exact h (x :: before) e after rfl
  · rintro ⟨first, later⟩ before e after h
    cases before with
    | nil =>
        cases h
        exact first
    | cons y before =>
        obtain ⟨rfl, rfl⟩ := List.cons.inj h
        exact later before e after rfl

theorem atEach_append {xs ys : List α} :
    AtEach P (xs ++ ys) ↔ AtEach (fun before e after => P before e (after ++ ys)) xs ∧
      AtEach (fun before => P (xs ++ before)) ys := by
  induction xs generalizing P with
  | nil => exact ⟨fun h => ⟨atEach_nil, h⟩, fun h => h.2⟩
  | cons x xs ih =>
      rw [List.cons_append, atEach_cons, ih, atEach_cons, and_assoc]
      rfl

theorem AtEach.imp {Q : List α → α → List α → Prop} {l : List α} (h : AtEach P l)
    (hPQ : ∀ before e after, P before e after → Q before e after) : AtEach Q l :=
  fun before e after hl => hPQ before e after (h before e after hl)

end Positions

/-! ## Events by kind -/

namespace Event

def isWrite : Event → Bool
  | write _ _ => true
  | read _ _ | enter | leave | log _ _ => false

def isAccess : Event → Bool
  | read _ _ | write _ _ => true
  | enter | leave | log _ _ => false

/-- The event is one end of a critical section. -/
def isBracket : Event → Bool
  | enter | leave => true
  | read _ _ | write _ _ | log _ _ => false

def isLog : Event → Bool
  | log _ _ => true
  | read _ _ | write _ _ | enter | leave => false

theorem kind_of_isAccess {e : Event} (h : e.isAccess = true) :
    e.isBracket = false ∧ e.isLog = false := by
  cases e with
  | read a v => exact ⟨rfl, rfl⟩
  | write a v => exact ⟨rfl, rfl⟩
  | enter => cases h
  | leave => cases h
  | log level text => cases h

theorem kind_of_isLog {e : Event} (h : e.isLog = true) :
    e.isBracket = false ∧ e.isAccess = false := by
  cases e with
  | log level text => exact ⟨rfl, rfl⟩
  | read a v => cases h
  | write a v => cases h
  | enter => cases h
  | leave => cases h

end Event

def Trace.writeCount (events : List Event) : Nat := events.countP Event.isWrite

/-! ## Traces of modifications -/

/-- What follows right after the write of a modification that settles: one read of the same
register and no second one. It sees all bits of the mask as they have been written. -/
def Modification.ReadBack (base : Word) (m : Modification) (after : List Event) : Prop :=
  ∃ w rest, after = .read (m.register.address base) w :: rest ∧
    (∀ i : Fin 32, m.mask.getLsbD i = true → w.getLsbD i = m.value) ∧
    ∀ v, rest.head? ≠ some (.read (m.register.address base) v)

/-- Why an event is in the trace of these modifications. The write of a modification, the first of
which belongs to the first and so on, is preceded at once by a read of the same register and changes
just the bits of the mask in what was read. A read is followed at once by such a write, or it comes
right after the write of a modification that settles. -/
def Event.Accounted (base : Word) (ms : List Modification) (before : List Event) (e : Event)
    (after : List Event) : Prop :=
  match e with
  | write a v => ∃ m w rest, ms[Trace.writeCount before]? = some m ∧
      a = m.register.address base ∧ before = rest ++ [read a w] ∧ v = m.apply w ∧
      (m.settles = true → m.ReadBack base after)
  | read a _ => (∃ v rest, after = write a v :: rest) ∨
      ∃ m v rest, before = rest ++ [write a v] ∧ ms[Trace.writeCount rest]? = some m ∧
        m.settles = true
  | enter | leave | log _ _ => True

/-- The trace consists of the accesses of these modifications, all of them and in this order, and of
events that are no accesses. -/
structure Trace.Ordered (base : Word) (ms : List Modification) (events : List Event) : Prop where
  complete : writeCount events = ms.length
  accounted : AtEach (Event.Accounted base ms) events

/-- What comes earlier moves an event away from the beginning and leaves it accounted for. -/
theorem Event.Accounted.prepend {base : Word} {ms ms' : List Modification}
    {block before after : List Event} {e : Event}
    (shift : ∀ k, ms'[Trace.writeCount block + k]? = ms[k]?)
    (h : e.Accounted base ms before after) : e.Accounted base ms' (block ++ before) after := by
  have count (es : List Event) :
      Trace.writeCount (block ++ es) = Trace.writeCount block + Trace.writeCount es :=
    List.countP_append
  cases e with
  | write a v =>
      obtain ⟨m, w, rest, hm, ha, rfl, hv, settled⟩ := h
      refine ⟨m, w, block ++ rest, ?_, ha, (List.append_assoc _ _ _).symm, hv, settled⟩
      rw [count, shift]
      exact hm
  | read a w =>
      rcases h with fetched | ⟨m, v, rest, rfl, hm, settles⟩
      · exact Or.inl fetched
      · refine Or.inr ⟨m, v, block ++ rest, (List.append_assoc _ _ _).symm, ?_, settles⟩
        rw [count, shift]
        exact hm
  | enter => trivial
  | leave => trivial
  | log level text => trivial

namespace Trace.Ordered

variable {base : Word} {ms : List Modification} {events : List Event}

theorem nil : Ordered base [] [] := ⟨rfl, atEach_nil⟩

/-- An event that is no access needs no account. -/
theorem mark {e : Event} (he : e.isAccess = false) (h : Ordered base ms events) :
    Ordered base ms (e :: events) := by
  obtain ⟨noWrite, here⟩ : writeCount [e] = 0 ∧ e.Accounted base ms [] events := by
    cases e with
    | read a w => cases he
    | write a v => cases he
    | enter => exact ⟨rfl, trivial⟩
    | leave => exact ⟨rfl, trivial⟩
    | log level text => exact ⟨rfl, trivial⟩
  constructor
  · calc
      writeCount ([e] ++ events) = writeCount [e] + writeCount events := List.countP_append
      _ = ms.length := by rw [noWrite, Nat.zero_add, h.complete]
  · refine atEach_cons.mpr ⟨here, h.accounted.imp fun before e' after accounted => ?_⟩
    show e'.Accounted base ms ([e] ++ before) after
    refine accounted.prepend fun k => ?_
    rw [noWrite, Nat.zero_add]

theorem of_marks (h : ∀ e ∈ events, e.isAccess = false) : Ordered base [] events := by
  induction events with
  | nil => exact nil
  | cons e events ih =>
      obtain ⟨first, later⟩ := List.forall_mem_cons.mp h
      exact (ih later).mark first

end Trace.Ordered

namespace Modification

variable (base : Word)

/-- The trace of a modification that reads `w`. -/
def trace (m : Modification) (w : Word) : List Event :=
  [.read (m.register.address base) w, .write (m.register.address base) (m.apply w)] ++
    if m.settles then [.read (m.register.address base) (m.apply w)] else []

theorem run_routine_events (m : Modification) (file : RegisterFile) :
    (m.routine.run base file).events = m.trace base (file m.register) := by
  unfold routine trace
  cases m.settles with
  | false => rfl
  | true =>
      show [Event.read _ _, .write _ _, .read _ (file.set _ _ _)] = _
      rw [RegisterFile.set_self]
      rfl

theorem run_sequence_cons_events (m : Modification) (ms : List Modification)
    (file : RegisterFile) :
    ((sequence (m :: ms)).run base file).events =
      m.trace base (file m.register) ++
        ((sequence ms).run base (m.routine.run base file).file).events := by
  show ((m.routine.bind fun _ => sequence ms).run base file).events = _
  rw [Routine.run_bind, ← run_routine_events]

theorem isAccess_of_mem_sequence {ms : List Modification} {file : RegisterFile} :
    ∀ e ∈ ((sequence ms).run base file).events, e.isAccess = true := by
  induction ms generalizing file with
  | nil => exact List.forall_mem_nil _
  | cons m ms ih =>
      rw [run_sequence_cons_events]
      refine List.forall_mem_append.mpr ⟨?_, ih⟩
      unfold trace
      cases m.settles <;> simp [Event.isAccess]

/-- All bits of the mask have the value that the modification gives them. -/
theorem getLsbD_apply_of_mask {m : Modification} {i : Fin 32} (h : m.mask.getLsbD i = true)
    (w : Word) : (m.apply w).getLsbD i = m.value := by
  unfold apply
  cases m.value <;> simp [h]

end Modification

/-- **One modification more.** If it settles, no further read of the same register may follow. -/
theorem Trace.Ordered.modify {base : Word} {m : Modification} {ms : List Modification}
    {events : List Event} (h : Trace.Ordered base ms events)
    (single : m.settles = true → ∀ v, events.head? ≠ some (.read (m.register.address base) v))
    (w : Word) : Trace.Ordered base (m :: ms) (m.trace base w ++ events) := by
  have oneWrite : writeCount (m.trace base w) = 1 := by
    unfold Modification.trace
    cases m.settles <;> rfl
  have block : AtEach (fun before e after => e.Accounted base (m :: ms) before (after ++ events))
      (m.trace base w) := by
    unfold Modification.trace
    cases hs : m.settles with
    | false =>
        have stored : m.settles = true → m.ReadBack base events := by
          rw [hs]
          exact nofun
        exact atEach_cons.mpr ⟨Or.inl ⟨_, _, rfl⟩,
          atEach_cons.mpr ⟨⟨m, w, [], rfl, rfl, rfl, rfl, stored⟩, atEach_nil⟩⟩
    | true =>
        have stored : m.settles = true →
            m.ReadBack base (.read (m.register.address base) (m.apply w) :: events) :=
          fun _ => ⟨_, _, rfl, fun _ hi => m.getLsbD_apply_of_mask hi w, single hs⟩
        exact atEach_cons.mpr ⟨Or.inl ⟨_, _, rfl⟩,
          atEach_cons.mpr ⟨⟨m, w, [], rfl, rfl, rfl, rfl, stored⟩,
            atEach_cons.mpr ⟨Or.inr ⟨m, _, [_], rfl, rfl, hs⟩, atEach_nil⟩⟩⟩
  constructor
  · calc
      writeCount (m.trace base w ++ events) = writeCount (m.trace base w) + writeCount events :=
        List.countP_append
      _ = (m :: ms).length := by
        rw [oneWrite, h.complete, List.length_cons, Nat.add_comm]
  · refine atEach_append.mpr ⟨block, h.accounted.imp fun before e after accounted => ?_⟩
    refine accounted.prepend fun k => ?_
    rw [oneWrite, Nat.add_comm, List.getElem?_cons_succ]

/-- No register is settled twice in a row. -/
def Modification.Separate (ms : List Modification) : Prop :=
  ms.Pairwise fun m m' => m.settles = true → m.register ≠ m'.register

/-- **All modifications.** A run of modifications, and then events that are no accesses. -/
theorem Modification.ordered_sequence (base : Word) {ms : List Modification}
    (separate : Separate ms) {tail : List Event} (marks : ∀ e ∈ tail, e.isAccess = false)
    (file : RegisterFile) :
    Trace.Ordered base ms (((sequence ms).run base file).events ++ tail) := by
  induction ms generalizing file with
  | nil => exact Trace.Ordered.of_marks marks
  | cons m ms ih =>
      obtain ⟨apart, separate⟩ := List.pairwise_cons.mp separate
      rw [run_sequence_cons_events, List.append_assoc]
      refine (ih separate _).modify ?_ (file m.register)
      intro settles v
      cases ms with
      | nil =>
          -- Nothing is left but the tail.
          intro hv
          have hread := marks _ (List.mem_of_head? hv)
          cases hread
      | cons m' ms =>
          rw [run_sequence_cons_events]
          intro hv
          obtain ⟨haddress, _⟩ := Event.read.inj (Option.some.inj hv)
          exact apart m' List.mem_cons_self settles (Register.address_injective haddress).symm

/-! ## Traces of calls -/

namespace Call

/-- The call is a critical section. -/
def isCritical : Call → Bool
  | handle p op => !(handle p op).isQuery
  | gate _ _ _ | autonomous _ _ | bus _ _ => false

/-- The record that a call leaves. -/
def recorded : Call → List Event
  | bus .enable s => [.log .trace (s.group.name ++ ": bus clock enabled")]
  | bus .disable s => [.log .trace (s.group.name ++ ": bus clock disabled")]
  | _ => []

theorem separate_modifications (c : Call) : Modification.Separate c.modifications := by
  match c with
  | gate _ op _ =>
    cases op with
    | isEnabledClock => exact List.Pairwise.nil
    | isEnabledStopSleepClock => exact List.Pairwise.nil
    | _ => exact List.pairwise_singleton _ _
  | autonomous op _ =>
    cases op with
    | isEnabled => exact List.Pairwise.nil
    | _ => exact List.pairwise_singleton _ _
  | bus op _ =>
    cases op with
    | isEnabled => exact List.Pairwise.nil
    | _ => exact List.pairwise_singleton _ _
  | handle _ .enable => exact List.pairwise_singleton _ _
  | handle _ .disable => exact List.pairwise_singleton _ _
  | handle _ .isEnabled => exact List.Pairwise.nil
  | handle _ .lowPower => exact List.Pairwise.nil
  | handle _ .reset => exact List.pairwise_pair.mpr nofun
  | handle p (.setLowPower mode) =>
    show Modification.Separate (mode.modifications p)
    unfold LowPowerMode.modifications
    cases p.autonomousBit? with
    | none => exact List.pairwise_singleton _ _
    | some i => exact List.pairwise_pair.mpr fun _ => nofun

theorem run_record_events (base : Word) (c : Call) (file : RegisterFile) :
    (c.record.run base file).events = c.recorded := by
  match c with
  | gate _ _ _ => rfl
  | autonomous _ _ => rfl
  | bus .enable _ => rfl
  | bus .disable _ => rfl
  | bus .isEnabled _ => rfl
  | handle _ _ => rfl

/-- The trace of a call that changes something: its modifications and its record, all of it between
the ends of a critical section if it is one. -/
theorem run_events_of_mutating {c : Call} (h : c.isQuery = false) (base : Word)
    (file : RegisterFile) :
    (c.routine.run base file).events =
      let events := ((Modification.sequence c.modifications).run base file).events ++ c.recorded
      if c.isCritical then .enter :: (events ++ [.leave]) else events := by
  have body : (((Modification.sequence c.modifications).bind fun _ => c.record).run base
      file).events =
      ((Modification.sequence c.modifications).run base file).events ++ c.recorded := by
    rw [Routine.run_bind, ← run_record_events base c]
  rw [routine_of_mutating h, Routine.run_silent]
  cases c with
  | handle p op =>
      have critical : (handle p op).isCritical = true := by
        rw [isCritical, h]
        rfl
      show ((Routine.critical _).run base file).events = _
      rw [Routine.run_critical, body, if_pos critical]
  | gate g op m => exact body
  | autonomous op m => exact body
  | bus op s => exact body

/-- The trace is that of a query on these registers. It reads what the query observes, in order, and
ends early only if a bit that it looks at is clear. -/
def Looks (base : Word) (c : Call) (file : RegisterFile) (events : List Event) : Prop :=
  ∃ n, 0 < n ∧ events = (c.observed.take n).map (fun o => .read (o.1.address base) (file o.1)) ∧
    (n < c.observed.length → ∃ o ∈ c.observed.take n, Word.covers (file o.1) o.2 = false)

theorem looks_of_all {base : Word} {c : Call} {file : RegisterFile} {events : List Event}
    (some : c.observed ≠ [])
    (h : events = c.observed.map fun o => .read (o.1.address base) (file o.1)) :
    c.Looks base file events := by
  refine ⟨c.observed.length, List.length_pos_iff.mpr some, ?_, fun h => absurd h (Nat.lt_irrefl _)⟩
  rw [List.take_length]
  exact h

/-- The mode is off if the first bit is clear, and then there is no need for the second. -/
theorem looks_lowPower (base : Word) (p : Peripheral) (file : RegisterFile) :
    (handle p .lowPower).Looks base file ((handle p .lowPower).routine.run base file).events := by
  have events : ((handle p .lowPower).routine.run base file).events =
      (p.lowPower.run base file).events := by
    show ((p.lowPower.bind fun mode => .done (Reply.mode mode)).run base file).events = _
    rw [Routine.run_bind]
    exact List.append_nil _
  rw [events]
  unfold Peripheral.lowPower
  simp only [BusGroup.isEnabledStopSleepClock, SmartRun.isEnabledAutonomousClock,
    Peripheral.clockMask, Mask.bits_ofBit, Routine.bind_eq, Routine.run_bind,
    Register.run_testBits]
  by_cases kept : Word.covers (file (.gate .stopSleep p.seat.group)) (Word.single p.seat.bit)
  · simp only [kept, Bool.not_true, Bool.false_eq_true, if_false]
    refine looks_of_all (List.cons_ne_nil _ _) ?_
    show _ = Event.read _ _ :: (p.autonomousBit?.toList.map _).map _
    cases p.autonomousBit? with
    | none => rfl
    | some i => rfl
  · simp only [kept, Bool.not_false, if_true]
    refine ⟨1, Nat.one_pos, rfl, fun _ => ⟨_, List.mem_cons_self, ?_⟩⟩
    exact Bool.eq_false_iff.mpr kept

/-- The trace of a query. -/
theorem looks_of_isQuery {c : Call} (h : c.isQuery = true) (base : Word) (file : RegisterFile) :
    c.Looks base file (c.routine.run base file).events := by
  match c, h with
  | gate _ .isEnabledClock _, _ => exact looks_of_all nofun rfl
  | gate _ .isEnabledStopSleepClock _, _ => exact looks_of_all nofun rfl
  | autonomous .isEnabled _, _ => exact looks_of_all nofun rfl
  | bus .isEnabled _, _ => exact looks_of_all nofun rfl
  | handle _ .isEnabled, _ => exact looks_of_all nofun rfl
  | handle p .lowPower, _ => exact looks_lowPower base p file

/-- How a call that finds these registers goes about its work. -/
structure InOrder (base : Word) (c : Call) (file : RegisterFile) (events : List Event) : Prop where
  /-- What changes something consists of its modifications. -/
  changes : c.isQuery = false → Trace.Ordered base c.modifications events
  /-- What changes nothing only reads. -/
  looks : c.isQuery = true → c.Looks base file events
  /-- A critical section begins first and ends last. -/
  critical : c.isCritical = true → ∃ body, events = .enter :: (body ++ [.leave]) ∧
    ∀ e ∈ body, e.isBracket = false
  plain : c.isCritical = false → ∀ e ∈ events, e.isBracket = false
  /-- A record is made when all accesses are over. -/
  record : ∃ body, events = body ++ c.recorded ∧ ∀ e ∈ body, e.isLog = false

theorem isLog_of_mem_recorded {c : Call} : ∀ e ∈ c.recorded, e.isLog = true := by
  unfold recorded
  split
  · exact List.forall_mem_singleton.mpr rfl
  · exact List.forall_mem_singleton.mpr rfl
  · exact List.forall_mem_nil _

theorem recorded_of_isCritical {c : Call} (h : c.isCritical = true) : c.recorded = [] := by
  cases c with
  | handle p op => rfl
  | gate g op m => cases h
  | autonomous op m => cases h
  | bus op s => cases h

theorem inOrder_of_mutating {c : Call} (h : c.isQuery = false) (base : Word)
    (file : RegisterFile) : c.InOrder base file (c.routine.run base file).events := by
  have accesses : ∀ e ∈ ((Modification.sequence c.modifications).run base file).events,
      e.isAccess = true := Modification.isAccess_of_mem_sequence base
  have logs : ∀ e ∈ c.recorded, e.isLog = true := isLog_of_mem_recorded
  have ordered (tail : List Event) (marks : ∀ e ∈ tail, e.isAccess = false) :=
    Modification.ordered_sequence base c.separate_modifications marks file
  have mutates : c.isQuery ≠ true := by
    rw [h]
    exact Bool.false_ne_true
  rw [run_events_of_mutating h]
  cases hc : c.isCritical with
  | true =>
      rw [recorded_of_isCritical hc, List.append_nil, if_pos rfl]
      constructor
      case changes =>
        exact fun _ => (ordered [.leave] (List.forall_mem_singleton.mpr rfl)).mark rfl
      case looks => exact fun query => absurd query mutates
      case critical =>
        exact fun _ => ⟨_, rfl, fun e he => (Event.kind_of_isAccess (accesses e he)).1⟩
      case plain =>
        intro uncritical
        rw [hc] at uncritical
        cases uncritical
      case record =>
        rw [recorded_of_isCritical hc]
        refine ⟨_, (List.append_nil _).symm, List.forall_mem_cons.mpr ⟨rfl, ?_⟩⟩
        refine List.forall_mem_append.mpr ⟨fun e he => ?_, List.forall_mem_singleton.mpr rfl⟩
        exact (Event.kind_of_isAccess (accesses e he)).2
  | false =>
      rw [if_neg Bool.false_ne_true]
      constructor
      case changes =>
        exact fun _ => ordered c.recorded fun e he => (Event.kind_of_isLog (logs e he)).2
      case looks => exact fun query => absurd query mutates
      case critical =>
        intro critical
        rw [hc] at critical
        cases critical
      case plain =>
        intro _
        refine List.forall_mem_append.mpr ⟨fun e he => ?_, fun e he => ?_⟩
        · exact (Event.kind_of_isAccess (accesses e he)).1
        · exact (Event.kind_of_isLog (logs e he)).1
      case record => exact ⟨_, rfl, fun e he => (Event.kind_of_isAccess (accesses e he)).2⟩

/-- A query is no critical section and makes no record. -/
theorem quiet_of_isQuery {c : Call} (h : c.isQuery = true) :
    c.isCritical = false ∧ c.recorded = [] := by
  match c, h with
  | gate _ _ _, _ => exact ⟨rfl, rfl⟩
  | autonomous _ _, _ => exact ⟨rfl, rfl⟩
  | bus .isEnabled _, _ => exact ⟨rfl, rfl⟩
  | handle p op, h =>
    refine ⟨?_, rfl⟩
    rw [isCritical, h]
    rfl

theorem inOrder_of_isQuery {c : Call} (h : c.isQuery = true) (base : Word)
    (file : RegisterFile) : c.InOrder base file (c.routine.run base file).events := by
  have looks := looks_of_isQuery h base file
  obtain ⟨uncritical, unrecorded⟩ := quiet_of_isQuery h
  have accesses : ∀ e ∈ (c.routine.run base file).events, e.isAccess = true := by
    obtain ⟨n, _, events, _⟩ := looks
    rw [events]
    intro e he
    obtain ⟨o, _, rfl⟩ := List.mem_map.mp he
    rfl
  constructor
  case changes =>
    intro mutates
    rw [h] at mutates
    cases mutates
  case looks => exact fun _ => looks
  case critical =>
    intro critical
    rw [uncritical] at critical
    cases critical
  case plain => exact fun _ e he => (Event.kind_of_isAccess (accesses e he)).1
  case record =>
    rw [unrecorded]
    exact ⟨_, (List.append_nil _).symm, fun e he => (Event.kind_of_isAccess (accesses e he)).2⟩

theorem inOrder_run (base : Word) (c : Call) (file : RegisterFile) :
    c.InOrder base file (c.routine.run base file).events := by
  cases h : c.isQuery with
  | false => exact inOrder_of_mutating h base file
  | true => exact inOrder_of_isQuery h base file

/-- Two registers in one critical section, and a read-back for each. -/
example : ((handle .adc4 (.setLowPower .autonomous)).routine.run 0 (.filled 1)).events =
    [.enter, .read 0xbc 0x1, .write 0xbc 0x21, .read 0xbc 0x21, .read 0xd8 0x1,
      .write 0xd8 0x2000001, .read 0xd8 0x2000001, .leave] := by
  decide +kernel

end Call

/-! ## Traces of sessions -/

/-- How a step goes about its work. What is no call accesses no register. -/
def Action.InOrder (base : Word) (file : RegisterFile) (events : List Event) : Action → Prop
  | call c => c.InOrder base file events
  | poke _ _ | constrain | trade | share => ∀ e ∈ events, e.isLog = true

theorem Action.inOrder_perform {t : Target} {s : State} (bound : s.handles.BoundTo t.base)
    (a : Action) : a.InOrder t.base s.file (a.perform t s).events := by
  cases a with
  | poke r v => exact List.forall_mem_nil _
  | constrain => exact List.forall_mem_singleton.mpr rfl
  | trade => exact List.forall_mem_nil _
  | share => exact List.forall_mem_nil _
  | call c =>
      rw [perform_call bound]
      exact c.inOrder_run t.base s.file

/-- Every step that a session carries out goes about its work in order. -/
structure Session.InOrder (t : Target) (init : RegisterFile) (requests : List Request) : Prop where
  start : ∀ e ∈ (run t init requests).start, e.isLog = true
  steps : ∀ (k : Nat) (outcome : Outcome), (run t init requests).answers[k]? = some (.ok outcome) →
    ∃ (request : Request) (a : Action), requests[k]? = some request ∧
      request.resolve t.device (stateAfter t init (requests.take k)).held = .ok a ∧
      a.InOrder t.base (stateAfter t init (requests.take k)).file outcome.events

/-- **Accesses are made in order**, in every step of every session. Whatever is written has been
read right before, and only the bits in question are different. What starts a clock is read back
once, at once, and is seen to have been written; nothing else is. Handles do this inside critical
sections and groups do not, and queries do nothing but read. -/
theorem accesses_in_order (t : Target) (init : RegisterFile) (requests : List Request) :
    Session.InOrder t init requests := by
  constructor
  case start => exact List.forall_mem_singleton.mpr rfl
  case steps =>
    intro k outcome hanswer
    obtain ⟨request, hrequest, heq⟩ := Session.run_answer_eq hanswer
    cases hr : request.resolve t.device (Session.stateAfter t init (requests.take k)).held with
    | error cause =>
        rw [Session.step_of_resolve_error hr] at heq
        cases heq
    | ok a =>
        rw [Session.step_of_resolve_ok hr] at heq
        cases heq
        have bound := Session.boundTo_stateAfter t init (requests.take k)
        exact ⟨request, a, hrequest, hr, a.inOrder_perform bound⟩

end ClockGating
