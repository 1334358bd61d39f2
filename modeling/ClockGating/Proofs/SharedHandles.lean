import ClockGating.Proofs.Serialisation

/-!
# Handles in several contexts

Drivers own handles of different peripherals and run in contexts that interrupt each other. Their
peripherals share registers, the modifications are not atomic, and the queries are not even inside
critical sections. What makes this work is that a word is only ever written inside a critical
section, so a word that has been read for a modification stays current until it is written back.

- `Routine.Bracketed` — critical sections are properly opened and closed, and nothing is written
  outside them.
- `handles_serialisable` — however the contexts are interleaved, the registers at the end and all
  replies are those of the contexts taking turns, in any order.
-/

namespace ClockGating

/-! ## Brackets -/

namespace Routine

variable {α β : Type}

/-- The routine starts inside a critical section or outside, as the first flag says, ends as the
second says, and writes only inside. -/
inductive Bracketed : Bool → Bool → Routine α → Prop where
  | done (b : Bool) (a : α) : Bracketed b b (.done a)
  | read {b c : Bool} {r : Register} {x : Word → Routine α} (next : ∀ v, Bracketed b c (x v)) :
      Bracketed b c (.read r x)
  | write {c : Bool} {r : Register} {v : Word} {x : Routine α} (next : Bracketed true c x) :
      Bracketed true c (.write r v x)
  | enter {c : Bool} {x : Routine α} (next : Bracketed true c x) : Bracketed false c (.enter x)
  | leave {c : Bool} {x : Routine α} (next : Bracketed false c x) : Bracketed true c (.leave x)
  | log {b c : Bool} {level : LogLevel} {text : String} {x : Routine α}
      (next : Bracketed b c x) : Bracketed b c (.log level text x)

theorem Bracketed.bind {b c e : Bool} {x : Routine α} {f : α → Routine β} (h : Bracketed b c x)
    (hf : ∀ a, Bracketed c e (f a)) : Bracketed b e (x.bind f) := by
  induction h with
  | done b a => exact hf a
  | read _ ih => exact .read fun v => ih v hf
  | write _ ih => exact .write (ih hf)
  | enter _ ih => exact .enter (ih hf)
  | leave _ ih => exact .leave (ih hf)
  | log _ ih => exact .log (ih hf)

theorem Bracketed.critical {x : Routine α} (h : Bracketed true true x) :
    Bracketed false false (Routine.critical x) :=
  .enter (h.bind fun a => .leave (.done false a))

theorem Bracketed.of_read {b c : Bool} {r : Register} {x : Word → Routine α}
    (h : Bracketed b c (.read r x)) (v : Word) : Bracketed b c (x v) := by
  cases h with
  | read next => exact next v

theorem Bracketed.of_write {b c : Bool} {r : Register} {v : Word} {x : Routine α}
    (h : Bracketed b c (.write r v x)) : b = true ∧ Bracketed true c x := by
  cases h with
  | write next => exact ⟨rfl, next⟩

theorem Bracketed.of_enter {b c : Bool} {x : Routine α} (h : Bracketed b c (.enter x)) :
    b = false ∧ Bracketed true c x := by
  cases h with
  | enter next => exact ⟨rfl, next⟩

theorem Bracketed.of_leave {b c : Bool} {x : Routine α} (h : Bracketed b c (.leave x)) :
    b = true ∧ Bracketed false c x := by
  cases h with
  | leave next => exact ⟨rfl, next⟩

theorem Bracketed.of_log {b c : Bool} {level : LogLevel} {text : String} {x : Routine α}
    (h : Bracketed b c (.log level text x)) : Bracketed b c x := by
  cases h with
  | log next => exact next

theorem Asks.bracketed {observed : List (Register × Word)} {x : Routine α} (h : x.Asks observed)
    (b : Bool) : Bracketed b b x := by
  induction h with
  | done a => exact .done b a
  | look _ _ ih => exact .read fun v => ih _

end Routine

theorem Modification.bracketed_sequence (ms : List Modification) :
    (sequence ms).Bracketed true true := by
  induction ms with
  | nil => exact .done true ()
  | cons m ms ih =>
      refine Routine.Bracketed.bind (.read fun v => .write ?_) fun _ => ih
      cases m.settles with
      | true => exact .read fun _ => .done true ()
      | false => exact .done true ()

/-- Every operation of a handle is bracketed: what changes something is a critical section, and the
queries write nothing. -/
theorem Call.bracketed_handle (p : Peripheral) (op : HandleOp) :
    (Call.handle p op).routine.Bracketed false false := by
  cases h : (Call.handle p op).isQuery with
  | false =>
      rw [routine_of_mutating h]
      refine Routine.Bracketed.bind (Routine.Bracketed.critical ?_) fun _ => .done false _
      exact (Modification.bracketed_sequence _).bind fun _ => .done true ()
  | true => exact (asks_of_isQuery h).bracketed false

/-! ## Mutual exclusion -/

namespace Pool

variable {ι α : Type} [DecidableEq ι]

/-- Every context is inside a critical section exactly if the pool says so. -/
def AllBracketed (pool : Pool ι α) : Prop :=
  ∀ i, (pool.rest i).Bracketed (decide (pool.inside = some i)) false

theorem AllBracketed.step {pool next : Pool ι α} (h : pool.AllBracketed) {i : ι}
    (step : Step pool i next) : next.AllBracketed := by
  intro j
  have before := h j
  by_cases hne : j = i
  · subst hne
    cases step with
    | read here =>
        rw [here] at before
        rw [replace_rest_self]
        exact before.of_read _
    | write here =>
        rw [here] at before
        obtain ⟨inside, next⟩ := before.of_write
        rw [replace_rest_self]
        exact inside.symm ▸ next
    | enter here _ =>
        rw [here] at before
        rw [replace_rest_self, decide_eq_true rfl]
        exact before.of_enter.2
    | leave here =>
        rw [here] at before
        rw [replace_rest_self, decide_eq_false (by simp)]
        exact before.of_leave.2
    | log here =>
        rw [here] at before
        rw [replace_rest_self]
        exact before.of_log
  · rw [step.rest_other hne]
    -- Only the two ends of a critical section change who is inside, and that is never `j`.
    cases step with
    | read _ => exact before
    | write _ => exact before
    | log _ => exact before
    | enter _ free =>
        rw [free, decide_eq_false (by simp)] at before
        rw [decide_eq_false (fun hij => hne (Option.some.inj hij).symm)]
        exact before
    | leave here =>
        have mine := h i
        rw [here] at mine
        have inside := of_decide_eq_true mine.of_leave.1
        rw [inside, decide_eq_false (fun hij => hne (Option.some.inj hij).symm)] at before
        rw [decide_eq_false (by simp)]
        exact before

/-- Two contexts that are about to write would both be inside a critical section. -/
theorem AllBracketed.exclusive {pool : Pool ι α} (h : pool.AllBracketed) : pool.Exclusive := by
  intro i j hne r v x s w y hereI hereJ
  have hi := h i
  have hj := h j
  rw [hereI] at hi
  rw [hereJ] at hj
  have insideI := of_decide_eq_true hi.of_write.1
  have insideJ := of_decide_eq_true hj.of_write.1
  exact absurd (Option.some.inj (insideI.symm.trans insideJ)) hne

end Pool

/-! ## Programs of handle calls -/

/-- Calls of handles, one after another, with all their replies. -/
def handleProgram (calls : List (Peripheral × HandleOp)) : Routine (List Reply) :=
  Call.program (calls.map fun (p, op) => .handle p op)

/-- The bits of all peripherals that are called. -/
def calledRegion (calls : List (Peripheral × HandleOp)) : Region :=
  { x | ∃ p op, (p, op) ∈ calls ∧ x ∈ p.region }

theorem bracketed_handleProgram (calls : List (Peripheral × HandleOp)) :
    (handleProgram calls).Bracketed false false := by
  induction calls with
  | nil => exact .done false []
  | cons call rest ih =>
      exact (Call.bracketed_handle call.1 call.2).bind fun _ => ih.bind fun _ => .done false _

theorem region_subset_calledRegion {calls : List (Peripheral × HandleOp)} :
    ∀ c ∈ calls.map (fun (p, op) => Call.handle p op), c.region ⊆ calledRegion calls := by
  intro c hc
  obtain ⟨⟨p, op⟩, hmem, rfl⟩ := List.mem_map.mp hc
  intro x hx
  exact ⟨p, op, hmem, Peripheral.region_handle_subset p op hx⟩

/-! ## Contexts that own handles -/

/-- What contexts call are handles of the part, and no handle is called in two contexts. -/
structure HandlesOwned {ι : Type} (d : Device) (calls : ι → List (Peripheral × HandleOp)) :
    Prop where
  drivable : ∀ i p op, (p, op) ∈ calls i → d.drivable p = true
  single : ∀ i j p op op', (p, op) ∈ calls i → (p, op') ∈ calls j → i = j

theorem HandlesOwned.disjoint {ι : Type} {d : Device} {calls : ι → List (Peripheral × HandleOp)}
    (h : HandlesOwned d calls) {i j : ι} (hne : i ≠ j) :
    ∀ x, x ∈ calledRegion (calls i) → x ∉ calledRegion (calls j) := by
  rintro x ⟨p, op, hp, hxp⟩ ⟨q, op', hq, hxq⟩
  have carried {k : ι} {r : Peripheral} {o : HandleOp} (hr : (r, o) ∈ calls k) :
      d.carries r = true := (Device.drivable_iff.mp (h.drivable k r o hr)).1
  have hpq : p ≠ q := by
    intro hpq
    subst hpq
    exact hne (h.single i j p op op' hp hq)
  exact Peripheral.disjoint_region (carried hp) (carried hq) hpq x hxp hxq

/-- **Handles are serialisable.** Any number of contexts run any calls of handles that they own. In
whatever way their accesses are interleaved, at the end every register holds, and every call has
answered, what it would if the contexts had taken turns, in any order. -/
theorem handles_serialisable {ι : Type} [DecidableEq ι] {d : Device}
    {calls : ι → List (Peripheral × HandleOp)} (owned : HandlesOwned d calls)
    {file : RegisterFile} {schedule : List ι} {final : Pool ι (List Reply)}
    (completes : (Pool.start file fun i => handleProgram (calls i)).Completes schedule final)
    (base : Word) {order : List ι} (nodup : order.Nodup) (all : ∀ i, calls i ≠ [] → i ∈ order) :
    final.file = (Pool.inTurn base (fun i => handleProgram (calls i)) order file).file ∧
      ∀ i ∈ order, final.result? i =
        (Pool.inTurn base (fun i => handleProgram (calls i)) order file).result? i := by
  have alike (i : ι) : (handleProgram (calls i)).Alike (calledRegion (calls i))
      (handleProgram (calls i)) := Call.alike_program region_subset_calledRegion
  have confined (i : ι) : (handleProgram (calls i)).Confined Set.univ Set.univ
      (calledRegion (calls i)) :=
    Call.confined_program (fun c _ => Set.subset_univ c.written) region_subset_calledRegion
  refine Pool.eq_inTurn Pool.AllBracketed (fun i j hne => owned.disjoint hne) alike confined
    (fun i => bracketed_handleProgram (calls i)) (fun _ _ _ h step => h.step step)
    (fun _ h _ => h.exclusive) completes nodup ?_
  intro i absent
  have none : calls i = [] := by
    by_contra some
    exact absent (all i some)
  rw [none]
  ext x
  constructor
  · rintro ⟨p, op, hmem, _⟩
    exact absurd hmem List.not_mem_nil
  · exact fun h => absurd h (Set.notMem_empty x)

/-- Two drivers of one bus. The mode that one of them sets and the mode that the other asks for are
in the same two registers. -/
def twoDrivers : Bool → List (Peripheral × HandleOp)
  | true => [(.lpuart1, .setLowPower .autonomous), (.lpuart1, .lowPower)]
  | false => [(.spi3, .lowPower), (.spi3, .enable), (.spi3, .lowPower)]

/-- Each of the two reads of the first query comes between a read and the write that belongs to
it. -/
def tornSchedule : List Bool :=
  [true, true, false, true, true, true, false, true, true, true, false, true, false, true, false,
    false, false, false, false]

theorem twoDrivers_owned : HandlesOwned .u585 twoDrivers := by
  have which (i : Bool) (p : Peripheral) (op : HandleOp) (h : (p, op) ∈ twoDrivers i) :
      p = if i then .lpuart1 else .spi3 := by
    cases i <;> simp only [twoDrivers, List.mem_cons, Prod.mk.injEq, List.not_mem_nil] at h <;>
      grind
  constructor
  · intro i p op h
    rw [which i p op h]
    cases i <;> decide
  · intro i j p op op' hi hj
    have same := (which i p op hi).symm.trans (which j p op' hj)
    cases i <;> cases j <;> first | rfl | cases same

theorem handles_serialisable_torn :
    ∃ final, (Pool.start (.filled 0x20) fun i => handleProgram (twoDrivers i)).Completes
        tornSchedule final ∧
      final.result? true = some [.nothing, .mode .autonomous] ∧
      final.result? false = some [.mode .autonomous, .nothing, .mode .autonomous] ∧
      final.file = (Pool.inTurn 0 (fun i => handleProgram (twoDrivers i)) [false, true]
        (.filled 0x20)).file ∧
      ∀ i ∈ [false, true], final.result? i =
        (Pool.inTurn 0 (fun i => handleProgram (twoDrivers i)) [false, true]
          (.filled 0x20)).result? i := by
  have course : ∃ final, (Pool.start (.filled 0x20) fun i =>
        handleProgram (twoDrivers i)).Completes tornSchedule final ∧
      final.result? true = some [.nothing, .mode .autonomous] ∧
      final.result? false = some [.mode .autonomous, .nothing, .mode .autonomous] := by
    refine ⟨_, ⟨rfl, ?_⟩, rfl, rfl⟩
    intro i
    cases i with
    | true => exact ⟨_, rfl⟩
    | false => exact ⟨_, rfl⟩
  obtain ⟨final, completes, first, second⟩ := course
  have nodup : [false, true].Nodup := by decide
  obtain ⟨registers, replies⟩ :=
    handles_serialisable twoDrivers_owned completes 0 nodup (by decide)
  exact ⟨final, completes, first, second, registers, replies⟩

end ClockGating
