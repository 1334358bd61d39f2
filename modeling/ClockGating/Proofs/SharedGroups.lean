import ClockGating.Proofs.Serialisation

/-!
# Groups in several contexts

The handles of groups know no critical sections. Contexts that hold different groups can get along
without them all the same, because a group has its words to itself. The exception are the bus
switches: several of them share a configuration word, and whoever turns one of them writes all of
them back.

- `Group.region` — the bits of a group. Different groups have none in common, not even in the
  configuration words.
- `GroupsOwned` and `ConfigOwned` — no group is used in two contexts, and no configuration word is
  written in two.
- `running_of_torn`, `stopped_inTurn` — why the second is needed: of two busses that are stopped at
  the same time the first may keep running, though both are stopped in turn.

Main statement: `groups_serialisable`.
-/

namespace ClockGating

/-- The group that has a register to itself. The configuration words belong to none. -/
def Register.group? : Register → Option Group
  | config _ => none
  | gate _ g => some (.bus g)
  | autonomous => some .smartRun

/-! ## The region of a group -/

namespace Group

/-- The bits of a group: all of its own registers, and that of its bus switch. -/
def region (g : Group) : Region :=
  { x | x.1.group? = some g ∨ ∃ s : BusSwitch, g = bus s.group ∧ x = (.config s.word, s.bit) }

/-- Groups have no bits in common. -/
theorem disjoint_region {g h : Group} (hne : g ≠ h) : ∀ x, x ∈ g.region → x ∉ h.region := by
  rintro x (hg | ⟨s, rfl, rfl⟩) (hh | ⟨s', rfl, hx⟩)
  · exact hne (Option.some.inj (hg.symm.trans hh))
  · rw [hx] at hg
    cases hg
  · cases hh
  · obtain ⟨hword, hbit⟩ := Prod.mk.inj hx
    rw [BusSwitch.bit_injective (Register.config.inj hword) hbit] at hne
    exact hne rfl

theorem maskIn_region {g : Group} {r : Register} (h : r.group? = some g) (mask : Word) :
    MaskIn g.region r mask :=
  fun _ _ => Or.inl h

theorem maskIn_region_switch (s : BusSwitch) :
    MaskIn (bus s.group).region (.config s.word) (Word.single s.bit) :=
  maskIn_single (Or.inr ⟨s, rfl, rfl⟩)

end Group

/-! ## Calls of groups -/

namespace Call

/-- The group whose handle is used; none if it is the handle of a peripheral. -/
def group? : Call → Option Group
  | gate g _ _ => some (.bus g)
  | autonomous _ _ => some .smartRun
  | bus _ s => some (.bus s.group)
  | handle _ _ => none

theorem region_subset_of_group? {c : Call} {g : Group} (h : c.group? = some g) :
    c.region ⊆ g.region := by
  cases c with
  | gate g op m =>
      cases h
      exact region_gate_subset fun b => Group.maskIn_region rfl m.bits
  | autonomous op m =>
      cases h
      exact region_autonomous_subset (Group.maskIn_region rfl m.bits)
  | bus op s =>
      cases h
      exact region_bus_subset (Group.maskIn_region_switch s)
  | handle p op => cases h

/-- Apart from configuration words, a group writes registers of its own. -/
theorem group?_of_written {c : Call} {g : Group} {r : Register} (h : c.group?.isSome = true)
    (hr : r ∈ c.written) (own : r.group? = some g) : c.group? = some g := by
  obtain ⟨a, ha, rfl⟩ := hr
  have written : ∀ a ∈ c.assignments, a.register.group? = some g → c.group? = some g := by
    cases c with
    | gate g op m =>
        cases op with
        | isEnabledClock => exact List.forall_mem_nil _
        | isEnabledStopSleepClock => exact List.forall_mem_nil _
        | _ => exact List.forall_mem_singleton.mpr id
    | autonomous op m =>
        cases op with
        | isEnabled => exact List.forall_mem_nil _
        | _ => exact List.forall_mem_singleton.mpr id
    | bus op s =>
        cases op with
        | isEnabled => exact List.forall_mem_nil _
        | _ => exact List.forall_mem_singleton.mpr nofun
    | handle p op => cases h
  exact written a ha own

end Call

/-! ## Contexts that own groups -/

section Contexts

variable {ι : Type} {calls : ι → List Call}

/-- What contexts call are handles of groups, and no group is used in two contexts. -/
structure GroupsOwned (calls : ι → List Call) : Prop where
  groups : ∀ i, ∀ c ∈ calls i, c.group?.isSome = true
  single : ∀ i j, ∀ c ∈ calls i, ∀ d ∈ calls j, c.group? = d.group? → i = j

/-- No configuration word is written in two contexts. -/
def ConfigOwned (calls : ι → List Call) : Prop :=
  ∀ w i j, ∀ c ∈ calls i, ∀ d ∈ calls j, .config w ∈ c.written → .config w ∈ d.written → i = j

/-- The bits that calls assign or look at. -/
def usedRegion (calls : List Call) : Region := { x | ∃ c ∈ calls, x ∈ c.region }

/-- The registers that calls write. -/
def writtenRegisters (calls : List Call) : Set Register := { r | ∃ c ∈ calls, r ∈ c.written }

theorem Call.alike_program_used (calls : List Call) :
    (program calls).Alike (usedRegion calls) (program calls) :=
  alike_program fun c hc _ hx => ⟨c, hc, hx⟩

theorem Call.confined_program_used (calls : List Call) :
    (program calls).Confined Set.univ (writtenRegisters calls) (usedRegion calls) :=
  confined_program (fun c hc _ hr => ⟨c, hc, hr⟩) fun c hc _ hx => ⟨c, hc, hx⟩

theorem GroupsOwned.disjoint (owned : GroupsOwned calls) {i j : ι} (hne : i ≠ j) :
    ∀ x, x ∈ usedRegion (calls i) → x ∉ usedRegion (calls j) := by
  rintro x ⟨c, hc, hxc⟩ ⟨d, hd, hxd⟩
  obtain ⟨g, hg⟩ := Option.isSome_iff_exists.mp (owned.groups i c hc)
  obtain ⟨g', hg'⟩ := Option.isSome_iff_exists.mp (owned.groups j d hd)
  have different : g ≠ g' := by
    intro same
    rw [same, ← hg'] at hg
    exact hne (owned.single i j c hc d hd hg)
  exact Group.disjoint_region different x (Call.region_subset_of_group? hg hxc)
    (Call.region_subset_of_group? hg' hxd)

/-- No register at all is written in two contexts. -/
theorem GroupsOwned.eq_of_written (owned : GroupsOwned calls) (config : ConfigOwned calls)
    {i j : ι} {r : Register} (hi : r ∈ writtenRegisters (calls i))
    (hj : r ∈ writtenRegisters (calls j)) : i = j := by
  obtain ⟨c, hc, hrc⟩ := hi
  obtain ⟨d, hd, hrd⟩ := hj
  cases hr : r.group? with
  | some g =>
      have first := Call.group?_of_written (owned.groups i c hc) hrc hr
      have second := Call.group?_of_written (owned.groups j d hd) hrd hr
      exact owned.single i j c hc d hd (first.trans second.symm)
  | none =>
      cases r with
      | config w => exact config w i j c hc d hd hrc hrd
      | gate b g => cases hr
      | autonomous => cases hr

/-- A word that is about to be written belongs to one context only. -/
theorem GroupsOwned.exclusive [DecidableEq ι] {α : Type} (owned : GroupsOwned calls)
    (config : ConfigOwned calls) {base : Word} {start pool : Pool ι α}
    (h : Pool.Faithful base (fun i => writtenRegisters (calls i)) (fun i => usedRegion (calls i))
      start pool) : pool.Exclusive := by
  intro i j hne r v x s w y hereI hereJ hrs
  have readyI := h.ready i
  have readyJ := h.ready j
  rw [hereI] at readyI
  rw [hereJ] at readyJ
  exact hne (owned.eq_of_written config readyI.pending.1 (hrs ▸ readyJ.pending.1))

end Contexts

/-! ## Switches that share a word -/

/-- Two contexts, each of which stops one bus. -/
def stopEach (s s' : BusSwitch) (i : Bool) : List Call := [.bus .disable (if i then s else s')]

/-- Each of the contexts owns the group of its bus, so that what they share is only the word. -/
theorem groupsOwned_stopEach {s s' : BusSwitch} (hne : s ≠ s') :
    GroupsOwned (stopEach s s') := by
  have called {i : Bool} {c : Call} (h : c ∈ stopEach s s' i) :
      c.group? = some (.bus (if i then s else s').group) := by
    rw [List.mem_singleton.mp h]
    rfl
  constructor
  · intro i c hc
    rw [called hc]
    rfl
  · intro i j c hc d hd same
    have switches : (if i then s else s') = (if j then s else s') := by
      rw [called hc, called hd] at same
      exact BusSwitch.group_injective (Group.bus.inj (Option.some.inj same))
    cases i with
    | true =>
        cases j with
        | true => rfl
        | false => exact absurd switches hne
    | false =>
        cases j with
        | true => exact absurd switches.symm hne
        | false => rfl

/-- Contexts that take turns lose nothing: each of them has stopped its bus, whoever came first. -/
theorem stopped_inTurn {s s' : BusSwitch} (hne : s ≠ s') (base : Word) (file : RegisterFile)
    {order : List Bool} (nodup : order.Nodup) {i : Bool} (hi : i ∈ order) {b : BusSwitch}
    (stops : stopEach s s' i = [.bus .disable b]) :
    ((Pool.inTurn base (fun i => Call.program (stopEach s s' i)) order file).file
      b.register).getLsbD b.bit = true := by
  have owned := groupsOwned_stopEach hne
  have asAlone : AgreeOn (usedRegion (stopEach s s' i))
      (Pool.inTurn base (fun i => Call.program (stopEach s s' i)) order file).file
      ((Call.program (stopEach s s' i)).run base file).file :=
    ((Pool.inTurn_alone (fun i j hne => owned.disjoint hne)
      (fun i => Call.alike_program_used (stopEach s s' i))
      (fun i => Call.confined_program_used (stopEach s s' i)) nodup file).1 i hi).2
  rw [stops] at asAlone
  have own : b.mask.getLsbD b.bit = true := by simp [BusSwitch.mask]
  have assigned : .sets b.register b.mask ∈ (Call.bus .disable b).assignments :=
    List.mem_singleton.mpr rfl
  have used : (b.register, b.bit) ∈ usedRegion [.bus .disable b] :=
    ⟨_, List.mem_singleton.mpr rfl, Call.maskIn_region_of_assigns assigned b.bit own⟩
  have alone : ((Call.program [.bus .disable b]).run base file).file =
      file.set b.register (file b.register ||| b.mask) := rfl
  rw [asAlone b.register b.bit used, alone, RegisterFile.set_self, BitVec.getLsbD_or, own,
    Bool.or_true]

/-- Both contexts read before either of them writes. What is left is what the later one writes. -/
theorem run_stopEach_torn (s s' : BusSwitch) (file : RegisterFile) :
    ∃ final, (Pool.start file fun i => Call.program (stopEach s s' i)).Completes
        [true, false, true, false, true, false] final ∧
      final.file = (file.set s.register (file s.register ||| s.mask)).set s'.register
        (file s'.register ||| s'.mask) := by
  refine ⟨_, ⟨rfl, ?_⟩, rfl⟩
  intro i
  cases i with
  | true => exact ⟨_, rfl⟩
  | false => exact ⟨_, rfl⟩

/-- **A lost update.** If the switches share a word, the first bus keeps running. -/
theorem running_of_torn {s s' : BusSwitch} (hne : s ≠ s') (hword : s.word = s'.word)
    {file : RegisterFile} (running : (file s.register).getLsbD s.bit = false) :
    ∃ final, (Pool.start file fun i => Call.program (stopEach s s' i)).Completes
        [true, false, true, false, true, false] final ∧
      (final.file s.register).getLsbD s.bit = false := by
  obtain ⟨final, completes, hfile⟩ := run_stopEach_torn s s' file
  refine ⟨final, completes, ?_⟩
  have shared : s'.register = s.register := congrArg Register.config hword.symm
  have other : s'.mask.getLsbD s.bit = false := by
    rw [BusSwitch.mask, Word.getLsbD_single, decide_eq_false_iff_not]
    intro hbit
    exact hne (BusSwitch.bit_injective hword (Fin.ext hbit))
  rw [hfile, shared, RegisterFile.set_self, BitVec.getLsbD_or, running, other, Bool.or_false]

/-! ## Serialisation -/

/-- The contexts have come to what they come to when they take turns, in any order: the same
registers, and the same replies. -/
def Pool.AsInTurn {ι : Type} [DecidableEq ι] (calls : ι → List Call) (file : RegisterFile)
    (final : Pool ι (List Reply)) : Prop :=
  ∀ (base : Word) (order : List ι), order.Nodup → (∀ i, calls i ≠ [] → i ∈ order) →
    final.file = (inTurn base (fun i => Call.program (calls i)) order file).file ∧
      ∀ i ∈ order, final.result? i =
        (inTurn base (fun i => Call.program (calls i)) order file).result? i

theorem GroupsOwned.asInTurn {ι : Type} [DecidableEq ι] {calls : ι → List Call}
    (owned : GroupsOwned calls) (config : ConfigOwned calls) {file : RegisterFile}
    {schedule : List ι} {final : Pool ι (List Reply)}
    (completes : (Pool.start file fun i => Call.program (calls i)).Completes schedule final) :
    Pool.AsInTurn calls file final := by
  intro base order nodup all
  have exclusive (pool : Pool ι (List Reply)) (_ : True)
      (faithful : Pool.Faithful base (fun i => writtenRegisters (calls i))
        (fun i => usedRegion (calls i)) (Pool.start file fun i => Call.program (calls i)) pool) :
      pool.Exclusive := owned.exclusive config faithful
  refine Pool.eq_inTurn (fun _ => True) (fun i j hne => owned.disjoint hne)
    (fun i => Call.alike_program_used (calls i)) (fun i => Call.confined_program_used (calls i))
    trivial (fun _ _ _ _ _ => trivial) exclusive completes nodup ?_
  intro i absent
  have unused : calls i = [] := by
    by_contra used
    exact absent (all i used)
  rw [unused]
  refine Set.eq_empty_of_forall_notMem ?_
  rintro x ⟨c, hc, _⟩
  exact absurd hc List.not_mem_nil

/-- **Groups are serialisable, apart from the words that busses share.** Any number of contexts run
any calls of groups that they own, without any critical section. If no configuration word is written
in two of them, then in whatever way their accesses are interleaved, at the end every register
holds, and every call has answered, what it would if the contexts had taken turns, in any order. If
two busses have their switches in one word, and two contexts stop them, one may keep running, while
both are stopped by contexts that take turns. -/
theorem groups_serialisable :
    (∀ (ι : Type) [DecidableEq ι] (calls : ι → List Call), GroupsOwned calls → ConfigOwned calls →
      ∀ (file : RegisterFile) (schedule : List ι) (final : Pool ι (List Reply)),
        (Pool.start file fun i => Call.program (calls i)).Completes schedule final →
          Pool.AsInTurn calls file final) ∧
    (∀ s s' : BusSwitch, s ≠ s' → s.word = s'.word →
      GroupsOwned (stopEach s s') ∧
        ∃ file schedule final,
          (Pool.start file fun i => Call.program (stopEach s s' i)).Completes schedule final ∧
            (final.file s.register).getLsbD s.bit = false ∧
            ∀ (base : Word) (order : List Bool), order.Nodup → (∀ i, i ∈ order) →
              let turns := Pool.inTurn base (fun i => Call.program (stopEach s s' i)) order file
              (turns.file s.register).getLsbD s.bit = true ∧
                (turns.file s'.register).getLsbD s'.bit = true) := by
  constructor
  · intro ι _ calls owned config file schedule final completes
    exact owned.asInTurn config completes
  · intro s s' hne hword
    have off : (RegisterFile.filled 0 s.register).getLsbD s.bit = false := BitVec.getLsbD_zero
    obtain ⟨final, completes, running⟩ := running_of_torn hne hword off
    refine ⟨groupsOwned_stopEach hne, _, _, final, completes, running, ?_⟩
    intro base order nodup both
    exact ⟨stopped_inTurn hne base _ nodup (both true) rfl,
      stopped_inTurn hne base _ nodup (both false) rfl⟩

/-- Two contexts with the switches of three busses, two of which are in one word. One of these two
is only asked for. -/
def twoBusOwners : Bool → List Call
  | true => [.bus .disable .ahb1, .gate .ahb1 .enableClock (.ofBit 12),
      .gate .ahb1 .isEnabledClock (.ofBit 12)]
  | false => [.bus .isEnabled .ahb2Grp1, .autonomous .enable (.ofBit 25), .bus .disable .ahb3,
      .autonomous .isEnabled (.ofBit 25)]

theorem twoBusOwners_owned : GroupsOwned twoBusOwners := by
  constructor
  · intro i
    cases i <;> decide
  · intro i j
    cases i <;> cases j <;> decide

theorem twoBusOwners_config : ConfigOwned twoBusOwners := by
  intro w i j
  show ∀ c ∈ twoBusOwners i, ∀ d ∈ twoBusOwners j,
    (∃ a ∈ c.assignments, a.register = .config w) →
      (∃ a ∈ d.assignments, a.register = .config w) → i = j
  cases w <;> cases i <;> cases j <;> decide

/-- The first query comes between the read and the write of the other context, in the same word. -/
def busSchedule : List Bool :=
  [true, false, true, true, false, true, false, true, false, true, false, true, false, false,
    false]

theorem groups_serialisable_torn :
    (∃ final, (Pool.start (.filled 0) fun i => Call.program (twoBusOwners i)).Completes
        busSchedule final ∧
      final.result? true = some [.nothing, .nothing, .flag true] ∧
      final.result? false = some [.flag true, .nothing, .nothing, .flag true] ∧
      Pool.AsInTurn twoBusOwners (.filled 0) final) ∧
    ∃ file schedule final,
      (Pool.start file fun i => Call.program (stopEach .ahb1 .apb2 i)).Completes schedule final ∧
        (final.file (.config .cfgr2)).getLsbD 16 = false ∧
        ((Pool.inTurn 0x46020c00 (fun i => Call.program (stopEach .ahb1 .apb2 i)) [false, true]
          file).file (.config .cfgr2)).getLsbD 16 = true := by
  have course : ∃ final, (Pool.start (.filled 0) fun i => Call.program (twoBusOwners i)).Completes
        busSchedule final ∧
      final.result? true = some [.nothing, .nothing, .flag true] ∧
      final.result? false = some [.flag true, .nothing, .nothing, .flag true] := by
    refine ⟨_, ⟨rfl, ?_⟩, rfl, rfl⟩
    intro i
    cases i with
    | true => exact ⟨_, rfl⟩
    | false => exact ⟨_, rfl⟩
  obtain ⟨owners, busses⟩ := groups_serialisable
  constructor
  · obtain ⟨final, completes, first, second⟩ := course
    exact ⟨final, completes, first, second, owners Bool twoBusOwners twoBusOwners_owned
      twoBusOwners_config (.filled 0) busSchedule final completes⟩
  · obtain ⟨_, file, schedule, final, completes, running, turns⟩ :=
      busses .ahb1 .apb2 (by decide) rfl
    have stopped := turns 0x46020c00 [false, true] (by decide) (by decide)
    exact ⟨file, schedule, final, completes, running, stopped.1⟩

end ClockGating
