import ClockGating.Proofs.Region

/-!
# Confinement — routines that keep to their bits

Two properties of routines, both proved along the structure of the program and not of a run, so that
they still say something when a run is interrupted.

- `Routine.Alike S` relates two routines that go the same way as long as they read the same bits of
  `S`. A routine alike itself depends on nothing outside `S`.
- `Routine.Confined R W S` is the discipline of access: only registers of `R` are read and only
  registers of `W` written, every write follows a read of the same register with nothing in between,
  and it puts back what was read except for bits of `S`.

Main statements: `Call.alike_routine` and `Call.confined_routine`. A call depends on the bits of its
region and changes no others.
-/

namespace ClockGating

namespace Routine

variable {α β : Type}

/-! ## Dependence -/

/-- The routines do the same in all that concerns the region, if they read the same of it. -/
inductive Alike (S : Region) : Routine α → Routine α → Prop where
  | done (a : α) : Alike S (.done a) (.done a)
  | read (r : Register) {x y : Word → Routine α}
      (next : ∀ v w, AgreeAt S r v w → Alike S (x v) (y w)) :
      Alike S (.read r x) (.read r y)
  | write (r : Register) {v w : Word} {x y : Routine α} (same : AgreeAt S r v w)
      (next : Alike S x y) : Alike S (.write r v x) (.write r w y)
  | enter {x y : Routine α} (next : Alike S x y) : Alike S (.enter x) (.enter y)
  | leave {x y : Routine α} (next : Alike S x y) : Alike S (.leave x) (.leave y)
  | log (level : LogLevel) (text : String) {x y : Routine α} (next : Alike S x y) :
      Alike S (.log level text x) (.log level text y)

theorem Alike.bind {S : Region} {x y : Routine α} {f g : α → Routine β} (h : Alike S x y)
    (hfg : ∀ a, Alike S (f a) (g a)) : Alike S (x.bind f) (y.bind g) := by
  induction h with
  | done a => exact hfg a
  | read r _ ih => exact .read r ih
  | write r same _ ih => exact .write r same ih
  | enter _ ih => exact .enter ih
  | leave _ ih => exact .leave ih
  | log level text _ ih => exact .log level text ih

/-- Alike routines on files that agree have the same result and leave files that agree. -/
theorem Alike.run {S : Region} {x y : Routine α} (h : Alike S x y) (base : Word)
    {f g : RegisterFile} (hfg : AgreeOn S f g) :
    (x.run base f).result = (y.run base g).result ∧
      AgreeOn S (x.run base f).file (y.run base g).file := by
  induction h generalizing f g with
  | done a => exact ⟨rfl, hfg⟩
  | read r _ ih => exact ih _ _ (hfg r) hfg
  | write r same _ ih => exact ih (hfg.set same)
  | enter _ ih => exact ih hfg
  | leave _ ih => exact ih hfg
  | log level text _ ih => exact ih hfg

/-! ## Discipline -/

/-- The routine reads registers of `R`, writes registers of `W`, and changes bits of `S`, each in a
read-modify-write that nothing separates. -/
inductive Confined (R W : Set Register) (S : Region) : Routine α → Prop where
  | done (a : α) : Confined R W S (.done a)
  | look {r : Register} (hr : r ∈ R) {x : Word → Routine α} (next : ∀ v, Confined R W S (x v)) :
      Confined R W S (.read r x)
  | modify {r : Register} (hr : r ∈ R) (hw : r ∈ W) {f : Word → Word} {x : Word → Routine α}
      (only : ∀ v, AgreeAt Sᶜ r (f v) v) (next : ∀ v, Confined R W S (x v)) :
      Confined R W S (.read r fun v => .write r (f v) (x v))
  | enter {x : Routine α} (next : Confined R W S x) : Confined R W S (.enter x)
  | leave {x : Routine α} (next : Confined R W S x) : Confined R W S (.leave x)
  | log {level : LogLevel} {text : String} {x : Routine α} (next : Confined R W S x) :
      Confined R W S (.log level text x)

theorem Confined.mono {R R' W W' : Set Register} {S S' : Region} (hR : R ⊆ R') (hW : W ⊆ W')
    (hS : S ⊆ S') {x : Routine α} (h : Confined R W S x) : Confined R' W' S' x := by
  induction h with
  | done a => exact .done a
  | look hr _ ih => exact .look (hR hr) ih
  | modify hr hw only _ ih =>
      exact .modify (hR hr) (hW hw) (fun v i hi => only v i fun hin => hi (hS hin)) ih
  | enter _ ih => exact .enter ih
  | leave _ ih => exact .leave ih
  | log _ ih => exact .log ih

theorem Confined.bind {R W : Set Register} {S : Region} {x : Routine α} {f : α → Routine β}
    (h : Confined R W S x) (hf : ∀ a, Confined R W S (f a)) : Confined R W S (x.bind f) := by
  induction h with
  | done a => exact hf a
  | look hr _ ih => exact .look hr ih
  | modify hr hw only _ ih => exact .modify hr hw only ih
  | enter _ ih => exact .enter ih
  | leave _ ih => exact .leave ih
  | log _ ih => exact .log ih

/-- A run of a confined routine leaves all other bits as they are. -/
theorem Confined.run_file {R W : Set Register} {S : Region} {x : Routine α}
    (h : Confined R W S x) (base : Word) (file : RegisterFile) :
    AgreeOn Sᶜ (x.run base file).file file := by
  induction h generalizing file with
  | done a => exact AgreeOn.refl _ file
  | look _ _ ih => exact ih _ file
  | modify _ _ only _ ih => exact (ih _ _).trans (AgreeOn.set_left (only _))
  | enter _ ih => exact ih file
  | leave _ ih => exact ih file
  | log _ ih => exact ih file

end Routine

/-- An event of a confined routine that runs on a file whose bits outside `S` are those of
`file`. -/
def Event.Confined (base : Word) (R W : Set Register) (S : Region) (file : RegisterFile) :
    Event → Prop
  | read a _ => ∃ r ∈ R, a = r.address base
  | write a v => ∃ r ∈ W, a = r.address base ∧ AgreeAt Sᶜ r v (file r)
  | enter | leave | log _ _ => True

theorem Event.Confined.of_agree {base : Word} {R W : Set Register} {S : Region}
    {f g : RegisterFile} (hfg : AgreeOn Sᶜ f g) {e : Event} (h : e.Confined base R W S f) :
    e.Confined base R W S g := by
  cases e with
  | read a v => exact h
  | write a v =>
      obtain ⟨r, hr, ha, hv⟩ := h
      exact ⟨r, hr, ha, hv.trans (hfg r)⟩
  | enter => trivial
  | leave => trivial
  | log level text => trivial

/-- What a confined routine writes agrees, outside its region, with what was there before. -/
theorem Routine.Confined.events {α : Type} {R W : Set Register} {S : Region} {x : Routine α}
    (h : Confined R W S x) (base : Word) (file : RegisterFile) :
    ∀ e ∈ (x.run base file).events, e.Confined base R W S file := by
  induction h generalizing file with
  | done a => exact List.forall_mem_nil _
  | look hr _ ih => exact List.forall_mem_cons.mpr ⟨⟨_, hr, rfl⟩, ih _ file⟩
  | modify hr hw only _ ih =>
      refine List.forall_mem_cons.mpr ⟨⟨_, hr, rfl⟩, List.forall_mem_cons.mpr ⟨?_, ?_⟩⟩
      · exact ⟨_, hw, rfl, only _⟩
      · intro e he
        exact (ih _ _ e he).of_agree (AgreeOn.set_left (only _))
  | enter _ ih => exact List.forall_mem_cons.mpr ⟨trivial, ih file⟩
  | leave _ ih => exact List.forall_mem_cons.mpr ⟨trivial, ih file⟩
  | log _ ih => exact List.forall_mem_cons.mpr ⟨trivial, ih file⟩

/-! ## Modifications -/

namespace Modification

variable {R W : Set Register} {S : Region}

theorem alike_routine (S : Region) (m : Modification) : m.routine.Alike S m.routine := by
  refine .read m.register fun v w hvw => .write m.register (m.agreeAt_apply hvw) ?_
  cases m.settles with
  | true => exact .read m.register fun _ _ _ => .done ()
  | false => exact .done ()

theorem alike_sequence (S : Region) (ms : List Modification) :
    (sequence ms).Alike S (sequence ms) := by
  induction ms with
  | nil => exact .done ()
  | cons m ms ih => exact (m.alike_routine S).bind fun _ => ih

theorem confined_routine {m : Modification} (hR : m.register ∈ R) (hW : m.register ∈ W)
    (hS : MaskIn S m.register m.mask) : m.routine.Confined R W S := by
  refine .modify hR hW (agreeAt_apply_self hS) fun v => ?_
  cases m.settles with
  | true => exact .look hR fun _ => .done ()
  | false => exact .done ()

theorem confined_sequence {ms : List Modification}
    (h : ∀ m ∈ ms, m.register ∈ R ∧ m.register ∈ W ∧ MaskIn S m.register m.mask) :
    (sequence ms).Confined R W S := by
  induction ms with
  | nil => exact .done ()
  | cons m ms ih =>
      obtain ⟨⟨hR, hW, hS⟩, rest⟩ := List.forall_mem_cons.mp h
      exact (confined_routine hR hW hS).bind fun _ => ih rest

end Modification

/-! ## Queries -/

theorem Routine.Asks.alike {α : Type} {observed : List (Register × Word)} {x : Routine α}
    {S : Region} (h : x.Asks observed) (hS : ∀ o ∈ observed, MaskIn S o.1 o.2) : x.Alike S x := by
  induction h with
  | done a => exact .done a
  | look hmem _ ih =>
      refine .read _ fun v w hvw => ?_
      rw [covers_eq_of_agreeAt (hS _ hmem) hvw]
      exact ih _

theorem Routine.Asks.confined {α : Type} {observed : List (Register × Word)} {x : Routine α}
    {R W : Set Register} {S : Region} (h : x.Asks observed) (hR : ∀ o ∈ observed, o.1 ∈ R) :
    x.Confined R W S := by
  induction h with
  | done a => exact .done a
  | look hmem _ ih => exact .look (hR _ hmem) fun v => ih _

/-! ## Calls -/

namespace Call

/-- The registers that a call may read. -/
def registers (c : Call) : Set Register :=
  { r | (∃ a ∈ c.assignments, a.register = r) ∨ ∃ o ∈ c.observed, o.1 = r }

/-- The registers that a call writes. -/
def written (c : Call) : Set Register := { r | ∃ a ∈ c.assignments, a.register = r }

/-- **Dependence.** What a call does to the bits of its region, and what it answers, depends on
those bits alone. -/
theorem alike_routine {c : Call} {S : Region} (hS : c.region ⊆ S) :
    c.routine.Alike S c.routine := by
  cases h : c.isQuery with
  | false =>
      have changes : ((Modification.sequence c.modifications).bind fun _ => c.record).Alike S
          ((Modification.sequence c.modifications).bind fun _ => c.record) := by
        refine (Modification.alike_sequence S _).bind fun _ => ?_
        unfold record
        split
        · exact .log _ _ (.done ())
        · exact .log _ _ (.done ())
        · exact .done ()
      rw [routine_of_mutating h]
      refine Routine.Alike.bind ?_ fun _ => .done _
      cases c with
      | handle p op => exact .enter (changes.bind fun _ => .leave (.done _))
      | gate g op m => exact changes
      | autonomous op m => exact changes
      | bus op s => exact changes
  | true => exact (asks_of_isQuery h).alike fun o ho i hi => hS (maskIn_region_of_observes ho i hi)

/-- **Discipline.** A call changes only bits of its region. -/
theorem confined_routine (c : Call) : c.routine.Confined c.registers c.written c.region := by
  cases h : c.isQuery with
  | false =>
      have changes : ((Modification.sequence c.modifications).bind fun _ => c.record).Confined
          c.registers c.written c.region := by
        refine Routine.Confined.bind (Modification.confined_sequence fun m hm => ?_) fun _ => ?_
        · obtain ⟨a, ha, hr, hmask⟩ := exists_assignment_of_modification hm
          rw [← hr, ← hmask]
          exact ⟨Or.inl ⟨a, ha, rfl⟩, ⟨a, ha, rfl⟩, maskIn_region_of_assigns ha⟩
        · unfold record
          split
          · exact .log (.done ())
          · exact .log (.done ())
          · exact .done ()
      rw [routine_of_mutating h]
      refine Routine.Confined.bind ?_ fun _ => .done _
      cases c with
      | handle p op => exact .enter (changes.bind fun _ => .leave (.done _))
      | gate g op m => exact changes
      | autonomous op m => exact changes
      | bus op s => exact changes
  | true => exact (asks_of_isQuery h).confined fun o ho => Or.inr ⟨o, ho, rfl⟩

/-! ### Programs -/

theorem alike_program {S : Region} {cs : List Call} (h : ∀ c ∈ cs, c.region ⊆ S) :
    (program cs).Alike S (program cs) := by
  induction cs with
  | nil => exact .done []
  | cons c cs ih =>
      obtain ⟨hc, hcs⟩ := List.forall_mem_cons.mp h
      exact (alike_routine hc).bind fun _ => (ih hcs).bind fun _ => .done _

theorem confined_program {W : Set Register} {S : Region} {cs : List Call}
    (hW : ∀ c ∈ cs, c.written ⊆ W) (hS : ∀ c ∈ cs, c.region ⊆ S) :
    (program cs).Confined Set.univ W S := by
  induction cs with
  | nil => exact .done []
  | cons c cs ih =>
      obtain ⟨hWc, hWcs⟩ := List.forall_mem_cons.mp hW
      obtain ⟨hSc, hScs⟩ := List.forall_mem_cons.mp hS
      refine ((confined_routine c).mono (Set.subset_univ _) hWc hSc).bind fun _ => ?_
      exact (ih hWcs hScs).bind fun _ => .done _

end Call

namespace Session

variable {R W : Set Register} {S : Region} {t : Target} {s : State} {request : Request}

/-- A request leaves no other events than those of its call. -/
theorem confined_events_step (bound : s.handles.BoundTo t.base)
    (confined : ∀ c, request.resolve t.device s.held = .ok (.call c) →
      c.routine.Confined R W S) :
    ∀ e ∈ eventsOf (step t s request).1, e.Confined t.base R W S s.file := by
  cases hr : request.resolve t.device s.held with
  | error cause =>
      rw [step_of_resolve_error hr]
      exact List.forall_mem_nil _
  | ok a =>
      rw [step_of_resolve_ok hr]
      cases a with
      | poke r v => exact List.forall_mem_nil _
      | trade => exact List.forall_mem_nil _
      | share => exact List.forall_mem_nil _
      | constrain => exact List.forall_mem_singleton.mpr trivial
      | call c =>
          show ∀ e ∈ ((Action.call c).perform t s).events, _
          rw [Action.perform_call bound]
          exact (confined c hr).events t.base s.file

end Session

end ClockGating
