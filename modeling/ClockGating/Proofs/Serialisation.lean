import ClockGating.Interleaving
import ClockGating.Proofs.Confinement
import Mathlib.Data.Set.Lattice

/-!
# Serialisation — interleavings that come to the same as taking turns

Contexts run routines on one register file, access by access. If each of them keeps to a region of
its own, what can still go wrong is a modification torn in two: a word is read, another context
writes the register, and the word that is written back undoes that. This file shows that nothing
else can.

- `Pool.Faithful` — the invariant. Every context, left alone from here on, would come to what it
  would have come to alone from the start; and a word that is about to be written agrees with the
  register outside the region of its context.
- `Faithful.advance` — one access preserves it, if no two contexts are about to write one register.
- `eq_inTurn` — so every complete interleaving leaves the registers and gives the results that the
  contexts would when they take turns, in any order.
-/

namespace ClockGating

namespace Pool

variable {ι α : Type} [DecidableEq ι]

/-! ## Single steps -/

/-- What the next step of a context can be. -/
inductive Step (pool : Pool ι α) (i : ι) : Pool ι α → Prop where
  | read {r : Register} {x : Word → Routine α} (here : pool.rest i = .read r x) :
      Step pool i (pool.replace i (x (pool.file r)))
  | write {r : Register} {v : Word} {x : Routine α} (here : pool.rest i = .write r v x) :
      Step pool i { pool.replace i x with file := pool.file.set r v }
  | enter {x : Routine α} (here : pool.rest i = .enter x) (free : pool.inside = none) :
      Step pool i { pool.replace i x with inside := some i }
  | leave {x : Routine α} (here : pool.rest i = .leave x) :
      Step pool i { pool.replace i x with inside := none }
  | log {level : LogLevel} {text : String} {x : Routine α}
      (here : pool.rest i = .log level text x) : Step pool i (pool.replace i x)

theorem step_of_advance {pool next : Pool ι α} {i : ι} (h : pool.advance i = some next) :
    Step pool i next := by
  unfold advance at h
  cases hr : pool.rest i with
  | done a =>
      rw [hr] at h
      cases h
  | read r x =>
      rw [hr] at h
      cases h
      exact .read hr
  | write r v x =>
      rw [hr] at h
      cases h
      exact .write hr
  | enter x =>
      simp only [hr] at h
      split at h
      · rename_i free
        cases h
        exact .enter hr (Option.isNone_iff_eq_none.mp free)
      · cases h
  | leave x =>
      rw [hr] at h
      cases h
      exact .leave hr
  | log level text x =>
      rw [hr] at h
      cases h
      exact .log hr

@[simp] theorem replace_rest_self (pool : Pool ι α) (i : ι) (x : Routine α) :
    (pool.replace i x).rest i = x :=
  if_pos rfl

theorem replace_rest_other (pool : Pool ι α) {i j : ι} (x : Routine α) (h : j ≠ i) :
    (pool.replace i x).rest j = pool.rest j :=
  if_neg h

/-- A step of one context leaves to the others what they have to run. -/
theorem Step.rest_other {pool next : Pool ι α} {i j : ι} (h : Step pool i next) (hne : j ≠ i) :
    next.rest j = pool.rest j := by
  cases h <;> exact replace_rest_other pool _ hne

omit [DecidableEq ι] in
theorem result?_of_done {pool : Pool ι α} {i : ι} {a : α} (h : pool.rest i = .done a) :
    pool.result? i = some a := by
  unfold result?
  rw [h]

/-- Running a context to its end after a step of it is running it to its end before. -/
theorem Step.run_self {pool next : Pool ι α} {i : ι} (h : Step pool i next) (base : Word) :
    ((next.rest i).run base next.file).result = ((pool.rest i).run base pool.file).result ∧
      ((next.rest i).run base next.file).file = ((pool.rest i).run base pool.file).file := by
  have now {x y : Routine α} (hx : pool.rest i = x) (hy : next.rest i = y)
      (same : (y.run base next.file).result = (x.run base pool.file).result ∧
        (y.run base next.file).file = (x.run base pool.file).file) :
      ((next.rest i).run base next.file).result = ((pool.rest i).run base pool.file).result ∧
        ((next.rest i).run base next.file).file = ((pool.rest i).run base pool.file).file := by
    rw [hx, hy]
    exact same
  cases h with
  | read here => exact now here (replace_rest_self _ _ _) ⟨rfl, rfl⟩
  | write here => exact now here (replace_rest_self _ _ _) ⟨rfl, rfl⟩
  | enter here _ => exact now here (replace_rest_self _ _ _) ⟨rfl, rfl⟩
  | leave here => exact now here (replace_rest_self _ _ _) ⟨rfl, rfl⟩
  | log here => exact now here (replace_rest_self _ _ _) ⟨rfl, rfl⟩

/-- Only a write changes registers. -/
theorem Step.file_cases {pool next : Pool ι α} {i : ι} (h : Step pool i next) :
    next.file = pool.file ∨
      ∃ r v x, pool.rest i = .write r v x ∧ next.file = pool.file.set r v := by
  cases h with
  | read here => exact Or.inl rfl
  | write here => exact Or.inr ⟨_, _, _, here, rfl⟩
  | enter here _ => exact Or.inl rfl
  | leave here => exact Or.inl rfl
  | log here => exact Or.inl rfl

/-! ## The invariant -/

/-- What a context has to run is disciplined, or it is in the middle of a modification. The word
that it is about to write then still agrees with the register outside its region. -/
def Ready (W : Set Register) (S : Region) (file : RegisterFile) (x : Routine α) : Prop :=
  x.Confined Set.univ W S ∨
    ∃ r v y, x = .write r v y ∧ r ∈ W ∧ AgreeAt Sᶜ r v (file r) ∧ y.Confined Set.univ W S

theorem Ready.pending {W : Set Register} {S : Region} {file : RegisterFile} {r : Register}
    {v : Word} {x : Routine α} (h : Ready W S file (.write r v x)) :
    r ∈ W ∧ AgreeAt Sᶜ r v (file r) ∧ x.Confined Set.univ W S := by
  rcases h with h | ⟨r', v', y, heq, hw, hv, hy⟩
  · cases h
  · cases heq
    exact ⟨hw, hv, hy⟩

theorem Ready.confined {W : Set Register} {S : Region} {file : RegisterFile} {x : Routine α}
    (h : Ready W S file x) (hx : ∀ r v y, x ≠ .write r v y) : x.Confined Set.univ W S := by
  rcases h with h | ⟨r, v, y, heq, _⟩
  · exact h
  · exact absurd heq (hx r v y)

/-- Two contexts are never about to write one register. -/
def Exclusive (pool : Pool ι α) : Prop :=
  ∀ i j, i ≠ j → ∀ r v x s w y, pool.rest i = .write r v x → pool.rest j = .write s w y → r ≠ s

/-- The pool may have been reached from `start` as if every context had been alone. -/
structure Faithful (base : Word) (W : ι → Set Register) (S : ι → Region)
    (start pool : Pool ι α) : Prop where
  alike : ∀ i, (pool.rest i).Alike (S i) (pool.rest i)
  ready : ∀ i, Ready (W i) (S i) pool.file (pool.rest i)
  result : ∀ i, ((pool.rest i).run base pool.file).result =
    ((start.rest i).run base start.file).result
  file : ∀ i, AgreeOn (S i) ((pool.rest i).run base pool.file).file
    ((start.rest i).run base start.file).file
  unowned : AgreeOn { x | ∀ i, x ∉ S i } pool.file start.file

variable {base : Word} {W : ι → Set Register} {S : ι → Region} {start pool next : Pool ι α}

/-- A step changes only bits of the context that takes it. -/
theorem Faithful.agree_outside (h : Faithful base W S start pool) {i : ι}
    (step : Step pool i next) : AgreeOn (S i)ᶜ next.file pool.file := by
  rcases step.file_cases with same | ⟨r, v, x, here, written⟩
  · rw [same]
    exact AgreeOn.refl _ _
  · have ready := h.ready i
    rw [here] at ready
    rw [written]
    exact AgreeOn.set_left ready.pending.2.1

theorem Faithful.alike_self (h : Faithful base W S start pool) {i : ι} (step : Step pool i next) :
    (next.rest i).Alike (S i) (next.rest i) := by
  have before := h.alike i
  cases step with
  | read here =>
      rw [here] at before
      cases before with
      | read r next =>
          rw [replace_rest_self]
          exact next _ _ (AgreeAt.refl _ _ _)
  | write here =>
      rw [here] at before
      cases before with
      | write r _ next => exact (replace_rest_self pool i _).symm ▸ next
  | enter here _ =>
      rw [here] at before
      cases before with
      | enter next => exact (replace_rest_self pool i _).symm ▸ next
  | leave here =>
      rw [here] at before
      cases before with
      | leave next => exact (replace_rest_self pool i _).symm ▸ next
  | log here =>
      rw [here] at before
      cases before with
      | log level text next => exact (replace_rest_self pool i _).symm ▸ next

theorem Faithful.ready_self (h : Faithful base W S start pool) {i : ι} (step : Step pool i next) :
    Ready (W i) (S i) next.file (next.rest i) := by
  have before := h.ready i
  cases step with
  | read here =>
      rw [here] at before
      rw [replace_rest_self]
      cases before.confined nofun with
      | look _ next => exact Or.inl (next _)
      | modify _ hw only next => exact Or.inr ⟨_, _, _, rfl, hw, only _, next _⟩
  | write here =>
      rw [here] at before
      exact (replace_rest_self pool i _).symm ▸ Or.inl before.pending.2.2
  | enter here _ =>
      rw [here] at before
      cases before.confined nofun with
      | enter next => exact (replace_rest_self pool i _).symm ▸ Or.inl next
  | leave here =>
      rw [here] at before
      cases before.confined nofun with
      | leave next => exact (replace_rest_self pool i _).symm ▸ Or.inl next
  | log here =>
      rw [here] at before
      cases before.confined nofun with
      | log next => exact (replace_rest_self pool i _).symm ▸ Or.inl next

/-- A word that is about to be written stays current while the others move. -/
theorem Faithful.ready_other (h : Faithful base W S start pool) (exclusive : pool.Exclusive)
    {i j : ι} (hne : j ≠ i) (step : Step pool i next) :
    Ready (W j) (S j) next.file (next.rest j) := by
  rw [step.rest_other hne]
  rcases h.ready j with confined | ⟨s, w, y, hereJ, hw, current, confined⟩
  · exact Or.inl confined
  · refine Or.inr ⟨s, w, y, hereJ, hw, ?_, confined⟩
    rcases step.file_cases with same | ⟨r, v, x, hereI, written⟩
    · rw [same]
      exact current
    · have hrs : s ≠ r := exclusive j i hne s w y r v x hereJ hereI
      rw [written, RegisterFile.set_of_ne _ _ hrs]
      exact current

/-- **One step.** -/
theorem Faithful.advance (h : Faithful base W S start pool)
    (disjoint : ∀ i j, i ≠ j → ∀ x, x ∈ S i → x ∉ S j) (exclusive : pool.Exclusive) {i : ι}
    (step : Step pool i next) : Faithful base W S start next := by
  have outside := h.agree_outside step
  -- What the others read and write is not what this step has changed.
  have alone (j : ι) (hne : j ≠ i) : AgreeOn (S j) next.file pool.file :=
    outside.mono fun x hj hi => disjoint i j hne.symm x hi hj
  refine ⟨?_, ?_, ?_, ?_, ?_⟩
  · intro j
    by_cases hne : j = i
    · subst hne
      exact h.alike_self step
    · rw [step.rest_other hne]
      exact h.alike j
  · intro j
    by_cases hne : j = i
    · subst hne
      exact h.ready_self step
    · exact h.ready_other exclusive hne step
  · intro j
    by_cases hne : j = i
    · subst hne
      rw [(step.run_self base).1]
      exact h.result j
    · rw [step.rest_other hne, ((h.alike j).run base (alone j hne)).1]
      exact h.result j
  · intro j
    by_cases hne : j = i
    · subst hne
      rw [(step.run_self base).2]
      exact h.file j
    · rw [step.rest_other hne]
      exact ((h.alike j).run base (alone j hne)).2.trans (h.file j)
  · intro r k hx
    rw [outside r k (hx i)]
    exact h.unowned r k hx

/-- **Whole runs.** An auxiliary invariant `P` supplies that no two contexts are about to write one
register. -/
theorem Faithful.run {P : Pool ι α → Prop} (h : Faithful base W S start pool)
    (disjoint : ∀ i j, i ≠ j → ∀ x, x ∈ S i → x ∉ S j)
    (preserved : ∀ pool next i, P pool → Step pool i next → P next)
    (exclusive : ∀ pool, P pool → Faithful base W S start pool → pool.Exclusive)
    (hP : P pool) {schedule : List ι} {last : Pool ι α} (hrun : pool.run schedule = some last) :
    Faithful base W S start last := by
  induction schedule generalizing pool with
  | nil =>
      cases hrun
      exact h
  | cons i schedule ih =>
      obtain ⟨mid, hadvance, hrest⟩ := Option.bind_eq_some_iff.mp hrun
      have step := step_of_advance hadvance
      exact ih (h.advance disjoint (exclusive pool hP h) step) (preserved _ _ i hP step) hrest

/-! ## Taking turns -/

/-- What contexts come to that take turns: the result of each, and the registers. -/
structure Turns (ι α : Type) where
  result? : ι → Option α
  file : RegisterFile

/-- Contexts one after another, each of them from its beginning to its end. -/
def inTurn (base : Word) (routines : ι → Routine α) : List ι → RegisterFile → Turns ι α
  | [], file => ⟨fun _ => none, file⟩
  | i :: order, file =>
      let first := (routines i).run base file
      let later := inTurn base routines order first.file
      ⟨fun j => if j = i then some first.result else later.result? j, later.file⟩

/-- Contexts that take turns come to what each of them would come to alone. -/
theorem inTurn_alone {routines : ι → Routine α}
    (disjoint : ∀ i j, i ≠ j → ∀ x, x ∈ S i → x ∉ S j)
    (alike : ∀ i, (routines i).Alike (S i) (routines i))
    (confined : ∀ i, (routines i).Confined Set.univ (W i) (S i)) {order : List ι}
    (nodup : order.Nodup) (file : RegisterFile) :
    (∀ i ∈ order, (inTurn base routines order file).result? i =
        some ((routines i).run base file).result ∧
      AgreeOn (S i) (inTurn base routines order file).file ((routines i).run base file).file) ∧
    AgreeOn { x | ∀ i ∈ order, x ∉ S i } (inTurn base routines order file).file file := by
  induction order generalizing file with
  | nil => exact ⟨List.forall_mem_nil _, AgreeOn.refl _ file⟩
  | cons i order ih =>
      obtain ⟨hi, nodup⟩ := List.nodup_cons.mp nodup
      obtain ⟨others, rest⟩ := ih nodup ((routines i).run base file).file
      have outside := (confined i).run_file base file
      refine ⟨List.forall_mem_cons.mpr ⟨⟨if_pos rfl, ?_⟩, ?_⟩, ?_⟩
      · intro r k hx
        refine rest r k fun j hj hxj => ?_
        exact disjoint i j (fun hij => hi (hij ▸ hj)) _ hx hxj
      · intro j hj
        have hne : j ≠ i := fun hji => hi (hji ▸ hj)
        have undisturbed : AgreeOn (S j) ((routines i).run base file).file file :=
          outside.mono fun x hxj hxi => disjoint i j hne.symm x hxi hxj
        obtain ⟨hresult, hfile⟩ := others j hj
        obtain ⟨sameResult, sameFile⟩ := (alike j).run base undisturbed
        constructor
        · show (if j = i then _ else _) = _
          rw [if_neg hne, hresult, sameResult]
        · exact hfile.trans sameFile
      · intro r k hx
        have hrest := rest r k fun j hj => hx j (List.mem_cons_of_mem i hj)
        exact hrest.trans (outside r k (hx i List.mem_cons_self))

/-- **Serialisation.** Contexts with disjoint regions that are never about to write one register
come to the same, however they are interleaved, as when they take turns in any order. -/
theorem eq_inTurn (P : Pool ι α → Prop) {routines : ι → Routine α} {file : RegisterFile}
    (disjoint : ∀ i j, i ≠ j → ∀ x, x ∈ S i → x ∉ S j)
    (alike : ∀ i, (routines i).Alike (S i) (routines i))
    (confined : ∀ i, (routines i).Confined Set.univ (W i) (S i))
    (hP : P (Pool.start file routines))
    (preserved : ∀ pool next i, P pool → Step pool i next → P next)
    (exclusive : ∀ pool, P pool → Faithful base W S (Pool.start file routines) pool →
      pool.Exclusive)
    {schedule : List ι} {final : Pool ι α}
    (completes : (Pool.start file routines).Completes schedule final) {order : List ι}
    (nodup : order.Nodup) (all : ∀ i, i ∉ order → S i = ∅) :
    final.file = (inTurn base routines order file).file ∧
      ∀ i ∈ order, final.result? i = (inTurn base routines order file).result? i := by
  obtain ⟨hrun, finished⟩ := completes
  have initial : Faithful base W S (Pool.start file routines) (Pool.start file routines) :=
    ⟨alike, fun i => Or.inl (confined i), fun _ => rfl, fun _ => AgreeOn.refl _ _,
      AgreeOn.refl _ _⟩
  have last := initial.run disjoint preserved exclusive hP hrun
  obtain ⟨turns, rest⟩ := inTurn_alone disjoint alike confined nodup file
  constructor
  · apply eq_of_agree_everywhere
    intro r k
    by_cases owned : ∃ i, (r, k) ∈ S i
    · obtain ⟨i, hx⟩ := owned
      have hi : i ∈ order := by
        by_contra absent
        rw [all i absent] at hx
        exact hx
      obtain ⟨a, ha⟩ := finished i
      have alone := last.file i
      rw [ha] at alone
      exact (alone r k hx).trans ((turns i hi).2 r k hx).symm
    · have hx : ∀ i, (r, k) ∉ S i := fun i hi => owned ⟨i, hi⟩
      exact (last.unowned r k hx).trans (rest r k fun i _ => hx i).symm
  · intro i hi
    obtain ⟨a, ha⟩ := finished i
    have alone := last.result i
    rw [ha] at alone
    rw [(turns i hi).1, ← show a = ((routines i).run base file).result from alone]
    exact result?_of_done ha

end Pool

end ClockGating
