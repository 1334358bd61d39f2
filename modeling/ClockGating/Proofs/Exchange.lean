import ClockGating.Proofs.Confinement
import ClockGating.Proofs.Course
import ClockGating.Proofs.Naming

/-!
# Exchange — calls that do not notice their order

Two calls may work on the same word and still have nothing to do with each other. This file says
when neighbours in a session can be exchanged, and what follows for sequences of calls that several
owners make, each in an order of its own.

- `Call.Independent` — calls without common bits, and any two queries.
- `Session.Exchangeable` — the session and the session with two neighbours exchanged come to the
  same.
- `steps_of_owner` — if calls of different owners have no common bits, an owner gets the replies
  that it would get alone.

Main statement: `independent_calls_commute`.
-/

namespace ClockGating

/-! ## Two calls -/

namespace Call

/-- Calls that have no bits in common, or that both only ask. -/
def Independent (c d : Call) : Prop := c.Disjoint d ∨ (c.isQuery = true ∧ d.isQuery = true)

theorem Disjoint.symm {c d : Call} (h : c.Disjoint d) : d.Disjoint c :=
  disjoint_iff.mpr fun x hd hc => disjoint_iff.mp h x hc hd

theorem Independent.symm {c d : Call} (h : c.Independent d) : d.Independent c :=
  h.imp Disjoint.symm And.symm

variable {c d : Call} (base : Word) (file : RegisterFile)

/-- A call leaves the bits of another as they are if they have none in common. -/
theorem Disjoint.agree (h : c.Disjoint d) :
    AgreeOn d.region (c.routine.run base file).file file :=
  (c.confined_routine.run_file base file).mono fun x hd hc => disjoint_iff.mp h x hc hd

/-- What another call has done does not show in the reply. -/
theorem Independent.run_result (h : c.Independent d) :
    (d.routine.run base (c.routine.run base file).file).result =
      (d.routine.run base file).result := by
  rcases h with h | ⟨hc, _⟩
  · exact ((alike_routine subset_rfl).run base (h.agree base file)).1
  · rw [run_file_of_isQuery hc]

/-- A call makes the same of its own bits before and after another. -/
theorem Disjoint.agree_exchanged (h : c.Disjoint d) :
    AgreeOn c.region (d.routine.run base (c.routine.run base file).file).file
      (c.routine.run base (d.routine.run base file).file).file := by
  have undisturbed := (alike_routine (subset_refl c.region)).run base (h.symm.agree base file)
  intro r i hi
  rw [undisturbed.2 r i hi]
  exact h.symm.agree base _ r i hi

/-- Two calls leave all other bits as they are. -/
theorem agree_outside (c d : Call) :
    AgreeOn { x | x ∉ c.region ∧ x ∉ d.region }
      (d.routine.run base (c.routine.run base file).file).file file := by
  rintro r i ⟨hc, hd⟩
  rw [d.confined_routine.run_file base _ r i hd]
  exact c.confined_routine.run_file base file r i hc

/-- **Two calls commute.** Every bit is settled by the one call that it belongs to. -/
theorem Independent.run_file (h : c.Independent d) :
    (d.routine.run base (c.routine.run base file).file).file =
      (c.routine.run base (d.routine.run base file).file).file := by
  rcases h with h | ⟨hc, hd⟩
  · apply eq_of_agree_everywhere
    intro r i
    by_cases hic : (r, i) ∈ c.region
    · exact h.agree_exchanged base file r i hic
    · by_cases hid : (r, i) ∈ d.region
      · exact (h.symm.agree_exchanged base file r i hid).symm
      · rw [agree_outside base file c d r i ⟨hic, hid⟩, agree_outside base file d c r i ⟨hid, hic⟩]
  · rw [run_file_of_isQuery hc, run_file_of_isQuery hd, run_file_of_isQuery hc]

end Call

/-! ## Calls without common bits -/

namespace Call

theorem region_bus (op : SwitchOp) (s : BusSwitch) :
    (bus op s).region ⊆ {(.config s.word, s.bit)} :=
  region_bus_subset (maskIn_single rfl)

theorem disjoint_handle {d : Device} {p q : Peripheral} (hp : d.drivable p = true)
    (hq : d.drivable q = true) (hne : p ≠ q) (op op' : HandleOp) :
    (handle p op).Disjoint (handle q op') := by
  refine disjoint_iff.mpr fun x hxp hxq => ?_
  exact Peripheral.disjoint_region (Device.drivable_iff.mp hp).1 (Device.drivable_iff.mp hq).1 hne x
    (Peripheral.region_handle_subset p op hxp) (Peripheral.region_handle_subset q op' hxq)

theorem disjoint_bus {s s' : BusSwitch} (hne : s ≠ s') (op op' : SwitchOp) :
    (bus op s).Disjoint (bus op' s') := by
  refine disjoint_iff.mpr fun x hx hx' => ?_
  obtain ⟨hword, hbit⟩ := Prod.mk.inj ((region_bus op s hx).symm.trans (region_bus op' s' hx'))
  exact hne (BusSwitch.bit_injective (Register.config.inj hword) hbit)

/-- Only the switches of busses are in configuration words. -/
theorem not_config_of_region {c : Call} (hc : ∀ op s, c ≠ bus op s) {w : ConfigWord} {i : Fin 32} :
    (.config w, i) ∉ c.region := by
  have away : c.region ⊆ { x | ∀ w, x.1 ≠ .config w } := by
    cases c with
    | gate g op m => exact region_gate_subset fun b i _ => nofun
    | autonomous op m => exact region_autonomous_subset fun i _ => nofun
    | bus op s => exact absurd rfl (hc op s)
    | handle p op =>
        refine (Peripheral.region_handle_subset p op).trans ?_
        rintro ⟨r, i⟩ hx w rfl
        exact hx
  exact fun hx => away hx w rfl

theorem disjoint_bus_of_peripherals {c : Call} (hc : ∀ op s, c ≠ bus op s) (op : SwitchOp)
    (s : BusSwitch) : (bus op s).Disjoint c := by
  refine disjoint_iff.mpr fun x hx hxc => ?_
  rw [show x = (.config s.word, s.bit) from region_bus op s hx] at hxc
  exact not_config_of_region hc hxc

end Call

namespace Request

variable {d : Device} {held : Ownership} {a b : Call}

/-- Handles with different names are those of different peripherals. -/
theorem disjoint_of_handle {x y : Option String} {op op' : Option HandleOp} (hne : x ≠ y)
    (ha : (handle x op).resolve d held = .ok (.call a))
    (hb : (handle y op').resolve d held = .ok (.call b)) : a.Disjoint b := by
  cases resolves_of_resolve ha with
  | @handle _ p _ _ hp =>
      cases resolves_of_resolve hb with
      | @handle _ q _ _ hq =>
          obtain ⟨name, rfl, hp⟩ := Option.bind_eq_some_iff.mp hp
          obtain ⟨name', rfl, hq⟩ := Option.bind_eq_some_iff.mp hq
          refine Call.disjoint_handle (Device.drivable_of_handleNamed? hp)
            (Device.drivable_of_handleNamed? hq) ?_ _ _
          rintro rfl
          apply hne
          rw [← Device.name_of_handleNamed? hp, ← Device.name_of_handleNamed? hq]

/-- Groups with different names have different busses. -/
theorem disjoint_of_bus {x y : Option String} {op op' : SwitchOp} {m m' : Option MaskExpr}
    (hne : x ≠ y) (ha : (group (some (.bus op)) x m).resolve d held = .ok (.call a))
    (hb : (group (some (.bus op')) y m').resolve d held = .ok (.call b)) : a.Disjoint b := by
  cases resolves_of_resolve ha with
  | @bus _ _ _ s _ hg =>
      cases resolves_of_resolve hb with
      | @bus _ _ _ s' _ hg' =>
          obtain ⟨name, rfl, hg⟩ := Option.bind_eq_some_iff.mp hg
          obtain ⟨name', rfl, hg'⟩ := Option.bind_eq_some_iff.mp hg'
          refine Call.disjoint_bus ?_ _ _
          rintro rfl
          apply hne
          rw [← Group.name_eq_of_ofName? hg, ← Group.name_eq_of_ofName? hg']

end Request

/-! ## Neighbours in a session -/

/-- What an uninterrupted run of a call comes to, apart from the registers. -/
def Call.outcome (c : Call) (base : Word) (file : RegisterFile) : Outcome :=
  ⟨(c.routine.run base file).result, (c.routine.run base file).events⟩

namespace Session

variable {t : Target} {s : State}

/-- A call that is asked for is answered with what a run of it comes to. -/
theorem step_of_call {request : Request} {c : Call}
    (h : request.resolve t.device s.held = .ok (.call c)) :
    step t s request = (.ok (c.outcome (s.handles.base c) s.file),
      ⟨s.handles, (c.routine.run (s.handles.base c) s.file).file⟩) :=
  step_of_resolve_ok h

/-- The session with `x` and `y` side by side and the session with the two exchanged: they get the
same replies, after both of them everything is the same, and so is everything that is answered
before and later, access by access. -/
structure Exchangeable (t : Target) (init : RegisterFile) (before : List Request) (x y : Request)
    (after : List Request) : Prop where
  state : stateAfter t init (before ++ [x, y]) = stateAfter t init (before ++ [y, x])
  start : (run t init (before ++ x :: y :: after)).start =
    (run t init (before ++ y :: x :: after)).start
  answers : ∃ (first later : List Answer) (ox oy ox' oy' : Outcome),
    first.length = before.length ∧
      (run t init (before ++ x :: y :: after)).answers = first ++ .ok ox :: .ok oy :: later ∧
      (run t init (before ++ y :: x :: after)).answers = first ++ .ok oy' :: .ok ox' :: later ∧
      ox'.reply = ox.reply ∧ oy'.reply = oy.reply
  file : (run t init (before ++ x :: y :: after)).file =
    (run t init (before ++ y :: x :: after)).file

/-- What two calls come to, one after the other. -/
theorem steps_pair (bound : s.handles.BoundTo t.base) {x y : Request} {c d : Call}
    (hx : x.resolve t.device s.held = .ok (.call c))
    (hy : y.resolve t.device s.held = .ok (.call d)) :
    let file := (c.routine.run t.base s.file).file
    steps t s [x, y] = ([.ok (c.outcome t.base s.file), .ok (d.outcome t.base file)],
      ⟨s.handles, (d.routine.run t.base file).file⟩) := by
  intro file
  have after : step t ⟨s.handles, file⟩ y = _ := step_of_call hy
  simp only [steps, step_of_call hx, bound c]
  rw [after]
  simp only [bound d]

theorem exchangeable_of_independent {init : RegisterFile} {before after : List Request}
    {x y : Request} {c d : Call}
    (hx : x.resolve t.device (stateAfter t init before).held = .ok (.call c))
    (hy : y.resolve t.device (stateAfter t init (before ++ [x])).held = .ok (.call d))
    (h : c.Independent d) : Exchangeable t init before x y after := by
  let s := stateAfter t init before
  have kept : (stateAfter t init (before ++ [x])).held = s.held := by
    rw [stateAfter_append]
    show (step t s x).2.held = s.held
    rw [step_of_call hx]
    rfl
  rw [kept] at hy
  have bound : s.handles.BoundTo t.base := boundTo_stateAfter t init before
  have xy := steps_pair bound hx hy
  have yx := steps_pair bound hy hx
  have state : (steps t s [x, y]).2 = (steps t s [y, x]).2 := by
    rw [xy, yx]
    exact congrArg (State.mk s.handles) (h.run_file t.base s.file)
  have split (u v : Request) : steps t ⟨.groups t.base, init⟩ (before ++ u :: v :: after) =
      ((steps t ⟨.groups t.base, init⟩ before).1 ++ ((steps t s [u, v]).1 ++
        (steps t (steps t s [u, v]).2 after).1), (steps t (steps t s [u, v]).2 after).2) := by
    rw [steps_append]
    show (_ ++ (steps t s ([u, v] ++ after)).1, (steps t s ([u, v] ++ after)).2) = _
    rw [steps_append]
  constructor
  case state =>
    rw [stateAfter_append, stateAfter_append]
    exact state
  case start => rfl
  case answers =>
    refine ⟨(steps t ⟨.groups t.base, init⟩ before).1, (steps t (steps t s [x, y]).2 after).1,
      c.outcome t.base s.file, d.outcome t.base (c.routine.run t.base s.file).file,
      c.outcome t.base (d.routine.run t.base s.file).file, d.outcome t.base s.file,
      length_steps t _ before, ?_, ?_, ?_⟩
    · show (steps t ⟨.groups t.base, init⟩ _).1 = _
      rw [split, xy]
      rfl
    · show (steps t ⟨.groups t.base, init⟩ _).1 = _
      rw [split, state, yx]
      rfl
    · exact ⟨h.symm.run_result t.base s.file, (h.run_result t.base s.file).symm⟩
  case file =>
    show (steps t ⟨.groups t.base, init⟩ _).2.file = (steps t ⟨.groups t.base, init⟩ _).2.file
    rw [split, split, state]

end Session

/-! ## Sequences of several owners -/

/-- If the request is carried out, then as a call that keeps to a region. -/
def Request.KeepsTo (d : Device) (held : Ownership) (S : Region) (request : Request) : Prop :=
  ∀ a, request.resolve d held = .ok a → ∃ c, a = .call c ∧ c.region ⊆ S

namespace Session

/-- What an answer says, apart from the accesses that were made for it. -/
def replyOf (answer : Answer) : Except Refusal Reply := answer.map Outcome.reply

section Steps

variable {t : Target} {s s' : State} {request : Request} {S : Region}

theorem handles_of_keepsTo (keeps : request.KeepsTo t.device s.held S) :
    (step t s request).2.handles = s.handles := by
  cases hr : request.resolve t.device s.held with
  | error cause => rw [step_of_resolve_error hr]
  | ok a =>
      obtain ⟨c, rfl, _⟩ := keeps a hr
      rw [step_of_call hr]

theorem held_of_keepsTo (keeps : request.KeepsTo t.device s.held S) :
    (step t s request).2.held = s.held :=
  congrArg Handles.ownership (handles_of_keepsTo keeps)

/-- Other bits than those of the region stay as they are. -/
theorem agree_of_keepsTo (keeps : request.KeepsTo t.device s.held S) :
    AgreeOn Sᶜ (step t s request).2.file s.file := by
  cases hr : request.resolve t.device s.held with
  | error cause =>
      rw [step_of_resolve_error hr]
      exact AgreeOn.refl _ _
  | ok a =>
      obtain ⟨c, rfl, inside⟩ := keeps a hr
      rw [step_of_call hr]
      have outside : Sᶜ ⊆ c.regionᶜ := fun x hx hc => hx (inside hc)
      exact (c.confined_routine.run_file _ s.file).mono outside

/-- The request does the same wherever the bits of the region are the same. -/
theorem alike_of_keepsTo (keeps : request.KeepsTo t.device s.held S)
    (handles : s'.handles = s.handles) (agree : AgreeOn S s.file s'.file) :
    replyOf (step t s request).1 = replyOf (step t s' request).1 ∧
      AgreeOn S (step t s request).2.file (step t s' request).2.file := by
  have held : s'.held = s.held := congrArg Handles.ownership handles
  cases hr : request.resolve t.device s.held with
  | error cause =>
      rw [step_of_resolve_error hr, step_of_resolve_error (held ▸ hr)]
      exact ⟨rfl, agree⟩
  | ok a =>
      obtain ⟨c, rfl, inside⟩ := keeps a hr
      rw [step_of_call hr, step_of_call (held ▸ hr), handles]
      obtain ⟨result, file⟩ := (Call.alike_routine inside).run (s.handles.base c) agree
      exact ⟨congrArg Except.ok result, file⟩

end Steps

variable {κ : Type} [DecidableEq κ] (owner : Request → κ)

/-- The requests of one owner. -/
def requestsOf (k : κ) (requests : List Request) : List Request :=
  requests.filter fun request => owner request = k

/-- What one owner is told, request by request. -/
def repliesTo (t : Target) (s : State) (k : κ) (requests : List Request) :
    List (Except Refusal Reply) :=
  ((requests.zip (steps t s requests).1).filter fun x => owner x.1 = k).map fun x => replyOf x.2

variable {owner} {t : Target} {s s' : State} {k : κ} {request : Request} {rest : List Request}

theorem repliesTo_cons_self (h : owner request = k) :
    repliesTo owner t s k (request :: rest) =
      replyOf (step t s request).1 :: repliesTo owner t (step t s request).2 k rest := by
  simp [repliesTo, steps, h]

theorem repliesTo_cons_other (h : owner request ≠ k) :
    repliesTo owner t s k (request :: rest) = repliesTo owner t (step t s request).2 k rest := by
  simp [repliesTo, steps, h]

theorem requestsOf_cons_self (h : owner request = k) :
    requestsOf owner k (request :: rest) = request :: requestsOf owner k rest := by
  simp [requestsOf, h]

theorem requestsOf_cons_other (h : owner request ≠ k) :
    requestsOf owner k (request :: rest) = requestsOf owner k rest := by
  simp [requestsOf, h]

/-- Every owner has a region, and requests keep to the regions of their owners. -/
structure Owned (d : Device) (held : Ownership) (owner : Request → κ) (S : κ → Region)
    (requests : List Request) : Prop where
  keeps : ∀ request ∈ requests, request.KeepsTo d held (S (owner request))
  disjoint : ∀ k k', k ≠ k' → ∀ x, x ∈ S k → x ∉ S k'

variable {S : κ → Region} {requests : List Request}

omit [DecidableEq κ] in
/-- After a request of one owner the others are still to come. -/
theorem Owned.tail (owned : Owned t.device s.held owner S (request :: rest)) :
    Owned t.device (step t s request).2.held owner S rest := by
  rw [held_of_keepsTo (owned.keeps request List.mem_cons_self)]
  exact ⟨fun next hmem => owned.keeps next (List.mem_cons_of_mem _ hmem), owned.disjoint⟩

/-- **One owner among others.** An owner gets the replies that it gets alone, and finds its bits as
it would find them alone. -/
theorem steps_of_owner (owned : Owned t.device s.held owner S requests)
    (handles : s'.handles = s.handles) (agree : AgreeOn (S k) s.file s'.file) :
    repliesTo owner t s k requests = repliesTo owner t s' k (requestsOf owner k requests) ∧
      AgreeOn (S k) (steps t s requests).2.file
        (steps t s' (requestsOf owner k requests)).2.file := by
  induction requests generalizing s s' with
  | nil => exact ⟨rfl, agree⟩
  | cons request rest ih =>
      have keeps := owned.keeps request List.mem_cons_self
      by_cases mine : owner request = k
      · rw [mine] at keeps
        obtain ⟨reply, agreeAfter⟩ := alike_of_keepsTo keeps handles agree
        have held : s'.held = s.held := congrArg Handles.ownership handles
        have handlesAfter : (step t s' request).2.handles = (step t s request).2.handles := by
          rw [handles_of_keepsTo keeps, handles_of_keepsTo (held ▸ keeps), handles]
        obtain ⟨replies, file⟩ := ih owned.tail handlesAfter agreeAfter
        rw [requestsOf_cons_self mine, repliesTo_cons_self mine, repliesTo_cons_self mine, reply,
          replies]
        exact ⟨rfl, file⟩
      · have outside : AgreeOn (S k) (step t s request).2.file s.file :=
          (agree_of_keepsTo keeps).mono fun x hx => owned.disjoint k _ (Ne.symm mine) x hx
        have handlesAfter : s'.handles = (step t s request).2.handles := by
          rw [handles_of_keepsTo keeps, handles]
        rw [requestsOf_cons_other mine, repliesTo_cons_other mine]
        exact ih owned.tail handlesAfter (outside.trans agree)

omit [DecidableEq κ] in
/-- Bits that belong to nobody stay as they are. -/
theorem steps_unowned (owned : Owned t.device s.held owner S requests) :
    (steps t s requests).2.handles = s.handles ∧
      AgreeOn { x | ∀ k, x ∉ S k } (steps t s requests).2.file s.file := by
  induction requests generalizing s with
  | nil => exact ⟨rfl, AgreeOn.refl _ _⟩
  | cons request rest ih =>
      have keeps := owned.keeps request List.mem_cons_self
      obtain ⟨handles, file⟩ := ih owned.tail
      have outside : { x | ∀ k, x ∉ S k } ⊆ (S (owner request))ᶜ := fun x hx => hx (owner request)
      exact ⟨handles.trans (handles_of_keepsTo keeps),
        file.trans ((agree_of_keepsTo keeps).mono outside)⟩

/-- **Merges.** Two ways of merging the same sequences come to the same. -/
theorem steps_merge {xs ys : List Request} (owned : Owned t.device s.held owner S xs)
    (same : ∀ k, requestsOf owner k xs = requestsOf owner k ys) :
    (steps t s xs).2 = (steps t s ys).2 ∧
      ∀ k, repliesTo owner t s k xs = repliesTo owner t s k ys := by
  -- Both merges are made of the same requests, so what is known of the one is known of the other.
  have mem {request : Request} (h : request ∈ ys) : request ∈ xs := by
    have mine : request ∈ requestsOf owner (owner request) ys :=
      List.mem_filter.mpr ⟨h, decide_eq_true rfl⟩
    rw [← same] at mine
    exact (List.mem_filter.mp mine).1
  have owned' : Owned t.device s.held owner S ys :=
    ⟨fun request h => owned.keeps request (mem h), owned.disjoint⟩
  have alone (k : κ) := steps_of_owner (k := k) owned rfl (AgreeOn.refl _ s.file)
  have alone' (k : κ) := steps_of_owner (k := k) owned' rfl (AgreeOn.refl _ s.file)
  obtain ⟨handles, unowned⟩ := steps_unowned owned
  obtain ⟨handles', unowned'⟩ := steps_unowned owned'
  constructor
  · have file : (steps t s xs).2.file = (steps t s ys).2.file := by
      apply eq_of_agree_everywhere
      intro r i
      by_cases h : ∃ k, (r, i) ∈ S k
      · obtain ⟨k, hk⟩ := h
        rw [(alone k).2 r i hk, (alone' k).2 r i hk, same]
      · have nobody : ∀ k, (r, i) ∉ S k := fun k hk => h ⟨k, hk⟩
        rw [unowned r i nobody, unowned' r i nobody]
    calc (steps t s xs).2 = ⟨s.handles, (steps t s xs).2.file⟩ := by rw [← handles]
      _ = ⟨s.handles, (steps t s ys).2.file⟩ := by rw [file]
      _ = (steps t s ys).2 := by rw [← handles']
  · intro k
    rw [(alone k).1, (alone' k).1, same]

/-- The bits that an owner's calls are about, while these handles are held. -/
def regionOf (d : Device) (held : Ownership) (owner : Request → κ) (requests : List Request)
    (k : κ) : Region :=
  { x | ∃ request ∈ requests, owner request = k ∧
    ∃ c, request.resolve d held = .ok (.call c) ∧ x ∈ c.region }

omit [DecidableEq κ] in
theorem owned_of_disjoint {d : Device} {held : Ownership}
    (calls : ∀ x ∈ requests, ∀ a, x.resolve d held = .ok a → ∃ c, a = .call c)
    (disjoint : ∀ x ∈ requests, ∀ y ∈ requests, owner x ≠ owner y → ∀ a b,
      x.resolve d held = .ok (.call a) → y.resolve d held = .ok (.call b) → a.Disjoint b) :
    Owned d held owner (regionOf d held owner requests) requests := by
  constructor
  case keeps =>
    intro request hmem a hr
    obtain ⟨c, rfl⟩ := calls request hmem a hr
    exact ⟨c, rfl, fun x hx => ⟨request, hmem, rfl, c, hr, hx⟩⟩
  case disjoint =>
    rintro k k' hne p ⟨x, hx, rfl, a, ha, hpa⟩ ⟨y, hy, rfl, b, hb, hpb⟩
    exact Call.disjoint_iff.mp (disjoint x hx y hy hne a b ha hb) p hpa hpb

theorem merges_of_disjoint {init : RegisterFile} {before xs ys : List Request}
    (calls : ∀ x ∈ xs, ∀ a, x.resolve t.device (stateAfter t init before).held = .ok a →
      ∃ c, a = .call c)
    (disjoint : ∀ x ∈ xs, ∀ y ∈ xs, owner x ≠ owner y → ∀ a b,
      x.resolve t.device (stateAfter t init before).held = .ok (.call a) →
      y.resolve t.device (stateAfter t init before).held = .ok (.call b) → a.Disjoint b)
    (same : ∀ k, requestsOf owner k xs = requestsOf owner k ys) :
    stateAfter t init (before ++ xs) = stateAfter t init (before ++ ys) ∧
      ∀ k, repliesTo owner t (stateAfter t init before) k xs =
        repliesTo owner t (stateAfter t init before) k ys := by
  obtain ⟨state, replies⟩ := steps_merge (owned_of_disjoint calls disjoint) same
  refine ⟨?_, replies⟩
  rw [stateAfter_append, stateAfter_append]
  exact state

end Session

/-! ## The main statement -/

/-- The name of the peripheral whose handle is used. -/
def Request.handleName : Request → Option String
  | handle name _ => name
  | _ => none

/-- What is independent commutes. Neighbours can be exchanged in every session; handles with
different names, different busses, and busses and peripherals have nothing in common; and where the
calls of different owners have nothing in common, only the order of each owner's calls matters. -/
structure Session.CallsCommute (t : Target) (init : RegisterFile) : Prop where
  exchange : ∀ (before : List Request) (x y : Request) (after : List Request) (a b : Call),
    x.resolve t.device (stateAfter t init before).held = .ok (.call a) →
    y.resolve t.device (stateAfter t init (before ++ [x])).held = .ok (.call b) →
    a.Independent b → Exchangeable t init before x y after
  /-- Handles with different names, and whatever is done with them. -/
  handles : ∀ (held : Ownership) (x y : Option String) (op op' : Option HandleOp) (a b : Call),
    x ≠ y → (Request.handle x op).resolve t.device held = .ok (.call a) →
    (Request.handle y op').resolve t.device held = .ok (.call b) → a.Disjoint b
  busses : ∀ (held : Ownership) (x y : Option String) (op op' : SwitchOp) (m m' : Option MaskExpr)
    (a b : Call), x ≠ y →
    (Request.group (some (.bus op)) x m).resolve t.device held = .ok (.call a) →
    (Request.group (some (.bus op')) y m').resolve t.device held = .ok (.call b) → a.Disjoint b
  bus_peripherals : ∀ (op : SwitchOp) (s : BusSwitch) (c : Call), (∀ op' s', c ≠ .bus op' s') →
    (Call.bus op s).Disjoint c
  /-- Sequences of calls that several owners make. Owners can be anything, as long as their calls have
  nothing in common. -/
  merges : ∀ (κ : Type) [DecidableEq κ] (owner : Request → κ) (before xs ys : List Request),
    let s := stateAfter t init before
    (∀ x ∈ xs, ∀ a, x.resolve t.device s.held = .ok a → ∃ c, a = .call c) →
    (∀ x ∈ xs, ∀ y ∈ xs, owner x ≠ owner y → ∀ a b,
      x.resolve t.device s.held = .ok (.call a) → y.resolve t.device s.held = .ok (.call b) →
        a.Disjoint b) →
    (∀ k, requestsOf owner k xs = requestsOf owner k ys) →
    stateAfter t init (before ++ xs) = stateAfter t init (before ++ ys) ∧
      ∀ k, repliesTo owner t s k xs = repliesTo owner t s k ys
  /-- In particular, sequences of calls on several handles. -/
  handle_merges : ∀ before xs ys : List Request,
    (∀ x ∈ xs, ∃ name op, x = .handle name op) →
    (∀ name, requestsOf Request.handleName name xs = requestsOf Request.handleName name ys) →
    stateAfter t init (before ++ xs) = stateAfter t init (before ++ ys) ∧
      ∀ name, repliesTo Request.handleName t (stateAfter t init before) name xs =
        repliesTo Request.handleName t (stateAfter t init before) name ys

/-- **Independent calls commute.** -/
theorem independent_calls_commute (t : Target) (init : RegisterFile) :
    Session.CallsCommute t init := by
  constructor
  case exchange =>
    intro before x y after a b hx hy independent
    exact Session.exchangeable_of_independent hx hy independent
  case handles =>
    intro held x y op op' a b hne ha hb
    exact Request.disjoint_of_handle hne ha hb
  case busses =>
    intro held x y op op' m m' a b hne ha hb
    exact Request.disjoint_of_bus hne ha hb
  case bus_peripherals =>
    intro op s c hc
    exact Call.disjoint_bus_of_peripherals hc op s
  case merges =>
    intro κ _ owner before xs ys s calls disjoint same
    exact Session.merges_of_disjoint calls disjoint same
  case handle_merges =>
    intro before xs ys handles same
    refine Session.merges_of_disjoint ?_ ?_ same
    · intro x hx a hr
      obtain ⟨name, op, rfl⟩ := handles x hx
      cases Request.resolves_of_resolve hr with
      | handle _ _ => exact ⟨_, rfl⟩
    · intro x hx y hy hne a b ha hb
      obtain ⟨name, op, rfl⟩ := handles x hx
      obtain ⟨name', op', rfl⟩ := handles y hy
      exact Request.disjoint_of_handle hne ha hb

/-- Setting the mode of one peripheral and asking for that of another, in the same two words; then
stopping two busses, with one word. -/
theorem independent_calls_commute_shared_words :
    let t : Target := ⟨.u585, true⟩
    let setMode : Request := .handle (some "LPUART1") (some (.setLowPower .autonomous))
    let askMode : Request := .handle (some "SPI3") (some .lowPower)
    let stop (bus : String) : Request := .group (some (.bus .disable)) (some bus) none
    Session.Exchangeable t (.filled 0x20) [.share] setMode askMode [stop "AHB1", stop "APB2"] ∧
      Session.Exchangeable t (.filled 0x20) [.share, setMode, askMode] (stop "AHB1") (stop "APB2")
        [] ∧
      (Session.run t (.filled 0x20) [.share, setMode, askMode, stop "AHB1", stop "APB2"]).file
        (.config .cfgr2) = 0x00110020 := by
  intro t setMode askMode stop
  have commute := independent_calls_commute t (.filled 0x20)
  have setResolved : setMode.resolve .u585 .both =
      .ok (.call (.handle .lpuart1 (.setLowPower .autonomous))) := by decide +kernel
  have askResolved : askMode.resolve .u585 .both = .ok (.call (.handle .spi3 .lowPower)) := by
    decide +kernel
  have first : (stop "AHB1").resolve .u585 .both = .ok (.call (.bus .disable .ahb1)) := by
    decide +kernel
  have second : (stop "APB2").resolve .u585 .both = .ok (.call (.bus .disable .apb2)) := by
    decide +kernel
  have names : some "LPUART1" ≠ some "SPI3" := by decide
  have busNames : some "AHB1" ≠ some "APB2" := by decide
  refine ⟨?_, ?_, by decide +kernel⟩
  · exact commute.exchange _ _ _ _ _ _ setResolved askResolved
      (.inl (commute.handles .both _ _ _ _ _ _ names setResolved askResolved))
  · exact commute.exchange _ _ _ _ _ _ first second
      (.inl (commute.busses .both _ _ _ _ none none _ _ busNames first second))

end ClockGating
