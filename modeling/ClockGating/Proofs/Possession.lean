import Mathlib.Data.List.Induction
import ClockGating.Proofs.TradedGroups

/-!
# Possession — which handles are held, and since when

Which handles a program holds can be told from what it was granted since it constrained the block:
the group handles are there until they are traded, and peripheral handles are there as soon as any
have been made. Requests that were refused do not count, and neither does anything before the block
was constrained.

- `Session.sinceConstrained` — what was granted, read off the requests and their answers.
- `Ownership.given` — what a program that was granted this holds.
- `Request.refusal_cases` — a refusal is for want of a handle or for a fault of the request.
- `Session.run_trade_eq_share` — keeping the group handles without using them is the same as trading
  them.

Main statement: `possession_by_history`.
-/

namespace ClockGating

/-! ## What was granted -/

namespace Session

/-- What was requested, with the answers. -/
def record (t : Target) (init : RegisterFile) (requests : List Request) : List (Request × Answer) :=
  requests.zip (run t init requests).answers

/-- The requests that were granted since the block was last constrained, the newest first. -/
def sinceConstrained (record : List (Request × Answer)) : List Request :=
  ((record.filter fun x => x.2.isOk).map Prod.fst).reverse.takeWhile (· ≠ .constrain)

section Record

variable {t : Target} {init : RegisterFile}

theorem record_append_singleton (requests : List Request) (request : Request) :
    record t init (requests ++ [request]) =
      record t init requests ++ [(request, (step t (stateAfter t init requests) request).1)] := by
  have length : requests.length = (run t init requests).answers.length :=
    (length_steps t ⟨.groups t.base, init⟩ requests).symm
  unfold record
  rw [run_append, List.zip_append length]
  rfl

/-- What is on record at some point is what would be on record if the session ended there. -/
theorem record_take (requests : List Request) (k : Nat) :
    (record t init requests).take k = record t init (requests.take k) := by
  have answers : (run t init (requests.take k)).answers = (run t init requests).answers.take k :=
    steps_take t ⟨.groups t.base, init⟩ requests k
  unfold record
  rw [answers, List.zip_eq_zipWith, List.zip_eq_zipWith, List.take_zipWith]

variable (past : List (Request × Answer))

theorem sinceConstrained_of_refused (request : Request) (cause : Refusal) :
    sinceConstrained (past ++ [(request, .error cause)]) = sinceConstrained past := by
  simp [sinceConstrained, Except.toBool]

theorem sinceConstrained_of_constrain (outcome : Outcome) :
    sinceConstrained (past ++ [(.constrain, .ok outcome)]) = [] := by
  simp [sinceConstrained, Except.toBool]

theorem sinceConstrained_of_granted {request : Request} (h : request ≠ .constrain)
    (outcome : Outcome) :
    sinceConstrained (past ++ [(request, .ok outcome)]) = request :: sinceConstrained past := by
  simp [sinceConstrained, Except.toBool, h]

end Record

end Session

/-! ## What is held -/

namespace Ownership

/-- What a program holds that was granted these requests after it constrained the block. -/
def given (granted : List Request) : Ownership :=
  if .trade ∈ granted then .peripherals else if .share ∈ granted then .both else .groups

variable {granted : List Request}

theorem hasGroups_given : (given granted).hasGroups = true ↔ .trade ∉ granted := by
  unfold given
  by_cases traded : .trade ∈ granted
  · simp [traded, hasGroups]
  · by_cases shared : .share ∈ granted <;> simp [traded, shared, hasGroups]

theorem hasPeripherals_given :
    (given granted).hasPeripherals = true ↔ .trade ∈ granted ∨ .share ∈ granted := by
  unfold given
  by_cases traded : .trade ∈ granted
  · simp [traded, hasPeripherals]
  · by_cases shared : .share ∈ granted <;> simp [traded, shared, hasPeripherals]

/-- One more request that is granted. -/
theorem heldAfter_given {d : Device} {request : Request} {a : Action}
    (h : request.Resolves d (given granted) a) (hne : request ≠ .constrain) :
    a.heldAfter (given granted) = given (request :: granted) := by
  cases h with
  | constrain => exact absurd rfl hne
  | trade _ => simp [Action.heldAfter, given]
  | share groups =>
      have untraded := hasGroups_given.mp groups
      simp [Action.heldAfter, given, untraded]
  | _ => simp [Action.heldAfter, given]

end Ownership

/-- **Held is what was granted.** At any point of a session the handles are those that the requests
granted since the block was constrained have given. -/
theorem Session.held_stateAfter (t : Target) (init : RegisterFile) (requests : List Request) :
    (stateAfter t init requests).held =
      Ownership.given (sinceConstrained (record t init requests)) := by
  -- The record grows at its end, so the induction is on what was requested last.
  induction requests using List.reverseRecOn with
  | nil => rfl
  | append_singleton requests request ih =>
      rw [stateAfter_append, record_append_singleton]
      show (step t (stateAfter t init requests) request).2.held = _
      cases hr : request.resolve t.device (stateAfter t init requests).held with
      | error cause => rw [step_of_resolve_error hr, sinceConstrained_of_refused, ih]
      | ok a =>
          rw [step_of_resolve_ok hr, Action.held_step]
          by_cases hc : request = .constrain
          · subst hc
            cases hr
            rw [sinceConstrained_of_constrain]
            rfl
          · rw [ih] at hr ⊢
            rw [sinceConstrained_of_granted _ hc]
            exact Ownership.heldAfter_given (Request.resolves_of_resolve hr) hc

/-! ## Refusals for want of a handle -/

namespace Request

/-- The request takes the group handles, all nine of which are held or none. -/
def NeedsGroups : Request → Prop
  | trade | share | group _ _ _ => True
  | poke _ _ | constrain | handle _ _ => False

def NeedsPeripherals : Request → Prop
  | handle _ _ => True
  | poke _ _ | constrain | trade | share | group _ _ _ => False

variable {d : Device} {held : Ownership} {request : Request}

/-- Every refusal is for want of a handle, or for a fault of the request. -/
theorem refusal_cases {cause : Refusal} (h : request.resolve d held = .error cause) :
    (request.NeedsGroups ∧ held.hasGroups = false ∧ cause = .groupsTraded) ∨
      (request.NeedsPeripherals ∧ held.hasPeripherals = false ∧ cause = .noHandles) ∨
      cause ∈ request.faults := by
  cases request with
  | poke name value => exact Or.inr (Or.inr (mem_faults_of_poke h))
  | constrain => cases h
  | trade | share =>
      rcases guard_eq_error h with ⟨traded, rfl⟩ | ⟨_, h⟩
      · exact Or.inl ⟨trivial, traded, rfl⟩
      · cases h
  | handle name op =>
      rcases guard_eq_error h with ⟨none, rfl⟩ | ⟨_, h⟩
      · exact Or.inr (Or.inl ⟨trivial, none, rfl⟩)
      · exact Or.inr (Or.inr (mem_faults_of_resolveHandle (map_eq_error h)))
  | group op name mask =>
      rcases guard_eq_error h with ⟨traded, rfl⟩ | ⟨_, h⟩
      · exact Or.inl ⟨trivial, traded, rfl⟩
      · exact Or.inr (Or.inr (mem_faults_of_resolveGroup (map_eq_error h)))

theorem groupsTraded_not_mem_faults : .groupsTraded ∉ request.faults := by
  cases request <;> simp [faults, MaskExpr.faults]

theorem noHandles_not_mem_faults : .noHandles ∉ request.faults := by
  cases request <;> simp [faults, MaskExpr.faults]

theorem refused_groupsTraded_iff :
    request.resolve d held = .error .groupsTraded ↔
      request.NeedsGroups ∧ held.hasGroups = false := by
  constructor
  · intro h
    rcases refusal_cases h with ⟨needs, traded, _⟩ | ⟨_, _, hcause⟩ | fault
    · exact ⟨needs, traded⟩
    · cases hcause
    · exact absurd fault groupsTraded_not_mem_faults
  · rintro ⟨needs, traded⟩
    cases request with
    | trade | share | group _ _ _ => simp [resolve, traded]
    | _ => exact needs.elim

theorem refused_noHandles_iff :
    request.resolve d held = .error .noHandles ↔
      request.NeedsPeripherals ∧ held.hasPeripherals = false := by
  constructor
  · intro h
    rcases refusal_cases h with ⟨_, _, hcause⟩ | ⟨needs, none, _⟩ | fault
    · cases hcause
    · exact ⟨needs, none⟩
    · exact absurd fault noHandles_not_mem_faults
  · rintro ⟨needs, none⟩
    cases request with
    | handle _ _ => simp [resolve, none]
    | _ => exact needs.elim

/-- A name that means nothing is noticed only if there are any handles. -/
theorem refused_unknownHandle_iff {name : Option String} {op : Option HandleOp} :
    (handle name op).resolve d held = .error .unknownHandle ↔
      held.hasPeripherals = true ∧ name.bind d.handleNamed? = none := by
  cases h : held.hasPeripherals with
  | false => simp [resolve, h]
  | true =>
      cases hname : name.bind d.handleNamed? with
      | none => simp [resolve, h, resolveHandle, hname, required, bind, Except.bind]
      | some p =>
          cases op <;>
            simp [resolve, h, resolveHandle, hname, required, bind, Except.bind, pure, Except.pure]

end Request

theorem Session.refused_at {t : Target} {init : RegisterFile} {requests : List Request} {k : Nat}
    {request : Request} (h : requests[k]? = some request) (cause : Refusal) :
    (run t init requests).answers[k]? = some (.error cause) ↔
      request.resolve t.device (stateAfter t init (requests.take k)).held = .error cause := by
  rw [answer_at h, Option.some.injEq, step_eq_error_iff]

/-! ## Handing out the handles -/

/-- The request is about the handles as such. -/
def Request.IsLifecycle : Request → Prop
  | constrain | trade | share => True
  | poke _ _ | handle _ _ | group _ _ _ => False

namespace Session

/-- The record that constraining the block leaves. -/
def constrainRecord (t : Target) : Event :=
  .log .debug ("RCC constrained at 0x" ++ Word.hex t.base ++ " (" ++ t.device.partNumber ++ ")")

theorem step_constrain (t : Target) (s : State) :
    step t s .constrain = (.ok ⟨.nothing, [constrainRecord t]⟩, ⟨.groups t.base, s.file⟩) := rfl

/-- Handles change hands without an access to a register, and without a change of one. -/
theorem step_of_lifecycle {request : Request} (h : request.IsLifecycle) (t : Target) (s : State) :
    (∀ e ∈ eventsOf (step t s request).1, e.address? = none) ∧
      (step t s request).2.file = s.file := by
  cases hr : request.resolve t.device s.held with
  | error cause =>
      rw [step_of_resolve_error hr]
      exact ⟨List.forall_mem_nil _, rfl⟩
  | ok a =>
      rw [step_of_resolve_ok hr]
      cases Request.resolves_of_resolve hr with
      | constrain => exact ⟨List.forall_mem_singleton.mpr rfl, rfl⟩
      | trade _ | share _ => exact ⟨List.forall_mem_nil _, rfl⟩
      | _ => exact h.elim

end Session

/-! ## Trading and sharing -/

/-- The request is a use of a peripheral handle, or is not made by the program at all. -/
def Request.LeavesGroups : Request → Prop
  | poke _ _ | handle _ _ => True
  | constrain | trade | share | group _ _ _ => False

namespace Session

/-- The states differ in nothing but that the one still has the group handles. The peripheral
handles of both are for the same block. -/
structure AlikeButGroups (s s' : State) : Prop where
  handles : ∃ groupBase base, s.handles = .both groupBase base ∧ s'.handles = .peripherals base
  file : s.file = s'.file

section Alike

variable {t : Target} {s s' : State}

theorem step_of_alike {request : Request} (alike : AlikeButGroups s s')
    (h : request.LeavesGroups) :
    (step t s request).1 = (step t s' request).1 ∧
      AlikeButGroups (step t s request).2 (step t s' request).2 := by
  obtain ⟨handles, file⟩ := s
  obtain ⟨handles', file'⟩ := s'
  obtain ⟨⟨groupBase, base, rfl, rfl⟩, rfl⟩ := alike
  have same : request.resolve t.device .both = request.resolve t.device .peripherals := by
    cases request with
    | poke _ _ | handle _ _ => rfl
    | _ => exact h.elim
  cases hr : request.resolve t.device .peripherals with
  | error cause =>
      rw [step_of_resolve_error (same.trans hr), step_of_resolve_error hr]
      exact ⟨rfl, ⟨groupBase, base, rfl, rfl⟩, rfl⟩
  | ok a =>
      rw [step_of_resolve_ok (same.trans hr), step_of_resolve_ok hr]
      cases Request.resolves_of_resolve hr with
      | poke _ | handle _ _ => exact ⟨rfl, ⟨groupBase, base, rfl, rfl⟩, rfl⟩
      | _ => exact h.elim

theorem steps_of_alike {requests : List Request} (alike : AlikeButGroups s s')
    (h : ∀ request ∈ requests, request.LeavesGroups) :
    (steps t s requests).1 = (steps t s' requests).1 ∧
      AlikeButGroups (steps t s requests).2 (steps t s' requests).2 := by
  induction requests generalizing s s' with
  | nil => exact ⟨rfl, alike⟩
  | cons request rest ih =>
      obtain ⟨answer, alikeAfter⟩ := step_of_alike (t := t) alike (h request List.mem_cons_self)
      obtain ⟨answers, alikeLast⟩ :=
        ih alikeAfter fun later hmem => h later (List.mem_cons_of_mem _ hmem)
      exact ⟨congrArg₂ List.cons answer answers, alikeLast⟩

/-- Constraining the block makes up for the difference. -/
theorem steps_until_of_alike {requests : List Request} (alike : AlikeButGroups s s')
    (h : ∀ next, requests.head? = some next → next = .constrain) :
    (steps t s requests).1 = (steps t s' requests).1 ∧
      (steps t s requests).2.file = (steps t s' requests).2.file := by
  cases requests with
  | nil => exact ⟨rfl, alike.file⟩
  | cons next rest =>
      obtain rfl := h next rfl
      have same : step t s .constrain = step t s' .constrain := by
        rw [step_constrain, step_constrain, alike.file]
      unfold steps
      rw [same]
      exact ⟨rfl, rfl⟩

variable {between after : List Request}

theorem steps_trade_eq_share (s : State) (unused : ∀ request ∈ between, request.LeavesGroups)
    (renewed : ∀ next, after.head? = some next → next = .constrain) :
    (steps t s (.share :: (between ++ after))).1 = (steps t s (.trade :: (between ++ after))).1 ∧
      (steps t s (.share :: (between ++ after))).2.file =
        (steps t s (.trade :: (between ++ after))).2.file := by
  cases h : s.held.hasGroups with
  | false =>
      -- Both are refused, and nobody can tell one refusal from the other.
      have same : step t s .share = step t s .trade := by
        simp [step, Request.resolve, h]
      unfold steps
      rw [same]
      exact ⟨rfl, rfl⟩
  | true =>
      let base := s.handles.passedOn
      have shared : step t s .share = (.ok ⟨.nothing, []⟩, ⟨.both base base, s.file⟩) :=
        step_of_resolve_ok (a := .share) (by simp [Request.resolve, h])
      have traded : step t s .trade = (.ok ⟨.nothing, []⟩, ⟨.peripherals base, s.file⟩) :=
        step_of_resolve_ok (a := .trade) (by simp [Request.resolve, h])
      have alike : AlikeButGroups ⟨.both base base, s.file⟩ ⟨.peripherals base, s.file⟩ :=
        ⟨⟨base, base, rfl, rfl⟩, rfl⟩
      obtain ⟨early, alikeAfter⟩ := steps_of_alike (t := t) alike unused
      obtain ⟨late, file⟩ := steps_until_of_alike (t := t) alikeAfter renewed
      simp only [steps, shared, traded, steps_append, early, late]
      exact ⟨trivial, file⟩

/-- **Trading and sharing.** If group handles that were kept are not used before the block is
constrained again, they might as well have been given up. -/
theorem run_trade_eq_share (t : Target) (init : RegisterFile) (before : List Request)
    (unused : ∀ request ∈ between, request.LeavesGroups)
    (renewed : ∀ next, after.head? = some next → next = .constrain) :
    run t init (before ++ .trade :: (between ++ after)) =
      run t init (before ++ .share :: (between ++ after)) := by
  obtain ⟨answers, file⟩ :=
    steps_trade_eq_share (t := t) (stateAfter t init before) unused renewed
  rw [run_append, run_append, answers, file]

end Alike

/-! ## The main statement -/

/-- Possession in a session, told from its record. What is held at a position is held before the
request at that position is answered. -/
structure PossessionByHistory (t : Target) (init : RegisterFile) (requests : List Request) :
    Prop where
  hasGroups : ∀ k, (stateAfter t init (requests.take k)).held.hasGroups = true ↔
    .trade ∉ sinceConstrained ((record t init requests).take k)
  hasPeripherals : ∀ k, (stateAfter t init (requests.take k)).held.hasPeripherals = true ↔
    .trade ∈ sinceConstrained ((record t init requests).take k) ∨
      .share ∈ sinceConstrained ((record t init requests).take k)
  groupsTraded : ∀ k request, requests[k]? = some request →
    ((run t init requests).answers[k]? = some (.error .groupsTraded) ↔
      request.NeedsGroups ∧ (stateAfter t init (requests.take k)).held.hasGroups = false)
  noHandles : ∀ k request, requests[k]? = some request →
    ((run t init requests).answers[k]? = some (.error .noHandles) ↔
      request.NeedsPeripherals ∧
        (stateAfter t init (requests.take k)).held.hasPeripherals = false)
  unknownHandle : ∀ k name op, requests[k]? = some (.handle name op) →
    ((run t init requests).answers[k]? = some (.error .unknownHandle) ↔
      (stateAfter t init (requests.take k)).held.hasPeripherals = true ∧
        name.bind t.device.handleNamed? = none)
  /-- A request about the handles as such accesses no register and changes none. -/
  lifecycle : ∀ k request, requests[k]? = some request → request.IsLifecycle →
    (∀ answer ∈ (run t init requests).answers[k]?, ∀ e ∈ eventsOf answer, e.address? = none) ∧
      (stateAfter t init (requests.take (k + 1))).file =
        (stateAfter t init (requests.take k)).file
  constrain : ∀ k : Nat, requests[k]? = some .constrain →
    (run t init requests).answers[k]? = some (.ok ⟨.nothing, [constrainRecord t]⟩)
  start : (run t init requests).start = [constrainRecord t] ∧ (stateAfter t init []).file = init
  /-- Group handles that were kept and not used might as well have been given up. -/
  unused : ∀ before between after, requests = before ++ .share :: (between ++ after) →
    (∀ request ∈ between, request.LeavesGroups) →
    (∀ next, after.head? = some next → next = .constrain) →
    run t init (before ++ .trade :: (between ++ after)) = run t init requests

end Session

/-- **Possession is told from the record.** -/
theorem possession_by_history (t : Target) (init : RegisterFile) (requests : List Request) :
    Session.PossessionByHistory t init requests := by
  have held (k : Nat) : (Session.stateAfter t init (requests.take k)).held =
      Ownership.given (Session.sinceConstrained ((Session.record t init requests).take k)) := by
    rw [Session.record_take, Session.held_stateAfter]
  constructor
  case hasGroups =>
    intro k
    rw [held, Ownership.hasGroups_given]
  case hasPeripherals =>
    intro k
    rw [held, Ownership.hasPeripherals_given]
  case groupsTraded =>
    intro k request h
    rw [Session.refused_at h, Request.refused_groupsTraded_iff]
  case noHandles =>
    intro k request h
    rw [Session.refused_at h, Request.refused_noHandles_iff]
  case unknownHandle =>
    intro k name op h
    rw [Session.refused_at h, Request.refused_unknownHandle_iff]
  case lifecycle =>
    intro k request h about
    obtain ⟨events, file⟩ :=
      Session.step_of_lifecycle about t (Session.stateAfter t init (requests.take k))
    rw [Session.answer_at h, Session.stateAfter_take_succ h]
    refine ⟨?_, file⟩
    intro answer hanswer
    cases hanswer
    exact events
  case constrain =>
    intro k h
    rw [Session.answer_at h, Session.step_constrain]
  case start => exact ⟨rfl, rfl⟩
  case unused =>
    rintro before between after rfl unused renewed
    exact Session.run_trade_eq_share t init before unused renewed

/-- Peripheral handles are made twice before the group handles are traded; the trade cannot be made
again. Then the block is constrained, and the group handles are kept beside peripheral handles until
it is constrained again. -/
theorem possession_by_history_renewed :
    let t : Target := ⟨.u5a9, true⟩
    let stop : Request := .group (some (.bus .disable)) (some "AHB1") none
    let use (op : HandleOp) : Request := .handle (some "CRC") (some op)
    let before : List Request := [use .enable, .share, .share, .trade, .trade, stop, .constrain]
    let between : List Request :=
      [use .enable, .poke (some "AHB1ENR") (some 7), .handle (some "SRAM1") (some .disable),
        use .isEnabled]
    let after : List Request := [.constrain, use .disable, stop]
    let requests := before ++ .share :: (between ++ after)
    Session.run t (.filled 0) (before ++ .trade :: (between ++ after)) =
        Session.run t (.filled 0) requests ∧
      Session.sinceConstrained ((Session.record t (.filled 0) requests).take 6) =
        [.trade, .share, .share] ∧
      ((Session.run t (.filled 0) requests).answers.map fun answer => answer.toOption.isSome) =
        [false, true, true, true, false, false, true, true, true, true, false, true, true, false,
          true] := by
  intro t stop use before between after requests
  have unused : ∀ request ∈ between, request.LeavesGroups := by
    simp [between, use, Request.LeavesGroups]
  have renewed : ∀ next, after.head? = some next → next = .constrain := by
    simp [after]
  have history := possession_by_history t (.filled 0) requests
  exact ⟨history.unused before between after rfl unused renewed, by decide +kernel,
    by decide +kernel⟩

end ClockGating
