import ClockGating.Proofs.Course
import ClockGating.Proofs.Resolution

/-!
# Omission — requests that might as well not have been made

A refusal has no effect, at whatever point the fault was found, and a query has none either. So a
session can be thinned out: any of its refused requests and of its queries may be left out, and
nobody can tell from the rest.

- `leaveOut` — a list without the entries at some positions.
- `Request.Invisible` — a request that was refused, or that only asks.

Main statement: `refusals_and_queries_invisible`.
-/

namespace ClockGating

/-! ## Leaving out -/

/-- The list without the entries at the given positions. -/
def leaveOut {α : Type} (dropped : Nat → Bool) : List α → List α
  | [] => []
  | x :: xs =>
    let rest := leaveOut (fun k => dropped (k + 1)) xs
    if dropped 0 then rest else x :: rest

example : leaveOut (fun k => k % 3 == 1) ["a", "b", "c", "d", "e"] = ["a", "c", "d"] := by decide

section LeaveOut

variable {α : Type} {dropped : Nat → Bool} (x : α) (xs : List α)

theorem leaveOut_cons_of_dropped (h : dropped 0 = true) :
    leaveOut dropped (x :: xs) = leaveOut (fun k => dropped (k + 1)) xs :=
  if_pos h

theorem leaveOut_cons_of_kept (h : dropped 0 = false) :
    leaveOut dropped (x :: xs) = x :: leaveOut (fun k => dropped (k + 1)) xs :=
  if_neg (Bool.eq_false_iff.mp h)

end LeaveOut

/-! ## Requests without effect -/

namespace Request

/-- The request asks and changes nothing. -/
def isQuery : Request → Bool
  | handle _ (some .isEnabled) | handle _ (some .lowPower) => true
  | group (some (.gate .isEnabledClock)) _ _ => true
  | group (some (.gate .isEnabledStopSleepClock)) _ _ => true
  | group (some (.autonomous .isEnabled)) _ _ | group (some (.bus .isEnabled)) _ _ => true
  | _ => false

/-- The request was refused, for whatever cause, or it is a query. -/
def Invisible (request : Request) (answer : Answer) : Prop :=
  request.isQuery = true ∨ ∃ cause, answer = .error cause

instance (request : Request) (answer : Answer) : Decidable (request.Invisible answer) :=
  match answer with
  | .ok _ => decidable_of_iff (request.isQuery = true) (by simp [Invisible])
  | .error cause => isTrue (Or.inr ⟨cause, rfl⟩)

/-- What a query resolves to is a query. -/
theorem isQuery_of_resolve {d : Device} {held : Ownership} {request : Request} {a : Action}
    (query : request.isQuery = true) (h : request.resolve d held = .ok a) :
    ∃ c, a = .call c ∧ c.isQuery = true := by
  cases resolves_of_resolve h with
  | poke _ => cases query
  | constrain => cases query
  | trade _ => cases query
  | share _ => cases query
  | @handle name p op _ _ =>
    have same : (Call.handle p op).isQuery = (handle name (some op)).isQuery := by
      cases op <;> rfl
    exact ⟨_, rfl, same.trans query⟩
  | @bus name mask op s _ _ =>
    have same : (Call.bus op s).isQuery = (group (some (.bus op)) name mask).isQuery := by
      cases op <;> rfl
    exact ⟨_, rfl, same.trans query⟩
  | @gate name g op e m _ _ _ =>
    have same : (Call.gate g op m).isQuery = (group (some (.gate op)) name (some e)).isQuery := by
      cases op <;> rfl
    exact ⟨_, rfl, same.trans query⟩
  | @autonomous name op e m _ _ _ =>
    have same : (Call.autonomous op m).isQuery =
        (group (some (.autonomous op)) name (some e)).isQuery := by
      cases op <;> rfl
    exact ⟨_, rfl, same.trans query⟩

end Request

namespace Session

variable {t : Target} {s : State}

theorem step_of_invisible {request : Request} (h : request.Invisible (step t s request).1) :
    (step t s request).2 = s := by
  cases hr : request.resolve t.device s.held with
  | error cause => rw [step_of_resolve_error hr]
  | ok a =>
    rcases h with query | ⟨cause, refused⟩
    · obtain ⟨c, rfl, hc⟩ := Request.isQuery_of_resolve query hr
      rw [step_of_resolve_ok hr]
      exact congrArg (State.mk s.handles) (Call.run_file_of_isQuery hc _ s.file)
    · rw [step_of_resolve_ok hr] at refused
      cases refused

/-- **Leaving out.** The answers to the other requests are the same, and so is the state in the
end. -/
theorem steps_leaveOut {requests : List Request} {dropped : Nat → Bool}
    (invisible : ∀ k request answer, dropped k = true → requests[k]? = some request →
      (steps t s requests).1[k]? = some answer → request.Invisible answer) :
    steps t s (leaveOut dropped requests) =
      (leaveOut dropped (steps t s requests).1, (steps t s requests).2) := by
  induction requests generalizing s dropped with
  | nil => rfl
  | cons request rest ih =>
    have later := ih (s := (step t s request).2) fun k => invisible (k + 1)
    show _ = (leaveOut dropped ((step t s request).1 :: (steps t (step t s request).2 rest).1),
      (steps t (step t s request).2 rest).2)
    cases h : dropped 0 with
    | true =>
      have unchanged := step_of_invisible (invisible 0 request _ h rfl rfl)
      rw [leaveOut_cons_of_dropped _ _ h, leaveOut_cons_of_dropped _ _ h, ← later, unchanged]
    | false =>
      rw [leaveOut_cons_of_kept _ _ h, leaveOut_cons_of_kept _ _ h]
      show ((step t s request).1 :: (steps t (step t s request).2 _).1,
        (steps t (step t s request).2 _).2) = _
      rw [later]

end Session

/-- **Refusals and queries are invisible.** Any of them may be left out of a session. What is left is
answered as before, access by access, and the registers are the same in the end. -/
theorem refusals_and_queries_invisible (t : Target) (init : RegisterFile) {requests : List Request}
    {dropped : Nat → Bool}
    (invisible : ∀ k request answer, dropped k = true → requests[k]? = some request →
      (Session.run t init requests).answers[k]? = some answer → request.Invisible answer) :
    Session.run t init (leaveOut dropped requests) =
      { Session.run t init requests with
        answers := leaveOut dropped (Session.run t init requests).answers } := by
  let start : State := ⟨.groups t.base, init⟩
  have thinned := Session.steps_leaveOut (s := start) invisible
  show (⟨_, (Session.steps t start (leaveOut dropped requests)).1,
    (Session.steps t start (leaveOut dropped requests)).2.file⟩ : Session.Transcript) = _
  rw [thinned]
  rfl

/-- Every cause of a refusal once, and every query. -/
def idleTalk : List Request :=
  [.handle (some "CRC") (some .isEnabled), .poke (some "SRDAMR") none, .poke none (some 0),
    .group (some (.gate .enableClock)) (some "AHB4") (some (.raw 1)),
    .group (some (.gate .enableClock)) (some "AHB1") (some (.combine .or (.bits 1) (.name "LTDC"))),
    .group (some (.gate .enableClock)) (some "AHB1") (some (.bits 0x10)),
    .group (some (.autonomous .enable)) (some "AHB1") (some (.name "CRC")),
    .share, .handle (some "SRAM1") (some .disable), .handle (some "CRC") (some .isEnabled),
    .handle (some "DAC1") (some .lowPower),
    .group (some (.gate .isEnabledClock)) (some "AHB1") (some (.name "CRC")),
    .group (some (.gate .isEnabledStopSleepClock)) (some "AHB1") (some (.name "ALL")),
    .group (some (.autonomous .isEnabled)) (some "SRDAMR") (some (.name "ADC4")),
    .group (some (.bus .isEnabled)) (some "AHB1") none, .handle (some "CRC") (some .enable), .trade,
    .trade]

theorem refusals_and_queries_invisible_idleTalk :
    let t : Target := ⟨.u535, false⟩
    let dropped (k : Nat) : Bool := !(k == 7 || k == 15 || k == 16)
    (∀ k request answer, dropped k = true → idleTalk[k]? = some request →
      (Session.run t (.filled 5) idleTalk).answers[k]? = some answer →
      request.Invisible answer) ∧
    Session.run t (.filled 5) [.share, .handle (some "CRC") (some .enable), .trade] =
      { Session.run t (.filled 5) idleTalk with
        answers := leaveOut dropped (Session.run t (.filled 5) idleTalk).answers } := by
  intro t dropped
  have invisible : ∀ k request answer, dropped k = true → idleTalk[k]? = some request →
      (Session.run t (.filled 5) idleTalk).answers[k]? = some answer →
      request.Invisible answer := by
    have each : ∀ k < 18, dropped k = true → ∀ request ∈ idleTalk[k]?,
        ∀ answer ∈ (Session.run t (.filled 5) idleTalk).answers[k]?,
        request.Invisible answer := by
      decide +kernel
    intro k request answer hk hrequest hanswer
    have inside : k < 18 := (List.getElem?_eq_some_iff.mp hrequest).1
    exact each k inside hk request hrequest answer hanswer
  exact ⟨invisible, refusals_and_queries_invisible t (.filled 5) invisible⟩

end ClockGating
