import ClockGating.Proofs.Naming
import ClockGating.Proofs.Possession

/-!
# Portability — one session on two parts

The parts differ in what they have. What two of them have in common is gated by the same bits of the
same registers and goes by the same names, and so a session that two parts carry out is the same
session on both. A mask can still be different if it leaves it to the part what it selects: that of
everything there is, that of what stays clocked, and a number that is cut down to what there is. A
session that asks for none of these is portable.

- `MaskExpr.eval_portable` — the masks of an expression, by induction on it.
- `Request.resolve_portable` — the actions of a request.
- `Session.stateAfter_portable` — where the two runs of a session stand.

Main statement: `portable_sessions_agree`.
-/

namespace ClockGating

variable {d e : Device} {g : Group}

/-! ## Masks on two parts -/

/-- The expression says itself what it selects. -/
def MaskExpr.IsPortable : MaskExpr → Prop
  | name s => s ≠ "ALL" ∧ s ≠ "ALWAYS_ON"
  | truncate _ => False
  | combine _ left right => left.IsPortable ∧ right.IsPortable
  | bits _ | raw _ | malformed => True

theorem Mask.ofName?_portable {s : String} (portable : s ≠ "ALL" ∧ s ≠ "ALWAYS_ON") {a b : Mask g}
    (ha : ofName? d g s = some a) (hb : ofName? e g s = some b) : a = b := by
  have general : s = "NONE" ∨ s = "DEFAULT" → a = b := by
    rintro (rfl | rfl)
    · exact Option.some.inj (ha.symm.trans hb)
    · exact Option.some.inj (ha.symm.trans hb)
  by_cases none : s = "NONE"
  · exact general (Or.inl none)
  by_cases default : s = "DEFAULT"
  · exact general (Or.inr default)
  -- The name is that of a peripheral, and of the same one on both parts.
  rw [ofName?_eq_memberNamed? ⟨none, portable.1, default, portable.2⟩] at ha hb
  obtain ⟨p, hp, hpa⟩ := Option.bind_eq_some_iff.mp ha
  obtain ⟨q, hq, hqb⟩ := Option.bind_eq_some_iff.mp hb
  have named := (Group.memberNamed?_eq_some_iff.mp hp).2
  rw [named.unique (Group.memberNamed?_eq_some_iff.mp hq).2] at hpa
  exact Option.some.inj (hpa.symm.trans hqb)

/-- **Expressions.** Where a portable expression has a mask on two parts, it has the same. -/
theorem MaskExpr.eval_portable {x : MaskExpr} (portable : x.IsPortable) {a b : Mask g}
    (ha : x.eval d g = .ok (some a)) (hb : x.eval e g = .ok (some b)) : a = b := by
  induction x generalizing a b with
  | name s => exact Mask.ofName?_portable portable (ofName?_of_eval ha) (ofName?_of_eval hb)
  | bits n =>
      have first := (Mask.ofBits?_eq_some_iff.mp (Except.ok.inj ha)).1
      have second := (Mask.ofBits?_eq_some_iff.mp (Except.ok.inj hb)).1
      exact Mask.ext (first.trans second.symm)
  | truncate n => exact portable.elim
  | raw n =>
      cases ha
      cases hb
      rfl
  | combine op left right ihl ihr =>
      obtain ⟨v, w, hv, hw, rfl⟩ := operands_of_eval ha
      obtain ⟨v', w', hv', hw', rfl⟩ := operands_of_eval hb
      rw [ihl portable.1 hv hv', ihr portable.2 hw hw']
  | malformed => cases ha

/-- What a number is cut down to depends on the part. -/
example : (MaskExpr.truncate 0x01400000).eval .u535 (.bus .apb2) ≠
    (MaskExpr.truncate 0x01400000).eval .u5a9 (.bus .apb2) := by
  decide +kernel

/-! ## Requests on two parts -/

/-- The mask of the request, if it has one, is portable. -/
def Request.IsPortable : Request → Prop
  | group _ _ (some x) => x.IsPortable
  | _ => True

/-- A handle goes by the name of its peripheral, whatever part it belongs to. -/
theorem Device.handleNamed?_portable {name : Option String} {p q : Peripheral}
    (hp : name.bind d.handleNamed? = some p) (hq : name.bind e.handleNamed? = some q) : p = q := by
  obtain ⟨s, rfl, hs⟩ := Option.bind_eq_some_iff.mp hp
  exact Peripheral.name_injective ((name_of_handleNamed? hs).trans (name_of_handleNamed? hq).symm)

theorem Request.resolve_portable {held : Ownership} {request : Request} {a b : Action}
    (portable : request.IsPortable) (ha : request.resolve d held = .ok a)
    (hb : request.resolve e held = .ok b) : a = b := by
  have second := resolves_of_resolve hb
  cases resolves_of_resolve ha with
  | poke hr =>
      obtain ⟨hr'⟩ := second
      rw [Option.some.inj (hr.symm.trans hr')]
  | constrain =>
      cases second
      rfl
  | trade _ =>
      cases second
      rfl
  | share _ =>
      cases second
      rfl
  | handle _ hp =>
      cases second with
      | handle _ hq => rw [Device.handleNamed?_portable hp hq]
  | bus _ hg =>
      cases second with
      | bus _ hg' =>
          have same := Option.some.inj (hg.symm.trans hg')
          rw [BusSwitch.group_injective (Group.bus.inj same)]
  | gate _ hg hx =>
      cases second with
      | gate _ hg' hx' =>
          cases Option.some.inj (hg.symm.trans hg')
          rw [MaskExpr.eval_portable portable hx hx']
  | autonomous _ _ hx =>
      cases second with
      | autonomous _ _ hx' => rw [MaskExpr.eval_portable portable hx hx']

/-! ## Sessions on two parts -/

/-- On its way to the registers an action meets the part only in the record of constraining the
block. -/
theorem Action.step_part {a : Action} (h : a ≠ .constrain) (d e : Device) (secure : Bool)
    (s : State) : a.step ⟨d, secure⟩ s = a.step ⟨e, secure⟩ s := by
  cases a with
  | constrain => exact absurd rfl h
  | poke r v => rfl
  | trade => rfl
  | share => rfl
  | call c => rfl

namespace Session

/-- No request of the session is refused. -/
def Succeeds (t : Target) (init : RegisterFile) (requests : List Request) : Prop :=
  ∀ answer ∈ (run t init requests).answers, answer.isOk = true

instance (t : Target) (init : RegisterFile) (requests : List Request) :
    Decidable (Succeeds t init requests) := by
  unfold Succeeds
  infer_instance

theorem resolve_of_succeeds {t : Target} {init : RegisterFile} {requests : List Request}
    (h : Succeeds t init requests) {k : Nat} {request : Request} (hk : requests[k]? = some request) :
    ∃ a, request.resolve t.device (stateAfter t init (requests.take k)).held = .ok a := by
  have granted := h _ (List.mem_of_getElem? (answer_at hk))
  cases hr : request.resolve t.device (stateAfter t init (requests.take k)).held with
  | error cause =>
      rw [step_of_resolve_error hr] at granted
      cases granted
  | ok a => exact ⟨a, rfl⟩

variable {secure : Bool} {init : RegisterFile} {requests : List Request}

theorem step_portable {s : State} {request : Request} {a b : Action}
    (portable : request.IsPortable) (ha : request.resolve d s.held = .ok a)
    (hb : request.resolve e s.held = .ok b) :
    (step ⟨d, secure⟩ s request).2 = (step ⟨e, secure⟩ s request).2 ∧
      (request ≠ .constrain →
        (step ⟨d, secure⟩ s request).1 = (step ⟨e, secure⟩ s request).1) := by
  by_cases h : request = .constrain
  · subst h
    rw [step_constrain, step_constrain]
    exact ⟨rfl, fun hne => absurd rfl hne⟩
  · have hne : a ≠ .constrain := by
      rintro rfl
      cases Request.resolves_of_resolve ha
      exact h rfl
    obtain rfl := Request.resolve_portable portable ha hb
    have onD : step ⟨d, secure⟩ s request = _ := step_of_resolve_ok ha
    have onE : step ⟨e, secure⟩ s request = _ := step_of_resolve_ok hb
    rw [onD, onE, Action.step_part hne d e]
    exact ⟨rfl, fun _ => rfl⟩

/-- **Runs.** The two runs stand at the same point after any number of requests. -/
theorem stateAfter_portable (portable : ∀ request ∈ requests, request.IsPortable)
    (onD : Succeeds ⟨d, secure⟩ init requests) (onE : Succeeds ⟨e, secure⟩ init requests) (k : Nat) :
    stateAfter ⟨d, secure⟩ init (requests.take k) =
      stateAfter ⟨e, secure⟩ init (requests.take k) := by
  induction k with
  | zero => rfl
  | succ k ih =>
      cases hk : requests[k]? with
      | none =>
          rw [List.take_add_one, hk, Option.toList_none, List.append_nil]
          exact ih
      | some request =>
          obtain ⟨a, ha⟩ := resolve_of_succeeds onD hk
          obtain ⟨b, hb⟩ := resolve_of_succeeds onE hk
          rw [← ih] at hb
          rw [stateAfter_take_succ hk, stateAfter_take_succ hk, ← ih]
          exact (step_portable (portable request (List.mem_of_getElem? hk)) ha hb).1

/-- Two runs of a session, on two parts, that are the same but for the name of the part in the
record of constraining the block. -/
structure SameButForPart (d e : Device) (secure : Bool) (init : RegisterFile)
    (requests : List Request) : Prop where
  start : (run ⟨d, secure⟩ init requests).start = [constrainRecord ⟨d, secure⟩] ∧
    (run ⟨e, secure⟩ init requests).start = [constrainRecord ⟨e, secure⟩]
  /-- The same reply, and the same events. -/
  answers : ∀ (k : Nat) request, requests[k]? = some request → request ≠ .constrain →
    (run ⟨d, secure⟩ init requests).answers[k]? = (run ⟨e, secure⟩ init requests).answers[k]?
  records : ∀ k : Nat, requests[k]? = some .constrain →
    (run ⟨d, secure⟩ init requests).answers[k]? =
        some (.ok ⟨.nothing, [constrainRecord ⟨d, secure⟩]⟩) ∧
      (run ⟨e, secure⟩ init requests).answers[k]? =
        some (.ok ⟨.nothing, [constrainRecord ⟨e, secure⟩]⟩)
  file : (run ⟨d, secure⟩ init requests).file = (run ⟨e, secure⟩ init requests).file

end Session

/-- **What two parts can both carry out, they carry out alike.** -/
theorem portable_sessions_agree {d e : Device} {secure : Bool} {init : RegisterFile}
    {requests : List Request} (portable : ∀ request ∈ requests, request.IsPortable)
    (onD : Session.Succeeds ⟨d, secure⟩ init requests)
    (onE : Session.Succeeds ⟨e, secure⟩ init requests) :
    Session.SameButForPart d e secure init requests := by
  have together := Session.stateAfter_portable portable onD onE
  constructor
  case start => exact ⟨rfl, rfl⟩
  case answers =>
    intro k request hk hne
    obtain ⟨a, ha⟩ := Session.resolve_of_succeeds onD hk
    obtain ⟨b, hb⟩ := Session.resolve_of_succeeds onE hk
    rw [← together k] at hb
    rw [Session.answer_at hk, Session.answer_at hk, ← together k,
      (Session.step_portable (portable request (List.mem_of_getElem? hk)) ha hb).2 hne]
  case records =>
    intro k hk
    rw [Session.answer_at hk, Session.answer_at hk, Session.step_constrain, Session.step_constrain]
    exact ⟨rfl, rfl⟩
  case file =>
    have last := together requests.length
    rw [List.take_length] at last
    rw [Session.run_file, Session.run_file, last]

/-- Names of both kinds, numbers of both kinds, and every kind of request. -/
def commonGround : List Request :=
  [.poke (some "AHB2ENR1") (some 0xdeadbeef),
    .group (some (.gate .disableClock)) (some "AHB2GRP1")
      (some (.combine .or (.combine .and (.name "ADC1") (.bits 0x1400)) (.raw 0x80000800))),
    .group (some (.bus .disable)) (some "APB1GRP1") none,
    .share, .handle (some "DAC1") (some (.setLowPower .autonomous)),
    .constrain,
    .group (some (.autonomous .isEnabled)) (some "SRDAMR")
      (some (.combine .union (.name "DEFAULT") (.name "DAC1"))),
    .trade, .handle (some "CRC") (some .isEnabled)]

theorem portable_sessions_agree_commonGround :
    (∀ request ∈ commonGround, request.IsPortable) ∧
      Session.Succeeds ⟨.u535, true⟩ (.filled 7) commonGround ∧
      Session.Succeeds ⟨.u5a9, true⟩ (.filled 7) commonGround ∧
      Session.SameButForPart .u535 .u5a9 true (.filled 7) commonGround ∧
      (Session.run ⟨.u535, true⟩ (.filled 7) commonGround).file (.gate .clock .ahb2Grp1) =
        0x5eadb2ef := by
  have portable : ∀ request ∈ commonGround, request.IsPortable := by
    simp [commonGround, Request.IsPortable, MaskExpr.IsPortable]
  have onSmall : Session.Succeeds ⟨.u535, true⟩ (.filled 7) commonGround := by decide +kernel
  have onLarge : Session.Succeeds ⟨.u5a9, true⟩ (.filled 7) commonGround := by decide +kernel
  exact ⟨portable, onSmall, onLarge, portable_sessions_agree portable onSmall onLarge,
    by decide +kernel⟩

end ClockGating
