import ClockGating.Proofs.Region

/-!
# Resolution — what requests can resolve to

`Request.resolve` checks names, masks and handles one after another. This file turns it around.
`Request.Resolves` lists the actions that requests can resolve to, each with all that was checked on
the way there; `resolves_of_resolve` says that the list is complete. `Request.faults` lists what can
come of a request instead, if the handles that it needs are held.
-/

namespace ClockGating

theorem required_eq_ok {α : Type} {x : Option α} {cause : Refusal} {a : α}
    (h : required x cause = .ok a) : x = some a := by
  cases x with
  | none => cases h
  | some b =>
      cases h
      rfl

theorem bind_eq_ok {α β : Type} {x : Except Refusal α} {f : α → Except Refusal β} {b : β}
    (h : (x >>= f) = .ok b) : ∃ a, x = .ok a ∧ f a = .ok b := by
  cases x with
  | error cause => cases h
  | ok a => exact ⟨a, rfl, h⟩

theorem map_eq_ok {α β : Type} {x : Except Refusal α} {f : α → β} {b : β}
    (h : f <$> x = .ok b) : ∃ a, x = .ok a ∧ f a = b := by
  cases x with
  | error cause => cases h
  | ok a =>
      cases h
      exact ⟨a, rfl, rfl⟩

theorem required_eq_error {α : Type} {x : Option α} {cause cause' : Refusal}
    (h : required x cause = .error cause') : x = none ∧ cause' = cause := by
  cases x with
  | none =>
      cases h
      exact ⟨rfl, rfl⟩
  | some a => cases h

/-- Of a sequence either the first part fails, or it succeeds and the second part fails. -/
theorem bind_eq_error {α β : Type} {x : Except Refusal α} {f : α → Except Refusal β}
    {cause : Refusal} (h : (x >>= f) = .error cause) :
    x = .error cause ∨ ∃ a, x = .ok a ∧ f a = .error cause := by
  cases x with
  | error cause' =>
      cases h
      exact Or.inl rfl
  | ok a => exact Or.inr ⟨a, rfl, h⟩

theorem map_eq_error {α β : Type} {x : Except Refusal α} {f : α → β} {cause : Refusal}
    (h : f <$> x = .error cause) : x = .error cause := by
  cases x with
  | error cause' =>
      cases h
      rfl
  | ok a => cases h

theorem guard_eq_ok {α : Type} {b : Bool} {x : Except Refusal α} {cause : Refusal} {a : α}
    (h : (if b then x else .error cause) = .ok a) : b = true ∧ x = .ok a := by
  cases b with
  | false => cases h
  | true => exact ⟨rfl, h⟩

theorem guard_eq_error {α : Type} {b : Bool} {x : Except Refusal α} {cause cause' : Refusal}
    (h : (if b then x else .error cause) = .error cause') :
    (b = false ∧ cause' = cause) ∨ (b = true ∧ x = .error cause') := by
  cases b with
  | false =>
      cases h
      exact Or.inl ⟨rfl, rfl⟩
  | true => exact Or.inr ⟨rfl, h⟩

/-! ## Mask expressions -/

namespace MaskExpr

variable {d : Device} {g : Group} {m : Mask g}

theorem ofName?_of_eval {s : String} (h : (name s).eval d g = .ok (some m)) :
    Mask.ofName? d g s = some m := by
  obtain ⟨a, ha, hm⟩ := map_eq_ok h
  cases hm
  exact required_eq_ok ha

theorem operands_of_eval {op : MaskOp} {left right : MaskExpr}
    (h : (combine op left right).eval d g = .ok (some m)) :
    ∃ x y, left.eval d g = .ok (some x) ∧ right.eval d g = .ok (some y) ∧ m = op.apply x y := by
  obtain ⟨a, ha, h⟩ := bind_eq_ok h
  obtain ⟨b, hb, h⟩ := bind_eq_ok h
  have both : (a.bind fun x => b.map fun y => op.apply x y) = some m := Except.ok.inj h
  obtain ⟨x, rfl, hx⟩ := Option.bind_eq_some_iff.mp both
  obtain ⟨y, rfl, hy⟩ := Option.map_eq_some_iff.mp hx
  exact ⟨x, y, ha, hb, hy.symm⟩

theorem eval_of_resolve {e : MaskExpr} (h : e.resolve d g = .ok m) :
    e.eval d g = .ok (some m) := by
  obtain ⟨a, ha, h⟩ := bind_eq_ok h
  rw [ha, required_eq_ok h]

/-- What can be wrong with a mask expression. -/
def faults : List Refusal := [.malformed, .unknownPeripheral]

theorem mem_faults_of_eval {e : MaskExpr} {cause : Refusal} (h : e.eval d g = .error cause) :
    cause ∈ faults := by
  induction e with
  | name s =>
      obtain ⟨_, rfl⟩ := required_eq_error (map_eq_error h)
      simp [faults]
  | bits n => cases h
  | truncate n => cases h
  | raw n => cases h
  | combine op left right ihLeft ihRight =>
      rcases bind_eq_error h with hleft | ⟨a, _, h⟩
      · exact ihLeft hleft
      · rcases bind_eq_error h with hright | ⟨b, _, h⟩
        · exact ihRight hright
        · cases h
  | malformed =>
      cases h
      simp [faults]

end MaskExpr

/-! ## Requests -/

theorem Device.drivable_of_handleNamed? {d : Device} {s : String} {p : Peripheral}
    (h : d.handleNamed? s = some p) : d.drivable p = true :=
  (Option.filter_eq_some_iff.mp h).2

namespace Request

/-- The request resolves to the action: a handle that it needs is held, its names mean what the
action is about, and its mask has been evaluated. -/
inductive Resolves (d : Device) (held : Ownership) : Request → Action → Prop where
  | poke {name : Option String} {r : Register} {v : Word}
      (hr : name.bind Register.ofName? = some r) :
      Resolves d held (.poke name (some v)) (.poke r v)
  | constrain : Resolves d held .constrain .constrain
  | trade (groups : held.hasGroups = true) : Resolves d held .trade .trade
  | share (groups : held.hasGroups = true) : Resolves d held .share .share
  | handle {name : Option String} {p : Peripheral} {op : HandleOp}
      (peripherals : held.hasPeripherals = true) (hp : name.bind d.handleNamed? = some p) :
      Resolves d held (.handle name (some op)) (.call (.handle p op))
  | bus {name : Option String} {mask : Option MaskExpr} {op : SwitchOp} {s : BusSwitch}
      (groups : held.hasGroups = true) (hg : name.bind Group.ofName? = some (.bus s.group)) :
      Resolves d held (.group (some (.bus op)) name mask) (.call (.bus op s))
  | gate {name : Option String} {g : BusGroup} {op : GateOp} {e : MaskExpr} {m : Mask (.bus g)}
      (groups : held.hasGroups = true) (hg : name.bind Group.ofName? = some (.bus g))
      (he : e.eval d (.bus g) = .ok (some m)) :
      Resolves d held (.group (some (.gate op)) name (some e)) (.call (.gate g op m))
  | autonomous {name : Option String} {op : SwitchOp} {e : MaskExpr} {m : Mask .smartRun}
      (groups : held.hasGroups = true) (hg : name.bind Group.ofName? = some .smartRun)
      (he : e.eval d .smartRun = .ok (some m)) :
      Resolves d held (.group (some (.autonomous op)) name (some e)) (.call (.autonomous op m))

variable {d : Device} {held : Ownership}

theorem resolves_of_callOn {name : Option String} {g : Group} {op : Option GroupOp}
    {e : MaskExpr} {m : Mask g} {c : Call} (groups : held.hasGroups = true)
    (hg : name.bind Group.ofName? = some g) (he : e.eval d g = .ok (some m))
    (h : callOn g m op = .ok c) : Resolves d held (.group op name (some e)) (.call c) := by
  unfold callOn at h
  split at h
  · cases h
    exact .gate groups hg he
  · cases h
    exact .autonomous groups hg he
  · cases h

theorem resolves_of_resolveGroup {name : Option String} {op : Option GroupOp}
    {mask : Option MaskExpr} {c : Call} (groups : held.hasGroups = true)
    (h : resolveGroup d op name mask = .ok c) :
    Resolves d held (.group op name mask) (.call c) := by
  obtain ⟨g, hname, hcall⟩ := bind_eq_ok h
  clear h
  have hg := required_eq_ok hname
  split at hcall
  · rename_i hswitch
    cases hcall
    exact .bus groups (hg.trans (congrArg some (Group.switch?_eq_some_iff.mp hswitch)))
  · obtain ⟨e, hmask, hcall⟩ := bind_eq_ok hcall
    obtain ⟨m, he, hcall⟩ := bind_eq_ok hcall
    rw [required_eq_ok hmask]
    exact resolves_of_callOn groups hg (MaskExpr.eval_of_resolve he) hcall

theorem resolves_of_resolveHandle {name : Option String} {op : Option HandleOp} {c : Call}
    (peripherals : held.hasPeripherals = true) (h : resolveHandle d name op = .ok c) :
    Resolves d held (.handle name op) (.call c) := by
  obtain ⟨p, hname, h⟩ := bind_eq_ok h
  obtain ⟨o, hop, h⟩ := bind_eq_ok h
  cases h
  rw [required_eq_ok hop]
  exact .handle peripherals (required_eq_ok hname)

/-- Nothing else can come of a request. -/
theorem resolves_of_resolve {request : Request} {a : Action}
    (h : request.resolve d held = .ok a) : Resolves d held request a := by
  cases request with
  | poke name value =>
      obtain ⟨r, hr, h⟩ := bind_eq_ok h
      obtain ⟨v, hv, h⟩ := bind_eq_ok h
      cases h
      rw [required_eq_ok hv]
      exact .poke (required_eq_ok hr)
  | constrain =>
      cases h
      exact .constrain
  | trade =>
      obtain ⟨groups, h⟩ := guard_eq_ok h
      cases h
      exact .trade groups
  | share =>
      obtain ⟨groups, h⟩ := guard_eq_ok h
      cases h
      exact .share groups
  | handle name op =>
      obtain ⟨peripherals, h⟩ := guard_eq_ok h
      obtain ⟨c, hc, rfl⟩ := map_eq_ok h
      exact resolves_of_resolveHandle peripherals hc
  | group op name mask =>
      obtain ⟨groups, h⟩ := guard_eq_ok h
      obtain ⟨c, hc, rfl⟩ := map_eq_ok h
      exact resolves_of_resolveGroup groups hc

/-! ## Refused requests -/

/-- What can be wrong with a request when the handles that it needs are held. -/
def faults : Request → List Refusal
  | poke _ _ => [.unknownRegister, .malformed]
  | constrain | trade | share => []
  | handle _ _ => [.unknownHandle, .malformed]
  | group _ _ _ => .unknownGroup :: .invalidBits :: .unsupported :: MaskExpr.faults

variable {name : Option String} {cause : Refusal}

theorem mem_faults_of_poke {value : Option Word}
    (h : (poke name value).resolve d held = .error cause) : cause ∈ (poke name value).faults := by
  rcases bind_eq_error h with hname | ⟨r, _, h⟩
  · obtain ⟨_, rfl⟩ := required_eq_error hname
    simp [faults]
  rcases bind_eq_error h with hvalue | ⟨v, _, h⟩
  · obtain ⟨_, rfl⟩ := required_eq_error hvalue
    simp [faults]
  · cases h

theorem mem_faults_of_resolveHandle {op : Option HandleOp}
    (h : resolveHandle d name op = .error cause) : cause ∈ (handle name op).faults := by
  rcases bind_eq_error h with hname | ⟨p, _, h⟩
  · obtain ⟨_, rfl⟩ := required_eq_error hname
    simp [faults]
  rcases bind_eq_error h with hop | ⟨o, _, h⟩
  · obtain ⟨_, rfl⟩ := required_eq_error hop
    simp [faults]
  · cases h

theorem unsupported_of_callOn {g : Group} {m : Mask g} {op : Option GroupOp}
    (h : callOn g m op = .error cause) : cause = .unsupported := by
  unfold callOn at h
  split at h
  · cases h
  · cases h
  · cases h
    rfl

theorem mem_faults_of_resolveGroup {op : Option GroupOp} {mask : Option MaskExpr}
    (h : resolveGroup d op name mask = .error cause) : cause ∈ (group op name mask).faults := by
  rcases bind_eq_error h with hname | ⟨g, _, hcall⟩
  · obtain ⟨_, rfl⟩ := required_eq_error hname
    simp [faults]
  clear h
  split at hcall
  · cases hcall
  rcases bind_eq_error hcall with hmask | ⟨e, _, hcall⟩
  · obtain ⟨_, rfl⟩ := required_eq_error hmask
    simp [faults, MaskExpr.faults]
  rcases bind_eq_error hcall with hresolve | ⟨m, _, hcall⟩
  · rcases bind_eq_error hresolve with heval | ⟨a, _, hbits⟩
    · have fault := MaskExpr.mem_faults_of_eval heval
      simp [faults, fault]
    · obtain ⟨_, rfl⟩ := required_eq_error hbits
      simp [faults]
  · rw [unsupported_of_callOn hcall]
    simp [faults]

end Request

end ClockGating
