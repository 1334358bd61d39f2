import ClockGating.Peripheral

/-!
# Masks — sets of peripherals of one group

A mask selects peripherals of a single group. The group is part of the type, so a mask of one group
cannot reach the registers of another. The bits are a plain word: on a given part most words are not
the bits of any set of its peripherals, and `Mask.Valid` says which are.

- `Mask.all` — every peripheral of the group on a part;
- `Mask.ofBits?` and `Mask.truncate` — the two ways from a word to a valid mask;
- `Mask.union`, `|||`, `&&&`, `Mask.contains` — masks as sets;
- `Mask.ofName?` — the masks that have a name.
-/

namespace ClockGating

/-- A set of peripherals of the group `g`, as the bits of its registers. -/
structure Mask (g : Group) where
  bits : Word
deriving DecidableEq

namespace Mask

variable {g : Group}

@[ext] theorem ext {a b : Mask g} (h : a.bits = b.bits) : a = b := by
  cases a
  cases b
  exact congrArg mk h

/-! ## Masks as sets -/

def empty : Mask g := ⟨0⟩

/-- The default mask selects nothing. -/
instance : Inhabited (Mask g) := ⟨empty⟩

def union (a b : Mask g) : Mask g := ⟨a.bits ||| b.bits⟩

/-- The peripherals of either mask. -/
instance : OrOp (Mask g) := ⟨fun a b => ⟨a.bits ||| b.bits⟩⟩

instance : AndOp (Mask g) := ⟨fun a b => ⟨a.bits &&& b.bits⟩⟩

/-- Every peripheral of `b` is also in `a`. -/
def contains (a b : Mask g) : Bool := a.bits &&& b.bits == b.bits

def isEmpty (a : Mask g) : Bool := a.bits == 0

@[simp] theorem bits_empty : (empty : Mask g).bits = 0 := rfl

@[simp] theorem bits_union (a b : Mask g) : (a.union b).bits = a.bits ||| b.bits := rfl

@[simp] theorem bits_or (a b : Mask g) : (a ||| b).bits = a.bits ||| b.bits := rfl

@[simp] theorem bits_and (a b : Mask g) : (a &&& b).bits = a.bits &&& b.bits := rfl

theorem contains_iff {a b : Mask g} :
    a.contains b = true ↔ ∀ k, b.bits.getLsbD k = true → a.bits.getLsbD k = true :=
  Word.covers_iff

/-- Masks are sets: those with the same bits are the same. -/
theorem eq_of_same_bits {a b : Mask g}
    (h : ∀ k, a.bits.getLsbD k = true ↔ b.bits.getLsbD k = true) : a = b :=
  Mask.ext (BitVec.eq_of_getLsbD_eq fun k _ => Bool.eq_iff_iff.mpr (h k))

/-! ## The peripherals of a part -/

def ofBit (i : Fin 32) : Mask g := ⟨Word.single i⟩

@[simp] theorem bits_ofBit (i : Fin 32) : (ofBit i : Mask g).bits = Word.single i := rfl

theorem contains_ofBit (m : Mask g) (i : Fin 32) : m.contains (ofBit i) = m.bits.getLsbD i :=
  Word.covers_single m.bits i

/-- The mask of one peripheral, if it belongs to the group. -/
def ofPeripheral? (p : Peripheral) : Option (Mask g) := (g.bit? p).map ofBit

/-- The constants of a group on a part: one mask for each of its peripherals, by ascending bit. -/
def constants (d : Device) (g : Group) : List (Mask g) := (g.members d).filterMap ofPeripheral?

def unions (masks : List (Mask g)) : Mask g := masks.foldr union empty

/-- Every peripheral of the group on a part. -/
def all (d : Device) : Mask g := unions (constants d g)

/-- A bit is set in a union of masks exactly when it is set in one of them. -/
theorem getLsbD_unions {masks : List (Mask g)} {k : Nat} :
    (unions masks).bits.getLsbD k = true ↔ ∃ m ∈ masks, m.bits.getLsbD k = true := by
  induction masks with
  | nil => simp [unions]
  | cons m masks ih =>
    have step : unions (m :: masks) = m.union (unions masks) := rfl
    simp [step, ih]

/-- The constants are the single bits of the group's peripherals on a part. -/
theorem mem_constants_iff {d : Device} {c : Mask g} :
    c ∈ constants d g ↔ ∃ p, d.carries p = true ∧ ∃ i, g.bit? p = some i ∧ ofBit i = c := by
  simp only [constants, List.mem_filterMap, Group.mem_members_iff, ofPeripheral?,
    Option.map_eq_some_iff]
  constructor
  · rintro ⟨p, ⟨_, carried⟩, i, hi, hc⟩
    exact ⟨p, carried, i, hi, hc⟩
  · rintro ⟨p, carried, i, hi, hc⟩
    exact ⟨p, ⟨by rw [hi]; rfl, carried⟩, i, hi, hc⟩

/-- A bit belongs to a part when one of the group's peripherals on that part has it. -/
theorem getLsbD_all {d : Device} {k : Nat} :
    (all d : Mask g).bits.getLsbD k = true ↔
      ∃ p, d.carries p = true ∧ ∃ i, g.bit? p = some i ∧ k = i.val := by
  rw [all, getLsbD_unions]
  constructor
  · rintro ⟨c, hc, hk⟩
    obtain ⟨p, carried, i, hi, rfl⟩ := mem_constants_iff.mp hc
    exact ⟨p, carried, i, hi, by simpa using hk⟩
  · rintro ⟨p, carried, i, hi, rfl⟩
    exact ⟨ofBit i, mem_constants_iff.mpr ⟨p, carried, i, hi, rfl⟩, by simp⟩

/-- What keeps its clock while the bus of the group is switched off. A group without a bus switch
has no such mask. -/
def alwaysOn? (d : Device) (g : Group) : Option (Mask g) :=
  g.switch?.map fun _ =>
    unions (((g.members d).filter Peripheral.staysClocked).filterMap ofPeripheral?)

/-! ## From words to masks -/

/-- The mask holds nothing but peripherals that the part has. -/
def Valid (d : Device) (m : Mask g) : Prop := (all d).contains m = true

instance (d : Device) (m : Mask g) : Decidable (m.Valid d) := by
  unfold Valid
  infer_instance

/-- The mask with these bits, refused if a bit belongs to no peripheral of the group on the part. -/
def ofBits? (d : Device) (n : Word) : Option (Mask g) :=
  if n &&& ~~~(all d : Mask g).bits = 0 then some ⟨n⟩ else none

/-- The mask with these bits, less those that belong to no peripheral of the group on the part. -/
def truncate (d : Device) (n : Word) : Mask g := ⟨n &&& (all d : Mask g).bits⟩

@[simp] theorem bits_truncate (d : Device) (n : Word) :
    (truncate d n : Mask g).bits = n &&& (all d : Mask g).bits := rfl

theorem valid_iff {d : Device} {m : Mask g} :
    m.Valid d ↔ ∀ k, m.bits.getLsbD k = true → (all d : Mask g).bits.getLsbD k = true :=
  contains_iff

theorem valid_truncate (d : Device) (n : Word) : (truncate d n : Mask g).Valid d := by
  refine valid_iff.mpr fun k hk => ?_
  rw [bits_truncate, BitVec.getLsbD_and, Bool.and_eq_true] at hk
  exact hk.2

/-- A word is accepted exactly when it holds the bits of a valid mask. -/
theorem ofBits?_eq_some_iff {d : Device} {n : Word} {m : Mask g} :
    ofBits? d n = some m ↔ m.bits = n ∧ m.Valid d := by
  have inside : n &&& ~~~(all d : Mask g).bits = 0 ↔ (⟨n⟩ : Mask g).Valid d := by
    rw [valid_iff]
    constructor
    · intro h k hk
      have hbit := congrArg (fun w : Word => w.getLsbD k) h
      have hlt := BitVec.lt_of_getLsbD hk
      simpa [hlt, show n.getLsbD k = true from hk] using hbit
    · intro h
      apply BitVec.eq_of_getLsbD_eq
      intro k _
      cases hk : n.getLsbD k with
      | false => simp [hk]
      | true => simp [hk, h k hk]
  unfold ofBits?
  constructor
  · intro h
    split at h
    · rename_i hn
      cases h
      exact ⟨rfl, inside.mp hn⟩
    · cases h
  · rintro ⟨rfl, hm⟩
    rw [if_pos (inside.mpr hm)]

end Mask

/-! ## Named masks -/

/-- Earlier names of peripherals, still accepted in masks of their group. -/
def Group.aliases : Group → List (String × Peripheral)
  | bus .ahb2Grp1 =>
    [("ADC1", .adc12), ("DCMI", .dcmiPssi), ("PSSI", .dcmiPssi), ("OTG_FS", .usbOtgFs),
      ("OTG_HS", .usbOtgHs)]
  | bus .apb2 => [("USB_FS", .usb)]
  | _ => []

/-- The member of a group on a part that goes by this name, now or earlier. -/
def Group.memberNamed? (g : Group) (d : Device) (s : String) : Option Peripheral :=
  (g.members d).find? fun p => p.name == s || g.aliases.contains (s, p)

/-- The mask of a group on a part that goes by this name: a peripheral, or one of the four that
every group or every bus has. -/
def Mask.ofName? (d : Device) (g : Group) (s : String) : Option (Mask g) :=
  match s with
  | "NONE" => some empty
  | "ALL" => some (all d)
  | "DEFAULT" => some default
  | "ALWAYS_ON" => alwaysOn? d g
  | _ => (g.memberNamed? d s).bind ofPeripheral?

end ClockGating
