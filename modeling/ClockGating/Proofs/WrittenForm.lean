import ClockGating.Mask.Text
import ClockGating.Proofs.Naming

/-!
# The written form — masks told from their texts

The text of a mask shows which bits it has, and nothing is lost: the same bit may be a name on one
part and a digit of the number on another, but two texts are the same only if they are of the same
bits of the same group. To see this a text is taken apart from the left. No name and no number has a
space in it, so the items end where the separators begin; and a number begins with a digit, which no
name does.

- `eq_of_intercalate_eq` — joined words are told apart again.
- `Mask.eq_of_text_eq` — the group and the items of a text.
- `Mask.getLsbD_bits_iff` — the bits of a mask, from its items.

Main statement: `text_identifies_mask`.
-/

namespace ClockGating

/-! ## Taking texts apart -/

section Joining

variable {c : Char} {s : List Char}

/-- Where a character occurs for the first time, a text can be cut in one way only. -/
theorem eq_of_cut_eq {u v x y : List Char} (hu : c ∉ u) (hv : c ∉ v)
    (h : u ++ c :: x = v ++ c :: y) : u = v ∧ x = y := by
  induction u generalizing v with
  | nil =>
      cases v with
      | nil => exact ⟨rfl, (List.cons.inj h).2⟩
      | cons b v => exact absurd ((List.cons.inj h).1 ▸ List.mem_cons_self) hv
  | cons a u ih =>
      cases v with
      | nil => exact absurd ((List.cons.inj h).1 ▸ List.mem_cons_self) hu
      | cons b v =>
          obtain ⟨rfl, rest⟩ := List.cons.inj h
          obtain ⟨rfl, rfl⟩ := ih (List.not_mem_of_not_mem_cons hu)
            (List.not_mem_of_not_mem_cons hv) rest
          exact ⟨rfl, rfl⟩

/-- The words have something in them, but not the character with which separators begin. -/
def AreWords (c : Char) (words : List (List Char)) : Prop := ∀ w ∈ words, w ≠ [] ∧ c ∉ w

theorem AreWords.tail {w : List Char} {rest : List (List Char)} (h : AreWords c (w :: rest)) :
    AreWords c rest :=
  fun x hx => h x (List.mem_cons_of_mem w hx)

theorem intercalate_cons_cons_eq (w x : List Char) (rest : List (List Char)) :
    (c :: s).intercalate (w :: x :: rest) = w ++ c :: (s ++ (c :: s).intercalate (x :: rest)) := by
  rw [List.intercalate_cons_cons, List.append_assoc, List.cons_append]

theorem intercalate_ne_nil {w : List Char} {rest : List (List Char)} (h : AreWords c (w :: rest)) :
    (c :: s).intercalate (w :: rest) ≠ [] := by
  cases rest with
  | nil =>
      rw [List.intercalate_singleton]
      exact (h w List.mem_cons_self).1
  | cons x rest =>
      rw [intercalate_cons_cons_eq]
      exact List.append_ne_nil_of_right_ne_nil w (List.cons_ne_nil _ _)

/-- A word is not two words joined. -/
theorem ne_intercalate_cons_cons {w : List Char} (h : c ∉ w) (x y : List Char)
    (rest : List (List Char)) : w ≠ (c :: s).intercalate (x :: y :: rest) := by
  rintro rfl
  rw [intercalate_cons_cons_eq] at h
  exact h (List.mem_append_right x List.mem_cons_self)

/-- **Words that were joined** are told apart again, if separators begin with a character that is in
no word. -/
theorem eq_of_intercalate_eq {words words' : List (List Char)} (h : AreWords c words)
    (h' : AreWords c words') (same : (c :: s).intercalate words = (c :: s).intercalate words') :
    words = words' := by
  induction words generalizing words' with
  | nil =>
      cases words' with
      | nil => rfl
      | cons w' rest' => exact absurd same.symm (intercalate_ne_nil h')
  | cons w rest ih =>
      have word := (h w List.mem_cons_self).2
      cases words' with
      | nil => exact absurd same (intercalate_ne_nil h)
      | cons w' rest' =>
          have word' := (h' w' List.mem_cons_self).2
          match rest, rest' with
          | [], [] => simpa using same
          | [], x' :: rest' =>
              rw [List.intercalate_singleton] at same
              exact absurd same (ne_intercalate_cons_cons word w' x' rest')
          | x :: rest, [] =>
              rw [List.intercalate_singleton] at same
              exact absurd same.symm (ne_intercalate_cons_cons word' w x rest)
          | x :: rest, x' :: rest' =>
              rw [intercalate_cons_cons_eq, intercalate_cons_cons_eq] at same
              obtain ⟨rfl, later⟩ := eq_of_cut_eq word word' same
              rw [ih h.tail h'.tail (List.append_cancel_left later)]

end Joining

/-! ## Names and numbers -/

theorem Peripheral.isWord_name (p : Peripheral) : p.name.toList ≠ [] ∧ ' ' ∉ p.name.toList := by
  have words : ∀ p ∈ all, p.name.toList ≠ [] ∧ ' ' ∉ p.name.toList := by decide +kernel
  exact words p (mem_all p)

/-- The name of a peripheral does not look like a number. -/
theorem Peripheral.name_ne_number (p : Peripheral) (w : Word) : p.name ≠ "0x" ++ Word.hex w := by
  have letter : ∀ p ∈ all, p.name.toList.head? ≠ some '0' := by decide +kernel
  intro h
  apply letter p (mem_all p)
  rw [h, String.toList_append]
  rfl

theorem Word.isWord_number (w : Word) :
    ("0x" ++ hex w).toList ≠ [] ∧ ' ' ∉ ("0x" ++ hex w).toList := by
  have digits : ' ' ∉ (hex w).toList := by
    rw [hex, String.toList_ofList]
    intro h
    have space := mem_hexDigits h
    revert space
    decide +kernel
  rw [String.toList_append]
  exact ⟨List.cons_ne_nil _ _, by simpa using digits⟩

theorem Group.maskName_injective {g h : Group} (same : g.maskName = h.maskName) : g = h := by
  have distinct : ∀ g ∈ all, ∀ h ∈ all, g.maskName = h.maskName → g = h := by decide +kernel
  exact distinct g (mem_all g) h (mem_all h) same

theorem Group.paren_notMem_maskName (g : Group) : '(' ∉ g.maskName.toList := by
  have letters : ∀ g ∈ all, '(' ∉ g.maskName.toList := by decide +kernel
  exact letters g (mem_all g)

/-! ## Items -/

namespace Mask

variable {d e : Device} {g h : Group}

theorem areWords_items (m : Mask g) : AreWords ' ' ((items d m).map String.toList) := by
  intro w hw
  obtain ⟨item, hitem, rfl⟩ := List.mem_map.mp hw
  rcases List.mem_append.mp hitem with named | number
  · obtain ⟨p, _, rfl⟩ := List.mem_map.mp named
    exact p.isWord_name
  · split at number
    · cases number
    · rw [List.mem_singleton.mp number]
      exact Word.isWord_number _

theorem toList_text (m : Mask g) :
    (text d m).toList = g.maskName.toList ++ '(' ::
      ([' ', '|', ' '].intercalate ((items d m).map String.toList) ++ [')']) := by
  simp [text, String.toList_append, String.toList_intercalate]

/-- **Texts.** A text shows the group and the items. -/
theorem eq_of_text_eq {m : Mask g} {n : Mask h} (same : text d m = text e n) :
    g = h ∧ items d m = items e n := by
  have chars := congrArg String.toList same
  rw [toList_text, toList_text] at chars
  obtain ⟨names, body⟩ := eq_of_cut_eq g.paren_notMem_maskName h.paren_notMem_maskName chars
  have joined := List.append_cancel_right body
  have items := eq_of_intercalate_eq (areWords_items m) (areWords_items n) joined
  exact ⟨Group.maskName_injective (String.toList_injective names),
    (List.map_inj_right fun _ _ chars => String.toList_injective chars).mp items⟩

theorem mem_selected_iff {m : Mask g} {p : Peripheral} :
    p ∈ selected d m ↔
      d.carries p = true ∧ ∃ i, g.bit? p = some i ∧ m.bits.getLsbD i = true := by
  rw [selected, List.mem_filter, Group.mem_members_iff]
  constructor
  · rintro ⟨⟨_, carried⟩, hbit⟩
    cases hi : g.bit? p with
    | none =>
        rw [hi] at hbit
        cases hbit
    | some i =>
        rw [hi] at hbit
        exact ⟨carried, i, rfl, hbit⟩
  · rintro ⟨carried, i, hi, hbit⟩
    rw [hi]
    exact ⟨⟨rfl, carried⟩, hbit⟩

theorem getLsbD_unknown_iff {m : Mask g} {k : Nat} :
    (unknown d m).getLsbD k = true ↔
      m.bits.getLsbD k = true ∧ (all d : Mask g).bits.getLsbD k = false := by
  rw [unknown, BitVec.getLsbD_and, Bool.and_eq_true, BitVec.getLsbD_not, Bool.and_eq_true]
  constructor
  · rintro ⟨hm, _, hall⟩
    exact ⟨hm, by simpa using hall⟩
  · rintro ⟨hm, hall⟩
    exact ⟨hm, by simpa using BitVec.lt_of_getLsbD hm, by rw [hall]; rfl⟩

/-- **Items.** A mask has the bits of the peripherals among its items and those of the number. -/
theorem getLsbD_bits_iff (d : Device) (m : Mask g) {k : Nat} :
    m.bits.getLsbD k = true ↔
      (∃ p ∈ selected d m, ∃ i, g.bit? p = some i ∧ k = i.val) ∨
        (unknown d m).getLsbD k = true := by
  constructor
  · intro hm
    cases hall : (all d : Mask g).bits.getLsbD k with
    | false => exact Or.inr (getLsbD_unknown_iff.mpr ⟨hm, hall⟩)
    | true =>
        obtain ⟨p, carried, i, hi, rfl⟩ := getLsbD_all.mp hall
        exact Or.inl ⟨p, mem_selected_iff.mpr ⟨carried, i, hi, hm⟩, i, hi, rfl⟩
  · rintro (⟨p, hp, i, hi, rfl⟩ | hnumber)
    · obtain ⟨_, j, hj, hbit⟩ := mem_selected_iff.mp hp
      rw [hi] at hj
      cases hj
      exact hbit
    · exact (getLsbD_unknown_iff.mp hnumber).1

theorem number_notMem_names (ps : List Peripheral) (w : Word) :
    "0x" ++ Word.hex w ∉ ps.map Peripheral.name := by
  intro h
  obtain ⟨p, _, hp⟩ := List.mem_map.mp h
  exact p.name_ne_number w hp

/-- The items show which of them are names, and what the number is. -/
theorem parts_of_items_eq {m n : Mask g} (same : items d m = items e n) :
    selected d m = selected e n ∧ unknown d m = unknown e n := by
  have names {ps qs : List Peripheral} (h : ps.map Peripheral.name = qs.map Peripheral.name) :
      ps = qs :=
    (List.map_inj_right fun _ _ => Peripheral.name_injective).mp h
  unfold items at same
  by_cases hm : unknown d m = 0 <;> by_cases hn : unknown e n = 0
  · rw [if_pos hm, if_pos hn, List.append_nil, List.append_nil] at same
    exact ⟨names same, hm.trans hn.symm⟩
  · rw [if_pos hm, if_neg hn, List.append_nil] at same
    refine absurd ?_ (number_notMem_names (selected d m) (unknown e n))
    rw [same]
    exact List.mem_append_right _ List.mem_cons_self
  · rw [if_neg hm, if_pos hn, List.append_nil] at same
    refine absurd ?_ (number_notMem_names (selected e n) (unknown d m))
    rw [← same]
    exact List.mem_append_right _ List.mem_cons_self
  · rw [if_neg hm, if_neg hn] at same
    obtain ⟨named, number⟩ := List.append_singleton_inj.mp same
    have digits := (String.append_right_inj "0x").mp number
    exact ⟨names named, Word.hex_injective digits⟩

theorem eq_of_items_eq {m n : Mask g} (same : items d m = items e n) : m = n := by
  obtain ⟨named, number⟩ := parts_of_items_eq same
  refine eq_of_same_bits fun k => ?_
  rw [getLsbD_bits_iff d m, getLsbD_bits_iff e n, named, number]

/-- What the items of a mask have to be: the present names of the peripherals that it selects, by
ascending bit, and a number for the other bits. -/
structure Itemised (d : Device) (m : Mask g) (names : List Peripheral) (number : Word) : Prop where
  selected : ∀ p, p ∈ names ↔
    d.carries p = true ∧ ∃ i, g.bit? p = some i ∧ m.bits.getLsbD i = true
  ascending : names.Pairwise g.Before
  /-- No name is an earlier one. -/
  current : ∀ p ∈ names, ∀ q, (p.name, q) ∉ g.aliases
  unknown : ∀ k, number.getLsbD k = true ↔
    m.bits.getLsbD k = true ∧ (all d : Mask g).bits.getLsbD k = false
  /-- The number is written in eight lower-case digits. -/
  digits : (Word.hex number).length = 8 ∧
    (∀ c ∈ (Word.hex number).toList, c ∈ "0123456789abcdef".toList) ∧
    Word.ofHexDigits (Word.hex number).toList = number.toNat

theorem itemised (d : Device) (m : Mask g) : Itemised d m (selected d m) (unknown d m) := by
  constructor
  case selected => exact fun p => mem_selected_iff
  case ascending => exact (Group.pairwise_before_members d g).filter _
  case current => exact fun p _ q => g.name_notMem_aliases p q
  case unknown => exact fun k => getLsbD_unknown_iff
  case digits =>
    refine ⟨?_, ?_, Word.ofHexDigits_hex _⟩
    · rw [Word.hex, String.length_ofList, Word.length_hexDigits]
    · intro c hc
      rw [Word.hex, String.toList_ofList] at hc
      exact Word.mem_hexDigits hc

end Mask

/-- **The text of a mask identifies it.** It consists of the items of the mask; and no other mask,
of whatever group and on whatever part, has the same text. -/
theorem text_identifies_mask (d : Device) (g : Group) (n : Word) :
    (∃ names number, Mask.Itemised d (⟨n⟩ : Mask g) names number ∧
      Mask.text d (⟨n⟩ : Mask g) = g.maskName ++ "(" ++ String.intercalate " | "
        (names.map Peripheral.name ++
          if number = 0 then [] else ["0x" ++ Word.hex number]) ++ ")") ∧
      ∀ (e : Device) (h : Group) (k : Word),
        Mask.text d (⟨n⟩ : Mask g) = Mask.text e (⟨k⟩ : Mask h) → g = h ∧ n = k := by
  constructor
  · exact ⟨_, _, Mask.itemised d ⟨n⟩, rfl⟩
  · intro e h k same
    obtain ⟨rfl, items⟩ := Mask.eq_of_text_eq same
    exact ⟨rfl, congrArg Mask.bits (Mask.eq_of_items_eq items)⟩

/-- Two parts that have in common what is selected write it in the same way, and nothing else is
written so on the second of them. What is a name on the one is not taken for a name of the other. -/
theorem text_identifies_mask_inCommon :
    Mask.text .u535 (⟨0x80001011⟩ : Mask (.bus .ahb1)) =
        "Ahb1Periphs(GPDMA1 | CRC | SRAM1 | 0x00000010)" ∧
      Mask.text .u5a9 (⟨0x80001011⟩ : Mask (.bus .ahb1)) =
        "Ahb1Periphs(GPDMA1 | CRC | SRAM1 | 0x00000010)" ∧
      (∀ (g : Group) (n : Word), Mask.text .u5a9 (⟨n⟩ : Mask g) =
        "Ahb1Periphs(GPDMA1 | CRC | SRAM1 | 0x00000010)" → g = .bus .ahb1 ∧ n = 0x80001011) ∧
      Mask.text .u535 (⟨0x05000000⟩ : Mask (.bus .apb2)) ≠
        Mask.text .u5a9 (⟨0x04000000⟩ : Mask (.bus .apb2)) := by
  have first : Mask.text .u535 (⟨0x80001011⟩ : Mask (.bus .ahb1)) =
      "Ahb1Periphs(GPDMA1 | CRC | SRAM1 | 0x00000010)" := by decide +kernel
  have second : Mask.text .u5a9 (⟨0x80001011⟩ : Mask (.bus .ahb1)) =
      "Ahb1Periphs(GPDMA1 | CRC | SRAM1 | 0x00000010)" := by decide +kernel
  refine ⟨first, second, ?_, ?_⟩
  · intro g n written
    obtain ⟨hg, hn⟩ := (text_identifies_mask .u535 (.bus .ahb1) 0x80001011).2 .u5a9 g n
      (first.trans written.symm)
    exact ⟨hg.symm, hn.symm⟩
  · intro same
    obtain ⟨_, words⟩ :=
      (text_identifies_mask .u535 (.bus .apb2) 0x05000000).2 .u5a9 (.bus .apb2) 0x04000000 same
    exact absurd words (by decide)

/-- What is a name on one part is a part of the number on another. -/
example :
    Mask.text .u535 (⟨0x05000000⟩ : Mask (.bus .apb2)) = "Apb2Periphs(USB | 0x04000000)" ∧
      Mask.text .u5a9 (⟨0x05000000⟩ : Mask (.bus .apb2)) = "Apb2Periphs(LTDC | 0x01000000)" := by
  decide +kernel

end ClockGating
