/-
# Filtering items of any kind

A sequence of items is read up to its first bad item. What stands before it is either an
instruction, as the number of a character or as the text of one character, or comment. So the
instructions that come out are told item by item, and how the reading ends is told by the one bad
item, if there is one.

Whoever takes only some instructions stops as soon as it has them. It meets the fault of the bad
item only if it asks for more instructions than stand before it, and what comes behind the last
instruction it takes makes no difference to it.
-/

import TapeCompiler.Proofs.FailingSources

namespace TapeCompiler

/-! ## One item -/

namespace Instruction

variable {instruction other : Instruction}

theorem toNat_char_lt (instruction : Instruction) : instruction.char.toNat < 128 := by
  cases instruction <;> decide

theorem ofCode?_eq_some_iff {code : Nat} :
    ofCode? code = some instruction ↔ code = instruction.char.toNat := by
  have hascii := instruction.toNat_char_lt
  rw [ofCode?]
  constructor
  · intro h
    split_ifs at h with hcode
    have hcodes : ∀ code < 128, code = (Char.ofNat code).toNat := by decide
    rw [char_eq_of_ofChar?_eq_some h]
    exact hcodes code hcode
  · rintro rfl
    rw [if_pos hascii, Char.ofNat_toNat, ofChar?_char]

theorem ofText?_eq_some_iff {text : String} :
    ofText? text = some instruction ↔ text = String.singleton instruction.char := by
  rw [ofText?, ← String.toList_inj, String.toList_singleton]
  constructor
  · intro h
    split at h
    · next c hc => rw [hc, char_eq_of_ofChar?_eq_some h]
    · cases h
  · intro h
    rw [h]
    exact ofChar?_char instruction

end Instruction

namespace Value

variable {item : Value} {instruction other : Instruction} {fault : SourceFault}

/-- An item is an instruction: it is the number of its character, or the text of that one
character. -/
def StandsFor : Value → Instruction → Prop
  | int n, instruction => n = instruction.char.toNat
  | text s, instruction => s = String.singleton instruction.char
  | _, _ => False

instance (item : Value) : DecidablePred item.StandsFor := fun instruction =>
  match item with
  | int n => inferInstanceAs (Decidable (n = instruction.char.toNat))
  | text s => inferInstanceAs (Decidable (s = String.singleton instruction.char))
  | none | bool _ | float _ | list _ => .isFalse id

/-- The instruction that an item is, if it is one. -/
def instruction? (item : Value) : Option Instruction :=
  Instruction.all.find? fun instruction => decide (item.StandsFor instruction)

theorem StandsFor.unique (h : item.StandsFor instruction) (h' : item.StandsFor other) :
    instruction = other := by
  cases item with
  | int n =>
    have hcode : instruction.char.toNat = other.char.toNat := Int.ofNat.inj (h.symm.trans h')
    exact Instruction.char_injective (Char.toNat_inj.1 hcode)
  | text s =>
    have htext := congrArg String.toList (h.symm.trans h' : String.singleton _ = String.singleton _)
    exact Instruction.char_injective (by simpa using htext)
  | none | bool _ | float _ | list _ => cases h

theorem instruction?_eq_some_iff :
    item.instruction? = some instruction ↔ item.StandsFor instruction := by
  constructor
  · intro h
    simpa using List.find?_some h
  · intro h
    cases hfind : item.instruction? with
    | none => simpa [h] using List.find?_eq_none.1 hfind instruction instruction.mem_all
    | some found =>
      have hfound : item.StandsFor found := by simpa using List.find?_some hfind
      rw [hfound.unique h]

/-- The fault of each kind of bad item. -/
inductive Refuses : Value → SourceFault → Prop
  | list (items : List Value) : Refuses (list items) .listItem
  | beyondWord (n : Int) (h : n < -2 ^ 31 ∨ 2 ^ 31 ≤ n) : Refuses (int n) .beyondWord
  | noCodePoint (n : Int) (low : -2 ^ 31 ≤ n) (high : n < 2 ^ 31) (h : n < 0 ∨ 0x10FFFF < n) :
    Refuses (int n) .noCodePoint

theorem read_int_of_not_isBad {n : Int} (h : ¬ (int n).IsBad) :
    (int n).read = .ok (Instruction.ofCode? n.toNat) := by
  simp only [IsBad, not_or, Int.not_lt] at h
  rw [read, readCode, if_neg (by omega), if_neg (by omega)]

/-- An item that is not bad is read as the instruction that it is, or as comment. -/
theorem read_of_not_isBad (h : ¬ item.IsBad) : item.read = .ok item.instruction? := by
  cases item with
  | int n =>
    have hnonneg : 0 ≤ n := by
      simp only [IsBad, not_or, Int.not_lt] at h
      exact h.1
    rw [read_int_of_not_isBad h, Except.ok.injEq]
    ext instruction
    rw [Instruction.ofCode?_eq_some_iff, instruction?_eq_some_iff, StandsFor]
    omega
  | text s =>
    rw [read, Except.ok.injEq]
    ext instruction
    rw [Instruction.ofText?_eq_some_iff, instruction?_eq_some_iff, StandsFor]
  | bool b =>
    -- Neither of the first two characters is an instruction.
    cases b <;> rfl
  | list items => exact absurd trivial h
  | none | float _ => rfl

/-- A bad item is refused with the fault of its kind. -/
theorem exists_refuses_of_isBad (h : item.IsBad) :
    ∃ fault, item.Refuses fault ∧ item.read = .error fault := by
  cases item with
  | int n =>
    simp only [IsBad] at h
    by_cases hword : n < -2 ^ 31 ∨ 2 ^ 31 ≤ n
    · refine ⟨_, .beyondWord n hword, ?_⟩
      rw [read, readCode, if_pos (by omega)]
    · refine ⟨_, .noCodePoint n (by omega) (by omega) h, ?_⟩
      rw [read, readCode, if_neg (by omega), if_pos (by omega)]
  | list items => exact ⟨_, .list items, rfl⟩
  | none | bool _ | float _ | text _ => cases h

end Value

/-! ## Sequences -/

namespace Source

variable {values before : List Value} {codes : List Instruction} {ending : Option SourceFault}

/-- The position of the first bad item, or the number of items if none is bad. -/
def firstBad (values : List Value) : Nat := values.findIdx fun item => decide item.IsBad

/-- How the reading of items ends: with the last item, or with the fault of the first bad one. -/
inductive Ends (values : List Value) : Option SourceFault → Prop
  | last (h : firstBad values = values.length) : Ends values none
  | bad (item : Value) (fault : SourceFault) (h : values[firstBad values]? = some item)
    (refuses : item.Refuses fault) : Ends values (some fault)

theorem instructionsOf_filterMap (h : ∀ item ∈ before, ¬ item.IsBad) :
    InstructionsOf before (before.filterMap Value.instruction?) := by
  have hfilter : filterItems before = .ok (before.filterMap Value.instruction?) := by
    induction before with
    | nil => rfl
    | cons item others ih =>
      obtain ⟨hitem, hothers⟩ := List.forall_mem_cons.1 h
      rw [filterItems, Value.read_of_not_isBad hitem, ih hothers, List.filterMap_cons]
      cases item.instruction? <;> rfl
  obtain ⟨codes, hcodes⟩ := exists_instructionsOf h
  obtain rfl : codes = before.filterMap Value.instruction? :=
    Except.ok.inj (hcodes.filter_eq.symm.trans hfilter)
  exact hcodes

theorem not_isBad_of_mem_take_firstBad (values : List Value) :
    ∀ item ∈ values.take (firstBad values), ¬ item.IsBad := by
  intro item hitem
  obtain ⟨i, hi, rfl⟩ := List.mem_take_iff_getElem.1 hitem
  have hbefore : i < firstBad values := by omega
  simpa using List.not_of_lt_findIdx hbefore

theorem firstBad_eq_length_iff :
    firstBad values = values.length ↔ ∀ item ∈ values, ¬ item.IsBad := by
  rw [firstBad, List.findIdx_eq_length]
  simp only [decide_eq_false_iff_not]

/-- Read as it comes or as a whole, a sequence gives the instructions before its first bad item,
and ends with the fault of that item if there is one. -/
theorem exists_ends (values : List Value)
    (hcodes : codes = (values.take (firstBad values)).filterMap Value.instruction?) :
    ∃ ending, Ends values ending ∧
      (items values).events = codes.map .ok ++ ending.toList.map .error ∧
      (items values).filter = match ending with
        | none => .ok codes
        | some fault => .error fault := by
  have hbefore : InstructionsOf (values.take (firstBad values)) codes :=
    hcodes ▸ instructionsOf_filterMap (not_isBad_of_mem_take_firstBad values)
  by_cases hall : firstBad values = values.length
  · rw [hall, List.take_length] at hbefore
    refine ⟨none, .last hall, ?_, hbefore.filter_eq⟩
    rw [events_of_filter hbefore.filter_eq]
    simp
  · have hlt : firstBad values < values.length :=
      Nat.lt_of_le_of_ne List.findIdx_le_length hall
    have hbad : (values[firstBad values]).IsBad :=
      of_decide_eq_true (List.findIdx_getElem (w := hlt))
    obtain ⟨fault, hrefuses, hread⟩ := Value.exists_refuses_of_isBad hbad
    have hsplit : values.take (firstBad values) ++
        values[firstBad values] :: values.drop (firstBad values + 1) = values := by
      rw [← List.drop_eq_getElem_cons hlt, List.take_append_drop]
    have hevents := hbefore.events_eq hread (values.drop (firstBad values + 1))
    have hfilter := hbefore.filter_eq_error hread (values.drop (firstBad values + 1))
    rw [hsplit] at hevents hfilter
    exact ⟨some fault, .bad _ fault (List.getElem?_eq_getElem hlt) hrefuses, hevents, hfilter⟩

/-- Whoever goes to the end takes every instruction and meets the fault. -/
theorem consume_none (codes : List Instruction) (ending : Option SourceFault) :
    consume none (codes.map .ok ++ ending.toList.map .error) = (codes, ending) := by
  induction codes with
  | nil => cases ending <;> simp [consume]
  | cons code rest ih => simp [consume, ih]

/-- Whoever has a limit takes no more instructions than that, and meets the fault only if there
are fewer. -/
theorem consume_some (codes : List Instruction) (ending : Option SourceFault) (limit : Nat) :
    consume (some limit) (codes.map .ok ++ ending.toList.map .error) =
      (codes.take limit, if codes.length < limit then ending else none) := by
  induction codes generalizing limit with
  | nil =>
    cases limit with
    | zero => simp [consume]
    | succ limit => cases ending <;> simp [consume]
  | cons code rest ih =>
    cases limit with
    | zero => simp [consume]
    | succ limit => simp [consume, ih]

/-- Enough instructions are taken without a look at what stands behind them. -/
theorem consume_some_of_le {limit : Nat} (h : limit ≤ codes.length) (tail : List Event) :
    consume (some limit) (codes.map .ok ++ tail) = (codes.take limit, none) := by
  induction codes generalizing limit with
  | nil =>
    obtain rfl : limit = 0 := by simpa using h
    simp [consume]
  | cons code rest ih =>
    cases limit with
    | zero => simp [consume]
    | succ limit => simp [consume, ih (by simpa using h)]

theorem consume_items_append {limit : Nat} (h : ∀ item ∈ before, ¬ item.IsBad)
    (hlimit : limit ≤ (before.filterMap Value.instruction?).length) (rest : List Value) :
    consume (some limit) (items (before ++ rest)).events =
      ((before.filterMap Value.instruction?).take limit, none) := by
  rw [events, (instructionsOf_filterMap h).eventsOfItems_append, consume_some_of_le hlimit]

/-- **Filtering items.** Take items of any kinds. The instructions of the items before the first
bad one come out in order, and then the reading ends, with the fault of the bad item if there is
one. Whoever takes at most so many instructions gets the first of them, and the fault only if
fewer stand before it; what stands behind items that hold enough instructions makes no difference.
Read as a whole, the items give a list exactly if none is bad, and it holds these instructions. -/
theorem items_read_up_to_first_bad (values : List Value) :
    ∃ codes ending,
      codes = (values.take (firstBad values)).filterMap Value.instruction? ∧
      Ends values ending ∧
      (items values).events = codes.map .ok ++ ending.toList.map .error ∧
      consume none (items values).events = (codes, ending) ∧
      (∀ limit, 1 ≤ limit → consume (some limit) (items values).events =
        (codes.take limit, if codes.length < limit then ending else none)) ∧
      (∀ before, before <+: values → (∀ item ∈ before, ¬ item.IsBad) →
        ∀ limit ≤ (before.filterMap Value.instruction?).length, ∀ rest,
          consume (some limit) (items (before ++ rest)).events =
            consume (some limit) (items values).events) ∧
      ((∃ all, (items values).filter = .ok all) ↔ ∀ item ∈ values, ¬ item.IsBad) ∧
      ∀ all, (items values).filter = .ok all → all = codes := by
  obtain ⟨ending, hends, hevents, hfilter⟩ := exists_ends values rfl
  refine ⟨_, ending, rfl, hends, hevents, ?_, fun limit _ => ?_, ?_, ?_⟩
  · rw [hevents, consume_none]
  · rw [hevents, consume_some]
  · rintro before ⟨rest', rfl⟩ hbefore limit hlimit rest
    rw [consume_items_append hbefore hlimit, consume_items_append hbefore hlimit]
  · rw [hfilter, ← firstBad_eq_length_iff]
    cases hends with
    | last hlast => exact ⟨⟨fun _ => hlast, fun _ => ⟨_, rfl⟩⟩, fun all h => (Except.ok.inj h).symm⟩
    | bad item fault hitem _ =>
      have hlt := (List.getElem?_eq_some_iff.1 hitem).1
      exact ⟨⟨fun ⟨_, h⟩ => (nomatch h), fun hlast => absurd hlast (by omega)⟩, nofun⟩

/-- A number beyond the code points ends the reading behind two instructions. Whoever takes two
does not come to it, and nobody comes to the list behind it. -/
theorem items_read_up_to_first_bad_between_kinds :
    consume (some 2) (items [.int 43, .bool true, .text "]", .none, .int 0x110000,
        .list []]).events = ([.incCell, .loopEnd], none) ∧
      consume (some 3) (items [.int 43, .bool true, .text "]", .none, .int 0x110000,
        .list []]).events = ([.incCell, .loopEnd], some .noCodePoint) := by
  obtain ⟨codes, ending, hcodes, hends, -, -, hlimited, -⟩ := items_read_up_to_first_bad
    [.int 43, .bool true, .text "]", .none, .int 0x110000, .list []]
  obtain rfl : codes = [.incCell, .loopEnd] := hcodes
  obtain rfl : ending = some .noCodePoint := by
    cases hends with
    | last hlast => exact absurd hlast (by decide)
    | bad item fault hitem hrefuses =>
      obtain rfl : Value.int 0x110000 = item := Option.some.inj hitem
      cases hrefuses with
      | beyondWord _ h => omega
      | noCodePoint => rfl
  exact ⟨hlimited 2 (by decide), hlimited 3 (by decide)⟩

end Source

end TapeCompiler
