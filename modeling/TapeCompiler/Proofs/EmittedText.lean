/-
# The text that a run leaves

However a run over a program ends, the text in its sink is the prologue and the
blocks of the instructions before the one it stopped at. So two facts about labels
can be read off the text itself: they are defined once each, in the order of their
numbers, and every jump goes to a label defined on an earlier line.
-/

import TapeCompiler.Proofs.Verdict

namespace TapeCompiler

open Brackets

/-! ## Kinds of lines, told from their text -/

namespace Assembly

/-- A line of text that defines a label: it ends in a colon. -/
def isMark (line : String) : Bool := line.toList.getLast? == some ':'

/-- A numeral ends in a digit, which is no colon. -/
theorem isMark_append_numeral (head : String) (n : Nat) : isMark (head ++ toString n) = false := by
  have htail : (toString n).toList = Nat.toDigits 10 n := by simp
  rw [isMark, beq_eq_false_iff_ne, String.toList_append, htail, List.getLast?_append]
  intro hlast
  -- There is a last digit, as a numeral is never empty.
  cases hdigits : (Nat.toDigits 10 n).getLast? with
  | none => exact Nat.toDigits_ne_nil (List.getLast?_eq_none_iff.1 hdigits)
  | some c =>
    rw [hdigits, Option.some_or, Option.some.injEq] at hlast
    rw [hlast] at hdigits
    exact Number.notMem_toDigits (by decide) n (List.mem_of_getLast? hdigits)

theorem isMark_append_colon (name : String) : isMark (name ++ ":") = true := by
  simp [isMark]

end Assembly

namespace Line

open Assembly

/-- A line that defines a label. -/
def isMark : Line → Bool
  | entry | label _ => true
  | _ => false

theorem isMark_text (line : Line) : Assembly.isMark line.text = line.isMark := by
  cases line with
  | tape n | placeCursor n => exact isMark_append_numeral _ n
  | label id => exact isMark_append_colon _
  | jumpBack id =>
    rw [text_jumpBack, nameOf, ← String.append_assoc]
    exact isMark_append_numeral _ id
  | load register =>
    unfold text
    cases register <;> simp [Assembly.isMark, isMark, render?, Register.loadText]
  | _ =>
    unfold text
    simp [Assembly.isMark, isMark, render?]

/-- Only a jump reads as one, and it names the label it goes to. -/
theorem eq_jumpBack_of_text_eq {line : Line} {name : String} (h : line.text = jumpText ++ name) :
    ∃ id, line = .jumpBack id ∧ name = nameOf id := by
  have hchars := congrArg String.toList h
  unfold text at hchars
  cases line with
  | jumpBack id =>
    rw [String.toList_append, String.toList_append] at hchars
    exact ⟨id, rfl, (String.toList_injective (List.append_cancel_left hchars)).symm⟩
  | load register => cases register <;> simp [jumpText, render?, Register.loadText] at hchars
  | _ => simp [jumpText, nameOf, render?] at hchars

end Line

/-! ## Labels in the layout -/

namespace Assembly

variable {codes : List Instruction} {first second : List Line} {m p q : Nat}

theorem filter_isMark_simpleBlock (code : Instruction) :
    (simpleBlock code).filter Line.isMark = [] := by
  cases code <;> rfl

theorem filter_isMark_prologue (size : Nat) :
    (prologue size).filter Line.isMark = [.entry] := rfl

/-- Of the blocks only those of opening brackets define labels. -/
theorem filter_isMark_blockAt {code : Instruction} (h : codes[q]? = some code) :
    (blockAt codes q).filter Line.isMark =
      if code = .loopStart then [.label (labelAt codes q)] else [] := by
  by_cases hbracket : IsBracket code
  · rcases hbracket with rfl | rfl
    · rw [blockAt_loopStart h]
      rfl
    · -- With or without a partner, a closing bracket defines no label.
      simp only [blockAt, h]
      cases partner? codes q <;> rfl
  · rw [blockAt_of_not_isBracket h hbracket, filter_isMark_simpleBlock,
      if_neg fun heq => hbracket (Or.inl heq)]

/-- The labels that the first instructions define are the numbers from one on, in order. -/
theorem filter_isMark_layout (hm : m ≤ codes.length) :
    (layout codes m).filter Line.isMark =
      (List.range ((codes.take m).count .loopStart)).map fun k => .label (k + 1) := by
  induction m with
  | zero => rfl
  | succ m ih =>
    have hcode : codes[m]? = some codes[m] := List.getElem?_eq_getElem hm
    rw [layout_succ, List.filter_append, ih (Nat.le_of_succ_le hm), filter_isMark_blockAt hcode,
      take_succ_of_getElem? hcode, List.count_append]
    by_cases hstart : codes[m] = .loopStart
    · rw [if_pos hstart, hstart, List.count_singleton_self, List.range_succ, List.map_append,
        List.map_singleton, labelAt, Nat.add_comm 1]
    · have hcount : [codes[m]].count .loopStart = 0 :=
        List.count_eq_zero.2 fun hmem => hstart (List.mem_singleton.1 hmem).symm
      rw [if_neg hstart, hcount, List.append_nil, Nat.add_zero]

/-- Every jump goes to a label defined before it. -/
def JumpsBack (lines : List Line) : Prop :=
  ∀ before id after, lines = before ++ .jumpBack id :: after → .label id ∈ before

theorem JumpsBack.append (h : JumpsBack first)
    (hsecond : ∀ id, .jumpBack id ∈ second → .label id ∈ first) : JumpsBack (first ++ second) := by
  intro before id after heq
  rcases List.append_eq_append_iff.1 heq with ⟨middle, hbefore, hsplit⟩ | ⟨middle, hfirst, hsplit⟩
  · -- The jump stands in the second part.
    have hmem : .jumpBack id ∈ second := by
      rw [hsplit]
      exact List.mem_append_right _ List.mem_cons_self
    rw [hbefore]
    exact List.mem_append_left _ (hsecond id hmem)
  · -- The jump stands in the first part, unless that part ends just before it.
    cases middle with
    | nil =>
      rw [List.append_nil] at hfirst
      rw [List.nil_append] at hsplit
      rw [← hfirst]
      exact hsecond id (hsplit ▸ List.mem_cons_self)
    | cons line rest =>
      obtain ⟨rfl, -⟩ := List.cons.inj hsplit
      exact h before id rest hfirst

theorem label_mem_layout (hp : codes[p]? = some .loopStart) (hlt : p < m) :
    .label (labelAt codes p) ∈ layout codes m := by
  refine List.mem_flatMap.2 ⟨p, List.mem_range.2 hlt, ?_⟩
  rw [blockAt_loopStart hp]
  exact List.mem_singleton_self _

theorem jumpBack_notMem_simpleBlock (code : Instruction) (id : Nat) :
    .jumpBack id ∉ simpleBlock code := by
  cases code <;> simp [simpleBlock, systemCallBlock, Register.all]

/-- A jump in a block goes to the label of the partner. -/
theorem exists_partners_of_jumpBack_mem_blockAt {id : Nat} (h : .jumpBack id ∈ blockAt codes q) :
    ∃ p, Partners codes p q ∧ id = labelAt codes p := by
  cases hcode : codes[q]? with
  | none => simp [blockAt, hcode] at h
  | some code =>
    by_cases hbracket : IsBracket code
    · rcases hbracket with rfl | rfl
      · simp [blockAt_loopStart hcode] at h
      · cases hpartner : partner? codes q with
        | none => simp [blockAt, hcode, hpartner] at h
        | some p =>
          have hpartners := partners_of_partner?_eq_some hpartner
          rw [blockAt_of_partners hpartners, List.mem_singleton, Line.jumpBack.injEq] at h
          exact ⟨p, hpartners, h⟩
    · rw [blockAt_of_not_isBracket hcode hbracket] at h
      exact absurd h (jumpBack_notMem_simpleBlock code id)

theorem jumpsBack_prologue_layout (size : Nat) (codes : List Instruction) (m : Nat) :
    JumpsBack (prologue size ++ layout codes m) := by
  induction m with
  | zero =>
    intro before id after heq
    have hmem : Line.jumpBack id ∈ prologue size := by
      rw [layout_zero, List.append_nil] at heq
      rw [heq]
      exact List.mem_append_right _ List.mem_cons_self
    simp [prologue] at hmem
  | succ m ih =>
    rw [layout_succ, ← List.append_assoc]
    -- A jump in the new block goes to the label of a partner, whose own block is out already.
    refine ih.append fun id hmem => ?_
    obtain ⟨p, hpartners, rfl⟩ := exists_partners_of_jumpBack_mem_blockAt hmem
    exact List.mem_append_right _ (label_mem_layout hpartners.opens hpartners.lt)

/-- Where every jump goes back among lines, it does so among their texts. -/
theorem JumpsBack.mark_mem {lines : List Line} (h : JumpsBack lines) {before after : List String}
    {name : String} (heq : lines.map Line.text = before ++ (jumpText ++ name) :: after) :
    name ++ ":" ∈ before := by
  obtain ⟨front, back, rfl, rfl, hback⟩ := List.map_eq_append_iff.1 heq
  obtain ⟨line, rest, rfl, htext, -⟩ := List.map_eq_cons_iff.1 hback
  obtain ⟨id, rfl, rfl⟩ := Line.eq_jumpBack_of_text_eq htext
  exact List.mem_map_of_mem (h front id rest rfl)

/-- The lines of the emitted text that define labels. -/
theorem filter_isMark_linesIn (size : Nat) (hm : m ≤ codes.length) :
    (linesIn (textOf (prologue size ++ layout codes m))).filter isMark =
      "_start:" :: (List.range ((codes.take m).count .loopStart)).map fun k =>
        "label_" ++ toString (k + 1) ++ ":" := by
  have hpred : isMark ∘ Line.text = Line.isMark := funext Line.isMark_text
  rw [linesIn_textOf, List.filter_map, hpred, List.filter_append, filter_isMark_prologue,
    filter_isMark_layout hm, List.map_append, List.map_map]
  rfl

end Assembly

/-! ## The text of a run -/

namespace Emitter

open Assembly

variable {codes : List Instruction} {size : Int}

/-- The ways a run over a program may end, each with the number of instructions before the one
it stopped at and the emitter it leaves. -/
inductive StopsAfter (codes : List Instruction) :
    EStateM.Result EmitError Emitter Unit → Nat → Emitter → Prop
  | finished (final : Emitter) : StopsAfter codes (.ok () final) codes.length final
  | unmatched (i : Nat) (final : Emitter) :
    StopsAfter codes (.error (.loops (.unmatchedEnd i)) final) i final
  | unclosed (count : Int) (final : Emitter) :
    StopsAfter codes (.error (.loops (.unclosed count)) final) codes.length final

theorem Ended.stopsAfter {start : Emitter} {result : EStateM.Result EmitError Emitter Unit}
    (h : start.Ended codes result) :
    ∃ m positions, StopsAfter codes result m (start.advanced codes m positions) ∧
      m ≤ codes.length ∧ NeverBelow (codes.take m) := by
  cases h with
  | finished hbalanced =>
    exact ⟨_, _, .finished _, Nat.le_refl _, (List.take_length).symm ▸ hbalanced.1⟩
  | unclosed p outer hopen =>
    exact ⟨_, _, .unclosed _ _, Nat.le_refl _,
      (List.take_length).symm ▸ hopen.neverBelow_and_depth_eq.1⟩
  | unmatched i hi _ hbalanced => exact ⟨_, _, .unmatched _ _, Nat.le_of_lt hi, hbalanced.1⟩

/-- **The text of a run.** However a run into a fresh sink ends, the sink holds the prologue and
the blocks of the instructions before the one it stopped at. Each closing bracket among these has
exactly one partner and jumps to the label of that partner. The labels defined in the text are,
behind the entry point, the numbers from one on in order, and each line that jumps has the
definition of its label on an earlier line. -/
theorem run_text (hpos : 1 ≤ size) (hsize : Number.Writable size)
    (hloops : Number.Writable (codes.count .loopStart)) :
    ∃ emitter m final text,
      create (.int size) = .ok emitter ∧
      StopsAfter codes (run (codes.map .ok) .empty emitter) m final ∧ m ≤ codes.length ∧
      final.text? = some text ∧
      text = textOf (prologue size.toNat ++ (List.range m).flatMap (blockAt codes)) ∧
      (∀ q < m, codes[q]? = some .loopEnd → ∃ p, (∀ r, Partners codes r q ↔ r = p) ∧
        blockAt codes q = [.jumpBack (labelAt codes p)]) ∧
      (linesIn text).filter isMark =
        "_start:" :: (List.range ((codes.take m).count .loopStart)).map (fun k =>
          "label_" ++ toString (k + 1) ++ ":") ∧
      ∀ before name after, linesIn text = before ++ (jumpText ++ name) :: after →
        name ++ ":" ∈ before := by
  have hpos' : 0 < size.toNat := by omega
  have hend : (started (.ofSize size.toNat hpos') .empty).Ended codes
      (run (codes.map .ok) .empty (.ofSize size.toNat hpos')) :=
    ended_run rfl (hsize.toNat hpos) hloops
  obtain ⟨m, positions, hstops, hm, hbelow⟩ := hend.stopsAfter
  refine ⟨_, m, _, _, create_int_of_pos hpos', hstops, hm, text?_advanced_started _ _ _ _, rfl,
    ?_, filter_isMark_linesIn _ hm, ?_⟩
  · intro q hq hcloses
    -- The partner is looked for in the part before the stop, where the depth is never negative.
    have htake : (codes.take m)[q]? = some .loopEnd := by
      rw [List.getElem?_take_of_lt hq]
      exact hcloses
    obtain ⟨p, hpartners⟩ := hbelow.exists_partners htake
    rw [partners_take_iff hq] at hpartners
    refine ⟨p, fun r => ⟨fun h => h.unique hpartners, ?_⟩, blockAt_of_partners hpartners⟩
    rintro rfl
    exact hpartners
  · intro before name after heq
    rw [linesIn_textOf] at heq
    exact (jumpsBack_prologue_layout _ codes m).mark_mem heq

/-- Two nested loops, a loop behind them and a closing bracket too many. -/
theorem run_text_nested_loops :
    (1 : Int) ≤ 8 ∧ Number.Writable 8 ∧
      Number.Writable ((Instruction.ofText "[[]][]]").count .loopStart) ∧
      ∃ emitter m final text, create (.int 8) = .ok emitter ∧
        StopsAfter (Instruction.ofText "[[]][]]")
          (run ((Instruction.ofText "[[]][]]").map .ok) .empty emitter) m final ∧
        final.text? = some text ∧
        text = textOf (prologue 8 ++
          (List.range m).flatMap (blockAt (Instruction.ofText "[[]][]]"))) := by
  have hsize : Number.Writable 8 := by decide +kernel
  have hloops : Number.Writable ((Instruction.ofText "[[]][]]").count .loopStart) := by
    decide +kernel
  obtain ⟨emitter, m, final, text, hcreate, hstops, -, hfinal, htext, -⟩ :=
    run_text (by decide) hsize hloops
  exact ⟨by decide, hsize, hloops, emitter, m, final, text, hcreate, hstops, hfinal, htext⟩

end Emitter

end TapeCompiler
