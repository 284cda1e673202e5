/-
# What emission leaves behind

An emitter whose sink takes every write gets each of its lines through, so an
action is told by the lines it delivers and by what it does to the open loops.
Over a whole program both are told by counting: the label of an opening bracket
is one more than the number of opening brackets before it, and the labels on the
stack belong to the brackets of the loops that are open. This holds behind every
beginning of a program, also of one whose brackets do not pair up, until a closing
bracket finds no open loop.
-/

import TapeCompiler.Generate
import TapeCompiler.Proofs.Brackets
import TapeCompiler.Proofs.LineText

namespace TapeCompiler

open Brackets

namespace Emitter

variable {emitter next : Emitter} {error : EmitError} {line : Line} {lines : List Line}

/-! ## Sequencing -/

theorem bind_of_ok {α β : Type} {action : Action α} {rest : α → Action β} {result : α}
    (h : action emitter = .ok result next) : (action >>= rest) emitter = rest result next := by
  simp only [bind, EStateM.bind, h]

theorem bind_of_error {α β : Type} {action : Action α} {rest : α → Action β}
    (h : action emitter = .error error next) : (action >>= rest) emitter = .error error next := by
  simp only [bind, EStateM.bind, h]

/-! ## A sink that takes everything -/

/-- The emitter has a sink, and the sink takes every write. -/
def Working (emitter : Emitter) : Prop := ∃ sink, emitter.sink = some sink ∧ sink.quota = none

/-- The emitter once its sink has taken the lines. -/
def delivered (emitter : Emitter) (lines : List Line) : Emitter :=
  { emitter with
    -- The sink keeps the writes it took, the last one first.
    sink := emitter.sink.map fun sink =>
      { sink with accepted := (Assembly.writesOf lines).reverse ++ sink.accepted }
    lines := emitter.lines + lines.length }

theorem Working.delivered (h : emitter.Working) (lines : List Line) :
    (emitter.delivered lines).Working := by
  obtain ⟨sink, hsink, hquota⟩ := h
  refine ⟨{ sink with accepted := (Assembly.writesOf lines).reverse ++ sink.accepted }, ?_, hquota⟩
  simp only [Emitter.delivered, hsink, Option.map_some]

@[simp] theorem delivered_nil : emitter.delivered [] = emitter := by
  cases emitter with
  | mk _ _ sink => cases sink <;> rfl

theorem delivered_append (emitter : Emitter) (first second : List Line) :
    emitter.delivered (first ++ second) = (emitter.delivered first).delivered second := by
  simp only [delivered, Assembly.writesOf_append, List.reverse_append, List.append_assoc,
    Option.map_map, List.length_append, Nat.add_assoc]
  rfl

/-- The text in the sink grows by the text of the lines. -/
theorem text?_delivered (emitter : Emitter) (lines : List Line) :
    (emitter.delivered lines).text? =
      emitter.text?.map fun text => text ++ Assembly.textOf lines := by
  rw [text?, delivered, text?, Option.map_map, Option.map_map]
  congr 1
  funext sink
  simp only [Function.comp_apply, Sink.text, List.reverse_append, List.reverse_reverse,
    String.join_append, Assembly.join_writesOf]

theorem put_of_working {sink : Sink} (hsink : emitter.sink = some sink)
    (hquota : sink.quota = none) (piece : String) :
    put piece emitter =
      .ok () { emitter with sink := some { sink with accepted := piece :: sink.accepted } } := by
  simp only [put, hsink, Sink.write_of_quota_eq_none hquota]

theorem emit_of_working (h : emitter.Working) (hline : line.Writable) :
    emit line emitter = .ok () (emitter.delivered [line]) := by
  obtain ⟨sink, hsink, hquota⟩ := h
  rw [emit, Line.render?_eq_some_text hline]
  dsimp only
  -- A line is two writes, its text and its line end, and the sink takes both.
  rw [emitText, bind_of_ok (put_of_working hsink hquota _),
    bind_of_ok (put_of_working rfl (by exact hquota) _)]
  simp only [delivered, hsink]
  rfl

theorem emitAll_of_working (h : emitter.Working) (hlines : ∀ line ∈ lines, line.Writable) :
    emitAll lines emitter = .ok () (emitter.delivered lines) := by
  induction lines generalizing emitter with
  | nil =>
    rw [delivered_nil]
    rfl
  | cons line rest ih =>
    have hfirst := emit_of_working h (hlines line List.mem_cons_self)
    have hrest := ih (h.delivered [line]) fun other hother =>
      hlines other (List.mem_cons_of_mem _ hother)
    rw [emitAll, bind_of_ok hfirst, hrest, ← delivered_append, List.singleton_append]

end Emitter

/-! ## Labels and blocks by position -/

namespace Assembly

variable {codes : List Instruction} {p q m : Nat}

/-- The label that an opening bracket at a position takes: labels count from one in the order
of the brackets. -/
def labelAt (codes : List Instruction) (p : Nat) : Nat :=
  1 + (codes.take p).count .loopStart

/-- The block of the instruction at a position. A closing bracket jumps to the label of its
partner, and has no block without one. -/
def blockAt (codes : List Instruction) (q : Nat) : List Line :=
  match codes[q]? with
  | none => []
  | some .loopStart => [.label (labelAt codes q)]
  | some .loopEnd => ((partner? codes q).map fun p => Line.jumpBack (labelAt codes p)).toList
  | some instruction => simpleBlock instruction

/-- The blocks of the first instructions, in order. -/
def layout (codes : List Instruction) (m : Nat) : List Line :=
  (List.range m).flatMap (blockAt codes)

@[simp] theorem layout_zero : layout codes 0 = [] := rfl

theorem layout_succ (codes : List Instruction) (m : Nat) :
    layout codes (m + 1) = layout codes m ++ blockAt codes m := by
  rw [layout, List.range_succ, List.flatMap_append, List.flatMap_singleton, layout]

@[simp] theorem labelAt_zero : labelAt codes 0 = 1 := rfl

theorem labelAt_succ {code : Instruction} (h : codes[p]? = some code) :
    labelAt codes (p + 1) = labelAt codes p + [code].count .loopStart := by
  rw [labelAt, take_succ_of_getElem? h, List.count_append, labelAt, Nat.add_assoc]

theorem blockAt_loopStart (h : codes[q]? = some .loopStart) :
    blockAt codes q = [.label (labelAt codes q)] := by
  simp only [blockAt, h]

theorem blockAt_of_partners (h : Partners codes p q) :
    blockAt codes q = [.jumpBack (labelAt codes p)] := by
  simp only [blockAt, h.closes, h.partner?_eq, Option.map_some, Option.toList_some]

theorem blockAt_of_not_isBracket {code : Instruction} (h : codes[q]? = some code)
    (hcode : ¬ IsBracket code) : blockAt codes q = simpleBlock code := by
  cases code with
  | loopStart => exact absurd (Or.inl rfl) hcode
  | loopEnd => exact absurd (Or.inr rfl) hcode
  | _ => simp only [blockAt, h]

/-- The label of an opening bracket counts some of the opening brackets, itself included. -/
theorem labelAt_le_count (h : codes[p]? = some .loopStart) :
    labelAt codes p ≤ codes.count .loopStart := by
  have hsucc := labelAt_succ h
  have htake := (List.take_sublist (p + 1) codes).count_le .loopStart
  simp only [labelAt, List.count_singleton_self] at hsucc ⊢
  omega

theorem writable_of_mem_simpleBlock {code : Instruction} {line : Line}
    (h : line ∈ simpleBlock code) : line.Writable := by
  cases code with
  | write =>
    simp only [simpleBlock, systemCallBlock, Register.all, List.map_cons, List.map_nil,
      List.cons_append, List.nil_append, List.mem_cons, List.not_mem_nil, or_false] at h
    rcases h with rfl | rfl | rfl | rfl | rfl | rfl | rfl | rfl | rfl | rfl <;> trivial
  | loopStart | loopEnd => cases h
  | _ =>
    rw [List.mem_singleton.1 h]
    trivial

theorem writable_of_mem_prologue {size : Nat} (hsize : Number.Writable size)
    {line : Line} (h : line ∈ prologue size) : line.Writable := by
  have hhalf : Number.Writable (size / 2 : Nat) :=
    hsize.of_le (Nat.div_le_self size 2)
  simp only [prologue, List.mem_cons, List.not_mem_nil, or_false] at h
  rcases h with rfl | rfl | rfl | rfl | rfl | rfl | rfl
  · trivial
  · trivial
  · exact hsize
  · trivial
  · trivial
  · trivial
  · exact hhalf

end Assembly

namespace Emitter

open Assembly

variable {emitter start : Emitter} {codes : List Instruction} {positions outer : List Nat}
variable {p q m : Nat}

/-! ## One instruction -/

/-- The emitter with its open loops and its next label exchanged. -/
def withLoops (emitter : Emitter) (openLoops : List Nat) (nextLabel : Nat) : Emitter :=
  { emitter with openLoops := openLoops, nextLabel := nextLabel }

theorem Working.withLoops (h : emitter.Working) (openLoops : List Nat) (nextLabel : Nat) :
    (emitter.withLoops openLoops nextLabel).Working := h

theorem openLoop_eq : openLoop emitter = .ok emitter.nextLabel
    (emitter.withLoops (emitter.nextLabel :: emitter.openLoops) (emitter.nextLabel + 1)) := rfl

theorem closeLoop_of_cons {index : Int} {label : Nat} {others : List Nat}
    (h : emitter.openLoops = label :: others) :
    closeLoop index emitter = .ok label (emitter.withLoops others emitter.nextLabel) := by
  simp only [closeLoop, h]
  rfl

theorem closeLoop_of_nil {index : Int} (h : emitter.openLoops = []) :
    closeLoop index emitter = .error (.loops (.unmatchedEnd index)) emitter := by
  simp only [closeLoop, h]

/-- An opening bracket pushes a fresh label and delivers it. -/
theorem emitCode_loopStart (index : Int) (h : emitter.Working)
    (hlabel : (Line.label emitter.nextLabel).Writable) :
    emitCode index .loopStart emitter = .ok ()
      ((emitter.withLoops (emitter.nextLabel :: emitter.openLoops)
        (emitter.nextLabel + 1)).delivered [.label emitter.nextLabel]) := by
  rw [emitCode, bind_of_ok openLoop_eq]
  exact emit_of_working (h.withLoops _ _) hlabel

/-- A closing bracket pops the innermost label and delivers a jump to it. -/
theorem emitCode_loopEnd_of_cons (index : Int) {label : Nat} {others : List Nat}
    (h : emitter.Working) (hopen : emitter.openLoops = label :: others)
    (hlabel : (Line.jumpBack label).Writable) :
    emitCode index .loopEnd emitter = .ok ()
      ((emitter.withLoops others emitter.nextLabel).delivered [.jumpBack label]) := by
  rw [emitCode, bind_of_ok (closeLoop_of_cons hopen)]
  exact emit_of_working (h.withLoops _ _) hlabel

/-- A closing bracket without an open loop fails and changes nothing. -/
theorem emitCode_loopEnd_of_nil (index : Int) (hopen : emitter.openLoops = []) :
    emitCode index .loopEnd emitter = .error (.loops (.unmatchedEnd index)) emitter := by
  rw [emitCode, bind_of_error (closeLoop_of_nil hopen)]

/-- Every other instruction delivers its fixed block. -/
theorem emitCode_of_not_isBracket (index : Int) {code : Instruction} (h : emitter.Working)
    (hcode : ¬ IsBracket code) :
    emitCode index code emitter = .ok () (emitter.delivered (simpleBlock code)) := by
  have hlines := emitAll_of_working h
    fun line (hline : line ∈ simpleBlock code) => writable_of_mem_simpleBlock hline
  cases code with
  | loopStart => exact absurd (Or.inl rfl) hcode
  | loopEnd => exact absurd (Or.inr rfl) hcode
  | _ => exact hlines

/-! ## A whole program -/

/-- The emitter once the blocks of the first instructions are out and the loops at the
positions are open. -/
def advanced (start : Emitter) (codes : List Instruction) (m : Nat) (positions : List Nat) :
    Emitter :=
  (start.withLoops (positions.map (labelAt codes)) (labelAt codes m)).delivered (layout codes m)

theorem Working.advanced (h : start.Working) (codes : List Instruction) (m : Nat)
    (positions : List Nat) : (start.advanced codes m positions).Working :=
  (h.withLoops _ _).delivered _

theorem advanced_zero (h : start.openLoops = []) (hnext : start.nextLabel = 1) :
    start.advanced codes 0 [] = start := by
  rw [advanced, layout_zero, delivered_nil, withLoops, List.map_nil, labelAt_zero, ← h, ← hnext]

theorem text?_advanced (start : Emitter) (codes : List Instruction) (m : Nat)
    (positions : List Nat) :
    (start.advanced codes m positions).text? =
      start.text?.map fun text => text ++ textOf (layout codes m) :=
  text?_delivered _ _

/-- The state behind the next block, from the state behind the blocks before it. -/
theorem advanced_succ (start : Emitter) (codes : List Instruction) (m : Nat)
    (positions others : List Nat) :
    start.advanced codes (m + 1) others =
      ((start.advanced codes m positions).withLoops (others.map (labelAt codes))
        (labelAt codes (m + 1))).delivered (blockAt codes m) := by
  rw [advanced, layout_succ, delivered_append]
  rfl

/-- Instructions and what follows them are emitted one after the other. -/
theorem emitEvents_append (index : Nat) (codes : List Instruction) (events : List Event) :
    emitEvents index (codes.map .ok ++ events) = (do
      emitEvents index (codes.map .ok)
      emitEvents (index + codes.length) events) := by
  induction codes generalizing index with
  | nil => rfl
  | cons code rest ih =>
    simp only [List.map_cons, List.cons_append, emitEvents, ih, bind_assoc, List.length_cons,
      Nat.add_comm rest.length 1, Nat.add_assoc]

/-- What emitting the first instructions of a program comes to: either all their blocks are out,
and the open loops are those of the brackets; or a closing bracket found no open loop, and
everything before it is out. -/
inductive Reached (start : Emitter) (codes : List Instruction) (m : Nat) :
    EStateM.Result EmitError Emitter Unit → Prop
  | going (positions : List Nat) (isOpen : OpenAt (codes.take m) positions) :
    Reached start codes m (.ok () (start.advanced codes m positions))
  | stopped (i : Nat) (lt : i < m) (closes : codes[i]? = some .loopEnd)
    (balanced : Balanced (codes.take i)) :
    Reached start codes m (.error (.loops (.unmatchedEnd i)) (start.advanced codes i []))

/-- One more instruction, from a state in which all blocks before it are out. -/
theorem reached_emitCode {code : Instruction} (h : start.Working)
    (hloops : Number.Writable (codes.count .loopStart))
    (hcode : codes[m]? = some code) (hopen : OpenAt (codes.take m) positions) :
    Reached start codes (m + 1) (emitCode m code (start.advanced codes m positions)) := by
  have hworking := h.advanced codes m positions
  have htake := take_succ_of_getElem? hcode
  have hlength : (codes.take m).length = m :=
    List.length_take_of_le (Nat.le_of_lt (List.getElem?_eq_some_iff.1 hcode).1)
  have hlabel := labelAt_succ hcode
  by_cases hbracket : IsBracket code
  · rcases hbracket with rfl | rfl
    · -- The label is the number of opening brackets so far, and the bracket becomes the innermost.
      have hpush := hopen.push
      rw [← htake, hlength] at hpush
      have hwritable := hloops.of_le (labelAt_le_count hcode)
      rw [emitCode_loopStart m hworking hwritable]
      have hnext := advanced_succ start codes m positions (m :: positions)
      rw [blockAt_loopStart hcode, hlabel] at hnext
      exact hnext ▸ Reached.going _ hpush
    · cases positions with
      | nil =>
        -- No loop is open, which is to say that everything before the bracket is balanced.
        rw [emitCode_loopEnd_of_nil m rfl]
        exact Reached.stopped m (Nat.lt_succ_self m) hcode hopen
      | cons p outer =>
        -- The label on top of the stack belongs to the partner.
        have hpartners := hopen.partners hcode
        have hpop := hopen.pop
        rw [← htake] at hpop
        have hwritable := hloops.of_le (labelAt_le_count hpartners.opens)
        rw [emitCode_loopEnd_of_cons m hworking rfl hwritable]
        have hnext := advanced_succ start codes m (p :: outer) outer
        rw [blockAt_of_partners hpartners, hlabel] at hnext
        exact hnext ▸ Reached.going _ hpop
  · -- Other instructions are balanced on their own: loops and labels stay as they are.
    have hkeep := hopen.append (balanced_singleton_of_not_isBracket hbracket)
    rw [← htake] at hkeep
    have hcount : [code].count .loopStart = 0 :=
      List.count_eq_zero.2 fun hmem => hbracket (Or.inl (List.mem_singleton.1 hmem).symm)
    rw [emitCode_of_not_isBracket m hworking hbracket]
    have hnext := advanced_succ start codes m positions positions
    rw [blockAt_of_not_isBracket hcode hbracket, hlabel, hcount] at hnext
    exact hnext ▸ Reached.going _ hkeep

/-- The first instructions, emitted from the first label on with no loop open. -/
theorem reached_emitEvents_take (h : start.Working) (hstart : start.openLoops = [])
    (hnext : start.nextLabel = 1) (hloops : Number.Writable (codes.count .loopStart))
    (hm : m ≤ codes.length) :
    Reached start codes m (emitEvents 0 ((codes.take m).map .ok) start) := by
  -- The induction is on the number of instructions, with the program fixed, so that labels and
  -- blocks always speak of positions in the whole program.
  induction m with
  | zero =>
    have hbegin : Reached start codes 0 _ := Reached.going [] balanced_nil
    rwa [advanced_zero hstart hnext] at hbegin
  | succ m ih =>
    have hlt : m < codes.length := hm
    have hcode : codes[m]? = some codes[m] := List.getElem?_eq_getElem hlt
    rw [take_succ_of_getElem? hcode, List.map_append, emitEvents_append]
    have hbefore := ih (Nat.le_of_lt hlt)
    generalize hresult : emitEvents 0 ((codes.take m).map .ok) start = result at hbefore
    cases hbefore with
    | stopped i hi hcloses hbalanced =>
      rw [bind_of_error hresult]
      exact Reached.stopped i (Nat.lt_succ_of_lt hi) hcloses hbalanced
    | going positions hopen =>
      have hstep := reached_emitCode h hloops hcode hopen
      rw [bind_of_ok hresult, Nat.zero_add, List.length_take_of_le (Nat.le_of_lt hlt)]
      simpa [emitEvents] using hstep

/-- The emitter once it has started over with a sink. -/
def restarted (emitter : Emitter) (sink : Sink) : Emitter :=
  { emitter with sink := some sink, openLoops := [], nextLabel := 1, lines := 0 }

theorem restart_eq (sink : Sink) : restart sink emitter = .ok () (emitter.restarted sink) := rfl

theorem working_restarted {sink : Sink} (h : sink.quota = none) :
    (emitter.restarted sink).Working := ⟨sink, rfl, h⟩

/-- The emitter once it has started over and its prologue is out. -/
def started (emitter : Emitter) (sink : Sink) : Emitter :=
  (emitter.restarted sink).delivered (prologue emitter.tapeSize)

theorem emitPrologue_of_working (h : emitter.Working)
    (hsize : Number.Writable emitter.tapeSize) :
    emitPrologue emitter = .ok () (emitter.delivered (prologue emitter.tapeSize)) :=
  emitAll_of_working h fun _ hline => writable_of_mem_prologue hsize hline

/-- The text in a fresh sink once the prologue and the blocks of the first instructions are
out. -/
theorem text?_advanced_started (emitter : Emitter) (codes : List Instruction) (m : Nat)
    (positions : List Nat) :
    ((emitter.started .empty).advanced codes m positions).text? =
      some (textOf (prologue emitter.tapeSize ++ layout codes m)) := by
  have hfresh : (emitter.restarted .empty).text? = some "" := rfl
  rw [text?_advanced, started, text?_delivered, hfresh, Option.map_some, Option.map_some,
    String.empty_append, textOf_append]

/-- How a run over a program ends, and what it leaves. -/
inductive Ended (start : Emitter) (codes : List Instruction) :
    EStateM.Result EmitError Emitter Unit → Prop
  | finished (balanced : Balanced codes) :
    Ended start codes (.ok () (start.advanced codes codes.length []))
  | unclosed (p : Nat) (outer : List Nat) (isOpen : OpenAt codes (p :: outer)) :
    Ended start codes (.error (.loops (.unclosed (p :: outer).length))
      (start.advanced codes codes.length (p :: outer)))
  | unmatched (i : Nat) (lt : i < codes.length) (closes : codes[i]? = some .loopEnd)
    (balanced : Balanced (codes.take i)) :
    Ended start codes (.error (.loops (.unmatchedEnd i)) (start.advanced codes i []))

theorem checkClosed_of_nil (h : emitter.openLoops = []) : checkClosed emitter = .ok () emitter := by
  simp [checkClosed, bind_of_ok (rfl : (get : Action Emitter) emitter = .ok emitter emitter), h]
  rfl

theorem checkClosed_of_cons {label : Nat} {others : List Nat}
    (h : emitter.openLoops = label :: others) :
    checkClosed emitter = .error (.loops (.unclosed (label :: others).length)) emitter := by
  simp [checkClosed, bind_of_ok (rfl : (get : Action Emitter) emitter = .ok emitter emitter), h]
  rfl

/-- Every run into a sink that takes everything, over a program whose labels can be written,
ends in one of three ways. -/
theorem ended_run {sink : Sink} (hsink : sink.quota = none)
    (hsize : Number.Writable emitter.tapeSize)
    (hloops : Number.Writable (codes.count .loopStart)) :
    Ended (emitter.started sink) codes (run (codes.map .ok) sink emitter) := by
  have hworking : (emitter.restarted sink).Working := working_restarted hsink
  have hprologue : emitPrologue (emitter.restarted sink) = .ok () (emitter.started sink) :=
    emitPrologue_of_working hworking hsize
  have hevents : Reached (emitter.started sink) codes codes.length
      (emitEvents 0 ((codes.take codes.length).map .ok) (emitter.started sink)) :=
    reached_emitEvents_take (hworking.delivered _) rfl rfl hloops (Nat.le_refl _)
  rw [List.take_length] at hevents
  rw [run, bind_of_ok (restart_eq sink), bind_of_ok hprologue]
  generalize hresult : emitEvents 0 (codes.map .ok) (emitter.started sink) = result at hevents
  cases hevents with
  | stopped i hi hcloses hbalanced =>
    rw [bind_of_error hresult]
    exact Ended.unmatched i hi hcloses hbalanced
  | going positions hopen =>
    rw [List.take_length] at hopen
    rw [bind_of_ok hresult]
    -- All blocks are out, and what is left to look at is whether a loop is still open.
    cases positions with
    | nil =>
      rw [checkClosed_of_nil rfl]
      exact Ended.finished hopen
    | cons p outer =>
      rw [checkClosed_of_cons rfl]
      have hend : Ended (emitter.started sink) codes _ := Ended.unclosed p outer hopen
      simpa using hend

end Emitter

end TapeCompiler
