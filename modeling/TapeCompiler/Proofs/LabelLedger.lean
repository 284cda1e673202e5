/-
# The labels of an emitter

An emitter shows which loops are open and which label comes next, but not which labels
it has used up. So a record is kept beside it, of the labels that were opened and closed
since the emitter was new or last started over. Keeping the record changes nothing in
what the emitter does.

Every label below the next one has been opened once. It is open still, or it has been
closed once; and whenever a loop is closed, it is the one with the largest label among
those that are open. Operations that fail half way keep this up, since a label is
entered in the record when it is pushed or popped, and not when its line is written.
-/

import TapeCompiler.Proofs.EmitterHistory

namespace TapeCompiler.Emitter

open Assembly

/-! ## Records -/

/-- What happened to a label. -/
inductive LabelEvent
  | opened (label : Nat)
  | closed (label : Nat)
  deriving DecidableEq, Repr

/-- By a record, whose latest entry comes first, the label was opened and has not been closed. -/
def StillOpen (record : List LabelEvent) (label : Nat) : Prop :=
  .opened label ∈ record ∧ .closed label ∉ record

/-- The open loops, the innermost first, and the next label fit a record. -/
structure LabelsInOrder (openLoops : List Nat) (nextLabel : Nat) (record : List LabelEvent) :
    Prop where
  nextLabel_pos : 1 ≤ nextLabel
  /-- From the outermost loop to the innermost one labels go up. -/
  increasing : openLoops.reverse.Pairwise (· < ·)
  within : ∀ label ∈ openLoops, 1 ≤ label ∧ label < nextLabel
  opened : ∀ label, record.count (.opened label) = if 1 ≤ label ∧ label < nextLabel then 1 else 0
  closed : ∀ label, record.count (.closed label) =
    if 1 ≤ label ∧ label < nextLabel ∧ label ∉ openLoops then 1 else 0
  /-- A label that was closed was the largest one open at the time. -/
  largest : ∀ later label earlier, record = later ++ .closed label :: earlier →
    IsGreatest {other | StillOpen earlier other} label

namespace LabelsInOrder

variable {openLoops others : List Nat} {nextLabel label : Nat} {record : List LabelEvent}

/-- With nothing open and no label used, the record is empty. -/
theorem start : LabelsInOrder [] 1 [] where
  nextLabel_pos := Nat.le_refl 1
  increasing := .nil
  within := nofun
  opened label := by
    rw [List.count_nil, if_neg (by omega)]
  closed label := by
    rw [List.count_nil, if_neg (by omega)]
  largest later label earlier h := by simp at h

/-- The labels that a record leaves open are those of the open loops. -/
theorem stillOpen_iff (h : LabelsInOrder openLoops nextLabel record) :
    StillOpen record label ↔ label ∈ openLoops := by
  rw [StillOpen, ← List.count_pos_iff, ← List.count_eq_zero, h.opened, h.closed]
  constructor
  · rintro ⟨hopened, hclosed⟩
    by_cases hwithin : 1 ≤ label ∧ label < nextLabel
    · by_contra hmem
      rw [if_pos ⟨hwithin.1, hwithin.2, hmem⟩] at hclosed
      cases hclosed
    · rw [if_neg hwithin] at hopened
      exact absurd hopened (Nat.lt_irrefl 0)
  · intro hmem
    rw [if_pos (h.within label hmem), if_neg fun hgone => hgone.2.2 hmem]
    exact ⟨Nat.one_pos, rfl⟩

/-- The loops around the innermost one have smaller labels, which go up as well. -/
theorem increasing_others (h : LabelsInOrder (label :: others) nextLabel record) :
    others.reverse.Pairwise (· < ·) ∧ ∀ other ∈ others, other < label := by
  have hincreasing := h.increasing
  rw [List.reverse_cons, List.pairwise_append] at hincreasing
  refine ⟨hincreasing.1, fun other hmem => ?_⟩
  exact hincreasing.2.2 other (List.mem_reverse.2 hmem) label List.mem_cons_self

theorem isGreatest (h : LabelsInOrder (label :: others) nextLabel record) :
    IsGreatest {other | other ∈ label :: others} label := by
  refine ⟨List.mem_cons_self, ?_⟩
  intro other hmem
  rcases List.mem_cons.1 hmem with rfl | hmem
  · exact Nat.le_refl _
  · exact Nat.le_of_lt (h.increasing_others.2 other hmem)

/-- Opening a loop takes the next label. -/
theorem push (h : LabelsInOrder openLoops nextLabel record) :
    LabelsInOrder (nextLabel :: openLoops) (nextLabel + 1) (.opened nextLabel :: record) where
  nextLabel_pos := Nat.le_add_left 1 nextLabel
  increasing := by
    rw [List.reverse_cons, List.pairwise_append]
    refine ⟨h.increasing, List.pairwise_singleton _ _, ?_⟩
    intro label hmem other hother
    rw [List.mem_singleton.1 hother]
    exact (h.within label (List.mem_reverse.1 hmem)).2
  within := by
    intro label hmem
    rcases List.mem_cons.1 hmem with rfl | hmem
    · exact ⟨h.nextLabel_pos, Nat.lt_succ_self _⟩
    · obtain ⟨hpos, hlt⟩ := h.within label hmem
      exact ⟨hpos, Nat.lt_succ_of_lt hlt⟩
  opened := by
    intro label
    have hpos := h.nextLabel_pos
    by_cases hnew : label = nextLabel
    · subst hnew
      rw [List.count_cons_self, h.opened, if_neg (by omega), if_pos (by omega)]
    · have hapart : LabelEvent.opened label ≠ .opened nextLabel := by simpa using hnew
      rw [List.count_cons_of_ne hapart.symm, h.opened]
      exact if_congr (by omega) rfl rfl
  closed := by
    intro label
    have hapart : LabelEvent.opened nextLabel ≠ .closed label := nofun
    rw [List.count_cons_of_ne hapart, h.closed]
    refine if_congr ?_ rfl rfl
    rw [List.mem_cons, not_or]
    constructor
    · rintro ⟨hpos, hlt, hgone⟩
      exact ⟨hpos, Nat.lt_succ_of_lt hlt, Nat.ne_of_lt hlt, hgone⟩
    · rintro ⟨hpos, hlt, hold, hgone⟩
      exact ⟨hpos, by omega, hgone⟩
  largest := by
    intro later label earlier heq
    rcases List.cons_eq_append_iff.1 heq with ⟨-, hlast⟩ | ⟨between, -, hbefore⟩
    · cases hlast
    · exact h.largest between label earlier hbefore

/-- Closing a loop gives up the label of the innermost one. -/
theorem pop (h : LabelsInOrder (label :: others) nextLabel record) :
    LabelsInOrder others nextLabel (.closed label :: record) where
  nextLabel_pos := h.nextLabel_pos
  increasing := h.increasing_others.1
  within := fun other hmem => h.within other (List.mem_cons_of_mem _ hmem)
  opened := by
    intro other
    have hapart : LabelEvent.closed label ≠ .opened other := nofun
    rw [List.count_cons_of_ne hapart, h.opened]
  closed := by
    intro other
    have hwithin := h.within label List.mem_cons_self
    by_cases hnow : other = label
    · subst hnow
      have hgone : other ∉ others := fun hmem =>
        Nat.lt_irrefl other (h.increasing_others.2 other hmem)
      rw [List.count_cons_self, h.closed, if_neg fun hclosed => hclosed.2.2 List.mem_cons_self,
        if_pos ⟨hwithin.1, hwithin.2, hgone⟩]
    · have hapart : LabelEvent.closed other ≠ .closed label := by simpa using hnow
      rw [List.count_cons_of_ne hapart.symm, h.closed]
      refine if_congr ?_ rfl rfl
      rw [List.mem_cons, not_or, and_iff_right hnow]
  largest := by
    intro later other earlier heq
    rcases List.cons_eq_append_iff.1 heq with ⟨-, hlast⟩ | ⟨between, -, hbefore⟩
    · -- This is the closing in question, and what was open is on the stack.
      obtain ⟨hsame, rfl⟩ := List.cons.inj hlast
      cases hsame
      simp only [h.stillOpen_iff]
      exact h.isGreatest
    · exact h.largest between other earlier hbefore

end LabelsInOrder

/-! ## Emitters with a record -/

/-- An emitter beside the record of its labels since it was new or last started over. -/
structure Ledger where
  emitter : Emitter
  record : List LabelEvent

namespace Ledger

variable {α β : Type} {ledger : Ledger}

/-- An action on an emitter that also keeps the record. -/
abbrev Booking := EStateM EmitError Ledger

/-- A result without the record. -/
def erase : EStateM.Result EmitError Ledger α → EStateM.Result EmitError Emitter α
  | .ok value ledger => .ok value ledger.emitter
  | .error error ledger => .error error ledger.emitter

/-- What a booking leaves, whether it failed or not. -/
def leftBy : EStateM.Result EmitError Ledger α → Ledger
  | .ok _ ledger => ledger
  | .error _ ledger => ledger

/-- An action of which nothing is entered. -/
def unrecorded (action : Action α) : Booking α := fun ledger =>
  match action ledger.emitter with
  | .ok value next => .ok value { ledger with emitter := next }
  | .error error next => .error error { ledger with emitter := next }

/-- An action that answers with a label. The label is entered when the action goes through. -/
def recorded (entry : Nat → LabelEvent) (action : Action Nat) : Booking Nat := do
  let label ← unrecorded action
  modify fun ledger => { ledger with record := entry label :: ledger.record }
  return label

/-- Open a loop and enter its label. -/
def openLoop : Booking Nat := recorded .opened Emitter.openLoop

/-- Close a loop and enter its label. -/
def closeLoop (index : Int) : Booking Nat := recorded .closed (Emitter.closeLoop index)

/-- Emit the block of one instruction. -/
def emitCode (index : Int) : Instruction → Booking Unit
  | .loopStart => do unrecorded (emit (.label (← openLoop)))
  | .loopEnd => do unrecorded (emit (.jumpBack (← closeLoop index)))
  | instruction => unrecorded (emitAll (simpleBlock instruction))

/-- Emit the blocks of a source. -/
def emitEvents : Nat → List Event → Booking Unit
  | _, [] => pure ()
  | _, .error fault :: _ => throw (.source fault)
  | index, .ok instruction :: rest => do
    emitCode index instruction
    emitEvents (index + 1) rest

/-- Start over with a new sink and an empty record. -/
def restart (sink : Sink) : Booking Unit := do
  unrecorded (Emitter.restart sink)
  modify fun ledger => { ledger with record := [] }

/-- Emit a whole program into a new sink. -/
def run (events : List Event) (sink : Sink) : Booking Unit := do
  restart sink
  unrecorded emitPrologue
  emitEvents 0 events
  unrecorded checkClosed

/-- Perform an operation; only some of them have to do with labels. -/
def perform : Operation → Booking (Option Nat)
  | .run events sink => do run events sink; return none
  | .openLoop => do return some (← openLoop)
  | .closeLoop index => do return some (← closeLoop index)
  | .code index instruction => do emitCode index instruction; return none
  | operation => unrecorded operation.perform

/-- Emitter and record after an operation, whether it failed or not. -/
def after (ledger : Ledger) (operation : Operation) : Ledger := leftBy (perform operation ledger)

/-- Emitter and record after operations in order. -/
def afterAll (ledger : Ledger) (operations : List Operation) : Ledger :=
  operations.foldl after ledger

/-- The labels of the emitter fit the record. -/
def InOrder (ledger : Ledger) : Prop :=
  LabelsInOrder ledger.emitter.openLoops ledger.emitter.nextLabel ledger.record

/-! ## Keeping the record -/

/-- A booking does to the emitter what an action does, and keeps the record in order. -/
structure Books (booking : Booking α) (action : Action α) : Prop where
  erase_eq : ∀ ledger, erase (booking ledger) = action ledger.emitter
  inOrder : ∀ ledger, ledger.InOrder → (leftBy (booking ledger)).InOrder

namespace Books

theorem pure (value : α) : Books (pure value) (pure value) := ⟨fun _ => rfl, fun _ h => h⟩

theorem throw (error : EmitError) :
    Books (throw error : Booking α) (throw error) := ⟨fun _ => rfl, fun _ h => h⟩

theorem bind {booking : Booking α} {action : Action α} {others : α → Booking β}
    {rest : α → Action β} (h : Books booking action)
    (hrest : ∀ value, Books (others value) (rest value)) :
    Books (booking >>= others) (action >>= rest) := by
  constructor
  · intro ledger
    have hfirst := h.erase_eq ledger
    cases hresult : booking ledger with
    | ok value middle =>
      rw [hresult] at hfirst
      rw [bind_of_ok hfirst.symm, ← (hrest value).erase_eq middle]
      simp only [Bind.bind, EStateM.bind, hresult]
    | error error stopped =>
      rw [hresult] at hfirst
      rw [bind_of_error hfirst.symm]
      simp only [Bind.bind, EStateM.bind, hresult]
      rfl
  · intro ledger horder
    have hfirst := h.inOrder ledger horder
    cases hresult : booking ledger with
    | ok value middle =>
      rw [hresult] at hfirst
      have hlast := (hrest value).inOrder middle hfirst
      simpa only [Bind.bind, EStateM.bind, hresult] using hlast
    | error error stopped =>
      rw [hresult] at hfirst
      simp only [Bind.bind, EStateM.bind, hresult]
      exact hfirst

end Books

theorem erase_unrecorded (action : Action α) (ledger : Ledger) :
    erase (unrecorded action ledger) = action ledger.emitter := by
  unfold unrecorded
  cases action ledger.emitter <;> rfl

theorem leftBy_unrecorded (action : Action α) (ledger : Ledger) :
    leftBy (unrecorded action ledger) =
      ⟨Emitter.leftBy (action ledger.emitter), ledger.record⟩ := by
  unfold unrecorded
  cases action ledger.emitter <;> rfl

/-- The open loops and the next label. -/
def labels (emitter : Emitter) : List Nat × Nat := (emitter.openLoops, emitter.nextLabel)

theorem ignoresOutput_labels : IgnoresOutput labels := ⟨fun _ _ => rfl, fun _ _ => rfl⟩

/-- An action that keeps the labels needs no entry. -/
theorem books_unrecorded {action : Action α} (h : Keeps labels action) :
    Books (unrecorded action) action := by
  refine ⟨erase_unrecorded action, fun ledger horder => ?_⟩
  obtain ⟨hopen, hnext⟩ := Prod.ext_iff.1 (h ledger.emitter)
  dsimp only [labels] at hopen hnext
  rw [leftBy_unrecorded, InOrder, hopen, hnext]
  exact horder

theorem books_openLoop : Books openLoop Emitter.openLoop :=
  ⟨fun _ => rfl, fun _ horder => horder.push⟩

theorem closeLoop_of_nil {index : Int} (h : ledger.emitter.openLoops = []) :
    closeLoop index ledger = .error (.loops (.unmatchedEnd index)) ledger := by
  simp only [closeLoop, recorded, unrecorded, Bind.bind, EStateM.bind, Emitter.closeLoop_of_nil h]

theorem closeLoop_of_cons {index : Int} {label : Nat} {others : List Nat}
    (h : ledger.emitter.openLoops = label :: others) :
    closeLoop index ledger = .ok label
      ⟨ledger.emitter.withLoops others ledger.emitter.nextLabel,
        .closed label :: ledger.record⟩ := by
  simp only [closeLoop, recorded, unrecorded, Bind.bind, EStateM.bind, Emitter.closeLoop_of_cons h]
  rfl

theorem books_closeLoop (index : Int) : Books (closeLoop index) (Emitter.closeLoop index) := by
  constructor
  · intro ledger
    cases hopen : ledger.emitter.openLoops with
    | nil =>
      rw [closeLoop_of_nil hopen, Emitter.closeLoop_of_nil hopen]
      rfl
    | cons label others =>
      rw [closeLoop_of_cons hopen, Emitter.closeLoop_of_cons hopen]
      rfl
  · intro ledger horder
    cases hopen : ledger.emitter.openLoops with
    | nil =>
      rw [closeLoop_of_nil hopen]
      exact horder
    | cons label others =>
      rw [closeLoop_of_cons hopen]
      rw [InOrder, hopen] at horder
      exact horder.pop

theorem books_restart (sink : Sink) : Books (restart sink) (Emitter.restart sink) :=
  ⟨fun _ => rfl, fun _ _ => .start⟩

theorem books_emitCode (index : Int) (instruction : Instruction) :
    Books (emitCode index instruction) (Emitter.emitCode index instruction) := by
  have hemit := fun line => books_unrecorded (ignoresOutput_labels.keeps_emit line)
  cases instruction with
  | loopStart => exact books_openLoop.bind fun label => hemit (.label label)
  | loopEnd => exact (books_closeLoop index).bind fun label => hemit (.jumpBack label)
  | _ => exact books_unrecorded (ignoresOutput_labels.keeps_emitAll _)

theorem books_emitEvents (index : Nat) (events : List Event) :
    Books (emitEvents index events) (Emitter.emitEvents index events) := by
  induction events generalizing index with
  | nil => exact .pure ()
  | cons event rest ih =>
    cases event with
    | error fault => exact .throw _
    | ok instruction => exact (books_emitCode index instruction).bind fun _ => ih (index + 1)

theorem books_run (events : List Event) (sink : Sink) :
    Books (run events sink) (Emitter.run events sink) :=
  (books_restart sink).bind fun _ =>
    (books_unrecorded ignoresOutput_labels.keeps_emitPrologue).bind fun _ =>
      (books_emitEvents 0 events).bind fun _ => books_unrecorded (keeps_checkClosed labels)

/-- Every operation keeps the record in order, and the record does not disturb it. -/
theorem books_perform (operation : Operation) : Books (perform operation) operation.perform := by
  cases operation with
  | run events sink => exact (books_run events sink).bind fun _ => .pure _
  | openLoop => exact books_openLoop.bind fun _ => .pure _
  | closeLoop index => exact (books_closeLoop index).bind fun _ => .pure _
  | code index instruction => exact (books_emitCode index instruction).bind fun _ => .pure _
  -- The others write lines or change the sink, and no label is involved.
  | attach sink =>
    exact books_unrecorded ((ignoresOutput_labels.keeps_attach sink).bind fun _ => .pure _)
  | emitText line =>
    exact books_unrecorded ((ignoresOutput_labels.keeps_emitText line).bind fun _ => .pure _)
  | prologue =>
    exact books_unrecorded (ignoresOutput_labels.keeps_emitPrologue.bind fun _ => .pure _)

theorem emitter_after (ledger : Ledger) (operation : Operation) :
    (ledger.after operation).emitter = ledger.emitter.after operation := by
  rw [after_eq_leftBy, ← (books_perform operation).erase_eq ledger, after]
  cases perform operation ledger <;> rfl

theorem emitter_afterAll (ledger : Ledger) (operations : List Operation) :
    (ledger.afterAll operations).emitter = ledger.emitter.afterAll operations := by
  induction operations generalizing ledger with
  | nil => rfl
  | cons operation rest ih =>
    have hrest := ih (ledger.after operation)
    rw [emitter_after] at hrest
    exact hrest

theorem InOrder.afterAll (h : ledger.InOrder) (operations : List Operation) :
    (ledger.afterAll operations).InOrder := by
  induction operations generalizing ledger with
  | nil => exact h
  | cons operation rest ih => exact ih ((books_perform operation).inOrder ledger h)

end Ledger

variable {emitter : Emitter}

/-- **Labels are used once and in order.** Let a new emitter go through any operations, each of
which may fail, and keep the record of its labels. The record does not disturb the emitter, and
behind the last operation the labels fit it: the next label is positive; the labels of the open
loops go up from the outermost to the innermost and are positive and below the next one; every
label below the next one was opened once since the emitter last started over, and is open still or
was closed once; no other label was opened or closed; and every closing gave up the largest label
that was open, as the next one will. -/
theorem labels_in_order_afterAll {value : Value} (hcreate : create value = .ok emitter)
    (operations : List Operation) :
    ∃ record, Ledger.afterAll ⟨emitter, []⟩ operations = ⟨emitter.afterAll operations, record⟩ ∧
      LabelsInOrder (emitter.afterAll operations).openLoops
        (emitter.afterAll operations).nextLabel record ∧
      ∀ index label next, closeLoop index (emitter.afterAll operations) = .ok label next →
        IsGreatest {other | other ∈ (emitter.afterAll operations).openLoops} label := by
  obtain ⟨size, hpos, -, rfl⟩ := exists_of_create_eq_ok hcreate
  have hstart : Ledger.InOrder ⟨ofSize size.toNat hpos, []⟩ := LabelsInOrder.start
  have horder := hstart.afterAll operations
  have hemitter := Ledger.emitter_afterAll ⟨ofSize size.toNat hpos, []⟩ operations
  generalize Ledger.afterAll ⟨ofSize size.toNat hpos, []⟩ operations = ledger at horder hemitter
  obtain ⟨final, record⟩ := ledger
  obtain rfl : final = (ofSize size.toNat hpos).afterAll operations := hemitter
  refine ⟨record, rfl, horder, fun index label next hclose => ?_⟩
  cases hopen : ((ofSize size.toNat hpos).afterAll operations).openLoops with
  | nil =>
    rw [closeLoop_of_nil hopen] at hclose
    cases hclose
  | cons top others =>
    rw [closeLoop_of_cons hopen] at hclose
    cases hclose
    simp only [Ledger.InOrder, hopen] at horder
    exact horder.isGreatest

/-- Two loops are opened without a sink, so that writing their lines fails, and one is closed. -/
theorem labels_in_order_afterAll_without_sink :
    create (.int 8) = .ok (.ofSize 8 (by decide)) ∧
      LabelsInOrder
        ((ofSize 8 (by decide)).afterAll
          [.code 0 .loopStart, .code 1 .loopStart, .code 2 .loopEnd]).openLoops
        ((ofSize 8 (by decide)).afterAll
          [.code 0 .loopStart, .code 1 .loopStart, .code 2 .loopEnd]).nextLabel
        [.closed 2, .opened 2, .opened 1] := by
  have hcreate : create (.int 8) = .ok (.ofSize 8 (by decide)) := rfl
  have hrecord : (Ledger.afterAll ⟨.ofSize 8 (by decide), []⟩
      [.code 0 .loopStart, .code 1 .loopStart, .code 2 .loopEnd]).record =
        [.closed 2, .opened 2, .opened 1] := by decide +kernel
  obtain ⟨record, hledger, horder, -⟩ := labels_in_order_afterAll hcreate
    [.code 0 .loopStart, .code 1 .loopStart, .code 2 .loopEnd]
  rw [hledger] at hrecord
  obtain rfl : record = [.closed 2, .opened 2, .opened 1] := hrecord
  exact ⟨hcreate, horder⟩

end TapeCompiler.Emitter
