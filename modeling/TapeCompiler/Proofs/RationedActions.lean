/-
# Actions under a quota

A sink may take so many writes and then fail. An action of the emitter that meets
such a sink does what it does with a sink that takes everything, up to the first write
that is refused. There it fails, and leaves the emitter as the unhindered action has it
at that moment. A label is pushed or popped before its line is written, so it has been
pushed or popped when its line is refused.

The comparison of an action with itself under a quota goes through sequences. It is made
here for one line, for the block of one instruction and for a whole source.
-/

import TapeCompiler.Proofs.Acceptance

namespace TapeCompiler

open Assembly

namespace Assembly

@[simp] theorem writesOf_nil : writesOf [] = [] := rfl

@[simp] theorem writesOf_cons (line : Line) (rest : List Line) :
    writesOf (line :: rest) = line.text :: "\n" :: writesOf rest := rfl

/-- Every line is two writes. -/
@[simp] theorem length_writesOf (lines : List Line) :
    (writesOf lines).length = 2 * lines.length := by
  induction lines with
  | nil => rfl
  | cons line rest ih =>
    simp only [writesOf_cons, List.length_cons, ih]
    omega

/-- The line feeds among the first writes end the lines of which both writes are there. -/
theorem count_newline_join_take_writesOf (lines : List Line) (k : Nat) (h : k ≤ 2 * lines.length) :
    (String.join ((writesOf lines).take k)).toList.count '\n' = k / 2 := by
  induction lines generalizing k with
  | nil =>
    obtain rfl : k = 0 := Nat.le_zero.1 h
    rfl
  | cons line rest ih =>
    have hline : line.text.toList.count '\n' = 0 := List.count_eq_zero.2 line.newline_notMem_text
    match k with
    | 0 => rfl
    | 1 => simp [hline]
    | k + 2 =>
      have hrest := ih k (by rw [List.length_cons] at h; omega)
      rw [writesOf_cons, List.take_succ_cons, List.take_succ_cons, String.join_cons,
        String.join_cons, String.toList_append, String.toList_append, List.count_append,
        List.count_append, hline, hrest]
      simp
      omega

end Assembly

namespace Emitter

variable {α β : Type} {emitter middle : Emitter} {lines first second : List Line}
  {openLoops : List Nat} {nextLabel k : Nat} {fault : IoFault} {quota : Quota}

/-! ## Emitters between two writes -/

/-- The emitter that an action leaves, whether it failed or not. -/
def leftBy : EStateM.Result EmitError Emitter α → Emitter
  | .ok _ emitter => emitter
  | .error _ emitter => emitter

/-- The writes that the sink of an emitter took, in order. -/
def writes (emitter : Emitter) : List String :=
  (emitter.sink.map fun sink => sink.accepted.reverse).getD []

/-- The emitter with a quota on the further writes to its sink. -/
def rationed (emitter : Emitter) (quota : Quota) : Emitter :=
  { emitter with sink := emitter.sink.map fun sink => { sink with quota := some quota } }

/-- A result with a quota put on the emitter in it. -/
def rationedResult (quota : Quota) :
    EStateM.Result EmitError Emitter α → EStateM.Result EmitError Emitter α
  | .ok value emitter => .ok value (emitter.rationed quota)
  | .error error emitter => .error error (emitter.rationed quota)

/-- The emitter once its sink has taken the first writes of some lines. -/
def interrupted (emitter : Emitter) (lines : List Line) (k : Nat) : Emitter :=
  { emitter with
    sink := emitter.sink.map fun sink =>
      { sink with accepted := ((writesOf lines).take k).reverse ++ sink.accepted }
    -- A line counts once both its writes are through.
    lines := emitter.lines + k / 2 }

theorem interrupted_append_left (h : k ≤ 2 * first.length) :
    emitter.interrupted (first ++ second) k = emitter.interrupted first k := by
  have htake : (writesOf (first ++ second)).take k = (writesOf first).take k := by
    rw [writesOf_append, List.take_append_of_le_length (by rwa [length_writesOf])]
  rw [interrupted, interrupted, htake]

theorem interrupted_append_right (emitter : Emitter) (first second : List Line) (k : Nat) :
    emitter.interrupted (first ++ second) (2 * first.length + k) =
      (emitter.delivered first).interrupted second k := by
  have htake : (writesOf (first ++ second)).take (2 * first.length + k) =
      writesOf first ++ (writesOf second).take k := by
    rw [writesOf_append, ← length_writesOf, List.take_length_add_append]
  have hlines : (2 * first.length + k) / 2 = first.length + k / 2 := by omega
  simp only [interrupted, delivered, htake, hlines, List.reverse_append, List.append_assoc,
    Option.map_map, Nat.add_assoc]
  rfl

theorem writes_delivered (h : emitter.Working) (lines : List Line) :
    (emitter.delivered lines).writes = emitter.writes ++ writesOf lines := by
  obtain ⟨sink, hsink, -⟩ := h
  simp [writes, delivered, hsink]

/-! ## Actions under a quota -/

/-- An action that makes the writes of some lines, compared with itself under a quota. With a
quota large enough nothing is different. Otherwise the first write beyond the quota fails, and the
emitter is left with the labels that the unhindered action has at this write; these are the ones
in question. -/
structure Metered (action : Action α) (emitter : Emitter) (lines : List Line)
    (labels : Nat → List Nat → Nat → Prop) : Prop where
  ends : ∃ openLoops nextLabel, leftBy (action emitter) =
    (emitter.withLoops openLoops nextLabel).delivered lines
  unrefused : ∀ fault next, action emitter ≠ .error (.sink fault) next
  enough : ∀ k fault, 2 * lines.length ≤ k → action (emitter.rationed ⟨k, fault⟩) =
    rationedResult ⟨k - 2 * lines.length, fault⟩ (action emitter)
  short : ∀ k fault, k < 2 * lines.length → ∃ openLoops nextLabel, labels k openLoops nextLabel ∧
    action (emitter.rationed ⟨k, fault⟩) = .error (.sink fault)
      (((emitter.withLoops openLoops nextLabel).interrupted lines k).rationed ⟨0, fault⟩)

namespace Metered

variable {action : Action α} {rest : α → Action β} {value : α}
  {labels labels' : Nat → List Nat → Nat → Prop}

theorem mono (h : Metered action emitter lines labels)
    (hlabels : ∀ k openLoops nextLabel, k < 2 * lines.length → labels k openLoops nextLabel →
      labels' k openLoops nextLabel) :
    Metered action emitter lines labels' := by
  refine ⟨h.ends, h.unrefused, h.enough, fun k fault hk => ?_⟩
  obtain ⟨openLoops, nextLabel, hat, hresult⟩ := h.short k fault hk
  exact ⟨openLoops, nextLabel, hlabels k openLoops nextLabel hk hat, hresult⟩

theorem congr {other : Action α} (h : Metered action emitter lines labels)
    (hfree : other emitter = action emitter)
    (hquota : ∀ quota, other (emitter.rationed quota) = action (emitter.rationed quota)) :
    Metered other emitter lines labels := by
  refine ⟨?_, ?_, fun k fault hk => ?_, fun k fault hk => ?_⟩
  · rw [hfree]
    exact h.ends
  · rw [hfree]
    exact h.unrefused
  · rw [hquota, hfree]
    exact h.enough k fault hk
  · rw [hquota]
    exact h.short k fault hk

/-- An action that makes no write and goes through. -/
theorem of_ok (hfree : action emitter = .ok value (emitter.withLoops openLoops nextLabel))
    (hquota : ∀ quota, action (emitter.rationed quota) =
      .ok value ((emitter.rationed quota).withLoops openLoops nextLabel)) :
    Metered action emitter [] labels := by
  refine ⟨⟨openLoops, nextLabel, ?_⟩, fun fault next => ?_, fun k fault _ => ?_,
    fun k fault hk => absurd hk (Nat.not_lt_zero k)⟩
  · rw [hfree, delivered_nil]
    rfl
  · rw [hfree]
    rintro ⟨⟩
  · rw [hquota, hfree]
    rfl

/-- An action that makes no write and fails, though not on the sink. -/
theorem of_error {error : EmitError} (hfree : action emitter = .error error emitter)
    (hquota : ∀ quota, action (emitter.rationed quota) = .error error (emitter.rationed quota))
    (herror : ∀ fault, error ≠ .sink fault) :
    Metered action emitter [] labels := by
  refine ⟨⟨emitter.openLoops, emitter.nextLabel, ?_⟩, fun fault next hrefused => ?_,
    fun k fault _ => ?_, fun k fault hk => absurd hk (Nat.not_lt_zero k)⟩
  · rw [hfree, delivered_nil]
    rfl
  · rw [hfree] at hrefused
    cases hrefused
    exact herror fault rfl
  · rw [hquota, hfree]
    rfl

theorem working_of_eq_ok (h : Metered action emitter lines labels) (hworking : emitter.Working)
    (hok : action emitter = .ok value middle) : middle.Working := by
  obtain ⟨openLoops, nextLabel, hleft⟩ := h.ends
  rw [hok] at hleft
  rw [show middle = _ from hleft]
  exact (hworking.withLoops _ _).delivered _

theorem writes_leftBy (h : Metered action emitter lines labels) (hworking : emitter.Working) :
    (leftBy (action emitter)).writes = emitter.writes ++ writesOf lines := by
  obtain ⟨openLoops, nextLabel, hleft⟩ := h.ends
  rw [hleft, writes_delivered (hworking.withLoops _ _)]
  rfl

theorem length_writes_leftBy (h : Metered action emitter lines labels)
    (hworking : emitter.Working) :
    (leftBy (action emitter)).writes.length = emitter.writes.length + 2 * lines.length := by
  rw [h.writes_leftBy hworking, List.length_append, length_writesOf]

theorem length_writes_of_eq_ok (h : Metered action emitter lines labels)
    (hworking : emitter.Working) (hok : action emitter = .ok value middle) :
    middle.writes.length = emitter.writes.length + 2 * lines.length := by
  have hleft := h.length_writes_leftBy hworking
  rwa [hok] at hleft

/-- A sequence that its first action ends. -/
theorem bind_error {error : EmitError} (h : Metered action emitter lines labels)
    (herror : action emitter = .error error middle) :
    Metered (action >>= rest) emitter lines labels := by
  refine ⟨?_, fun fault next => ?_, fun k fault hk => ?_, fun k fault hk => ?_⟩
  · obtain ⟨openLoops, nextLabel, hleft⟩ := h.ends
    rw [herror] at hleft
    exact ⟨openLoops, nextLabel, by rw [bind_of_error herror]; exact hleft⟩
  · rw [bind_of_error herror, Ne]
    intro hrefused
    cases hrefused
    exact h.unrefused fault _ herror
  · have hfirst := h.enough k fault hk
    rw [herror] at hfirst
    rw [bind_of_error hfirst, bind_of_error herror]
    rfl
  · obtain ⟨openLoops, nextLabel, hat, hresult⟩ := h.short k fault hk
    exact ⟨openLoops, nextLabel, hat, bind_of_error hresult⟩

/-- A sequence in which the first action goes through. The writes of the second come behind those
of the first. -/
theorem bind (hfirst : Metered action emitter first labels)
    (hok : action emitter = .ok value middle)
    (hrest : Metered (rest value) middle second labels')
    (hlabels : ∀ k openLoops nextLabel, labels' k openLoops nextLabel →
      labels (2 * first.length + k) openLoops nextLabel) :
    Metered (action >>= rest) emitter (first ++ second) labels := by
  obtain ⟨between, betweenNext, hmiddle⟩ := hfirst.ends
  rw [hok] at hmiddle
  have hmiddle : middle = (emitter.withLoops between betweenNext).delivered first := hmiddle
  have hlength : 2 * (first ++ second).length = 2 * first.length + 2 * second.length := by
    rw [List.length_append, Nat.mul_add]
  have hpast : ∀ k fault, 2 * first.length ≤ k →
      (action >>= rest) (emitter.rationed ⟨k, fault⟩) =
        rest value (middle.rationed ⟨k - 2 * first.length, fault⟩) := by
    intro k fault hk
    have hthrough := hfirst.enough k fault hk
    rw [hok] at hthrough
    exact bind_of_ok hthrough
  refine ⟨?_, fun fault next => ?_, fun k fault hk => ?_, fun k fault hk => ?_⟩
  · obtain ⟨openLoops, nextLabel, hleft⟩ := hrest.ends
    refine ⟨openLoops, nextLabel, ?_⟩
    rw [bind_of_ok hok, hleft, delivered_append, hmiddle]
    rfl
  · rw [bind_of_ok hok]
    exact hrest.unrefused fault next
  · rw [hlength] at hk ⊢
    rw [hpast k fault (by omega), hrest.enough _ fault (by omega), bind_of_ok hok, Nat.sub_add_eq]
  · rw [hlength] at hk
    rcases Nat.lt_or_ge k (2 * first.length) with hearly | hlate
    · obtain ⟨openLoops, nextLabel, hat, hresult⟩ := hfirst.short k fault hearly
      refine ⟨openLoops, nextLabel, hat, ?_⟩
      rw [bind_of_error hresult, interrupted_append_left (Nat.le_of_lt hearly)]
    · obtain ⟨j, rfl⟩ := Nat.exists_eq_add_of_le hlate
      obtain ⟨openLoops, nextLabel, hat, hresult⟩ := hrest.short j fault (by omega)
      refine ⟨openLoops, nextLabel, hlabels j _ _ hat, ?_⟩
      rw [hpast _ fault hlate, Nat.add_sub_cancel_left, hresult, interrupted_append_right, hmiddle]
      rfl

end Metered

/-! ## Lines -/

/-- The labels of an emitter, whatever write it makes. -/
def SameLabels (emitter : Emitter) (_ : Nat) (openLoops : List Nat) (nextLabel : Nat) : Prop :=
  openLoops = emitter.openLoops ∧ nextLabel = emitter.nextLabel

theorem put_rationed_zero {sink : Sink} (hsink : emitter.sink = some sink) (piece : String) :
    put piece (emitter.rationed ⟨0, fault⟩) =
      .error (.sink fault) (emitter.rationed ⟨0, fault⟩) := by
  simp [put, rationed, hsink, Sink.write, Quota.spend, Bind.bind, Except.bind]

theorem put_rationed_succ {sink : Sink} (hsink : emitter.sink = some sink) (piece : String) :
    put piece (emitter.rationed ⟨k + 1, fault⟩) = .ok ()
      (rationed { emitter with sink := some { sink with accepted := piece :: sink.accepted } }
        ⟨k, fault⟩) := by
  simp [put, rationed, hsink, Sink.write, Quota.spend, Bind.bind, Except.bind, pure, Except.pure]

/-- A line that can be written makes two writes, and either may be the one that is refused. -/
theorem metered_emit {line : Line} (h : emitter.Working) (hline : line.Writable) :
    Metered (emit line) emitter [line] emitter.SameLabels := by
  have hfree := emit_of_working h hline
  obtain ⟨sink, hsink, -⟩ := h
  have hemit : emit line = emitText line.text := by rw [emit, Line.render?_eq_some_text hline]
  refine ⟨⟨emitter.openLoops, emitter.nextLabel, by rw [hfree]; rfl⟩, fun fault next => ?_,
    fun k fault hk => ?_, fun k fault hk => ⟨emitter.openLoops, emitter.nextLabel, ⟨rfl, rfl⟩, ?_⟩⟩
  · rw [hfree]
    rintro ⟨⟩
  · obtain ⟨left, rfl⟩ : ∃ left, k = left + 2 := Nat.exists_eq_add_of_le' hk
    rw [hfree, hemit, emitText, bind_of_ok (put_rationed_succ hsink _),
      bind_of_ok (put_rationed_succ rfl _)]
    simp only [delivered, hsink]
    rfl
  · have hrefused : k = 0 ∨ k = 1 := by
      rw [List.length_singleton] at hk
      omega
    rw [hemit, emitText]
    rcases hrefused with rfl | rfl
    · rw [bind_of_error (put_rationed_zero hsink _)]
      simp [rationed, interrupted, withLoops, hsink]
    · rw [bind_of_ok (put_rationed_succ hsink _), bind_of_error (put_rationed_zero rfl _)]
      simp [rationed, interrupted, withLoops, hsink]

/-- A line that cannot be written fails before it makes a write. -/
theorem metered_emit_of_not_writable {line : Line} (hline : ¬ line.Writable) :
    Metered (emit line) emitter [] emitter.SameLabels :=
  .of_error (emit_of_not_writable hline) (fun _ => emit_of_not_writable hline) nofun

/-- Lines are written without a look at the labels. -/
theorem metered_emitAll (h : emitter.Working) (lines : List Line) :
    ∃ done, Metered (emitAll lines) emitter done emitter.SameLabels := by
  induction lines generalizing emitter with
  | nil => exact ⟨[], .of_ok rfl fun _ => rfl⟩
  | cons line rest ih =>
    rw [emitAll]
    by_cases hline : line.Writable
    · obtain ⟨done, hrest⟩ := ih (h.delivered [line])
      exact ⟨[line] ++ done,
        (metered_emit h hline).bind (emit_of_working h hline) hrest fun _ _ _ hsame => hsame⟩
    · exact ⟨[], (metered_emit_of_not_writable hline).bind_error (emit_of_not_writable hline)⟩

/-! ## Instructions -/

/-- The first half of emitting an instruction: its label is pushed or popped, and then the lines
of its block are known. -/
def takeLabel (index : Int) : Instruction → Action (List Line)
  | .loopStart => do return [.label (← openLoop)]
  | .loopEnd => do return [.jumpBack (← closeLoop index)]
  | instruction => return simpleBlock instruction

/-- The second half writes the block. -/
theorem emitCode_eq_takeLabel_bind (index : Int) (instruction : Instruction) :
    emitCode index instruction = takeLabel index instruction >>= emitAll := by
  have hsingle : ∀ line, emitAll [line] = emit line := fun line => by simp [emitAll]
  cases instruction with
  | loopStart | loopEnd => simp [emitCode, takeLabel, hsingle]
  | _ => simp [emitCode, takeLabel]

theorem metered_takeLabel (emitter : Emitter) (index : Int) (instruction : Instruction)
    (labels : Nat → List Nat → Nat → Prop) :
    Metered (takeLabel index instruction) emitter [] labels := by
  cases instruction with
  | loopStart => exact .of_ok rfl fun _ => rfl
  | loopEnd =>
    cases hopen : emitter.openLoops with
    | nil =>
      exact .of_error (bind_of_error (closeLoop_of_nil hopen))
        (fun _ => bind_of_error (closeLoop_of_nil (by exact hopen))) nofun
    | cons label others =>
      exact .of_ok (bind_of_ok (closeLoop_of_cons hopen))
        fun _ => bind_of_ok (closeLoop_of_cons (by exact hopen))
  | _ => exact .of_ok rfl fun _ => rfl

/-- When a line of a block is refused, the label of the instruction has been taken. -/
theorem metered_emitCode (h : emitter.Working) (index : Int) (instruction : Instruction) :
    ∃ done, Metered (emitCode index instruction) emitter done fun _ openLoops nextLabel =>
      ∃ block labelled, takeLabel index instruction emitter = .ok block labelled ∧
        openLoops = labelled.openLoops ∧ nextLabel = labelled.nextLabel := by
  rw [emitCode_eq_takeLabel_bind]
  have htake := metered_takeLabel emitter index instruction
  cases hresult : takeLabel index instruction emitter with
  | error error labelled => exact ⟨[], (htake _).bind_error hresult⟩
  | ok block labelled =>
    have hworking : labelled.Working := (htake fun _ _ _ => True).working_of_eq_ok h hresult
    obtain ⟨done, hblock⟩ := metered_emitAll hworking block
    exact ⟨done, (htake _).bind hresult hblock fun _ _ _ hsame => ⟨block, labelled, rfl, hsame⟩⟩

/-- The labels of the unhindered emission of a source when it makes its write number `k`, counted
from the first write to the sink: they are those just behind the push or pop of the instruction
that makes this write. -/
inductive BlockLabels (index : Nat) (events : List Event) (start : Emitter) (k : Nat) :
    List Nat → Nat → Prop
  | intro (i : Nat) (instruction : Instruction) (before labelled : Emitter) (block : List Line)
    (occurs : events[i]? = some (.ok instruction))
    (reached : emitEvents index (events.take i) start = .ok () before)
    (taken : takeLabel (index + i : Nat) instruction before = .ok block labelled)
    (begun : before.writes.length ≤ k)
    (within : k < (leftBy (emitCode (index + i : Nat) instruction before)).writes.length) :
    BlockLabels index events start k labelled.openLoops labelled.nextLabel

theorem metered_emitEvents (h : emitter.Working) (index : Nat) (events : List Event) :
    ∃ done, Metered (emitEvents index events) emitter done fun k =>
      BlockLabels index events emitter (emitter.writes.length + k) := by
  induction events generalizing emitter index with
  | nil => exact ⟨[], .of_ok rfl fun _ => rfl⟩
  | cons event rest ih =>
    cases event with
    | error fault => exact ⟨[], .of_error rfl (fun _ => rfl) nofun⟩
    | ok instruction =>
      rw [emitEvents]
      obtain ⟨done, hcode⟩ := metered_emitCode h index instruction
      have hfirst : Metered (emitCode index instruction) emitter done fun k =>
          BlockLabels index (.ok instruction :: rest) emitter (emitter.writes.length + k) := by
        refine hcode.mono fun k openLoops nextLabel hk hat => ?_
        obtain ⟨block, labelled, htaken, rfl, rfl⟩ := hat
        refine .intro 0 instruction emitter labelled block rfl rfl htaken (Nat.le_add_right _ _) ?_
        rw [Nat.add_zero, hcode.length_writes_leftBy h]
        omega
      cases hresult : emitCode index instruction emitter with
      | error error stopped => exact ⟨done, hfirst.bind_error hresult⟩
      | ok _ middle =>
        have hcount : middle.writes.length = emitter.writes.length + 2 * done.length :=
          hcode.length_writes_of_eq_ok h hresult
        obtain ⟨more, hrest⟩ := ih (hcode.working_of_eq_ok h hresult) (index + 1)
        refine ⟨done ++ more, hfirst.bind hresult hrest fun k openLoops nextLabel hat => ?_⟩
        -- The position of an instruction behind the first is one more in the whole source.
        cases hat with
        | intro i later before labelled block occurs reached taken begun within =>
          have hindex : index + 1 + i = index + (i + 1) := by omega
          rw [hcount, Nat.add_assoc] at begun within
          rw [hindex] at taken within
          refine .intro (i + 1) later before labelled block occurs ?_ taken begun within
          rw [List.take_succ_cons, emitEvents, bind_of_ok hresult]
          exact reached

end Emitter

end TapeCompiler
