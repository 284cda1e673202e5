/-
# Sources that fail

A sequence of items fails at its first bad item, and the instructions before that item are known
by then. An emitter that takes them as they are read has emitted their blocks when the source
fails: it leaves what the run over these instructions alone leaves, and only the failure may be
another one. A closing bracket without a loop is met before the bad item and stops both; an open
loop would be found at the end, to which a source that fails never comes.

To read the whole source first is to see nothing but its failure. Where no item is bad the two
ways agree.
-/

import TapeCompiler.Proofs.EmitterHistory

namespace TapeCompiler

open Brackets

/-! ## Bad items -/

namespace Value

variable {item : Value}

/-- A bad item: a list, or a number that is no code point. -/
def IsBad : Value → Prop
  | list _ => True
  | int n => n < 0 ∨ 0x10FFFF < n
  | _ => False

instance : DecidablePred IsBad
  | list _ => .isTrue trivial
  | int n => inferInstanceAs (Decidable (n < 0 ∨ 0x10FFFF < n))
  | none | bool _ | float _ | text _ => .isFalse id

theorem exists_readCode_eq_error_iff {n : Int} :
    (∃ fault, readCode n = .error fault) ↔ n < 0 ∨ 0x10FFFF < n := by
  unfold readCode
  split
  · exact iff_of_true ⟨_, rfl⟩ (by omega)
  · split
    · exact iff_of_true ⟨_, rfl⟩ (by omega)
    · exact iff_of_false nofun (by omega)

/-- The bad items are those that cannot be read. -/
theorem exists_read_eq_error_iff : (∃ fault, item.read = .error fault) ↔ item.IsBad := by
  cases item with
  | int n => exact exists_readCode_eq_error_iff
  | bool b =>
    -- A truth value counts as zero or one, and both are code points.
    refine iff_of_false ?_ id
    rw [read, exists_readCode_eq_error_iff]
    cases b <;> decide
  | list items => exact iff_of_true ⟨_, rfl⟩ trivial
  | none | float _ | text _ => exact iff_of_false nofun id

theorem exists_read_eq_ok (h : ¬ item.IsBad) : ∃ found, item.read = .ok found := by
  cases hread : item.read with
  | error fault => exact absurd (exists_read_eq_error_iff.1 ⟨fault, hread⟩) h
  | ok found => exact ⟨found, rfl⟩

end Value

namespace Source

variable {before rest behind : List Value} {item : Value} {codes : List Instruction}
  {fault : SourceFault}

/-- The instructions of items that can all be read, whatever stands behind them. -/
structure InstructionsOf (before : List Value) (codes : List Instruction) : Prop where
  length_le : codes.length ≤ before.length
  filterItems_append : ∀ rest,
    filterItems (before ++ rest) = (filterItems rest).map (codes ++ ·)
  eventsOfItems_append : ∀ rest,
    eventsOfItems (before ++ rest) = codes.map .ok ++ eventsOfItems rest

theorem exists_instructionsOf (h : ∀ item ∈ before, ¬ item.IsBad) :
    ∃ codes, InstructionsOf before codes := by
  induction before with
  | nil =>
    refine ⟨[], Nat.le_refl 0, fun rest => ?_, fun rest => rfl⟩
    cases hrest : filterItems rest <;> simp [hrest, Except.map]
  | cons item others ih =>
    obtain ⟨hitem, hothers⟩ := List.forall_mem_cons.1 h
    obtain ⟨found, hfound⟩ := Value.exists_read_eq_ok hitem
    obtain ⟨codes, hcodes⟩ := ih hothers
    have hlength := hcodes.length_le
    refine ⟨found.toList ++ codes, ?_, fun rest => ?_, fun rest => ?_⟩
    · cases found <;> simp <;> omega
    · rw [List.cons_append, filterItems, hfound, hcodes.filterItems_append]
      cases filterItems rest <;> simp [bind, Except.bind, Except.map, pure, Except.pure]
    · rw [List.cons_append, eventsOfItems, hfound, hcodes.eventsOfItems_append]
      cases found <;> simp

namespace InstructionsOf

variable (h : InstructionsOf before codes)
include h

theorem filter_eq : (items before).filter = .ok codes := by
  have hall := h.filterItems_append []
  rwa [List.append_nil, filterItems, Except.map, List.append_nil] at hall

theorem filter_eq_error (hitem : item.read = .error fault) (behind : List Value) :
    (items (before ++ item :: behind)).filter = .error fault := by
  rw [filter, h.filterItems_append, filterItems, hitem]
  rfl

theorem events_eq (hitem : item.read = .error fault) (behind : List Value) :
    (items (before ++ item :: behind)).events = codes.map .ok ++ [.error fault] := by
  rw [events, h.eventsOfItems_append, eventsOfItems, hitem]

end InstructionsOf

end Source

/-- Generation from a source that is read to its end first. -/
def generateWhole (source : Source) (size : Value) : Except EmitError String :=
  match source.filter with
  | .error fault => .error (.source fault)
  | .ok codes => generate codes size

/-! ## Runs -/

namespace Emitter

variable {emitter reached stopped : Emitter} {codes : List Instruction} {fault : SourceFault}
  {sink : Sink} {events : List Event} {error : EmitError}

/-- A run without the look at the open loops that ends it. -/
def emitted (events : List Event) (sink : Sink) : Action Unit := do
  restart sink
  emitPrologue
  emitEvents 0 events

theorem run_eq_emitted_bind (events : List Event) (sink : Sink) :
    run events sink = (do emitted events sink; checkClosed) := by
  simp only [run, emitted, bind_assoc]

/-- What a run leaves is settled before it looks at the open loops. -/
theorem leftBy_run (events : List Event) (sink : Sink) (emitter : Emitter) :
    leftBy (run events sink emitter) = leftBy (emitted events sink emitter) := by
  rw [run_eq_emitted_bind]
  cases hemitted : emitted events sink emitter with
  | ok _ reached =>
    rw [bind_of_ok hemitted]
    exact keeps_checkClosed id reached
  | error error stopped => rw [bind_of_error hemitted]

theorem run_of_emitted_eq_error (h : emitted events sink emitter = .error error stopped) :
    run events sink emitter = .error error stopped := by
  rw [run_eq_emitted_bind, bind_of_error h]

theorem emitted_append_fault (codes : List Instruction) (fault : SourceFault) (sink : Sink) :
    emitted (codes.map .ok ++ [.error fault]) sink =
      (do emitted (codes.map .ok) sink; throw (.source fault)) := by
  simp only [emitted, emitEvents_append, bind_assoc]
  rfl

/-- A run that comes to the end of a program fails there if the source does. -/
theorem run_append_fault_of_ok (h : emitted (codes.map .ok) sink emitter = .ok () reached) :
    run (codes.map .ok ++ [.error fault]) sink emitter = .error (.source fault) reached := by
  apply run_of_emitted_eq_error
  rw [emitted_append_fault, bind_of_ok h]
  rfl

/-- A run that stops within a program does not see that the source would fail behind it. -/
theorem run_append_fault_of_error
    (h : emitted (codes.map .ok) sink emitter = .error error stopped) :
    run (codes.map .ok ++ [.error fault]) sink emitter = .error error stopped := by
  apply run_of_emitted_eq_error
  rw [emitted_append_fault, bind_of_error h]

theorem reached_emitted (hsink : sink.quota = none) (hsize : Number.Writable emitter.tapeSize)
    (hloops : Number.Writable (codes.count .loopStart)) :
    Reached (emitter.started sink) codes codes.length (emitted (codes.map .ok) sink emitter) := by
  have hworking : (emitter.restarted sink).Working := working_restarted hsink
  have hprologue : emitPrologue (emitter.restarted sink) = .ok () (emitter.started sink) :=
    emitPrologue_of_working hworking hsize
  have hevents : Reached (emitter.started sink) codes codes.length
      (emitEvents 0 ((codes.take codes.length).map .ok) (emitter.started sink)) :=
    reached_emitEvents_take (hworking.delivered _) rfl rfl hloops (Nat.le_refl _)
  rw [List.take_length] at hevents
  rwa [emitted, bind_of_ok (restart_eq sink), bind_of_ok hprologue]

/-- How a run ends whose source fails behind a program, beside the run over the program alone. -/
inductive CutShort (codes : List Instruction) (fault : SourceFault) :
    EStateM.Result EmitError Emitter Unit → EStateM.Result EmitError Emitter Unit → Prop
  | unmatched (i : Nat) (stopped : Emitter) (below : ¬ NeverBelow codes) :
    CutShort codes fault (.error (.loops (.unmatchedEnd i)) stopped)
      (.error (.loops (.unmatchedEnd i)) stopped)
  | failed (reached : Emitter) (alone : EStateM.Result EmitError Emitter Unit)
    (below : NeverBelow codes) (left : leftBy alone = reached) :
    CutShort codes fault (.error (.source fault) reached) alone

theorem cutShort_run (hsink : sink.quota = none) (hsize : Number.Writable emitter.tapeSize)
    (hloops : Number.Writable (codes.count .loopStart)) (fault : SourceFault) :
    CutShort codes fault (run (codes.map .ok ++ [.error fault]) sink emitter)
      (run (codes.map .ok) sink emitter) := by
  have hreached : Reached (emitter.started sink) codes codes.length _ :=
    reached_emitted hsink hsize hloops
  have hleft := leftBy_run (codes.map .ok) sink emitter
  generalize hemitted : emitted (codes.map .ok) sink emitter = result at hreached hleft
  cases hreached with
  | stopped i hi hcloses hbalanced =>
    -- Neither run comes to the place where they differ.
    rw [run_append_fault_of_error hemitted, run_of_emitted_eq_error hemitted]
    exact .unmatched i _ (not_neverBelow_of_isLeast (isLeast_depth_neg hcloses hbalanced))
  | going positions hopen =>
    -- The source fails where the run over the program alone looks at the open loops.
    rw [List.take_length] at hopen
    rw [run_append_fault_of_ok hemitted]
    exact .failed _ _ hopen.neverBelow_and_depth_eq.1 hleft

namespace CutShort

variable {result alone : EStateM.Result EmitError Emitter Unit}
  (h : CutShort codes fault result alone)
include h

theorem leftBy_eq : leftBy result = leftBy alone := by
  cases h with
  | unmatched => rfl
  | failed reached alone _ hleft => exact hleft.symm

theorem exists_eq_unmatchedEnd (hbelow : ¬ NeverBelow codes) :
    ∃ index stopped, result = .error (.loops (.unmatchedEnd index)) stopped ∧
      alone = .error (.loops (.unmatchedEnd index)) stopped := by
  cases h with
  | unmatched i stopped _ => exact ⟨i, stopped, rfl, rfl⟩
  | failed _ _ hnever _ => exact absurd hnever hbelow

theorem eq_source_of_neverBelow (hbelow : NeverBelow codes) :
    ∃ stopped, result = .error (.source fault) stopped := by
  cases h with
  | unmatched _ _ hnot => exact absurd hbelow hnot
  | failed reached _ _ _ => exact ⟨reached, rfl⟩

end CutShort

/-! ## Two ways to generate -/

/-- **Generation from a source that fails.** Take items whose number can be written and an
emitter for a tape whose size can be. Let an item be the first bad one. The run that reads
the items as it goes leaves the text that the run over the instructions before that item leaves. It
fails as that run does, at the same bracket, if a closing bracket there finds no open loop, and
otherwise with the fault of the item, also where loops are open. Read to its end first, the source
fails with the fault of the item, so nothing is emitted. If no item is bad, the two ways give the
same text, or the same failure. -/
theorem lazy_run_over_items (values : List Value) (emitter : Emitter)
    (hsize : Number.Writable emitter.tapeSize) (hcount : Number.Writable values.length) :
    (∀ before item behind, values = before ++ item :: behind →
      (∀ other ∈ before, ¬ other.IsBad) → item.IsBad →
      ∃ codes fault text,
        (Source.items before).filter = .ok codes ∧ item.read = .error fault ∧
        (leftBy (run (codes.map .ok) .empty emitter)).text? = some text ∧
        (leftBy (run (Source.items values).events .empty emitter)).text? = some text ∧
        ((∃ k ≤ codes.length, depth (codes.take k) < 0) → ∃ index stopped,
          run (Source.items values).events .empty emitter =
            .error (.loops (.unmatchedEnd index)) stopped ∧
          run (codes.map .ok) .empty emitter = .error (.loops (.unmatchedEnd index)) stopped) ∧
        ((∀ k ≤ codes.length, 0 ≤ depth (codes.take k)) → ∃ stopped,
          run (Source.items values).events .empty emitter = .error (.source fault) stopped) ∧
        (Source.items values).filter = .error fault ∧
        ∀ size, generateWhole (.items values) size = .error (.source fault)) ∧
    ((∀ item ∈ values, ¬ item.IsBad) →
      ∃ codes, (Source.items values).filter = .ok codes ∧
        run (Source.items values).events .empty emitter = run (codes.map .ok) .empty emitter ∧
        (∀ text, generateWhole (.items values) (.int emitter.tapeSize) = .ok text ↔
          ∃ finished, run (Source.items values).events .empty emitter = .ok () finished ∧
            finished.text? = some text) ∧
        ∀ error, generateWhole (.items values) (.int emitter.tapeSize) = .error error ↔
          ∃ stopped, run (Source.items values).events .empty emitter = .error error stopped) := by
  constructor
  · rintro before item behind rfl hbefore hitem
    obtain ⟨codes, hcodes⟩ := Source.exists_instructionsOf hbefore
    obtain ⟨fault, hfault⟩ := Value.exists_read_eq_error_iff.2 hitem
    have hfilter := hcodes.filter_eq_error hfault behind
    have htext := text?_leftBy_run emitter (codes.map .ok)
    refine ⟨codes, fault, _, hcodes.filter_eq, hfault, htext, ?_⟩
    -- There are no more loops than items, so all labels can be written.
    have hloops : Number.Writable (codes.count .loopStart) := by
      refine hcount.of_le (Nat.le_trans List.count_le_length (Nat.le_trans hcodes.length_le ?_))
      simp
    have hcut : CutShort codes fault
        (run (codes.map .ok ++ [.error fault]) .empty emitter)
        (run (codes.map .ok) .empty emitter) := cutShort_run rfl hsize hloops fault
    rw [hcodes.events_eq hfault behind]
    refine ⟨?_, fun hneg => ?_, hcut.eq_source_of_neverBelow, hfilter, fun size => ?_⟩
    · rw [hcut.leftBy_eq, htext]
    · obtain ⟨k, hk, hneg⟩ := hneg
      refine hcut.exists_eq_unmatchedEnd fun hbelow => ?_
      have hnonneg := hbelow k hk
      omega
    · rw [generateWhole, hfilter]
  · intro hvalues
    obtain ⟨codes, hcodes⟩ := Source.exists_instructionsOf hvalues
    have hevents := Source.events_of_filter hcodes.filter_eq
    have hcreate : create (.int emitter.tapeSize) = .ok (.ofSize _ emitter.tapeSize_pos) :=
      create_int_of_pos (n := emitter.tapeSize) emitter.tapeSize_pos
    have hwhole : generateWhole (.items values) (.int emitter.tapeSize) =
        generateEvents (Source.items values).events (.int emitter.tapeSize) := by
      rw [generateWhole, hcodes.filter_eq, hevents]
      rfl
    rw [hwhole, run_eq_run_ofSize]
    exact ⟨codes, hcodes.filter_eq, by rw [hevents, ← run_eq_run_ofSize],
      fun text => generateEvents_eq_ok_iff hcreate, fun error => generateEvents_eq_error_iff hcreate⟩

/-- A loop is open when a list comes: the list is reported and not the loop. The number that is no
code point comes behind a bracket too many and is not met. -/
theorem lazy_run_over_items_open_and_unmatched :
    Number.Writable (ofSize 8 (by decide)).tapeSize ∧ Number.Writable 3 ∧
      (∃ stopped, run (Source.items [.text "[", .bool true, .list []]).events .empty
        (.ofSize 8 (by decide)) = .error (.source .listItem) stopped) ∧
      (∃ index stopped, run (Source.items [.int 43, .text "]", .int (-1)]).events .empty
        (.ofSize 8 (by decide)) = .error (.loops (.unmatchedEnd index)) stopped) ∧
      generateWhole (.items [.int 43, .text "]", .int (-1)]) (.int 8) =
        .error (.source .noCodePoint) := by
  have hsize : Number.Writable (ofSize 8 (by decide)).tapeSize := by decide +kernel
  have hcount : Number.Writable (3 : Nat) := by decide +kernel
  refine ⟨hsize, hcount, ?_, ?_⟩
  · obtain ⟨codes, fault, text, hcodes, hfault, -, -, -, hopen, -⟩ :=
      (lazy_run_over_items [.text "[", .bool true, .list []] (.ofSize 8 (by decide)) hsize hcount).1
        [.text "[", .bool true] (.list []) [] rfl (by decide) trivial
    cases hfault
    obtain rfl : [.loopStart] = codes := Except.ok.inj hcodes
    exact hopen (by decide)
  · obtain ⟨codes, fault, text, hcodes, hfault, -, -, hunmatched, -, -, hwhole⟩ :=
      (lazy_run_over_items [.int 43, .text "]", .int (-1)] (.ofSize 8 (by decide)) hsize hcount).1
        [.int 43, .text "]"] (.int (-1)) [] rfl (by decide) (.inl (by decide))
    cases hfault
    obtain rfl : [.incCell, .loopEnd] = codes := Except.ok.inj hcodes
    obtain ⟨index, stopped, hrun, -⟩ := hunmatched ⟨2, by decide, by decide⟩
    exact ⟨⟨index, stopped, hrun⟩, hwhole _⟩

end Emitter

end TapeCompiler
