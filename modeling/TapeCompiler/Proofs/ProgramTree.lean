/-
# Programs as trees

A program whose brackets pair up is a tree: a list of nodes, each an instruction
that is no bracket or a loop around a tree. Writing the tree down as instructions
forgets nothing. A reader that keeps the unfinished trees on a stack finds the tree
again, and it finds one for every balanced list of instructions.

A tree can be compiled by recursion on its shape, with nothing but a counter for
the labels handed from node to node. The one-pass emitter, which sees no tree and
works with a stack, gives the same lines, whatever loops are open around it and
whatever label is next.
-/

import TapeCompiler.Proofs.Acceptance

namespace TapeCompiler

open Brackets Assembly

/-- A node of a program tree. -/
inductive ProgramNode
  /-- An instruction that is no bracket. -/
  | plain (code : Instruction) (isPlain : ¬ IsBracket code)
  /-- A loop and what stands in it. -/
  | loop (body : List ProgramNode)

/-- A program as a tree. -/
abbrev ProgramTree := List ProgramNode

namespace ProgramTree

mutual

/-- The instructions of a node. -/
def flattenNode : ProgramNode → List Instruction
  | .plain code _ => [code]
  | .loop body => .loopStart :: flatten body ++ [.loopEnd]

/-- The instructions of a tree. -/
def flatten : ProgramTree → List Instruction
  | [] => []
  | node :: rest => flattenNode node ++ flatten rest

end

mutual

/-- The lines of a node whose first label is given, and the label behind it. -/
def compileNode (label : Nat) : ProgramNode → List Line × Nat
  | .plain code _ => (simpleBlock code, label)
  | .loop body =>
    let (inner, next) := compile (label + 1) body
    (.label label :: inner ++ [.jumpBack label], next)

/-- The lines of a tree whose first label is given, and the label behind it. The nodes are
compiled from left to right and hand on the label. -/
def compile (label : Nat) : ProgramTree → List Line × Nat
  | [] => ([], label)
  | node :: rest =>
    let (first, middle) := compileNode label node
    let (others, next) := compile middle rest
    (first ++ others, next)

end

variable {codes : List Instruction} {label : Nat}

@[simp] theorem flatten_nil : flatten [] = [] := rfl

@[simp] theorem flatten_plain_cons (code : Instruction) (isPlain : ¬ IsBracket code)
    (rest : ProgramTree) : flatten (.plain code isPlain :: rest) = code :: flatten rest := rfl

@[simp] theorem flatten_loop_cons (body rest : ProgramTree) :
    flatten (.loop body :: rest) = .loopStart :: flatten body ++ .loopEnd :: flatten rest := by
  simp only [flatten, flattenNode, List.append_assoc, List.singleton_append]

@[simp] theorem flatten_append (first second : ProgramTree) :
    flatten (first ++ second) = flatten first ++ flatten second := by
  induction first with
  | nil => rfl
  | cons node rest ih => rw [List.cons_append, flatten, flatten, ih, List.append_assoc]

@[simp] theorem compile_nil : compile label [] = ([], label) := rfl

@[simp] theorem compile_plain_cons (code : Instruction) (isPlain : ¬ IsBracket code)
    (rest : ProgramTree) : compile label (.plain code isPlain :: rest) =
      (simpleBlock code ++ (compile label rest).1, (compile label rest).2) := rfl

@[simp] theorem compile_loop_cons (body rest : ProgramTree) :
    compile label (.loop body :: rest) =
      (.label label :: (compile (label + 1) body).1 ++
          .jumpBack label :: (compile (compile (label + 1) body).2 rest).1,
        (compile (compile (label + 1) body).2 rest).2) := by
  simp only [compile, compileNode, List.append_assoc, List.singleton_append]

/-- Induction on a tree: through the first node, and for a loop also through its body. -/
@[elab_as_elim]
theorem induction {motive : ProgramTree → Prop} (nil : motive [])
    (plain : ∀ code isPlain rest, motive rest → motive (.plain code isPlain :: rest))
    (loop : ∀ body rest, motive body → motive rest → motive (.loop body :: rest)) :
    ∀ tree, motive tree
  | [] => nil
  | .plain code isPlain :: rest => plain code isPlain rest (induction nil plain loop rest)
  | .loop body :: rest =>
    loop body rest (induction nil plain loop body) (induction nil plain loop rest)

/-! ## Reading a tree from instructions -/

/-- A tree that is being read: what has been read of it on the level of the innermost open loop,
and on the levels around that loop, the nearest first. -/
structure Reader where
  current : ProgramTree
  outer : List ProgramTree

namespace Reader

/-- Read one instruction. -/
def step (reader : Reader) (code : Instruction) : Option Reader :=
  if isPlain : ¬ IsBracket code then
    some { reader with current := reader.current ++ [.plain code isPlain] }
  else if code = .loopStart then some ⟨[], reader.current :: reader.outer⟩
  else
    match reader.outer with
    | [] => none
    | before :: outer => some ⟨before ++ [.loop reader.current], outer⟩

/-- The instructions in front of the innermost open loop and the brackets that opened the
loops. -/
def opened : List ProgramTree → List Instruction
  | [] => []
  | before :: outer => opened outer ++ flatten before ++ [.loopStart]

/-- All instructions that have been read. -/
def taken (reader : Reader) : List Instruction := opened reader.outer ++ flatten reader.current

variable {reader : Reader} {code : Instruction}

theorem step_of_not_isBracket (isPlain : ¬ IsBracket code) : reader.step code =
    some { reader with current := reader.current ++ [.plain code isPlain] } := by
  rw [step, dif_pos isPlain]

theorem step_loopStart :
    reader.step .loopStart = some ⟨[], reader.current :: reader.outer⟩ := rfl

theorem step_loopEnd_of_cons {before : ProgramTree} {outer : List ProgramTree}
    (h : reader.outer = before :: outer) :
    reader.step .loopEnd = some ⟨before ++ [.loop reader.current], outer⟩ := by
  simp [step, IsBracket, h]

/-- Where the depth stays at zero or above, an instruction can be read, and as many loops are
open behind it as the depth says. -/
theorem exists_step_eq_some (h : 0 ≤ (reader.outer.length : Int) + depth [code]) :
    ∃ next, reader.step code = some next ∧ next.taken = reader.taken ++ [code] ∧
      (next.outer.length : Int) = reader.outer.length + depth [code] := by
  by_cases hbracket : IsBracket code
  · rcases hbracket with rfl | rfl
    · refine ⟨_, step_loopStart, ?_, ?_⟩
      · simp [taken, opened]
      · simp
    · cases houter : reader.outer with
      | nil =>
        rw [houter] at h
        exact absurd h (by decide)
      | cons before outer =>
        refine ⟨_, step_loopEnd_of_cons houter, ?_, ?_⟩
        · simp [taken, opened, houter]
        · rw [List.length_cons, depth_loopEnd]
          dsimp only
          omega
  · refine ⟨_, step_of_not_isBracket hbracket, ?_, ?_⟩
    · simp [taken]
    · rw [(balanced_singleton_of_not_isBracket hbracket).2, Int.add_zero]

/-- Instructions whose depth never goes below that of the open loops can be read. -/
theorem exists_foldlM_step_eq_some (reader : Reader) (list : List Instruction)
    (h : ∀ k ≤ list.length, 0 ≤ (reader.outer.length : Int) + depth (list.take k)) :
    ∃ next, list.foldlM step reader = some next ∧ next.taken = reader.taken ++ list ∧
      (next.outer.length : Int) = reader.outer.length + depth list := by
  induction list generalizing reader with
  | nil => exact ⟨reader, rfl, (List.append_nil _).symm, (Int.add_zero _).symm⟩
  | cons code rest ih =>
    have hsplit (k : Nat) :
        depth ((code :: rest).take (k + 1)) = depth [code] + depth (rest.take k) := by
      rw [List.take_succ_cons, ← List.singleton_append, depth_append]
    have hfirst := h 1 (by simp)
    rw [hsplit 0, List.take_zero, depth_nil, Int.add_zero] at hfirst
    obtain ⟨middle, hstep, htaken, hlength⟩ := exists_step_eq_some hfirst
    have habove : ∀ k ≤ rest.length, 0 ≤ (middle.outer.length : Int) + depth (rest.take k) := by
      intro k hk
      have hdepth := h (k + 1) (by simpa using hk)
      rw [hsplit] at hdepth
      omega
    obtain ⟨next, hrest, htaken', hlength'⟩ := ih middle habove
    refine ⟨next, ?_, ?_, ?_⟩
    · rw [List.foldlM_cons, hstep]
      exact hrest
    · rw [htaken', htaken, List.append_assoc, List.singleton_append]
    · have hdepth : depth (code :: rest) = depth [code] + depth rest :=
        depth_append [code] rest
      rw [hlength', hlength, hdepth, Int.add_assoc]

/-- The instructions of a tree are read as that tree, behind what was read before. -/
theorem foldlM_step_flatten (tree : ProgramTree) (reader : Reader) (list : List Instruction) :
    (flatten tree ++ list).foldlM step reader =
      list.foldlM step { reader with current := reader.current ++ tree } := by
  induction tree using ProgramTree.induction generalizing reader list with
  | nil => simp
  | plain code isPlain rest ih =>
    rw [flatten_plain_cons, List.cons_append, List.foldlM_cons, step_of_not_isBracket isPlain]
    simp [ih]
  | loop body rest ihBody ihRest =>
    rw [flatten_loop_cons, List.cons_append, List.cons_append, List.foldlM_cons, step_loopStart]
    -- The body is read on a level of its own, which the closing bracket joins to the one before.
    simp only [Option.bind_eq_bind, Option.bind_some, List.append_assoc, ihBody, List.nil_append,
      List.cons_append, List.foldlM_cons]
    rw [step_loopEnd_of_cons rfl]
    simp [ihRest]

end Reader

/-- Instructions determine the tree they were written from. -/
theorem flatten_injective : Function.Injective flatten := by
  intro first second h
  have hfirst := Reader.foldlM_step_flatten first ⟨[], []⟩ []
  have hsecond := Reader.foldlM_step_flatten second ⟨[], []⟩ []
  rw [h, hsecond] at hfirst
  simpa using hfirst.symm

/-- Balanced instructions are written from exactly one tree. -/
theorem existsUnique_flatten_eq (h : Balanced codes) : ∃! tree, flatten tree = codes := by
  obtain ⟨⟨tree, outer⟩, -, htaken, hlength⟩ := Reader.exists_foldlM_step_eq_some ⟨[], []⟩ codes
    fun k hk => by simpa using h.1 k hk
  -- The depth is zero at the end, so no loop is open there.
  obtain rfl : outer = [] := by simpa [h.2] using hlength
  have htree : flatten tree = codes := by simpa [Reader.taken, Reader.opened] using htaken
  refine ⟨tree, htree, fun other hother => ?_⟩
  exact flatten_injective (hother.trans htree.symm)

/-! ## Labels of a compiled tree -/

theorem count_flatten_plain_cons (code : Instruction) (isPlain : ¬ IsBracket code)
    (rest : ProgramTree) :
    (flatten (.plain code isPlain :: rest)).count .loopStart =
      (flatten rest).count .loopStart := by
  rw [flatten_plain_cons, List.count_cons_of_ne fun h => isPlain (Or.inl h)]

/-- A loop counts itself, those in its body and those behind it. -/
theorem count_flatten_loop_cons (body rest : ProgramTree) :
    (flatten (.loop body :: rest)).count .loopStart =
      1 + (flatten body).count .loopStart + (flatten rest).count .loopStart := by
  simp only [flatten_loop_cons, List.count_append, List.count_cons_self,
    List.count_cons_of_ne (show Instruction.loopEnd ≠ .loopStart by decide)]
  omega

/-- The label behind a tree is as many further on as the tree has loops. -/
theorem compile_snd (tree : ProgramTree) (label : Nat) :
    (compile label tree).2 = label + (flatten tree).count .loopStart := by
  induction tree using ProgramTree.induction generalizing label with
  | nil => rfl
  | plain code isPlain rest ih => rw [compile_plain_cons, ih, count_flatten_plain_cons]
  | loop body rest ihBody ihRest =>
    rw [compile_loop_cons, count_flatten_loop_cons, ihRest, ihBody]
    omega

/-- Two trees, one behind the other, are compiled one after the other. -/
theorem compile_append_fst (first second : ProgramTree) (label : Nat) :
    (compile label (first ++ second)).1 =
      (compile label first).1 ++ (compile (compile label first).2 second).1 := by
  induction first generalizing label with
  | nil => rfl
  | cons node rest ih => simp only [List.cons_append, compile, ih, List.append_assoc]

end ProgramTree

/-- The line with its label raised by a number, if it has one. -/
def Line.raise (number : Nat) : Line → Line
  | label id => label (id + number)
  | jumpBack id => jumpBack (id + number)
  | line => line

namespace ProgramTree

theorem map_raise_simpleBlock (number : Nat) (code : Instruction) :
    (simpleBlock code).map (Line.raise number) = simpleBlock code := by
  cases code <;> rfl

/-- Starting from a later label raises all labels alike. -/
theorem compile_add (tree : ProgramTree) (label number : Nat) :
    (compile (label + number) tree).1 = (compile label tree).1.map (Line.raise number) := by
  induction tree using ProgramTree.induction generalizing label with
  | nil => rfl
  | plain code isPlain rest ih =>
    simp only [compile_plain_cons, ih, List.map_append, map_raise_simpleBlock]
  | loop body rest ihBody ihRest =>
    have hbody := ihBody (label + 1)
    rw [Nat.add_right_comm] at hbody
    simp only [compile_loop_cons, compile_snd, hbody, List.map_append, List.map_cons, Line.raise]
    rw [← ihRest]
    simp only [Nat.add_right_comm]

end ProgramTree

/-! ## The emitter on a tree -/

namespace Emitter

variable {start : Emitter} {outer : List Nat} {lines : List Line} {label : Nat} {index : Int}

/-- The emitter with these loops open and this label next, once it has delivered the lines. -/
def placed (start : Emitter) (outer : List Nat) (label : Nat) (lines : List Line) : Emitter :=
  (start.withLoops outer label).delivered lines

theorem Working.placed (h : start.Working) : (start.placed outer label lines).Working :=
  (h.withLoops outer label).delivered lines

theorem emitCode_placed_plain {code : Instruction} (h : start.Working)
    (isPlain : ¬ IsBracket code) :
    emitCode index code (start.placed outer label lines) =
      .ok () (start.placed outer label (lines ++ simpleBlock code)) := by
  rw [emitCode_of_not_isBracket index h.placed isPlain, placed, placed, delivered_append]

theorem emitCode_placed_loopStart (h : start.Working) (hlabel : Number.Writable label) :
    emitCode index .loopStart (start.placed outer label lines) =
      .ok () (start.placed (label :: outer) (label + 1) (lines ++ [.label label])) := by
  rw [emitCode_loopStart index h.placed hlabel, placed, placed, delivered_append]
  rfl

theorem emitCode_placed_loopEnd {next : Nat} (h : start.Working)
    (hlabel : Number.Writable label) :
    emitCode index .loopEnd (start.placed (label :: outer) next lines) =
      .ok () (start.placed outer next (lines ++ [.jumpBack label])) := by
  rw [emitCode_loopEnd_of_cons index h.placed rfl hlabel, placed, placed, delivered_append]
  rfl

/-- The emitter gives the lines of the compiled tree and leaves the open loops as they are,
whatever loops are open and whatever label is next. -/
theorem emitEvents_flatten (tree : ProgramTree) (index : Nat) (outer : List Nat) (label : Nat)
    (lines : List Line) (h : start.Working)
    (hlabels : ∀ id < label + tree.flatten.count .loopStart, Number.Writable id) :
    emitEvents index (tree.flatten.map .ok) (start.placed outer label lines) =
      .ok () (start.placed outer (tree.compile label).2 (lines ++ (tree.compile label).1)) := by
  induction tree using ProgramTree.induction generalizing index outer label lines with
  | nil =>
    rw [ProgramTree.compile_nil, List.append_nil]
    rfl
  | plain code isPlain rest ih =>
    rw [ProgramTree.count_flatten_plain_cons] at hlabels
    rw [ProgramTree.flatten_plain_cons, List.map_cons, emitEvents,
      bind_of_ok (emitCode_placed_plain h isPlain), ih _ _ _ _ hlabels,
      ProgramTree.compile_plain_cons, List.append_assoc]
  | loop body rest ihBody ihRest =>
    rw [ProgramTree.count_flatten_loop_cons] at hlabels
    have hlabel : Number.Writable label := hlabels label (by omega)
    have hbody := ihBody (index + 1) (label :: outer) (label + 1) (lines ++ [.label label])
      fun id hid => hlabels id (by omega)
    have hrest := ihRest (index + 1 + body.flatten.length + 1) outer
      (body.compile (label + 1)).2
      (lines ++ [.label label] ++ (body.compile (label + 1)).1 ++ [.jumpBack label])
      fun id hid => hlabels id (by rw [ProgramTree.compile_snd] at hid; omega)
    -- The body is emitted with the label of the loop on the stack, the rest without it.
    rw [ProgramTree.flatten_loop_cons, List.cons_append, List.map_cons, List.map_append,
      List.map_cons, emitEvents, bind_of_ok (emitCode_placed_loopStart h hlabel),
      emitEvents_append, bind_of_ok hbody, emitEvents,
      bind_of_ok (emitCode_placed_loopEnd h hlabel), hrest, ProgramTree.compile_loop_cons]
    simp only [List.append_assoc, List.cons_append, List.nil_append]

/-- A run over the instructions of a tree goes through, and delivers the prologue and the lines of
the compiled tree. -/
theorem run_flatten {emitter : Emitter} {sink : Sink} (tree : ProgramTree)
    (hsink : sink.quota = none) (hsize : Number.Writable emitter.tapeSize)
    (hloops : Number.Writable (tree.flatten.count .loopStart)) :
    run (tree.flatten.map .ok) sink emitter =
      .ok () ((emitter.started sink).placed [] (tree.compile 1).2 (tree.compile 1).1) := by
  have hworking : (emitter.restarted sink).Working := working_restarted hsink
  have hstarted : emitPrologue (emitter.restarted sink) = .ok () (emitter.started sink) :=
    emitPrologue_of_working hworking hsize
  have hready : (emitter.started sink).Working := hworking.delivered _
  have hevents := emitEvents_flatten tree 0 [] 1 [] hready fun id hid => hloops.of_le (by omega)
  have hbegin : (emitter.started sink).placed [] 1 [] = emitter.started sink := delivered_nil
  rw [hbegin, List.nil_append] at hevents
  rw [run, bind_of_ok (restart_eq sink), bind_of_ok hstarted, bind_of_ok hevents,
    checkClosed_of_nil rfl]

end Emitter

/-! ## Generation of a tree -/

variable {size : Int} {codes : List Instruction}

/-- The text in a fresh sink once the prologue and some lines are out. -/
theorem Emitter.text?_placed_started (emitter : Emitter) (outer : List Nat) (label : Nat)
    (lines : List Line) : ((emitter.started .empty).placed outer label lines).text? =
      some (textOf (prologue emitter.tapeSize ++ lines)) := by
  have hstarted : ((emitter.started .empty).withLoops outer label).text? =
      some (textOf (prologue emitter.tapeSize)) := by
    have hfresh : (emitter.restarted .empty).text? = some "" := rfl
    calc ((emitter.started .empty).withLoops outer label).text?
        = ((emitter.restarted .empty).delivered (prologue emitter.tapeSize)).text? := rfl
      _ = some (textOf (prologue emitter.tapeSize)) := by
        rw [text?_delivered, hfresh, Option.map_some, String.empty_append]
  rw [placed, text?_delivered, hstarted, Option.map_some, textOf_append]

/-- The text of a tree is the prologue and the lines of the compiled tree. -/
theorem generate_flatten (tree : ProgramTree) (hpos : 1 ≤ size) (hsize : Number.Writable size)
    (hloops : Number.Writable (tree.flatten.count .loopStart)) :
    generate tree.flatten (.int size) =
      .ok (textOf (prologue size.toNat ++ (tree.compile 1).1)) := by
  have hpos' : 0 < size.toNat := by omega
  rw [generate_eq hpos', Emitter.run_flatten tree rfl (hsize.toNat hpos) hloops]
  dsimp only
  rw [Emitter.text?_placed_started]
  rfl

/-- An accepted program is written from exactly one tree. -/
theorem Accepted.existsUnique_flatten_eq (h : Accepted codes) :
    ∃! tree : ProgramTree, tree.flatten = codes :=
  ProgramTree.existsUnique_flatten_eq h.balanced

/-- The lines of two trees, one behind the other: those of the first, and those of the second
with their labels raised by the number of loops in the first. -/
theorem ProgramTree.compile_append_eq (first second : ProgramTree) :
    (ProgramTree.compile 1 (first ++ second)).1 = (first.compile 1).1 ++
      (second.compile 1).1.map (Line.raise (first.flatten.count .loopStart)) := by
  rw [compile_append_fst, compile_snd, compile_add]

/-- **Emission follows the tree.** For a size within the limit, the instructions of a tree give
the prologue and the lines of the compiled tree. Every accepted program is written from exactly
one tree. The lines of one accepted program behind another are those of the first, and those of
the second with every label raised by the number of loops in the first. -/
theorem generate_follows_tree (hpos : 1 ≤ size) (hsize : Number.Writable size) :
    (∀ tree : ProgramTree, Number.Writable (tree.flatten.count .loopStart) →
      generate tree.flatten (.int size) =
        .ok (textOf (prologue size.toNat ++ (tree.compile 1).1))) ∧
    (∀ codes, Accepted codes → ∃! tree : ProgramTree, tree.flatten = codes) ∧
    ∀ first second, Accepted first → Accepted second →
      Number.Writable (first.count .loopStart + second.count .loopStart) →
      ∃ body behind : List Line,
        generate first (.int size) = .ok (textOf (prologue size.toNat ++ body)) ∧
        generate second (.int size) = .ok (textOf (prologue size.toNat ++ behind)) ∧
        generate (first ++ second) (.int size) = .ok (textOf (prologue size.toNat ++ (body ++
          behind.map (Line.raise (first.count .loopStart))))) := by
  refine ⟨fun tree hloops => generate_flatten tree hpos hsize hloops,
    fun codes haccepted => haccepted.existsUnique_flatten_eq, ?_⟩
  intro first second hfirst hsecond hloops
  obtain ⟨one, rfl, -⟩ := hfirst.existsUnique_flatten_eq
  obtain ⟨other, rfl, -⟩ := hsecond.existsUnique_flatten_eq
  have hboth : Number.Writable ((one ++ other).flatten.count .loopStart) := by
    rw [ProgramTree.flatten_append, List.count_append]
    exact hloops
  refine ⟨(one.compile 1).1, (other.compile 1).1, ?_, ?_, ?_⟩
  · exact generate_flatten one hpos hsize (hboth.of_le (by simp))
  · exact generate_flatten other hpos hsize (hboth.of_le (by simp))
  · rw [← ProgramTree.flatten_append, generate_flatten (one ++ other) hpos hsize hboth,
      ProgramTree.compile_append_eq]

/-- A loop in a loop, and behind it the same program again. -/
theorem generate_follows_tree_twice :
    (1 : Int) ≤ 8 ∧ Number.Writable 8 ∧ Accepted (Instruction.ofText "[[-]+]") ∧
      Number.Writable ((Instruction.ofText "[[-]+]").count .loopStart +
        (Instruction.ofText "[[-]+]").count .loopStart) ∧
      ∃ body behind : List Line,
        generate (Instruction.ofText "[[-]+]") (.int 8) = .ok (textOf (prologue 8 ++ body)) ∧
        generate (Instruction.ofText "[[-]+]") (.int 8) = .ok (textOf (prologue 8 ++ behind)) ∧
        generate (Instruction.ofText "[[-]+]" ++ Instruction.ofText "[[-]+]") (.int 8) =
          .ok (textOf (prologue 8 ++ (body ++ behind.map (Line.raise 2)))) := by
  have hsize : Number.Writable 8 := by decide +kernel
  have hloops : Number.Writable ((Instruction.ofText "[[-]+]").count .loopStart +
      (Instruction.ofText "[[-]+]").count .loopStart) := by decide +kernel
  have haccepted : Accepted (Instruction.ofText "[[-]+]") := by
    refine ⟨.int 8, _, (generate_follows_tree (by decide) hsize).1
      [.loop [.loop [.plain .decCell (by decide)], .plain .incCell (by decide)]] ?_⟩
    decide +kernel
  exact ⟨by decide, hsize, haccepted, hloops,
    (generate_follows_tree (by decide) hsize).2.2 _ _ haccepted haccepted hloops⟩

end TapeCompiler
