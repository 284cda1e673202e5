/-
# Running tape programs

A tape program runs on cells of one byte each, without end in either direction,
with a cursor on one of them. The language tests a loop twice: a loop whose cell
is zero when it is met is skipped, and at its end it starts again unless the cell
is zero. A second rule leaves the first test out, so that every loop runs at least
once.

Runs are counted in steps, one for each instruction met. Input and output are not
part of these rules: a program that comes to them is stuck.
-/

import Mathlib.Logic.Function.Basic
import TapeCompiler.Proofs.Brackets

namespace TapeCompiler

/-! ## Counted runs -/

/-- The state after a number of steps, if the run gets that far. -/
def runFor {σ : Type} (step : σ → Option σ) : Nat → σ → Option σ
  | 0, s => some s
  | n + 1, s => (step s).bind (runFor step n)

section Runs

variable {σ τ : Type} {step other : σ → Option σ} {s t u : σ}

@[simp] theorem runFor_zero (step : σ → Option σ) (s : σ) : runFor step 0 s = some s := rfl

theorem runFor_succ (step : σ → Option σ) (n : Nat) (s : σ) :
    runFor step (n + 1) s = (step s).bind (runFor step n) := rfl

theorem runFor_add (step : σ → Option σ) (m n : Nat) (s : σ) :
    runFor step (m + n) s = (runFor step m s).bind (runFor step n) := by
  induction m generalizing s with
  | zero => rw [Nat.zero_add, runFor_zero, Option.bind_some]
  | succ m ih =>
    rw [Nat.add_right_comm, runFor_succ, runFor_succ, Option.bind_assoc]
    congr 1
    funext next
    exact ih next

/-- A run that has stopped takes no further step. -/
theorem runFor_eq_none_of_le {m n : Nat} (h : runFor step m s = none) (hle : m ≤ n) :
    runFor step n s = none := by
  obtain ⟨k, rfl⟩ := Nat.exists_eq_add_of_le hle
  rw [runFor_add, h, Option.bind_none]

/-- Two runs that stop are the same run. -/
theorem eq_of_runFor_stuck {m n : Nat} (hm : runFor step m s = some t) (ht : step t = none)
    (hn : runFor step n s = some u) (hu : step u = none) : t = u := by
  -- A run that is stuck has no longer one, so neither of the two is longer than the other.
  have hstop (k l : Nat) (v w : σ) (hk : runFor step k s = some v) (hv : step v = none)
      (hl : runFor step l s = some w) : l ≤ k := by
    rcases Nat.lt_or_ge k l with hlt | hge
    · have hnext : runFor step (k + 1) s = none := by
        rw [runFor_add, hk, Option.bind_some, runFor_succ, hv, Option.bind_none]
      rw [runFor_eq_none_of_le hnext hlt] at hl
      cases hl
    · exact hge
  have heq : m = n := Nat.le_antisymm (hstop n m u t hn hu hm) (hstop m n t u hm ht hn)
  rw [heq, hn] at hm
  exact (Option.some.inj hm).symm

/-- What holds at the start and is kept by every step holds wherever the run comes. -/
theorem runFor_invariant {holds : σ → Prop}
    (hstep : ∀ s t, holds s → step s = some t → holds t) {n : Nat} (hstart : holds s)
    (hrun : runFor step n s = some t) : holds t := by
  induction n generalizing s with
  | zero =>
    obtain rfl := Option.some.inj hrun
    exact hstart
  | succ n ih =>
    obtain ⟨next, hnext, hrest⟩ := Option.bind_eq_some_iff.1 hrun
    exact ih (hstep s next hstart hnext) hrest

/-- Related states stay related for any number of steps if they do for one. -/
theorem runFor_rel {related : σ → τ → Prop} {step : σ → Option σ} {step' : τ → Option τ}
    (hstep : ∀ s t, related s t → Option.Rel related (step s) (step' t)) (n : Nat) {s : σ} {t : τ}
    (h : related s t) : Option.Rel related (runFor step n s) (runFor step' n t) := by
  induction n generalizing s t with
  | zero => exact .some h
  | succ n ih =>
    rw [runFor_succ, runFor_succ]
    have hnext := hstep s t h
    generalize step s = next at hnext
    generalize step' t = next' at hnext
    cases hnext with
    | none => exact .none
    | some h => exact ih h

/-- Two step functions that agree wherever the first one's run comes give the same run. -/
theorem runFor_congr (h : ∀ n t, runFor step n s = some t → step t = other t) (n : Nat) :
    runFor step n s = runFor other n s := by
  induction n generalizing s with
  | zero => rfl
  | succ n ih =>
    rw [runFor_succ, runFor_succ, ← h 0 s rfl]
    cases hnext : step s with
    | none => rfl
    | some next =>
      refine ih fun k t hk => h (k + 1) t ?_
      rw [runFor_succ, hnext]
      exact hk

end Runs

/-! ## The tape language -/

namespace Tape

open Brackets

/-- Where a run stands: the position of the next instruction, the cursor and the cells. -/
structure State where
  position : Nat
  cursor : Int
  cells : Int → UInt8

namespace State

/-- The start on a tape of zeros. -/
def blank : State := ⟨0, 0, fun _ => 0⟩

/-- The value of the cell under the cursor. -/
def current (s : State) : UInt8 := s.cells s.cursor

/-- Go to another instruction. -/
def goTo (s : State) (position : Nat) : State := { s with position := position }

/-- Put a value into the cell under the cursor and go on. -/
def put (s : State) (value : UInt8) : State :=
  ⟨s.position + 1, s.cursor, Function.update s.cells s.cursor value⟩

/-- Put the cursor on another cell and go on. -/
def move (s : State) (cursor : Int) : State := ⟨s.position + 1, cursor, s.cells⟩

end State

/-- When a loop looks at the cell under the cursor. -/
inductive LoopTest
  /-- Where it starts and where it ends. -/
  | startAndEnd
  /-- Only where it ends. -/
  | endOnly
  deriving DecidableEq, Repr

/-- The closing bracket of the loop that an opening bracket starts. -/
def closer? (codes : List Instruction) (p : Nat) : Option Nat :=
  (List.range codes.length).find? fun q => Partners codes p q

/-- One instruction. -/
def step (test : LoopTest) (codes : List Instruction) (s : State) : Option State :=
  match codes[s.position]? with
  | some .incCell => some (s.put (s.current + 1))
  | some .decCell => some (s.put (s.current - 1))
  | some .incCursor => some (s.move (s.cursor + 1))
  | some .decCursor => some (s.move (s.cursor - 1))
  | some .loopStart =>
    if test = .startAndEnd ∧ s.current = 0 then
      (closer? codes s.position).map fun q => s.goTo (q + 1)
    else some (s.goTo (s.position + 1))
  | some .loopEnd =>
    if s.current = 0 then some (s.goTo (s.position + 1))
    else (partner? codes s.position).map s.goTo
  | some .write | some .read | none => none

/-- The run from a state comes to the end of the program, in the given state. -/
def Halts (test : LoopTest) (codes : List Instruction) (start final : State) : Prop :=
  ∃ n, runFor (step test codes) n start = some final ∧ final.position = codes.length

/-- The two rules differ only where a loop starts on a cell that is zero. -/
theorem step_startAndEnd_eq {codes : List Instruction} {s : State}
    (h : codes[s.position]? = some .loopStart → s.current ≠ 0) :
    step .startAndEnd codes s = step .endOnly codes s := by
  unfold step
  cases hcode : codes[s.position]? with
  | none => rfl
  | some code =>
    cases code with
    | loopStart => simp [h hcode]
    | _ => rfl

end Tape

end TapeCompiler
