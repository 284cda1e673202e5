/-
# Sinks

A sink is where emitted text goes. It keeps the writes it accepted, so what a
failing sink took can be compared with what a working one takes.
-/

import TapeCompiler.Fault

namespace TapeCompiler

/-- A place where text goes: the writes it accepted, the latest first, and the quota on further
ones, if there is one. -/
structure Sink where
  accepted : List String
  quota : Option Quota
  deriving DecidableEq, Repr

namespace Sink

/-- A fresh sink that accepts everything. -/
def empty : Sink := ⟨[], none⟩

/-- A fresh sink that accepts a number of writes and then fails. -/
def limited (writes : Nat) (fault : IoFault) : Sink := ⟨[], some ⟨writes, fault⟩⟩

/-- The text a sink holds. -/
def text (sink : Sink) : String := String.join sink.accepted.reverse

/-- One write. A sink whose quota is used up stays as it is. -/
def write (sink : Sink) (piece : String) : Except IoFault Sink := do
  let quota ← Quota.spend sink.quota
  return ⟨piece :: sink.accepted, quota⟩

@[simp]
theorem text_empty : empty.text = "" := rfl

/-- A sink without a quota accepts every write. -/
theorem write_of_quota_eq_none {sink : Sink} (h : sink.quota = none) (piece : String) :
    sink.write piece = .ok { sink with accepted := piece :: sink.accepted } := by
  simp [write, h, Quota.spend, bind, Except.bind, pure, Except.pure]

end Sink

end TapeCompiler
