/-
# Room for what is nested

A reader of documents goes down into containers inside one another, and a maker of
directories goes up through those that are missing. Each level takes room, and how
much there is depends on how deep their caller is already. So it is for the caller to
say, and what is proved holds for every amount of room.
-/

namespace TapeCompiler

/-- How many levels of something nested can be gone through. -/
structure Headroom where
  /-- Containers of a document, one inside the other. -/
  containers : Nat
  /-- Missing directories above the one that is asked for. -/
  directories : Nat
  deriving DecidableEq, Repr

/-- The room of a run that is started on its own. -/
def Headroom.usual : Headroom := ⟨990, 987⟩

end TapeCompiler
