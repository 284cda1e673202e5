/-
# The list of all cases

A run goes through the names it is given, and without names through all cases there are: the
directories right below the directory of all cases that hold a program. The list has each of
them and nothing else, in ascending order. What counts is found by following paths, so this is
said of names that a file can have. A path that is too long to be followed ends the listing, so
where there is a list no case is missing from it for that reason.
-/

import Mathlib.Data.List.Nodup
import TapeCompiler.Golden.Run
import TapeCompiler.Proofs.CaseFiles

namespace TapeCompiler

/-! ## Filters that may fail -/

section Filter

variable {α ε : Type} {test : α → Except ε Bool} {items kept : List α}

/-- Whether an item passes a test that may fail. -/
def passes (test : α → Except ε Bool) (item : α) : Bool := (test item).toOption.getD false

theorem passes_of_eq_ok {item : α} {verdict : Bool} (h : test item = .ok verdict) :
    passes test item = verdict := by
  rw [passes, h]
  rfl

theorem of_filterAuxM_eq_ok {done : List α} (h : items.filterAuxM test done = .ok kept) :
    (∀ item ∈ items, ∃ verdict, test item = .ok verdict) ∧
      kept = (items.filter (passes test)).reverse ++ done := by
  induction items generalizing done with
  | nil => exact ⟨nofun, (Except.ok.inj h).symm⟩
  | cons item rest ih =>
    obtain ⟨verdict, htest, hrest⟩ := exists_of_bind_eq_ok h
    obtain ⟨hdecided, rfl⟩ := ih hrest
    refine ⟨List.forall_mem_cons.2 ⟨⟨verdict, htest⟩, hdecided⟩, ?_⟩
    rw [List.filter_cons, passes_of_eq_ok htest]
    cases verdict <;> simp

/-- A filter comes to an end only if no test fails, and it keeps the items that pass. -/
theorem of_filterM_eq_ok (h : items.filterM test = .ok kept) :
    (∀ item ∈ items, ∃ verdict, test item = .ok verdict) ∧ kept = items.filter (passes test) := by
  obtain ⟨reversed, hreversed, h⟩ := exists_of_bind_eq_ok h
  obtain ⟨hdecided, rfl⟩ := of_filterAuxM_eq_ok hreversed
  refine ⟨hdecided, ?_⟩
  rw [← Except.ok.inj h, List.append_nil, List.reverse_reverse]

end Filter

/-! ## The names in a directory -/

namespace Store

variable {store : Store} {place : Location} {name : String}

/-- The name of a location right below a place. -/
def nameBelow? (place location : Location) : Option String :=
  match location.getLast? with
  | some name => if location.dropLast = place then some name else none
  | none => none

theorem nameBelow?_eq_some_iff {location : Location} :
    nameBelow? place location = some name ↔ location = place ++ [name] := by
  constructor
  · intro h
    unfold nameBelow? at h
    split at h
    · next last hlast =>
      split at h
      · next hplace =>
        obtain ⟨above, rfl⟩ := List.getLast?_eq_some_iff.1 hlast
        rw [List.dropLast_concat] at hplace
        rw [hplace, Option.some.inj h]
      · cases h
    · cases h
  · rintro rfl
    simp [nameBelow?]

theorem children_eq (store : Store) (place : Location) :
    store.children place = (store.entries.map Prod.fst).filterMap (nameBelow? place) := by
  rw [List.filterMap_map]
  rfl

theorem mem_children_iff :
    name ∈ store.children place ↔ place ++ [name] ∈ store.entries.map Prod.fst := by
  rw [children_eq, List.mem_filterMap]
  simp only [nameBelow?_eq_some_iff, exists_eq_right]

/-- Where every location has one entry, no name is listed twice. -/
theorem nodup_children (h : (store.entries.map Prod.fst).Nodup) :
    (store.children place).Nodup := by
  rw [children_eq]
  refine h.filterMap fun first second name hfirst hsecond => ?_
  rw [nameBelow?_eq_some_iff.1 hfirst, nameBelow?_eq_some_iff.1 hsecond]

theorem mem_children_of_node?_eq_some {node : Node}
    (h : store.node? (place ++ [name]) = some node) : name ∈ store.children place := by
  rw [mem_children_iff]
  unfold node? at h
  split at h
  · next hempty => simp at hempty
  · obtain ⟨before, behind, hentries, -⟩ := List.lookup_eq_some_iff.1 h
    rw [hentries]
    simp

/-- What is told of a file of a directory by looking at it is told of the node right below the
directory. -/
theorem of_map_look_join_eq_ok {path : Path} {directory : Location} {file : String}
    {view : Option Node → Bool} {verdict : Bool}
    (h : store.find path = .ok (directory, some .directory)) (hfile : IsFileName file)
    (hlook : (store.look (path.join ⟨.relative, [file]⟩)).map view = .ok verdict) :
    store.find (path.join ⟨.relative, [file]⟩) =
        .ok (directory ++ [file], store.node? (directory ++ [file])) ∧
      view (store.node? (directory ++ [file])) = verdict := by
  by_cases hshort : (path.join ⟨.relative, [file]⟩).text.utf8ByteSize < pathLimit
  · have hfind := find_join h hfile hshort
    rw [look, hfind] at hlook
    exact ⟨hfind, Except.ok.inj hlook⟩
  · -- A path that is too long cannot be looked at.
    rw [look, find_of_pathLimit_le (hasNul_join_eq_false h hfile) (Nat.not_lt.1 hshort)] at hlook
    cases hlook

end Store

namespace Golden

variable {store : Store} {golden : Directory} {place : Location} {name : String}
  {names : List String}

/-- The names of all cases below a directory, in ascending order: a name is in the list exactly if
it is the name of a directory that holds a program. -/
structure IsListing (store : Store) (golden : Directory) (names : List String) : Prop where
  sorted : names.Pairwise (· ≤ ·)
  mem_iff : ∀ name, Store.IsFileName name →
    (name ∈ names ↔ ∃ place, store.find golden.path = .ok (place, some .directory) ∧
      store.node? (place ++ [name]) = some .directory ∧
      (store.node? (place ++ [name, programFile])).isSome)
  nodup : (store.entries.map Prod.fst).Nodup → names.Nodup

/-- Where it can be told, a name is that of a case exactly if a directory of that name holds a
program. -/
theorem true_iff_of_isCase_eq_ok {verdict : Bool}
    (h : store.find golden.path = .ok (place, some .directory)) (hname : Store.IsFileName name)
    (hcase : isCase store golden name = .ok verdict) :
    verdict = true ↔ store.node? (place ++ [name]) = some .directory ∧
      (store.node? (place ++ [name, programFile])).isSome := by
  unfold isCase at hcase
  dsimp only at hcase
  split at hcase
  · cases hcase
  · next hdirectory =>
    -- Without a directory of that name both sides fail.
    obtain ⟨-, hnode⟩ := Store.of_map_look_join_eq_ok h hname hdirectory
    obtain rfl := Except.ok.inj hcase
    exact iff_of_false nofun fun hsome => of_decide_eq_false hnode hsome.1
  · next hdirectory =>
    obtain ⟨hfind, hnode⟩ := Store.of_map_look_join_eq_ok h hname hdirectory
    rw [of_decide_eq_true hnode] at hfind ⊢
    split at hcase
    · cases hcase
    · next there hthere =>
      obtain ⟨-, hprogram⟩ := Store.of_map_look_join_eq_ok hfind isFileName_programFile hthere
      obtain rfl := Except.ok.inj hcase
      rw [List.append_assoc, List.singleton_append] at hprogram
      rw [hprogram]
      exact ⟨fun hsome => ⟨rfl, hsome⟩, And.right⟩

theorem exists_of_list_eq_ok {path : Path} (h : store.list path = .ok names) :
    ∃ place, store.find path = .ok (place, some .directory) ∧ names = store.children place := by
  obtain ⟨⟨place, node⟩, hfind, h⟩ := exists_of_bind_eq_ok h
  match node, h with
  | some .directory, h => exact ⟨place, hfind, (Except.ok.inj h).symm⟩

theorem ascending_iff {a b : String} : (!decide (b < a)) = true ↔ a ≤ b := by
  rw [Bool.not_eq_true', decide_eq_false_iff_not, String.not_lt]

theorem pairwise_le_mergeSort (names : List String) :
    (names.mergeSort fun a b => !decide (b < a)).Pairwise (· ≤ ·) := by
  refine List.Pairwise.imp ?_ (List.pairwise_mergeSort ?_ ?_ _)
  · intro a b hle
    exact ascending_iff.1 hle
  · intro a b c hab hbc
    exact ascending_iff.2 (String.le_trans (ascending_iff.1 hab) (ascending_iff.1 hbc))
  · intro a b
    rw [Bool.or_eq_true, ascending_iff, ascending_iff]
    exact String.le_total a b

/-- A list of all cases can be had only if it can be told of every name in their directory whether
it is that of a case. -/
theorem exists_of_caseNames_eq_ok (h : caseNames store golden = .ok names) :
    ∃ place, store.find golden.path = .ok (place, some .directory) ∧
      (∀ name ∈ store.children place, ∃ verdict, isCase store golden name = .ok verdict) ∧
      names = ((store.children place).filter (passes (isCase store golden))).mergeSort
        fun a b => !decide (b < a) := by
  unfold caseNames at h
  split at h
  · cases h
  · next listed hlist =>
    obtain ⟨place, hfind, rfl⟩ := exists_of_list_eq_ok hlist
    split at h
    · cases h
    · next kept hkept =>
      obtain ⟨hdecided, rfl⟩ := of_filterM_eq_ok hkept
      exact ⟨place, hfind, hdecided, (Except.ok.inj h).symm⟩

/-- The list of all cases is the list that it should be. -/
theorem isListing_of_caseNames_eq_ok (h : caseNames store golden = .ok names) :
    IsListing store golden names := by
  obtain ⟨place, hfind, hdecided, rfl⟩ := exists_of_caseNames_eq_ok h
  refine ⟨pairwise_le_mergeSort _, fun name hname => ?_, fun hentries => ?_⟩
  · rw [List.mem_mergeSort, List.mem_filter]
    constructor
    · rintro ⟨hchild, hpasses⟩
      obtain ⟨verdict, hcase⟩ := hdecided name hchild
      rw [passes_of_eq_ok hcase, true_iff_of_isCase_eq_ok hfind hname hcase] at hpasses
      exact ⟨place, hfind, hpasses⟩
    · rintro ⟨other, hother, hdirectory, hprogram⟩
      obtain rfl : place = other := congrArg Prod.fst (Except.ok.inj (hfind.symm.trans hother))
      have hchild := Store.mem_children_of_node?_eq_some hdirectory
      obtain ⟨verdict, hcase⟩ := hdecided name hchild
      refine ⟨hchild, ?_⟩
      rw [passes_of_eq_ok hcase, true_iff_of_isCase_eq_ok hfind hname hcase]
      exact ⟨hdirectory, hprogram⟩
  · exact (List.mergeSort_perm _ _).nodup_iff.2 ((Store.nodup_children hentries).filter _)

/-! ## The names of a run -/

/-- The names that a run goes through: those it is given, or those of all cases. -/
def GoesThrough (store : Store) (golden : Directory) (given names : List String) : Prop :=
  if given = [] then caseNames store golden = .ok names else names = given

/-- A run goes through its names, up to the first failure. -/
theorem run_eq_of_goesThrough {given arguments : List String} {update : Bool}
    (hread : interface.read ⟨[], false⟩ arguments = .ok ⟨given, update⟩)
    (hnames : GoesThrough store golden given names) :
    run golden store arguments =
      match steps golden update ⟨store, "", 0⟩ names with
      | (after, .ok ()) =>
        ⟨.exit (if after.drifted = 0 then 0 else 1), after.out, "", after.store⟩
      | (after, .error failure) => ⟨.escaped failure, after.out, "", after.store⟩ := by
  unfold GoesThrough at hnames
  rw [run, hread]
  dsimp only
  by_cases hgiven : given = []
  · subst hgiven
    rw [if_pos rfl] at hnames
    rewrite [runSettings, if_pos (by rfl), hnames]
    rfl
  · rw [if_neg hgiven] at hnames
    subst hnames
    rewrite [runSettings, if_neg (by simpa using hgiven)]
    rfl

end Golden

end TapeCompiler
