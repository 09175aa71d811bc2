import SmtModel.Proofs.Equivalence
import SmtModel.Proofs.Keys

/-!
# The last write wins

A function is a finite map from lists of arguments to results. Which arguments are the same
key is decided by comparing them, and that is only a partial equivalence: a key may be
written in several ways, and a key with a NaN in it is not even the same as itself. Where
all comparisons are defined, a look-up finds the last result that was written at a key,
entries stand in the order in which their keys were first written, and an insertion
answers with what a look-up would have found before it (`FiniteFunction.last_write_wins`).
-/

namespace SmtModel

open List (Forall₂)

/-! ## Keys -/

namespace Value

variable {left middle right : List Value}

/-- Two lists of arguments are found to be the same key. -/
def sameKey (left right : List Value) : Bool :=
  match listEquals left right with
  | .ok same => same
  | .error _ => false

theorem sameKey_iff : sameKey left right = true ↔ Forall₂ Same left right := by
  rw [← listEquals_iff, sameKey]
  cases listEquals left right <;> simp

theorem sameKey_symm (same : sameKey left right = true) : sameKey right left = true := by
  rw [sameKey_iff] at same ⊢
  exact forall₂_symm (fun _ _ _ => Same.symm) same

theorem sameKey_trans (first : sameKey left middle = true)
    (second : sameKey middle right = true) : sameKey left right = true := by
  rw [sameKey_iff] at first second ⊢
  exact forall₂_trans (fun _ _ _ _ => Same.trans) first second

/-- Arguments that are the same key are the same as the same others. -/
theorem sameKey_congr (same : sameKey left middle = true) (right : List Value) :
    sameKey left right = sameKey middle right :=
  Bool.eq_iff_iff.mpr ⟨sameKey_trans (sameKey_symm same), sameKey_trans same⟩

theorem sameKey_comm (left right : List Value) : sameKey left right = sameKey right left :=
  Bool.eq_iff_iff.mpr ⟨sameKey_symm, sameKey_symm⟩

/-- Without zero denominators, keys can be compared. -/
theorem listEquals_of_proper (leftProper : AllProper left) (rightProper : AllProper right) :
    listEquals left right = .ok (sameKey left right) := by
  have defined : ∃ same, listEquals left right = .ok same := by
    unfold listEquals
    split
    · exact allEqual_isOk left right leftProper rightProper
    · exact ⟨false, rfl⟩
  rcases defined with ⟨same, equals⟩
  rw [sameKey, equals]

end Value

namespace FiniteFunction

open Value (sameKey)

/-- No fraction in the arguments of some points has a zero denominator. -/
def ProperKeys (points : List (Mapping Value)) : Prop :=
  ∀ point ∈ points, Value.AllProper point.args

/-! ## Look-ups -/

section Entries

variable {point : Mapping Value} {entries written : List (Mapping Value)} {args : List Value}
  {replaced : Option Value}

/-- The result of the first entry at some arguments. -/
def found (entries : List (Mapping Value)) (args : List Value) : Option Value :=
  (entries.find? (sameKey ·.args args)).map (·.result)

theorem lookup_eq (keys : ProperKeys entries) (argsProper : Value.AllProper args) :
    lookup args entries = .ok (found entries args) := by
  induction entries with
  | nil => rfl
  | cons entry entries ih =>
      rcases List.forall_mem_cons.mp keys with ⟨key, keys⟩
      rw [lookup, Value.listEquals_of_proper key argsProper, found, List.find?_cons]
      cases sameKey entry.args args with
      | true => rfl
      | false => exact ih keys

theorem write_defined (keys : ProperKeys entries) (key : Value.AllProper point.args) :
    ∃ replaced written, write point entries = .ok (replaced, written) := by
  induction entries with
  | nil => exact ⟨none, [point], rfl⟩
  | cons entry entries ih =>
      rcases List.forall_mem_cons.mp keys with ⟨entryKey, keys⟩
      rcases ih keys with ⟨replaced, written, writes⟩
      rw [write, Value.listEquals_of_proper entryKey key]
      cases sameKey entry.args point.args with
      | true => exact ⟨some entry.result, { entry with result := point.result } :: entries, rfl⟩
      | false =>
          refine ⟨replaced, entry :: written, ?_⟩
          rw [writes]
          rfl

theorem sameKey_of_listEquals {left right : List Value} {same : Bool}
    (equals : Value.listEquals left right = .ok same) : sameKey left right = same := by
  rw [sameKey, equals]

theorem found_eq_none (differ : ∀ entry ∈ entries, sameKey entry.args args = false) :
    found entries args = none := by
  rw [found, List.find?_eq_none.mpr fun entry isEntry => by simp [differ entry isEntry]]
  rfl

theorem found_append (before after : List (Mapping Value)) (args : List Value) :
    found (before ++ after) args = (found before args).or (found after args) := by
  simp only [found, List.find?_append, Option.map_or]

theorem found_cons (entry : Mapping Value) (entries : List (Mapping Value)) (args : List Value) :
    found (entry :: entries) args =
      if sameKey entry.args args then some entry.result else found entries args := by
  rw [found, List.find?_cons]
  cases sameKey entry.args args <;> rfl

/-- What is replaced is what would have been found. -/
theorem replaced_eq_found (writes : write point entries = .ok (replaced, written)) :
    replaced = found entries point.args := by
  rcases write_cases writes with
    ⟨before, old, after, rfl, -, rfl, same, differ⟩ | ⟨-, rfl, differ⟩
  · rw [found_append, found_eq_none fun entry isBefore =>
      sameKey_of_listEquals (differ entry isBefore), Option.none_or, found_cons,
      sameKey_of_listEquals same]
    rfl
  · exact (found_eq_none fun entry isEntry => sameKey_of_listEquals (differ entry isEntry)).symm

/-- A point that was written is found at its key, and nothing else has changed. -/
theorem found_written (writes : write point entries = .ok (replaced, written)) (args : List Value) :
    found written args =
      if sameKey point.args args then some point.result else found entries args := by
  -- what differs from the key of the point differs from every other form of the key
  have elsewhere {others : List (Mapping Value)} (same : sameKey point.args args = true)
      (differ : ∀ entry ∈ others, Value.listEquals entry.args point.args = .ok false) :
      found others args = none := by
    refine found_eq_none fun entry isOther => ?_
    rw [Value.sameKey_comm, ← Value.sameKey_congr same, Value.sameKey_comm]
    exact sameKey_of_listEquals (differ entry isOther)
  rcases write_cases writes with
    ⟨before, old, after, rfl, rfl, -, same, differ⟩ | ⟨rfl, -, differ⟩
  · have sameHere := Value.sameKey_congr (sameKey_of_listEquals same) args
    rw [found_append, found_append, found_cons, found_cons, sameHere]
    cases at? : sameKey point.args args with
    | true => rw [elsewhere at? differ]; rfl
    | false => rfl
  · rw [found_append, found_cons]
    cases at? : sameKey point.args args with
    | true => rw [elsewhere at? differ]; rfl
    | false => simp [found]

theorem properKeys_written (keys : ProperKeys entries) (key : Value.AllProper point.args)
    (writes : write point entries = .ok (replaced, written)) : ProperKeys written := by
  rcases write_cases writes with ⟨before, old, after, rfl, rfl, -⟩ | ⟨rfl, -⟩
  · simpa only [ProperKeys, List.forall_mem_append, List.forall_mem_cons] using keys
  · simpa only [ProperKeys, List.forall_mem_append, List.forall_mem_singleton]
      using ⟨keys, key⟩

end Entries

/-! ## Insertion -/

/-- An insertion answers with what was at the key, and changes nothing but that. -/
theorem insert_run {function : FunctionValue} {point : Mapping Value}
    (keys : ProperKeys function.entries) (key : Value.AllProper point.args) :
    ∃ added, function.insert point = .ok (found function.entries point.args, added) ∧
      added.default = function.default ∧ ProperKeys added.entries ∧
      write point function.entries = .ok (found function.entries point.args, added.entries) ∧
      ∀ args, found added.entries args =
        if sameKey point.args args then some point.result else found function.entries args := by
  rcases write_defined keys key with ⟨replaced, written, writes⟩
  cases replaced_eq_found writes
  refine ⟨{ function with entries := written }, ?_, rfl, properKeys_written keys key writes,
    writes, found_written writes⟩
  simp only [insert, writes]
  rfl

/-! ## Many points -/

/-- The last result that some points write at some arguments. -/
def lastWrite (points : List (Mapping Value)) (args : List Value) : Option Value :=
  (points.filter (sameKey ·.args args)).getLast?.map (·.result)

/-- The points whose key is that of no earlier one. -/
def firstWrites : (earlier points : List (Mapping Value)) → List (Mapping Value)
  | _, [] => []
  | earlier, point :: points =>
    if earlier.any (sameKey ·.args point.args) then firstWrites (point :: earlier) points
    else point :: firstWrites (point :: earlier) points

/-- A point that wrote its key first, with the result that the key has in the end. -/
def settled (points : List (Mapping Value)) (first : Mapping Value) : Mapping Value :=
  { first with result := (lastWrite points first.args).getD first.result }

section Points

variable {points : List (Mapping Value)} {last : Mapping Value} {args : List Value}

theorem lastWrite_append (points : List (Mapping Value)) (last : Mapping Value)
    (args : List Value) :
    lastWrite (points ++ [last]) args =
      if sameKey last.args args then some last.result else lastWrite points args := by
  rw [lastWrite, lastWrite, List.filter_append, List.filter_singleton]
  cases sameKey last.args args with
  | true => simp
  | false => simp

theorem lastWrite_eq_none_iff :
    lastWrite points args = none ↔ ∀ point ∈ points, sameKey point.args args = false := by
  simp [lastWrite]

theorem firstWrites_append (earlier points : List (Mapping Value)) (last : Mapping Value) :
    firstWrites earlier (points ++ [last]) =
      firstWrites earlier points ++
        if (earlier ++ points).any (sameKey ·.args last.args) then [] else [last] := by
  induction points generalizing earlier with
  | nil =>
      simp only [List.nil_append, firstWrites, List.append_nil]
  | cons point points ih =>
      have reordered : (earlier ++ point :: points).any (sameKey ·.args last.args) =
          (point :: earlier ++ points).any (sameKey ·.args last.args) := by
        simp only [List.any_append, List.any_cons]
        ac_rfl
      rw [List.cons_append, firstWrites, firstWrites, ih, reordered]
      split <;> rfl

/-- What the writing of one more point does to an entry that has settled. -/
theorem settled_append (points : List (Mapping Value)) (last first : Mapping Value) :
    settled (points ++ [last]) first =
      if sameKey last.args first.args then { first with result := last.result }
      else settled points first := by
  rw [settled, lastWrite_append]
  cases sameKey last.args first.args <;> rfl

/-- A point that is the first at its key settles on its own result. -/
theorem settled_of_new (new : lastWrite points last.args = none) :
    settled (points ++ [last]) last = last := by
  rw [settled_append, settled, new]
  cases sameKey last.args last.args <;> rfl

end Points

/-- Writing a point overwrites the one entry at its key, if the keys of the entries differ. -/
theorem written_eq {point : Mapping Value} {entries written : List (Mapping Value)}
    {replaced : Option Value}
    (distinct : entries.Pairwise fun earlier later =>
      Value.listEquals earlier.args later.args = .ok false)
    (writes : write point entries = .ok (replaced, written)) :
    written = entries.map (fun entry =>
        if sameKey point.args entry.args then { entry with result := point.result } else entry) ++
      if replaced.isSome then [] else [point] := by
  have unchanged {others : List (Mapping Value)}
      (differ : ∀ entry ∈ others, sameKey point.args entry.args = false) :
      others.map (fun entry =>
        if sameKey point.args entry.args then { entry with result := point.result } else entry) =
        others := by
    refine (List.map_congr_left fun entry isEntry => ?_).trans others.map_id
    rw [differ entry isEntry]
    rfl
  have differs {entry : Mapping Value}
      (equals : Value.listEquals entry.args point.args = .ok false) :
      sameKey point.args entry.args = false := by
    rw [Value.sameKey_comm]
    exact sameKey_of_listEquals equals
  rcases write_cases writes with
    ⟨before, old, after, rfl, rfl, rfl, same, differ⟩ | ⟨rfl, rfl, differ⟩
  · have sameOld := sameKey_of_listEquals same
    have differAfter : ∀ entry ∈ after, sameKey point.args entry.args = false := by
      intro entry isAfter
      rw [← Value.sameKey_congr sameOld]
      have apart := (List.pairwise_append.mp distinct).2.1
      exact sameKey_of_listEquals (List.rel_of_pairwise_cons apart isAfter)
    rw [List.map_append, List.map_cons, unchanged fun entry isBefore =>
      differs (differ entry isBefore), unchanged differAfter, Value.sameKey_symm sameOld]
    simp
  · rw [unchanged fun entry isEntry => differs (differ entry isEntry)]
    rfl

/-- Written one after another, points make a function with an entry for each key, in the order in
which the keys were first written. -/
theorem ofMappings_run (default : Value) (points : List (Mapping Value))
    (keys : ProperKeys points) :
    ∃ function, ofMappings default points = .ok function ∧ function.default = default ∧
      ProperKeys function.entries ∧
      function.entries = (firstWrites [] points).map (settled points) ∧
      ∀ args, found function.entries args = lastWrite points args := by
  induction points using List.reverseRecOn with
  | nil => exact ⟨constant default, rfl, rfl, by simp [ProperKeys, constant], rfl, fun _ => rfl⟩
  | append_singleton points last ih =>
      rcases List.forall_mem_append.mp keys with ⟨keys, lastKey⟩
      rcases ih keys with ⟨function, made, isDefault, proper, entries, finds⟩
      rcases insert_run proper (lastKey last (List.mem_singleton_self last)) with
        ⟨added, inserts, sameDefault, addedProper, writes, findsAdded⟩
      refine ⟨added, ?_, sameDefault.trans isDefault, addedProper, ?_, fun args => ?_⟩
      · rw [ofMappings_eq] at made ⊢
        rw [List.foldlM_append, made]
        simp only [bind, Except.bind, List.foldlM_cons, List.foldlM_nil, insertPoint, inserts]
        rfl
      · have distinct := (Inserted.ofMappings made).distinctKeys_iff.mpr List.Pairwise.nil
        have settles : (fun entry : Mapping Value => if sameKey last.args entry.args then
            { entry with result := last.result } else entry) ∘ settled points =
              settled (points ++ [last]) := by
          funext first
          rw [settled_append]
          rfl
        rw [written_eq distinct writes, finds, entries, List.map_map, settles,
          firstWrites_append, List.map_append, List.nil_append]
        congr 1
        cases written : lastWrite points last.args with
        | none =>
            have new : points.any (sameKey ·.args last.args) = false := by
              simpa using lastWrite_eq_none_iff.mp written
            rw [new]
            simp [settled_of_new written]
        | some result =>
            have old : points.any (sameKey ·.args last.args) = true := by
              by_contra new
              have none := lastWrite_eq_none_iff.mpr (by simpa using new)
              cases none.symm.trans written
            rw [old]
            rfl
      · rw [findsAdded, finds, lastWrite_append]

/-- Where the keys have no zero denominators, the last write wins. A function that is made of points
has an entry for each key, in the order and the form of its first writing, and gives the result that
the key was last written with, or the default. An insertion answers with what was at the key before,
and after it the new result is found at every form of the key, and everything else as before. -/
theorem last_write_wins :
    (∀ (default : Value) (points : List (Mapping Value)), ProperKeys points →
      ∃ function, ofMappings default points = .ok function ∧ ProperKeys function.entries ∧
        function.entries = (firstWrites [] points).map (settled points) ∧
        function.size = (firstWrites [] points).length ∧
        ∀ args, Value.AllProper args →
          function.get? args = .ok (lastWrite points args) ∧
          function.apply args = .ok ((lastWrite points args).getD default)) ∧
    ∀ (function : FunctionValue) (point : Mapping Value),
      ProperKeys function.entries → Value.AllProper point.args →
      ∃ replaced added, function.insert point = .ok (replaced, added) ∧
        function.get? point.args = .ok replaced ∧ ProperKeys added.entries ∧
        ∀ args, Value.AllProper args → ∃ before, function.get? args = .ok before ∧
          added.get? args =
            .ok (if sameKey point.args args then some point.result else before) := by
  constructor
  · intro default points keys
    rcases ofMappings_run default points keys with
      ⟨function, made, isDefault, proper, entries, finds⟩
    refine ⟨function, made, proper, entries, ?_, fun args argsProper => ?_⟩
    · rw [size, entries, List.length_map]
    · have gets : function.get? args = .ok (lastWrite points args) := by
        rw [get?, lookup_eq proper argsProper, finds]
      refine ⟨gets, ?_⟩
      rw [apply, gets, ← isDefault]
      rfl
  · intro function point keys key
    rcases insert_run keys key with ⟨added, inserts, -, proper, -, finds⟩
    refine ⟨_, added, inserts, lookup_eq keys key, proper, fun args argsProper => ?_⟩
    refine ⟨_, lookup_eq keys argsProper, ?_⟩
    rw [get?, lookup_eq proper argsProper, finds]

/-- One half is written twice as a key, in two forms, and then inserted in a third. -/
theorem last_write_wins_halves :
    ∃ function replaced added,
      ofMappings .absent [⟨[.rational ⟨1, 2⟩], .bool true⟩, ⟨[.int 3], .absent⟩,
        ⟨[.rational ⟨2, 4⟩], .bool false⟩] = .ok function ∧
      function.entries = [⟨[.rational ⟨1, 2⟩], .bool false⟩, ⟨[.int 3], .absent⟩] ∧
      function.get? [.rational ⟨3, 6⟩] = .ok (some (.bool false)) ∧
      function.insert ⟨[.rational ⟨4, 8⟩], .int 5⟩ = .ok (replaced, added) ∧
      replaced = some (.bool false) ∧
      added.get? [.rational ⟨3, 6⟩] = .ok (some (.int 5)) := by
  have proper (numerator denominator : Int) (nonzero : denominator ≠ 0) :
      Value.AllProper [.rational ⟨numerator, denominator⟩] := ⟨nonzero, trivial⟩
  have keys : ProperKeys [⟨[.rational ⟨1, 2⟩], .bool true⟩, ⟨[.int 3], .absent⟩,
      ⟨[.rational ⟨2, 4⟩], .bool false⟩] := by
    simp [ProperKeys, Value.AllProper, Value.IsProper]
  rcases last_write_wins.1 .absent _ keys with ⟨function, made, functionKeys, entries, -, gets⟩
  rcases last_write_wins.2 function ⟨[.rational ⟨4, 8⟩], .int 5⟩ functionKeys
    (proper 4 8 (by decide)) with ⟨replaced, added, inserts, was, -, getsAdded⟩
  rcases getsAdded [.rational ⟨3, 6⟩] (proper 3 6 (by decide)) with ⟨before, -, isAdded⟩
  refine ⟨function, replaced, added, made, entries, (gets _ (proper 3 6 (by decide))).1, inserts,
    ?_, isAdded⟩
  have replaces := was.symm.trans (gets _ (proper 4 8 (by decide))).1
  cases replaces
  rfl

end FiniteFunction

end SmtModel
