import SmtModel.Proofs.Scripted.Reads

/-!
# Reading values without parts

Truth values, numbers and bit vectors are read without looking further, and an element
of an enumerated type is read together with the constant that denotes it.
-/

namespace SmtModel

/-! ## Constants for elements of enumerated types -/

namespace ScriptedSolver

variable {solver : ScriptedSolver} {type : TypeId} {index : Int32}

theorem constant_run (free : .constant ∉ solver.failing) :
    constant type index solver =
      match solver.constantError? type index with
      | some error => .ok .null { withCall .constant solver with error }
      | none =>
        match solver.constant? type index with
        | some term => .ok term (withCall .constant solver)
        | none =>
          .ok (.ofIndex solver.terms.size)
            ((withCall .constant solver).withConstant type index) := by
  have same : (withCall .constant solver).type? type = solver.type? type := rfl
  unfold constant constantError?
  rw [attempt_of_not_mem free, get_bind, same]
  cases solver.type? type with
  | none => rfl
  | some declared =>
      cases declared with
      | enumeration size =>
          by_cases outside : index < 0 ∨ (size.toNat : Int) ≤ index.toInt
          · simp only [outside, if_true]
            rfl
          · have terms : (withCall .constant solver).terms = solver.terms := rfl
            simp only [outside, if_false, constant?]
            rw [get_bind, terms]
            cases solver.terms.findIdx? (·.denotes type index) <;> rfl
      | _ => rfl

theorem constantError?_ne_noError {error : ErrorCode}
    (offends : solver.constantError? type index = some error) : error ≠ .noError := by
  simp only [constantError?] at offends
  split at offends
  · split_ifs at offends
    cases offends
    decide
  · cases offends
    decide
  · cases offends
    decide

theorem constant_of_noError (free : .constant ∉ solver.failing)
    (inside : solver.constantError? type index = none) :
    ∃ term left, constant type index solver = .ok term left ∧
      left.constant? type index = some term ∧ left.errorTerm? = solver.errorTerm? := by
  have runs : constant type index solver = _ := constant_run free
  simp only [inside] at runs
  cases known : solver.constant? type index with
  | some term =>
      simp only [known] at runs
      exact ⟨_, _, runs, known, rfl⟩
  | none =>
      simp only [known] at runs
      exact ⟨_, _, runs, constant?_withConstant known, rfl⟩

/-- The place of a known constant is one of the places of terms. -/
theorem isNull_of_constant? {constant : TermId}
    (known : solver.constant? type index = some constant)
    (room : solver.terms.size ≤ 0x80000000) : constant.isNull = false := by
  simp only [constant?, Option.map_eq_some_iff] at known
  rcases known with ⟨place, found, rfl⟩
  have inside : place < solver.terms.size := (Array.findIdx?_eq_some_iff_findIdx_eq.mp found).1
  exact TermId.isNull_ofIndex (by omega)

/-! ## Forms of numbers -/

section Numbers

variable {model : ModelId} {node : Node} {fraction : Fraction}
  (shown : solver.Shows model node (.rational fraction))

include shown

theorem nodeIsInt64_of_shows :
    answer (.nodeIsInt64 model node) solver = .ok fraction.int64?.isSome solver := by
  refine (measureNode_of_shows shown (·.toInt64.isOk) false).trans ?_
  simp only [ScriptedValue.toInt64]
  cases fraction.int64? <;> rfl

theorem nodeIsRational64_of_shows :
    answer (.nodeIsRational64 model node) solver = .ok fraction.words64?.isSome solver := by
  refine (measureNode_of_shows shown (·.toWords64.isOk) false).trans ?_
  simp only [ScriptedValue.toWords64]
  cases fraction.words64? <;> rfl

end Numbers

end ScriptedSolver

/-! ## Values without parts -/

namespace Reading

open ScriptedSolver

theorem arity_ne_zero {α : Type} {parts : List α} (fits : parts.length < 0x100000000)
    (someParts : parts ≠ []) : UInt32.ofNat parts.length ≠ 0 := by
  intro zero
  have width : (UInt32.ofNat parts.length).toNat = parts.length := UInt32.toNat_ofNat_of_lt fits
  rw [zero] at width
  exact someParts (List.length_eq_zero_iff.mp width.symm)

section Simple

variable {limit : DepthLimit} {model : ModelId} {excused : Prop} {traced : Traced ScriptedSolver}
  {node : Node} (calm : Calm excused traced.state)

include calm

theorem readBool_reads {truth : Bool} (shown : traced.state.Shows model node (.bool truth)) :
    Reads limit model excused traced.state [] (fun _ result => result = .bool truth)
      (readBool answer model node traced) := by
  have called : Reads limit model excused traced.state []
      (fun _ cell => cell = if truth then 1 else 0)
      ((Action.ask answer (.nodeBool model node 0) >>= Action.checkReply answer .nodeBool)
        traced) :=
    .call (.nodeBool ..) rfl rfl (by decide) (.reply _) (by simp [Request.vector?]) calm
      fun free => ⟨_, _, _, readNode_of_shows free shown 0 rfl, rfl, checkReply_ok .., rfl⟩
  unfold readBool
  simp only [← bind_assoc]
  refine called.map fun _ cell _ _ meant => ?_
  subst meant
  cases truth <;> rfl

theorem readRational_reads {fraction : Fraction}
    (shown : traced.state.Shows model node (.rational fraction)) :
    Reads limit model excused traced.state [] (fun _ result => result = fraction.meaning)
      (readRational answer model node traced) := by
  unfold readRational
  rw [Outcome.bind_of_ok (Action.ask_of_ok (nodeIsInt64_of_shows shown))]
  cases integer : fraction.int64? with
  | some number =>
      have reads : (ScriptedValue.rational fraction).toInt64 = .ok number := by
        simp only [ScriptedValue.toInt64, integer]
      have called : Reads limit model excused traced.state [] (fun _ cell => cell = number)
          ((Action.ask answer (.nodeInt64 model node 0) >>= Action.checkReply answer .nodeInt64)
            traced) :=
        .call (.nodeInt64 ..) rfl rfl (by decide) (.reply _) (by simp [Request.vector?]) calm
          fun free => ⟨_, _, _, readNode_of_shows free shown 0 reads, rfl, checkReply_ok .., rfl⟩
      simp only [Option.isSome_some, if_true, ← bind_assoc]
      refine called.map fun _ cell _ _ meant => ?_
      rw [meant, fraction.meaning_of_int64? integer]
  | none =>
      simp only [Option.isSome_none, Bool.false_eq_true, if_false]
      rw [Outcome.bind_of_ok (Action.ask_of_ok (nodeIsRational64_of_shows shown))]
      cases words : fraction.words64? with
      | some parts =>
          have reads : (ScriptedValue.rational fraction).toWords64 = .ok parts := by
            simp only [ScriptedValue.toWords64, words]
          have called : Reads limit model excused traced.state [] (fun _ cells => cells = parts)
              ((Action.ask answer (.nodeRational64 model node (0, 0)) >>=
                Action.checkReply answer .nodeRational64) traced) := by
            refine .call (.nodeRational64 ..) rfl rfl (by decide) (.reply _)
              (by simp [Request.vector?]) calm fun free => ?_
            exact ⟨_, _, _, readNode_of_shows free shown (0, 0) reads, rfl, checkReply_ok .., rfl⟩
          simp only [Option.isSome_some, if_true, ← bind_assoc]
          refine called.map fun _ cells _ _ meant => ?_
          rw [meant, fraction.meaning_of_words64? integer words]
      | none =>
          have called : Reads limit model excused traced.state []
              (fun _ cell => cell = fraction.toFloat)
              ((Action.ask answer (.nodeDouble model node 0) >>=
                Action.checkReply answer .nodeDouble) traced) :=
            .call (.nodeDouble ..) rfl rfl (by decide) (.reply _) (by simp [Request.vector?]) calm
              fun free => ⟨_, _, _, readNode_of_shows free shown 0 rfl, rfl, checkReply_ok .., rfl⟩
          simp only [Option.isSome_none, Bool.false_eq_true, if_false, ← bind_assoc]
          refine called.map fun _ cell _ _ meant => ?_
          rw [meant, fraction.meaning_of_large integer words]

theorem readBits_reads {bits : List Int32} (fits : bits.length < 0x100000000)
    (shown : traced.state.Shows model node (.bitVector bits)) :
    Reads limit model excused traced.state []
      (fun solver result => ScriptedValue.meaning solver.constant? (.bitVector bits) = some result)
      (readBits answer model node traced) := by
  have size : answer (.nodeBitSize model node) traced.state =
      .ok (UInt32.ofNat bits.length) traced.state :=
    measureNode_of_shows shown (·.bitSize) 0
  have width : (UInt32.ofNat bits.length).toNat = bits.length := UInt32.toNat_ofNat_of_lt fits
  unfold readBits
  rw [Outcome.bind_of_ok (Action.ask_of_ok size)]
  by_cases empty : bits = []
  · subst empty
    exact .of_ok rfl
  · have reads : (ScriptedValue.bitVector bits).toBits (UInt32.ofNat bits.length).toNat =
        .ok ⟨bits.toArray, by simp [width]⟩ := by
      simp only [ScriptedValue.toBits, width, dite_true]
    have called : Reads limit model excused traced.state []
        (fun _ cells => cells.toList = bits)
        ((Action.ask answer (.nodeBits model node (UInt32.ofNat bits.length).toNat
            (Vector.replicate (UInt32.ofNat bits.length).toNat 0)) >>=
          Action.checkReply answer .nodeBits) traced) :=
      .call (.nodeBits ..) rfl rfl (by decide) (.reply _) (by simp [Request.vector?]) calm
        fun free => ⟨_, _, _, readNode_of_shows free shown _ reads, rfl, checkReply_ok .., rfl⟩
    simp only [if_neg (arity_ne_zero fits empty), ← bind_assoc]
    refine called.map fun _ cells _ _ meant => ?_
    rw [meant]
    simp only [ScriptedValue.meaning, List.isEmpty_iff, empty, if_false]

/-- Asking for the constant for an element is the look at the element that may offend. -/
theorem constant_reads {depth : Nat} (above : depth < limit.levels) (type : TypeId)
    (index : Int32) :
    Reads limit model excused traced.state [⟨depth, .scalar type index, false⟩]
      (fun solver constant => solver.constant? type index = some constant)
      ((Action.ask answer (.constant type index) >>= Action.checkTerm answer .constant)
        traced) := by
  have offence : Visit.offence? limit traced.state ⟨depth, .scalar type index, false⟩ =
      (traced.state.constantError? type index).map fun error =>
        .call Call.constant.name (report { traced.state with error }) := by
    simp only [Visit.offence?, if_neg (Nat.not_le_of_lt above)]
  have disciplined : Disciplined Request.isQuestion [] (fun _ solver =>
      Action.ask solver (.constant type index) >>= Action.checkTerm solver .constant) :=
    .call (.constant type index) rfl rfl (by simp [Request.vector?]) (.term _)
  refine ⟨disciplined.grows_of_nil _, ?_⟩
  by_cases scripted : .constant ∈ traced.state.failing
  · have failed : answer (.constant type index) traced.state = _ := attempt_of_mem scripted _ _
    intro _
    rw [Outcome.bind_of_ok (Action.ask_of_ok failed), Action.checkTerm, if_pos (by rfl)]
    cases ended : Action.failCall answer .constant _ with
    | ok result left => exact absurd ended failCall_ne_ok
    | error stop left => exact .excuse (calm.excuses scripted)
  · have runs : answer (.constant type index) traced.state = _ := constant_run scripted
    cases offends : traced.state.constantError? type index with
    | some error =>
        simp only [offends] at runs offence
        intro _
        rw [Outcome.bind_of_ok (Action.ask_of_ok runs), Action.checkTerm, if_pos (by rfl),
          failCall_of_error (constantError?_ne_noError offends)]
        exact .offence (by simp only [List.findSome?_cons, offence, Option.map_some]; rfl)
    | none =>
        have unoffended : ∀ visit ∈ [Visit.mk depth (.scalar type index) false],
            visit.offence? limit traced.state = none := by
          simpa [offends] using offence
        rcases constant_of_noError scripted offends with ⟨term, left, runs, known, errorTerm?⟩
        have runs : answer (.constant type index) traced.state = .ok term left := runs
        rw [Outcome.bind_of_ok (Action.ask_of_ok runs), Action.checkTerm]
        cases null : term.isNull with
        | true =>
            simp only [if_true]
            intro room
            have room := (failCall_extends .constant _).hasRoom room
            have notNull := isNull_of_constant? known room.terms
            rw [null] at notNull
            cases notNull
        | false =>
            intro _
            exact .ok unoffended errorTerm? known

theorem readScalar_reads {depth : Nat} (above : depth < limit.levels) {type : TypeId}
    {index : Int32} (shown : traced.state.Shows model node (.scalar type index)) :
    Reads limit model excused traced.state [⟨depth, .scalar type index, false⟩]
      (fun solver result =>
        ScriptedValue.meaning solver.constant? (.scalar type index) = some result)
      (readScalar answer model node traced) := by
  have called : Reads limit model excused traced.state [] (fun _ cells => cells = (index, type))
      ((Action.ask answer (.nodeScalar model node (0, .null)) >>=
        Action.checkReply answer .nodeScalar) traced) :=
    .call (.nodeScalar ..) rfl rfl (by decide) (.reply _) (by simp [Request.vector?]) calm
      fun free => ⟨_, _, _, readNode_of_shows free shown (0, TypeId.null) rfl, rfl,
        checkReply_ok .., rfl⟩
  unfold readScalar
  simp only [← bind_assoc]
  have disciplined (cells : Int32 × TypeId) : Disciplined Request.isQuestion [] (fun _ solver =>
      Action.ask solver (.constant cells.2 cells.1) >>= Action.checkTerm solver .constant >>=
        fun constant => pure (Value.scalar ⟨constant, cells.2, cells.1⟩)) :=
    .bind (.call _ rfl rfl (by simp [Request.vector?]) (.term _)) fun _ => .pure _
  refine called.bind fun cells middle ran grown meant =>
    .of_room ((disciplined cells).grows_of_nil _) fun room => ?_
  cases meant room
  refine (constant_reads (calm.mono grown) above type index).map fun solver constant _ _ known => ?_
  simp only [ScriptedValue.meaning, known]
  rfl

end Simple

end Reading

end SmtModel
