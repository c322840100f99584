import PathScript.Primitive.Perform
import PathScript.Primitive.Steps

/-!
# Steps and Changes

The steps of an operator amount to a change that is made all at once: they come to
their end with the state that `Primitive.perform` gives, or there is the same objection
and the state is what it was at the beginning.

That is not in the nature of steps. An action that changes the state and then objects
leaves the change behind, so for each operator it has to be seen that whatever can
object comes before whatever changes the state. The objections are about operands, so
most of what follows says what looking at operands comes to: if they are of the form
that an operator is defined on, it finds them, and otherwise it objects as the operator
does.

## Main definitions

* `atOnce`: What comes of a change that is made all at once.
* `Action.Performs`: An action with the effect of such a change.
* `Action.Reads`: An action that changes nothing.
* `Operands.StartWithNumbers`: Operands that begin with numbers.

## Theorems

* `Action.run_bind_of_ok`, `Action.run_bind_of_error`: Steps one after the other.
* `Action.run_onTop_of_some`, `Action.run_onTop_of_none`: Looking at the only operand.
* `Action.run_twoNumbers_of_real`, `Action.run_twoNumbers_of_other`,
  `Action.run_numbersOnTop_of_real`, `Action.run_numbersOnTop_of_other`: Looking at
  several numbers.
* `Action.run_addSegment_of_real`, `Action.run_addSegment_of_other`: Adding to the path.
* `Action.run_setStyle_of_real`, `Action.run_setStyle_of_other`: Setting a shape.
* `Primitive.performs_steps`: The steps of every primitive operator.
* `Primitive.state_of_steps_error`: What is left when one of the steps objects.
-/

namespace PathScript

/-- What comes of a change that is made all at once: it is complete, or nothing has
    happened. -/
def atOnce {α : Type} (s : State) :
    Except Complaint (α × State) → EStateM.Result Complaint State α
  | .ok (x, s') => .ok x s'
  | .error c => .error c s

theorem eq_ok_of_atOnce {α : Type} {s s' : State} {r : Except Complaint (α × State)} {x : α}
    (h : atOnce s r = .ok x s') : r = .ok (x, s') := by
  cases r with
  | error c => cases h
  | ok changed => cases h; rfl

/-- After an objection to a change that is made all at once, the state is what it was. -/
theorem eq_error_of_atOnce {α : Type} {s s' : State} {r : Except Complaint (α × State)}
    {c : Complaint} (h : atOnce s r = .error c s') : r = .error c ∧ s' = s := by
  cases r with
  | error other => cases h; exact ⟨rfl, rfl⟩
  | ok changed => cases h

namespace Operands

/-- Operands of which the first ones, so many, are numbers. -/
def StartWithNumbers (count : Nat) (operands : List Cell) : Prop :=
  ∀ place < count, ∃ x object?, operands[place]? = some ⟨.real x, object?⟩

variable {count : Nat} {operands rest : List Cell}

theorem startWithNumbers_zero (operands : List Cell) : StartWithNumbers 0 operands :=
  fun place hplace => absurd hplace (Nat.not_lt_zero place)

theorem StartWithNumbers.cons (h : StartWithNumbers count rest) (x : Binary64)
    (object? : Option Identity) : StartWithNumbers (count + 1) (⟨.real x, object?⟩ :: rest) := by
  intro place hplace
  cases place with
  | zero => exact ⟨x, object?, rfl⟩
  | succ place => exact h place (Nat.lt_of_succ_lt_succ hplace)

theorem StartWithNumbers.exists_cons (h : StartWithNumbers (count + 1) operands) :
    ∃ x object? rest, operands = ⟨.real x, object?⟩ :: rest ∧ StartWithNumbers count rest := by
  rcases h 0 (Nat.succ_pos count) with ⟨x, object?, hfirst⟩
  cases operands with
  | nil => cases hfirst
  | cons cell rest =>
      refine ⟨x, object?, rest, by rw [Option.some.inj hfirst], fun place hplace => ?_⟩
      exact h (place + 1) (Nat.succ_lt_succ hplace)

theorem StartWithNumbers.le_length (h : StartWithNumbers count operands) :
    count ≤ operands.length := by
  induction count generalizing operands with
  | zero => exact Nat.zero_le _
  | succ count ih =>
      rcases h.exists_cons with ⟨x, object?, rest, rfl, hrest⟩
      exact Nat.succ_le_succ (ih hrest)

/-- Operands that are not two or more. -/
theorem length_lt_two (h : ∀ y x rest, operands = y :: x :: rest → False) :
    operands.length < 2 := by
  rcases operands with _ | ⟨y, _ | ⟨x, rest⟩⟩
  · decide
  · exact Nat.lt_succ_self 1
  · exact (h y x rest rfl).elim

end Operands

namespace Action

section Steps

variable {α β : Type} {s s' : State} {c : Complaint}

theorem run_bind_of_ok {a : Action α} {next : α → Action β} {x : α} (h : a.run s = .ok x s') :
    (a >>= next).run s = (next x).run s' := by
  simp only [EStateM.run_bind, h]

theorem run_bind_of_error {a : Action α} {next : α → Action β} (h : a.run s = .error c s') :
    (a >>= next).run s = .error c s' := by
  simp only [EStateM.run_bind, h]

/-- An action that finds something out, or objects, and changes nothing. -/
def Reads (a : Action α) (s : State) (found : Except Complaint α) : Prop :=
  a.run s = atOnce s (found.map (·, s))

theorem reads_pure (s : State) (x : α) : (pure x : Action α).Reads s (pure x) := rfl

theorem Reads.bind {a : Action α} {next : α → Action β} {found : Except Complaint α}
    {more : α → Except Complaint β} (ha : a.Reads s found)
    (hnext : ∀ x, (next x).Reads s (more x)) : (a >>= next).Reads s (found >>= more) := by
  cases found with
  | error c => exact run_bind_of_error ha
  | ok x => exact (run_bind_of_ok ha).trans (hnext x)

theorem run_get_bind {next : State → Action β} : (get >>= next).run s = (next s).run s := rfl

theorem run_throw : (throw c : Action α).run s = .error c s := rfl

end Steps

section Looking

variable {s : State} {place count : Nat} {cell : Cell}

theorem run_need_of_le (h : count ≤ s.operands.length) : (need count).run s = .ok () s := by
  rw [need, run_get_bind, if_neg (Nat.not_lt.mpr h)]
  rfl

theorem run_need_of_lt (h : s.operands.length < count) :
    (need count).run s = .error (.operands count s.operands) s := by
  rw [need, run_get_bind, if_pos h, run_throw, Complaint.operands, if_pos h]

theorem run_room_of_true {limits : Settings} (h : s.hasRoom limits = true) :
    (room limits).run s = .ok () s := by
  rw [room, run_get_bind, if_pos h]
  rfl

theorem run_room_of_false {limits : Settings} (h : ¬ s.hasRoom limits = true) :
    (room limits).run s = .error (.plain .stackOverflow) s := by
  rw [room, run_get_bind, if_neg h, run_throw]

theorem run_operand (h : s.operands[place]? = some cell) :
    (operand place).run s = .ok cell s := by
  rw [operand, run_get_bind, h]
  rfl

/-- A wrong type where there are enough operands. -/
theorem complaint_of_le (h : count ≤ s.operands.length) :
    Complaint.operands count s.operands = .plain .typeMismatch := if_neg (Nat.not_lt.mpr h)

section

variable {α : Type} (type? : Value → Option α) {x : α} {rest : List Cell}

theorem run_typed_of_some (h : s.operands[place]? = some cell) (htype : type? cell.value = some x) :
    (typed type? place).run s = .ok x s := by
  rw [typed, run_bind_of_ok (run_operand h), htype]
  rfl

theorem run_typed_of_none (h : s.operands[place]? = some cell) (htype : type? cell.value = none) :
    (typed type? place).run s = .error (.plain .typeMismatch) s := by
  rw [typed, run_bind_of_ok (run_operand h), htype]
  rfl

theorem run_onTop_of_some (h : s.operands = cell :: rest) (htype : type? cell.value = some x) :
    (onTop type?).run s = .ok x s := by
  have hcell : s.operands[0]? = some cell := by rw [h]; rfl
  rw [onTop, run_bind_of_ok (run_need_of_le (by simp [h])), run_typed_of_some type? hcell htype]

/-- Looking at the only operand where there is none, or one of another type. -/
theorem run_onTop_of_none
    (h : ∀ value object? rest, s.operands = ⟨value, object?⟩ :: rest → type? value = none) :
    (onTop type?).run s = .error (.operands 1 s.operands) s := by
  rcases hoperands : s.operands with _ | ⟨⟨value, object?⟩, rest⟩
  · rw [onTop, run_bind_of_error (run_need_of_lt (by simp [hoperands])), hoperands]
  · have hheight : 1 ≤ s.operands.length := by simp [hoperands]
    have hcell : s.operands[0]? = some ⟨value, object?⟩ := by rw [hoperands]; rfl
    rw [onTop, run_bind_of_ok (run_need_of_le hheight),
      run_typed_of_none type? hcell (h value object? rest hoperands), ← hoperands,
      complaint_of_le hheight]

theorem run_belowTop_of_some {top : Cell} (h : s.operands = top :: cell :: rest)
    (htype : type? cell.value = some x) : (belowTop type?).run s = .ok x s := by
  have hcell : s.operands[1]? = some cell := by rw [h]; rfl
  rw [belowTop, run_bind_of_ok (run_need_of_le (by simp [h])), run_typed_of_some type? hcell htype]

/-- Looking at the lower of two operands where there are fewer, or it has another
    type. -/
theorem run_belowTop_of_none
    (h : ∀ top value object? rest, s.operands = top :: ⟨value, object?⟩ :: rest →
      type? value = none) :
    (belowTop type?).run s = .error (.operands 2 s.operands) s := by
  rcases Nat.lt_or_ge s.operands.length 2 with hfew | hheight
  · rw [belowTop, run_bind_of_error (run_need_of_lt hfew)]
  · rw [belowTop, run_bind_of_ok (run_need_of_le hheight), complaint_of_le hheight]
    rcases hoperands : s.operands with _ | ⟨top, _ | ⟨⟨value, object?⟩, rest⟩⟩
    · simp [hoperands] at hheight
    · simp [hoperands] at hheight
    · have hcell : s.operands[1]? = some ⟨value, object?⟩ := by rw [hoperands]; rfl
      exact run_typed_of_none type? hcell (h top value object? rest hoperands)

end

/-- Looking for a number where an operator on a number is not defined. -/
theorem run_onTop_of_not_real
    (h : ∀ x object? rest, s.operands = ⟨.real x, object?⟩ :: rest → False) :
    (onTop Value.real?).run s = .error (.operands 1 s.operands) s := by
  refine run_onTop_of_none _ fun value object? rest hoperands => ?_
  cases value with
  | real x => exact (h x object? rest hoperands).elim
  | _ => rfl

theorem run_twoNumbers_of_real {x y : Binary64} {object? other? : Option Identity}
    {rest : List Cell} (h : s.operands = ⟨.real y, object?⟩ :: ⟨.real x, other?⟩ :: rest) :
    twoNumbers.run s = .ok (x, y) s := by
  have htop : s.operands[0]? = some ⟨.real y, object?⟩ := by rw [h]; rfl
  have hlower : s.operands[1]? = some ⟨.real x, other?⟩ := by rw [h]; rfl
  rw [twoNumbers, run_bind_of_ok (run_need_of_le (by simp [h])),
    run_bind_of_ok (run_typed_of_some Value.real? htop rfl),
    run_bind_of_ok (run_typed_of_some Value.real? hlower rfl)]
  rfl

theorem run_twoNumbers_of_other
    (h : ∀ y object? x other? rest,
      s.operands = ⟨.real y, object?⟩ :: ⟨.real x, other?⟩ :: rest → False) :
    twoNumbers.run s = .error (.operands 2 s.operands) s := by
  rcases Nat.lt_or_ge s.operands.length 2 with hfew | hheight
  · rw [twoNumbers, run_bind_of_error (run_need_of_lt hfew)]
  · rw [twoNumbers, run_bind_of_ok (run_need_of_le hheight), complaint_of_le hheight]
    rcases hoperands : s.operands with _ | ⟨⟨top, object?⟩, _ | ⟨⟨lower, other?⟩, rest⟩⟩
    · simp [hoperands] at hheight
    · simp [hoperands] at hheight
    · have htop : s.operands[0]? = some ⟨top, object?⟩ := by rw [hoperands]; rfl
      have hlower : s.operands[1]? = some ⟨lower, other?⟩ := by rw [hoperands]; rfl
      cases top with
      | real y =>
          rw [run_bind_of_ok (run_typed_of_some Value.real? htop rfl)]
          cases lower with
          | real x => exact (h y object? x other? rest hoperands).elim
          | _ => rw [run_bind_of_error (run_typed_of_none Value.real? hlower rfl)]
      | _ => rw [run_bind_of_error (run_typed_of_none Value.real? htop rfl)]

theorem run_numbers_of_real (h : Operands.StartWithNumbers count s.operands) :
    (numbers count).run s = .ok () s := by
  induction count with
  | zero => rfl
  | succ count ih =>
      rcases h count (Nat.lt_succ_self count) with ⟨x, object?, hcell⟩
      rw [numbers, run_bind_of_ok (run_typed_of_some Value.real? hcell rfl)]
      exact ih fun place hplace => h place (Nat.lt_succ_of_lt hplace)

theorem run_numbers_of_other (hheight : count ≤ s.operands.length)
    (h : ¬ Operands.StartWithNumbers count s.operands) :
    (numbers count).run s = .error (.plain .typeMismatch) s := by
  induction count with
  | zero => exact absurd (Operands.startWithNumbers_zero s.operands) h
  | succ count ih =>
      have hcell : s.operands[count]? = some s.operands[count] := List.getElem?_eq_getElem hheight
      generalize s.operands[count] = cell at hcell
      rcases cell with ⟨value, object?⟩
      rw [numbers]
      cases value with
      | real x =>
          rw [run_bind_of_ok (run_typed_of_some Value.real? hcell rfl)]
          -- The lowest operand looked at is a number, so one above it is not.
          refine ih (Nat.le_of_succ_le hheight) fun habove => h fun place hplace => ?_
          rcases Nat.lt_succ_iff_lt_or_eq.mp hplace with hlt | rfl
          · exact habove place hlt
          · exact ⟨x, object?, hcell⟩
      | _ => rw [run_bind_of_error (run_typed_of_none Value.real? hcell rfl)]

theorem run_numbersOnTop_of_real (h : Operands.StartWithNumbers count s.operands) :
    (numbersOnTop count).run s = .ok () s := by
  rw [numbersOnTop, run_bind_of_ok (run_need_of_le h.le_length), run_numbers_of_real h]

theorem run_numbersOnTop_of_other (h : ¬ Operands.StartWithNumbers count s.operands) :
    (numbersOnTop count).run s = .error (.operands count s.operands) s := by
  rcases Nat.lt_or_ge s.operands.length count with hfew | hheight
  · rw [numbersOnTop, run_bind_of_error (run_need_of_lt hfew)]
  · rw [numbersOnTop, run_bind_of_ok (run_need_of_le hheight), run_numbers_of_other hheight h,
      complaint_of_le hheight]

end Looking

/-- An action with the effect of a change that is made all at once. -/
def Performs (a : Action Unit) (change : State → Except Complaint State) : Prop :=
  ∀ s, a.run s = atOnce s ((change s).map ((), ·))

section Stack

theorem performs_arithmetic (operation : Binary64 → Binary64 → Binary64) :
    (arithmetic operation).Performs (State.onOperands (Operands.arithmetic operation)) := by
  intro s
  unfold State.onOperands Operands.arithmetic arithmetic
  split
  · next y _ x _ rest h =>
      rw [run_bind_of_ok (run_twoNumbers_of_real h)]
      dsimp only
      by_cases hfinite : (operation x y).isFinite = true
      · rw [if_pos hfinite, if_pos hfinite]
        simp [takeOff, put, h, atOnce, Except.map]
      · rw [if_neg hfinite, if_neg hfinite, run_bind_of_error run_throw]
        rfl
  · next h =>
      rw [run_bind_of_error (run_twoNumbers_of_other h)]
      rfl

theorem performs_divide : divide.Performs (State.onOperands Operands.divide) := by
  intro s
  unfold State.onOperands Operands.divide divide
  split
  · next y object? x rest h =>
      -- A zero is refused before anything is known about the operand below it.
      have hzero : refuseZero.run s = (if y.eq (.zero false) then
          throw (.because .rangeCheck "division by zero") else pure () : Action Unit).run s := by
        rw [refuseZero, run_get_bind, h]
      split
      · next hy =>
          rw [if_pos hy, run_throw] at hzero
          rw [run_bind_of_error hzero]
          rfl
      · next hy =>
          rw [if_neg hy] at hzero
          rw [run_bind_of_ok hzero, ← h]
          exact performs_arithmetic Binary64.div s
  · next h =>
      have hother : refuseZero.run s = .ok () s := by
        rw [refuseZero, run_get_bind]
        split
        · next hoperands => exact (h _ _ _ _ hoperands).elim
        · rfl
      rw [run_bind_of_ok hother]
      exact performs_arithmetic Binary64.div s

theorem performs_negate : negate.Performs (State.onOperands Operands.negate) := by
  intro s
  unfold State.onOperands Operands.negate negate
  split
  · next x _ rest h =>
      rw [run_bind_of_ok (run_onTop_of_some Value.real? h rfl)]
      simp [put, h, atOnce, Except.map]
  · next h =>
      rw [run_bind_of_error (run_onTop_of_not_real h)]
      rfl

theorem performs_comparison (relation : Binary64 → Binary64 → Bool) :
    (comparison relation).Performs (State.onOperands (Operands.comparison relation)) := by
  intro s
  unfold State.onOperands Operands.comparison comparison
  split
  · next y _ x _ rest h =>
      rw [run_bind_of_ok (run_twoNumbers_of_real h)]
      simp [takeOff, put, h, atOnce, Except.map]
  · next h =>
      rw [run_bind_of_error (run_twoNumbers_of_other h)]
      rfl

theorem performs_sameness (answer : Bool → Bool) :
    (sameness answer).Performs (State.onOperands (Operands.sameness answer)) := by
  intro s
  unfold State.onOperands Operands.sameness sameness
  split
  · next y x rest h =>
      rw [run_bind_of_ok (run_need_of_le (by simp [h])),
        run_bind_of_ok (run_operand (by rw [h]; rfl)),
        run_bind_of_ok (run_operand (by rw [h]; rfl))]
      simp [takeOff, put, h, atOnce, Except.map]
  · next h =>
      rw [run_bind_of_error (run_need_of_lt (Operands.length_lt_two h))]
      rfl

theorem performs_exchange : exchange.Performs (State.onOperands Operands.exchange) := by
  intro s
  unfold State.onOperands Operands.exchange exchange
  split
  · next y x rest h =>
      rw [run_bind_of_ok (run_need_of_le (by simp [h])),
        run_bind_of_ok (run_operand (by rw [h]; rfl)),
        run_bind_of_ok (run_operand (by rw [h]; rfl))]
      simp [put, h, atOnce, Except.map]
  · next h =>
      rw [run_bind_of_error (run_need_of_lt (Operands.length_lt_two h))]
      rfl

theorem performs_complement : complement.Performs (State.onOperands Operands.complement) := by
  intro s
  unfold State.onOperands Operands.complement complement
  split
  · next b _ rest h =>
      rw [run_bind_of_ok (run_onTop_of_some Value.bool? h rfl)]
      simp [put, h, atOnce, Except.map]
  · next h =>
      have htype : (onTop Value.bool?).run s = .error (.operands 1 s.operands) s := by
        refine run_onTop_of_none _ fun value object? rest hoperands => ?_
        cases value with
        | bool b => exact (h b object? rest hoperands).elim
        | _ => rfl
      rw [run_bind_of_error htype]
      rfl

theorem performs_discard : discard.Performs (State.onOperands Operands.drop) := by
  intro s
  unfold State.onOperands Operands.drop discard
  cases h : s.operands with
  | nil =>
      rw [run_bind_of_error (run_need_of_lt (by simp [h])), h]
      rfl
  | cons cell rest =>
      rw [run_bind_of_ok (run_need_of_le (by simp [h]))]
      simp [takeOff, h, atOnce, Except.map]

theorem performs_duplicate (limits : Settings) :
    (duplicate limits).Performs (State.duplicate limits) := by
  intro s
  unfold State.duplicate State.push? duplicate
  cases h : s.operands with
  | nil =>
      rw [run_bind_of_error (run_need_of_lt (by simp [h])), h]
      rfl
  | cons cell rest =>
      rw [run_bind_of_ok (run_need_of_le (by simp [h]))]
      dsimp only
      split
      · next hroom =>
          rw [run_bind_of_ok (run_room_of_true hroom),
            run_bind_of_ok (run_operand (by rw [h]; rfl))]
          rfl
      · next hroom =>
          rw [run_bind_of_error (run_room_of_false hroom)]
          rfl

theorem performs_countOperands (limits : Settings) :
    (countOperands limits).Performs (State.countOperands limits) := by
  intro s
  unfold State.countOperands State.push? countOperands
  split
  · next hroom =>
      rw [run_bind_of_ok (run_room_of_true hroom)]
      rfl
  · next hroom =>
      rw [run_bind_of_error (run_room_of_false hroom)]
      rfl

theorem run_integer_of_some {s : State} {x : Binary64} {n : Int} (h : x.toInt? = some n) :
    (integer x).run s = .ok n s := by
  rw [integer, h]
  rfl

theorem run_integer_of_none {s : State} {x : Binary64} (h : x.toInt? = none) :
    (integer x).run s = .error (.plain .typeMismatch) s := by
  rw [integer, h]
  rfl

/-- Turning nothing round, or by no places, is not done. -/
theorem run_turn (s : State) (n j : Int) :
    (turn n j).run s = .ok () { s with
      operands := Operands.rotate (j % n).toNat (s.operands.take n.toNat)
        ++ s.operands.drop n.toNat } := by
  unfold turn
  by_cases hn : n ≠ 0
  · rw [if_pos hn]
    dsimp only
    by_cases hturns : (j % n).toNat ≠ 0
    · rw [if_pos hturns]
      rfl
    · rw [if_neg hturns, Decidable.not_not.mp hturns, Operands.rotate, List.drop_zero,
        List.take_zero, List.append_nil, List.take_append_drop]
      rfl
  · rw [if_neg hn, Decidable.not_not.mp hn, Int.toNat_zero, List.take_zero, Operands.rotate,
      List.drop_nil, List.take_nil, List.append_nil, List.nil_append, List.drop_zero]
    rfl

theorem performs_roll : roll.Performs (State.onOperands Operands.roll) := by
  intro s
  unfold State.onOperands Operands.roll roll
  split
  · next y _ x _ rest h =>
      rw [run_bind_of_ok (run_twoNumbers_of_real h)]
      -- The number of places is converted first, so its objection comes first. It is the
      -- same one for both.
      cases hj : y.toInt? with
      | none =>
          rw [run_bind_of_error (run_integer_of_none hj)]
          cases x.toInt? <;> rfl
      | some j =>
          rw [run_bind_of_ok (run_integer_of_some hj)]
          cases hn : x.toInt? with
          | none =>
              rw [run_bind_of_error (run_integer_of_none hn)]
              rfl
          | some n =>
              rw [run_bind_of_ok (run_integer_of_some hn)]
              have hheight : (s.operands.length : Int) - 2 = rest.length := by
                rw [h, List.length_cons, List.length_cons]
                omega
              dsimp only
              by_cases hnegative : n < 0
              · rw [if_pos hnegative, if_pos hnegative, run_bind_of_error run_throw]
                rfl
              · rw [if_neg hnegative, if_neg hnegative, run_get_bind, hheight]
                by_cases hfew : (rest.length : Int) < n
                · rw [if_pos hfew, if_pos hfew, run_bind_of_error run_throw]
                  rfl
                · rw [if_neg hfew, if_neg hfew]
                  simp [takeOff, run_turn, h, atOnce, Except.map]
  · next h =>
      rw [run_bind_of_error (run_twoNumbers_of_other h)]
      rfl

theorem performs_clear : clear.Performs (.ok <| State.clear ·) := fun _ => rfl

end Stack

section Definitions

theorem performs_define : define.Performs State.define := by
  intro s
  unfold State.define define
  split
  · next cell key _ rest h =>
      rw [run_bind_of_ok (run_belowTop_of_some Value.name? h rfl),
        run_bind_of_ok (run_operand (by rw [h]; rfl))]
      by_cases hexecutable : cell.value.isExecutable = true
      · simp [invocable, hexecutable, takeOff, h, atOnce, Except.map]
      · simp [invocable, hexecutable, takeOff, h, atOnce, Except.map]
  · next h =>
      have htype : (belowTop Value.name?).run s = .error (.operands 2 s.operands) s := by
        refine run_belowTop_of_none _ fun top value object? rest hoperands => ?_
        cases value with
        | name key => exact (h top key object? rest hoperands).elim
        | _ => rfl
      rw [run_bind_of_error htype]
      rfl

theorem performs_load : load.Performs State.load := by
  intro s
  unfold State.load load
  split
  · next key _ rest h =>
      rw [run_bind_of_ok (run_onTop_of_some Value.name? h rfl), run_get_bind]
      cases s.lookup? key with
      | none => rfl
      | some cell => simp [put, h, atOnce, Except.map]
  · next h =>
      have htype : (onTop Value.name?).run s = .error (.operands 1 s.operands) s := by
        refine run_onTop_of_none _ fun value object? rest hoperands => ?_
        cases value with
        | name key => exact (h key object? rest hoperands).elim
        | _ => rfl
      rw [run_bind_of_error htype]
      rfl

end Definitions

section Graphics

theorem performs_closePath : closePath.Performs (.ok <| State.closePath ·) := by
  intro s
  dsimp only [State.closePath, closePath]
  rw [run_get_bind]
  cases s.graphics.path with
  | nil => rfl
  | cons first path => rfl

theorem performs_dropPath : dropPath.Performs (.ok <| State.dropPath ·) := fun _ => rfl

theorem performs_paint : paint.Performs (.ok <| State.paint ·) := fun _ => rfl

theorem performs_save (limits : Settings) : (save limits).Performs (State.save limits) := by
  intro s
  unfold State.save save
  rw [run_get_bind]
  split
  · rfl
  · rfl

theorem performs_restore : restore.Performs State.restore := by
  intro s
  unfold State.restore restore
  rw [run_get_bind]
  cases s.saved with
  | nil => rfl
  | cons g saved => rfl

theorem performs_pushIdentity (limits : Settings) :
    (pushIdentity limits).Performs (State.pushIdentity limits) := by
  intro s
  unfold State.pushIdentity pushIdentity
  split
  · next hroom =>
      rw [run_bind_of_ok (run_room_of_true hroom)]
      rfl
  · next hroom =>
      rw [run_bind_of_error (run_room_of_false hroom)]
      rfl

theorem performs_setLineWidth : setLineWidth.Performs State.setLineWidth := by
  intro s
  unfold State.setLineWidth setLineWidth
  split
  · next x _ rest h =>
      rw [run_bind_of_ok (run_onTop_of_some Value.real? h rfl)]
      simp [onGraphics, takeOff, h, atOnce, Except.map]
  · next h =>
      rw [run_bind_of_error (run_onTop_of_not_real h)]
      rfl

theorem performs_setMiterLimit : setMiterLimit.Performs State.setMiterLimit := by
  intro s
  unfold State.setMiterLimit setMiterLimit
  split
  · next x _ rest h =>
      rw [run_bind_of_ok (run_onTop_of_some Value.real? h rfl)]
      by_cases hlow : x.lt .one = true
      · rw [if_pos hlow, if_pos hlow, run_bind_of_error run_throw]
        rfl
      · rw [if_neg hlow, if_neg hlow]
        simp [onGraphics, takeOff, h, atOnce, Except.map]
  · next h =>
      rw [run_bind_of_error (run_onTop_of_not_real h)]
      rfl

/-- Setting a shape where there is a number on top: the number has been taken off, or it
    chooses none. -/
theorem run_setStyle_of_real {α : Type} (ofCode? : Int → Option α)
    (set : α → GraphicsState → GraphicsState) {s : State} {x : Binary64}
    {object? : Option Identity} {rest : List Cell} (h : s.operands = ⟨.real x, object?⟩ :: rest) :
    (setStyle ofCode? set).run s = atOnce s ((State.styleChoice ofCode? x).map fun style =>
      ((), { s with operands := rest, graphics := set style s.graphics })) := by
  rw [setStyle, chooseStyle, bind_assoc, run_bind_of_ok (run_onTop_of_some Value.real? h rfl)]
  cases State.styleChoice ofCode? x with
  | error c => rfl
  | ok style =>
      have hrest : s.operands.drop 1 = rest := by rw [h]; rfl
      rw [← hrest]
      rfl

theorem run_setStyle_of_other {α : Type} (ofCode? : Int → Option α)
    (set : α → GraphicsState → GraphicsState) {s : State}
    (h : ∀ x object? rest, s.operands = ⟨.real x, object?⟩ :: rest → False) :
    (setStyle ofCode? set).run s = .error (.operands 1 s.operands) s := by
  rw [setStyle, chooseStyle, bind_assoc, run_bind_of_error (run_onTop_of_not_real h)]

theorem performs_setLineCap : setLineCap.Performs State.setLineCap := by
  intro s
  unfold State.setLineCap setLineCap
  split
  · next x _ rest h =>
      rw [run_setStyle_of_real _ _ h]
      cases State.styleChoice LineCap.ofCode? x <;> rfl
  · next h => exact run_setStyle_of_other _ _ h

theorem performs_setLineJoin : setLineJoin.Performs State.setLineJoin := by
  intro s
  unfold State.setLineJoin setLineJoin
  split
  · next x _ rest h =>
      rw [run_setStyle_of_real _ _ h]
      cases State.styleChoice LineJoin.ofCode? x <;> rfl
  · next h => exact run_setStyle_of_other _ _ h

theorem performs_concatenate : concatenate.Performs State.concatenate := by
  intro s
  unfold State.concatenate concatenate
  split
  · next identity items _ rest h =>
      rw [run_bind_of_ok (run_onTop_of_some Value.items? h rfl)]
      unfold matrix
      by_cases hlength : items.length ≠ 6
      · rw [if_pos hlength, if_pos hlength]
        rfl
      · rw [if_neg hlength, if_neg hlength]
        cases (items.mapM Value.real?).bind Matrix.ofList? with
        | none => rfl
        | some m =>
            rw [run_bind_of_ok (EStateM.run_pure _ _), run_get_bind]
            dsimp only
            -- The product is known before the map in force is touched.
            cases m.mul? s.graphics.ctm with
            | none => rfl
            | some ctm => simp [onGraphics, takeOff, h, atOnce, Except.map]
  · next h =>
      have htype : (onTop Value.items?).run s = .error (.operands 1 s.operands) s := by
        refine run_onTop_of_none _ fun value object? rest hoperands => ?_
        cases value with
        | array identity items => exact (h identity items object? rest hoperands).elim
        | _ => rfl
      rw [run_bind_of_error htype]
      rfl

theorem reads_point {s : State} {place : Nat} {x y : Binary64} {object? other? : Option Identity}
    (hy : s.operands[place]? = some ⟨.real y, object?⟩)
    (hx : s.operands[place + 1]? = some ⟨.real x, other?⟩) :
    (point place).Reads s (s.toDevice x y) := by
  rw [Reads, point, run_bind_of_ok (run_typed_of_some Value.real? hx rfl),
    run_bind_of_ok (run_typed_of_some Value.real? hy rfl), run_get_bind, State.toDevice]
  cases s.graphics.ctm.image? ⟨x, y⟩ with
  | none => rfl
  | some p => rfl

/-- Adding to the path where the operands are coordinates. The points are mapped before
    any of the coordinates is taken off. -/
theorem run_addSegment_of_real {s : State} {count : Nat} {segment : Action Instruction}
    {mapped : Except Complaint Instruction} (h : Operands.StartWithNumbers count s.operands)
    (hsegment : segment.Reads s mapped) :
    (addSegment count segment).run s
      = atOnce s (mapped.map fun i => ((), s.extendPath (s.operands.drop count) i)) := by
  rw [addSegment, run_bind_of_ok (run_numbersOnTop_of_real h)]
  cases mapped with
  | error c =>
      rw [run_bind_of_error hsegment]
      rfl
  | ok i =>
      rw [run_bind_of_ok hsegment]
      rfl

theorem run_addSegment_of_other {s : State} {count : Nat} {segment : Action Instruction}
    (h : ¬ Operands.StartWithNumbers count s.operands) :
    (addSegment count segment).run s = .error (.operands count s.operands) s := by
  rw [addSegment, run_bind_of_error (run_numbersOnTop_of_other h)]

/-- Adding an instruction with one point. -/
theorem run_addPoint {s : State} {x y : Binary64} {object? other? : Option Identity}
    {rest : List Cell} (make : Point → Instruction)
    (h : s.operands = ⟨.real y, object?⟩ :: ⟨.real x, other?⟩ :: rest) :
    (addSegment 2 do return make (← point 0)).run s
      = atOnce s ((s.toDevice x y).map fun p => ((), s.extendPath rest (make p))) := by
  have hnumbers : Operands.StartWithNumbers 2 s.operands := by
    rw [h]
    exact ((Operands.startWithNumbers_zero rest).cons x other?).cons y object?
  have hpoint : (point 0).Reads s (s.toDevice x y) :=
    reads_point (by rw [h]; rfl) (by rw [h]; rfl)
  have hrest : s.operands.drop 2 = rest := by rw [h]; rfl
  rw [run_addSegment_of_real hnumbers (hpoint.bind fun p => reads_pure s (make p)), hrest]
  cases s.toDevice x y <;> rfl

/-- Coordinates of one point where there are none. -/
theorem not_startWithNumbers_two {operands : List Cell}
    (h : ∀ y object? x other? rest,
      operands = ⟨.real y, object?⟩ :: ⟨.real x, other?⟩ :: rest → False) :
    ¬ Operands.StartWithNumbers 2 operands := by
  intro hnumbers
  rcases hnumbers.exists_cons with ⟨y, object?, rest, rfl, hrest⟩
  rcases hrest.exists_cons with ⟨x, other?, rest, rfl, _⟩
  exact h y object? x other? rest rfl

theorem performs_moveTo : moveTo.Performs State.moveTo := by
  intro s
  unfold State.moveTo moveTo
  split
  · next y _ x _ rest h =>
      rw [run_addPoint .move h]
      cases s.toDevice x y <;> rfl
  · next h => exact run_addSegment_of_other (not_startWithNumbers_two h)

theorem performs_lineTo : lineTo.Performs State.lineTo := by
  intro s
  unfold State.lineTo lineTo
  split
  · next y _ x _ rest h =>
      rw [run_addPoint .line h]
      cases s.toDevice x y <;> rfl
  · next h => exact run_addSegment_of_other (not_startWithNumbers_two h)

theorem performs_curveTo : curveTo.Performs State.curveTo := by
  intro s
  unfold State.curveTo curveTo
  split
  · next y₃ o₁ x₃ o₂ y₂ o₃ x₂ o₄ y₁ o₅ x₁ o₆ rest h =>
      have hnumbers : Operands.StartWithNumbers 6 s.operands := by
        rw [h]
        exact ((((((Operands.startWithNumbers_zero rest).cons x₁ o₆).cons y₁ o₅).cons x₂ o₄).cons
          y₂ o₃).cons x₃ o₂).cons y₃ o₁
      have hfirst : (point 4).Reads s (s.toDevice x₁ y₁) :=
        reads_point (by rw [h]; rfl) (by rw [h]; rfl)
      have hsecond : (point 2).Reads s (s.toDevice x₂ y₂) :=
        reads_point (by rw [h]; rfl) (by rw [h]; rfl)
      have hthird : (point 0).Reads s (s.toDevice x₃ y₃) :=
        reads_point (by rw [h]; rfl) (by rw [h]; rfl)
      have hrest : s.operands.drop 6 = rest := by rw [h]; rfl
      rw [run_addSegment_of_real hnumbers (hfirst.bind fun p => hsecond.bind fun q =>
        hthird.bind fun r => reads_pure s (Instruction.cubic p q r)), hrest]
      cases s.toDevice x₁ y₁ with
      | error c => rfl
      | ok p =>
          cases s.toDevice x₂ y₂ with
          | error c => rfl
          | ok q => cases s.toDevice x₃ y₃ <;> rfl
  · next h =>
      refine run_addSegment_of_other fun hnumbers => ?_
      rcases hnumbers.exists_cons with ⟨y₃, o₁, rest₁, hrest₁, hnumbers₁⟩
      rcases hnumbers₁.exists_cons with ⟨x₃, o₂, rest₂, rfl, hnumbers₂⟩
      rcases hnumbers₂.exists_cons with ⟨y₂, o₃, rest₃, rfl, hnumbers₃⟩
      rcases hnumbers₃.exists_cons with ⟨x₂, o₄, rest₄, rfl, hnumbers₄⟩
      rcases hnumbers₄.exists_cons with ⟨y₁, o₅, rest₅, rfl, hnumbers₅⟩
      rcases hnumbers₅.exists_cons with ⟨x₁, o₆, rest, rfl, _⟩
      exact h y₃ o₁ x₃ o₂ y₂ o₃ x₂ o₄ y₁ o₅ x₁ o₆ rest hrest₁

theorem performs_dropGray : (dropNumbers 1).Performs State.dropGray := by
  intro s
  unfold State.dropGray dropNumbers
  split
  · next x object? rest h =>
      have hnumbers : Operands.StartWithNumbers 1 s.operands := by
        rw [h]
        exact (Operands.startWithNumbers_zero rest).cons x object?
      rw [run_bind_of_ok (run_numbersOnTop_of_real hnumbers)]
      simp [takeOff, h, atOnce, Except.map]
  · next h =>
      rw [run_bind_of_error (run_numbersOnTop_of_other fun hnumbers => ?_)]
      · rfl
      · rcases hnumbers.exists_cons with ⟨x, object?, rest, hrest, _⟩
        exact h x object? rest hrest

theorem performs_dropColor : (dropNumbers 3).Performs State.dropColor := by
  intro s
  unfold State.dropColor dropNumbers
  split
  · next z o₁ y o₂ x o₃ rest h =>
      have hnumbers : Operands.StartWithNumbers 3 s.operands := by
        rw [h]
        exact (((Operands.startWithNumbers_zero rest).cons x o₃).cons y o₂).cons z o₁
      rw [run_bind_of_ok (run_numbersOnTop_of_real hnumbers)]
      simp [takeOff, h, atOnce, Except.map]
  · next h =>
      rw [run_bind_of_error (run_numbersOnTop_of_other fun hnumbers => ?_)]
      · rfl
      · rcases hnumbers.exists_cons with ⟨z, o₁, rest₁, hrest₁, hnumbers₁⟩
        rcases hnumbers₁.exists_cons with ⟨y, o₂, rest₂, rfl, hnumbers₂⟩
        rcases hnumbers₂.exists_cons with ⟨x, o₃, rest, rfl, _⟩
        exact h z o₁ y o₂ x o₃ rest hrest₁

end Graphics

theorem performs_nothing : (pure () : Action Unit).Performs .ok := fun _ => rfl

end Action

/-- The steps of a primitive operator amount to the change that it makes. Whatever it
    objects to, it objects to before it has changed anything. -/
theorem Primitive.performs_steps (limits : Settings) (p : Primitive) :
    (p.steps limits).Performs (p.perform limits) := by
  cases p with
  | setgray => exact Action.performs_dropGray
  | setrgbcolor => exact Action.performs_dropColor
  | closepath => exact Action.performs_closePath
  | curveto => exact Action.performs_curveTo
  | lineto => exact Action.performs_lineTo
  | moveto => exact Action.performs_moveTo
  | newpath | eofill => exact Action.performs_dropPath
  | fill | stroke => exact Action.performs_paint
  | clip | length | bind => exact Action.performs_nothing
  | add | mul | sub => exact Action.performs_arithmetic _
  | div => exact Action.performs_divide
  | neg => exact Action.performs_negate
  | eq | ne => exact Action.performs_sameness _
  | ge => exact Action.performs_comparison fun x y => y.le x
  | gt => exact Action.performs_comparison fun x y => y.lt x
  | le | lt => exact Action.performs_comparison _
  | not => exact Action.performs_complement
  | clear => exact Action.performs_clear
  | count => exact Action.performs_countOperands limits
  | dup => exact Action.performs_duplicate limits
  | exch => exact Action.performs_exchange
  | pop => exact Action.performs_discard
  | roll => exact Action.performs_roll
  | concat => exact Action.performs_concatenate
  | matrix => exact Action.performs_pushIdentity limits
  | grestore => exact Action.performs_restore
  | gsave => exact Action.performs_save limits
  | setlinecap => exact Action.performs_setLineCap
  | setlinejoin => exact Action.performs_setLineJoin
  | setlinewidth => exact Action.performs_setLineWidth
  | setmiterlimit => exact Action.performs_setMiterLimit
  | define => exact Action.performs_define
  | load => exact Action.performs_load

-- Steps in another order: an operand that is taken off before anything is looked at is
-- gone when the objection comes.
example (s : State) (cell : Cell) :
    (Action.takeOff 1 >>= fun _ => Action.need 1).run { s with operands := [cell] }
      = .error (.plain .stackUnderflow) { s with operands := [] } := rfl

/-- A primitive operator that objects leaves the state as it was, whichever of its steps
    it was that objected. -/
theorem Primitive.state_of_steps_error {limits : Settings} {p : Primitive} {s s' : State}
    {c : Complaint} (h : (p.steps limits).run s = .error c s') : s' = s := by
  rw [p.performs_steps limits s] at h
  exact (eq_error_of_atOnce h).2

end PathScript
