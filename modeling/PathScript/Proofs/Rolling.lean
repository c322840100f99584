import PathScript.Interpreter
import PathScript.Proofs.Operators

/-!
# Rolling the Operand Stack

Rolling turns the values on top of the operand stack round in a circle. Which value
ends up where is a matter of places modulo the number of values, counted from the
lowest: the value that comes to a place is the one that was as many places below it
as the values were moved. Said in this way, moving them twice is moving them by the
sum, however large the numbers are and whatever their signs.

The operator works on the stack from the top, and cuts what it turns round in two.
Seen from the bottom the two parts change places as well, and the cut lies where
the first value from below wraps round.

Everything that rolling can object to is looked at before anything is moved.

## Main definitions

* `turn`: A group of values turned round by a number of places.
* `Cell.IsInteger`: An operand that is an integer.
* `Machine.rolling`: Rolling by two operands that are pushed first.

## Theorems

* `getElem?_turn`: Where each value of a group comes from.
* `turn_turn`, `turn_zero`, `turn_emod`: Integers act on groups of values.
* `reverse_rotate`: What the operator does to a group is turning it.
* `Operands.roll_of_group`: Rolling a group of values.
* `roll_turns`: When rolling completes, what it leaves, and how it composes.
-/

namespace PathScript

section Turning

variable {α : Type}

/-- The place that a value comes from is one of the group. -/
theorem place_lt {place count : Nat} (j : Int) (h : place < count) :
    (((place : Int) - j) % count).toNat < count := by
  have hnonneg := Int.emod_nonneg ((place : Int) - j) (b := count) (by omega)
  have hlt := Int.emod_lt_of_pos ((place : Int) - j) (b := count) (by omega)
  omega

/-- A group of values turned round by `j` places: at each place is the value that was
    `j` places before it, and before the first place is the last one. -/
def turn (j : Int) (group : List α) : List α :=
  List.ofFn fun place : Fin group.length =>
    group.get ⟨(((place : Nat) - j) % group.length).toNat, place_lt j place.isLt⟩

variable {group : List α}

@[simp]
theorem length_turn (j : Int) (group : List α) : (turn j group).length = group.length :=
  List.length_ofFn

/-- Where each value of a group comes from. -/
theorem getElem?_turn (j : Int) {place : Nat} (h : place < group.length) :
    (turn j group)[place]? = group[((place - j) % group.length).toNat]? := by
  rw [turn, List.getElem?_ofFn, dif_pos h, List.getElem?_eq_getElem (place_lt j h)]
  rfl

/-- A group is the same as another of its length that has the same values in the same
    places. -/
theorem eq_of_places {other : List α} (hlength : other.length = group.length)
    (h : ∀ place < group.length, other[place]? = group[place]?) : other = group := by
  refine List.ext_getElem? fun place => ?_
  by_cases hplace : place < group.length
  · exact h place hplace
  · rw [List.getElem?_eq_none (by omega), List.getElem?_eq_none (by omega)]

/-- Turning twice is turning by the sum. -/
theorem turn_turn (j k : Int) (group : List α) : turn k (turn j group) = turn (j + k) group := by
  refine eq_of_places (by simp only [length_turn]) fun place hplace => ?_
  rw [length_turn] at hplace
  have hbetween := place_lt k hplace
  rw [getElem?_turn k (by rwa [length_turn]), length_turn, getElem?_turn j hbetween,
    getElem?_turn (j + k) hplace]
  -- The place in between is known only modulo the number of values, which is enough.
  have hnonneg := Int.emod_nonneg ((place : Int) - k) (b := group.length) (by omega)
  rw [Int.toNat_of_nonneg hnonneg, Int.emod_sub_emod,
    show (place : Int) - k - j = place - (j + k) by omega]

/-- Turning by nothing moves nothing. -/
theorem turn_zero (group : List α) : turn 0 group = group := by
  refine eq_of_places (length_turn 0 group) fun place hplace => ?_
  rw [getElem?_turn 0 hplace, Int.sub_zero, Int.emod_eq_of_lt (by omega) (by omega),
    Int.toNat_natCast]

/-- Only the number of places modulo the number of values matters. -/
theorem turn_emod (j : Int) (group : List α) : turn (j % group.length) group = turn j group := by
  refine eq_of_places (by simp only [length_turn]) fun place hplace => ?_
  rw [length_turn] at hplace
  rw [getElem?_turn _ hplace, getElem?_turn _ hplace, Int.sub_emod, Int.emod_emod, ← Int.sub_emod]

/-- What the operator does to a group, from the top, is turning it, from the bottom. -/
theorem reverse_rotate (j : Int) (group : List α) :
    (Operands.rotate (j % group.length).toNat group.reverse).reverse = turn j group := by
  rw [← turn_emod]
  refine eq_of_places ?_ fun place hplace => ?_
  · simp only [Operands.rotate, List.length_reverse, List.length_append, List.length_drop,
      List.length_take, length_turn]
    omega
  · rw [length_turn] at hplace
    have hlt := Int.emod_lt_of_pos j (b := group.length) (by omega)
    obtain ⟨count, hcount⟩ :=
      Int.eq_ofNat_of_zero_le (Int.emod_nonneg j (b := group.length) (by omega))
    rw [getElem?_turn _ hplace, hcount, Int.toNat_natCast, Operands.rotate, List.reverse_append,
      List.take_reverse, List.drop_reverse, List.reverse_reverse, List.reverse_reverse,
      List.getElem?_append, List.length_drop]
    by_cases hwraps : place < count
    · have horigin : ((place : Int) - count) % group.length
          = (group.length - count + place : Nat) := by
        rw [← Int.add_emod_right, Int.emod_eq_of_lt (by omega) (by omega)]
        omega
      rw [if_pos (by omega), horigin, Int.toNat_natCast, List.getElem?_drop]
    · have horigin : ((place : Int) - count) % group.length = (place - count : Nat) := by
        rw [Int.emod_eq_of_lt (by omega) (by omega)]
        omega
      rw [if_neg (by omega), horigin, Int.toNat_natCast, List.getElem?_take_of_lt (by omega)]
      congr 1
      omega

end Turning

/-- An operand that is an integer. -/
def Cell.IsInteger (cell : Cell) (n : Int) : Prop := ∃ x, cell.value = .real x ∧ x.toInt? = some n

/-- A number with its sign turned round is the opposite integer. -/
theorem Binary64.toInt?_neg {x : Binary64} {n : Int} (h : x.toInt? = some n) :
    x.neg.toInt? = some (-n) := by
  cases x with
  | nan => cases h
  | infinite s => cases h
  | finite s position =>
      -- Whether it is an integer does not depend on the sign.
      have hinteger : (finite (!s) position).isInteger = (finite s position).isInteger := rfl
      rw [toInt?, truncate?] at h
      rw [neg, toInt?, truncate?, hinteger]
      split at h
      · next hwhole =>
          rw [if_pos hwhole, ← Option.some.inj h]
          cases s with
          | false => rfl
          | true => exact congrArg some (Int.neg_neg _).symm
      · cases h

namespace Operands

variable {n j : Cell} {below : List Cell}

/-- Rolling takes two operands. -/
theorem roll_of_short {operands : List Cell} (h : operands.length < 2) :
    roll operands = .error (.plain .stackUnderflow) := by
  have hcomplaint : Complaint.operands 2 operands = .plain .stackUnderflow := if_pos h
  unfold roll
  split
  · simp only [List.length_cons] at h
    omega
  · rw [hcomplaint]

/-- Both have to be integers. -/
theorem roll_of_not_integer (h : ¬((∃ a, n.IsInteger a) ∧ ∃ b, j.IsInteger b)) :
    roll (j :: n :: below) = .error (.plain .typeMismatch) := by
  have hcomplaint : Complaint.operands 2 (j :: n :: below) = .plain .typeMismatch :=
    if_neg (by simp only [List.length_cons]; omega)
  unfold roll
  split
  · next y object x other rest hoperands =>
      rcases List.cons.inj hoperands with ⟨rfl, hrest⟩
      rcases List.cons.inj hrest with ⟨rfl, _⟩
      split
      · next a b ha hb => exact absurd ⟨⟨a, x, rfl, ha⟩, b, y, rfl, hb⟩ h
      · rfl
  · rw [hcomplaint]

/-- Rolling by two integers. -/
theorem roll_of_integers {a b : Int} (hn : n.IsInteger a) (hj : j.IsInteger b) :
    roll (j :: n :: below)
      = if a < 0 then .error (.plain .rangeCheck)
        else if (below.length : Int) < a then .error (.plain .stackUnderflow)
        else .ok (rotate (b % a).toNat (below.take a.toNat) ++ below.drop a.toNat) := by
  rcases hn with ⟨x, hvalue, hx⟩
  rcases hj with ⟨y, hvalue', hy⟩
  rcases n with ⟨value, object⟩
  rcases j with ⟨value', object'⟩
  cases hvalue
  cases hvalue'
  simp only [roll, hx, hy]

/-- Rolling a group of values. -/
theorem roll_of_group {rest group : List Cell} {b : Int} (hn : n.IsInteger group.length)
    (hj : j.IsInteger b) (hbelow : below = (rest ++ group).reverse) :
    roll (j :: n :: below) = .ok (rest ++ turn b group).reverse := by
  have hlength : ¬ (below.length : Int) < group.length := by
    rw [hbelow, List.length_reverse, List.length_append]
    omega
  have htop : below.take group.length = group.reverse := by
    rw [hbelow, List.reverse_append, List.take_left' (List.length_reverse)]
  have hbottom : below.drop group.length = rest.reverse := by
    rw [hbelow, List.reverse_append, List.drop_left' (List.length_reverse)]
  have hturned := congrArg List.reverse (reverse_rotate b group)
  rw [List.reverse_reverse] at hturned
  rw [roll_of_integers hn hj, if_neg (by omega), if_neg hlength, Int.toNat_natCast, htop, hbottom,
    hturned, List.reverse_append]

end Operands

namespace Machine

variable {m : Machine}

/-- Rolling completes where the change of the operands does, and does nothing else. -/
theorem perform_roll_of_ok {operands : List Cell} (h : Operands.roll m.operands = .ok operands) :
    m.perform .roll = .done { m with operands := operands } := by
  simp only [perform_eq, Primitive.perform, State.onOperands, h]
  rfl

/-- It objects where the change of the operands does. -/
theorem perform_roll_of_error {c : Complaint} (h : Operands.roll m.operands = .error c) :
    m.perform .roll = .failed m (m.fault "roll" c) := by
  simp only [perform_eq, Primitive.perform, State.onOperands, h]
  rfl

/-- Rolling by two operands that are pushed first. -/
def rolling (m : Machine) (n j : Cell) : Run :=
  ({ m with operands := j :: n :: m.operands } : Machine).perform .roll

/-- Rolling a group of values by two operands that are pushed first. -/
theorem rolling_of_group {n j : Cell} {rest group : List Cell} {b : Int}
    (hn : n.IsInteger group.length) (hj : j.IsInteger b)
    (hoperands : m.operands = (rest ++ group).reverse) :
    m.rolling n j = .done { m with operands := (rest ++ turn b group).reverse } :=
  perform_roll_of_ok (Operands.roll_of_group hn hj hoperands)

end Machine

/-- The top of a stack that is high enough is a group of values. -/
theorem exists_group {operands : List Cell} {count : Nat} (h : count ≤ operands.length) :
    ∃ rest group : List Cell, operands = (rest ++ group).reverse ∧ group.length = count := by
  refine ⟨(operands.drop count).reverse, (operands.take count).reverse, ?_, ?_⟩
  · rw [← List.reverse_append, List.take_append_drop, List.reverse_reverse]
  · rw [List.length_reverse, List.length_take, Nat.min_eq_left h]

/-- Rolling turns the values on top round, and integers act on stacks by it. If two
    integers lie on top, the lower of them the number of values in a group below, then
    rolling takes both off and leaves in each place of the group the value that was as
    many places before it as the upper integer says, modulo the number of values, and all
    below the group as it was. So rolling a group twice is rolling it by the sum, if there
    is a number for the sum, and rolling it back undoes it. Rolling fails, and leaves
    everything as it was, in just these cases: there are fewer than two operands; or one of
    the two on top is not an integer; or the lower one is negative; or there are fewer
    values below them than it says. -/
theorem roll_turns (m : Machine) :
    (m.operands.length < 2 →
      m.perform .roll = .failed m (m.fault "roll" (.plain .stackUnderflow))) ∧
    (∀ n j below, m.operands = j :: n :: below →
      (¬((∃ a, n.IsInteger a) ∧ ∃ b, j.IsInteger b) →
        m.perform .roll = .failed m (m.fault "roll" (.plain .typeMismatch))) ∧
      ∀ a b : Int, n.IsInteger a → j.IsInteger b →
        (a < 0 → m.perform .roll = .failed m (m.fault "roll" (.plain .rangeCheck))) ∧
        (below.length < a →
          m.perform .roll = .failed m (m.fault "roll" (.plain .stackUnderflow))) ∧
        (∀ rest group : List Cell, below = (rest ++ group).reverse → group.length = a →
          m.perform .roll = .done { m with operands := (rest ++ turn b group).reverse } ∧
          (turn b group).length = group.length ∧
          ∀ place < group.length,
            (turn b group)[place]? = group[((place - b) % group.length).toNat]?)) ∧
    (∀ n (a : Int), n.IsInteger a → 0 ≤ a → a ≤ m.operands.length →
      (∀ j k sum, ∀ b c : Int, j.IsInteger b → k.IsInteger c → sum.IsInteger (b + c) →
        (m.rolling n j).fault? = none ∧
        (m.rolling n j).andThen (·.rolling n k) = m.rolling n sum) ∧
      ∀ x object, ∀ b : Int, x.toInt? = some b →
        (m.rolling n ⟨.real x, object⟩).andThen (·.rolling n ⟨.real x.neg, object⟩) = .done m) := by
  refine ⟨fun hshort => ?_, fun n j below hoperands => ⟨fun hnot => ?_, fun a b hn hj =>
    ⟨fun hneg => ?_, fun hlow => ?_, fun rest group hbelow hgroup =>
      ⟨?_, length_turn b group, fun place => getElem?_turn b⟩⟩⟩, fun n a hn hnonneg hheight => ?_⟩
  · exact Machine.perform_roll_of_error (Operands.roll_of_short hshort)
  · refine Machine.perform_roll_of_error ?_
    rw [hoperands, Operands.roll_of_not_integer hnot]
  · refine Machine.perform_roll_of_error ?_
    rw [hoperands, Operands.roll_of_integers hn hj, if_pos hneg]
  · refine Machine.perform_roll_of_error ?_
    rw [hoperands, Operands.roll_of_integers hn hj, if_neg (by omega), if_pos hlow]
  · rw [← hgroup] at hn
    refine Machine.perform_roll_of_ok ?_
    rw [hoperands, Operands.roll_of_group hn hj hbelow]
  · -- Each time the same group is on top, turned round by what came before.
    rcases exists_group (show a.toNat ≤ m.operands.length by omega) with
      ⟨rest, group, hoperands, hgroup⟩
    rw [show a = group.length by omega] at hn
    have htwice : ∀ {j k : Cell} {b c : Int}, j.IsInteger b → k.IsInteger c →
        (m.rolling n j).andThen (·.rolling n k)
          = .done { m with operands := (rest ++ turn (b + c) group).reverse } := by
      intro j k b c hj hk
      have hturned : n.IsInteger (turn b group).length := by rwa [length_turn]
      rw [Machine.rolling_of_group hn hj hoperands, ← turn_turn]
      exact Machine.rolling_of_group hturned hk rfl
    refine ⟨fun j k sum b c hj hk hsum => ⟨?_, ?_⟩, fun x object b hb => ?_⟩
    · rw [Machine.rolling_of_group hn hj hoperands]
      rfl
    · rw [htwice hj hk, Machine.rolling_of_group hn hsum hoperands]
    · rw [htwice ⟨x, rfl, hb⟩ ⟨x.neg, rfl, Binary64.toInt?_neg hb⟩, Int.add_right_neg, turn_zero,
        ← hoperands]

/-- Three values are rolled by a number of places far below anything that could be counted,
    which comes to one place up, and back again. -/
theorem roll_turns_far :
    let far := (Decimal.finite true 1 308).toBinary64
    let three : Cell := .of (.real (.ofInt 3))
    let a : Cell := .of (.name "a")
    let b : Cell := .of (.name "b")
    let c : Cell := .of (.name "c")
    let base : Cell := .of (.bool true)
    let m := { Machine.start .standard (.text "") with operands := [c, b, a, base] }
    m.rolling three (.of (.real far)) = .done { m with operands := [b, a, c, base] } ∧
      (m.rolling three (.of (.real far))).andThen (·.rolling three (.of (.real far.neg)))
        = .done m := by
  intro far three a b c base m
  have hthree : three.IsInteger 3 := ⟨.ofInt 3, rfl, by decide +kernel⟩
  have hplaces : far.toInt?.map (· % 3) = some 1 := by decide +kernel
  rcases Option.map_eq_some_iff.mp hplaces with ⟨places, hfar, hone⟩
  have hturned : turn places [a, b, c] = [c, a, b] := by
    rw [← turn_emod, show places % ([a, b, c].length : Int) = 1 from hone]
    rfl
  have hpushed := (roll_turns { m with operands := .of (.real far) :: three :: m.operands }).2.1
    three (.of (.real far)) m.operands rfl
  have hrolled := ((hpushed.2 3 places hthree ⟨far, rfl, hfar⟩).2.2 [base] [a, b, c] rfl rfl).1
  rw [hturned] at hrolled
  refine ⟨hrolled, ?_⟩
  exact ((roll_turns m).2.2 three 3 hthree (by decide) (by decide)).2 far none places hfar

end PathScript
