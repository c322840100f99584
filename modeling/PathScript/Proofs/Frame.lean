import PathScript.Proofs.Operators
import PathScript.Proofs.Simulation

/-!
# What Lies Below

A program that runs to its end on an empty operand stack never needed more
operands than it had pushed itself. So it runs the same on top of whatever else
is on the stack, and does not disturb it.

Two operators are told apart from the others by what lies below: one that
pushes the height of the stack and one that empties it. Every other operator
that completes has found its operands above, and what it does not find above it
objects to. Open brackets are remembered by the height of the stack, so they
move up with it; a closing bracket gathers the operands above the last of
them, as many as it would without anything below.

That the first run completes is needed. An operator that lacks operands may
find them below, and the two runs then part.

## Main definitions

* `State.atop`, `Machine.atop`: A state and a machine on top of operands and
  open brackets.
* `Machine.IsAtop`: A machine and the same on top of something.
* `Operands.Local`: Changes that leave alone what lies below.
* `Run.LooksBelow`: A run that has failed or has invoked one of the two operators.

## Theorems

* `Primitive.perform_atop`: Operators on top of something.
* `Machine.closeArray_atop`: Closing brackets on top of something.
* `atop_simulation`: Machines on top of something stay in step.
* `runFrom_atop`: A run that completes from an empty stack is the same on top of
  any other.
-/

namespace PathScript

namespace Operands

/-- A change that leaves alone what lies below the operands it needs. -/
def Local (change : List Cell → Except Complaint (List Cell)) : Prop :=
  ∀ {operands result : List Cell} (below : List Cell), change operands = .ok result →
    change (operands ++ below) = .ok (result ++ below)

theorem local_arithmetic (operation : Binary64 → Binary64 → Binary64) :
    Local (arithmetic operation) := by
  intro operands result below h
  rcases arithmetic_eq_ok_iff.mp h with ⟨x, y, object, other, rest, rfl, hfinite, rfl⟩
  exact arithmetic_eq_ok_iff.mpr ⟨x, y, object, other, rest ++ below, rfl, hfinite, rfl⟩

/-- There are two operands already, so the divisor is the same with more below. -/
theorem local_divide : Local divide := by
  intro operands result below h
  rcases divide_eq_ok_iff.mp h with ⟨hzero, hquotient⟩
  refine divide_eq_ok_iff.mpr ⟨?_, local_arithmetic _ below hquotient⟩
  rcases arithmetic_eq_ok_iff.mp hquotient with ⟨x, y, object, other, rest, rfl, _, _⟩
  -- The operand on top is the same one.
  intro y' object' cell' rest' heq
  simp only [List.cons_append, List.cons.injEq, Cell.mk.injEq, Value.real.injEq] at heq
  rw [← heq.1.1]
  exact hzero y object _ rest rfl

theorem local_negate : Local negate := by
  intro operands result below h
  rcases negate_eq_ok_iff.mp h with ⟨x, object, rest, rfl, rfl⟩
  rfl

theorem local_sameness (answer : Bool → Bool) : Local (sameness answer) := by
  intro operands result below h
  rcases sameness_eq_ok_iff.mp h with ⟨x, y, rest, rfl, rfl⟩
  rfl

theorem local_comparison (relation : Binary64 → Binary64 → Bool) :
    Local (comparison relation) := by
  intro operands result below h
  rcases comparison_eq_ok_iff.mp h with ⟨x, y, object, other, rest, rfl, rfl⟩
  rfl

theorem local_complement : Local complement := by
  intro operands result below h
  rcases complement_eq_ok_iff.mp h with ⟨b, object, rest, rfl, rfl⟩
  rfl

theorem local_exchange : Local exchange := by
  intro operands result below h
  rcases exchange_eq_ok_iff.mp h with ⟨x, y, rest, rfl, rfl⟩
  rfl

theorem local_drop : Local drop := by
  intro operands result below h
  rcases drop_eq_ok_iff.mp h with ⟨cell, rfl⟩
  rfl

/-- The values to be turned round are all above. -/
theorem local_roll : Local roll := by
  intro operands result below h
  rcases roll_eq_ok_iff.mp h with
    ⟨x, y, object, other, rest, n, j, rfl, hn, hj, hneg, hlength, rfl⟩
  refine roll_eq_ok_iff.mpr
    ⟨x, y, object, other, rest ++ below, n, j, rfl, hn, hj, hneg, ?_, ?_⟩
  · rw [List.length_append]
    omega
  · -- Taking and dropping stop before what lies below.
    have habove : n.toNat ≤ rest.length := by omega
    rw [List.take_append_of_le_length habove, List.drop_append_of_le_length habove,
      List.append_assoc]

end Operands

namespace State

/-- The state on top of operands and open brackets. Its own brackets were opened as
    much higher up as there are operands below. -/
def atop (s : State) (below : List Cell) (brackets : List Nat) : State :=
  { s with
    operands := s.operands ++ below
    marks := s.marks.map (· + below.length) ++ brackets }

variable {s s' : State}

/-- Operands on top are on top of something as well. -/
theorem operands_atop_of_eq (taken : List Cell) {rest : List Cell}
    (h : s.operands = taken ++ rest) (below : List Cell) (brackets : List Nat) :
    (s.atop below brackets).operands = taken ++ (rest ++ below) := by
  change s.operands ++ below = taken ++ (rest ++ below)
  rw [h, List.append_assoc]

theorem onOperands_atop {change : List Cell → Except Complaint (List Cell)}
    (hlocal : Operands.Local change) (h : s.onOperands change = .ok s') (below : List Cell)
    (brackets : List Nat) :
    (s.atop below brackets).onOperands change = .ok (s'.atop below brackets) := by
  rcases onOperands_eq_ok_iff.mp h with ⟨operands, hchange, rfl⟩
  exact onOperands_eq_ok_iff.mpr ⟨operands ++ below, hlocal below hchange, rfl⟩

theorem closePath_atop (s : State) (below : List Cell) (brackets : List Nat) :
    (s.atop below brackets).closePath = s.closePath.atop below brackets := by
  unfold closePath atop
  dsimp only
  cases s.graphics.path with
  | nil => rfl
  | cons first rest => rfl

/-- Without a limit there is room on top of anything. -/
theorem hasRoom_of_unlimited {limits : Settings} (hlimit : limits.maxOperands = 0) (s : State) :
    s.hasRoom limits = true := by
  simp only [hasRoom, underLimit, hlimit, beq_self_eq_true, Bool.true_or]

end State

/-- An operator that completes without looking at how much there is on the stack
    does the same on top of something. -/
theorem Primitive.perform_atop {limits : Settings} (hlimit : limits.maxOperands = 0)
    {p : Primitive} (hcount : p ≠ .count) (hclear : p ≠ .clear) {s s' : State}
    (h : p.perform limits s = .ok s') (below : List Cell) (brackets : List Nat) :
    p.perform limits (s.atop below brackets) = .ok (s'.atop below brackets) := by
  have hroom := (s.atop below brackets).hasRoom_of_unlimited hlimit
  cases p with
  | setgray =>
      rcases State.dropGray_eq_ok_iff.mp h with ⟨x, object, rest, hoperands, rfl⟩
      exact State.dropGray_eq_ok_iff.mpr ⟨x, object, rest ++ below,
        State.operands_atop_of_eq [_] hoperands below brackets, rfl⟩
  | setrgbcolor =>
      rcases State.dropColor_eq_ok_iff.mp h with ⟨x, y, z, a, b, c, rest, hoperands, rfl⟩
      exact State.dropColor_eq_ok_iff.mpr ⟨x, y, z, a, b, c, rest ++ below,
        State.operands_atop_of_eq [_, _, _] hoperands below brackets, rfl⟩
  | closepath =>
      rw [← Except.ok.inj h]
      exact congrArg Except.ok (s.closePath_atop below brackets)
  | curveto =>
      rcases State.curveTo_eq_ok_iff.mp h with ⟨x₁, y₁, x₂, y₂, x₃, y₃, a₁, b₁, a₂, b₂, a₃, b₃,
        rest, p, q, r, hoperands, hp, hq, hr, rfl⟩
      exact State.curveTo_eq_ok_iff.mpr ⟨x₁, y₁, x₂, y₂, x₃, y₃, a₁, b₁, a₂, b₂, a₃, b₃,
        rest ++ below, p, q, r,
        State.operands_atop_of_eq [_, _, _, _, _, _] hoperands below brackets, hp, hq, hr, rfl⟩
  | lineto =>
      rcases State.lineTo_eq_ok_iff.mp h with ⟨x, y, object, other, rest, p, hoperands, hp, rfl⟩
      exact State.lineTo_eq_ok_iff.mpr ⟨x, y, object, other, rest ++ below, p,
        State.operands_atop_of_eq [_, _] hoperands below brackets, hp, rfl⟩
  | moveto =>
      rcases State.moveTo_eq_ok_iff.mp h with ⟨x, y, object, other, rest, p, hoperands, hp, rfl⟩
      exact State.moveTo_eq_ok_iff.mpr ⟨x, y, object, other, rest ++ below, p,
        State.operands_atop_of_eq [_, _] hoperands below brackets, hp, rfl⟩
  | add => exact State.onOperands_atop (Operands.local_arithmetic _) h below brackets
  | div => exact State.onOperands_atop Operands.local_divide h below brackets
  | mul => exact State.onOperands_atop (Operands.local_arithmetic _) h below brackets
  | neg => exact State.onOperands_atop Operands.local_negate h below brackets
  | sub => exact State.onOperands_atop (Operands.local_arithmetic _) h below brackets
  | eq => exact State.onOperands_atop (Operands.local_sameness _) h below brackets
  | ge => exact State.onOperands_atop (Operands.local_comparison _) h below brackets
  | gt => exact State.onOperands_atop (Operands.local_comparison _) h below brackets
  | le => exact State.onOperands_atop (Operands.local_comparison _) h below brackets
  | lt => exact State.onOperands_atop (Operands.local_comparison _) h below brackets
  | ne => exact State.onOperands_atop (Operands.local_sameness _) h below brackets
  | not => exact State.onOperands_atop Operands.local_complement h below brackets
  | clear => exact absurd rfl hclear
  | count => exact absurd rfl hcount
  | dup =>
      rcases State.duplicate_eq_ok_iff.mp h with ⟨cell, rest, hoperands, _, rfl⟩
      exact State.duplicate_eq_ok_iff.mpr ⟨cell, rest ++ below,
        State.operands_atop_of_eq [_] hoperands below brackets, hroom, rfl⟩
  | exch => exact State.onOperands_atop Operands.local_exchange h below brackets
  | pop => exact State.onOperands_atop Operands.local_drop h below brackets
  | roll => exact State.onOperands_atop Operands.local_roll h below brackets
  | concat =>
      rcases State.concatenate_eq_ok_iff.mp h with
        ⟨identity, items, object, rest, m, ctm, hoperands, hlength, hm, hctm, rfl⟩
      exact State.concatenate_eq_ok_iff.mpr ⟨identity, items, object, rest ++ below, m, ctm,
        State.operands_atop_of_eq [_] hoperands below brackets, hlength, hm, hctm, rfl⟩
  | matrix =>
      rcases State.pushIdentity_eq_ok_iff.mp h with ⟨_, rfl⟩
      exact State.pushIdentity_eq_ok_iff.mpr ⟨hroom, rfl⟩
  | grestore =>
      rcases State.restore_eq_ok_iff.mp h with ⟨g, saved, hsaved, rfl⟩
      exact State.restore_eq_ok_iff.mpr ⟨g, saved, hsaved, rfl⟩
  | gsave =>
      rcases State.save_eq_ok_iff.mp h with ⟨hsaved, rfl⟩
      exact State.save_eq_ok_iff.mpr ⟨hsaved, rfl⟩
  | setlinecap =>
      rcases State.setLineCap_eq_ok_iff.mp h with ⟨x, object, rest, cap, hoperands, hcap, rfl⟩
      exact State.setLineCap_eq_ok_iff.mpr ⟨x, object, rest ++ below, cap,
        State.operands_atop_of_eq [_] hoperands below brackets, hcap, rfl⟩
  | setlinejoin =>
      rcases State.setLineJoin_eq_ok_iff.mp h with ⟨x, object, rest, join, hoperands, hjoin, rfl⟩
      exact State.setLineJoin_eq_ok_iff.mpr ⟨x, object, rest ++ below, join,
        State.operands_atop_of_eq [_] hoperands below brackets, hjoin, rfl⟩
  | setlinewidth =>
      rcases State.setLineWidth_eq_ok_iff.mp h with ⟨x, object, rest, hoperands, rfl⟩
      exact State.setLineWidth_eq_ok_iff.mpr ⟨x, object, rest ++ below,
        State.operands_atop_of_eq [_] hoperands below brackets, rfl⟩
  | setmiterlimit =>
      rcases State.setMiterLimit_eq_ok_iff.mp h with ⟨x, object, rest, hoperands, hlow, rfl⟩
      exact State.setMiterLimit_eq_ok_iff.mpr ⟨x, object, rest ++ below,
        State.operands_atop_of_eq [_] hoperands below brackets, hlow, rfl⟩
  | define =>
      rcases State.define_eq_ok_iff.mp h with ⟨cell, key, object, rest, hoperands, rfl⟩
      refine State.define_eq_ok_iff.mpr ⟨cell, key, object, rest ++ below,
        State.operands_atop_of_eq [_, _] hoperands below brackets, ?_⟩
      by_cases hexecutable : cell.value.isExecutable
      · rw [if_pos hexecutable, if_pos hexecutable]
        rfl
      · rw [if_neg hexecutable, if_neg hexecutable]
        rfl
  | load =>
      rcases State.load_eq_ok_iff.mp h with ⟨key, object, rest, cell, hoperands, hlookup, rfl⟩
      exact State.load_eq_ok_iff.mpr ⟨key, object, rest ++ below, cell,
        State.operands_atop_of_eq [_] hoperands below brackets, hlookup, rfl⟩
  | newpath | clip | eofill | fill | stroke | length | bind =>
      rw [← Except.ok.inj h]
      rfl

/-- A run that has failed, or has invoked one of the operators that look at the
    whole of the stack. -/
def Run.LooksBelow (r : Run) : Prop :=
  r.fault? ≠ none ∨ .invoked (.primitive .count) ∈ r.events ∨
    .invoked (.primitive .clear) ∈ r.events

theorem Run.looksBelow_failed (m : Machine) (fault : Fault) : (failed m fault).LooksBelow :=
  Or.inl (Option.some_ne_none fault)

namespace Machine

/-- The machine on top of operands and open brackets. -/
def atop (m : Machine) (below : List Cell) (brackets : List Nat) : Machine :=
  { m with toState := m.toState.atop below brackets }

/-- A machine without a limit on its operands, and the same on top of something. -/
def IsAtop (below : List Cell) (brackets : List Nat) (m m' : Machine) : Prop :=
  m.settings.maxOperands = 0 ∧ m' = m.atop below brackets

variable {m : Machine} (hlimit : m.settings.maxOperands = 0) (below : List Cell)
  (brackets : List Nat)
include hlimit

/-- The settings are the same on top of something, so there is room for anything. -/
theorem hasRoom_atop (s : State) : s.hasRoom (m.atop below brackets).settings = true :=
  s.hasRoom_of_unlimited hlimit

theorem agree_push_atop (command : String) (value : Value) :
    Run.Agree (IsAtop below brackets) (fun r _ => r.LooksBelow)
      (.ofChange m command (m.push? m.settings value))
      (.ofChange (m.atop below brackets) command
        ((m.atop below brackets).push? (m.atop below brackets).settings value)) := by
  rw [State.push?_eq_ok_iff.mpr ⟨m.hasRoom_of_unlimited hlimit, rfl⟩,
    State.push?_eq_ok_iff.mpr ⟨hasRoom_atop hlimit below brackets _, rfl⟩]
  exact Or.inr ⟨rfl, hlimit, rfl⟩

theorem agree_pushCaptured_atop (lexeme : String) (body : List String) :
    Run.Agree (IsAtop below brackets) (fun r _ => r.LooksBelow) (m.pushCaptured lexeme body)
      ((m.atop below brackets).pushCaptured lexeme body) := by
  unfold pushCaptured
  rw [State.pushProcedure?_eq_ok_iff.mpr ⟨m.hasRoom_of_unlimited hlimit, rfl⟩,
    State.pushProcedure?_eq_ok_iff.mpr ⟨hasRoom_atop hlimit below brackets _, rfl⟩]
  exact Or.inr ⟨rfl, hlimit, rfl⟩

/-- The height remembered at an open bracket has moved up by as much as the stack
    has, so a closing bracket finds as many operands above it. -/
theorem closeArray_atop {height : Nat} {marks : List Nat} (hmarks : m.marks = height :: marks)
    (hheight : height ≤ m.operands.length) :
    (m.atop below brackets).closeArray
      = .done (atop { m with toState := (m.cleared height marks).pushArray (m.gathered height) }
          below brackets) := by
  have hoperands : (m.atop below brackets).operands = m.operands ++ below := rfl
  -- As many operands lie above the bracket as without anything below.
  have hmarks' : (m.atop below brackets).marks
      = (height + below.length) :: (marks.map (· + below.length) ++ brackets) := by
    change m.marks.map (· + below.length) ++ brackets = _
    rw [hmarks]
    rfl
  have hlength : (m.atop below brackets).operands.length
      = m.operands.length + below.length := List.length_append
  have hcount : (m.atop below brackets).operands.length - (height + below.length)
      = m.operands.length - height := by omega
  have hfew : m.operands.length - height ≤ m.operands.length := Nat.sub_le _ _
  -- The operands that are gathered are the same, and so are those that are left above.
  have hgathered : (m.atop below brackets).gathered (height + below.length)
      = m.gathered height := by
    unfold gathered
    rw [hcount, hoperands, List.take_append_of_le_length hfew]
  have hcleared : ((m.atop below brackets).cleared (height + below.length)
      (marks.map (· + below.length) ++ brackets)).toState
      = (m.cleared height marks).toState.atop below brackets := by
    unfold cleared
    rw [hcount, hoperands, List.drop_append_of_le_length hfew]
    rfl
  rw [closeArray_of_le hmarks' (by omega), if_pos (hasRoom_atop hlimit below brackets _),
    hgathered, hcleared]
  rfl

theorem agree_closeArray_atop :
    Run.Agree (IsAtop below brackets) (fun r _ => r.LooksBelow) m.closeArray
      (m.atop below brackets).closeArray := by
  rcases hmarks : m.marks with _ | ⟨height, marks⟩
  · rw [closeArray_of_nil hmarks]
    exact Or.inl (Run.looksBelow_failed _ _)
  · by_cases hheight : height ≤ m.operands.length
    · rw [closeArray_of_le hmarks hheight, if_pos (State.hasRoom_of_unlimited hlimit _),
        closeArray_atop hlimit below brackets hmarks hheight]
      exact Or.inr ⟨rfl, hlimit, rfl⟩
    · rw [closeArray_of_lt hmarks (Nat.lt_of_not_le hheight)]
      exact Or.inl (Run.looksBelow_failed _ _)

theorem agree_perform_atop (p : Primitive) :
    Run.Agree (IsAtop below brackets) (fun r _ => r.LooksBelow)
      ((m.perform p).after (.invoked (.primitive p)))
      (((m.atop below brackets).perform p).after (.invoked (.primitive p))) := by
  by_cases hcount : p = .count
  · rw [hcount]
    exact Or.inl (Or.inr (Or.inl List.mem_cons_self))
  · by_cases hclear : p = .clear
    · rw [hclear]
      exact Or.inl (Or.inr (Or.inr List.mem_cons_self))
    · rcases hperform : p.perform m.settings m.toState with c | s
      · refine Or.inl (Or.inl ?_)
        rw [perform_eq, hperform]
        exact Option.some_ne_none _
      · have hatop : p.perform (m.atop below brackets).settings (m.atop below brackets).toState
            = .ok (s.atop below brackets) :=
          Primitive.perform_atop hlimit hcount hclear hperform below brackets
        rw [perform_eq, perform_eq, hperform, hatop]
        exact Or.inr ⟨rfl, hlimit, rfl⟩

theorem agree_findFont_atop :
    Run.Agree (IsAtop below brackets) (fun r _ => r.LooksBelow) m.findFont
      (m.atop below brackets).findFont := by
  rcases hoperands : m.operands with _ | ⟨cell, rest⟩
  · rw [findFont_of_nil hoperands]
    exact Or.inl (Run.looksBelow_failed _ _)
  · rw [findFont_of_cons hoperands, findFont_of_cons (m := m.atop below brackets)
      (State.operands_atop_of_eq [cell] hoperands below brackets)]
    exact Simulation.agree_skipFonts rfl rfl (fun _ => ⟨hlimit, rfl⟩) ⟨hlimit, rfl⟩

theorem agree_beginConditional_atop :
    Process.Agree (IsAtop below brackets) (fun r _ => r.LooksBelow) m.beginConditional
      (m.atop below brackets).beginConditional := by
  unfold beginConditional
  rcases hcondition : m.takeCondition with c | ⟨target, s⟩
  · exact Or.inl (Run.looksBelow_failed _ _)
  · rcases State.takeCondition_eq_ok_iff.mp hcondition with
      ⟨value, object, b, other, rest, hoperands, hexecutable, htarget, rfl⟩
    have hatop : (m.atop below brackets).takeCondition
        = .ok (target, State.atop { m.toState with operands := rest } below brackets) :=
      State.takeCondition_eq_ok_iff.mpr ⟨value, object, b, other, rest ++ below,
        State.operands_atop_of_eq [_, _] hoperands below brackets, hexecutable, htarget, rfl⟩
    rw [hatop]
    cases target with
    | none => exact Or.inr ⟨rfl, rfl, hlimit, rfl⟩
    | some target => exact Or.inr ⟨rfl, rfl, hlimit, rfl⟩

theorem agree_enter_atop (name : String) (body : List String) :
    Process.Agree (IsAtop below brackets) (fun r _ => r.LooksBelow) (m.enter name body)
      ((m.atop below brackets).enter name body) := by
  unfold enter
  by_cases hdepth : (m.depth : Int) < m.settings.maxDepth
  · have hdepth' : ((m.atop below brackets).depth : Int)
        < (m.atop below brackets).settings.maxDepth := hdepth
    rw [if_pos hdepth, if_pos hdepth']
    exact Or.inr ⟨rfl, rfl, hlimit, rfl⟩
  · rw [if_neg hdepth]
    exact Or.inl (Run.looksBelow_failed _ _)

end Machine

/-- Machines on top of something stay in step with the machines they come from
    until a fault, or an operator that looks at the whole of the stack. -/
theorem atop_simulation (below : List Cell) (brackets : List Nat) :
    Simulation (Machine.IsAtop below brackets) (fun r _ => r.LooksBelow) where
  persists := by
    intro r r' s s' hlooks hpart _
    rcases hlooks with hfault | hcount | hclear
    · rcases Option.ne_none_iff_exists'.mp hfault with ⟨f, hf⟩
      refine Or.inl ?_
      rw [hpart.fault f hf]
      exact Option.some_ne_none f
    · exact Or.inr (Or.inl (hpart.events _ hcount))
    · exact Or.inr (Or.inr (hpart.events _ hclear))
  input_eq := by
    rintro m m' ⟨_, rfl⟩
    rfl
  withInput := by
    rintro m m' input ⟨hlimit, rfl⟩
    exact ⟨hlimit, rfl⟩
  lookup_eq := by
    rintro m m' key ⟨_, rfl⟩
    rfl
  push := by
    rintro m m' command value ⟨hlimit, rfl⟩
    exact Machine.agree_push_atop hlimit below brackets command value
  pushCaptured := by
    rintro m m' lexeme body ⟨hlimit, rfl⟩
    exact Machine.agree_pushCaptured_atop hlimit below brackets lexeme body
  openArray := by
    rintro m m' ⟨hlimit, rfl⟩
    refine ⟨hlimit, ?_⟩
    -- The height that is remembered counts what lies below.
    simp only [Machine.openArray, Machine.atop, State.atop, List.length_append, List.map_cons,
      List.cons_append]
  closeArray := by
    rintro m m' ⟨hlimit, rfl⟩
    exact Machine.agree_closeArray_atop hlimit below brackets
  perform := by
    rintro m m' p ⟨hlimit, rfl⟩
    exact Machine.agree_perform_atop hlimit below brackets p
  findFont := by
    rintro m m' ⟨hlimit, rfl⟩
    exact Machine.agree_findFont_atop hlimit below brackets
  beginConditional := by
    rintro m m' ⟨hlimit, rfl⟩
    exact Machine.agree_beginConditional_atop hlimit below brackets
  enter := by
    rintro m m' name body ⟨hlimit, rfl⟩
    exact Machine.agree_enter_atop hlimit below brackets name body
  leave := by
    rintro m m' ⟨hlimit, rfl⟩
    exact ⟨hlimit, rfl⟩

/-- A program that completes from an empty operand stack without a limit on it, and
    does not look at the whole of the stack, completes on top of any operands and
    open brackets. It leaves its own on top of them, the brackets as much higher up
    as there are operands below, and everything else as from the empty stack. -/
theorem runFrom_atop (m : Machine) (supply : Supply) (hlimit : m.settings.maxOperands = 0)
    (hoperands : m.operands = []) (hmarks : m.marks = [])
    (hcompletes : (m.runFrom supply).fault? = none)
    (hcount : .invoked (.primitive .count) ∉ (m.runFrom supply).events)
    (hclear : .invoked (.primitive .clear) ∉ (m.runFrom supply).events)
    (below : List Cell) (brackets : List Nat) :
    let alone := m.runFrom supply
    let above := ({ m with operands := below, marks := brackets } : Machine).runFrom supply
    above.fault? = none ∧
    above.machine = { alone.machine with
      operands := alone.machine.operands ++ below
      marks := alone.machine.marks.map (· + below.length) ++ brackets } := by
  have hstart : ({ m with operands := below, marks := brackets } : Machine)
      = m.atop below brackets := by
    simp only [Machine.atop, State.atop, hoperands, hmarks, List.map_nil, List.nil_append]
  intro alone above
  have hrelated : m.IsAtop below brackets { m with operands := below, marks := brackets } :=
    ⟨hlimit, hstart⟩
  rcases (atop_simulation below brackets).agree_runFrom hrelated supply with
    hlooks | ⟨hfault, _, hmachine⟩
  · rcases hlooks with hfault | hcount' | hclear'
    · exact absurd hcompletes hfault
    · exact absurd hcount' hcount
    · exact absurd hclear' hclear
  · exact ⟨hfault.symm.trans hcompletes, hmachine⟩

/-- A program that makes an array, compares, invokes a procedure through a conditional
    and leaves a bracket open, on top of two operands and an open bracket. -/
theorem runFrom_atop_conditional :
    let m := Machine.start Settings.standard (.text "")
    let supply := Supply.list ["/f", openBrace, "exch", closeBrace, "def", "[", "/a", "]", "/b",
      "1", "2", "lt", "/f", "load", "if", "["]
    let below := [Cell.of (.name "c"), Cell.of (.bool true)]
    let alone := m.runFrom supply
    let above := ({ m with operands := below, marks := [1] } : Machine).runFrom supply
    alone.fault? = none ∧ alone.machine.marks = [2] ∧
    .invoked (.primitive .count) ∉ alone.events ∧ .invoked (.primitive .clear) ∉ alone.events ∧
    above.fault? = none ∧
    above.machine = { alone.machine with
      operands := alone.machine.operands ++ below
      marks := [4, 1] } := by
  intro m supply below alone above
  have hend : let p := (Process.start m supply).after 40
      p.tasks.isEmpty = true ∧ p.run.fault? = none ∧ p.run.machine.marks = [2] ∧
      .invoked (.primitive .count) ∉ p.run.events ∧
      .invoked (.primitive .clear) ∉ p.run.events := by decide +kernel
  have hrun : ((Process.start m supply).after 40).run = alone :=
    (Process.runFrom_eq_of_tasks_nil (List.isEmpty_iff.mp hend.1)).symm
  rcases hend with ⟨_, hnone, hmarks, hcount, hclear⟩
  rw [hrun] at hnone hmarks hcount hclear
  rcases runFrom_atop m supply rfl rfl rfl hnone hcount hclear below [1] with ⟨hfault, hmachine⟩
  have hbrackets : alone.machine.marks.map (· + below.length) ++ [1] = [4, 1] := by
    rw [hmarks]
    rfl
  refine ⟨hnone, hmarks, hcount, hclear, hfault, ?_⟩
  rw [← hbrackets]
  exact hmachine

end PathScript
