import PathScript.Proofs.Frame
import PathScript.Proofs.Sequencing

/-!
# What Brackets Gather

A bracket remembers how high the operand stack is and nothing else, and no
operator keeps what it remembers up to date. So what a closing bracket gathers
depends on everything between the two: that it never reached below the height
of the first, and that its own brackets are all closed again. Both follow if the
code between the brackets completes by itself, from an empty stack and with no
open brackets. Below a machine that does, anything can lie, an open bracket at
that height as well. The closing bracket then finds that one, and above it what
the code would have left by itself.

## Theorems

* `Machine.openArray_eq_atop`: A machine on top of an open bracket.
* `Machine.closeArray_bracketed`: Closing a bracket that lies below.
* `bracketed_code_gathers`: Code between brackets leaves an array of what it
  leaves by itself.
-/

namespace PathScript

namespace Machine

/-- A machine with a bracket just opened on top of operands is one on top of those and
    the bracket. -/
theorem openArray_eq_atop {m : Machine} (hoperands : m.operands = []) (hmarks : m.marks = [])
    (below : List Cell) (brackets : List Nat) :
    ({ m with operands := below, marks := brackets } : Machine).openArray
      = m.atop below (below.length :: brackets) := by
  simp only [openArray, atop, State.atop, hoperands, hmarks, List.map_nil, List.nil_append]

/-- Closing a bracket that was opened below a machine with none of its own open: the
    operands of the machine become the items of an array. -/
theorem closeArray_bracketed {m : Machine} (hlimit : m.settings.maxOperands = 0)
    (hmarks : m.marks = []) (below : List Cell) (brackets : List Nat) :
    (m.atop below (below.length :: brackets)).closeArray
      = .done { m with
          operands := .of (.array m.nextIdentity (m.operands.reverse.map (·.value))) :: below
          marks := brackets
          nextIdentity := m.nextIdentity + 1 } := by
  have hopen : (m.atop below (below.length :: brackets)).marks = below.length :: brackets := by
    simp only [atop, State.atop, hmarks, List.map_nil, List.nil_append]
  have hlength : (m.atop below (below.length :: brackets)).operands.length
      = m.operands.length + below.length := List.length_append
  -- The bracket was opened at the height of what lies below, so that all above is taken.
  have hgathered : (m.atop below (below.length :: brackets)).gathered below.length
      = m.operands.reverse.map (·.value) := by
    rw [gathered, hlength, Nat.add_sub_cancel]
    simp only [atop, State.atop, List.take_left]
  have hcleared : (m.atop below (below.length :: brackets)).cleared below.length brackets
      = { m with operands := below, marks := brackets } := by
    rw [cleared, hlength, Nat.add_sub_cancel]
    simp only [atop, State.atop, List.drop_left]
  rw [closeArray_of_le hopen (by omega), if_pos (hasRoom_atop hlimit _ _ _), hgathered, hcleared]
  rfl

end Machine

/-- Code between brackets leaves an array of exactly what it leaves by itself. If a
    list of lexemes completes from an empty operand stack without a limit on it and
    with no open brackets, leaves none open and does not look at the whole of the
    stack, then between brackets it completes on top of any operands and open
    brackets. It leaves those as they were, with an array on top that has what the
    code leaves by itself for its items, and everything else as the code leaves it by
    itself. -/
theorem bracketed_code_gathers (m : Machine) (code : List String)
    (hlimit : m.settings.maxOperands = 0) (hoperands : m.operands = []) (hmarks : m.marks = [])
    (hcompletes : (m.runList code).fault? = none) (hclosed : (m.runList code).machine.marks = [])
    (hcount : .invoked (.primitive .count) ∉ (m.runList code).events)
    (hclear : .invoked (.primitive .clear) ∉ (m.runList code).events)
    (below : List Cell) (brackets : List Nat) :
    let alone := m.runList code
    let bracketed := ({ m with operands := below, marks := brackets } : Machine).runList
      ("[" :: (code ++ ["]"]))
    bracketed.fault? = none ∧
    bracketed.machine = { alone.machine with
      operands := .of (.array alone.machine.nextIdentity
        (alone.machine.operands.reverse.map (·.value))) :: below
      marks := brackets
      nextIdentity := alone.machine.nextIdentity + 1 } := by
  intro alone bracketed
  -- Inside the brackets the code runs on top of one of them.
  have hstart : m.IsAtop below (below.length :: brackets)
      ({ m with operands := below, marks := brackets } : Machine).openArray :=
    ⟨hlimit, Machine.openArray_eq_atop hoperands hmarks below brackets⟩
  have hinside : alone.Related (Machine.IsAtop below (below.length :: brackets))
      (({ m with operands := below, marks := brackets } : Machine).openArray.runList code) := by
    rcases (atop_simulation below _).agree_runFrom hstart (.list code) with hlooks | hrelated
    · -- Each way of looking below is excluded by how the code runs by itself.
      rcases hlooks with hfault | hcount' | hclear'
      · exact absurd hcompletes hfault
      · exact absurd hcount' hcount
      · exact absurd hclear' hclear
    · exact hrelated
  rcases hinside with ⟨hfault, hunlimited, hmachine⟩
  have hnone := hfault.symm.trans hcompletes
  -- The three parts one after the other.
  have hopened : bracketed
      = (({ m with operands := below, marks := brackets } : Machine).openArray.runList
          code).andThen fun inside => inside.runLexemes (callerAt m.allowance) ["]"] :=
    (Machine.runLexemes_of_done (by decide) (Machine.step_openBracket _ _)).trans
      (Machine.runLexemes_append hnone _)
  have hclosing := Machine.closeArray_bracketed hunlimited hclosed below brackets
  rw [hopened, Run.andThen_of_none hnone, hmachine,
    Machine.runLexemes_of_done (by decide) ((Machine.step_closeBracket _ _).trans hclosing),
    Machine.runLexemes]
  exact ⟨rfl, rfl⟩

/-- Code that defines a procedure, makes an array of its own and exchanges it with a
    number, between brackets that are inside another pair. -/
theorem bracketed_code_gathers_nested :
    let m := Machine.start Settings.standard (.text "")
    let code := ["/f", openBrace, "exch", closeBrace, "def", "1", "[", "2", "/a", "]", "f", "true"]
    let below := [Cell.of (.name "c"), Cell.of (.bool false)]
    let alone := m.runList code
    let bracketed := ({ m with operands := below, marks := [1] } : Machine).runList
      ("[" :: (code ++ ["]"]))
    alone.fault? = none ∧ alone.machine.marks = [] ∧ alone.machine.operands.length = 3 ∧
    .invoked (.primitive .count) ∉ alone.events ∧ .invoked (.primitive .clear) ∉ alone.events ∧
    bracketed.fault? = none ∧
    bracketed.machine = { alone.machine with
      operands := .of (.array alone.machine.nextIdentity
        (alone.machine.operands.reverse.map (·.value))) :: below
      marks := [1]
      nextIdentity := alone.machine.nextIdentity + 1 } := by
  intro m code below alone bracketed
  have hend : let p := (Process.start m (.list code)).after 30
      p.tasks.isEmpty = true ∧ p.run.fault? = none ∧ p.run.machine.marks = [] ∧
      p.run.machine.operands.length = 3 ∧ .invoked (.primitive .count) ∉ p.run.events ∧
      .invoked (.primitive .clear) ∉ p.run.events := by decide +kernel
  have hrun : ((Process.start m (.list code)).after 30).run = alone :=
    (Process.runFrom_eq_of_tasks_nil (List.isEmpty_iff.mp hend.1)).symm
  rcases hend with ⟨_, hnone, hmarks, hlength, hcount, hclear⟩
  rw [hrun] at hnone hmarks hlength hcount hclear
  rcases bracketed_code_gathers m code rfl rfl rfl hnone hmarks hcount hclear below [1] with
    ⟨hfault, hmachine⟩
  exact ⟨hnone, hmarks, hlength, hcount, hclear, hfault, hmachine⟩

end PathScript
