import PathScript.Interpreter

/-!
# When Operators Complete

An operator looks at the operands it finds and either completes or objects.
For each operator that can object there is a theorem here that says exactly
when it completes and what the state is then: which operands it needs on top
of the stack, what else it asks of them, and what it puts in their place. What
lies below the operands it needs is carried along and never looked at, which
shows in that it appears on both sides as a variable.

Later arguments about operators start from these theorems and do not look into
the definitions again.

## Main definitions

* `State.drawTo`: What moving the pen and adding a straight line have in common.
* `State.setStyle`: What setting the two shapes of lines has in common.

## Theorems

* `Operands.arithmetic_eq_ok_iff`, `Operands.divide_eq_ok_iff`,
  `Operands.negate_eq_ok_iff`: Arithmetic.
* `Operands.sameness_eq_ok_iff`, `Operands.comparison_eq_ok_iff`,
  `Operands.complement_eq_ok_iff`: Comparison and negation.
* `Operands.exchange_eq_ok_iff`, `Operands.drop_eq_ok_iff`,
  `Operands.roll_eq_ok_iff`: Rearranging.
* `State.moveTo_eq_ok_iff`, `State.lineTo_eq_ok_iff`,
  `State.curveTo_eq_ok_iff`: Building paths.
* `State.concatenate_eq_ok_iff`: Maps.
* `State.setLineCap_eq_ok_iff`, `State.setLineJoin_eq_ok_iff`,
  `State.setLineWidth_eq_ok_iff`, `State.setMiterLimit_eq_ok_iff`: Styles.
* `State.dropGray_eq_ok_iff`, `State.dropColor_eq_ok_iff`: Colours.
* `State.define_eq_ok_iff`, `State.load_eq_ok_iff`: Definitions.
* `State.push?_eq_ok_iff`, `State.pushProcedure?_eq_ok_iff`,
  `State.duplicate_eq_ok_iff`, `State.pushIdentity_eq_ok_iff`: What needs room on
  the operand stack.
* `State.save_eq_ok_iff`, `State.restore_eq_ok_iff`: Saved graphics states.
* `State.takeCondition_eq_ok_iff`: The operands of a conditional.
-/

namespace PathScript

/-- What comes of two steps that may fail completes if both do. -/
theorem bind_eq_ok_iff {α β : Type} {x : Except Complaint α} {f : α → Except Complaint β} {b : β} :
    x >>= f = .ok b ↔ ∃ a, x = .ok a ∧ f a = .ok b := by
  cases x with
  | error c => simp only [bind, Except.bind, reduceCtorEq, false_and, exists_false]
  | ok a =>
      constructor
      · intro h
        exact ⟨a, rfl, h⟩
      · rintro ⟨a', ha, h⟩
        rw [Except.ok.inj ha]
        exact h

/-- What needs room completes if there is room. -/
theorem ite_eq_ok_iff {α : Type} {room : Bool} {result a : α} {c : Complaint} :
    (if room then Except.ok result else Except.error c) = .ok a ↔ room = true ∧ a = result := by
  cases room with
  | true =>
      simp only [if_true, Except.ok.injEq, true_and]
      exact eq_comm
  | false => simp only [Bool.false_eq_true, if_false, reduceCtorEq, false_and]

namespace Operands

theorem arithmetic_eq_ok_iff {operation : Binary64 → Binary64 → Binary64}
    {operands result : List Cell} :
    arithmetic operation operands = .ok result ↔
      ∃ x y object other rest, operands = ⟨.real y, object⟩ :: ⟨.real x, other⟩ :: rest ∧
        (operation x y).isFinite = true ∧ result = .of (.real (operation x y)) :: rest := by
  constructor
  · intro h
    unfold arithmetic at h
    split at h
    · next y object x other rest =>
        split at h
        · next hfinite => exact ⟨x, y, object, other, rest, rfl, hfinite, (Except.ok.inj h).symm⟩
        · cases h
    · cases h
  · rintro ⟨x, y, object, other, rest, rfl, hfinite, rfl⟩
    simp only [arithmetic, if_pos hfinite]

/-- A divisor that is not zero is needed before the operands are looked at
    further. -/
theorem divide_eq_ok_iff {operands result : List Cell} :
    divide operands = .ok result ↔
      (∀ y object cell rest, operands = ⟨.real y, object⟩ :: cell :: rest →
        y.eq (.zero false) = false) ∧
      arithmetic Binary64.div operands = .ok result := by
  unfold divide
  split
  · next y object cell rest =>
      split
      · next hzero =>
          constructor
          · intro h
            cases h
          · intro h
            rw [h.1 y object cell rest rfl] at hzero
            exact absurd hzero Bool.false_ne_true
      · next hzero =>
          refine ⟨fun h => ⟨?_, h⟩, fun h => h.2⟩
          intro y' object' cell' rest' heq
          simp only [List.cons.injEq, Cell.mk.injEq, Value.real.injEq] at heq
          rw [← heq.1.1]
          exact Bool.eq_false_iff.mpr hzero
  · next hshort =>
      refine ⟨fun h => ⟨?_, h⟩, fun h => h.2⟩
      intro y object cell rest heq
      exact (hshort y object cell rest heq).elim

theorem negate_eq_ok_iff {operands result : List Cell} :
    negate operands = .ok result ↔
      ∃ x object rest, operands = ⟨.real x, object⟩ :: rest ∧
        result = .of (.real x.neg) :: rest := by
  constructor
  · intro h
    unfold negate at h
    split at h
    · next x object rest => exact ⟨x, object, rest, rfl, (Except.ok.inj h).symm⟩
    · cases h
  · rintro ⟨x, object, rest, rfl, rfl⟩
    rfl

theorem sameness_eq_ok_iff {answer : Bool → Bool} {operands result : List Cell} :
    sameness answer operands = .ok result ↔
      ∃ x y rest, operands = y :: x :: rest ∧
        result = .of (.bool (answer (x.value.identical y.value))) :: rest := by
  constructor
  · intro h
    unfold sameness at h
    split at h
    · next y x rest => exact ⟨x, y, rest, rfl, (Except.ok.inj h).symm⟩
    · cases h
  · rintro ⟨x, y, rest, rfl, rfl⟩
    rfl

theorem comparison_eq_ok_iff {relation : Binary64 → Binary64 → Bool}
    {operands result : List Cell} :
    comparison relation operands = .ok result ↔
      ∃ x y object other rest, operands = ⟨.real y, object⟩ :: ⟨.real x, other⟩ :: rest ∧
        result = .of (.bool (relation x y)) :: rest := by
  constructor
  · intro h
    unfold comparison at h
    split at h
    · next y object x other rest =>
        exact ⟨x, y, object, other, rest, rfl, (Except.ok.inj h).symm⟩
    · cases h
  · rintro ⟨x, y, object, other, rest, rfl, rfl⟩
    rfl

theorem complement_eq_ok_iff {operands result : List Cell} :
    complement operands = .ok result ↔
      ∃ b object rest, operands = ⟨.bool b, object⟩ :: rest ∧ result = .of (.bool (!b)) :: rest := by
  constructor
  · intro h
    unfold complement at h
    split at h
    · next b object rest => exact ⟨b, object, rest, rfl, (Except.ok.inj h).symm⟩
    · cases h
  · rintro ⟨b, object, rest, rfl, rfl⟩
    rfl

theorem exchange_eq_ok_iff {operands result : List Cell} :
    exchange operands = .ok result ↔
      ∃ x y rest, operands = y :: x :: rest ∧ result = x :: y :: rest := by
  constructor
  · intro h
    unfold exchange at h
    split at h
    · next y x rest => exact ⟨x, y, rest, rfl, (Except.ok.inj h).symm⟩
    · cases h
  · rintro ⟨x, y, rest, rfl, rfl⟩
    rfl

theorem drop_eq_ok_iff {operands result : List Cell} :
    drop operands = .ok result ↔ ∃ cell, operands = cell :: result := by
  constructor
  · intro h
    unfold drop at h
    split at h
    · next cell rest => exact ⟨cell, by rw [Except.ok.inj h]⟩
    · cases h
  · rintro ⟨cell, rfl⟩
    rfl

/-- Both numbers are integers, and there are as many values below them as are to
    be turned round. -/
theorem roll_eq_ok_iff {operands result : List Cell} :
    roll operands = .ok result ↔
      ∃ x y object other rest, ∃ n j : Int,
        operands = ⟨.real y, object⟩ :: ⟨.real x, other⟩ :: rest ∧
        x.toInt? = some n ∧ y.toInt? = some j ∧ 0 ≤ n ∧ n ≤ rest.length ∧
        result = rotate (j % n).toNat (rest.take n.toNat) ++ rest.drop n.toNat := by
  constructor
  · intro h
    unfold roll at h
    split at h
    · next y object x other rest =>
        split at h
        · next n j hn hj =>
            split at h
            · cases h
            · split at h
              · cases h
              · exact ⟨x, y, object, other, rest, n, j, rfl, hn, hj, by omega, by omega,
                  (Except.ok.inj h).symm⟩
        · cases h
    · cases h
  · rintro ⟨x, y, object, other, rest, n, j, rfl, hn, hj, hneg, hlength, rfl⟩
    simp only [roll, hn, hj, if_neg (Int.not_lt.mpr hneg), if_neg (Int.not_lt.mpr hlength)]

end Operands

namespace State

theorem onOperands_eq_ok_iff {change : List Cell → Except Complaint (List Cell)} {s s' : State} :
    s.onOperands change = .ok s' ↔
      ∃ operands, change s.operands = .ok operands ∧ s' = { s with operands := operands } := by
  unfold onOperands
  cases change s.operands with
  | error c => simp only [Except.map, reduceCtorEq, false_and, exists_false]
  | ok operands =>
      simp only [Except.map, Except.ok.injEq, exists_eq_left']
      exact eq_comm

/-- Adds the instruction that leads to a point given by two numbers to the path. -/
def drawTo (instruction : Point → Instruction) (s : State) : Except Complaint State :=
  match s.operands with
  | ⟨.real y, _⟩ :: ⟨.real x, _⟩ :: rest => do
      let p ← s.toDevice x y
      return s.extendPath rest (instruction p)
  | operands => .error (.operands 2 operands)

theorem drawTo_eq_ok_iff (instruction : Point → Instruction) {s s' : State} :
    s.drawTo instruction = .ok s' ↔
      ∃ x y object other rest p, s.operands = ⟨.real y, object⟩ :: ⟨.real x, other⟩ :: rest ∧
        s.toDevice x y = .ok p ∧ s' = s.extendPath rest (instruction p) := by
  constructor
  · intro h
    unfold drawTo at h
    split at h
    · next y object x other rest hoperands =>
        rcases bind_eq_ok_iff.mp h with ⟨p, hp, hs⟩
        exact ⟨x, y, object, other, rest, p, hoperands, hp, (Except.ok.inj hs).symm⟩
    · cases h
  · rintro ⟨x, y, object, other, rest, p, hoperands, hp, rfl⟩
    unfold drawTo
    rw [hoperands]
    exact bind_eq_ok_iff.mpr ⟨p, hp, rfl⟩

theorem moveTo_eq_ok_iff {s s' : State} :
    s.moveTo = .ok s' ↔
      ∃ x y object other rest p, s.operands = ⟨.real y, object⟩ :: ⟨.real x, other⟩ :: rest ∧
        s.toDevice x y = .ok p ∧ s' = s.extendPath rest (.move p) :=
  drawTo_eq_ok_iff .move

theorem lineTo_eq_ok_iff {s s' : State} :
    s.lineTo = .ok s' ↔
      ∃ x y object other rest p, s.operands = ⟨.real y, object⟩ :: ⟨.real x, other⟩ :: rest ∧
        s.toDevice x y = .ok p ∧ s' = s.extendPath rest (.line p) :=
  drawTo_eq_ok_iff .line

theorem curveTo_eq_ok_iff {s s' : State} :
    s.curveTo = .ok s' ↔
      ∃ x₁ y₁ x₂ y₂ x₃ y₃ a₁ b₁ a₂ b₂ a₃ b₃ rest p q r,
        s.operands = ⟨.real y₃, b₃⟩ :: ⟨.real x₃, a₃⟩ :: ⟨.real y₂, b₂⟩ :: ⟨.real x₂, a₂⟩
          :: ⟨.real y₁, b₁⟩ :: ⟨.real x₁, a₁⟩ :: rest ∧
        s.toDevice x₁ y₁ = .ok p ∧ s.toDevice x₂ y₂ = .ok q ∧ s.toDevice x₃ y₃ = .ok r ∧
        s' = s.extendPath rest (.cubic p q r) := by
  constructor
  · intro h
    unfold curveTo at h
    split at h
    · next y₃ b₃ x₃ a₃ y₂ b₂ x₂ a₂ y₁ b₁ x₁ a₁ rest hoperands =>
        rcases bind_eq_ok_iff.mp h with ⟨p, hp, h⟩
        rcases bind_eq_ok_iff.mp h with ⟨q, hq, h⟩
        rcases bind_eq_ok_iff.mp h with ⟨r, hr, h⟩
        exact ⟨x₁, y₁, x₂, y₂, x₃, y₃, a₁, b₁, a₂, b₂, a₃, b₃, rest, p, q, r, hoperands, hp, hq,
          hr, (Except.ok.inj h).symm⟩
    · cases h
  · rintro ⟨x₁, y₁, x₂, y₂, x₃, y₃, a₁, b₁, a₂, b₂, a₃, b₃, rest, p, q, r, hoperands, hp, hq,
      hr, rfl⟩
    unfold curveTo
    rw [hoperands]
    refine bind_eq_ok_iff.mpr ⟨p, hp, bind_eq_ok_iff.mpr ⟨q, hq, ?_⟩⟩
    exact bind_eq_ok_iff.mpr ⟨r, hr, rfl⟩

/-- A map is an array of six numbers, and its product with the map in force has to
    exist. -/
theorem concatenate_eq_ok_iff {s s' : State} :
    s.concatenate = .ok s' ↔
      ∃ identity items object rest m ctm,
        s.operands = ⟨.array identity items, object⟩ :: rest ∧ items.length = 6 ∧
        (items.mapM Value.real?).bind Matrix.ofList? = some m ∧ m.mul? s.graphics.ctm = some ctm ∧
        s' = { s with operands := rest, graphics := { s.graphics with ctm := ctm } } := by
  constructor
  · intro h
    unfold concatenate at h
    split at h
    · next identity items object rest hoperands =>
        split at h
        · cases h
        · next hlength =>
            split at h
            · cases h
            · next m hm =>
                split at h
                · cases h
                · next ctm hctm =>
                    exact ⟨identity, items, object, rest, m, ctm, hoperands,
                      Decidable.not_not.mp hlength, hm, hctm, (Except.ok.inj h).symm⟩
    · cases h
  · rintro ⟨identity, items, object, rest, m, ctm, hoperands, hlength, hm, hctm, rfl⟩
    unfold concatenate
    rw [hoperands]
    simp only [hlength, ne_eq, not_true_eq_false, if_false, hm, hctm]

/-- Puts the shape that a number chooses into the graphics state. -/
def setStyle {α : Type} (ofCode? : Int → Option α) (put : GraphicsState → α → GraphicsState)
    (s : State) : Except Complaint State :=
  match s.operands with
  | ⟨.real x, _⟩ :: rest => do
      let style ← styleChoice ofCode? x
      return { s with operands := rest, graphics := put s.graphics style }
  | operands => .error (.operands 1 operands)

theorem setStyle_eq_ok_iff {α : Type} (ofCode? : Int → Option α)
    (put : GraphicsState → α → GraphicsState) {s s' : State} :
    s.setStyle ofCode? put = .ok s' ↔
      ∃ x object rest style, s.operands = ⟨.real x, object⟩ :: rest ∧
        styleChoice ofCode? x = .ok style ∧
        s' = { s with operands := rest, graphics := put s.graphics style } := by
  constructor
  · intro h
    unfold setStyle at h
    split at h
    · next x object rest hoperands =>
        rcases bind_eq_ok_iff.mp h with ⟨style, hstyle, hs⟩
        exact ⟨x, object, rest, style, hoperands, hstyle, (Except.ok.inj hs).symm⟩
    · cases h
  · rintro ⟨x, object, rest, style, hoperands, hstyle, rfl⟩
    unfold setStyle
    rw [hoperands]
    exact bind_eq_ok_iff.mpr ⟨style, hstyle, rfl⟩

theorem setLineCap_eq_ok_iff {s s' : State} :
    s.setLineCap = .ok s' ↔
      ∃ x object rest cap, s.operands = ⟨.real x, object⟩ :: rest ∧
        styleChoice LineCap.ofCode? x = .ok cap ∧
        s' = { s with operands := rest, graphics := { s.graphics with lineCap := cap } } :=
  setStyle_eq_ok_iff LineCap.ofCode? fun g cap => { g with lineCap := cap }

theorem setLineJoin_eq_ok_iff {s s' : State} :
    s.setLineJoin = .ok s' ↔
      ∃ x object rest join, s.operands = ⟨.real x, object⟩ :: rest ∧
        styleChoice LineJoin.ofCode? x = .ok join ∧
        s' = { s with operands := rest, graphics := { s.graphics with lineJoin := join } } :=
  setStyle_eq_ok_iff LineJoin.ofCode? fun g join => { g with lineJoin := join }

theorem setLineWidth_eq_ok_iff {s s' : State} :
    s.setLineWidth = .ok s' ↔
      ∃ x object rest, s.operands = ⟨.real x, object⟩ :: rest ∧
        s' = { s with operands := rest, graphics := { s.graphics with lineWidth := x.abs } } := by
  constructor
  · intro h
    unfold setLineWidth at h
    split at h
    · next x object rest hoperands =>
        exact ⟨x, object, rest, hoperands, (Except.ok.inj h).symm⟩
    · cases h
  · rintro ⟨x, object, rest, hoperands, rfl⟩
    unfold setLineWidth
    rw [hoperands]

theorem setMiterLimit_eq_ok_iff {s s' : State} :
    s.setMiterLimit = .ok s' ↔
      ∃ x object rest, s.operands = ⟨.real x, object⟩ :: rest ∧ x.lt .one = false ∧
        s' = { s with operands := rest, graphics := { s.graphics with miterLimit := x } } := by
  constructor
  · intro h
    unfold setMiterLimit at h
    split at h
    · next x object rest hoperands =>
        split at h
        · cases h
        · next hlow =>
            exact ⟨x, object, rest, hoperands, Bool.eq_false_iff.mpr hlow,
              (Except.ok.inj h).symm⟩
    · cases h
  · rintro ⟨x, object, rest, hoperands, hlow, rfl⟩
    unfold setMiterLimit
    rw [hoperands]
    simp only [hlow, Bool.false_eq_true, if_false]

theorem dropGray_eq_ok_iff {s s' : State} :
    s.dropGray = .ok s' ↔
      ∃ x object rest, s.operands = ⟨.real x, object⟩ :: rest ∧ s' = { s with operands := rest } := by
  constructor
  · intro h
    unfold dropGray at h
    split at h
    · next x object rest hoperands =>
        exact ⟨x, object, rest, hoperands, (Except.ok.inj h).symm⟩
    · cases h
  · rintro ⟨x, object, rest, hoperands, rfl⟩
    unfold dropGray
    rw [hoperands]

theorem dropColor_eq_ok_iff {s s' : State} :
    s.dropColor = .ok s' ↔
      ∃ x y z a b c rest,
        s.operands = ⟨.real z, c⟩ :: ⟨.real y, b⟩ :: ⟨.real x, a⟩ :: rest ∧
        s' = { s with operands := rest } := by
  constructor
  · intro h
    unfold dropColor at h
    split at h
    · next z c y b x a rest hoperands =>
        exact ⟨x, y, z, a, b, c, rest, hoperands, (Except.ok.inj h).symm⟩
    · cases h
  · rintro ⟨x, y, z, a, b, c, rest, hoperands, rfl⟩
    unfold dropColor
    rw [hoperands]

/-- A value that can be invoked is bound as it is, and any other one in a literal
    procedure that pushes it. -/
theorem define_eq_ok_iff {s s' : State} :
    s.define = .ok s' ↔
      ∃ cell key object rest, s.operands = cell :: ⟨.name key, object⟩ :: rest ∧
        s' = if cell.value.isExecutable then
            { s with operands := rest, definitions := s.definitions.insert key cell }
          else
            { s with
              operands := rest
              definitions := s.definitions.insert key (.of (s.wrap cell).1)
              nextIdentity := (s.wrap cell).2 } := by
  constructor
  · intro h
    unfold define at h
    split at h
    · next cell key object rest hoperands =>
        refine ⟨cell, key, object, rest, hoperands, ?_⟩
        split at h
        · next hexecutable =>
            rw [if_pos hexecutable]
            exact (Except.ok.inj h).symm
        · next hexecutable =>
            rw [if_neg hexecutable]
            exact (Except.ok.inj h).symm
    · cases h
  · rintro ⟨cell, key, object, rest, hoperands, rfl⟩
    unfold define
    rw [hoperands]
    dsimp only
    split <;> rfl

theorem load_eq_ok_iff {s s' : State} :
    s.load = .ok s' ↔
      ∃ key object rest cell, s.operands = ⟨.name key, object⟩ :: rest ∧
        s.lookup? key = some cell ∧ s' = { s with operands := cell :: rest } := by
  constructor
  · intro h
    unfold load at h
    split at h
    · next key object rest hoperands =>
        split at h
        · next cell hlookup =>
            exact ⟨key, object, rest, cell, hoperands, hlookup, (Except.ok.inj h).symm⟩
        · cases h
    · cases h
  · rintro ⟨key, object, rest, cell, hoperands, hlookup, rfl⟩
    unfold load
    rw [hoperands]
    simp only [hlookup]

theorem push?_eq_ok_iff {limits : Settings} {s s' : State} {value : Value} :
    s.push? limits value = .ok s' ↔ s.hasRoom limits = true ∧ s' = s.push value :=
  ite_eq_ok_iff

theorem pushProcedure?_eq_ok_iff {limits : Settings} {s s' : State} {body : List String} :
    s.pushProcedure? limits body = .ok s' ↔
      s.hasRoom limits = true ∧
        s' = { s with
          operands := .of (.procedure s.nextIdentity body) :: s.operands
          nextIdentity := s.nextIdentity + 1 } :=
  ite_eq_ok_iff

theorem duplicate_eq_ok_iff {limits : Settings} {s s' : State} :
    s.duplicate limits = .ok s' ↔
      ∃ cell rest, s.operands = cell :: rest ∧ s.hasRoom limits = true ∧
        s' = s.push cell.value := by
  unfold duplicate
  cases s.operands with
  | nil => simp only [reduceCtorEq, false_and, exists_false]
  | cons cell rest =>
      rw [push?_eq_ok_iff]
      constructor
      · intro h
        exact ⟨cell, rest, rfl, h⟩
      · rintro ⟨cell', rest', heq, h⟩
        rw [(List.cons.inj heq).1]
        exact h

theorem pushIdentity_eq_ok_iff {limits : Settings} {s s' : State} :
    s.pushIdentity limits = .ok s' ↔
      s.hasRoom limits = true ∧ s' = s.pushArray (Matrix.identity.toList.map .real) :=
  ite_eq_ok_iff

theorem save_eq_ok_iff {limits : Settings} {s s' : State} :
    s.save limits = .ok s' ↔
      underLimit limits.maxSaved s.saved.length = true ∧
        s' = { s with saved := s.graphics :: s.saved } :=
  ite_eq_ok_iff

theorem restore_eq_ok_iff {s s' : State} :
    s.restore = .ok s' ↔
      ∃ g saved, s.saved = g :: saved ∧ s' = { s with graphics := g, saved := saved } := by
  unfold restore
  cases s.saved with
  | nil => simp only [reduceCtorEq, false_and, exists_false]
  | cons g saved =>
      simp only [Except.ok.injEq, List.cons.injEq]
      constructor
      · intro h
        exact ⟨g, saved, ⟨rfl, rfl⟩, h.symm⟩
      · rintro ⟨g', saved', ⟨rfl, rfl⟩, rfl⟩
        rfl

theorem takeCondition_eq_ok_iff {s s' : State} {target : Option Value} :
    s.takeCondition = .ok (target, s') ↔
      ∃ value object b other rest, s.operands = ⟨value, object⟩ :: ⟨.bool b, other⟩ :: rest ∧
        value.isExecutable = true ∧ target = (if b then some value else none) ∧
        s' = { s with operands := rest } := by
  constructor
  · intro h
    unfold takeCondition at h
    split at h
    · next value object b other rest hoperands =>
        split at h
        · next hexecutable =>
            simp only [Except.ok.injEq, Prod.mk.injEq] at h
            exact ⟨value, object, b, other, rest, hoperands, hexecutable, h.1.symm, h.2.symm⟩
        · cases h
    · cases h
  · rintro ⟨value, object, b, other, rest, hoperands, hexecutable, rfl, rfl⟩
    unfold takeCondition
    rw [hoperands]
    simp only [hexecutable, if_true]

end State

end PathScript
