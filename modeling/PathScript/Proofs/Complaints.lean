import PathScript.Proofs.Maps
import PathScript.Proofs.Picture

/-!
# What Operators Object To

Every objection that an operator can have is of one of the kinds that have a
number, with one exception. The operators that apply a map have nothing to say
if it has no value: decimal arithmetic has no result, and that is not a kind of
report.

There are four of them, and what they apply the map to is held by the state, a
point on the operand stack or another map in an array there. So if the numbers
that are held are finite, a map that has no value has an infinite entry.

## Main definitions

* `Complaint.isListed`, `Fault.isListed`: Complaints and faults of the kinds that
  have a number.
* `ObjectsWithin`: A result that, if it is an objection, is one of some.
* `State.Balks`: A map that has no value for numbers that are held.
* `Primitive.appliesMap`: Operators that apply a map.
* `State.MapObjection`, `Primitive.Objection`: What these and all operators can object
  to.

## Theorems

* `Primitive.objects_perform`: What operators object to.
* `State.unbounded_of_balks`: A map without a value has an infinite entry.
-/

namespace PathScript

/-- Whether a complaint is of one of the kinds that have a number. -/
def Complaint.isListed : Complaint → Bool
  | .report kind _ => ErrorKind.numbered.contains kind
  | .undefinedArithmetic => false

/-- Whether a fault is a report of one of the kinds that have a number. -/
def Fault.isListed : Fault → Bool
  | .report r => ErrorKind.numbered.contains r.kind
  | _ => false

theorem Complaint.isListed_operands {α : Type} (needed : Nat) (found : List α) :
    (Complaint.operands needed found).isListed = true := by
  unfold operands
  split <;> rfl

section

variable {α β : Type} (E : Complaint → Prop)

/-- A result that, if it is an objection, is one of some. -/
def ObjectsWithin (r : Except Complaint α) : Prop := ∀ c, r = .error c → E c

variable {E}

theorem objectsWithin_ok {a : α} : ObjectsWithin E (.ok a : Except Complaint α) :=
  fun _ h => absurd h (by simp only [reduceCtorEq, not_false_eq_true])

theorem objectsWithin_error {c : Complaint} (h : E c) :
    ObjectsWithin E (.error c : Except Complaint α) := by
  intro other hother
  rw [← Except.error.inj hother]
  exact h

/-- One result after another: the first may object, and the second then does not
    come about. -/
theorem objectsWithin_bind {r : Except Complaint α} {next : α → Except Complaint β}
    (hr : ObjectsWithin E r) (hnext : ∀ a, ObjectsWithin E (next a)) :
    ObjectsWithin E (r >>= next) := by
  cases r with
  | error c => exact objectsWithin_error (hr c rfl)
  | ok a => exact hnext a

theorem objectsWithin_map {r : Except Complaint α} {change : α → β} (hr : ObjectsWithin E r) :
    ObjectsWithin E (r.map change) := by
  cases r with
  | error c => exact objectsWithin_error (hr c rfl)
  | ok a => exact objectsWithin_ok

theorem ObjectsWithin.mono {F : Complaint → Prop} {r : Except Complaint α}
    (h : ObjectsWithin E r) (hsub : ∀ c, E c → F c) : ObjectsWithin F r :=
  fun c hc => hsub c (h c hc)

end

/-- A result that objects only with complaints of the kinds that have a number. -/
abbrev ObjectsListed {α : Type} (r : Except Complaint α) : Prop :=
  ObjectsWithin (fun c => c.isListed = true) r

namespace Operands

theorem objects_arithmetic (operation : Binary64 → Binary64 → Binary64) (operands : List Cell) :
    ObjectsListed (arithmetic operation operands) := by
  unfold arithmetic
  split
  · split
    · exact objectsWithin_ok
    · exact objectsWithin_error rfl
  · exact objectsWithin_error (Complaint.isListed_operands _ _)

theorem objects_divide (operands : List Cell) : ObjectsListed (divide operands) := by
  unfold divide
  split
  · split
    · exact objectsWithin_error rfl
    · exact objects_arithmetic _ _
  · exact objects_arithmetic _ _

theorem objects_negate (operands : List Cell) : ObjectsListed (negate operands) := by
  unfold negate
  split
  · exact objectsWithin_ok
  · exact objectsWithin_error (Complaint.isListed_operands _ _)

theorem objects_sameness (answer : Bool → Bool) (operands : List Cell) :
    ObjectsListed (sameness answer operands) := by
  unfold sameness
  split
  · exact objectsWithin_ok
  · exact objectsWithin_error (Complaint.isListed_operands _ _)

theorem objects_comparison (relation : Binary64 → Binary64 → Bool) (operands : List Cell) :
    ObjectsListed (comparison relation operands) := by
  unfold comparison
  split
  · exact objectsWithin_ok
  · exact objectsWithin_error (Complaint.isListed_operands _ _)

theorem objects_complement (operands : List Cell) : ObjectsListed (complement operands) := by
  unfold complement
  split
  · exact objectsWithin_ok
  · exact objectsWithin_error (Complaint.isListed_operands _ _)

theorem objects_exchange (operands : List Cell) : ObjectsListed (exchange operands) := by
  unfold exchange
  split
  · exact objectsWithin_ok
  · exact objectsWithin_error (Complaint.isListed_operands _ _)

theorem objects_drop (operands : List Cell) : ObjectsListed (drop operands) := by
  unfold drop
  split
  · exact objectsWithin_ok
  · exact objectsWithin_error (Complaint.isListed_operands _ _)

theorem objects_roll (operands : List Cell) : ObjectsListed (roll operands) := by
  unfold roll
  split
  · split
    · split
      · exact objectsWithin_error rfl
      · split
        · exact objectsWithin_error rfl
        · exact objectsWithin_ok
    · exact objectsWithin_error rfl
  · exact objectsWithin_error (Complaint.isListed_operands _ _)

end Operands

namespace State

variable {limits : Settings} {s : State}

theorem objects_push? (value : Value) : ObjectsListed (s.push? limits value) := by
  unfold push?
  split
  · exact objectsWithin_ok
  · exact objectsWithin_error rfl

theorem objects_pushProcedure? (body : List String) :
    ObjectsListed (s.pushProcedure? limits body) := by
  unfold pushProcedure?
  split
  · exact objectsWithin_ok
  · exact objectsWithin_error rfl

theorem objects_duplicate : ObjectsListed (s.duplicate limits) := by
  unfold duplicate
  split
  · exact objects_push? _
  · exact objectsWithin_error rfl

theorem objects_pushIdentity : ObjectsListed (s.pushIdentity limits) := by
  unfold pushIdentity
  split
  · exact objectsWithin_ok
  · exact objectsWithin_error rfl

theorem objects_save : ObjectsListed (s.save limits) := by
  unfold save
  split
  · exact objectsWithin_ok
  · exact objectsWithin_error rfl

theorem objects_restore : ObjectsListed s.restore := by
  unfold restore
  split
  · exact objectsWithin_ok
  · exact objectsWithin_error rfl

theorem objects_styleChoice {α : Type} (ofCode? : Int → Option α) (x : Binary64) :
    ObjectsListed (styleChoice ofCode? x) := by
  unfold styleChoice
  dsimp only
  split
  · exact objectsWithin_error rfl
  · split
    · exact objectsWithin_ok
    · exact objectsWithin_error rfl

/-- Both operators that choose a shape. -/
theorem objects_setStyle {α : Type} (ofCode? : Int → Option α)
    (put : GraphicsState → α → GraphicsState) : ObjectsListed (s.setStyle ofCode? put) := by
  unfold setStyle
  split
  · exact objectsWithin_bind (objects_styleChoice _ _) fun _ => objectsWithin_ok
  · exact objectsWithin_error (Complaint.isListed_operands _ _)

theorem objects_setLineWidth : ObjectsListed s.setLineWidth := by
  unfold setLineWidth
  split
  · exact objectsWithin_ok
  · exact objectsWithin_error (Complaint.isListed_operands _ _)

theorem objects_setMiterLimit : ObjectsListed s.setMiterLimit := by
  unfold setMiterLimit
  split
  · split
    · exact objectsWithin_error rfl
    · exact objectsWithin_ok
  · exact objectsWithin_error (Complaint.isListed_operands _ _)

theorem objects_dropGray : ObjectsListed s.dropGray := by
  unfold dropGray
  split
  · exact objectsWithin_ok
  · exact objectsWithin_error (Complaint.isListed_operands _ _)

theorem objects_dropColor : ObjectsListed s.dropColor := by
  unfold dropColor
  split
  · exact objectsWithin_ok
  · exact objectsWithin_error (Complaint.isListed_operands _ _)

theorem objects_define : ObjectsListed s.define := by
  unfold define
  split
  · split
    · exact objectsWithin_ok
    · exact objectsWithin_ok
  · exact objectsWithin_error (Complaint.isListed_operands _ _)

theorem objects_load : ObjectsListed s.load := by
  unfold load
  split
  · split
    · exact objectsWithin_ok
    · exact objectsWithin_error rfl
  · exact objectsWithin_error (Complaint.isListed_operands _ _)

theorem objects_takeCondition : ObjectsListed s.takeCondition := by
  unfold takeCondition
  split
  · split
    · exact objectsWithin_ok
    · exact objectsWithin_error rfl
  · exact objectsWithin_error (Complaint.isListed_operands _ _)

/-- The map in force has no value at a point of numbers that are held, or after a map
    of such. -/
inductive Balks (s : State) : Prop where
  | image {x y : Binary64} : s.Holds (.real x) → s.Holds (.real y) →
      s.graphics.ctm.image? ⟨x, y⟩ = none → Balks s
  | composite {m : Matrix} : (∀ x ∈ m.toList, s.Holds (.real x)) →
      m.mul? s.graphics.ctm = none → Balks s

/-- If the numbers that are held are finite, the map has an infinite entry. -/
theorem unbounded_of_balks (hfinite : ∀ x, s.Holds (.real x) → x.isFinite = true)
    (hnumeric : s.graphics.ctm.Numeric) (h : s.Balks) : s.graphics.ctm.Unbounded := by
  cases h with
  | @image x y hx hy hnone =>
      exact Matrix.unbounded_of_image? hnumeric (hfinite x hx) (hfinite y hy) hnone
  | @composite m hm hnone =>
      exact Matrix.unbounded_of_mul? (fun x hx => hfinite x (hm x hx)) hnumeric hnone

/-- What an operator that applies a map can object to. -/
abbrev MapObjection (s : State) (c : Complaint) : Prop :=
  c.isListed = true ∨ c = .undefinedArithmetic ∧ s.Balks

theorem objects_toDevice {x y : Binary64} {object other : Option Identity}
    (hx : ⟨.real x, other⟩ ∈ s.operands) (hy : ⟨.real y, object⟩ ∈ s.operands) :
    ObjectsWithin s.MapObjection (s.toDevice x y) := by
  unfold toDevice
  cases himage : s.graphics.ctm.image? ⟨x, y⟩ with
  | some p => exact objectsWithin_ok
  | none =>
      exact objectsWithin_error
        (Or.inr ⟨rfl, .image (holds_of_mem hx) (holds_of_mem hy) himage⟩)

/-- Both operators that lead to one point. -/
theorem objects_drawTo (instruction : Point → Instruction) :
    ObjectsWithin s.MapObjection (s.drawTo instruction) := by
  unfold drawTo
  split
  · next y object x other rest hoperands =>
      have hmem := mem_operands [_, _] hoperands
      simp only [List.forall_mem_cons] at hmem
      rcases hmem with ⟨hy, hx, _⟩
      exact objectsWithin_bind (objects_toDevice hx hy) fun _ => objectsWithin_ok
  · exact objectsWithin_error (Or.inl (Complaint.isListed_operands _ _))

theorem objects_curveTo : ObjectsWithin s.MapObjection s.curveTo := by
  unfold curveTo
  split
  · next y₃ b₃ x₃ a₃ y₂ b₂ x₂ a₂ y₁ b₁ x₁ a₁ rest hoperands =>
      have hmem := mem_operands [_, _, _, _, _, _] hoperands
      simp only [List.forall_mem_cons] at hmem
      rcases hmem with ⟨hy₃, hx₃, hy₂, hx₂, hy₁, hx₁, _⟩
      refine objectsWithin_bind (objects_toDevice hx₁ hy₁) fun _ => ?_
      refine objectsWithin_bind (objects_toDevice hx₂ hy₂) fun _ => ?_
      exact objectsWithin_bind (objects_toDevice hx₃ hy₃) fun _ => objectsWithin_ok
  · exact objectsWithin_error (Or.inl (Complaint.isListed_operands _ _))

theorem objects_concatenate : ObjectsWithin s.MapObjection s.concatenate := by
  unfold concatenate
  split
  · next identity items object rest hoperands =>
      have harray := mem_operands [_] hoperands _ List.mem_cons_self
      split
      · exact objectsWithin_error (Or.inl rfl)
      · split
        · exact objectsWithin_error (Or.inl rfl)
        · next m hm =>
            split
            · next hnone =>
                exact objectsWithin_error
                  (Or.inr ⟨rfl, .composite (holds_entries harray hm) hnone⟩)
            · exact objectsWithin_ok
  · exact objectsWithin_error (Or.inl (Complaint.isListed_operands _ _))

end State

/-- Whether an operator applies a map. -/
def Primitive.appliesMap (op : Primitive) : Bool :=
  [Primitive.concat, .moveto, .lineto, .curveto].contains op

/-- What an operator can object to: with complaints of the kinds that have a number, and,
    if it applies a map, that the map has no value. -/
abbrev Primitive.Objection (op : Primitive) (s : State) (c : Complaint) : Prop :=
  c.isListed = true ∨ c = .undefinedArithmetic ∧ op.appliesMap = true ∧ s.Balks

/-- What operators object to. -/
theorem Primitive.objects_perform (limits : Settings) (op : Primitive) (s : State) :
    ObjectsWithin (op.Objection s) (op.perform limits s) := by
  -- Most operators object only with complaints that have a number.
  have hlisted : ∀ r : Except Complaint State, ObjectsListed r → ObjectsWithin (op.Objection s) r :=
    fun r hr => hr.mono fun _ => Or.inl
  have hmap : ∀ r : Except Complaint State, op.appliesMap = true →
      ObjectsWithin s.MapObjection r → ObjectsWithin (op.Objection s) r :=
    fun r happlies hr => hr.mono fun _ hc => hc.imp id fun h => ⟨h.1, happlies, h.2⟩
  cases op with
  | moveto => exact hmap _ rfl (State.objects_drawTo .move)
  | lineto => exact hmap _ rfl (State.objects_drawTo .line)
  | curveto => exact hmap _ rfl State.objects_curveTo
  | concat => exact hmap _ rfl State.objects_concatenate
  | setgray => exact hlisted _ State.objects_dropGray
  | setrgbcolor => exact hlisted _ State.objects_dropColor
  | add => exact hlisted _ (objectsWithin_map (Operands.objects_arithmetic _ _))
  | div => exact hlisted _ (objectsWithin_map (Operands.objects_divide _))
  | mul => exact hlisted _ (objectsWithin_map (Operands.objects_arithmetic _ _))
  | neg => exact hlisted _ (objectsWithin_map (Operands.objects_negate _))
  | sub => exact hlisted _ (objectsWithin_map (Operands.objects_arithmetic _ _))
  | eq => exact hlisted _ (objectsWithin_map (Operands.objects_sameness _ _))
  | ge => exact hlisted _ (objectsWithin_map (Operands.objects_comparison _ _))
  | gt => exact hlisted _ (objectsWithin_map (Operands.objects_comparison _ _))
  | le => exact hlisted _ (objectsWithin_map (Operands.objects_comparison _ _))
  | lt => exact hlisted _ (objectsWithin_map (Operands.objects_comparison _ _))
  | ne => exact hlisted _ (objectsWithin_map (Operands.objects_sameness _ _))
  | not => exact hlisted _ (objectsWithin_map (Operands.objects_complement _))
  | count => exact hlisted _ (State.objects_push? _)
  | dup => exact hlisted _ State.objects_duplicate
  | exch => exact hlisted _ (objectsWithin_map (Operands.objects_exchange _))
  | pop => exact hlisted _ (objectsWithin_map (Operands.objects_drop _))
  | roll => exact hlisted _ (objectsWithin_map (Operands.objects_roll _))
  | matrix => exact hlisted _ State.objects_pushIdentity
  | grestore => exact hlisted _ State.objects_restore
  | gsave => exact hlisted _ State.objects_save
  | setlinecap =>
      exact hlisted _ (State.objects_setStyle LineCap.ofCode? fun g cap => { g with lineCap := cap })
  | setlinejoin =>
      exact hlisted _
        (State.objects_setStyle LineJoin.ofCode? fun g join => { g with lineJoin := join })
  | setlinewidth => exact hlisted _ State.objects_setLineWidth
  | setmiterlimit => exact hlisted _ State.objects_setMiterLimit
  | define => exact hlisted _ State.objects_define
  | load => exact hlisted _ State.objects_load
  | closepath | newpath | clip | eofill | fill | stroke | length | clear | bind =>
      exact objectsWithin_ok

end PathScript
