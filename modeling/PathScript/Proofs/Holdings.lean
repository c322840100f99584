import PathScript.Proofs.Balance
import PathScript.Proofs.Invariant
import PathScript.Proofs.Operators
import PathScript.Proofs.Termination

/-!
# What a Machine Holds

Values are held on the operand stack and by names, and inside other values: as
items of arrays, and in literal procedures, which push what they wrap. They
move between these places as programs put them there, through definitions and
loading, through brackets, and by rearranging the stack. So a property of all
values of some kind, wherever they are, is the property of a whole machine and
not of any one place.

There are only few ways in which a value comes about. Numbers, names and truth
values are made from what is written or computed; a bracket gathers an array; a
brace captures a procedure; and a definition wraps what cannot be invoked. All
else moves values about. `Upheld` lists what has to be known of a property,
one condition for each way, and the theorems here carry it to everything that
a machine ever holds. One way is set apart, since it alone makes a number of
any size without a check: counting the operands. `Sustained` lists the others,
for properties that not every height of the stack has.

Two more facts come with it, since no property of values gives them: names are
bound to what can be invoked, and whatever the source has pending are lexemes.

## Main definitions

* `Value.OccursIn`: A value inside another one, or that one.
* `Value.Throughout`: A property of a value and of everything inside it.
* `State.Holds`: What is on the operand stack or bound to a name, or inside
  what is.
* `Sustained`, `Upheld`: The conditions on a property of values, without the
  heights of stacks and with them.
* `Machine.Upholds`: A machine all of whose values have a property.

## Theorems

* `builtin_cases`, `State.lookup_cases`: What names are bound to, and where.
* `Primitive.keeps_perform`: What operators do to what is held.
* `Sustained.invariant`: A property that is sustained is an invariant.
* `Sustained.sound_after`, `Upheld.sound_after`: It holds of everything that a
  program comes to hold.
-/

namespace PathScript

namespace Value

/-- A value that stands somewhere inside another one, or is that one. -/
inductive OccursIn (v : Value) : Value → Prop where
  | self : OccursIn v v
  | item {item : Value} {identity : Identity} {items : List Value} :
      item ∈ items → OccursIn v item → OccursIn v (.array identity items)
  | wrapped {identity : Identity} {inner : Value} :
      OccursIn v inner → OccursIn v (.literal identity inner)

/-- A property of a value and of everything inside it. -/
def Throughout (P : Value → Prop) (value : Value) : Prop := ∀ v, OccursIn v value → P v

variable {P : Value → Prop} {value : Value}

theorem Throughout.self (h : value.Throughout P) : P value := h value .self

theorem Throughout.wrapped {identity : Identity} {inner : Value}
    (h : (literal identity inner).Throughout P) : inner.Throughout P :=
  fun v hv => h v (.wrapped hv)

/-- Nothing is inside a value that is neither an array nor a literal procedure. -/
theorem throughout_of_flat (harray : ∀ identity items, value ≠ .array identity items)
    (hliteral : ∀ identity inner, value ≠ .literal identity inner) (h : P value) :
    value.Throughout P := by
  intro v hv
  cases hv with
  | self => exact h
  | item _ _ => exact absurd rfl (harray _ _)
  | wrapped _ => exact absurd rfl (hliteral _ _)

theorem throughout_array {identity : Identity} {items : List Value} (h : P (.array identity items))
    (hitems : ∀ item ∈ items, item.Throughout P) : (array identity items).Throughout P := by
  intro v hv
  cases hv with
  | self => exact h
  | item hmem hitem => exact hitems _ hmem v hitem

theorem throughout_literal {identity : Identity} {inner : Value} (h : P (.literal identity inner))
    (hinner : inner.Throughout P) : (literal identity inner).Throughout P := by
  intro v hv
  cases hv with
  | self => exact h
  | wrapped hwrapped => exact hinner v hwrapped

end Value

namespace State

/-- What is on the operand stack or bound to a name, or stands inside what is. -/
def Holds (s : State) (v : Value) : Prop :=
  (∃ cell ∈ s.operands, v.OccursIn cell.value) ∨
    ∃ entry ∈ s.definitions.entries, v.OccursIn entry.2.value

end State

/-- The entries of a dictionary after a definition: the new one and earlier ones. -/
theorem Dictionary.mem_entries_insert {d : Dictionary} {key : String} {cell : Cell}
    {entry : String × Cell} (h : entry ∈ (d.insert key cell).entries) :
    entry = (key, cell) ∨ entry ∈ d.entries := by
  rcases List.mem_cons.mp h with heq | hmem
  · exact Or.inl heq
  · exact Or.inr (List.mem_filter.mp hmem).1

/-- What a name is bound to is an entry of the dictionary. -/
theorem Dictionary.mem_entries_of_find? {d : Dictionary} {key : String} {cell : Cell}
    (h : d.find? key = some cell) : (key, cell) ∈ d.entries := by
  rcases Option.map_eq_some_iff.mp h with ⟨entry, hfind, rfl⟩
  have hfound := List.find?_some hfind
  have hkey : entry.1 = key := beq_iff_eq.mp hfound
  rw [← hkey]
  exact List.mem_of_find?_eq_some hfind

/-- What names have built in: literal procedures around truth values, and
    operators. -/
theorem builtin_cases {key : String} {value : Value} (h : builtin? key = some value) :
    (∃ identity b, value = .literal identity (.bool b)) ∨ ∃ op, value = .operator op := by
  unfold builtin? at h
  split at h
  · exact Or.inl ⟨_, true, (Option.some.inj h).symm⟩
  · split at h
    · exact Or.inl ⟨_, false, (Option.some.inj h).symm⟩
    · rcases Option.map_eq_some_iff.mp h with ⟨op, _, rfl⟩
      exact Or.inr ⟨op, rfl⟩

/-- Where a name is bound: by a definition, or from the start. -/
theorem State.lookup_cases {s : State} {key : String} {cell : Cell}
    (h : s.lookup? key = some cell) :
    (key, cell) ∈ s.definitions.entries ∨ ∃ value, builtin? key = some value ∧ cell = .of value := by
  unfold lookup? at h
  cases hfind : s.definitions.find? key with
  | some found =>
      rw [hfind] at h
      rw [← Option.some.inj h]
      exact Or.inl (Dictionary.mem_entries_of_find? hfind)
  | none =>
      rw [hfind] at h
      rcases Option.map_eq_some_iff.mp h with ⟨value, hvalue, rfl⟩
      exact Or.inr ⟨value, hvalue, rfl⟩

section

variable (P : Value → Prop) (L : List String → Prop)

/-- What has to be known for a property to hold of everything that a machine comes
    to hold, given a property of the lexemes that are run, but for the heights of
    stacks that are counted. -/
structure Sustained : Prop where
  name : ∀ text, P (.name text)
  bool : ∀ b, P (.bool b)
  operator : ∀ op, P (.operator op)
  /-- Numbers that are written, or computed with a check. -/
  real : ∀ x : Binary64, x.isFinite = true → P (.real x)
  negated : ∀ x, P (.real x) → P (.real x.neg)
  array : ∀ identity items, P (.array identity items)
  /-- What a definition wraps. -/
  literal : ∀ identity {inner : Value}, inner.isExecutable = false → P (.literal identity inner)
  /-- The lexemes that a procedure runs. -/
  body : ∀ {identity : Identity} {body : List String}, P (.procedure identity body) → L body
  nil : L []
  /-- The lexemes after one that does not begin a procedure. -/
  tail : ∀ {lexeme : String} {rest : List String}, L (lexeme :: rest) →
    Machine.beginsProcedure lexeme = false → L rest
  /-- A procedure captured from a list, and the lexemes after it. -/
  capture : ∀ {lexeme : String} {rest body left : List String}, L (lexeme :: rest) →
    Machine.beginsProcedure lexeme = true → PathScript.capture 0 rest = .ok (body, left) →
      (∀ identity, P (.procedure identity body)) ∧ L left
  /-- A procedure captured from the source. -/
  captureInput : ∀ {t : Tokenizer} {body : List String}, t.Delivers →
    (t.capture 0).1 = .ok body → ∀ identity, P (.procedure identity body)

/-- The same with the heights of stacks. -/
structure Upheld : Prop extends Sustained P L where
  count : ∀ n : Nat, P (.real (.ofInt n))

/-- A machine all of whose values have a property, with names bound to what can be
    invoked and lexemes pending. -/
structure Machine.Upholds (m : Machine) : Prop where
  operands : ∀ cell ∈ m.operands, cell.value.Throughout P
  definitions : ∀ entry ∈ m.definitions.entries, entry.2.value.Throughout P
  executable : ∀ entry ∈ m.definitions.entries, entry.2.value.isExecutable = true
  delivers : ∀ t, m.input = some t → t.Delivers

/-- What operators may do to what is held: values with a property are put on the
    stack, and at most one name is bound to such a value that can be invoked. -/
structure State.Keeps (s s' : State) : Prop where
  operands : ∀ cell ∈ s'.operands, cell.value.Throughout P
  definitions : s'.definitions = s.definitions ∨
    ∃ key cell, s'.definitions = s.definitions.insert key cell ∧
      cell.value.Throughout P ∧ cell.value.isExecutable = true

end

variable {P : Value → Prop} {L : List String → Prop}

/-- What a machine upholds holds of everything in it. -/
theorem Machine.Upholds.of_holds {m : Machine} (h : m.Upholds P) {v : Value}
    (hv : m.Holds v) : P v := by
  rcases hv with ⟨cell, hmem, hv⟩ | ⟨entry, hmem, hv⟩
  · exact h.operands cell hmem v hv
  · exact h.definitions entry hmem v hv

namespace State

variable {s s' : State} (hs : ∀ cell ∈ s.operands, cell.value.Throughout P)
include hs

/-- An operator that takes some operands off and puts nothing on. -/
theorem keeps_of_taken (taken : List Cell) (hoperands : s.operands = taken ++ s'.operands)
    (hdefinitions : s'.definitions = s.definitions) : s.Keeps P s' := by
  refine ⟨fun cell hmem => hs cell ?_, Or.inl hdefinitions⟩
  rw [hoperands]
  exact List.mem_append_right _ hmem

/-- An operator that puts one value with the property in the place of some
    operands. -/
theorem keeps_of_replaced {cell : Cell} {rest : List Cell} (taken : List Cell)
    (hoperands : s.operands = taken ++ rest) (hcell : cell.value.Throughout P)
    (hoperands' : s'.operands = cell :: rest) (hdefinitions : s'.definitions = s.definitions) :
    s.Keeps P s' := by
  refine ⟨fun other hmem => ?_, Or.inl hdefinitions⟩
  rw [hoperands'] at hmem
  rcases List.mem_cons.mp hmem with rfl | hmem
  · exact hcell
  · refine hs other ?_
    rw [hoperands]
    exact List.mem_append_right _ hmem

/-- A value with the property pushed. -/
theorem keeps_push {value : Value} (hvalue : value.Throughout P) : s.Keeps P (s.push value) := by
  have hcell : (Cell.of value).value.Throughout P := hvalue
  exact keeps_of_replaced hs [] rfl hcell rfl rfl

end State

namespace Sustained

variable (hP : Sustained P L)
include hP

theorem throughout_real {x : Binary64} (h : x.isFinite = true) :
    (Value.real x).Throughout P :=
  Value.throughout_of_flat nofun nofun (hP.real x h)

theorem throughout_bool (b : Bool) : (Value.bool b).Throughout P :=
  Value.throughout_of_flat nofun nofun (hP.bool b)

/-- What a name has built in. -/
theorem throughout_builtin {key : String} {value : Value} (h : builtin? key = some value) :
    value.Throughout P := by
  rcases builtin_cases h with ⟨identity, b, rfl⟩ | ⟨op, rfl⟩
  · exact Value.throughout_literal (hP.literal identity rfl) (hP.throughout_bool b)
  · exact Value.throughout_of_flat nofun nofun (hP.operator op)

/-- What a name is bound to. -/
theorem throughout_lookup {s : State}
    (hs : ∀ entry ∈ s.definitions.entries, entry.2.value.Throughout P) {key : String} {cell : Cell}
    (h : s.lookup? key = some cell) : cell.value.Throughout P := by
  rcases State.lookup_cases h with hmem | ⟨value, hvalue, rfl⟩
  · exact hs _ hmem
  · exact hP.throughout_builtin hvalue

/-- What a definition binds: a value that can be invoked, or a literal procedure
    around any other. -/
theorem keeps_define {s s' : State} (hs : ∀ cell ∈ s.operands, cell.value.Throughout P)
    (h : s.define = .ok s') : s.Keeps P s' := by
  rcases State.define_eq_ok_iff.mp h with ⟨cell, key, object, rest, hoperands, rfl⟩
  have hcell : cell.value.Throughout P :=
    hs cell (by rw [hoperands]; exact List.mem_cons_self)
  have hrest : ∀ other ∈ rest, other.value.Throughout P := fun other hmem =>
    hs other (by rw [hoperands]; exact List.mem_cons_of_mem _ (List.mem_cons_of_mem _ hmem))
  by_cases hexecutable : cell.value.isExecutable = true
  · rw [if_pos hexecutable]
    exact ⟨hrest, Or.inr ⟨key, cell, rfl, hcell, hexecutable⟩⟩
  · rw [if_neg hexecutable]
    -- Whichever identity it gets, it is a literal procedure around the value.
    have hwrapped : ∃ identity, (s.wrap cell).1 = .literal identity cell.value := by
      unfold State.wrap
      split
      · exact ⟨_, rfl⟩
      · exact ⟨_, rfl⟩
    rcases hwrapped with ⟨identity, hwrapped⟩
    refine ⟨hrest, Or.inr ⟨key, .of (s.wrap cell).1, rfl, ?_, ?_⟩⟩
    · change (s.wrap cell).1.Throughout P
      rw [hwrapped]
      exact Value.throughout_literal
        (hP.literal identity (Bool.eq_false_iff.mpr hexecutable)) hcell
    · change (s.wrap cell).1.isExecutable = true
      rw [hwrapped]
      rfl

end Sustained

namespace Operands

/-- A change that leaves no operand without a property. -/
def Keeps (P : Value → Prop) (change : List Cell → Except Complaint (List Cell)) : Prop :=
  ∀ {operands result : List Cell}, change operands = .ok result →
    (∀ cell ∈ operands, cell.value.Throughout P) → ∀ cell ∈ result, cell.value.Throughout P

/-- A value with the property on top of operands that were there before. -/
theorem keeps_cons {operands rest : List Cell} {cell : Cell} (hcell : cell.value.Throughout P)
    (hrest : rest ⊆ operands) (h : ∀ other ∈ operands, other.value.Throughout P) :
    ∀ other ∈ cell :: rest, other.value.Throughout P := by
  intro other hmem
  rcases List.mem_cons.mp hmem with rfl | hmem
  · exact hcell
  · exact h other (hrest hmem)

theorem subset_of_exchange {operands result : List Cell} (h : exchange operands = .ok result) :
    result ⊆ operands := by
  rcases exchange_eq_ok_iff.mp h with ⟨x, y, rest, rfl, rfl⟩
  intro cell hmem
  simp only [List.mem_cons] at hmem ⊢
  exact or_left_comm.mp hmem

theorem subset_of_drop {operands result : List Cell} (h : drop operands = .ok result) :
    result ⊆ operands := by
  rcases drop_eq_ok_iff.mp h with ⟨top, rfl⟩
  exact List.subset_cons_self _ _

/-- Turning values round makes none. -/
theorem subset_of_roll {operands result : List Cell} (h : roll operands = .ok result) :
    result ⊆ operands := by
  rcases roll_eq_ok_iff.mp h with ⟨x, y, object, other, rest, n, j, rfl, _, _, _, _, rfl⟩
  intro cell hmem
  have hrest : cell ∈ rest := by
    rcases List.mem_append.mp hmem with hturned | hbelow
    · rcases List.mem_append.mp hturned with hlast | hfirst
      · exact List.mem_of_mem_take (List.mem_of_mem_drop hlast)
      · exact List.mem_of_mem_take (List.mem_of_mem_take hfirst)
    · exact List.mem_of_mem_drop hbelow
  exact List.mem_cons_of_mem _ (List.mem_cons_of_mem _ hrest)

/-- A change that puts nothing new on the stack. -/
theorem keeps_of_subset {change : List Cell → Except Complaint (List Cell)}
    (hsubset : ∀ {operands result : List Cell}, change operands = .ok result → result ⊆ operands) :
    Keeps P change :=
  fun hchange h cell hmem => h cell (hsubset hchange hmem)

variable (hP : Sustained P L)
include hP

theorem keeps_arithmetic (operation : Binary64 → Binary64 → Binary64) :
    Keeps P (arithmetic operation) := by
  intro operands result hchange h
  rcases arithmetic_eq_ok_iff.mp hchange with ⟨x, y, object, other, rest, rfl, hfinite, rfl⟩
  exact keeps_cons (hP.throughout_real hfinite)
    (List.subset_cons_of_subset _ (List.subset_cons_self _ _)) h

theorem keeps_divide : Keeps P divide :=
  fun hchange => keeps_arithmetic hP Binary64.div (divide_eq_ok_iff.mp hchange).2

theorem keeps_negate : Keeps P negate := by
  intro operands result hchange h
  rcases negate_eq_ok_iff.mp hchange with ⟨x, object, rest, rfl, rfl⟩
  have hx : P (.real x) := (h _ List.mem_cons_self).self
  exact keeps_cons (Value.throughout_of_flat nofun nofun (hP.negated x hx))
    (List.subset_cons_self _ _) h

theorem keeps_sameness (answer : Bool → Bool) : Keeps P (sameness answer) := by
  intro operands result hchange h
  rcases sameness_eq_ok_iff.mp hchange with ⟨x, y, rest, rfl, rfl⟩
  exact keeps_cons (hP.throughout_bool _)
    (List.subset_cons_of_subset _ (List.subset_cons_self _ _)) h

theorem keeps_comparison (relation : Binary64 → Binary64 → Bool) :
    Keeps P (comparison relation) := by
  intro operands result hchange h
  rcases comparison_eq_ok_iff.mp hchange with ⟨x, y, object, other, rest, rfl, rfl⟩
  exact keeps_cons (hP.throughout_bool _)
    (List.subset_cons_of_subset _ (List.subset_cons_self _ _)) h

theorem keeps_complement : Keeps P complement := by
  intro operands result hchange h
  rcases complement_eq_ok_iff.mp hchange with ⟨b, object, rest, rfl, rfl⟩
  exact keeps_cons (hP.throughout_bool _) (List.subset_cons_self _ _) h

end Operands

theorem State.keeps_onOperands {change : List Cell → Except Complaint (List Cell)}
    (hchange : Operands.Keeps P change) {s s' : State}
    (hs : ∀ cell ∈ s.operands, cell.value.Throughout P) (h : s.onOperands change = .ok s') :
    s.Keeps P s' := by
  rcases State.onOperands_eq_ok_iff.mp h with ⟨operands, hoperands, rfl⟩
  exact ⟨hchange hoperands hs, Or.inl rfl⟩

/-- What operators do to what is held. -/
theorem Primitive.keeps_perform (hP : Sustained P L) {limits : Settings} {p : Primitive}
    {s s' : State} (hs : ∀ cell ∈ s.operands, cell.value.Throughout P)
    (hd : ∀ entry ∈ s.definitions.entries, entry.2.value.Throughout P)
    (hcount : p = .count → P (.real (.ofInt s.operands.length)))
    (h : p.perform limits s = .ok s') : s.Keeps P s' := by
  cases p with
  | setgray =>
      rcases State.dropGray_eq_ok_iff.mp h with ⟨x, object, rest, hoperands, rfl⟩
      exact State.keeps_of_taken hs [_] hoperands rfl
  | setrgbcolor =>
      rcases State.dropColor_eq_ok_iff.mp h with ⟨x, y, z, a, b, c, rest, hoperands, rfl⟩
      exact State.keeps_of_taken hs [_, _, _] hoperands rfl
  | closepath =>
      rw [← Except.ok.inj h]
      unfold State.closePath
      split <;> exact State.keeps_of_taken hs [] rfl rfl
  | curveto =>
      rcases State.curveTo_eq_ok_iff.mp h with
        ⟨_, _, _, _, _, _, _, _, _, _, _, _, rest, _, _, _, hoperands, _, _, _, rfl⟩
      exact State.keeps_of_taken hs [_, _, _, _, _, _] hoperands rfl
  | lineto =>
      rcases State.lineTo_eq_ok_iff.mp h with ⟨x, y, object, other, rest, p, hoperands, _, rfl⟩
      exact State.keeps_of_taken hs [_, _] hoperands rfl
  | moveto =>
      rcases State.moveTo_eq_ok_iff.mp h with ⟨x, y, object, other, rest, p, hoperands, _, rfl⟩
      exact State.keeps_of_taken hs [_, _] hoperands rfl
  | add => exact State.keeps_onOperands (Operands.keeps_arithmetic hP _) hs h
  | div => exact State.keeps_onOperands (Operands.keeps_divide hP) hs h
  | mul => exact State.keeps_onOperands (Operands.keeps_arithmetic hP _) hs h
  | neg => exact State.keeps_onOperands (Operands.keeps_negate hP) hs h
  | sub => exact State.keeps_onOperands (Operands.keeps_arithmetic hP _) hs h
  | eq => exact State.keeps_onOperands (Operands.keeps_sameness hP _) hs h
  | ge => exact State.keeps_onOperands (Operands.keeps_comparison hP _) hs h
  | gt => exact State.keeps_onOperands (Operands.keeps_comparison hP _) hs h
  | le => exact State.keeps_onOperands (Operands.keeps_comparison hP _) hs h
  | lt => exact State.keeps_onOperands (Operands.keeps_comparison hP _) hs h
  | ne => exact State.keeps_onOperands (Operands.keeps_sameness hP _) hs h
  | not => exact State.keeps_onOperands (Operands.keeps_complement hP) hs h
  | clear =>
      rw [← Except.ok.inj h]
      exact ⟨nofun, Or.inl rfl⟩
  | count =>
      rcases State.push?_eq_ok_iff.mp h with ⟨_, rfl⟩
      exact State.keeps_push hs (Value.throughout_of_flat nofun nofun (hcount rfl))
  | dup =>
      rcases State.duplicate_eq_ok_iff.mp h with ⟨cell, rest, hoperands, _, rfl⟩
      have hcell : cell.value.Throughout P :=
        hs cell (by rw [hoperands]; exact List.mem_cons_self)
      exact State.keeps_push hs hcell
  | exch => exact State.keeps_onOperands (Operands.keeps_of_subset Operands.subset_of_exchange) hs h
  | pop => exact State.keeps_onOperands (Operands.keeps_of_subset Operands.subset_of_drop) hs h
  | roll => exact State.keeps_onOperands (Operands.keeps_of_subset Operands.subset_of_roll) hs h
  | concat =>
      rcases State.concatenate_eq_ok_iff.mp h with
        ⟨identity, items, object, rest, m, ctm, hoperands, _, _, _, rfl⟩
      exact State.keeps_of_taken hs [_] hoperands rfl
  | matrix =>
      rcases State.pushIdentity_eq_ok_iff.mp h with ⟨_, rfl⟩
      refine State.keeps_of_replaced hs [] rfl
        (Value.throughout_array (hP.array _ _) fun item hmem => ?_) rfl rfl
      -- The map that moves nothing consists of zeros and ones.
      rcases List.mem_map.mp hmem with ⟨x, hx, rfl⟩
      have hfinite : ∀ y ∈ Matrix.identity.toList, y.isFinite = true := by decide +kernel
      exact hP.throughout_real (hfinite x hx)
  | grestore =>
      rcases State.restore_eq_ok_iff.mp h with ⟨g, saved, _, rfl⟩
      exact State.keeps_of_taken hs [] rfl rfl
  | gsave =>
      rcases State.save_eq_ok_iff.mp h with ⟨_, rfl⟩
      exact State.keeps_of_taken hs [] rfl rfl
  | setlinecap =>
      rcases State.setLineCap_eq_ok_iff.mp h with ⟨x, object, rest, cap, hoperands, _, rfl⟩
      exact State.keeps_of_taken hs [_] hoperands rfl
  | setlinejoin =>
      rcases State.setLineJoin_eq_ok_iff.mp h with ⟨x, object, rest, join, hoperands, _, rfl⟩
      exact State.keeps_of_taken hs [_] hoperands rfl
  | setlinewidth =>
      rcases State.setLineWidth_eq_ok_iff.mp h with ⟨x, object, rest, hoperands, rfl⟩
      exact State.keeps_of_taken hs [_] hoperands rfl
  | setmiterlimit =>
      rcases State.setMiterLimit_eq_ok_iff.mp h with ⟨x, object, rest, hoperands, _, rfl⟩
      exact State.keeps_of_taken hs [_] hoperands rfl
  | define => exact hP.keeps_define hs h
  | load =>
      rcases State.load_eq_ok_iff.mp h with ⟨key, object, rest, cell, hoperands, hlookup, rfl⟩
      exact State.keeps_of_replaced hs [_] hoperands (hP.throughout_lookup hd hlookup) rfl rfl
  | newpath | clip | eofill | fill | stroke | length | bind =>
      rw [← Except.ok.inj h]
      exact State.keeps_of_taken hs [] rfl rfl

namespace Machine

variable {m : Machine} (hm : m.Upholds P)
include hm

/-- A machine whose state an operator has changed. -/
theorem upholds_of_keeps {s : State} (h : m.Keeps P s) :
    Upholds P { m with toState := s } := by
  -- An entry is the new one or was there before.
  refine ⟨h.operands, ?_, ?_, hm.delivers⟩
  · rcases h.definitions with hsame | ⟨key, cell, hinsert, hcell, _⟩
    · simp only [hsame]
      exact hm.definitions
    · intro entry hmem
      simp only [hinsert] at hmem
      rcases Dictionary.mem_entries_insert hmem with rfl | hmem
      · exact hcell
      · exact hm.definitions entry hmem
  · rcases h.definitions with hsame | ⟨key, cell, hinsert, _, hexecutable⟩
    · simp only [hsame]
      exact hm.executable
    · intro entry hmem
      simp only [hinsert] at hmem
      rcases Dictionary.mem_entries_insert hmem with rfl | hmem
      · exact hexecutable
      · exact hm.executable entry hmem

/-- A machine that has read on in its source. -/
theorem upholds_withInput {t : Tokenizer} (ht : t.Delivers) :
    Upholds P { m with input := some t } := by
  refine ⟨hm.operands, hm.definitions, hm.executable, fun other h => ?_⟩
  rw [← Option.some.inj h]
  exact ht

/-- A machine with fewer operands and other open brackets. -/
theorem upholds_of_subset {operands : List Cell} {marks : List Nat}
    (h : operands ⊆ m.operands) : Upholds P { m with operands := operands, marks := marks } :=
  ⟨fun cell hmem => hm.operands cell (h hmem), hm.definitions, hm.executable, hm.delivers⟩

/-- A closing bracket puts an array of operands in their place. -/
theorem upholds_closeArray (hP : Sustained P L) : m.closeArray.machine.Upholds P := by
  rcases hmarks : m.marks with _ | ⟨height, marks⟩
  · rw [closeArray_of_nil hmarks]
    exact hm
  · rcases Nat.lt_or_ge m.operands.length height with hlt | hle
    · rw [closeArray_of_lt hmarks hlt]
      exact upholds_of_subset hm (List.Subset.refl _)
    · rw [closeArray_of_le hmarks hle]
      have hcleared : (m.cleared height marks).Upholds P :=
        upholds_of_subset hm (List.drop_subset _ _)
      split
      · refine ⟨fun cell hmem => ?_, hm.definitions, hm.executable, hm.delivers⟩
        rcases List.mem_cons.mp hmem with rfl | hmem
        · -- The items are the values of operands.
          refine Value.throughout_array (hP.array _ _) fun item hitem => ?_
          rcases List.mem_map.mp hitem with ⟨cell, hcell, rfl⟩
          exact hm.operands cell (List.mem_of_mem_take (List.mem_reverse.mp hcell))
        · exact hcleared.operands cell hmem
      · exact hcleared

end Machine

/-- A property that is sustained is an invariant if the stack is only counted where
    its height has the property. -/
theorem Sustained.invariant (hP : Sustained P L) :
    Invariant (fun p m => p = .count → P (.real (.ofInt m.operands.length)))
      (Machine.Upholds P) (Value.Throughout P) L where
  name := fun text => Value.throughout_of_flat nofun nofun (hP.name text)
  real := fun _ hfinite => hP.throughout_real hfinite
  literal := fun h => h.wrapped
  procedure := fun h => hP.body h.self
  lookup := fun hm hlookup => hP.throughout_lookup hm.definitions hlookup
  nil := hP.nil
  tail := hP.tail
  capture := by
    intro lexeme rest body left hlexemes hbegins hcapture
    rcases hP.capture hlexemes hbegins hcapture with ⟨hbody, hleft⟩
    exact ⟨fun identity => Value.throughout_of_flat nofun nofun (hbody identity), hleft⟩
  captureInput := fun hm hinput hcapture identity =>
    Value.throughout_of_flat nofun nofun
      (hP.captureInput (hm.delivers _ hinput) hcapture identity)
  next := fun hm hinput =>
    Machine.upholds_withInput hm (Tokenizer.delivers_next (hm.delivers _ hinput))
  readBody := fun hm hinput =>
    Machine.upholds_withInput hm (Tokenizer.delivers_capture (hm.delivers _ hinput)).1
  skip := fun hm _ => Machine.upholds_withInput hm (Tokenizer.delivers_skipTo _ _)
  push := by
    intro m value s hm hvalue hpush
    rcases State.push?_eq_ok_iff.mp hpush with ⟨_, rfl⟩
    exact Machine.upholds_of_keeps hm (State.keeps_push hm.operands hvalue)
  pushProcedure := by
    intro m body s hm hbody hpush
    rcases State.pushProcedure?_eq_ok_iff.mp hpush with ⟨_, rfl⟩
    exact Machine.upholds_of_keeps hm
      (State.keeps_of_replaced hm.operands [] rfl (hbody _) rfl rfl)
  openArray := fun hm => Machine.upholds_of_subset hm (List.Subset.refl _)
  closeArray := fun hm => Machine.upholds_closeArray hm hP
  perform := fun hm hcount hperform => Machine.upholds_of_keeps hm
    (Primitive.keeps_perform hP hm.operands hm.definitions hcount hperform)
  dropOperand := by
    intro m cell rest hm hoperands
    refine Machine.upholds_of_subset hm ?_
    rw [hoperands]
    exact List.subset_cons_self _ _
  condition := by
    intro m target s hm hcondition
    -- What is executed is the operand that was on top.
    rcases State.takeCondition_eq_ok_iff.mp hcondition with
      ⟨value, object, b, other, rest, hoperands, _, rfl, rfl⟩
    refine ⟨Machine.upholds_of_keeps hm
      (State.keeps_of_taken hm.operands [_, _] hoperands rfl), fun v hv => ?_⟩
    have hvalue : value.Throughout P :=
      hm.operands ⟨value, object⟩ (by rw [hoperands]; exact List.mem_cons_self)
    cases b with
    | true => rwa [← Option.some.inj hv]
    | false => exact absurd hv (by simp only [Bool.false_eq_true, if_false, Option.not_mem_none,
        not_false_eq_true])
  enter := fun hm _ => ⟨hm.operands, hm.definitions, hm.executable, hm.delivers⟩
  leave := fun hm => ⟨hm.operands, hm.definitions, hm.executable, hm.delivers⟩

/-- A machine that has done nothing yet holds nothing. -/
theorem Machine.upholds_start (P : Value → Prop) (settings : Settings) (source : Source) :
    (Machine.start settings source).Upholds P := by
  refine ⟨nofun, nofun, nofun, fun t h => ?_⟩
  rw [← Option.some.inj h]
  cases source with
  | text program => exact nofun
  | bytes program => exact nofun

/-- A property that is sustained holds of everything that a program comes to hold, if
    it holds of the heights that are counted on the way, and what is left to run of a
    body has the property of lexemes. -/
theorem Sustained.sound_after (hP : Sustained P L) (settings : Settings) (source : Source)
    {supply : Supply} (hsupply : ∀ lexemes, supply = .list lexemes → L lexemes) (n : Nat)
    (hcount : ∀ k < n, let p := (Process.start (.start settings source) supply).after k
      p.performing? = some .count → P (.real (.ofInt p.run.machine.operands.length))) :
    ((Process.start (.start settings source) supply).after n).Sound (Machine.Upholds P)
      (Value.Throughout P) L := by
  refine hP.invariant.sound_after (p := Process.start (.start settings source) supply)
    (Invariant.sound_singleton (Machine.upholds_start P settings source) ?_) n ?_
  · cases supply with
    | list lexemes => exact hsupply lexemes rfl
    | input => trivial
  · rintro k hk op hop rfl
    exact hcount k hk hop

/-- A property that is upheld holds of everything that a program comes to hold, and
    what is left to run of a body has the property of lexemes. -/
theorem Upheld.sound_after (hP : Upheld P L) (settings : Settings) (source : Source)
    {supply : Supply} (hsupply : ∀ lexemes, supply = .list lexemes → L lexemes) (n : Nat) :
    ((Process.start (.start settings source) supply).after n).Sound (Machine.Upholds P)
      (Value.Throughout P) L :=
  hP.toSustained.sound_after settings source hsupply n fun _ _ _ => hP.count _

end PathScript
