import Mathlib.Data.List.TakeDrop
import PathScript.Number.Literal
import PathScript.Proofs.Lexemes
import PathScript.Proofs.ReadBack

/-!
# Written Numbers

What is written for a decimal is read as that decimal, or as the same decimal
in another form. The layout of a written number decides where the point goes
and whether there is an exponent. None of that matters for what is read, since
each layout keeps all digits and moves the point by as many places as the
exponent makes up for.

Reading is described once, for digits with or without a point before an
exponent that may be missing, and the layouts are instances of it. With
`Proofs.ReadBack` it follows that a finite number is read back from its written
form. The exception is negative zero, which is written without its sign.

From the other side, whatever can be read as a number begins with a digit, a
point or a minus sign and consists of characters that continue a lexeme. So a
written number is one lexeme, and one that is meant as a number.

## Theorems

* `Literal.digitsValue_toDigits`: The digits of a number have its value.
* `Literal.parse?_point`, `Literal.parse?_whole`: Reading digits with and
  without a point.
* `Literal.value?_finite`: Reading a decimal in any layout.
* `Literal.value?_compact`: Reading a number as values are written.
* `Literal.isLexeme_of_value`: What can be read as a number is a lexeme.
-/

namespace PathScript

namespace Literal

/-- Digits that are put after others move those to the left. -/
theorem digitsValue_append (first second : List Char) :
    digitsValue (first ++ second)
      = digitsValue first * tenTo second.length + digitsValue second := by
  have hfold : ∀ (digits : List Char) (start : Nat),
      digits.foldl (fun value c => value * 10 + (c.toNat - '0'.toNat)) start
        = start * tenTo digits.length + digitsValue digits := by
    intro digits
    induction digits with
    | nil =>
        intro start
        exact (Nat.mul_one start).symm
    | cons c digits ih =>
        intro start
        have hcons : digitsValue (c :: digits)
            = (0 * 10 + (c.toNat - '0'.toNat)) * tenTo digits.length + digitsValue digits :=
          ih (0 * 10 + (c.toNat - '0'.toNat))
        rw [List.foldl_cons, ih, hcons, List.length_cons, tenTo_succ, Nat.zero_mul, Nat.zero_add,
          Nat.add_mul, Nat.mul_assoc, Nat.mul_comm 10, Nat.add_assoc]
  rw [digitsValue, List.foldl_append]
  exact hfold second _

theorem digitsValue_zeros (count : Nat) : digitsValue (List.replicate count '0') = 0 := by
  induction count with
  | zero => rfl
  | succ count ih =>
      rw [List.replicate_succ']
      rw [digitsValue_append, ih, Nat.zero_mul]
      rfl

theorem isDigit_of_mem_zeros {count : Nat} {c : Char} (h : c ∈ List.replicate count '0') :
    isDigit c = true := by
  rw [List.eq_of_mem_replicate h]
  rfl

/-- The digits of a number are digits and have its value. -/
theorem digitsValue_toDigits (n : Nat) :
    (∀ c ∈ Nat.toDigits 10 n, isDigit c = true) ∧ digitsValue (Nat.toDigits 10 n) = n := by
  have hdigit : ∀ d < 10, isDigit d.digitChar = true ∧ digitsValue [d.digitChar] = d := by decide
  induction n using Nat.strongRecOn with
  | ind n ih =>
      by_cases hsmall : n < 10
      · rw [Nat.toDigits_of_lt_base hsmall]
        refine ⟨fun c hc => ?_, (hdigit n hsmall).2⟩
        rw [List.mem_singleton.mp hc]
        exact (hdigit n hsmall).1
      · -- The last digit comes after those of a tenth of the number.
        have hlast : n % 10 < 10 := Nat.mod_lt n (by decide)
        have hsplit : Nat.toDigits 10 n = Nat.toDigits 10 (n / 10) ++ [(n % 10).digitChar] := by
          rw [← Nat.toDigits_of_lt_base hlast,
            Nat.toDigits_append_toDigits (by decide) (by omega) hlast, Nat.div_add_mod]
        rcases ih (n / 10) (by omega) with ⟨hdigits, hvalue⟩
        rw [hsplit]
        refine ⟨fun c hc => ?_, ?_⟩
        · rcases List.mem_append.mp hc with hfirst | hc
          · exact hdigits c hfirst
          · rw [List.mem_singleton.mp hc]
            exact (hdigit _ hlast).1
        · rw [digitsValue_append, hvalue, (hdigit _ hlast).2]
          exact Nat.div_add_mod' n 10

/-- A sign before digits. -/
theorem splitSign_sign (negative : Bool) {rest : List Char} (h : ∀ c ∈ rest.head?, c ≠ '-') :
    splitSign ((Layout.sign negative).toList ++ rest) = (negative, rest) := by
  cases negative with
  | true => rfl
  | false =>
      change splitSign rest = (false, rest)
      unfold splitSign
      split
      · exact absurd rfl (h '-' rfl)
      · rfl

/-- An exponent begins with neither a digit nor a point. -/
theorem head_of_parseExponent {tail : List Char} {e : Int} (h : parseExponent? tail = some e) :
    ∀ c ∈ tail.head?, isDigit c = false ∧ c ≠ '.' := by
  intro c hc
  unfold parseExponent? at h
  split at h
  · exact absurd hc (by simp only [List.head?_nil, Option.not_mem_none, not_false_eq_true])
  · rw [← Option.some.inj hc]
    decide
  · rw [← Option.some.inj hc]
    decide
  · exact absurd h (by simp only [reduceCtorEq, not_false_eq_true])

section

variable {whole fraction tail : List Char} {e : Int} (negative : Bool)
  (hne : whole ≠ []) (hwhole : ∀ c ∈ whole, isDigit c = true)
include hne hwhole

/-- Digits do not begin with a sign. -/
theorem head_of_digits (rest : List Char) : ∀ c ∈ (whole ++ rest).head?, c ≠ '-' := by
  cases whole with
  | nil => exact absurd rfl hne
  | cons first others =>
      intro c hc hsign
      have hfirst := hwhole first List.mem_cons_self
      rw [Option.some.inj hc, hsign] at hfirst
      exact absurd hfirst (by decide)

/-- Reading digits with a point. -/
theorem parse?_point (hfraction : ∀ c ∈ fraction, isDigit c = true)
    (htail : parseExponent? tail = some e) :
    parse? ((Layout.sign negative).toList ++ (whole ++ '.' :: (fraction ++ tail)))
      = some (.finite negative (digitsValue (whole ++ fraction)) (e - fraction.length)) := by
  -- The point ends the first run of digits and the exponent the second.
  have hpoint : ∀ c ∈ ('.' :: (fraction ++ tail)).head?, isDigit c = false := by
    intro c hc
    rw [← Option.some.inj hc]
    rfl
  have hend : ∀ c ∈ tail.head?, isDigit c = false :=
    fun c hc => (head_of_parseExponent htail c hc).1
  have hempty : whole.isEmpty = false := List.isEmpty_eq_false_iff.mpr hne
  unfold parse?
  simp only [splitSign_sign negative (head_of_digits hne hwhole _), splitFraction,
    List.span_eq_takeWhile_dropWhile, takeWhile_append_of_head hwhole hpoint,
    dropWhile_append_of_head hwhole hpoint, takeWhile_append_of_head hfraction hend,
    dropWhile_append_of_head hfraction hend, hempty, Bool.false_and, Bool.false_eq_true, if_false,
    htail, Option.map_some]

/-- Reading digits without a point. -/
theorem parse?_whole (htail : parseExponent? tail = some e) :
    parse? ((Layout.sign negative).toList ++ (whole ++ tail))
      = some (.finite negative (digitsValue whole) e) := by
  have hend : ∀ c ∈ tail.head?, isDigit c = false :=
    fun c hc => (head_of_parseExponent htail c hc).1
  have hempty : whole.isEmpty = false := List.isEmpty_eq_false_iff.mpr hne
  have hfraction : splitFraction tail = ([], tail) := by
    unfold splitFraction
    split
    · exact absurd rfl (head_of_parseExponent htail '.' rfl).2
    · rfl
  unfold parse?
  simp only [splitSign_sign negative (head_of_digits hne hwhole _),
    List.span_eq_takeWhile_dropWhile, takeWhile_append_of_head hwhole hend,
    dropWhile_append_of_head hwhole hend, hfraction, hempty, Bool.false_and, Bool.false_eq_true,
    if_false, htail, Option.map_some, List.append_nil, List.length_nil, Int.ofNat_zero,
    Int.sub_zero]

end

/-- Digits of a number with zeros before them. -/
theorem parseDigits?_zeros (count n : Nat) :
    parseDigits? (List.replicate count '0' ++ Nat.toDigits 10 n) = some n := by
  rcases digitsValue_toDigits n with ⟨hdigits, hvalue⟩
  have hne : (List.replicate count '0' ++ Nat.toDigits 10 n).isEmpty = false :=
    List.isEmpty_eq_false_iff.mpr (List.append_ne_nil_of_right_ne_nil _ Nat.toDigits_ne_nil)
  have hall : (List.replicate count '0' ++ Nat.toDigits 10 n).all isDigit = true := by
    refine List.all_eq_true.mpr fun c hc => ?_
    rcases List.mem_append.mp hc with hzero | hdigit
    · exact isDigit_of_mem_zeros hzero
    · exact hdigits c hdigit
  unfold parseDigits?
  rw [hne, hall, digitsValue_append, digitsValue_zeros, hvalue, Nat.zero_mul, Nat.zero_add]
  rfl

/-- The exponent of a written number. -/
theorem parseExponent?_order (order : Int) (count : Nat) :
    parseExponent? ((if order < 0 then "e-" else "e+").toList
      ++ (List.replicate count '0' ++ Nat.toDigits 10 order.natAbs)) = some order := by
  split
  · change parseSigned? ('-' :: (List.replicate count '0' ++ Nat.toDigits 10 order.natAbs)) = _
    rw [parseSigned?, parseDigits?_zeros]
    change some (-(order.natAbs : Int)) = some order
    rw [Option.some.injEq]
    omega
  · change parseSigned? ('+' :: (List.replicate count '0' ++ Nat.toDigits 10 order.natAbs)) = _
    rw [parseSigned?, parseDigits?_zeros]
    change some (order.natAbs : Int) = some order
    rw [Option.some.injEq]
    omega

section

variable (negative : Bool) {digits : List Char} (hne : digits ≠ [])
  (hdigits : ∀ c ∈ digits, isDigit c = true) (e : Int)

/-- Reading digits with a point and no exponent: the decimal may be one with fewer
    zeros. -/
theorem value?_point (whole fraction : List Char) (k : Nat) {text : String} {c : Nat}
    (htext : text.toList = (Layout.sign negative).toList ++ (whole ++ '.' :: fraction))
    (hwhole : whole ≠ []) (hall : ∀ c ∈ whole ++ fraction, isDigit c = true)
    (hvalue : digitsValue (whole ++ fraction) = c * tenTo k)
    (hplaces : e - k = -(fraction.length : Int)) :
    value? text = some (Decimal.finite negative c e).toBinary64 := by
  have hbefore : ∀ c ∈ whole, isDigit c = true :=
    fun c hc => hall c (List.mem_append_left _ hc)
  have hafter : ∀ c ∈ fraction, isDigit c = true :=
    fun c hc => hall c (List.mem_append_right _ hc)
  have htail : parseExponent? [] = some 0 := rfl
  have hread := parse?_point negative hwhole hbefore hafter htail
  rw [List.append_nil, ← htext, hvalue, Int.zero_sub, ← hplaces] at hread
  rw [value?, hread, Option.map_some, Decimal.toBinary64_mul_tenTo]

include hne hdigits

/-- Reading a decimal that is written with all its places. -/
theorem value?_positional :
    value? (Layout.sign negative
        ++ Layout.positional (String.ofList digits) (e + (digits.length : Int)))
      = some (Decimal.finite negative (digitsValue digits) e).toBinary64 := by
  generalize hplace : e + (digits.length : Int) = place
  have hzeros : ∀ (count : Nat), ∀ c ∈ List.replicate count '0', isDigit c = true :=
    fun _ _ => isDigit_of_mem_zeros
  unfold Layout.positional
  simp only [String.toList_ofList]
  split
  · -- The point comes before all digits.
    refine value?_point negative e ['0'] (List.replicate (-place).toNat '0' ++ digits) 0 ?_
      (List.cons_ne_nil _ _) ?_ ?_ ?_
    · simp only [String.toList_append, Layout.zeros, String.toList_ofList, List.append_assoc]
      rfl
    · rw [List.singleton_append]
      exact List.forall_mem_cons.mpr ⟨rfl, List.forall_mem_append.mpr ⟨hzeros _, hdigits⟩⟩
    · rw [digitsValue_append, digitsValue_append, digitsValue_zeros]
      simp only [show digitsValue ['0'] = 0 from rfl, Nat.zero_mul, Nat.zero_add]
      exact (Nat.mul_one _).symm
    · rw [List.length_append, List.length_replicate]
      omega
  · split
    · -- The point comes after all digits, and zeros fill the places up to it.
      refine value?_point negative e
        (digits ++ List.replicate (place.toNat - digits.length) '0') ['0']
        (place.toNat - digits.length + 1) ?_ (List.append_ne_nil_of_left_ne_nil hne _) ?_ ?_ ?_
      · simp only [String.toList_append, Layout.zeros, String.toList_ofList]
        rfl
      · exact List.forall_mem_append.mpr ⟨List.forall_mem_append.mpr ⟨hdigits, hzeros _⟩,
          List.forall_mem_singleton.mpr rfl⟩
      · rw [digitsValue_append, digitsValue_append, digitsValue_zeros, List.length_replicate,
          tenTo_succ, ← Nat.mul_assoc]
        rfl
      · rw [List.length_singleton]
        omega
    · -- The point comes between two digits.
      refine value?_point negative e (digits.take place.toNat) (digits.drop place.toNat) 0
        ?_ ?_ ?_ ?_ ?_
      · simp only [String.toList_append, String.toList_ofList, List.append_assoc]
        rfl
      · intro hnil
        rcases List.take_eq_nil_iff.mp hnil with hzero | hnil
        · omega
        · exact hne hnil
      · rwa [List.take_append_drop]
      · rw [List.take_append_drop]
        exact (Nat.mul_one _).symm
      · rw [List.length_drop]
        omega

/-- Reading a decimal that is written with an exponent. -/
theorem value?_scientific (layout : Layout) :
    value? (Layout.sign negative
        ++ layout.scientific (String.ofList digits) (e + (digits.length : Int) - 1))
      = some (Decimal.finite negative (digitsValue digits) e).toBinary64 := by
  generalize horder : e + (digits.length : Int) - 1 = order
  have hexponent : (toString order.natAbs).toList = Nat.toDigits 10 order.natAbs := Nat.toList_repr
  unfold value? Layout.scientific
  simp only [String.toList_append, Layout.zeros, String.toList_ofList, hexponent]
  generalize layout.exponentDigits - (toString order.natAbs).length = count
  have htail := parseExponent?_order order count
  cases digits with
  | nil => exact absurd rfl hne
  | cons first rest =>
      have hfirst : ∀ d ∈ [first], isDigit d = true :=
        List.forall_mem_singleton.mpr (hdigits first List.mem_cons_self)
      rw [List.length_cons] at horder
      cases rest with
      | nil =>
          have hread := parse?_whole negative (List.cons_ne_nil _ _) hfirst htail
          have horder' : order = e := by
            rw [← horder, List.length_nil]
            omega
          simp only [List.take_succ_cons, List.take_zero, List.drop_succ_cons, List.drop_zero,
            List.isEmpty_nil, if_true, String.toList_ofList, List.append_assoc]
          rw [hread, Option.map_some, horder']
      | cons second others =>
          have hrest : ∀ d ∈ second :: others, isDigit d = true :=
            fun d hd => hdigits d (List.mem_cons_of_mem _ hd)
          have hread := parse?_point negative (List.cons_ne_nil _ _) hfirst hrest htail
          have horder' : order - ((second :: others).length : Int) = e := by omega
          simp only [List.take_succ_cons, List.take_zero, List.drop_succ_cons, List.drop_zero,
            List.isEmpty_cons, Bool.false_eq_true, if_false, String.toList_append,
            String.toList_ofList, List.append_assoc]
          change (parse? ((Layout.sign negative).toList
            ++ ([first] ++ '.' :: (second :: others ++ _)))).map _ = _
          rw [hread, Option.map_some, List.singleton_append, horder']

end

/-- Reading a decimal in any layout. -/
theorem value?_finite (negative : Bool) (c : Nat) (e : Int) (layout : Layout) :
    value? (Layout.sign negative ++ layout.finite c e)
      = some (Decimal.finite negative c e).toBinary64 := by
  rcases digitsValue_toDigits c with ⟨hdigits, hvalue⟩
  have htext : toString c = String.ofList (Nat.toDigits 10 c) := rfl
  have hlength : (toString c).length = (Nat.toDigits 10 c).length := by
    rw [← String.length_toList, htext, String.toList_ofList]
  unfold Layout.finite
  dsimp only
  split
  · next hzero =>
      rw [hzero, Decimal.toBinary64_zero, ← Decimal.toBinary64_zero negative 0]
      have hdigit : ∀ d ∈ ['0', '0'], isDigit d = true :=
        List.forall_mem_cons.mpr ⟨rfl, List.forall_mem_singleton.mpr rfl⟩
      exact value?_point negative 0 ['0'] ['0'] 1 String.toList_append (List.cons_ne_nil _ _)
        hdigit rfl rfl
  · rw [hlength, htext]
    have hpositional := value?_positional negative Nat.toDigits_ne_nil hdigits e
    have hscientific := value?_scientific negative Nat.toDigits_ne_nil hdigits e layout
    rw [hvalue] at hpositional hscientific
    split
    · exact hpositional
    · exact hscientific

/-- Reading an integer. -/
theorem value?_toString (n : Int) :
    value? (toString n) = some (Decimal.finite (decide (n < 0)) n.natAbs 0).toBinary64 := by
  rcases digitsValue_toDigits n.natAbs with ⟨hdigits, hvalue⟩
  have htext : (toString n).toList
      = (Layout.sign (decide (n < 0))).toList ++ (Nat.toDigits 10 n.natAbs ++ []) := by
    rw [List.append_nil]
    cases n with
    | ofNat m =>
        rw [show decide (Int.ofNat m < 0) = false from rfl]
        exact Nat.toList_repr
    | negSucc m =>
        rw [decide_eq_true (Int.negSucc_lt_zero m)]
        change ("-" ++ (m + 1).repr).toList = _
        rw [String.toList_append, Nat.toList_repr]
        rfl
  unfold value?
  rw [htext, parse?_whole _ Nat.toDigits_ne_nil hdigits rfl, hvalue, Option.map_some]

/-- Reading a number as values are written: it is the same but for the sign of
    zero. -/
theorem value?_compact (negative : Bool) (position : Fin finiteMagnitudes) :
    ∃ y, value? (Binary64.finite negative position).compact = some y ∧ y.isFinite = true ∧
      y.eq (.finite negative position) = true := by
  unfold Binary64.compact Binary64.toInt?
  cases hinteger : (Binary64.finite negative position).isInteger with
  | true =>
      let whole := Binary64.quantaAt position / Binary64.quantaPerOne
      have hread := value?_toString (signed negative whole)
      -- Being an integer does not depend on the sign.
      have hinteger' : (Binary64.finite (decide (signed negative whole < 0)) position).isInteger
          = true := hinteger
      rw [natAbs_signed, Binary64.toBinary64_quotient hinteger'] at hread
      refine ⟨_, hread, rfl, Binary64.eq_of_place rfl ?_⟩
      change some (signed negative (Binary64.quantaAt position))
        = some (signed (decide (signed negative whole < 0)) (Binary64.quantaAt position))
      -- The sign is lost where there is nothing but a sign.
      rcases Nat.eq_zero_or_pos whole with hzero | hpos
      · have hquanta : Binary64.quantaAt position = 0 := by
          have hmod : Binary64.quantaAt position % Binary64.quantaPerOne = 0 := beq_iff_eq.mp hinteger
          have hdiv := Nat.div_add_mod (Binary64.quantaAt position) Binary64.quantaPerOne
          rw [show Binary64.quantaAt position / Binary64.quantaPerOne = 0 from hzero, hmod,
            Nat.mul_zero] at hdiv
          exact hdiv.symm
        rw [hquanta, signed_zero, signed_zero]
      · have hsign : decide (signed negative whole < 0) = negative := by
          cases negative with
          | true => exact decide_eq_true (show -(whole : Int) < 0 by omega)
          | false => exact decide_eq_false (show ¬ (whole : Int) < 0 by omega)
        rw [hsign]
  | false =>
      rcases Binary64.toBinary64_toDecimal negative position with ⟨c, e, hdecimal, hreads⟩
      have hread := value?_finite negative c e Layout.plain
      rw [hreads] at hread
      refine ⟨.finite negative position, ?_, rfl, Binary64.eq_of_place rfl rfl⟩
      simp only [Bool.false_eq_true, if_false, Binary64.text, Layout.write, hdecimal]
      exact hread

/-- The characters of numbers. -/
def numerals : List Char :=
  ['0', '1', '2', '3', '4', '5', '6', '7', '8', '9', '-', '.', 'e', 'E', '+']

theorem mem_numerals_of_isDigit {c : Char} (h : isDigit c = true) : c ∈ numerals := by
  have hrange : 48 ≤ c.toNat ∧ c.toNat ≤ 57 := by
    simpa [isDigit, Char.le_def, UInt32.le_iff_toNat_le] using h
  have hdigits : ∀ n ≤ 57, 48 ≤ n → Char.ofNat n ∈ numerals := by decide
  rw [← Char.ofNat_toNat c]
  exact hdigits c.toNat hrange.2 hrange.1

theorem numerals_of_parseDigits {text : List Char} {n : Nat} (h : parseDigits? text = some n) :
    text ⊆ numerals := by
  unfold parseDigits? at h
  split at h
  · next hdigits =>
      have hall := List.all_eq_true.mp (Bool.and_eq_true_iff.mp hdigits).2
      exact fun c hc => mem_numerals_of_isDigit (hall c hc)
  · exact absurd h (by simp only [reduceCtorEq, not_false_eq_true])

theorem numerals_of_parseSigned {text : List Char} {e : Int} (h : parseSigned? text = some e) :
    text ⊆ numerals := by
  unfold parseSigned? at h
  split at h
  · next rest =>
      cases hrest : parseDigits? rest with
      | none =>
          rw [hrest] at h
          exact absurd h (by simp only [bind, Option.bind, Option.map_none, reduceCtorEq,
            not_false_eq_true])
      | some n => exact List.cons_subset.mpr ⟨by decide, numerals_of_parseDigits hrest⟩
  · rcases Option.map_eq_some_iff.mp h with ⟨n, hn, _⟩
    exact List.cons_subset.mpr ⟨by decide, numerals_of_parseDigits hn⟩
  · rcases Option.map_eq_some_iff.mp h with ⟨n, hn, _⟩
    exact numerals_of_parseDigits hn

theorem numerals_of_parseExponent {text : List Char} {e : Int} (h : parseExponent? text = some e) :
    text ⊆ numerals := by
  unfold parseExponent? at h
  split at h
  · exact List.nil_subset _
  · exact List.cons_subset.mpr ⟨by decide, numerals_of_parseSigned h⟩
  · exact List.cons_subset.mpr ⟨by decide, numerals_of_parseSigned h⟩
  · exact absurd h (by simp only [reduceCtorEq, not_false_eq_true])

theorem numerals_takeWhile (text : List Char) : text.takeWhile isDigit ⊆ numerals := by
  have hall := List.all_eq_true.mp (List.all_takeWhile (p := isDigit) (l := text))
  exact fun c hc => mem_numerals_of_isDigit (hall c hc)

/-- What is split off at a point, if there is one. -/
theorem splitFraction_cases (text : List Char) :
    (text = '.' :: ((splitFraction text).1 ++ (splitFraction text).2) ∧
      (splitFraction text).1 ⊆ numerals) ∨
    ((splitFraction text).1 = [] ∧ (splitFraction text).2 = text) := by
  unfold splitFraction
  split
  · next rest =>
      rw [List.span_eq_takeWhile_dropWhile, List.takeWhile_append_dropWhile]
      exact Or.inl ⟨rfl, numerals_takeWhile rest⟩
  · exact Or.inr ⟨rfl, rfl⟩

/-- What is split off before the digits. -/
theorem splitSign_cases (text : List Char) :
    text = '-' :: (splitSign text).2 ∨ (splitSign text).2 = text := by
  unfold splitSign
  split
  · exact Or.inl rfl
  · exact Or.inr rfl

/-- An unsigned number is made of characters of numbers and begins with a digit or a
    point. -/
theorem numerals_of_unsigned {text : List Char} {e : Int}
    (hsome : ((text.takeWhile isDigit).isEmpty
      && (splitFraction (text.dropWhile isDigit)).1.isEmpty) = false)
    (hexponent : parseExponent? (splitFraction (text.dropWhile isDigit)).2 = some e) :
    text ⊆ numerals ∧ ∃ c ∈ text.head?, isDigit c = true ∨ c = '.' := by
  have hsplit : text.takeWhile isDigit ++ text.dropWhile isDigit = text :=
    List.takeWhile_append_dropWhile
  have htail := numerals_of_parseExponent hexponent
  have hdigits := List.all_eq_true.mp (List.all_takeWhile (p := isDigit) (l := text))
  generalize text.takeWhile isDigit = whole at *
  generalize text.dropWhile isDigit = after at *
  rw [← hsplit]
  have hwhole : whole ⊆ numerals := fun c hc => mem_numerals_of_isDigit (hdigits c hc)
  rcases splitFraction_cases after with ⟨hpoint, hfraction⟩ | ⟨hnone, hafter⟩
  · refine ⟨List.append_subset.mpr ⟨hwhole, ?_⟩, ?_⟩
    · rw [hpoint]
      exact List.cons_subset.mpr ⟨by decide, List.append_subset.mpr ⟨hfraction, htail⟩⟩
    · cases whole with
      | nil =>
          rw [hpoint]
          exact ⟨'.', rfl, Or.inr rfl⟩
      | cons first rest => exact ⟨first, rfl, Or.inl (hdigits first List.mem_cons_self)⟩
  · -- Without a point there are digits before the exponent.
    rw [hafter] at htail
    refine ⟨List.append_subset.mpr ⟨hwhole, htail⟩, ?_⟩
    cases whole with
    | nil =>
        rw [hnone] at hsome
        exact absurd hsome (by decide)
    | cons first rest => exact ⟨first, rfl, Or.inl (hdigits first List.mem_cons_self)⟩

/-- A number is made of characters of numbers and begins with a digit, a point or a
    minus sign. -/
theorem numerals_of_parse {text : List Char} {d : Decimal} (h : parse? text = some d) :
    text ⊆ numerals ∧ ∃ c ∈ text.head?, Machine.startsNumber c = true := by
  unfold parse? at h
  simp only [List.span_eq_takeWhile_dropWhile] at h
  split at h
  · exact absurd h (by simp only [reduceCtorEq, not_false_eq_true])
  · next hsome =>
      rcases Option.map_eq_some_iff.mp h with ⟨e, hexponent, _⟩
      rcases numerals_of_unsigned (Bool.eq_false_iff.mpr hsome) hexponent with
        ⟨hnumerals, c, hc, hfirst⟩
      rcases splitSign_cases text with hsign | hsame
      · rw [hsign]
        exact ⟨List.cons_subset.mpr ⟨by decide, hnumerals⟩, '-', rfl, rfl⟩
      · rw [hsame] at hnumerals hc
        refine ⟨hnumerals, c, hc, ?_⟩
        rcases hfirst with hdigit | rfl
        · simp only [Machine.startsNumber, hdigit, Bool.true_or]
        · rfl

theorem isRegular_of_mem_numerals {c : Char} (h : c ∈ numerals) : isRegular c = true := by
  have hall : numerals.all isRegular = true := by decide
  exact List.all_eq_true.mp hall c h

/-- What begins a number does not begin a name. -/
theorem not_isLetter_of_mem_numerals {c : Char} (h : c ∈ numerals)
    (hstarts : Machine.startsNumber c = true) : isLetter c = false := by
  have hall : numerals.all (fun c => !Machine.startsNumber c || !isLetter c) = true := by
    decide +kernel
  have hc := List.all_eq_true.mp hall c h
  rw [hstarts, Bool.not_true, Bool.false_or, Bool.not_eq_true'] at hc
  exact hc

/-- What can be read as a number is one lexeme, and one that is meant as a number. -/
theorem isLexeme_of_value {text : String} {x : Binary64} (h : value? text = some x) :
    IsLexeme text ∧ ∃ first rest, text.toList = first :: rest ∧
      Machine.startsNumber first = true ∧ isRegular first = true ∧ isLetter first = false := by
  rcases Option.map_eq_some_iff.mp h with ⟨d, hd, _⟩
  rcases numerals_of_parse hd with ⟨hnumerals, first, hfirst, hstarts⟩
  cases htext : text.toList with
  | nil =>
      rw [htext] at hfirst
      exact absurd hfirst (by simp only [List.head?_nil, Option.not_mem_none, not_false_eq_true])
  | cons c rest =>
      rw [htext] at hnumerals hfirst
      rw [← Option.some.inj hfirst] at hstarts
      rcases List.cons_subset.mp hnumerals with ⟨hc, hrest⟩
      have hregular := isRegular_of_mem_numerals hc
      refine ⟨isLexeme_iff.mpr ?_, c, rest, rfl, hstarts, hregular,
        not_isLetter_of_mem_numerals hc hstarts⟩
      have hothers : rest.all isRegular = true :=
        List.all_eq_true.mpr fun other hother => isRegular_of_mem_numerals (hrest hother)
      simp only [isRegular, Bool.and_eq_true, Bool.not_eq_true'] at hregular
      simp only [htext, lexemeChars, hregular, hothers, Bool.not_false, Bool.and_self,
        Bool.false_eq_true, if_false]

end Literal

end PathScript
