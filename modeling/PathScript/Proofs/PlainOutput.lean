import PathScript.Output
import PathScript.Proofs.Decoding
import PathScript.Proofs.WellDrawn
import PathScript.Proofs.WrittenNumbers

/-!
# Reading Plain Output

Drawings written one after the other in the plain form can be told apart again. Nothing
separates two drawings but the line of an end mark, nothing separates two coordinates but
a blank, and a number is written in one of several ways. Still the text determines how
many drawings there are, the instructions of each, and every coordinate but for the sign
of zero, which is not written.

The three separators are dealt with in one way. What is put together from pieces that are
each closed by a mark, and have no mark inside, can be split again at the marks. Lines are
closed by line feeds, words by blanks if one is added at the end, and drawings by the line
of their end mark, which no other instruction is written as. This leaves the coordinates.
A finite number reads back as itself but for the sign of zero, and the names of the
infinities do not read as numbers.

## Main definitions

* `Binary64.withoutZeroSign`, `Instruction.withoutZeroSigns`: What is written of a number
  and of an instruction.
* `Drawn`: A drawing that an import yields.

## Theorems

* `eq_of_terminated`, `texts_eq_of_terminated`: Pieces that are closed by a mark can be
  told apart.
* `Binary64.compact_eq_iff`: What the written form of a number tells.
* `Instruction.text_eq_iff`: What the written form of an instruction tells.
* `Drawn.ended`: Drawings have one end mark, and it is the last instruction.
* `plain_output_unambiguous`: What the written form of several drawings tells.
-/

namespace PathScript

section Terminated

variable {α : Type} {isEnd : α → Bool} {mark : α}

/-- What is put together from pieces that are closed by a mark is split at the marks. -/
theorem splitLines_terminated (hmark : isEnd mark = true) {pieces : List (List α)}
    (h : ∀ piece ∈ pieces, ∀ a ∈ piece, isEnd a = false) :
    splitLines isEnd (pieces.flatMap (· ++ [mark])) = pieces.map (· ++ [mark]) := by
  induction pieces with
  | nil => exact splitLines_of_no_mark (List.forall_mem_nil _)
  | cons piece pieces ih =>
      rcases List.forall_mem_cons.mp h with ⟨hpiece, hpieces⟩
      rw [List.flatMap_cons, List.append_assoc, List.singleton_append,
        splitLines_of_mark hpiece hmark, ih hpieces, List.map_cons]

/-- Pieces that are closed by a mark, and have none inside, can be told apart. -/
theorem eq_of_terminated (hmark : isEnd mark = true) {pieces others : List (List α)}
    (hpieces : ∀ piece ∈ pieces, ∀ a ∈ piece, isEnd a = false)
    (hothers : ∀ piece ∈ others, ∀ a ∈ piece, isEnd a = false)
    (h : pieces.flatMap (· ++ [mark]) = others.flatMap (· ++ [mark])) : pieces = others := by
  have hsplit := congrArg (splitLines isEnd) h
  rw [splitLines_terminated hmark hpieces, splitLines_terminated hmark hothers] at hsplit
  exact (List.map_inj_right fun _ _ => List.append_cancel_right).mp hsplit

/-- Pieces with a separator between them, and one more at the end, are pieces that are
    closed by it. -/
theorem intercalate_append_singleton (piece : List α) (pieces : List (List α)) :
    [mark].intercalate (piece :: pieces) ++ [mark] = (piece :: pieces).flatMap (· ++ [mark]) := by
  induction pieces generalizing piece with
  | nil => rw [List.intercalate_singleton, List.flatMap_singleton]
  | cons other pieces ih =>
      rw [List.intercalate_cons_cons, List.append_assoc, ih other, List.flatMap_cons,
        List.flatMap_cons, List.flatMap_cons]

end Terminated

/-- Texts that are closed by a character, and do not have it inside, can be told apart. -/
theorem texts_eq_of_terminated {mark : Char} {texts others : List String}
    (htexts : ∀ text ∈ texts, ∀ c ∈ text.toList, c ≠ mark)
    (hothers : ∀ text ∈ others, ∀ c ∈ text.toList, c ≠ mark)
    (h : (texts.map String.toList).flatMap (· ++ [mark])
      = (others.map String.toList).flatMap (· ++ [mark])) : texts = others := by
  have hplain : ∀ {texts : List String}, (∀ text ∈ texts, ∀ c ∈ text.toList, c ≠ mark) →
      ∀ chars ∈ texts.map String.toList, ∀ c ∈ chars, (mark == c) = false := by
    intro texts htexts chars hchars c hc
    rcases List.mem_map.mp hchars with ⟨text, htext, rfl⟩
    exact beq_false_of_ne (htexts text htext c hc).symm
  exact (List.map_inj_right fun _ _ => String.ext).mp
    (eq_of_terminated (beq_self_eq_true mark) (hplain htexts) (hplain hothers) h)

/-- If what two functions make of things agrees wherever the first does, it agrees for
    whole lists. -/
theorem map_eq_map_of_map_eq {α β γ : Type} {f : α → β} {g : α → γ} {xs ys : List α}
    (hfg : ∀ x ∈ xs, ∀ y ∈ ys, f x = f y → g x = g y) (h : xs.map f = ys.map f) :
    xs.map g = ys.map g := by
  induction xs generalizing ys with
  | nil =>
      rw [List.map_nil] at h
      rw [List.map_eq_nil_iff.mp h.symm]
  | cons x xs ih =>
      rcases List.map_eq_cons_iff.mp h.symm with ⟨y, rest, rfl, hy, hrest⟩
      rw [List.map_cons, List.map_cons,
        hfg x List.mem_cons_self y List.mem_cons_self hy.symm,
        ih (fun a ha b hb => hfg a (List.mem_cons_of_mem _ ha) b (List.mem_cons_of_mem _ hb))
          hrest.symm]

namespace Binary64

/-- The number, without the sign if it is zero. -/
def withoutZeroSign : Binary64 → Binary64
  | .finite negative position =>
      if position.val = 0 then zero false else .finite negative position
  | x => x

/-- The sign of zero is not written. -/
theorem compact_withoutZeroSign (x : Binary64) : x.withoutZeroSign.compact = x.compact := by
  have hzeros : ∀ negative, (zero negative).compact = "0" := by decide +kernel
  cases x with
  | finite negative position =>
      simp only [withoutZeroSign]
      split
      · next hzero =>
          have hsigned : finite negative position = zero negative :=
            congrArg (finite negative) (Fin.ext hzero)
          rw [hsigned, hzeros, hzeros]
      · rfl
  | infinite negative => rfl
  | nan => rfl

/-- Different positions are different magnitudes. -/
theorem quantaAt_injective {p q : Nat} (h : quantaAt p = quantaAt q) : p = q := by
  rw [← nearestPosition_quantaAt p, h, nearestPosition_quantaAt]

/-- Signed magnitudes that are equal are equal without their signs, and have one sign
    unless they are zero. -/
theorem signed_eq_signed {s t : Bool} {a b : Nat} (h : signed s a = signed t b) :
    a = b ∧ (a = 0 ∨ s = t) := by
  unfold signed at h
  cases s with
  | false =>
      cases t with
      | false =>
          simp only [Bool.false_eq_true, if_false] at h
          exact ⟨by omega, .inr rfl⟩
      | true =>
          simp only [Bool.false_eq_true, if_false, if_true] at h
          exact ⟨by omega, .inl (by omega)⟩
  | true =>
      cases t with
      | false =>
          simp only [Bool.false_eq_true, if_false, if_true] at h
          exact ⟨by omega, .inl (by omega)⟩
      | true =>
          simp only [if_true] at h
          exact ⟨by omega, .inr rfl⟩

/-- Numbers that are equal are at one place. -/
theorem place_of_eq {x y : Binary64} (h : x.eq y = true) :
    ∃ a, x.place? = some a ∧ y.place? = some a := by
  unfold eq order? at h
  split at h
  · next a b hx hy =>
      rw [beq_iff_eq, Option.some.injEq, Int.compare_eq_eq] at h
      exact ⟨a, hx, h ▸ hy⟩
  · cases h

/-- Numbers that are equal are the same but for the sign of zero. -/
theorem withoutZeroSign_eq_of_eq {x y : Binary64} (h : x.eq y = true) :
    x.withoutZeroSign = y.withoutZeroSign := by
  -- No finite number is where the infinities are.
  have hbeyond : ∀ (p : Fin finiteMagnitudes) (s t : Bool),
      signed s (quantaAt p) ≠ signed t (quantaAt finiteMagnitudes) := by
    intro p s t hsigned
    exact Nat.ne_of_lt p.isLt (quantaAt_injective (signed_eq_signed hsigned).1)
  rcases place_of_eq h with ⟨a, hx, hy⟩
  have hplace : x.place? = y.place? := hx.trans hy.symm
  cases x with
  | finite s p =>
      cases y with
      | finite t q =>
          rcases signed_eq_signed (Option.some.inj hplace) with ⟨hquanta, hsign⟩
          have hposition : p = q := Fin.ext (quantaAt_injective hquanta)
          rcases hsign with hzero | rfl
          · -- Only the first position is zero.
            have hfirst : p.val = 0 := quantaAt_injective (hzero.trans rfl)
            simp only [withoutZeroSign, ← hposition, hfirst, if_true]
          · rw [hposition]
      | infinite t => exact absurd (Option.some.inj hplace) (hbeyond p s t)
      | nan => cases hy
  | infinite s =>
      cases y with
      | finite t q => exact absurd (Option.some.inj hplace).symm (hbeyond q t s)
      | infinite t =>
          rcases (signed_eq_signed (Option.some.inj hplace)).2 with hzero | rfl
          · exact absurd hzero (Nat.ne_of_gt (quantaAt_pos (by decide)))
          · rfl
      | nan => cases hy
  | nan => cases hx

/-- The written form of a number tells which it is, but for the sign of zero. -/
theorem compact_eq_iff {x y : Binary64} (hx : x ≠ .nan) (hy : y ≠ .nan) :
    x.compact = y.compact ↔ x.withoutZeroSign = y.withoutZeroSign := by
  -- The names of the infinities do not read as numbers.
  have hnames : ∀ s, Literal.value? (infinite s).compact = none := by decide +kernel
  have hdiffer : ∀ s t, (infinite s).compact = (infinite t).compact → s = t := by decide +kernel
  constructor
  · intro h
    cases x with
    | finite s p =>
        rcases Literal.value?_compact s p with ⟨z, hz, _, hzx⟩
        rw [h] at hz
        cases y with
        | finite t q =>
            rcases Literal.value?_compact t q with ⟨w, hw, _, hwy⟩
            rw [Option.some.inj (hz.symm.trans hw)] at hzx
            rw [← withoutZeroSign_eq_of_eq hzx, ← withoutZeroSign_eq_of_eq hwy]
        | infinite t =>
            rw [hnames] at hz
            cases hz
        | nan => exact absurd rfl hy
    | infinite s =>
        cases y with
        | finite t q =>
            rcases Literal.value?_compact t q with ⟨w, hw, _, _⟩
            rw [← h, hnames] at hw
            cases hw
        | infinite t => rw [hdiffer s t h]
        | nan => exact absurd rfl hy
    | nan => exact absurd rfl hx
  · intro h
    rw [← compact_withoutZeroSign x, h, compact_withoutZeroSign]

/-- Neither a blank nor a line feed is part of a written number. -/
theorem mem_compact {x : Binary64} (hx : x ≠ .nan) {c : Char} (hc : c ∈ x.compact.toList) :
    c ≠ ' ' ∧ c ≠ '\n' := by
  have hchars : c ∈ Literal.numerals ++ ['i', 'n', 'f'] := by
    cases x with
    | finite s p =>
        rcases Literal.value?_compact s p with ⟨y, hy, _⟩
        rcases Option.map_eq_some_iff.mp hy with ⟨d, hd, _⟩
        exact List.mem_append_left _ ((Literal.numerals_of_parse hd).1 hc)
    | infinite s =>
        have hnames : ∀ s, (infinite s).compact.toList ⊆ Literal.numerals ++ ['i', 'n', 'f'] := by
          decide +kernel
        exact hnames s hc
    | nan => exact absurd rfl hx
  have hall : (Literal.numerals ++ ['i', 'n', 'f']).all (fun c => c != ' ' && c != '\n') = true := by
    decide
  simpa using List.all_eq_true.mp hall c hchars

end Binary64

/-- The point, without the signs of coordinates that are zero. -/
def Point.withoutZeroSigns (p : Point) : Point := ⟨p.x.withoutZeroSign, p.y.withoutZeroSign⟩

/-- The written coordinates of points tell which they are, but for the signs of zeros. -/
theorem Point.map_eq_of_coordinates {ps qs : List Point}
    (hps : ∀ p ∈ ps, p.x ≠ .nan ∧ p.y ≠ .nan) (hqs : ∀ q ∈ qs, q.x ≠ .nan ∧ q.y ≠ .nan)
    (h : (ps.flatMap fun p => [p.x.compact, p.y.compact])
      = qs.flatMap fun q => [q.x.compact, q.y.compact]) :
    ps.map withoutZeroSigns = qs.map withoutZeroSigns := by
  induction ps generalizing qs with
  | nil =>
      cases qs with
      | nil => rfl
      | cons q qs => cases h
  | cons p ps ih =>
      cases qs with
      | nil => cases h
      | cons q qs =>
          rcases List.forall_mem_cons.mp hps with ⟨hp, hps⟩
          rcases List.forall_mem_cons.mp hqs with ⟨hq, hqs⟩
          rcases List.cons.inj h with ⟨hx, htail⟩
          rcases List.cons.inj htail with ⟨hy, hrest⟩
          rw [List.map_cons, List.map_cons, ih hps hqs hrest, withoutZeroSigns, withoutZeroSigns,
            (Binary64.compact_eq_iff hp.1 hq.1).mp hx, (Binary64.compact_eq_iff hp.2 hq.2).mp hy]

namespace Instruction

/-- The instruction, without the signs of coordinates that are zero. -/
def withoutZeroSigns : Instruction → Instruction
  | .move p => .move p.withoutZeroSigns
  | .line p => .line p.withoutZeroSigns
  | .cubic p q r => .cubic p.withoutZeroSigns q.withoutZeroSigns r.withoutZeroSigns
  | .finish => .finish

/-- The instruction is written the same without them. -/
theorem text_withoutZeroSigns (i : Instruction) : i.withoutZeroSigns.text = i.text := by
  cases i with
  | move p | line p | cubic p q r =>
      simp only [text, withoutZeroSigns, kind, points, List.flatMap_cons, List.flatMap_nil,
        Point.withoutZeroSigns, Binary64.compact_withoutZeroSign]
  | finish => rfl

/-- An instruction with numbers for coordinates. -/
def Numeric (i : Instruction) : Prop := ∀ p ∈ i.points, p.x ≠ .nan ∧ p.y ≠ .nan

theorem numeric_finish : finish.Numeric := by
  intro p hp
  cases hp

/-- The words that an instruction is written with. -/
def words (i : Instruction) : List String :=
  i.kind.name :: i.points.flatMap fun p => [p.x.compact, p.y.compact]

variable {i j : Instruction}

/-- Neither a blank nor a line feed is part of a word. -/
theorem mem_words (hi : i.Numeric) {word : String} (hword : word ∈ i.words) {c : Char}
    (hc : c ∈ word.toList) : c ≠ ' ' ∧ c ≠ '\n' := by
  rcases List.mem_cons.mp hword with rfl | hword
  · have hnames : ∀ kind : Kind, kind.name.toList.all (fun c => c != ' ' && c != '\n') = true := by
      intro kind
      cases kind <;> decide
    simpa using List.all_eq_true.mp (hnames i.kind) c hc
  · rcases List.mem_flatMap.mp hword with ⟨p, hp, hword⟩
    simp only [List.mem_cons, List.not_mem_nil, or_false] at hword
    rcases hword with rfl | rfl
    · exact Binary64.mem_compact (hi p hp).1 hc
    · exact Binary64.mem_compact (hi p hp).2 hc

/-- An instruction and a blank are its words, each with a blank. -/
theorem toList_text_blank (i : Instruction) :
    i.text.toList ++ [' '] = (i.words.map String.toList).flatMap (· ++ [' ']) := by
  change (" ".intercalate i.words).toList ++ [' '] = _
  rw [String.toList_intercalate]
  exact intercalate_append_singleton _ _

/-- Instructions that are written the same have the same words. -/
theorem words_eq_of_text_eq (hi : i.Numeric) (hj : j.Numeric) (h : i.text = j.text) :
    i.words = j.words := by
  have hwords := congrArg (fun text => text.toList ++ [' ']) h
  simp only [toList_text_blank] at hwords
  exact texts_eq_of_terminated (fun _ hword _ hc => (mem_words hi hword hc).1)
    (fun _ hword _ hc => (mem_words hj hword hc).1) hwords

/-- Instructions of one kind with the same points are the same. -/
theorem eq_of_kind_points (hkind : i.kind = j.kind) (hpoints : i.points = j.points) : i = j := by
  have h := ofPoints?_points i
  rw [hkind, hpoints, ofPoints?_points] at h
  exact (Option.some.inj h).symm

/-- The written form of an instruction tells which it is, but for the signs of zeros. -/
theorem text_eq_iff (hi : i.Numeric) (hj : j.Numeric) :
    i.text = j.text ↔ i.withoutZeroSigns = j.withoutZeroSigns := by
  have hnames : ∀ kind other : Kind, kind.name = other.name → kind = other := by
    intro kind other
    cases kind <;> cases other <;> decide
  have hkind : ∀ i : Instruction, i.withoutZeroSigns.kind = i.kind := by
    intro i
    cases i <;> rfl
  have hpoints : ∀ i : Instruction,
      i.withoutZeroSigns.points = i.points.map Point.withoutZeroSigns := by
    intro i
    cases i <;> rfl
  constructor
  · intro h
    rcases List.cons.inj (words_eq_of_text_eq hi hj h) with ⟨hname, hcoordinates⟩
    apply eq_of_kind_points
    · rw [hkind, hkind, hnames _ _ hname]
    · rw [hpoints, hpoints, Point.map_eq_of_coordinates hi hj hcoordinates]
  · intro h
    rw [← text_withoutZeroSigns i, h, text_withoutZeroSigns]

/-- An instruction is written on one line. -/
theorem mem_text (hi : i.Numeric) {c : Char} (hc : c ∈ i.text.toList) : c ≠ '\n' := by
  have hmem : c ∈ (i.words.map String.toList).flatMap (· ++ [' ']) := by
    rw [← toList_text_blank]
    exact List.mem_append_left _ hc
  rcases List.mem_flatMap.mp hmem with ⟨word, hword, hc⟩
  rcases List.mem_map.mp hword with ⟨text, htext, rfl⟩
  rcases List.mem_append.mp hc with hc | hc
  · exact (mem_words hi htext hc).2
  · rw [List.mem_singleton.mp hc]
    decide

/-- No instruction that draws is written as the end mark is. -/
theorem WellFormed.text_ne (hi : i.WellFormed) : i.text ≠ finish.text := by
  intro h
  have hfinish : i.withoutZeroSigns = .finish :=
    (text_eq_iff hi.numeric numeric_finish).mp h
  cases i with
  | finish => exact hi.ne_finish rfl
  | move p | line p | cubic p q r => cases hfinish

end Instruction

/-- A drawing that an import yields. -/
def Drawn (drawing : List Instruction) : Prop :=
  ∃ settings source, (importSource settings source).drawing = .ok drawing

/-- The end mark of a drawing is its last instruction, and there is no other. -/
theorem Drawn.ended {drawing : List Instruction} (h : Drawn drawing) :
    ∃ body, (∀ i ∈ body, i.WellFormed) ∧ drawing = body ++ [.finish] := by
  rcases h with ⟨settings, source, h⟩
  rcases Process.reaches_runFrom (.start settings source) .input with ⟨n, hn⟩
  have hdrawn := wellDrawn_after settings source .input n
  rw [hn] at hdrawn
  refine ⟨_, hdrawn.drawing, ?_⟩
  unfold Run.drawing at h
  split at h
  · cases h
  · exact (Except.ok.inj h).symm

/-- Several drawings without their end marks. -/
theorem exists_bodies {drawings : List (List Instruction)} (h : ∀ d ∈ drawings, Drawn d) :
    ∃ bodies : List (List Instruction), (∀ body ∈ bodies, ∀ i ∈ body, i.WellFormed) ∧
      drawings = bodies.map (· ++ [.finish]) := by
  induction drawings with
  | nil => exact ⟨[], List.forall_mem_nil _, rfl⟩
  | cons drawing drawings ih =>
      rcases List.forall_mem_cons.mp h with ⟨hdrawing, hdrawings⟩
      rcases hdrawing.ended with ⟨body, hbody, rfl⟩
      rcases ih hdrawings with ⟨bodies, hbodies, rfl⟩
      exact ⟨body :: bodies, List.forall_mem_cons.mpr ⟨hbody, hbodies⟩, rfl⟩

/-- All instructions of drawings have numbers for coordinates. -/
theorem numeric_of_drawn {drawings : List (List Instruction)} (h : ∀ d ∈ drawings, Drawn d)
    {i : Instruction} (hi : i ∈ drawings.flatten) : i.Numeric := by
  rcases List.mem_flatten.mp hi with ⟨drawing, hdrawing, hi⟩
  rcases (h drawing hdrawing).ended with ⟨body, hbody, rfl⟩
  rcases List.mem_append.mp hi with hi | hi
  · exact (hbody i hi).numeric
  · rw [List.mem_singleton.mp hi]
    exact Instruction.numeric_finish

/-- Drawings are written as lines, one for each instruction. -/
theorem toList_write_text (drawings : List (List Instruction)) :
    (OutputFormat.text.write drawings).toList
      = ((drawings.flatten.map Instruction.text).map String.toList).flatMap (· ++ ['\n']) := by
  rw [OutputFormat.write, String.toList_join, List.flatMap_map, List.map_map, List.flatMap_map]
  congr 1
  funext i
  exact String.toList_append

variable {first second : List (List Instruction)}

/-- Drawings that are written the same have the same lines. -/
theorem lines_eq_of_write_eq (hfirst : ∀ d ∈ first, Drawn d) (hsecond : ∀ d ∈ second, Drawn d)
    (h : OutputFormat.text.write first = OutputFormat.text.write second) :
    first.flatten.map Instruction.text = second.flatten.map Instruction.text := by
  have hplain : ∀ {drawings : List (List Instruction)}, (∀ d ∈ drawings, Drawn d) →
      ∀ line ∈ drawings.flatten.map Instruction.text, ∀ c ∈ line.toList, c ≠ '\n' := by
    intro drawings hdrawings line hline c hc
    rcases List.mem_map.mp hline with ⟨i, hi, rfl⟩
    exact Instruction.mem_text (numeric_of_drawn hdrawings hi) hc
  have hlines := congrArg String.toList h
  rw [toList_write_text, toList_write_text] at hlines
  exact texts_eq_of_terminated (hplain hfirst) (hplain hsecond) hlines

/-- Drawings that have the same lines have them in the same drawings: one ends where its
    end mark is. -/
theorem drawings_eq_of_lines_eq (hfirst : ∀ d ∈ first, Drawn d) (hsecond : ∀ d ∈ second, Drawn d)
    (h : first.flatten.map Instruction.text = second.flatten.map Instruction.text) :
    first.map (List.map Instruction.text) = second.map (List.map Instruction.text) := by
  have hmarks : ∀ bodies : List (List Instruction),
      (bodies.map (· ++ [.finish])).map (List.map Instruction.text)
        = (bodies.map (List.map Instruction.text)).map (· ++ [Instruction.finish.text]) := by
    intro bodies
    rw [List.map_map, List.map_map]
    congr 1
    funext body
    exact List.map_append
  have hplain : ∀ {bodies : List (List Instruction)}, (∀ body ∈ bodies, ∀ i ∈ body, i.WellFormed) →
      ∀ lines ∈ bodies.map (List.map Instruction.text), ∀ line ∈ lines,
        (Instruction.finish.text == line) = false := by
    intro bodies hbodies lines hlines line hline
    rcases List.mem_map.mp hlines with ⟨body, hbody, rfl⟩
    rcases List.mem_map.mp hline with ⟨i, hi, rfl⟩
    exact beq_false_of_ne (hbodies body hbody i hi).text_ne.symm
  rcases exists_bodies hfirst with ⟨bodies, hbodies, rfl⟩
  rcases exists_bodies hsecond with ⟨others, hothers, rfl⟩
  rw [List.map_flatten, List.map_flatten, hmarks, hmarks, ← List.flatMap_def,
    ← List.flatMap_def] at h
  rw [hmarks, hmarks, eq_of_terminated (beq_self_eq_true _) (hplain hbodies) (hplain hothers) h]

/-- Drawings are written the same without the signs of zeros. -/
theorem write_text_withoutZeroSigns (drawings : List (List Instruction)) :
    OutputFormat.text.write (drawings.map (List.map Instruction.withoutZeroSigns))
      = OutputFormat.text.write drawings := by
  simp only [OutputFormat.write, ← List.map_flatten, List.map_map, Function.comp_def,
    Instruction.text_withoutZeroSigns]

/-- A process that is at its end has a drawing that an import yields, if it has one. -/
theorem drawn_of_tasks_nil {settings : Settings} {source : Source} {n : Nat}
    {drawing : List Instruction}
    (htasks : ((Process.start (.start settings source) .input).after n).tasks.isEmpty = true)
    (h : ((Process.start (.start settings source) .input).after n).run.drawing.toOption
      = some drawing) : Drawn drawing := by
  refine ⟨settings, source, ?_⟩
  have hrun : importSource settings source = _ :=
    Process.runFrom_eq_of_tasks_nil (List.isEmpty_iff.mp htasks)
  rw [hrun]
  exact eq_ok_of_toOption h

/-- Plain output is unambiguous. Lists of drawings that imports yield are written as the
    same text just in case they have the same number of drawings, and these agree
    instruction by instruction in what is done and in every coordinate, but for the signs
    of coordinates that are zero. -/
theorem plain_output_unambiguous (first second : List (List Instruction))
    (hfirst : ∀ d ∈ first, Drawn d) (hsecond : ∀ d ∈ second, Drawn d) :
    OutputFormat.text.write first = OutputFormat.text.write second ↔
      first.map (List.map Instruction.withoutZeroSigns)
        = second.map (List.map Instruction.withoutZeroSigns) := by
  constructor
  · intro h
    have hlines := drawings_eq_of_lines_eq hfirst hsecond (lines_eq_of_write_eq hfirst hsecond h)
    apply map_eq_map_of_map_eq _ hlines
    intro drawing hdrawing other hother hlines
    apply map_eq_map_of_map_eq _ hlines
    intro i hi j hj htext
    have hi := numeric_of_drawn hfirst (List.mem_flatten_of_mem hdrawing hi)
    have hj := numeric_of_drawn hsecond (List.mem_flatten_of_mem hother hj)
    exact (Instruction.text_eq_iff hi hj).mp htext
  · intro h
    rw [← write_text_withoutZeroSigns first, h, write_text_withoutZeroSigns]

/-- A drawing of a line and an empty drawing, written in the two orders there are: the
    texts differ. -/
theorem plain_output_unambiguous_orders :
    ∃ line, Drawn line ∧ Drawn [.finish] ∧
      line.map Instruction.text = ["MOVE -2.5e-07 12", "LINE 3 0", "END"] ∧
      OutputFormat.text.write [line, [.finish]] ≠ OutputFormat.text.write [[.finish], line] := by
  have hends : let p := fun text : String =>
        (Process.start (.start Settings.standard (.text text)) .input).after 20
      ((p "").tasks.isEmpty = true ∧ (p "").run.drawing.toOption = some [.finish]) ∧
      ((p "-.25e-6 12 moveto 3 0 lineto stroke").tasks.isEmpty = true ∧
        (p "-.25e-6 12 moveto 3 0 lineto stroke").run.drawing.toOption.map (List.map Instruction.text)
          = some ["MOVE -2.5e-07 12", "LINE 3 0", "END"]) := by
    decide +kernel
  rcases hends with ⟨⟨htasks, hfinish⟩, htasks', hline⟩
  rcases Option.map_eq_some_iff.mp hline with ⟨line, hline, htexts⟩
  have hfinish := drawn_of_tasks_nil htasks hfinish
  have hline := drawn_of_tasks_nil htasks' hline
  refine ⟨line, hline, hfinish, htexts, ?_⟩
  rw [Ne, plain_output_unambiguous [line, [.finish]] [[.finish], line]
    (List.forall_mem_cons.mpr ⟨hline, List.forall_mem_singleton.mpr hfinish⟩)
    (List.forall_mem_cons.mpr ⟨hfinish, List.forall_mem_singleton.mpr hline⟩)]
  intro h
  -- The first drawings have three instructions and one.
  have hlengths := congrArg List.length (List.cons.inj h).1
  rw [List.length_map, ← List.length_map Instruction.text, htexts] at hlengths
  exact absurd hlengths (by decide)

end PathScript
