/-!
# Splitting into Lines

A program is read line by line. A line runs up to and including its end mark,
and the last line may lack one. The same splitting serves text, where the
mark is a line feed character, and bytes, where it is the byte ten.

## Main definitions

* `splitLines`: The lines of a sequence, end marks kept.

## Theorems

* `splitLines_flatten`: Putting the lines together gives the sequence back.
-/

namespace PathScript

/-- The lines of a sequence. Each line but the last ends with an end mark,
    and no line is empty. -/
def splitLines {α : Type} (isEnd : α → Bool) (items : List α) : List (List α) :=
  match _h : items.dropWhile (!isEnd ·) with
  | [] => if items.isEmpty then [] else [items]
  | mark :: rest => (items.takeWhile (!isEnd ·) ++ [mark]) :: splitLines isEnd rest
termination_by items.length
decreasing_by
  have hlen := (List.dropWhile_suffix (!isEnd ·) (l := items)).length_le
  rw [_h, List.length_cons] at hlen
  omega

/-- Putting the lines together gives the sequence back. -/
theorem splitLines_flatten {α : Type} (isEnd : α → Bool) (items : List α) :
    (splitLines isEnd items).flatten = items := by
  fun_induction splitLines isEnd items with
  | case1 items h hempty =>
      rw [List.isEmpty_iff.mp hempty, List.flatten_nil]
  | case2 items h hempty =>
      rw [List.flatten_cons, List.flatten_nil, List.append_nil]
  | case3 items mark rest h ih =>
      rw [List.flatten_cons, ih, List.append_assoc, List.singleton_append, ← h,
        List.takeWhile_append_dropWhile]

end PathScript
