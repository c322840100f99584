import PathScript.Cell

/-!
# Dictionaries

The names a program has defined, and the names it need not define.

A user dictionary holds one value for each name; defining a name again
replaces what it had. The built-in names stand behind it: the operators, and
the two truth values, which are bound to literal procedures so that every
built-in name can be invoked.

## Main definitions

* `Dictionary`: The names a program has defined.
* `Dictionary.insert`, `Dictionary.find?`: Defining and looking up.
* `Dictionary.sorted`: The definitions in the order of their names.
* `builtin?`: What a built-in name is bound to.

## Theorems

* `Dictionary.find?_insert_self`: A name has the value it was last given.
* `Dictionary.find?_insert_of_ne`: Other names keep theirs.
-/

namespace PathScript

/-- The names a program has defined, each once. -/
structure Dictionary where
  entries : List (String × Cell)

namespace Dictionary

/-- The dictionary with no names. -/
def empty : Dictionary := ⟨[]⟩

/-- What a name is bound to. -/
def find? (d : Dictionary) (key : String) : Option Cell :=
  (d.entries.find? fun entry => entry.1 == key).map (·.2)

/-- The dictionary with a name bound to what a cell holds and no longer to
    anything else. -/
def insert (d : Dictionary) (key : String) (cell : Cell) : Dictionary :=
  ⟨(key, cell) :: d.entries.filter fun entry => entry.1 != key⟩

/-- A name has the value it was last given. -/
@[simp]
theorem find?_insert_self (d : Dictionary) (key : String) (cell : Cell) :
    (d.insert key cell).find? key = some cell := by
  simp [find?, insert]

/-- Other names keep theirs. -/
theorem find?_insert_of_ne (d : Dictionary) (key other : String) (cell : Cell)
    (h : other ≠ key) : (d.insert key cell).find? other = d.find? other := by
  have hkey : (key == other) = false := by simp [Ne.symm h]
  unfold find? insert
  rw [List.find?_cons_of_neg (by simp [hkey]), List.find?_filter]
  congr 2
  funext entry
  by_cases hentry : entry.1 = other
  · simp [hentry, h]
  · simp [hentry]

/-- The definitions in the order of their names. -/
def sorted (d : Dictionary) : List (String × Value) :=
  (d.entries.map fun entry => (entry.1, entry.2.value)).mergeSort
    fun a b => decide (a.1 ≤ b.1)

end Dictionary

/-- The identities of the built-in truth values. -/
def builtinIdentity (b : Bool) : Identity := if b then 0 else 1

/-- The number of identities that the built-in names take up. -/
def builtinIdentities : Identity := 2

/-- What a built-in name is bound to. -/
def builtin? (key : String) : Option Value :=
  if key = "true" then some (.literal (builtinIdentity true) (.bool true))
  else if key = "false" then some (.literal (builtinIdentity false) (.bool false))
  else (Operator.ofName? key).map .operator

/-- The built-in names and what they are bound to, in the order of the
    names. -/
def builtins : List (String × Value) :=
  let names := "true" :: "false" :: Operator.all.map Operator.name
  (names.filterMap fun name => (builtin? name).map (name, ·)).mergeSort
    fun a b => decide (a.1 ≤ b.1)

end PathScript
