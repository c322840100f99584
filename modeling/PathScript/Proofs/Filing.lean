import PathScript.Surroundings

/-!
# Reading What Was Written

The files of a disk are files: one that was written reads as what was written to it,
and any other as before.

Where a path leads is a matter of the directories on its way, and writing makes no
directories. So a path that leads somewhere leads there after writing as well. It is
only what a path leads to, or why it leads nowhere, that writing can change.

## Main definitions

* `Disk.LeadsTo`: Where a path leads.
* `Disk.filing`: The files of a disk are files.

## Theorems

* `Disk.LeadsTo.of_directories`: Where a path leads is a matter of directories.
* `Disk.read_eq_ok_iff`: When reading succeeds.
* `Disk.exists_of_write_eq_ok`, `Disk.exists_write_eq_ok`: What writing does, and when it
  succeeds.
-/

namespace PathScript.Disk

/-- A path leads to a place. -/
def LeadsTo (disk : Disk) (path : String) (place : Place) : Prop :=
  disk.resolve path (names path) = .ok place

variable {disk other : Disk} {path : String} {place : Place} {contents : List UInt8}

theorem holdsNames_of_directories (h : other.directories = disk.directories) (place : Place) :
    other.holdsNames place = disk.holdsNames place := by
  cases place <;> simp only [holdsNames, isDirectory, h]

theorem walk_of_directories (h : other.directories = disk.directories) {found : Place}
    {names : List String} (hwalk : disk.walk path place names = .ok found) :
    other.walk path place names = .ok found := by
  induction names generalizing place with
  | nil => exact hwalk
  | cons name names ih =>
      unfold walk at hwalk ⊢
      rw [holdsNames_of_directories h]
      -- The walk got through, so what it came to is a directory.
      split at hwalk
      · next hholds =>
          rw [if_pos hholds]
          split at hwalk
          · next hsame => rw [if_pos hsame]; exact ih hwalk
          · next hsame =>
              rw [if_neg hsame]
              split at hwalk
              · next hback => rw [if_pos hback]; exact ih hwalk
              · next hback =>
                  rw [if_neg hback]
                  split at hwalk
                  · cases hwalk
                  · next hlength =>
                      rw [if_neg hlength]
                      cases hchild : child? place name with
                      | none => rw [hchild] at hwalk; cases hwalk
                      | some next => rw [hchild] at hwalk; exact ih hwalk
      · split at hwalk <;> cases hwalk

/-- Where a path leads is a matter of the directories on its way. -/
theorem LeadsTo.of_directories (h : other.directories = disk.directories)
    (hpath : disk.LeadsTo path place) : other.LeadsTo path place := by
  unfold LeadsTo resolve at hpath ⊢
  split at hpath
  · cases hpath
  · next hnull =>
      rw [if_neg hnull]
      split at hpath
      · cases hpath
      · next hempty =>
          rw [if_neg hempty]
          split at hpath
          · cases hpath
          · next hlength =>
              rw [if_neg hlength]
              exact walk_of_directories h hpath

/-- Reading succeeds where a path leads to a file and does not ask for a directory. -/
theorem read_eq_ok_iff :
    disk.read path = .ok contents ↔
      path.endsWith "/" = false ∧ ∃ place, disk.LeadsTo path place ∧
        disk.holdsNames place = false ∧ disk.contents? place = some contents := by
  unfold read LeadsTo
  cases disk.resolve path (names path) with
  | error e => simp [bind, Except.bind]
  | ok place =>
      cases hholds : disk.holdsNames place with
      | true => simp [bind, Except.bind, hholds, throw, throwThe, MonadExceptOf.throw]
      | false =>
          cases hcontents : disk.contents? place with
          | none =>
              simp [bind, Except.bind, hholds, hcontents, throw, throwThe, MonadExceptOf.throw]
          | some found =>
              cases path.endsWith "/" <;>
                simp [bind, Except.bind, hholds, hcontents, throw, throwThe, MonadExceptOf.throw,
                  pure, Except.pure]

/-- Looking for a file where one was replaced by another. -/
theorem file?_replaced (disk : Disk) (names wanted : List String) (contents : List UInt8) :
    file? { disk with
      files := (names, contents) :: disk.files.filter fun file => file.1 != names } wanted
        = if names = wanted then some contents else disk.file? wanted := by
  dsimp only [file?]
  by_cases hnames : names = wanted
  · rw [if_pos hnames, List.find?_cons, hnames, beq_self_eq_true, Option.map_some]
  · rw [if_neg hnames, List.find?_cons_of_neg (by simpa using hnames), List.find?_filter]
    congr 2
    funext file
    -- What is looked for has another name, so it was not taken out.
    cases hwanted : file.1 == wanted with
    | false => simp
    | true =>
        rw [beq_iff_eq.mp hwanted]
        simpa using Ne.symm hnames

/-- What writing does: it leads to a place, where the contents are from then on if
    anything is kept there, and nothing else is different. -/
theorem exists_of_write_eq_ok (h : disk.write path contents = .ok other) :
    path.endsWith "/" = false ∧ other.directories = disk.directories ∧
      ∃ place, disk.LeadsTo path place ∧ disk.holdsNames place = false ∧
        ∀ wanted, other.file? wanted
          = if place = .inside wanted then some contents else disk.file? wanted := by
  unfold write at h
  unfold LeadsTo
  cases hend : path.endsWith "/" with
  | true =>
      rw [hend, if_pos rfl] at h
      cases hresolve : disk.resolve path ((names path).dropLast ++ ["."]) with
      | error e => rw [hresolve] at h; cases h
      | ok place => rw [hresolve] at h; cases h
  | false =>
      rw [hend, if_neg Bool.false_ne_true] at h
      cases hresolve : disk.resolve path (names path) with
      | error e => rw [hresolve] at h; cases h
      | ok place =>
          cases hholds : disk.holdsNames place with
          | true =>
              simp [hresolve, hholds, bind, Except.bind, throw, throwThe, MonadExceptOf.throw] at h
          | false =>
              simp only [hresolve, hholds, bind, Except.bind, pure, Except.pure,
                Bool.false_eq_true, if_false] at h
              cases place with
              | inside names =>
                  cases h
                  refine ⟨rfl, rfl, _, rfl, hholds, fun wanted => ?_⟩
                  simp only [Place.inside.injEq]
                  exact file?_replaced disk names wanted contents
              | above | root | devices | nullDevice =>
                  cases h
                  exact ⟨rfl, rfl, _, rfl, hholds, fun wanted => by simp⟩

/-- Where a path leads into the directory described and to no directory, writing
    succeeds. -/
theorem exists_write_eq_ok {names : List String} (hend : path.endsWith "/" = false)
    (hpath : disk.LeadsTo path (.inside names)) (hholds : disk.isDirectory names = false)
    (contents : List UInt8) : ∃ after, disk.write path contents = .ok after := by
  unfold LeadsTo at hpath
  simp [write, hend, hpath, holdsNames, hholds, bind, Except.bind, pure, Except.pure]

/-- What was written can be read, where anything is kept. -/
theorem read_of_write {names : List String} (h : disk.write path contents = .ok other)
    (hpath : disk.LeadsTo path (.inside names)) : other.read path = .ok contents := by
  rcases exists_of_write_eq_ok h with ⟨hend, hdirectories, place, hplace, hholds, hfiles⟩
  cases hplace.symm.trans hpath
  refine read_eq_ok_iff.mpr ⟨hend, _, hpath.of_directories hdirectories, ?_, ?_⟩
  · rw [holdsNames_of_directories hdirectories]
    exact hholds
  · rw [contents?, hfiles, if_pos rfl]

/-- Where another path led, there is what there was. -/
theorem read_other_of_write {path' : String} (h : disk.write path contents = .ok other)
    (hpath : ¬∃ place, disk.LeadsTo path place ∧ disk.LeadsTo path' place)
    (found : List UInt8) : other.read path' = .ok found ↔ disk.read path' = .ok found := by
  rcases exists_of_write_eq_ok h with ⟨_, hdirectories, place, hplace, _, hfiles⟩
  have hcontents : ∀ {place'}, disk.LeadsTo path' place' →
      other.contents? place' = disk.contents? place' := by
    intro place' hplace'
    have hne : place ≠ place' := fun heq => hpath ⟨place, hplace, heq ▸ hplace'⟩
    cases place' with
    | inside wanted => rw [contents?, contents?, hfiles, if_neg hne]
    | above | root | devices | nullDevice => rfl
  rw [read_eq_ok_iff, read_eq_ok_iff]
  refine and_congr_right fun _ => exists_congr fun place' => ?_
  rw [holdsNames_of_directories hdirectories]
  constructor
  · rintro ⟨hlead, hholds, hfound⟩
    have hbefore := hlead.of_directories hdirectories.symm
    exact ⟨hbefore, hholds, hcontents hbefore ▸ hfound⟩
  · rintro ⟨hlead, hholds, hfound⟩
    exact ⟨hlead.of_directories hdirectories, hholds, (hcontents hlead).trans hfound⟩

/-- The files of a disk are files. Two paths lead to one file if they lead to the same
    place, and what is kept is what is inside the directory described. -/
def filing : surroundings.Filing where
  SameFile disk path path' := ∃ place, disk.LeadsTo path place ∧ disk.LeadsTo path' place
  Keeps disk path := ∃ names, disk.LeadsTo path (.inside names)
  read_written := by
    rintro before after path contents hwrite ⟨names, hpath⟩
    cases h : before.write path contents with
    | error e => simp [surroundings, h] at hwrite
    | ok written =>
        simp only [surroundings, h, Prod.mk.injEq, true_and] at hwrite
        exact read_of_write (hwrite ▸ h) hpath
  read_other := by
    intro before after path path' contents e hwrite hpath found
    cases h : before.write path contents with
    | error e =>
        simp only [surroundings, h, Prod.mk.injEq] at hwrite
        rw [hwrite.2]
    | ok written =>
        simp only [surroundings, h, Prod.mk.injEq] at hwrite
        exact read_other_of_write (hwrite.2 ▸ h) hpath found

end PathScript.Disk
