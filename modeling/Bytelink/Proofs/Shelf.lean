import Bytelink.Proofs.Premises
import Mathlib.Data.List.Dedup

/-!
# A stock that computes

A `Shelf` lists what has been put in which place. Where every path leads to a place of its own, it
answers as premises say (`Shelf.follows`): a tool does its whole work when somebody waits for it.
-/
namespace Bytelink

/-- What has been put into places or taken away, the newest first, and the commands of the runs by
their numbers. -/
structure Shelf where
  items : List (Path × Option Item)
  started : List Command

namespace Shelf

def item? (x : Shelf) (place : Path) : Option Item :=
  (x.items.find? (·.1 == place)).bind (·.2)

def view (x : Shelf) : Stock where
  item := x.item?
  barrier _ := none
  jobs run := x.started[run.number]?

def set (x : Shelf) (place : Path) (item? : Option Item) : Shelf :=
  { x with items := (place, item?) :: x.items }

def names (x : Shelf) (directory : Path) : List Text :=
  (x.items.filterMap fun entry => entry.1.fileName?.filter fun name =>
    decide (IsPlain name) && directory.join ⟨name⟩ == entry.1 && (x.item? entry.1).isSome).dedup

def putAll (premises : Premises) (x : Shelf) (made : List (Path × Item)) : Shelf :=
  made.foldl (fun x file => x.set (premises.place file.1) (some file.2)) x

def write (premises : Premises) (x : Shelf) (path : Path) (content : Bytes) :
    Except SystemError Unit × Shelf :=
  if IsLoose (x.item? (premises.place path)) then
    (.ok (), x.set (premises.place path) (some (.file content)))
  else (premises.otherWriting path content, x)

def remove (premises : Premises) (x : Shelf) (path : Path) : Except SystemError Unit × Shelf :=
  match x.item? (premises.place path) with
  | none => (.error .notFound, x)
  | some .directory => (premises.directoryRemoval path, x)
  | some _ => (.ok (), x.set (premises.place path) none)

def finish (premises : Premises) (x : Shelf) (run : Run) : Ending × Shelf :=
  match x.started[run.number]?.bind premises.chore? with
  | none => (.lost .notFound, x)
  | some chore =>
      match premises.outcome chore x.view with
      | .ok made => (.exited (.exited 0) [], x.putAll premises made)
      | .error failure => (failure.ending, x)

/-- The answers of a shelf. -/
def host (premises : Premises) : Host Shelf where
  answer
    | .isDirectory path, x => (decide (x.item? (premises.place path) = some .directory), x)
    | .isFile path, x => ((x.item? (premises.place path)).any Item.isFile, x)
    | .currentDirectory, x => (premises.currentDirectory, x)
    | .entryNames directory, x => (.ok (x.names directory), x)
    | .fileContent path, x => (premises.reading path (x.item? (premises.place path)), x)
    | .writeFile path content, x => x.write premises path content
    | .removeFile path, x => x.remove premises path
    | .makeDirectories _, x => (.ok (), x)
    | .launch command, x =>
        (.ok ⟨x.started.length⟩, { x with started := x.started ++ [command] })
    | .await run, x => x.finish premises run
    | .turn _, x => (x.started.length, x)
    | .isCancelled _, x => (false, x)
    | .report _, x => ((), x)

variable {premises : Premises} {x : Shelf}

theorem view_set (x : Shelf) (place : Path) (content? : Option Item) :
    (x.set place content?).view = x.view.set place content? := by
  refine congrArg (Stock.mk · _ _) (funext fun other => ?_)
  by_cases h : other = place
  · subst h
    rw [Function.update_self]
    simp [item?, set]
  · rw [Function.update_of_ne h]
    simp [item?, set, Ne.symm h, view]

theorem view_putAll (x : Shelf) (made : List (Path × Item)) :
    (x.putAll premises made).view = premises.putAll x.view made := by
  induction made generalizing x with
  | nil => rfl
  | cons file rest ih =>
      refine (ih _).trans ?_
      rw [view_set]
      rfl

theorem view_write (x : Shelf) (path : Path) (content : Bytes) :
    ((x.write premises path content).1, (x.write premises path content).2.view) =
      premises.written path content x.view := by
  unfold write
  by_cases h : IsLoose (x.item? (premises.place path))
  · rw [if_pos h, premises.written_of_loose content h, view_set]
  · rw [if_neg h, premises.written_of_not_loose content h]

theorem view_remove (x : Shelf) (path : Path) :
    ((x.remove premises path).1, (x.remove premises path).2.view) =
      premises.removed path x.view := by
  have hitem : x.view.item (premises.place path) = x.item? (premises.place path) := rfl
  unfold remove Premises.removed
  rw [hitem]
  cases x.item? (premises.place path) with
  | none => rfl
  | some item =>
      cases item with
      | directory => rfl
      | file | other => simp only [view_set]

theorem lists_names (hplace : ∀ path, premises.place path = path) (x : Shelf) (directory : Path) :
    premises.Lists x.view directory (x.names directory) := by
  refine ⟨List.nodup_dedup _, fun name => ?_⟩
  rw [names, List.mem_dedup, List.mem_filterMap, hplace]
  constructor
  · rintro ⟨entry, -, hname⟩
    obtain ⟨-, hcond⟩ := Option.filter_eq_some_iff.mp hname
    simp only [Bool.and_eq_true, decide_eq_true_eq, beq_iff_eq] at hcond
    obtain ⟨⟨hplain, hpath⟩, hitem⟩ := hcond
    exact ⟨hplain, hpath ▸ Option.isSome_iff_ne_none.mp hitem⟩
  · rintro ⟨hplain, hitem⟩
    replace hitem : x.item? (directory.join ⟨name⟩) ≠ none := hitem
    cases hfind : x.items.find? (·.1 == directory.join ⟨name⟩) with
    | none => simp [item?, hfind] at hitem
    | some entry =>
        have hpath : entry.1 = directory.join ⟨name⟩ := by simpa using List.find?_some hfind
        refine ⟨entry, List.mem_of_find?_eq_some hfind, ?_⟩
        rw [Option.filter_eq_some_iff, hpath, Path.fileName?_join directory hplain]
        refine ⟨rfl, ?_⟩
        simpa [hplain] using Option.isSome_iff_ne_none.mpr hitem

theorem follows (hplace : ∀ path, premises.place path = path) :
    (host premises).Follows view premises.answers := by
  intro r x
  cases r with
  | isDirectory | isFile | currentDirectory | fileContent => exact ⟨rfl, rfl⟩
  | turn | isCancelled | report => exact rfl
  | entryNames directory => exact ⟨rfl, _, rfl, lists_names hplace x directory⟩
  | writeFile path content => exact view_write x path content
  | removeFile path => exact view_remove x path
  | makeDirectories => exact fun _ => ⟨rfl, rfl⟩
  | launch command =>
      refine fun _ _ => ⟨_, rfl, rfl, rfl, ?_⟩
      simp [host, view]
  | await run =>
      intro command chore hrun hchore
      have hjob : x.started[run.number]?.bind premises.chore? = some chore := by
        rw [show x.started[run.number]? = some command from hrun]
        exact hchore
      simp only [host, finish, hjob]
      cases houtcome : premises.outcome chore x.view with
      | error failure => rfl
      | ok made =>
          refine ⟨⟨_, _, rfl, rfl⟩, ?_, ?_⟩
          · exact congrArg Stock.item (view_putAll x made)
          · rfl

end Shelf
end Bytelink
