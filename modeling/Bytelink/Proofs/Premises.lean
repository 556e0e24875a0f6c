import Bytelink.Proofs.ToolRuns
import Bytelink.Proofs.Twins
import Mathlib.Data.Set.Insert

/-!
# Surroundings without a memory of their own

A `Stock` is what stands in which place, and `Premises` are what two builds that are compared have
in common: how paths lead to places, and what each tool makes of its input. A tool run reads one
file and decides by it alone whether it fails, and if not, what it writes where; the compiler may
also mind a data listing that is there when it starts. `Premises.answers` says how such surroundings
answer. A request may be barred, whatever stands in the places it is about.

Two stocks are `Alike` if they differ in regular files only, and in certain places not at all. What
a request tells of such a place, and of all places that are no regular files, it tells of both.
-/
namespace Bytelink

/-- What stands in a place. -/
inductive Item
  | file (content : Bytes)
  | directory
  | other
  deriving DecidableEq, Repr

def Item.isFile : Item → Bool
  | file _ => true
  | _ => false

/-- There is a regular file in the place, or nothing. -/
def IsLoose (item? : Option Item) : Prop := item?.all Item.isFile = true

instance : DecidablePred IsLoose := fun item? =>
  inferInstanceAs (Decidable (item?.all Item.isFile = true))

structure Failure where
  ending : Ending
  unsuccessful : ¬ ∃ status output, ending = .exited status output ∧ status.isSuccess

/-- What a tool run is to do. What stands at its input, and whether there is a data listing yet,
decide what it writes where, or how it fails. -/
structure Chore where
  input : Path
  listing : Path
  effect : Option Item → Bool → Except Failure (List (Path × Item))

structure Stock where
  item : Path → Option Item
  /-- Requests that are refused, with the reason. What stands in a place makes no difference to
  what the user may do with it. -/
  barrier : Request → Option SystemError
  jobs : Run → Option Command

structure Premises where
  currentDirectory : Except SystemError Path
  isAbsolute_currentDirectory : ∀ path, currentDirectory = .ok path → path.isAbsolute = true
  /-- The place to which a path leads. -/
  place : Path → Path
  /-- What is read where something stands that is no regular file. -/
  otherContent : Path → Except SystemError Bytes
  /-- What comes of writing there. -/
  otherWriting : Path → Bytes → Except SystemError Unit
  /-- What comes of removing a directory like a file. -/
  directoryRemoval : Path → Except SystemError Unit
  preprocess : Command → Option Item → Except Failure Bytes
  /-- The body and, for a source with static data, the data listing. -/
  compile : Command → Option Item → Bool → Except Failure (Bytes × Option Bytes)
  assemble : Command → Option Item → Except Failure (List (Path × Item))

namespace Stock

def set (w : Stock) (place : Path) (item? : Option Item) : Stock :=
  { w with item := Function.update w.item place item? }

@[simp] theorem set_item_self (w : Stock) (place : Path) (item? : Option Item) :
    (w.set place item?).item place = item? := Function.update_self ..

theorem set_item_of_ne (w : Stock) {place other : Path} (item? : Option Item)
    (h : other ≠ place) : (w.set place item?).item other = w.item other :=
  Function.update_of_ne h ..

theorem set_eq_self {w : Stock} {place : Path} {item? : Option Item} (h : w.item place = item?) :
    w.set place item? = w := by
  subst h
  exact congrArg (Stock.mk · w.barrier w.jobs) (Function.update_eq_self ..)

/-- Wherever something has been standing, something still stands. -/
def Keeps (w v : Stock) : Prop := ∀ place, w.item place ≠ none → v.item place ≠ none

theorem keeps_set (w : Stock) (place : Path) (item : Item) : w.Keeps (w.set place (some item)) := by
  intro other hother
  by_cases h : other = place
  · rw [h, set_item_self]
    exact Option.some_ne_none item
  · rw [set_item_of_ne w _ h]
    exact hother

structure Started (command : Command) (run : Run) (w v : Stock) : Prop where
  item : v.item = w.item
  barrier : v.barrier = w.barrier
  job : v.jobs run = some command

end Stock

namespace Premises

variable (premises : Premises)

def preprocessing (command : Command) (directory : Path) (input output : Text) : Chore where
  input := directory.join ⟨input⟩
  listing := directory.join Build.listingFile
  effect item _ := (premises.preprocess command item).map fun made =>
    [(directory.join ⟨output⟩, .file made)]

/-- The compiler writes the body into its output, and the listing, if there is one, into the file
that all units share. -/
def compiling (command : Command) (directory : Path) (input output : Text) : Chore where
  input := directory.join ⟨input⟩
  listing := directory.join Build.listingFile
  effect item isListed := (premises.compile command item isListed).map fun made =>
    (directory.join ⟨output⟩, .file made.1) ::
      made.2.toList.map fun listing => (directory.join Build.listingFile, .file listing)

/-- The assembler writes what the linked program tells it to. -/
def assembling (command : Command) (directory : Path) (input : Text) : Chore where
  input := directory.join ⟨input⟩
  listing := directory.join Build.listingFile
  effect item _ := premises.assemble command item

def chore? (command : Command) : Option Chore :=
  match command.directory?, command.arguments with
  | some directory, [flag, _, input, mark, output] =>
      if mark = ['-', 'o'] then
        if flag = ['-', 'E'] then some (premises.preprocessing command directory input output)
        else if flag = ['-', 'O', '8'] then some (premises.compiling command directory input output)
        else none
      else none
  | some directory, [flag, _, input] =>
      if flag = ['-', 'd'] then some (premises.assembling command directory input) else none
  | _, _ => none

/-- A path from the root. -/
def absolute (path : Path) : Except SystemError Path :=
  if path.text.isEmpty || path.isAbsolute then path.absolute ⟨[]⟩
  else match premises.currentDirectory with
    | .ok directory => path.absolute directory
    | .error e => .error e

/-- What stands in the places after files have been written. -/
def putAll (w : Stock) (made : List (Path × Item)) : Stock :=
  made.foldl (fun w file => w.set (premises.place file.1) (some file.2)) w

theorem putAll_barrier (w : Stock) (made : List (Path × Item)) :
    (premises.putAll w made).barrier = w.barrier := by
  induction made generalizing w with
  | nil => rfl
  | cons file rest ih => exact ih _

theorem putAll_item_congr {w v : Stock} (made : List (Path × Item)) (h : v.item = w.item) :
    (premises.putAll v made).item = (premises.putAll w made).item := by
  induction made generalizing w v with
  | nil => exact h
  | cons file rest ih =>
      refine ih ?_
      simp only [Stock.set, h]

theorem keeps_putAll (w : Stock) (made : List (Path × Item)) :
    w.Keeps (premises.putAll w made) := by
  induction made generalizing w with
  | nil => exact fun _ h => h
  | cons file rest ih => exact fun place hplace => ih _ place (w.keeps_set _ _ place hplace)

/-- What a chore comes to when it is begun with these things in their places. -/
def outcome (chore : Chore) (w : Stock) : Except Failure (List (Path × Item)) :=
  chore.effect (w.item (premises.place chore.input))
    (w.item (premises.place chore.listing)).isSome

/-- A run that was to write this has succeeded. -/
structure Ran (made : List (Path × Item)) (w v : Stock) : Prop where
  item : v.item = (premises.putAll w made).item
  barrier : v.barrier = w.barrier

theorem Ran.of_started {command : Command} {run : Run} {made : List (Path × Item)}
    {w between v : Stock} (hstarted : Stock.Started command run w between)
    (h : premises.Ran made between v) : premises.Ran made w v :=
  ⟨h.item.trans (premises.putAll_item_congr made hstarted.item), h.barrier.trans hstarted.barrier⟩

/-- These are the names in a directory, each once. -/
structure Lists (w : Stock) (directory : Path) (names : List Text) : Prop where
  nodup : names.Nodup
  mem_iff : ∀ name, name ∈ names ↔
    IsPlain name ∧ w.item (premises.place (directory.join ⟨name⟩)) ≠ none

def reading (path : Path) : Option Item → Except SystemError Bytes
  | none => .error .notFound
  | some (.file content) => .ok content
  | some _ => premises.otherContent path

def written (path : Path) (content : Bytes) (w : Stock) : Except SystemError Unit × Stock :=
  if IsLoose (w.item (premises.place path)) then
    (.ok (), w.set (premises.place path) (some (.file content)))
  else (premises.otherWriting path content, w)

theorem written_of_loose {path : Path} {w : Stock} (content : Bytes)
    (h : IsLoose (w.item (premises.place path))) : premises.written path content w =
      (.ok (), w.set (premises.place path) (some (.file content))) :=
  if_pos h

theorem written_of_not_loose {path : Path} {w : Stock} (content : Bytes)
    (h : ¬ IsLoose (w.item (premises.place path))) :
    premises.written path content w = (premises.otherWriting path content, w) :=
  if_neg h

/-- There is no file any more, if there was one. -/
def Passed (reply : Except SystemError Unit) : Prop := reply = .ok () ∨ reply = .error .notFound

/-- What comes of removing a file. -/
def removed (path : Path) (w : Stock) : Except SystemError Unit × Stock :=
  match w.item (premises.place path) with
  | none => (.error .notFound, w)
  | some .directory => (premises.directoryRemoval path, w)
  | some _ => (.ok (), w.set (premises.place path) none)

theorem removed_of_not_directory {path : Path} {w : Stock}
    (h : w.item (premises.place path) ≠ some .directory) :
    ∃ reply, Passed reply ∧
      premises.removed path w = (reply, w.set (premises.place path) none) := by
  unfold removed
  split
  · rename_i hnone
    exact ⟨_, Or.inr rfl, by rw [Stock.set_eq_self hnone]⟩
  · rename_i hdirectory
    exact absurd hdirectory h
  · exact ⟨_, Or.inl rfl, rfl⟩

/-- How requests are answered. A directory that is there needs not be made; nothing is said of other
directories that are to be made, of commands that are under watch, and of the runs of unknown
commands. A run that fails may leave anything anywhere. -/
def answers : Answers Stock
  | .isDirectory path, reply, w, v =>
      v = w ∧ reply = decide (w.item (premises.place path) = some .directory)
  | .isFile path, reply, w, v =>
      v = w ∧ reply = (w.item (premises.place path)).any Item.isFile
  | .currentDirectory, reply, w, v => v = w ∧ reply = premises.currentDirectory
  | .entryNames path, reply, w, v => v = w ∧
      match w.barrier (.entryNames path) with
      | some e => reply = .error e
      | none => ∃ names, reply = .ok names ∧ premises.Lists w path names
  | .fileContent path, reply, w, v => v = w ∧
      match w.barrier (.fileContent path) with
      | some e => reply = .error e
      | none => reply = premises.reading path (w.item (premises.place path))
  | .writeFile path content, reply, w, v =>
      match w.barrier (.writeFile path content) with
      | some e => reply = .error e
      | none => (reply, v) = premises.written path content w
  | .removeFile path, reply, w, v =>
      match w.barrier (.removeFile path) with
      | some e => reply = .error e ∧ v = w ∧
          (e = .notFound → w.item (premises.place path) = none)
      | none => (reply, v) = premises.removed path w
  | .makeDirectories path, reply, w, v =>
      w.item (premises.place path) = some .directory → reply = .ok () ∧ v = w
  | .launch command, reply, w, v =>
      command.timeout? = none → command.cancel? = none →
        match w.barrier (.launch command) with
        | some e => reply = .error (.impossible e)
        | none => ∃ run, reply = .ok run ∧ Stock.Started command run w v
  | .await run, reply, w, v =>
      ∀ command chore, w.jobs run = some command → premises.chore? command = some chore →
        match premises.outcome chore w with
        | .ok made => (∃ status output, reply = .exited status output ∧ status.isSuccess) ∧
            premises.Ran made w v
        | .error failure => reply = failure.ending
  | .turn _, _, w, v => v = w
  | .isCancelled _, _, w, v => v = w
  | .report _, _, w, v => v = w

end Premises

/-- The two stocks differ in regular files only, and not at all in these places. -/
structure Alike (places : Set Path) (w w' : Stock) : Prop where
  loose : ∀ place, w'.item place = w.item place ∨
    IsLoose (w.item place) ∧ IsLoose (w'.item place)
  same : ∀ place ∈ places, w'.item place = w.item place
  barrier : w'.barrier = w.barrier

namespace Alike

variable {premises : Premises} {places : Set Path} {w w' : Stock} {place : Path}

theorem mono {fewer : Set Path} (h : Alike places w w') (hsub : fewer ⊆ places) :
    Alike fewer w w' :=
  ⟨h.loose, fun place hplace => h.same place (hsub hplace), h.barrier⟩

theorem of_insert (h : Alike (insert place places) w w') : Alike places w w' :=
  h.mono (Set.subset_insert place places)

theorem insert_of_same (h : Alike places w w') (hsame : w'.item place = w.item place) :
    Alike (insert place places) w w' := by
  refine ⟨h.loose, fun other hother => ?_, h.barrier⟩
  rcases Set.mem_insert_iff.mp hother with rfl | hother
  · exact hsame
  · exact h.same other hother

theorem same_of_not_loose (h : Alike places w w') (hplace : ¬ IsLoose (w.item place)) :
    w'.item place = w.item place := by
  rcases h.loose place with hsame | ⟨hloose, -⟩
  · exact hsame
  · exact absurd hloose hplace

theorem directory_iff (h : Alike places w w') :
    w'.item place = some .directory ↔ w.item place = some .directory := by
  rcases h.loose place with hsame | ⟨hloose, hloose'⟩
  · rw [hsame]
  · constructor
    · intro hitem
      rw [hitem] at hloose'
      cases hloose'
    · intro hitem
      rw [hitem] at hloose
      cases hloose

theorem loose_iff (h : Alike places w w') :
    IsLoose (w'.item place) ↔ IsLoose (w.item place) := by
  rcases h.loose place with hsame | ⟨hloose, hloose'⟩
  · rw [hsame]
  · exact iff_of_true hloose' hloose

theorem set (h : Alike places w w') (place : Path) (item? : Option Item) :
    Alike (insert place places) (w.set place item?) (w'.set place item?) := by
  have hset : ∀ other, (w'.set place item?).item other = (w.set place item?).item other ∨
      other ≠ place := fun other => by
    by_cases hother : other = place
    · subst hother
      exact Or.inl (by simp)
    · exact Or.inr hother
  refine ⟨fun other => ?_, fun other hmem => ?_, h.barrier⟩
  · rcases hset other with hsame | hother
    · exact Or.inl hsame
    · simp only [Stock.set_item_of_ne _ _ hother]
      exact h.loose other
  · rcases hset other with hsame | hother
    · exact hsame
    · simp only [Stock.set_item_of_ne _ _ hother]
      exact h.same other ((Set.mem_insert_iff.mp hmem).resolve_left hother)

theorem of_item_eq {v v' : Stock} (h : Alike places w w') (hitem : v.item = w.item)
    (hbarrier : v.barrier = w.barrier) (hitem' : v'.item = w'.item)
    (hbarrier' : v'.barrier = w'.barrier) : Alike places v v' := by
  refine ⟨?_, ?_, ?_⟩
  · rw [hitem, hitem']
    exact h.loose
  · rw [hitem, hitem']
    exact h.same
  · rw [hbarrier, hbarrier']
    exact h.barrier

/-- Two runs that have written the same leave the stocks alike, there too. -/
theorem putAll (h : Alike places w w') (made : List (Path × Item)) :
    Alike (places ∪ {place | ∃ file ∈ made, place = premises.place file.1})
      (premises.putAll w made) (premises.putAll w' made) := by
  induction made generalizing places w w' with
  | nil => exact h.mono fun place hplace => by simpa using hplace
  | cons file rest ih =>
      refine (ih (h.set (premises.place file.1) (some file.2))).mono ?_
      rintro place (hplace | ⟨other, hother, rfl⟩)
      · exact Or.inl (Or.inr hplace)
      · rcases List.mem_cons.mp hother with rfl | hother
        · exact Or.inl (Or.inl rfl)
        · exact Or.inr ⟨other, hother, rfl⟩

theorem ran {made : List (Path × Item)} {v v' : Stock} (h : Alike places w w')
    (hv : premises.Ran made w v) (hv' : premises.Ran made w' v') :
    Alike (places ∪ {place | ∃ file ∈ made, place = premises.place file.1}) v v' := by
  refine (h.putAll made).of_item_eq hv.item ?_ hv'.item ?_
  · rw [hv.barrier, premises.putAll_barrier]
  · rw [hv'.barrier, premises.putAll_barrier]

end Alike

end Bytelink
