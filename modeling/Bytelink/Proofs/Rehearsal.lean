import Bytelink.Proofs.Scene

/-!
# A scene that computes

A `Rehearsal` says what each run does, by the number of the run: the files that it writes and the
code with which it exits. Its host plays a build in a scene (`Rehearsal.follows`): a run does its
work when somebody waits for it, and every request is granted that can be.
-/
namespace Bytelink

structure Rehearsal where
  directory : Path
  currentDirectory : Path
  /-- The names that the source directory is said to have. -/
  names : List Text
  files : Run → List (Path × Bytes)
  code : Run → Nat

namespace Places

def put (places : Places) (path : Path) (content : Bytes) (maker? : Option Run) : Places :=
  fun other => if other = path then some ⟨.file content, false, maker?⟩ else places other

def putAll (places : Places) (files : List (Path × Bytes)) (maker? : Option Run) : Places :=
  files.foldl (fun places file => places.put file.1 file.2 maker?) places

variable {places : Places} {path : Path} {files : List (Path × Bytes)} {maker? : Option Run}

/-- What stands somewhere has stood there before, or is one of the files. -/
theorem of_putAll {standing : Standing} (h : places.putAll files maker? path = some standing) :
    places path = some standing ∨ standing.maker? = maker? ∧ standing.isLink = false ∧
      path ∈ files.map (·.1) := by
  induction files generalizing places with
  | nil => exact Or.inl h
  | cons file rest ih =>
      rcases ih h with hput | ⟨hmaker, hlink, hmem⟩
      · by_cases hpath : path = file.1
        · simp only [put, if_pos hpath] at hput
          obtain rfl := Option.some.inj hput
          exact Or.inr ⟨rfl, rfl, hpath ▸ List.mem_cons_self⟩
        · simp only [put, if_neg hpath] at hput
          exact Or.inl hput
      · exact Or.inr ⟨hmaker, hlink, List.mem_cons_of_mem _ hmem⟩

theorem putAll_eq (h : path ∉ files.map (·.1)) : places.putAll files maker? path = places path := by
  induction files generalizing places with
  | nil => rfl
  | cons file rest ih =>
      rw [List.map_cons, List.mem_cons, not_or] at h
      exact (ih h.2).trans (if_neg h.1)

end Places

namespace Rehearsal

variable (rehearsal : Rehearsal)

def play (run : Run) (before : Places) : Places :=
  before.putAll (rehearsal.files run) (some run)

def setting : Setting where
  directory := rehearsal.directory
  currentDirectory := rehearsal.currentDirectory
  step run _ before after := after = rehearsal.play run before
  exit run _ places := rehearsal.code run = 0 ∧ ∃ before, places = rehearsal.play run before

def fresh (w : Scene) : Run :=
  ⟨(w.runs.map (·.1.number) ++ w.ended.map (·.number)).foldr max 0 + 1⟩

def isPlaying (w : Scene) (run : Run) : Bool :=
  (w.runs.map (·.1)).contains run && !w.ended.contains run

def holds (places : Places) (path : Path) : Option Bytes :=
  match places path with
  | some ⟨.file content, _, _⟩ => some content
  | _ => none

/-- The places after a write, if nothing but a file of the build itself stands in its way. -/
def written (places : Places) (path : Path) (content : Bytes) : Option Places :=
  match places path with
  | none => some (places.put path content none)
  | some ⟨.file _, false, maker?⟩ => some (places.put path content maker?)
  | _ => none

def reply (w : Scene) : (r : Request) → r.Reply × Places
  | .isDirectory _ => (true, w.places)
  | .isFile path => ((holds w.places path).isSome, w.places)
  | .currentDirectory => (.ok rehearsal.currentDirectory, w.places)
  | .entryNames _ => (.ok rehearsal.names, w.places)
  | .fileContent path =>
      (match holds w.places path with | some content => .ok content | none => .error .notFound,
        w.places)
  | .writeFile path content =>
      match written w.places path content with
      | some after => (.ok (), after)
      | none => (.error .notFound, w.places)
  | .removeFile path =>
      match w.places path with
      | some _ => (.ok (), fun other => if other = path then none else w.places other)
      | none => (.error .notFound, w.places)
  | .makeDirectories _ => (.ok (), w.places)
  | .launch _ => (.ok (fresh w), w.places)
  | .await run =>
      if isPlaying w run then
        (.exited (.exited (rehearsal.code run)) [], rehearsal.play run w.places)
      else (.exited (.exited 1) [], w.places)
  | .turn _ => ((0 : Nat), w.places)
  | .isCancelled _ => (false, w.places)
  | .report _ => ((), w.places)

def host : Host Scene where
  answer r w := ((rehearsal.reply w r).1, w.reply (rehearsal.reply w r).2 r (rehearsal.reply w r).1)

def Grants (w : Scene) (r : Request) : Prop :=
  rehearsal.setting.answers r (rehearsal.host.answer r w).1 w (rehearsal.host.answer r w).2

variable {rehearsal} {w : Scene} {run : Run} {path : Path} {places : Places}

theorem le_foldr_max {numbers : List Nat} {n : Nat} (h : n ∈ numbers) :
    n ≤ numbers.foldr max 0 := by
  induction numbers with
  | nil => cases h
  | cons m rest ih =>
      rcases List.mem_cons.mp h with rfl | h
      · exact Nat.le_max_left _ _
      · exact Nat.le_trans (ih h) (Nat.le_max_right _ _)

theorem fresh_not_mem (w : Scene) : fresh w ∉ w.ended ∧ fresh w ∉ w.runs.map (·.1) := by
  have hnot : (fresh w).number ∉ w.runs.map (·.1.number) ++ w.ended.map (·.number) := by
    intro h
    have hle := le_foldr_max h
    exact absurd hle (Nat.not_succ_le_self _)
  rw [List.mem_append, not_or] at hnot
  constructor
  · exact fun h => hnot.2 (List.mem_map_of_mem h)
  · intro h
    obtain ⟨x, hx, he⟩ := List.mem_map.mp h
    exact hnot.1 (he ▸ List.mem_map_of_mem hx)

theorem holds_eq_some_iff {content : Bytes} :
    holds w.places path = some content ↔ w.Holds path content := by
  unfold holds Scene.Holds
  split
  · rename_i found isLink maker? hplace
    simp [hplace]
  · rename_i hplace
    refine ⟨fun h => (nomatch h), fun ⟨⟨entry, isLink, maker?⟩, hstanding, hfile⟩ => ?_⟩
    subst hfile
    exact absurd hstanding (hplace content isLink maker?)

/-- A file is put where there is none, or where there is one that keeps its marks. -/
theorem put_written {content : Bytes} {maker? : Option Run}
    (hold : ∀ standing, places path = some standing →
      standing.isLink = false ∧ standing.maker? = maker?) :
    Setting.Written path places (places.put path content maker?) := by
  constructor
  · intro other standing hstanding
    by_cases h : other = path
    · obtain ⟨hlink, hmaker⟩ := hold standing (h ▸ hstanding)
      exact ⟨_, if_pos h, hlink.symm, hmaker.symm⟩
    · exact ⟨standing, (if_neg h).trans hstanding, rfl, rfl⟩
  · intro other standing hnone hstanding
    by_cases h : other = path
    · obtain rfl := Option.some.inj ((if_pos h).symm.trans hstanding)
      exact ⟨rfl, Or.inl (h ▸ rfl)⟩
    · have hsame : places other = some standing := (if_neg h).symm.trans hstanding
      rw [hnone] at hsame
      cases hsame

theorem written_refl (places : Places) (path : Path) : Setting.Written path places places := by
  refine ⟨fun _ standing h => ⟨standing, h, rfl, rfl⟩, fun other standing hnone hstanding => ?_⟩
  rw [hnone] at hstanding
  cases hstanding

theorem written_of_written {content : Bytes} {after : Places}
    (h : written places path content = some after) : Setting.Written path places after := by
  unfold written at h
  split at h
  · rename_i hplace
    obtain rfl := Option.some.inj h
    exact put_written fun standing hstanding => by simp [hplace] at hstanding
  · rename_i hplace
    obtain rfl := Option.some.inj h
    refine put_written fun standing hstanding => ?_
    obtain rfl := Option.some.inj (hplace.symm.trans hstanding)
    exact ⟨rfl, rfl⟩
  · cases h

theorem grants_of_serves {r : Request} {between : Scene}
    (hsteps : Relation.ReflTransGen rehearsal.setting.Works w between) (hlog : between.log = w.log)
    (hserves : rehearsal.setting.Serves between (rehearsal.reply w r).2 r (rehearsal.reply w r).1) :
    rehearsal.Grants w r := by
  refine ⟨between, _, hsteps, hserves, ?_⟩
  show w.reply (rehearsal.reply w r).2 r (rehearsal.reply w r).1 = _
  rw [Scene.reply, Scene.reply, hlog]
  rfl

theorem mem_runs_of_isPlaying (h : isPlaying w run = true) :
    (∃ command, (run, command) ∈ w.runs) ∧ run ∉ w.ended := by
  simpa [isPlaying] using h

theorem grants_await (run : Run) : rehearsal.Grants w (.await run) := by
  by_cases h : isPlaying w run
  · obtain ⟨⟨command, hmem⟩, hnot⟩ := mem_runs_of_isPlaying h
    have hreply : rehearsal.reply w (.await run) =
        (.exited (.exited (rehearsal.code run)) [], rehearsal.play run w.places) := if_pos h
    have hwork : rehearsal.setting.Works w ⟨rehearsal.play run w.places, w.log⟩ :=
      ⟨run, command, ⟨hmem, hnot⟩, ⟨rfl, fun _ _ h' => (Places.of_putAll h').imp_right And.left⟩,
        rfl⟩
    refine grants_of_serves (.single hwork) rfl ?_
    rw [hreply]
    refine ⟨rfl, fun _ status output _ hexited hstatus => ⟨?_, w.places, rfl⟩⟩
    cases hexited
    simpa [ExitStatus.isSuccess] using hstatus
  · have hreply : rehearsal.reply w (.await run) = (.exited (.exited 1) [], w.places) := if_neg h
    refine grants_of_serves .refl rfl ?_
    rw [hreply]
    refine ⟨rfl, fun _ status output _ hexited hstatus => ?_⟩
    cases hexited
    cases hstatus

theorem grants_fileContent (path : Path) : rehearsal.Grants w (.fileContent path) := by
  refine grants_of_serves .refl rfl ?_
  cases hholds : holds w.places path with
  | none =>
      have hreply : rehearsal.reply w (.fileContent path) = (.error .notFound, w.places) := by
        simp only [reply, hholds]
      rw [hreply]
      refine ⟨rfl, fun _ h => (nomatch h), fun _ content h => ?_⟩
      rw [holds_eq_some_iff.mpr h] at hholds
      cases hholds
  | some content =>
      have hreply : rehearsal.reply w (.fileContent path) = (.ok content, w.places) := by
        simp only [reply, hholds]
      rw [hreply]
      refine ⟨rfl, fun other hother => ?_, fun h => (nomatch h)⟩
      obtain rfl := Except.ok.inj hother
      obtain ⟨standing, hstanding, -⟩ := holds_eq_some_iff.mp hholds
      refine ⟨by simp [hstanding], fun found hfound => ?_⟩
      exact Option.some.inj ((holds_eq_some_iff.mpr hfound).symm.trans hholds)

theorem grants_writeFile (path : Path) (content : Bytes) :
    rehearsal.Grants w (.writeFile path content) := by
  refine grants_of_serves .refl rfl ?_
  show Setting.Written path w.places (rehearsal.reply w (.writeFile path content)).2
  cases hwritten : written w.places path content with
  | none =>
      have hreply : (rehearsal.reply w (.writeFile path content)).2 = w.places := by
        simp only [reply, hwritten]
      exact hreply ▸ written_refl w.places path
  | some after =>
      have hreply : (rehearsal.reply w (.writeFile path content)).2 = after := by
        simp only [reply, hwritten]
      exact hreply ▸ written_of_written hwritten

theorem grants_removeFile (path : Path) : rehearsal.Grants w (.removeFile path) := by
  refine grants_of_serves .refl rfl ?_
  cases hplace : w.places path with
  | none =>
      have hreply : rehearsal.reply w (.removeFile path) = (.error .notFound, w.places) := by
        simp only [reply, hplace]
      rw [hreply]
      exact ⟨fun h => (nomatch h), fun _ => rfl, fun _ => hplace⟩
  | some standing =>
      have hreply : rehearsal.reply w (.removeFile path) =
          (.ok (), fun other => if other = path then none else w.places other) := by
        simp only [reply, hplace]
      rw [hreply]
      refine ⟨fun _ => ⟨if_pos rfl, fun other standing hstanding => ?_⟩, fun h => absurd rfl h,
        fun h => (nomatch h)⟩
      by_cases h : other = path
      · simp [h] at hstanding
      · exact ⟨standing, (if_neg h).symm.trans hstanding, rfl, rfl⟩

theorem follows (rehearsal : Rehearsal) : rehearsal.host.Follows id rehearsal.setting.answers := by
  intro r w
  cases r with
  | await run => exact grants_await run
  | fileContent path => exact grants_fileContent path
  | writeFile path content => exact grants_writeFile path content
  | removeFile path => exact grants_removeFile path
  | isDirectory | entryNames | turn | isCancelled | report => exact grants_of_serves .refl rfl rfl
  | isFile path =>
      refine grants_of_serves .refl rfl ⟨rfl, ?_⟩
      simp only [← holds_eq_some_iff]
      exact Option.isSome_iff_exists
  | currentDirectory =>
      exact grants_of_serves .refl rfl ⟨rfl, fun path h => (Except.ok.inj h).symm⟩
  | makeDirectories path =>
      refine grants_of_serves .refl rfl ⟨fun _ _ _ => rfl, ?_⟩
      exact fun _ standing _ h _ => ⟨standing, h, rfl, rfl⟩
  | launch command =>
      refine grants_of_serves .refl rfl ⟨rfl, fun run hrun => ?_⟩
      obtain rfl := Except.ok.inj hrun
      exact fresh_not_mem w

end Rehearsal

/-- A scene with these files, before the first request. -/
def Scene.ofFiles (files : List (Path × Bytes)) : Scene where
  places := Places.putAll (fun _ => none) files none
  log := []

theorem Scene.noLinks_ofFiles (setting : Setting) (files : List (Path × Bytes)) :
    setting.NoLinks (Scene.ofFiles files).places := by
  intro path standing _ hstanding
  rcases Places.of_putAll hstanding with hnone | ⟨-, hlink, -⟩
  · cases hnone
  · exact hlink

/-- Two runs preprocess, two compile, and the last one assembles. -/
def rebuilding : Rehearsal where
  directory := ⟨['/', 's', 'r', 'c']⟩
  currentDirectory := ⟨['/']⟩
  names := [['b', '.', 'c'], ['a', '.', 'c']]
  files run :=
    match run.number with
    | 1 => [(⟨"/src/a.i"⟩, [])]
    | 2 => [(⟨"/src/b.i"⟩, [])]
    | 3 => [(⟨"/src/a.j"⟩, Utf8.encode "nop")]
    | 4 => [(⟨"/src/b.j"⟩, Utf8.encode "nop")]
    | 5 => [(⟨"/src/A.class"⟩, [2])]
    | _ => []
  code _ := 0

end Bytelink
