import Bytelink.Proofs.Workshop
import Mathlib.Data.List.Dedup

/-!
# A workshop that computes

A `Bench` has a list of files and a list of the runs that have been started. It does the whole work
of a run when somebody waits for it, and grants every request that it can. In a directory that is
named from the root it answers as a workshop may (`Bench.follows`).
-/
namespace Bytelink

/-- Files by their paths, the newest first, and the runs by their numbers. -/
structure Bench where
  files : List (Path × Bytes)
  jobs : List (Option Job)

def Site.IsTidy (site : Site) : Prop :=
  ∀ path name, IsPlain name → site.LeadsTo path name → path = site.directory.join ⟨name⟩

namespace Bench

def content? (b : Bench) (path : Path) : Option Bytes :=
  (b.files.find? (·.1 == path)).map (·.2)

/-- Every file is a regular one. -/
def view (b : Bench) : Workshop where
  node path := (b.content? path).map .file
  jobs run := b.jobs[run.number]?.join

def put (b : Bench) (path : Path) (content : Bytes) : Bench :=
  { b with files := (path, content) :: b.files }

def remove (b : Bench) (path : Path) : Bench :=
  { b with files := b.files.filter (·.1 != path) }

def setJob (b : Bench) (run : Run) (job? : Option Job) : Bench :=
  { b with jobs := b.jobs.set run.number job? }

def names (site : Site) (b : Bench) : List Text :=
  (b.files.filterMap fun file => file.1.fileName?.filter fun name =>
    decide (IsPlain name) && site.directory.join ⟨name⟩ == file.1).dedup

def putAll (site : Site) (b : Bench) (files : List (Text × Bytes)) : Bench :=
  files.foldl (fun b file => b.put (site.directory.join ⟨file.1⟩) file.2) b

def perform (site : Site) (b : Bench) (duty : Duty) : Option Bench :=
  if IsPlain duty.input then
    match (b.content? (site.directory.join ⟨duty.input⟩)).bind duty.effect with
    | none => none
    | some files =>
        let after := b.putAll site files
        if ∀ file ∈ files, IsPlain file.1 ∧
            after.content? (site.directory.join ⟨file.1⟩) = some file.2 then some after
        else none
  else none

/-- The bench after a run has succeeded, if it can. A run without a duty leaves an empty file. -/
def work (site : Site) (product : Path) (b : Bench) : Job → Option Bench
  | ⟨_, .succeeded⟩ => some b
  | ⟨some duty, .started⟩ => b.perform site duty
  | ⟨none, .started⟩ => some (b.put product [])
  | _ => none

def finish (site : Site) (product : Path) (b : Bench) (run : Run) : Ending × Bench :=
  match b.view.jobs run with
  | none => (.exited (.exited 0) [], b)
  | some job =>
      match b.work site product job with
      | some after => (.exited (.exited 0) [], after.setJob run none)
      | none => (.exited (.exited 1) [], b.setJob run (some ⟨job.duty?, .failed⟩))

/-- The answers of a bench. -/
def host (site : Site) (product : Path) : Host Bench where
  answer
    | .isDirectory _, b => (true, b)
    | .isFile path, b => ((b.content? path).isSome, b)
    | .currentDirectory, b => (.ok site.currentDirectory, b)
    | .entryNames _, b => (.ok (b.names site), b)
    | .fileContent path, b =>
        (match b.content? path with | some content => .ok content | none => .error .notFound, b)
    | .writeFile path content, b => (.ok (), b.put path content)
    | .removeFile path, b =>
        if (b.content? path).isSome then (.ok (), b.remove path) else (.error .notFound, b)
    | .makeDirectories _, b => (.ok (), b)
    | .launch command, b =>
        (.ok ⟨b.jobs.length⟩,
          { b with jobs := b.jobs ++ [some ⟨site.duty? command, .started⟩] })
    | .await run, b => b.finish site product run
    | .turn _, b => (b.jobs.length, b)
    | .isCancelled _, b => (false, b)
    | .report _, b => ((), b)

variable {site : Site} {b after : Bench} {product path : Path} {name : Text}

theorem content?_put (b : Bench) (path other : Path) (content : Bytes) :
    (b.put path content).content? other =
      if other = path then some content else b.content? other := by
  by_cases h : path = other
  · simp [content?, put, h]
  · simp [content?, put, h, Ne.symm h]

theorem content?_remove (b : Bench) (path other : Path) :
    (b.remove path).content? other = if other = path then none else b.content? other := by
  have hfind : (b.remove path).files.find? (·.1 == other) =
      if other = path then none else b.files.find? (·.1 == other) := by
    rw [remove, List.find?_filter]
    by_cases h : other = path
    · simp only [h, if_true, List.find?_eq_none]
      intro file _
      by_cases hf : file.1 = path <;> simp [hf]
    · simp only [h, if_false]
      congr 1
      funext file
      by_cases hf : file.1 = other <;> simp [hf, h]
  rw [content?, hfind]
  by_cases h : other = path <;> simp [h, content?]

theorem entry_view (b : Bench) (name : Text) :
    site.entry b.view name = (b.content? (site.directory.join ⟨name⟩)).map .file := rfl

theorem entry_put_of_ne {content : Bytes} (h : site.directory.join ⟨name⟩ ≠ path) :
    site.entry (b.put path content).view name = site.entry b.view name := by
  rw [entry_view, entry_view, content?_put, if_neg h]

theorem entry_remove_of_ne (h : site.directory.join ⟨name⟩ ≠ path) :
    site.entry (b.remove path).view name = site.entry b.view name := by
  rw [entry_view, entry_view, content?_remove, if_neg h]

theorem view_setJob {run : Run} {job : Job} (h : b.view.jobs run = some job)
    (job? : Option Job) : (b.setJob run job?).view = b.view.setJob run job? := by
  have hlt : run.number < b.jobs.length := by
    by_contra hge
    have hnone : b.jobs[run.number]? = none := List.getElem?_eq_none (Nat.le_of_not_lt hge)
    simp [view, hnone] at h
  refine congrArg (Workshop.mk _) (funext fun other => ?_)
  by_cases ho : other = run
  · simp [setJob, ho, hlt]
  · have hne : run.number ≠ other.number := fun he => ho (by cases other; cases run; simp_all)
    simp [setJob, view, ho, List.getElem?_set_ne hne]

theorem mem_names : name ∈ b.names site ↔ IsPlain name ∧ site.entry b.view name ≠ none := by
  have hentry : site.entry b.view name ≠ none ↔
      ∃ file ∈ b.files, file.1 = site.directory.join ⟨name⟩ := by
    simp [entry_view, content?]
  rw [names, List.mem_dedup, List.mem_filterMap, hentry]
  constructor
  · rintro ⟨file, hfile, hname⟩
    obtain ⟨-, hcond⟩ := Option.filter_eq_some_iff.mp hname
    simp only [Bool.and_eq_true, decide_eq_true_eq, beq_iff_eq] at hcond
    exact ⟨hcond.1, file, hfile, hcond.2.symm⟩
  · rintro ⟨hplain, file, hfile, hpath⟩
    refine ⟨file, hfile, Option.filter_eq_some_iff.mpr ⟨?_, by simp [hplain, hpath]⟩⟩
    rw [hpath, Path.fileName?_join _ hplain]

theorem setJob_eq_self {w : Workshop} {run : Run} {job? : Option Job} (h : w.jobs run = job?) :
    w.setJob run job? = w := by
  refine congrArg (Workshop.mk w.node) (funext fun r => ?_)
  by_cases hr : r = run
  · simp [hr, h]
  · simp [hr]

variable {run : Run} {duty : Duty} {w : Workshop}

theorem setJob_setJob (w : Workshop) (run : Run) (job? job?' : Option Job) :
    (w.setJob run job?).setJob run job?' = w.setJob run job?' := by
  refine congrArg (Workshop.mk w.node) (funext fun r => ?_)
  by_cases hr : r = run
  · simp [hr]
  · simp [hr, Workshop.setJob]

theorem steps_putAll (site : Site) {content : Bytes} {files all : List (Text × Bytes)} (b : Bench)
    (hjob : w.jobs run = some ⟨some duty, .loaded content⟩) (hnode : w.node = b.view.node)
    (heffect : duty.effect content = some all) (hmem : ∀ file ∈ files, file ∈ all)
    (hplain : ∀ file ∈ files, IsPlain file.1) :
    Relation.ReflTransGen site.Works w { w with node := (b.putAll site files).view.node } := by
  induction files generalizing b w with
  | nil =>
      rw [show ({ w with node := (b.putAll site []).view.node } : Workshop) = w from
        congrArg (Workshop.mk · w.jobs) hnode.symm]
  | cons file rest ih =>
      have hfile := hplain file List.mem_cons_self
      have hwrite : site.Works w
          { w with node := (b.put (site.directory.join ⟨file.1⟩) file.2).view.node } := by
        have hmay : duty.MayWrite (.loaded content) file.1 :=
          Or.inr ⟨all, heffect, List.mem_map_of_mem (hmem file List.mem_cons_self)⟩
        refine .write hjob hmay rfl fun other hother hne => ?_
        have hpath : site.directory.join ⟨other⟩ ≠ site.directory.join ⟨file.1⟩ := fun he =>
          hne (site.directory.join_injective hother hfile he)
        have hkept : site.entry (b.put (site.directory.join ⟨file.1⟩) file.2).view other =
            site.entry b.view other := entry_put_of_ne hpath
        simpa [Site.entry, hnode] using hkept
      refine .head hwrite (ih _ hjob rfl ?_ ?_)
      · exact fun next hnext => hmem next (List.mem_cons_of_mem file hnext)
      · exact fun next hnext => hplain next (List.mem_cons_of_mem file hnext)

theorem jobs_putAll (files : List (Text × Bytes)) (b : Bench) :
    (b.putAll site files).jobs = b.jobs := by
  induction files generalizing b with
  | nil => rfl
  | cons file rest ih => exact ih _

theorem exists_of_perform (h : b.perform site duty = some after) : ∃ content files,
    IsPlain duty.input ∧ site.entry b.view duty.input = some (.file content) ∧
      duty.effect content = some files ∧ after = b.putAll site files ∧
      ∀ file ∈ files, IsPlain file.1 ∧ site.entry after.view file.1 = some (.file file.2) := by
  unfold perform at h
  split at h
  · rename_i hinput
    split at h
    · cases h
    · rename_i files hfiles
      obtain ⟨content, hcontent, heffect⟩ := Option.bind_eq_some_iff.mp hfiles
      dsimp only at h
      split at h
      · rename_i hleft
        obtain rfl := Option.some.inj h
        refine ⟨content, files, hinput, by rw [entry_view, hcontent]; rfl, heffect, rfl, ?_⟩
        exact fun file hfile =>
          ⟨(hleft file hfile).1, by rw [entry_view, (hleft file hfile).2]; rfl⟩
      · cases h
  · cases h

/-- A run that has been started does its duty step by step. -/
theorem steps_perform (hjob : b.view.jobs run = some ⟨some duty, .started⟩)
    (h : b.perform site duty = some after) :
    after.jobs = b.jobs ∧ Relation.ReflTransGen site.Works b.view
      (after.view.setJob run (some ⟨some duty, .succeeded⟩)) := by
  obtain ⟨content, files, hinput, hcontent, heffect, rfl, hleft⟩ := exists_of_perform h
  have hjobs : (b.putAll site files).jobs = b.jobs := jobs_putAll files b
  refine ⟨hjobs, ?_⟩
  have hload : site.Works b.view _ := .load hjob hinput hcontent
  have hloaded := Workshop.setJob_jobs_self b.view run (some ⟨some duty, .loaded content⟩)
  have hwrite := steps_putAll site b hloaded rfl heffect (fun _ hfile => hfile)
    fun file hfile => (hleft file hfile).1
  have hfinish : site.Works { b.view.setJob run (some ⟨some duty, .loaded content⟩) with
      node := (b.putAll site files).view.node } _ :=
    .finish hloaded heffect fun file hfile => (hleft file hfile).2
  have hlast : Workshop.setJob { b.view.setJob run (some ⟨some duty, .loaded content⟩) with
      node := (b.putAll site files).view.node } run (some ⟨some duty, .succeeded⟩) =
      (b.putAll site files).view.setJob run (some ⟨some duty, .succeeded⟩) := by
    refine congrArg (Workshop.mk _) (funext fun r => ?_)
    by_cases hr : r = run
    · simp [hr]
    · simp [hr, Workshop.setJob, view, hjobs]
  exact hlast ▸ (hwrite.head hload).tail hfinish

theorem steps_work {job : Job} (hjob : b.view.jobs run = some job)
    (h : b.work site product job = some after) :
    after.jobs = b.jobs ∧ Relation.ReflTransGen site.Works b.view
      (after.view.setJob run (some ⟨job.duty?, .succeeded⟩)) := by
  unfold work at h
  split at h
  · obtain rfl := Option.some.inj h
    exact ⟨rfl, by rw [setJob_eq_self hjob]⟩
  · exact steps_perform hjob h
  · obtain rfl := Option.some.inj h
    refine ⟨rfl, ?_⟩
    have hspoil : site.Works b.view (b.put product []).view := .spoil hjob (Or.inr rfl) rfl
    exact .tail (.single hspoil) (.exit hjob)
  · cases h

/-- Awaiting a run brings it to its end, and forgets it if it has succeeded. -/
theorem finish_answers (site : Site) (product : Path) (b : Bench) (run : Run) :
    site.answers (.await run) (b.finish site product run).1 b.view
      (b.finish site product run).2.view := by
  unfold finish
  split
  · rename_i hnone
    refine ⟨b.view, .refl, fun _ => rfl, fun job hjob => ?_⟩
    rw [hnone] at hjob
    cases hjob
  · rename_i job hjob
    split
    · rename_i after hwork
      obtain ⟨hjobs, hsteps⟩ := steps_work hjob hwork
      have hafter : after.view.jobs run = some job := by rw [view, hjobs]; exact hjob
      refine ⟨_, hsteps, fun hnone => ?_, fun job' hjob' => ⟨fun _ => ?_, fun hnot => ?_⟩⟩
      · simp at hnone
      · obtain rfl : _ = job' := by simpa using hjob'
        exact ⟨rfl, by rw [view_setJob hafter, setJob_setJob]⟩
      · exact absurd ⟨_, _, rfl, rfl⟩ hnot
    · rename_i hwork
      have hphase : job.phase ≠ .succeeded := by
        obtain ⟨duty?, phase⟩ := job
        rintro rfl
        cases hwork
      refine ⟨_, .single (.fail hjob hphase), fun hnone => ?_,
        fun job' hjob' => ⟨?_, fun _ => ?_⟩⟩
      · simp at hnone
      · rintro ⟨status, output, hexited, hsuccess⟩
        cases hexited
        cases hsuccess
      · obtain rfl : _ = job' := by simpa using hjob'
        exact ⟨rfl, view_setJob hjob _⟩

theorem launch_answers (site : Site) (product : Path) (b : Bench) (command : Command) :
    site.answers (.launch command) ((host site product).answer (.launch command) b).1 b.view
      ((host site product).answer (.launch command) b).2.view := by
  refine ⟨_, .refl, fun _ h => (nomatch h), fun run hrun => ?_⟩
  obtain rfl := Except.ok.inj hrun
  refine ⟨by simp [view], congrArg (Workshop.mk _) (funext fun r => ?_)⟩
  by_cases hr : r = ⟨b.jobs.length⟩
  · simp [host, hr]
  · have hne : r.number ≠ b.jobs.length := fun he => hr (by rw [← he])
    rcases Nat.lt_or_gt_of_ne hne with hlt | hgt
    · simp [host, view, hr, List.getElem?_append_left hlt]
    · have hle : (b.jobs ++ [some (⟨site.duty? command, .started⟩ : Job)]).length ≤ r.number := by
        rw [List.length_append, List.length_singleton]
        exact hgt
      simp [host, view, hr, List.getElem?_eq_none hle, List.getElem?_eq_none (Nat.le_of_lt hgt)]

theorem writeFile_answers (hsite : site.IsTidy) (product path : Path) (content : Bytes)
    (b : Bench) :
    site.answers (.writeFile path content)
      ((host site product).answer (.writeFile path content) b).1 b.view
      ((host site product).answer (.writeFile path content) b).2.view := by
  refine ⟨_, .refl, rfl, fun _ name hplain hpath => ?_⟩
  obtain rfl := hsite path name hplain hpath
  refine ⟨?_, fun other hother hne => ?_⟩
  · simp only [host, entry_view, content?_put, if_true, Option.map_some]
  · exact entry_put_of_ne fun he => hne (site.directory.join_injective hother hplain he)

theorem removeFile_answers (site : Site) (product path : Path) (b : Bench) :
    site.answers (.removeFile path) ((host site product).answer (.removeFile path) b).1 b.view
      ((host site product).answer (.removeFile path) b).2.view := by
  cases hcontent : b.content? path with
  | none =>
      have hanswer : (host site product).answer (.removeFile path) b = (.error .notFound, b) := by
        simp [host, hcontent]
      rw [hanswer]
      exact ⟨_, .refl, rfl, fun h => (nomatch h), fun _ => ⟨rfl, by simp [view, hcontent]⟩⟩
  | some content =>
      have hanswer : (host site product).answer (.removeFile path) b = (.ok (), b.remove path) := by
        simp [host, hcontent]
      rw [hanswer]
      refine ⟨_, .refl, rfl, fun _ => ⟨?_, fun name hplain hname => ?_⟩, fun h => (nomatch h)⟩
      · simp [view, content?_remove]
      · refine entry_remove_of_ne fun he => hname ?_
        rw [← he, Path.fileName?_join _ hplain]

theorem follows (hsite : site.IsTidy) : (host site product).Follows view site.answers := by
  intro r b
  cases r with
  | await run => exact finish_answers site product b run
  | isDirectory path => exact ⟨_, .refl, rfl⟩
  | turn workers => exact ⟨_, .refl, rfl⟩
  | isCancelled token => exact ⟨_, .refl, rfl⟩
  | report record => exact ⟨_, .refl, rfl⟩
  | isFile path =>
      refine ⟨_, .refl, rfl, ?_⟩
      have hnode : (b.content? path).isSome = true ↔
          ∃ content, b.view.node path = some (.file content) := by
        simp [view, Option.isSome_iff_exists]
      exact hnode
  | currentDirectory => exact ⟨_, .refl, rfl, fun path h => (Except.ok.inj h).symm⟩
  | entryNames path =>
      refine ⟨_, .refl, rfl, fun _ names hnames => ?_⟩
      obtain rfl := Except.ok.inj hnames
      exact ⟨List.nodup_dedup _, fun name => mem_names⟩
  | fileContent path =>
      refine ⟨_, .refl, rfl, ?_⟩
      simp only [host, view]
      cases b.content? path with
      | none => simp
      | some content => exact ⟨fun _ h => Or.inl (Except.ok.inj h ▸ rfl), by simp⟩
  | writeFile path content => exact writeFile_answers hsite product path content b
  | removeFile path => exact removeFile_answers site product path b
  | makeDirectories path => exact ⟨_, .refl, rfl, fun _ name _ => Or.inl rfl⟩
  | launch command => exact launch_answers site product b command

end Bench

/-- In a directory below the root the path of an entry is its path from the root. -/
theorem Path.absolute_join_of_root {base name : Text} (hbase : IsPlain base) (hname : IsPlain name)
    (directory : Path) : ((⟨'/' :: base⟩ : Path).join ⟨name⟩).absolute directory =
      .ok ((⟨'/' :: base⟩ : Path).join ⟨name⟩) := by
  have hends : (⟨'/' :: base⟩ : Path).endsInSlash = false := endsInSlash_append ['/'] hbase
  have hjoin : (⟨'/' :: base⟩ : Path).join ⟨name⟩ = ⟨'/' :: (base ++ '/' :: name)⟩ := by
    simp [join_eq _ hname, lead, hends]
  have hsplit : Text.splitOn '/' ('/' :: (base ++ '/' :: name)) = [[], base, name] := by
    rw [← List.nil_append ('/' :: _), Text.splitOn_append_cons, Text.splitOn_append_cons,
      Text.splitOn_of_not_mem hbase.no_slash, Text.splitOn_of_not_mem hname.no_slash]
    rfl
  have hcomponents : (⟨'/' :: (base ++ '/' :: name)⟩ : Path).components =
      [.root, .name base, .name name] := by
    simp [components, hsplit, hbase.component, hname.component]
  have hstart : start directory ⟨'/' :: (base ++ '/' :: name)⟩ = ⟨['/']⟩ := by
    obtain ⟨c, rest, rfl⟩ := List.exists_cons_of_ne_nil hbase.ne_nil
    have hc : c ≠ '/' := fun he => hbase.no_slash (by simp [he])
    simp [start, isAbsolute, Ne.symm hc]
  have hfirst : (⟨['/']⟩ : Path).join ⟨base⟩ = ⟨'/' :: base⟩ := by
    simp [join_eq _ hbase, lead, endsInSlash]
  have hlast : (⟨'/' :: (base ++ '/' :: name)⟩ : Path).endsInSlash = false := by
    simpa using endsInSlash_append ('/' :: (base ++ ['/'])) hname
  have hnames : [Component.root, .name base, .name name].filterMap Component.text? =
      [base, name] := rfl
  simp [absolute, hjoin, hcomponents, hstart, hnames, hfirst, hlast]

theorem Site.isTidy_of_root {site : Site} {base : Text} (hbase : IsPlain base)
    (hdirectory : site.directory = ⟨'/' :: base⟩) : site.IsTidy := by
  rintro path name hname (hpath | hpath)
  · exact hpath
  · rw [hdirectory, Path.absolute_join_of_root hbase hname] at hpath
    rw [hdirectory]
    exact (Except.ok.inj hpath).symm

end Bytelink
