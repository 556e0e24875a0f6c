import Bytelink.Proofs.Workers

/-!
# The moves of the workers

A move starts a run or takes the result of one, and keeps a crew `Underway`: good until something
fails, doomed from then on (`ensures_move`). Each move leaves fewer moves to be made, so the workers
come to an end whatever the order in which they are asked (`ensures_runWorkers`). There a good crew
has preprocessed everything, in order, and a doomed one reports a failure (`Underway.finished`).
-/
namespace Bytelink
namespace Site

variable {site : Site} {J : Workshop → Prop} {before w w' : Workshop} {run : Run} {job : Job}
variable {crew front back : Crew} {names : List Text} {worker : Worker} {name : Text}

theorem Follows.of_ready {todo : List Path} {outputs : List Text}
    (h : site.Follows before w (names, .ready todo outputs)) :
    ∃ settled rest, names = settled ++ rest ∧
      todo = rest.map (fun name => site.directory.join ⟨name⟩) ∧
      outputs = (settled.map fun name => (site.preprocessing name).output).reverse ∧
      ∀ name ∈ settled, site.Settled before w name := by
  generalize hp : (names, Worker.ready todo outputs) = p at h
  cases h with
  | @ready settled rest hsettled =>
      cases hp
      exact ⟨settled, rest, rfl, rfl, rfl, hsettled⟩
  | waiting => cases hp

theorem Follows.of_waiting {source : Path} {command : Command} {todo : List Path}
    {outputs : List Text}
    (h : site.Follows before w (names, .waiting source command run todo outputs)) :
    ∃ settled name rest phase, names = settled ++ name :: rest ∧
      source = site.directory.join ⟨name⟩ ∧
      todo = rest.map (fun name => site.directory.join ⟨name⟩) ∧
      outputs = (settled.map fun name => (site.preprocessing name).output).reverse ∧
      (∀ name ∈ settled, site.Settled before w name) ∧
      w.jobs run = some ⟨some (site.preprocessing name), phase⟩ := by
  generalize hp : (names, Worker.waiting source command run todo outputs) = p at h
  cases h with
  | ready => cases hp
  | @waiting settled rest name command run phase hsettled hjob =>
      cases hp
      exact ⟨settled, name, rest, phase, rfl, rfl, rfl, rfl, hsettled, hjob⟩

/-- What is settled stays so when a run of another source is started, or a run is forgotten. -/
theorem Settled.setJob (h : site.Settled before w name) {job? : Option Job}
    (hjob : ∀ job, job? = some job → job.duty? ≠ some (site.preprocessing name)) :
    site.Settled before (w.setJob run job?) name := by
  refine ⟨h.1.of_entry fun _ _ => rfl, fun r job hr => ?_⟩
  by_cases hrun : r = run
  · subst hrun
    rw [Workshop.setJob_jobs_self] at hr
    exact hjob job hr
  · rw [Workshop.setJob_jobs_of_ne w _ hrun] at hr
    exact h.2 r job hr

theorem Follows.job_of_waitsFor {p : List Text × Worker} (h : site.Follows before w p)
    (hrun : p.2.WaitsFor run) : ∃ name ∈ p.1, ∃ phase,
      w.jobs run = some ⟨some (site.preprocessing name), phase⟩ := by
  obtain ⟨source, command, todo, outputs, hworker⟩ := hrun
  cases h with
  | ready => cases hworker
  | @waiting settled rest name command' run' phase _ hjob =>
      cases hworker
      exact ⟨name, by simp, phase, hjob⟩

/-- The other workers go on as before when a run is started or forgotten that is not theirs. -/
theorem Follows.setJob {p : List Text × Worker} (h : site.Follows before w p) {job? : Option Job}
    (hjob : ∀ job, job? = some job → ∀ name ∈ p.1, job.duty? ≠ some (site.preprocessing name))
    (hrun : ¬ p.2.WaitsFor run) : site.Follows before (w.setJob run job?) p := by
  cases h with
  | ready hsettled =>
      exact .ready fun name hname => (hsettled name hname).setJob fun job he =>
        hjob job he name (List.mem_append_left _ hname)
  | @waiting settled todo name command run' phase hsettled hwaits =>
      have hne : run' ≠ run := by
        rintro rfl
        exact hrun ⟨_, command, _, _, rfl⟩
      rw [← Workshop.setJob_jobs_of_ne w job? hne] at hwaits
      refine .waiting (fun n hn => (hsettled n hn).setJob fun job he => ?_) hwaits
      exact hjob job he n (List.mem_append_left _ hn)

/-- One worker moves: the run that it starts or forgets is its own. -/
theorem Good.move {worker' : Worker} {job? : Option Job}
    (hcrew : IsCrew (front ++ (names, worker) :: back))
    (h : site.Good before (front ++ (names, worker) :: back) w)
    (hfollows : site.Follows before (w.setJob run job?) (names, worker'))
    (hjob : ∀ job, job? = some job → ∃ name ∈ names, job.duty? = some (site.preprocessing name) ∧
      site.Sound before w name job.phase ∧ worker'.WaitsFor run)
    (hown : ∀ r, worker.WaitsFor r → r = run)
    (hothers : ∀ p ∈ front ++ back, ¬ p.2.WaitsFor run) :
    site.Good before (front ++ (names, worker') :: back) (w.setJob run job?) := by
  have hself : (names, worker) ∈ front ++ (names, worker) :: back := by simp
  have hself' : (names, worker') ∈ front ++ (names, worker') :: back := by simp
  have hold : ∀ p ∈ front ++ back, p ∈ front ++ (names, worker) :: back := fun p hp =>
    mem_middle.mpr (Or.inr hp)
  have hnew : ∀ p ∈ front ++ back, p ∈ front ++ (names, worker') :: back := fun p hp =>
    mem_middle.mpr (Or.inr hp)
  refine ⟨fun p hp => ?_, fun p hp => ?_, fun r job hr => ?_⟩
  · rcases mem_middle.mp hp with rfl | hp
    · exact h.contents (names, worker) hself
    · exact h.contents p (hold p hp)
  · rcases mem_middle.mp hp with rfl | hp
    · exact hfollows
    · refine (h.follows p (hold p hp)).setJob ?_ (hothers p hp)
      intro job he n hn hduty
      obtain ⟨name, hname, hduty', -⟩ := hjob job he
      rw [hduty'] at hduty
      obtain rfl : name = n := preprocessing_injective (hcrew.sources _ hself name hname)
        (hcrew.sources p (hold p hp) n hn) (Option.some.inj hduty)
      exact hcrew.not_mem_other hname hp hn
  · by_cases hrun : r = run
    · subst hrun
      rw [Workshop.setJob_jobs_self] at hr
      obtain ⟨name, hname, hduty, hsound, hwaits⟩ := hjob job hr
      exact ⟨_, hself', name, hname, hduty, sound_setJob.mpr hsound, hwaits⟩
    · rw [Workshop.setJob_jobs_of_ne w _ hrun] at hr
      obtain ⟨p, hp, other, hother, hduty, hsound, hwaits⟩ := h.owned r job hr
      rcases mem_middle.mp hp with rfl | hp
      · exact absurd (hown r hwaits) hrun
      · exact ⟨p, hnew p hp, other, hother, hduty, sound_setJob.mpr hsound, hwaits⟩

/-- A worker starts its next source. -/
theorem Good.launch {source : Path} {command : Command} {todo : List Path} {outputs : List Text}
    (hcrew : IsCrew (front ++ (names, .ready (source :: todo) outputs) :: back))
    (h : site.Good before (front ++ (names, .ready (source :: todo) outputs) :: back) w)
    (hfree : w.jobs run = none) :
    site.Good before (front ++ (names, .waiting source command run todo outputs) :: back)
      (w.setJob run (some ⟨some (.preprocess site.tools (intermediateName source ['c'])
        (intermediateName source ['i'])), .started⟩)) := by
  have hself : (names, Worker.ready (source :: todo) outputs) ∈
      front ++ (names, .ready (source :: todo) outputs) :: back := by simp
  obtain ⟨settled, rest, rfl, htodo, rfl, hsettled⟩ := (h.follows _ hself).of_ready
  obtain ⟨name, rest, rfl, rfl, rfl⟩ := List.map_eq_cons_iff.mp htodo.symm
  have hsource : ∀ n ∈ settled ++ name :: rest, IsSource n := hcrew.sources _ hself
  have hname : name ∈ settled ++ name :: rest := by simp
  refine h.move hcrew ?_ ?_ ?_ ?_
  · refine .waiting (fun n hn => (hsettled n hn).setJob ?_) (Workshop.setJob_jobs_self w run _)
    rintro _ ⟨⟩ hduty
    have hsame : name = n := preprocessing_injective (hsource name hname)
      (hsource n (List.mem_append_left _ hn)) (Option.some.inj hduty)
    have hnodup : (settled ++ name :: rest).Nodup := hcrew.nodup_chunk hself
    exact (List.nodup_append.mp hnodup).2.2 n hn name List.mem_cons_self hsame.symm
  · rintro _ ⟨⟩
    exact ⟨name, hname, rfl, trivial, _, command, _, _, rfl⟩
  · rintro r ⟨_, _, _, _, hworker⟩
    cases hworker
  · intro p hp hwaits
    have hp' := h.follows p (mem_middle.mpr (Or.inr hp))
    obtain ⟨_, -, _, hjob⟩ := hp'.job_of_waitsFor hwaits
    simp [hfree] at hjob

/-- The source of a run that has succeeded is settled when the run is forgotten. -/
theorem Good.settled (hcrew : IsCrew crew) (h : site.Good before crew w) (hname : IsSource name)
    (hjob : w.jobs run = some ⟨some (site.preprocessing name), .succeeded⟩) :
    site.Settled before (w.setJob run none) name := by
  obtain ⟨p, hp, other, hother, hduty, hsound, -⟩ := h.owned run _ hjob
  obtain rfl : name = other := preprocessing_injective hname
    (hcrew.sources p hp other hother) (Option.some.inj hduty)
  refine ⟨hsound.of_entry fun _ _ => rfl, fun r job hr hduty => ?_⟩
  -- No other run had to do with this source.
  by_cases hrun : r = run
  · subst hrun
    simp at hr
  · rw [Workshop.setJob_jobs_of_ne w _ hrun] at hr
    exact hrun (h.run_unique hcrew hr hjob hduty)

/-- A worker learns that its run has succeeded. -/
theorem Good.collect {source : Path} {command : Command} {todo : List Path} {outputs : List Text}
    (hcrew : IsCrew (front ++ (names, .waiting source command run todo outputs) :: back))
    (h : site.Good before (front ++ (names, .waiting source command run todo outputs) :: back) w)
    (hjob : w.jobs run = some job) (hphase : job.phase = .succeeded) :
    site.Good before (front ++ (names, .ready todo (intermediateName source ['i'] :: outputs)) ::
      back) (w.setJob run none) := by
  have hself : (names, Worker.waiting source command run todo outputs) ∈
      front ++ (names, .waiting source command run todo outputs) :: back := by simp
  obtain ⟨settled, name, rest, phase, rfl, rfl, rfl, rfl, hsettled, hwaits⟩ :=
    (h.follows _ hself).of_waiting
  obtain rfl := Option.some.inj (hjob.symm.trans hwaits)
  obtain rfl : phase = .succeeded := hphase
  have hname : name ∈ settled ++ name :: rest := by simp
  have hdone : site.Settled before (w.setJob run none) name :=
    h.settled hcrew (hcrew.sources _ hself name hname) hwaits
  refine h.move hcrew ?_ (by simp) ?_ ?_
  · have hall : ∀ n ∈ settled ++ [name], site.Settled before (w.setJob run none) n := by
      intro n hn
      rcases List.mem_append.mp hn with hn | hn
      · exact (hsettled n hn).setJob (by simp)
      · exact List.mem_singleton.mp hn ▸ hdone
    have hready : site.Follows before (w.setJob run none) (settled ++ [name] ++ rest, _) :=
      .ready hall
    rw [List.map_append, List.reverse_append, List.append_assoc] at hready
    exact hready
  · rintro r ⟨_, _, _, _, hworker⟩
    cases hworker
    rfl
  · intro p hp hother
    have hp' := h.follows p (mem_middle.mpr (Or.inr hp))
    obtain ⟨n, hn, _, hjob⟩ := hp'.job_of_waitsFor hother
    have hsame := hwaits.symm.trans hjob
    simp only [Option.some.injEq, Job.mk.injEq] at hsame
    obtain rfl : name = n := preprocessing_injective (hcrew.sources _ hself name hname)
      (hcrew.sources p (mem_middle.mpr (Or.inr hp)) n hn) hsame.1
    exact hcrew.not_mem_other hname hp hn

/-- What is lost stays so when a run is started, or one that has not failed is forgotten. -/
theorem Lost.setJob (h : Lost w worker) {job? : Option Job}
    (hrun : ∀ job, w.jobs run = some job → job.phase ≠ .failed) :
    Lost (w.setJob run job?) worker := by
  cases worker with
  | stopped cause => trivial
  | ready todo outputs => exact h.elim
  | waiting source command run' todo outputs =>
      obtain ⟨duty, hfailed⟩ := h
      refine ⟨duty, ?_⟩
      rw [Workshop.setJob_jobs_of_ne w job?, hfailed]
      rintro rfl
      exact hrun _ hfailed rfl

/-- A doomed crew stays so whatever becomes of a worker that has not lost. -/
theorem Doomed.replace {worker' : Worker}
    (h : Doomed ((front ++ (names, worker) :: back).map (·.2)) w) (hworker : ¬ Lost w worker)
    (hkept : ∀ other, Lost w other → Lost w' other) :
    Doomed ((front ++ (names, worker') :: back).map (·.2)) w' := by
  obtain ⟨lost, hmem, hlost⟩ := h
  obtain ⟨p, hp, rfl⟩ := List.mem_map.mp hmem
  rcases mem_middle.mp hp with rfl | hp
  · exact absurd hlost hworker
  · exact ⟨p.2, List.mem_map_of_mem (mem_middle.mpr (Or.inr hp)), hkept p.2 hlost⟩

theorem doomed_of_stopped {cause : Cause} :
    Doomed ((front ++ (names, .stopped cause) :: back).map (·.2)) w :=
  ⟨.stopped cause, by simp, trivial⟩

theorem duty?_preprocess {command : Command} {input output flag : Text}
    (hdirectory : command.directory? = some site.directory)
    (harguments : command.arguments = [['-', 'E'], flag, input, ['-', 'o'], output]) :
    site.duty? command = some (.preprocess site.tools input output) := by
  simp [duty?, hdirectory, harguments]

variable {c : Config}

theorem ensures_move_ready {source : Path} {todo : List Path} {outputs : List Text}
    (hdir : c.sourceDir = site.directory)
    (hcrew : IsCrew (front ++ (names, .ready (source :: todo) outputs) :: back))
    (h : site.Underway before (front ++ (names, .ready (source :: todo) outputs) :: back) w) :
    site.Ensures J ((Worker.ready (source :: todo) outputs).move c) (fun moved w' =>
      site.Underway before (front ++ (names, moved) :: back) w' ∧
        moved.movesLeft < (Worker.ready (source :: todo) outputs).movesLeft) w := by
  have hstable : site.Stable (site.Underway before _) := stable_underway hcrew
  refine Plan.Ensures.bind (ensures_report hstable h) ?_
  intro _ w h
  refine Plan.Ensures.bind (ensures_command hstable h) ?_
  rintro command w ⟨h, harguments, hdirectory⟩
  rw [hdir] at hdirectory
  have hflag : command.arguments.head? ≠ some ['-', 'd'] := by
    rw [harguments]
    exact show some (['-', 'E'] : Text) ≠ some ['-', 'd'] by decide
  have hlaunch : ∀ w run,
      site.Underway before (front ++ (names, .ready (source :: todo) outputs) :: back) w →
      w.jobs run = none → site.Underway before
        (front ++ (names, .waiting source command run todo outputs) :: back)
        (w.setJob run (some ⟨site.duty? command, .started⟩)) := by
    intro w run h hfree
    rw [duty?_preprocess hdirectory harguments]
    rcases h with hgood | hdoomed
    · exact Or.inl (hgood.launch hcrew hfree)
    · exact Or.inr (hdoomed.replace (fun hlost => hlost) fun _ hlost =>
        hlost.setJob (by simp [hfree]))
  have hstart := ensures_start (J := J) hstable
    (fun run => stable_underway (hcrew.congr (by simp))) h hflag hlaunch
  refine Plan.Ensures.bind hstart ?_
  rintro (e | run) w ⟨hrun, -⟩
  · exact Plan.ensures_pure.mpr ⟨Or.inr doomed_of_stopped, by simp [Worker.movesLeft]⟩
  · refine Plan.ensures_pure.mpr ⟨hrun run rfl, ?_⟩
    simp only [Worker.movesLeft, List.length_cons]
    omega

theorem ensures_move_waiting {source : Path} {command : Command} {todo : List Path}
    {outputs : List Text}
    (hcrew : IsCrew (front ++ (names, .waiting source command run todo outputs) :: back))
    (h : site.Underway before (front ++ (names, .waiting source command run todo outputs) :: back)
      w) :
    site.Ensures J ((Worker.waiting source command run todo outputs).move c) (fun moved w' =>
      site.Underway before (front ++ (names, moved) :: back) w' ∧
        moved.movesLeft < (Worker.waiting source command run todo outputs).movesLeft) w := by
  have hfinish : site.Ensures J (command.finish run) (fun reply w => ∀ text, reply = .ok text →
      site.Underway before
        (front ++ (names, .ready todo (intermediateName source ['i'] :: outputs)) :: back)
        w) w := by
    refine ensures_finish (stable_underway hcrew) h ?_ ?_ ?_
    · intro w job text h hjob hphase _ _
      rcases h with hgood | hdoomed
      · exact Or.inl (hgood.collect hcrew hjob hphase)
      · have hsucceeded : ∀ job', w.jobs run = some job' → job'.phase ≠ .failed := by
          intro job' hjob'
          obtain rfl := Option.some.inj (hjob.symm.trans hjob')
          simp [hphase]
        refine Or.inr (hdoomed.replace ?_ fun _ hlost => hlost.setJob hsucceeded)
        rintro ⟨duty, hfailed⟩
        exact hsucceeded _ hfailed rfl
    · intro w job e _ _ _ text he
      cases he
    · intro w reply h hnone _ _
      rcases h with hgood | hdoomed
      · have hwaits := hgood.follows _ (mem_middle.mpr (Or.inl rfl))
        obtain ⟨_, -, _, hjob⟩ := hwaits.job_of_waitsFor ⟨source, command, todo, outputs, rfl⟩
        simp [hnone] at hjob
      · refine Or.inr (hdoomed.replace ?_ fun _ hlost => hlost)
        rintro ⟨duty, hfailed⟩
        simp [hnone] at hfailed
  refine Plan.Ensures.bind hfinish ?_
  rintro (e | text) w h
  · exact Plan.ensures_pure.mpr ⟨Or.inr doomed_of_stopped, by simp [Worker.movesLeft]⟩
  · exact Plan.ensures_pure.mpr ⟨h text rfl, by simp [Worker.movesLeft]⟩

/-- A move of a worker takes the crew on, and the worker has fewer moves before it. -/
theorem ensures_move (hdir : c.sourceDir = site.directory)
    (hcrew : IsCrew (front ++ (names, worker) :: back))
    (h : site.Underway before (front ++ (names, worker) :: back) w)
    (hpending : worker.pending? ≠ none) :
    site.Ensures J (worker.move c) (fun moved w' =>
      site.Underway before (front ++ (names, moved) :: back) w' ∧
        moved.movesLeft < worker.movesLeft) w := by
  match worker with
  | .stopped _ | .ready [] _ => exact absurd rfl hpending
  | .ready (source :: todo) outputs => exact ensures_move_ready hdir hcrew h
  | .waiting source command run todo outputs => exact ensures_move_waiting hcrew h

theorem gather_eq_of_results {f : Text → Text}
    (h : ∀ p ∈ crew, p.2.result = .ok (p.1.map f)) :
    Preprocess.gather (crew.map (·.2)) = .ok ((crew.map (·.1)).flatten.map f) := by
  induction crew with
  | nil => rfl
  | cons p rest ih =>
      have hrest := ih fun q hq => h q (List.mem_cons_of_mem p hq)
      simp [Preprocess.gather, h p List.mem_cons_self, hrest, bind, Except.bind, pure, Except.pure]

/-- A worker that has come to its end without a failure has settled all its sources. -/
theorem Follows.ended {p : List Text × Worker} (h : site.Follows before w p)
    (hend : p.2.pending? = none) :
    p.2.result = .ok (p.1.map fun name => (site.preprocessing name).output) ∧
      ∀ name ∈ p.1, site.Settled before w name := by
  cases h with
  | @ready settled todo hsettled =>
      cases todo with
      | nil =>
          rw [List.append_nil]
          exact ⟨by simp [Worker.result], hsettled⟩
      | cons name rest => cases hend
  | waiting => cases hend

/-- When no worker can move any more and none has failed, the outputs come in the order of the
sources, every source has been preprocessed, and no run is left. -/
theorem Underway.finished {outputs : List Text} (h : site.Underway before crew w)
    (hend : ∀ p ∈ crew, p.2.pending? = none)
    (hgather : Preprocess.gather (crew.map (·.2)) = .ok outputs) :
    w.Idle ∧ (∀ p ∈ crew, ∀ name ∈ p.1, site.Preprocessed before w name) ∧
      outputs = (crew.map (·.1)).flatten.map fun name => (site.preprocessing name).output := by
  rcases h with hgood | ⟨worker, hworker, hlost⟩
  · have hended := fun p hp => (hgood.follows p hp).ended (hend p hp)
    refine ⟨fun run => ?_, fun p hp name hname => ((hended p hp).2 name hname).1, ?_⟩
    · cases hjob : w.jobs run with
      | none => rfl
      | some job =>
          obtain ⟨p, hp, -, -, -, -, _, _, _, _, hwaits⟩ := hgood.owned run job hjob
          have hnone := hend p hp
          rw [hwaits] at hnone
          cases hnone
    · have hall := gather_eq_of_results fun p hp => (hended p hp).1
      exact Except.ok.inj (hgather.symm.trans hall)
  · -- A lost worker that waits could still move, and one that has stopped has no result.
    obtain ⟨p, hp, rfl⟩ := List.mem_map.mp hworker
    obtain ⟨part, hpart⟩ := Preprocess.result_of_gather hgather p.2 hworker
    have hnone := hend p hp
    match hp2 : p.2 with
    | .stopped cause => simp [hp2, Worker.result] at hpart
    | .waiting .. => simp [hp2, Worker.pending?] at hnone
    | .ready .. =>
        rw [hp2] at hlost
        exact hlost.elim

/-- The worker at a place, with its chunk and those before and behind it. -/
theorem exists_middle {place : Nat} (h : (crew.map (·.2))[place]? = some worker) :
    ∃ names front back, crew = front ++ (names, worker) :: back ∧ front.length = place := by
  rw [List.getElem?_map, Option.map_eq_some_iff] at h
  obtain ⟨⟨names, worker⟩, hplace, rfl⟩ := h
  have hlt := (List.getElem?_eq_some_iff.mp hplace).1
  refine ⟨names, _, _, Preprocess.eq_take_cons_drop hplace, ?_⟩
  rw [List.length_take, Nat.min_eq_left (Nat.le_of_lt hlt)]

variable {c : Config} {chunks : List (List Text)} {workers : List Worker}

def Manned (site : Site) (before : Workshop) (chunks : List (List Text)) (workers : List Worker)
    (w : Workshop) : Prop :=
  ∃ crew : Crew, crew.map (·.1) = chunks ∧ workers = crew.map (·.2) ∧ site.Underway before crew w

theorem Manned.ensures_turn {waits : List (Option Run)} (hcrew : IsCrew crew)
    (h : site.Manned before (crew.map (·.1)) workers w) :
    site.Ensures J (Plan.turn waits)
      (fun _ w' => site.Manned before (crew.map (·.1)) workers w') w := by
  obtain ⟨crew', hchunks, hworkers, h⟩ := h
  exact (Site.ensures_turn (stable_underway (hcrew.congr hchunks)) h).mono
    fun _ _ h => ⟨crew', hchunks, hworkers, h⟩

theorem Manned.ensures_move {place : Nat} (hdir : c.sourceDir = site.directory)
    (hcrew : IsCrew crew) (h : site.Manned before (crew.map (·.1)) workers w)
    (hplace : workers[place]? = some worker) (hpending : worker.pending? ≠ none) :
    site.Ensures J (worker.move c) (fun moved w' =>
      site.Manned before (crew.map (·.1)) (workers.set place moved) w' ∧
        moved.movesLeft < worker.movesLeft) w := by
  obtain ⟨crew', hchunks, rfl, h⟩ := h
  obtain ⟨names, front, back, rfl, rfl⟩ := exists_middle hplace
  refine (Site.ensures_move hdir (hcrew.congr hchunks) h hpending).mono ?_
  intro moved w ⟨h, hless⟩
  refine ⟨⟨front ++ (names, moved) :: back, ?_, ?_, h⟩, hless⟩
  · simpa using hchunks
  · simp

/-- The workers move until none can move any more, whoever is chosen to move next. -/
theorem ensures_runWorkers {moves : Nat} (hdir : c.sourceDir = site.directory)
    (hcrew : IsCrew crew) (h : site.Underway before crew w)
    (hmoves : Preprocess.movesLeft (crew.map (·.2)) ≤ moves) :
    site.Ensures J (Preprocess.runWorkers c moves (crew.map (·.2))) (fun finished w' =>
      ∃ crew' : Crew, crew'.map (·.1) = crew.map (·.1) ∧ finished = crew'.map (·.2) ∧
        (∀ p ∈ crew', p.2.pending? = none) ∧ site.Underway before crew' w') w := by
  have hmanned : site.Manned before (crew.map (·.1)) (crew.map (·.2)) w := ⟨crew, rfl, rfl, h⟩
  refine (Preprocess.ensures_runWorkers (fun _ _ _ h => h.ensures_turn hcrew)
    (fun _ _ _ _ h => h.ensures_move hdir hcrew) hmanned hmoves).mono ?_
  intro finished w ⟨⟨crew', hchunks, hfinished, h⟩, hend⟩
  subst hfinished
  exact ⟨crew', hchunks, rfl, fun p hp => hend p.2 (List.mem_map_of_mem hp), h⟩

end Site
end Bytelink
