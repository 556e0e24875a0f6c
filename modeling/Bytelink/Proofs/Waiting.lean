import Bytelink.Proofs.Attendance

/-!
# The first look that decides

One look can show several things at once: that the program has exited, that the token is set and
that the time is up. `Watch.Decides` says which of them counts, and a wait ends with the first look
that shows any (`Watch.verdict?_wait`, `Watch.kill_mem_wait_iff`). Up to an exit, a watched program
and one that is only waited for go through the same states (`Attendance.Twins`).
-/
namespace Bytelink

/-- The verdicts after which the program has been killed. -/
def Verdict.IsInterruption (v : Verdict) : Prop := v = .cancelled ∨ ∃ limit, v = .timedOut limit

namespace Watch

variable {w : Watch} {o : Observation} {v : Verdict} {looks : List Observation} {waiting : Waiting}

/-- The look shows something that the program is watched for. -/
def IsDecisive (w : Watch) (o : Observation) : Prop :=
  o.glance ≠ .running ∨ (w.hasToken ∧ o.tokenSet) ∨
    ∃ limit, w.limit? = some limit ∧ limit.nanos ≤ o.elapsed.nanos

/-- What the look decides: the end of the program counts before the token, the token before the
limit. -/
inductive Decides (w : Watch) (o : Observation) : Verdict → Prop
  | exited {status : ExitStatus} : o.glance = .exited status → Decides w o (.exited status)
  | lost {reason : SystemError} : o.glance = .failed reason → Decides w o (.lost reason)
  | cancelled : o.glance = .running → w.hasToken → o.tokenSet → Decides w o .cancelled
  | timedOut {limit : Duration} : o.glance = .running → ¬(w.hasToken ∧ o.tokenSet) →
      w.limit? = some limit → limit.nanos ≤ o.elapsed.nanos → Decides w o (.timedOut limit)

theorem IsDecisive.exists_decides (h : w.IsDecisive o) : ∃ v, w.Decides o v := by
  cases hglance : o.glance with
  | exited status => exact ⟨_, .exited hglance⟩
  | failed reason => exact ⟨_, .lost hglance⟩
  | running =>
      by_cases htoken : w.hasToken ∧ o.tokenSet
      · exact ⟨_, .cancelled hglance htoken.1 htoken.2⟩
      · rcases h with h | h | ⟨limit, hlimit, helapsed⟩
        · exact absurd hglance h
        · exact absurd h htoken
        · exact ⟨_, .timedOut hglance htoken hlimit helapsed⟩

/-- A look that decides ends the wait, and the program is killed unless it has ended. -/
theorem respond_of_decides (h : w.Decides o v) :
    (w.respond o).2 = some v ∧ (.kill ∈ (w.respond o).1 ↔ v.IsInterruption) := by
  cases h with
  | exited hglance => simp [respond, poll, hglance, Glance.verdict?, Verdict.IsInterruption]
  | lost hglance => simp [respond, poll, hglance, Glance.verdict?, Verdict.IsInterruption]
  | cancelled hglance htoken hset =>
      simp [respond, poll, isBlocking, hglance, Glance.verdict?, htoken, hset,
        Verdict.IsInterruption, Handling.termination]
  | timedOut hglance htoken hlimit helapsed =>
      simp [respond, poll, isBlocking, hglance, Glance.verdict?, htoken, hlimit, helapsed,
        Verdict.IsInterruption, Handling.termination]

theorem respond_of_not_isDecisive (h : ¬w.IsDecisive o) :
    (w.respond o).2 = none ∧ .kill ∉ (w.respond o).1 := by
  have hglance : o.glance = .running := by
    by_contra hglance
    exact h (.inl hglance)
  have htoken : ¬(w.hasToken ∧ o.tokenSet) := fun htoken => h (.inr (.inl htoken))
  by_cases hblocking : w.isBlocking
  · simp [respond, hblocking, hglance, Glance.verdict?]
  · cases hlimit : w.limit? with
    | none => simp [respond, poll, hblocking, hglance, Glance.verdict?, htoken, hlimit]
    | some limit =>
        have helapsed : ¬limit.nanos ≤ o.elapsed.nanos := fun helapsed =>
          h (.inr (.inr ⟨limit, hlimit, helapsed⟩))
        simp [respond, poll, hblocking, hglance, Glance.verdict?, htoken, hlimit, helapsed]

theorem respond_eq_none_iff : (w.respond o).2 = none ↔ ¬w.IsDecisive o := by
  constructor
  · intro h hdecisive
    obtain ⟨v, hdecides⟩ := hdecisive.exists_decides
    rw [(respond_of_decides hdecides).1] at h
    cases h
  · exact fun h => (respond_of_not_isDecisive h).1

theorem respond_eq_some_iff : (w.respond o).2 = some v ↔ w.Decides o v := by
  constructor
  · intro h
    by_cases hdecisive : w.IsDecisive o
    · obtain ⟨first, hdecides⟩ := hdecisive.exists_decides
      rw [(respond_of_decides hdecides).1] at h
      cases h
      exact hdecides
    · rw [(respond_of_not_isDecisive hdecisive).1] at h
      cases h
  · exact fun h => (respond_of_decides h).1

theorem respond_eq_of_quiet (hquiet : ∀ v, (w.respond o).2 = some v → ¬v.IsInterruption) :
    (respond ⟨none, false⟩ o).2 = (w.respond o).2 := by
  cases hrespond : (w.respond o).2 with
  | none =>
      have hdecisive := respond_eq_none_iff.mp hrespond
      refine respond_eq_none_iff.mpr ?_
      rintro (hglance | ⟨htoken, -⟩ | ⟨limit, hlimit, -⟩)
      · exact hdecisive (.inl hglance)
      · cases htoken
      · cases hlimit
  | some v =>
      refine respond_eq_some_iff.mpr ?_
      cases respond_eq_some_iff.mp hrespond with
      | exited hglance => exact .exited hglance
      | lost hglance => exact .lost hglance
      | cancelled _ _ _ => exact absurd (.inl rfl) (hquiet _ hrespond)
      | timedOut _ _ _ _ => exact absurd (.inr ⟨_, rfl⟩) (hquiet _ hrespond)

theorem look_of_some (h : waiting.verdict? = some v) (o : Observation) :
    w.look waiting o = waiting := by
  simp [look, h]

theorem foldl_look_of_some (h : waiting.verdict? = some v) (looks : List Observation) :
    looks.foldl w.look waiting = waiting := by
  induction looks with
  | nil => rfl
  | cons o looks ih => rw [List.foldl_cons, look_of_some h, ih]

theorem look_of_none (h : waiting.verdict? = none) (o : Observation) :
    w.look waiting o = ⟨waiting.handled ++ (w.respond o).1, (w.respond o).2⟩ := by
  simp [look, h]

theorem verdict?_foldl_look (h : waiting.verdict? = none) (looks : List Observation) :
    (looks.foldl w.look waiting).verdict? = looks.findSome? fun o => (w.respond o).2 := by
  induction looks generalizing waiting with
  | nil => exact h
  | cons o looks ih =>
      rw [List.foldl_cons, look_of_none h]
      cases hrespond : (w.respond o).2 with
      | none => rw [ih rfl, List.findSome?_cons, hrespond]
      | some v => rw [foldl_look_of_some rfl, List.findSome?_cons, hrespond]

theorem verdict?_wait_eq_none_iff :
    (w.wait looks).verdict? = none ↔ ∀ o ∈ looks, ¬w.IsDecisive o := by
  rw [wait, verdict?_foldl_look rfl, List.findSome?_eq_none_iff]
  simp only [respond_eq_none_iff]

theorem verdict?_wait_eq_some_iff : (w.wait looks).verdict? = some v ↔
    ∃ before o after, looks = before ++ o :: after ∧ (∀ p ∈ before, ¬w.IsDecisive p) ∧
      w.Decides o v := by
  rw [wait, verdict?_foldl_look rfl, List.findSome?_eq_some_iff]
  simp only [respond_eq_some_iff, respond_eq_none_iff]
  constructor
  · rintro ⟨before, o, after, hlooks, hdecides, hbefore⟩
    exact ⟨before, o, after, hlooks, hbefore, hdecides⟩
  · rintro ⟨before, o, after, hlooks, hbefore, hdecides⟩
    exact ⟨before, o, after, hlooks, hdecides, hbefore⟩

/-- The program has been killed if the wait was broken off, and only then. -/
def Settled (waiting : Waiting) : Prop :=
  .kill ∈ waiting.handled ↔ ∃ v, waiting.verdict? = some v ∧ v.IsInterruption

theorem Settled.look (h : Settled waiting) (o : Observation) : Settled (w.look waiting o) := by
  cases hverdict : waiting.verdict? with
  | some v => rwa [look_of_some hverdict]
  | none =>
      have halive : .kill ∉ waiting.handled := by
        intro hkill
        obtain ⟨v, hv, -⟩ := h.mp hkill
        rw [hverdict] at hv
        cases hv
      rw [look_of_none hverdict, Settled, List.mem_append, or_iff_right halive]
      by_cases hdecisive : w.IsDecisive o
      · obtain ⟨v, hdecides⟩ := hdecisive.exists_decides
        obtain ⟨hsome, hkill⟩ := respond_of_decides hdecides
        rw [hkill, hsome]
        simp
      · obtain ⟨hnone, hkill⟩ := respond_of_not_isDecisive hdecisive
        simp [hnone, hkill]

theorem settled_wait (w : Watch) (looks : List Observation) : Settled (w.wait looks) := by
  have hfoldl (waiting : Waiting) (h : Settled waiting) :
      Settled (looks.foldl w.look waiting) := by
    induction looks generalizing waiting with
    | nil => exact h
    | cons o looks ih => exact ih _ (h.look o)
  exact hfoldl .start (by simp [Settled, Waiting.start])

end Watch

/-- What a command returns after a verdict, whatever the text. -/
inductive Command.Returns (c : Command) : Verdict → Except ToolError Text → Prop
  | ok {status : ExitStatus} {text : Text} : status.isSuccess →
      Returns c (.exited status) (.ok text)
  | unsuccessful {status : ExitStatus} {text : Text} : ¬status.isSuccess →
      Returns c (.exited status) (.error (.unsuccessful c.line status text))
  | cancelled {text : Text} : Returns c .cancelled (.error (.cancelled c.line text))
  | timedOut {limit : Duration} {text : Text} :
      Returns c (.timedOut limit) (.error (.timedOut c.line limit text))
  | lost {reason : SystemError} : Returns c (.lost reason) (.error (.lost c.line reason))

namespace Command

theorem returns_outcome (c : Command) (v : Verdict) (output : Bytes) :
    c.Returns v (c.outcome (v.ending output)) := by
  cases v with
  | exited status =>
      simp only [Verdict.ending, outcome]
      split
      · next h => exact .ok h
      · next h => exact .unsuccessful h
  | cancelled => exact .cancelled
  | timedOut limit => exact .timedOut
  | lost reason => exact .lost

def unwatched (c : Command) : Command := { c with timeout? := none, cancel? := none }

theorem outcome_unwatched (c : Command) : c.unwatched.outcome = c.outcome := rfl

end Command

def Event.look? : Event → Option Observation
  | .look observation => some observation
  | _ => none

namespace Attendance

variable {s twin : Attendance} {events : List Event} {v : Verdict} {event : Event}

theorem waiting_run (s : Attendance) (events : List Event) : (s.run events).waiting =
    (events.filterMap Event.look?).foldl s.command.watch.look s.waiting := by
  induction events generalizing s with
  | nil => rfl
  | cons event events ih =>
      rw [run_cons, ih, command_step]
      cases event with
      | look _ | read _ _ | append _ => rfl
      | report => rw [waiting_step_report, List.filterMap_cons]; rfl

theorem waiting_start_run (c : Command) (standard errors : Bytes) (events : List Event) :
    ((start c standard errors).run events).waiting =
      c.watch.wait (events.filterMap Event.look?) :=
  waiting_run _ events

theorem returns_of_result? (hnone : s.ending? = none) {result : Except ToolError Text}
    (h : (s.run events).result? = some result) :
    ∃ v, (s.run events).waiting.verdict? = some v ∧ s.command.Returns v result := by
  obtain ⟨ending, hending, rfl⟩ := Option.map_eq_some_iff.mp h
  obtain ⟨before, after, v, rfl, hverdict, -, rfl⟩ := exists_report hnone hending
  refine ⟨v, ?_, ?_⟩
  · rw [run_append]
    exact verdict?_run_of_some hverdict _
  · rw [command_run]
    exact s.command.returns_outcome v _

/-- After the end of the wait a run can return, at the latest when both readers have stopped. -/
theorem exists_result?_step_report (hverdict : s.waiting.verdict? = some v)
    (hready : v.awaitsReaders → s.intake.hasStopped) :
    ∃ result, (s.step .report).result? = some result := by
  cases hending : s.ending? with
  | some ending =>
      exact ⟨_, by rw [result?, ending?_step_of_some hending]; rfl⟩
  | none =>
      refine ⟨s.command.outcome (v.ending s.intake.captured.bytes), ?_⟩
      cases hawaits : v.awaitsReaders with
      | false => simp [step, result?, hverdict, hending, hawaits]
      | true => simp [step, result?, hverdict, hending, hready hawaits]

/-- Two runs of a command in the same state, the second without time limit and token. -/
structure Twins (s twin : Attendance) : Prop where
  command : twin.command = s.command.unwatched
  intake : twin.intake = s.intake
  ending : twin.ending? = s.ending?
  verdict : twin.waiting.verdict? = s.waiting.verdict?

theorem Twins.result? (h : Twins s twin) : twin.result? = s.result? := by
  rw [Attendance.result?, Attendance.result?, h.ending, h.command, Command.outcome_unwatched]

theorem Twins.step (h : Twins s twin)
    (hquiet : ∀ v, (s.step event).waiting.verdict? = some v → ¬v.IsInterruption) :
    Twins (s.step event) (twin.step event) := by
  obtain ⟨hcommand, hintake, hending, hverdict⟩ := h
  cases event with
  | read outlet result => exact ⟨hcommand, by simp [step, hintake], hending, hverdict⟩
  | append outlet => exact ⟨hcommand, by simp [step, hintake], hending, hverdict⟩
  | report =>
      simp only [step, hverdict, hending, hintake]
      split
      · split
        · exact ⟨hcommand, hintake, hending, hverdict⟩
        · exact ⟨hcommand, rfl, rfl, hverdict⟩
      · exact ⟨hcommand, hintake, hending, hverdict⟩
  | look o =>
      refine ⟨hcommand, hintake, hending, ?_⟩
      simp only [step] at hquiet ⊢
      cases hs : s.waiting.verdict? with
      | some v =>
          rw [hs] at hverdict
          rw [Watch.look_of_some hs, Watch.look_of_some hverdict, hs, hverdict]
      | none =>
          rw [hs] at hverdict
          rw [Watch.look_of_none hs] at hquiet ⊢
          rw [Watch.look_of_none hverdict, hcommand]
          exact Watch.respond_eq_of_quiet hquiet

theorem Twins.run (h : Twins s twin) (events : List Event)
    (hquiet : ∀ v, (s.run events).waiting.verdict? = some v → ¬v.IsInterruption) :
    Twins (s.run events) (twin.run events) := by
  induction events generalizing s twin with
  | nil => exact h
  | cons event events ih =>
      refine ih (h.step fun v hv => ?_) hquiet
      exact hquiet v (verdict?_run_of_some hv events)

theorem twins_start (c : Command) (standard errors : Bytes) :
    Twins (start c standard errors) (start c.unwatched standard errors) where
  command := rfl
  intake := rfl
  ending := rfl
  verdict := rfl

/-- The wait for a program ends with the first look that shows anything the program is watched for,
and with what counts first in it. Then, and only then, the program has been killed if the run was
broken off, be it by the token or because the limit was over. The run can return and returns what
belongs to the verdict; up to an exit it makes no difference whether there was a limit or a token. -/
theorem wait_decided_by_first_look (c : Command) (standard errors : Bytes) (events : List Event) :
    let looks := events.filterMap Event.look?
    let s := (start c standard errors).run events
    let alone := (start c.unwatched standard errors).run events
    (s.waiting.verdict? = none ↔ ∀ o ∈ looks, ¬c.watch.IsDecisive o) ∧
    (∀ v, s.waiting.verdict? = some v ↔ ∃ before o after, looks = before ++ o :: after ∧
      (∀ p ∈ before, ¬c.watch.IsDecisive p) ∧ c.watch.Decides o v) ∧
    (∀ limit, s.waiting.verdict? = some (.timedOut limit) →
      c.timeout? = some limit ∧ ∃ o ∈ looks, limit.nanos ≤ o.elapsed.nanos) ∧
    (.kill ∈ s.waiting.handled ↔ ∃ v, s.waiting.verdict? = some v ∧ v.IsInterruption) ∧
    (∀ v, s.waiting.verdict? = some v → (v.awaitsReaders → s.intake.hasStopped) →
      ∃ result, (s.step .report).result? = some result) ∧
    (∀ result, s.result? = some result →
      ∃ v, s.waiting.verdict? = some v ∧ c.Returns v result) ∧
    (∀ status, s.waiting.verdict? = some (.exited status) → .kill ∉ s.waiting.handled ∧
      alone.waiting.verdict? = some (.exited status) ∧ alone.result? = s.result?) := by
  intro looks s alone
  have hwaiting : s.waiting = c.watch.wait looks := waiting_start_run c standard errors events
  have hfirst (v : Verdict) : s.waiting.verdict? = some v ↔ ∃ before o after,
      looks = before ++ o :: after ∧ (∀ p ∈ before, ¬c.watch.IsDecisive p) ∧
        c.watch.Decides o v := by
    rw [hwaiting]
    exact Watch.verdict?_wait_eq_some_iff
  have hkill : .kill ∈ s.waiting.handled ↔
      ∃ v, s.waiting.verdict? = some v ∧ v.IsInterruption := by
    rw [hwaiting]
    exact Watch.settled_wait c.watch looks
  refine ⟨?_, hfirst, fun limit htimedOut => ?_, hkill, fun v => exists_result?_step_report,
    fun result hresult => returns_of_result? rfl hresult, fun status hexited => ?_⟩
  · rw [hwaiting]
    exact Watch.verdict?_wait_eq_none_iff
  · obtain ⟨before, o, after, hlooks, -, hdecides⟩ := (hfirst _).mp htimedOut
    cases hdecides with
    | timedOut _ _ hlimit helapsed => exact ⟨hlimit, o, by simp [hlooks], helapsed⟩
  · have hquiet (v : Verdict) (hv : s.waiting.verdict? = some v) : ¬v.IsInterruption := by
      rw [hexited] at hv
      cases hv
      simp [Verdict.IsInterruption]
    have htwins : Twins s alone := (twins_start c standard errors).run events hquiet
    refine ⟨fun hkilled => ?_, htwins.verdict.trans hexited, htwins.result?⟩
    obtain ⟨v, hv, hinterruption⟩ := hkill.mp hkilled
    exact hquiet v hv hinterruption

/-- At the second look the program has exited, the token is set and the time is over. -/
theorem exit_counts_first :
    let c : Command := ⟨⟨"cc"⟩, [], none, some ⟨5⟩, some ⟨0⟩⟩
    let events : List Event := [.look ⟨.running, false, ⟨4⟩⟩, .read .standard (.bytes .most),
      .look ⟨.exited (.exited 3), true, ⟨5⟩⟩, .report, .read .errors (.bytes .most), .report]
    let s := (start c [] []).run events
    let alone := (start c.unwatched [] []).run events
    s.waiting.verdict? = some (.exited (.exited 3)) ∧ .kill ∉ s.waiting.handled ∧
      alone.result? = s.result? ∧
      s.result? = some (.error (.unsuccessful "cc" (.exited 3) [])) := by
  intro c events s alone
  have hexited : s.waiting.verdict? = some (.exited (.exited 3)) := by decide +kernel
  obtain ⟨-, -, -, -, -, -, hexit⟩ := wait_decided_by_first_look c [] [] events
  obtain ⟨hkill, -, hresult⟩ := hexit _ hexited
  exact ⟨hexited, hkill, hresult, by decide +kernel⟩

end Attendance
end Bytelink
