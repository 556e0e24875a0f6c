import Bytelink.Build.Attendance
import Bytelink.Proofs.Intake

/-!
# What is reported of a program's output

Reads, looks and the report may come in any order. A report tells what is captured at its moment
(`Attendance.exists_report`), and after an exit this is all that will ever be captured, as both
readers have stopped by then (`Attendance.intake_run_of_hasStopped`). The bytes are decoded when all
of them are there, so it does not matter where one chunk ended and the next began.
-/
namespace Bytelink

/-- What the result of a run tells of the program's output. -/
def told? : Except ToolError Text → Option Text
  | .ok text => some text
  | .error e => e.output?

theorem eq_decodeLossy_of_told? {c : Command} {verdict : Verdict} {bytes : Bytes} {text : Text}
    (h : told? (c.outcome (verdict.ending bytes)) = some text) : text = Utf8.decodeLossy bytes := by
  cases verdict with
  | exited status =>
      by_cases hstatus : status.isSuccess
      · simpa [Verdict.ending, Command.outcome, told?, hstatus] using h.symm
      · simpa [Verdict.ending, Command.outcome, told?, hstatus, ToolError.output?] using h.symm
  | cancelled => simpa [Verdict.ending, Command.outcome, told?, ToolError.output?] using h.symm
  | timedOut limit => simpa [Verdict.ending, Command.outcome, told?, ToolError.output?] using h.symm
  | lost reason => simp [Verdict.ending, Command.outcome, told?, ToolError.output?] at h

namespace Attendance

variable {s : Attendance} {events more : List Event} {ending : Ending} {verdict : Verdict}
variable {stream : Outlet → Bytes}

@[simp] theorem run_nil (s : Attendance) : s.run [] = s := rfl

@[simp] theorem run_cons (s : Attendance) (event : Event) (events : List Event) :
    s.run (event :: events) = (s.step event).run events := rfl

theorem run_append (s : Attendance) (events more : List Event) :
    s.run (events ++ more) = (s.run events).run more := List.foldl_append

/-- The text that is reported, if the run has returned and tells of output. -/
def reported? (s : Attendance) : Option Text := s.result?.bind told?

/-- What a report can do. -/
theorem step_report_cases (s : Attendance) :
    s.step .report = s ∨
    ∃ verdict, s.waiting.verdict? = some verdict ∧ s.ending? = none ∧
      (verdict.awaitsReaders → s.intake.hasStopped) ∧
      s.step .report = { s with ending? := some (verdict.ending s.intake.captured.bytes) } := by
  simp only [step]
  split
  · next verdict hverdict hending =>
      split
      · exact .inl rfl
      · next hready =>
          refine .inr ⟨verdict, hverdict, hending, fun hawaits => ?_, rfl⟩
          simpa [hawaits] using hready
  · exact .inl rfl

@[simp] theorem command_step (s : Attendance) (event : Event) :
    (s.step event).command = s.command := by
  cases event with
  | read _ _ | append _ | look _ => rfl
  | report => rcases s.step_report_cases with h | ⟨_, _, _, _, h⟩ <;> rw [h]

@[simp] theorem waiting_step_report (s : Attendance) : (s.step .report).waiting = s.waiting := by
  rcases s.step_report_cases with h | ⟨_, _, _, _, h⟩ <;> rw [h]

@[simp] theorem intake_step_report (s : Attendance) : (s.step .report).intake = s.intake := by
  rcases s.step_report_cases with h | ⟨_, _, _, _, h⟩ <;> rw [h]

theorem ending?_step_of_some (h : s.ending? = some ending) (event : Event) :
    (s.step event).ending? = some ending := by
  cases event with
  | read _ _ | append _ | look _ => exact h
  | report =>
      rcases s.step_report_cases with hreport | ⟨_, _, hending, _, _⟩
      · rwa [hreport]
      · rw [h] at hending
        cases hending

@[simp] theorem command_run (s : Attendance) (events : List Event) :
    (s.run events).command = s.command := by
  induction events generalizing s with
  | nil => rfl
  | cons event events ih => rw [run_cons, ih, command_step]

theorem ending?_run_of_some (h : s.ending? = some ending) (events : List Event) :
    (s.run events).ending? = some ending := by
  induction events generalizing s with
  | nil => exact h
  | cons event events ih => exact ih (ending?_step_of_some h event)

/-- A run that has returned has done so by a report. -/
theorem exists_report (hnone : s.ending? = none) (h : (s.run events).ending? = some ending) :
    ∃ before after verdict, events = before ++ .report :: after ∧
      (s.run before).waiting.verdict? = some verdict ∧
      (verdict.awaitsReaders → (s.run before).intake.hasStopped) ∧
      ending = verdict.ending (s.run before).intake.captured.bytes := by
  induction events generalizing s with
  | nil =>
      rw [run_nil, hnone] at h
      cases h
  | cons event events ih =>
      rw [run_cons] at h
      cases hstep : (s.step event).ending? with
      | none =>
          obtain ⟨before, after, verdict, hevents, hreport⟩ := ih hstep h
          exact ⟨event :: before, after, verdict, by rw [hevents]; rfl, hreport⟩
      | some first =>
          rw [ending?_run_of_some hstep] at h
          cases h
          cases event with
          | read _ _ | append _ | look _ =>
              rw [show (s.step _).ending? = s.ending? from rfl, hnone] at hstep
              cases hstep
          | report =>
              rcases s.step_report_cases with hreport | ⟨verdict, hverdict, -, hready, hreport⟩
              · rw [hreport, hnone] at hstep
                cases hstep
              · rw [hreport] at hstep
                cases hstep
                exact ⟨[], events, verdict, rfl, hverdict, hready, rfl⟩

theorem verdict?_step_of_some (h : s.waiting.verdict? = some verdict) (event : Event) :
    (s.step event).waiting.verdict? = some verdict := by
  cases event with
  | read _ _ | append _ => exact h
  | report => rwa [waiting_step_report]
  | look _ => simp [step, Watch.look, h]

theorem verdict?_run_of_some (h : s.waiting.verdict? = some verdict) (events : List Event) :
    (s.run events).waiting.verdict? = some verdict := by
  induction events generalizing s with
  | nil => exact h
  | cons event events ih => exact ih (verdict?_step_of_some h event)

theorem intake_step_of_hasStopped (h : s.intake.hasStopped) (event : Event) :
    (s.step event).intake = s.intake := by
  cases event with
  | read outlet result => exact Intake.read_of_hasStopped h outlet result
  | append outlet => exact Intake.append_of_hasStopped h outlet
  | look _ => rfl
  | report => exact intake_step_report s

theorem intake_run_of_hasStopped (h : s.intake.hasStopped) (events : List Event) :
    (s.run events).intake = s.intake := by
  induction events generalizing s with
  | nil => rfl
  | cons event events ih =>
      have hstep := intake_step_of_hasStopped h event
      rw [run_cons, ih (by rwa [hstep]), hstep]

theorem follows_step (h : s.intake.Follows stream) (event : Event) :
    (s.step event).intake.Follows stream := by
  cases event with
  | read outlet result => exact h.read outlet result
  | append outlet => exact h.append outlet
  | look _ => exact h
  | report => rwa [intake_step_report]

theorem follows_run (h : s.intake.Follows stream) (events : List Event) :
    (s.run events).intake.Follows stream := by
  induction events generalizing s with
  | nil => exact h
  | cons event events ih => exact ih (follows_step h event)

theorem exists_run_drain (s : Attendance) (outlet : Outlet) (fuel : Nat) :
    ∃ more, (s.run more).intake = s.intake.drain outlet fuel := by
  induction fuel generalizing s with
  | zero => exact ⟨[], rfl⟩
  | succ fuel ih =>
      rw [Intake.drain]
      split
      · exact ⟨[], rfl⟩
      · obtain ⟨more, hmore⟩ := ih ((s.step (.read outlet (.bytes .most))).step (.append outlet))
        exact ⟨.read outlet (.bytes .most) :: .append outlet :: more, hmore⟩

def Ends (outlet : Outlet) (s finished : Attendance) : Prop :=
  (finished.intake.reader outlet).phase = .ended ∧
    ∀ other, other ≠ outlet → finished.intake.reader other = s.intake.reader other

theorem exists_ends_of_reading {outlet : Outlet}
    (hphase : (s.intake.reader outlet).phase = .reading) : ∃ more, Ends outlet s (s.run more) := by
  obtain ⟨more, hmore⟩ := s.exists_run_drain outlet (s.intake.reader outlet).unread.length
  obtain ⟨hreader, -⟩ := Intake.drain_of_reading hphase (Nat.le_refl _)
  refine ⟨more ++ [.read outlet (.bytes .most)], ?_, fun other hother => ?_⟩
  · simp [run_append, step, hmore, hreader, Reader.read]
  · simp [run_append, step, hmore, Intake.reader_read_of_ne hother,
      Intake.reader_drain_of_ne hother]

/-- A reader that has not given up can be brought to its end without the other. -/
theorem exists_ends (s : Attendance) (outlet : Outlet)
    (hlive : ∀ reason, (s.intake.reader outlet).phase ≠ .failed reason) :
    ∃ more, Ends outlet s (s.run more) := by
  cases hphase : (s.intake.reader outlet).phase with
  | reading => exact exists_ends_of_reading hphase
  | appending chunk =>
      have happend : ((s.step (.append outlet)).intake.reader outlet).phase = .reading := by
        simp [step, Reader.append, hphase]
      obtain ⟨more, hended, hothers⟩ := exists_ends_of_reading happend
      refine ⟨.append outlet :: more, hended, fun other hother => ?_⟩
      exact (hothers other hother).trans (Intake.reader_append_of_ne hother _)
  | ended => exact ⟨[], hphase, fun _ _ => rfl⟩
  | failed reason => exact absurd hphase (hlive reason)

theorem exists_run_hasEnded (s : Attendance)
    (hlive : ∀ outlet reason, (s.intake.reader outlet).phase ≠ .failed reason) :
    ∃ more, (s.run more).intake.HasEnded := by
  obtain ⟨first, hstandard, hothers⟩ := s.exists_ends .standard (hlive .standard)
  have herrors := hothers .errors (by decide)
  obtain ⟨second, hended, hothers⟩ := (s.run first).exists_ends .errors
    (by rw [herrors]; exact hlive .errors)
  refine ⟨first ++ second, fun outlet => ?_⟩
  rw [run_append]
  cases outlet with
  | standard => rw [hothers .standard (by decide), hstandard]
  | errors => exact hended

section
variable {c : Command} {standard errors bytes : Bytes} {text : Text}

theorem follows_start_run (c : Command) (standard errors : Bytes) (events : List Event) :
    ((start c standard errors).run events).intake.Follows (Outlet.stream standard errors) :=
  follows_run (Intake.follows_start _) events

/-- The text that is reported is the decoding of all that is captured at the moment of the report,
and after an exit of all that will ever be captured. -/
theorem exists_moment_of_reported? (hnone : s.ending? = none)
    (h : (s.run events).reported? = some text) :
    ∃ before after, events = before ++ .report :: after ∧
      text = Utf8.decodeLossy (s.run before).intake.captured.bytes ∧
      ∀ status, (s.run events).waiting.verdict? = some (.exited status) →
        (s.run before).intake = (s.run events).intake := by
  obtain ⟨result, hresult, htold⟩ := Option.bind_eq_some_iff.mp h
  obtain ⟨ending, hending, rfl⟩ := Option.map_eq_some_iff.mp hresult
  obtain ⟨before, after, verdict, rfl, hverdict, hready, rfl⟩ := exists_report hnone hending
  refine ⟨before, after, rfl, eq_decodeLossy_of_told? htold, fun status hexited => ?_⟩
  rw [run_append] at hexited ⊢
  obtain rfl : verdict = .exited status := by
    rw [verdict?_run_of_some hverdict] at hexited
    exact Option.some.inj hexited
  exact (intake_run_of_hasStopped (hready rfl) _).symm

/-- Whatever chunks the readers of a program's two outputs take and whoever gets ahead, what is
captured is at every moment put together from a beginning of each stream, and from both streams as
they are when both readers have come to their ends, which they can at any time. A report tells what
is captured at its moment, decoded at once; after an exit this is everything, so that the text of
who writes to one output alone is the decoding of this stream. -/
theorem run_captures_streams (c : Command) (standard errors : Bytes) (events : List Event) :
    let s := (start c standard errors).run events
    Interleaved standard errors s.intake.captured.bytes ∧
    (s.intake.HasEnded → Merges [standard, errors] s.intake.captured.bytes) ∧
    ((∀ outlet reason, (s.intake.reader outlet).phase ≠ .failed reason) →
      ∃ more, (s.run more).intake.HasEnded) ∧
    ∀ text, s.reported? = some text → ∃ before after bytes,
      events = before ++ .report :: after ∧
      bytes = ((start c standard errors).run before).intake.captured.bytes ∧
      text = Utf8.decodeLossy bytes ∧
      Interleaved standard errors bytes ∧
      (errors = [] → bytes <+: standard) ∧ (standard = [] → bytes <+: errors) ∧
      ((∃ status, s.waiting.verdict? = some (.exited status)) → s.intake.HasEnded →
        Merges [standard, errors] bytes ∧
        (errors = [] → text = Utf8.decodeLossy standard) ∧
        (standard = [] → text = Utf8.decodeLossy errors)) := by
  intro s
  have hfollows (events : List Event) := follows_start_run c standard errors events
  have hwhole (hended : s.intake.HasEnded) : Merges [standard, errors] s.intake.captured.bytes :=
    (hfollows events).taken_of_hasEnded hended
  refine ⟨(hfollows events).interleaved, hwhole, s.exists_run_hasEnded, fun text htext => ?_⟩
  obtain ⟨before, after, hevents, hmoment, hexited⟩ := exists_moment_of_reported? rfl htext
  have hinterleaved := (hfollows before).interleaved
  refine ⟨before, after, _, hevents, rfl, hmoment, hinterleaved, ?_, ?_, ?_⟩
  · rintro rfl
    exact hinterleaved.of_silent_errors
  · rintro rfl
    exact hinterleaved.of_silent_standard
  · rintro ⟨status, hstatus⟩ hended
    have hmerges := hwhole hended
    rw [← hexited status hstatus] at hmerges
    refine ⟨hmerges, ?_, ?_⟩
    · rintro rfl
      rw [hmoment, eq_of_merges_nil hmerges]
    · rintro rfl
      rw [hmoment, eq_of_nil_merges hmerges]

/-- The first chunk ends inside a letter, and a read is interrupted before the rest comes. -/
theorem captured_cut_letter :
    let c : Command := ⟨⟨"cc"⟩, [], none, none, none⟩
    let events : List Event := [.read .standard (.bytes ⟨1, by decide, by decide⟩),
      .append .standard, .read .standard .interrupted, .read .standard (.bytes .most),
      .read .errors (.bytes .most), .append .standard, .read .standard (.bytes .most),
      .look ⟨.exited (.exited 0), false, ⟨0⟩⟩, .report]
    let s := (start c [0xC3, 0xA9, 0x21] []).run events
    s.reported? = some "é!" ∧ s.intake.HasEnded ∧
      Merges [[0xC3, 0xA9, 0x21], []] s.intake.captured.bytes ∧
      Utf8.decodeLossy [0xC3, 0xA9, 0x21] = "é!" := by
  intro c events s
  have hended : s.intake.HasEnded := by
    intro outlet
    cases outlet <;> decide +kernel
  have htext : s.reported? = some "é!" := by decide +kernel
  have hexited : ∃ status, s.waiting.verdict? = some (.exited status) :=
    ⟨.exited 0, by decide +kernel⟩
  obtain ⟨-, hwhole, -, hreported⟩ := run_captures_streams c [0xC3, 0xA9, 0x21] [] events
  obtain ⟨_, _, _, -, -, -, -, -, -, hall⟩ := hreported _ htext
  exact ⟨htext, hended, hwhole hended, ((hall hexited hended).2.1 rfl).symm⟩

end

end Attendance
end Bytelink
