import Bytelink.Proofs.Parts
import Bytelink.Proofs.Preparing
import Bytelink.Proofs.Premises

/-!
# What two builds are told

Two builds in stocks that are alike are told the same, as long as they read only in places where
the stocks do not differ at all. Such a place is every place that a build has written, or from which
it has removed a file; of a removed file the build learns whether there was one, and does not mind
(`repeats_removal`). A tool run that reads such a place comes out in the same way, and all that it
has written are such places again (`repeats_runTool`).
-/
namespace Bytelink
namespace Premises

variable {premises : Premises} {places : Set Path} {w w' : Stock} {c : Config}

theorem leads_report {level : Level} {reporter : Reporter} {text : Text} {u : Unit} {v : Stock} :
    (Plan.report level reporter text).Leads premises.answers w u v ↔ v = w :=
  Plan.leads_request

theorem repeats_report {level : Level} {reporter : Reporter} {text : Text} :
    (Plan.report level reporter text).Repeats premises.answers
      (fun _ v v' => v = w ∧ v' = w') w w' := by
  rintro _ v _ v' hv hv'
  exact ⟨rfl, leads_report.mp hv, leads_report.mp hv'⟩

/-- What is logged in between makes no difference. -/
theorem repeats_reported {ε α : Type} {level : Level} {reporter : Reporter} {text : Text}
    {next : ExceptT ε Plan α} {Q : α → Stock → Stock → Prop}
    (h : Repeats premises.answers next Q w w') :
    Repeats premises.answers (liftM (Plan.report level reporter text) >>= fun _ => next)
      Q w w' := by
  refine (repeats_lift repeats_report).bind ?_
  rintro - v v' ⟨rfl, rfl⟩
  exact h

theorem repeats_isDirectory (h : Alike places w w') (path : Path) :
    (Plan.isDirectory path).Repeats premises.answers
      (fun _ v v' => v = w ∧ v' = w') w w' := by
  refine Plan.twin_request ?_
  rintro reply v reply' v' ⟨rfl, rfl⟩ ⟨rfl, rfl⟩
  exact ⟨decide_eq_decide.mpr h.directory_iff, rfl, rfl⟩

theorem repeats_isFile {path : Path} (h : Alike places w w')
    (hpath : premises.place path ∈ places) :
    (Plan.isFile path).Repeats premises.answers (fun reply v v' => v = w ∧ v' = w' ∧
      reply = (w.item (premises.place path)).any Item.isFile) w w' := by
  refine Plan.twin_request ?_
  rintro reply v reply' v' ⟨rfl, rfl⟩ ⟨rfl, rfl⟩
  exact ⟨by rw [h.same _ hpath], rfl, rfl, rfl⟩

theorem repeats_absolute (path : Path) : (Plan.absolute path).Repeats premises.answers
    (fun reply v v' => v = w ∧ v' = w' ∧ reply = premises.absolute path) w w' := by
  unfold Plan.absolute absolute
  split
  · exact Plan.repeats_pure ⟨rfl, rfl, rfl⟩
  · have hcurrent : Plan.currentDirectory.Repeats premises.answers (fun reply v v' =>
        v = w ∧ v' = w' ∧ reply = premises.currentDirectory) w w' := by
      refine Plan.twin_request ?_
      rintro reply v reply' v' ⟨rfl, rfl⟩ ⟨rfl, rfl⟩
      exact ⟨rfl, rfl, rfl, rfl⟩
    refine hcurrent.bind ?_
    rintro (e | directory) v v' ⟨rfl, rfl, hreply⟩
    · rw [← hreply]
      exact Plan.repeats_pure ⟨rfl, rfl, rfl⟩
    · rw [← hreply]
      exact Plan.repeats_pure ⟨rfl, rfl, rfl⟩

theorem repeats_command (c : Config) (program : Path) (arguments : List Text) :
    (c.command program arguments).Repeats premises.answers (fun command v v' => v = w ∧ v' = w' ∧
      command.arguments = arguments ∧ command.directory? = some c.sourceDir ∧
      command.timeout? = c.timeout? ∧ command.cancel? = c.cancel?) w w' := by
  have hresolve : (Config.resolveTool program).Repeats premises.answers
      (fun _ v v' => v = w ∧ v' = w') w w' := by
    unfold Config.resolveTool
    split
    · refine (repeats_absolute program).bind ?_
      rintro (e | path) v v' ⟨rfl, rfl, -⟩
      · exact Plan.repeats_pure ⟨rfl, rfl⟩
      · exact Plan.repeats_pure ⟨rfl, rfl⟩
    · exact Plan.repeats_pure ⟨rfl, rfl⟩
  refine hresolve.bind ?_
  rintro program v v' ⟨rfl, rfl⟩
  exact Plan.repeats_pure ⟨rfl, rfl, rfl, rfl, rfl, rfl⟩

theorem repeats_readText {path : Path} (h : Alike places w w')
    (hpath : premises.place path ∈ places) :
    (Plan.readText path).Repeats premises.answers (fun _ v v' => v = w ∧ v' = w') w w' := by
  have hread : (Plan.fileContent path).Repeats premises.answers
      (fun _ v v' => v = w ∧ v' = w') w w' := by
    refine Plan.twin_request ?_
    rintro reply v reply' v' ⟨rfl, hreply⟩ ⟨rfl, hreply'⟩
    rw [h.barrier, h.same _ hpath] at hreply'
    refine ⟨?_, rfl, rfl⟩
    cases hbarrier : v.barrier (.fileContent path) with
    | some e =>
        simp only [hbarrier] at hreply hreply'
        rw [hreply, hreply']
    | none =>
        simp only [hbarrier] at hreply hreply'
        rw [hreply, hreply']
  refine hread.bind ?_
  rintro (e | bytes) v v' ⟨rfl, rfl⟩
  · exact Plan.repeats_pure ⟨rfl, rfl⟩
  · cases hdecode : Utf8.decode? bytes with
    | none =>
        simp only [hdecode]
        exact Plan.repeats_pure ⟨rfl, rfl⟩
    | some text =>
        simp only [hdecode]
        exact Plan.repeats_pure ⟨rfl, rfl⟩

theorem repeats_onFile {α : Type} {path : Path} {operation : Plan (Except SystemError α)}
    {Q : α → Stock → Stock → Prop}
    (h : operation.Repeats premises.answers
      (fun reply v v' => ∀ value, reply = .ok value → Q value v v') w w') :
    Repeats premises.answers (Build.onFile path operation) Q w w' := by
  refine Plan.Repeats.bind h ?_
  rintro (e | value) v v' hvalue
  · exact Plan.repeats_pure fun value hv => (nomatch hv)
  · refine Plan.repeats_pure fun other hother => ?_
    exact Except.ok.inj hother ▸ hvalue value rfl

theorem repeats_makeDirectories {path : Path} (h : Alike places w w')
    (hpath : w.item (premises.place path) = some .directory) :
    Repeats premises.answers (Build.onFile path (Plan.makeDirectories path))
      (fun _ v v' => v = w ∧ v' = w') w w' := by
  refine repeats_onFile (Plan.twin_request ?_)
  rintro reply v reply' v' hreply hreply'
  obtain ⟨rfl, rfl⟩ := hreply hpath
  obtain ⟨rfl, rfl⟩ := hreply' (h.directory_iff.mpr hpath)
  exact ⟨rfl, fun _ _ => ⟨rfl, rfl⟩⟩

/-- A file that has been written is the same in both stocks, and what else was there still is. -/
theorem repeats_writeFile (h : Alike places w w') (path : Path) (content : Bytes) :
    Repeats premises.answers (Build.onFile path (Plan.writeFile path content)) (fun _ v v' =>
      Alike (insert (premises.place path) places) v v' ∧ w.Keeps v ∧
        v.item (premises.place path) ≠ none) w w' := by
  refine repeats_onFile (Plan.twin_request ?_)
  intro reply v reply' v' hreply hreply'
  simp only [answers] at hreply hreply'
  rw [h.barrier] at hreply'
  cases hbarrier : w.barrier (.writeFile path content) with
  | some e =>
      simp only [hbarrier] at hreply hreply'
      rw [hreply, hreply']
      exact ⟨rfl, fun _ hvalue => (nomatch hvalue)⟩
  | none =>
      simp only [hbarrier] at hreply hreply'
      by_cases hloose : IsLoose (w.item (premises.place path))
      · rw [premises.written_of_loose content hloose] at hreply
        rw [premises.written_of_loose content (h.loose_iff.mpr hloose)] at hreply'
        obtain ⟨rfl, rfl⟩ := Prod.mk.inj hreply
        obtain ⟨rfl, rfl⟩ := Prod.mk.inj hreply'
        refine ⟨rfl, fun _ _ => ⟨h.set _ _, w.keeps_set _ _, ?_⟩⟩
        rw [Stock.set_item_self]
        exact Option.some_ne_none _
      · rw [premises.written_of_not_loose content hloose] at hreply
        rw [premises.written_of_not_loose content
          fun hloose' => hloose (h.loose_iff.mp hloose')] at hreply'
        obtain ⟨rfl, rfl⟩ := Prod.mk.inj hreply
        obtain ⟨rfl, rfl⟩ := Prod.mk.inj hreply'
        refine ⟨rfl, fun _ _ => ⟨h.insert_of_same (h.same_of_not_loose hloose), ?_, ?_⟩⟩
        · exact fun _ hitem => hitem
        · exact fun hnone => hloose (by rw [hnone]; rfl)

theorem twin_removeFile (h : Alike places w w') (path : Path) :
    Plan.Twin premises.answers (Plan.removeFile path) (Plan.removeFile path)
      (fun reply reply' v v' => (reply' = reply ∨ Passed reply ∧ Passed reply') ∧
        (Passed reply → Alike (insert (premises.place path) places) v v')) w w' := by
  refine Plan.twin_request ?_
  intro reply v reply' v' hreply hreply'
  simp only [answers] at hreply hreply'
  rw [h.barrier] at hreply'
  cases hbarrier : w.barrier (.removeFile path) with
  | some e =>
      simp only [hbarrier] at hreply hreply'
      obtain ⟨rfl, rfl, hnone⟩ := hreply
      obtain ⟨rfl, rfl, hnone'⟩ := hreply'
      refine ⟨Or.inl rfl, ?_⟩
      rintro (hok | hgone)
      · cases hok
      · have he := Except.error.inj hgone
        exact h.insert_of_same ((hnone' he).trans (hnone he).symm)
  | none =>
      simp only [hbarrier] at hreply hreply'
      by_cases hdirectory : w.item (premises.place path) = some .directory
      · have hdirectory' := h.directory_iff.mpr hdirectory
        simp only [removed, hdirectory, hdirectory'] at hreply hreply'
        obtain ⟨rfl, rfl⟩ := Prod.mk.inj hreply
        obtain ⟨rfl, rfl⟩ := Prod.mk.inj hreply'
        exact ⟨Or.inl rfl, fun _ => h.insert_of_same (hdirectory'.trans hdirectory.symm)⟩
      · obtain ⟨r, hr, hremoved⟩ := premises.removed_of_not_directory hdirectory
        obtain ⟨r', hr', hremoved'⟩ := premises.removed_of_not_directory
          fun hdirectory' => hdirectory (h.directory_iff.mp hdirectory')
        rw [hremoved] at hreply
        rw [hremoved'] at hreply'
        obtain ⟨rfl, rfl⟩ := Prod.mk.inj hreply
        obtain ⟨rfl, rfl⟩ := Prod.mk.inj hreply'
        exact ⟨Or.inr ⟨hr, hr'⟩, fun _ => h.set _ _⟩

/-- A part that removes a file and goes on with the same value whether there was one or not. Then
there is none in either stock. -/
theorem repeats_removal {α : Type} {path : Path} {next : Except SystemError Unit → Part α} {a : α}
    (h : Alike places w w')
    (hpassed : ∀ reply, Passed reply → ∀ u result v,
      (next reply).run.Leads premises.answers u result v → result = .ok a ∧ v = u)
    (hfailed : ∀ e, e ≠ .notFound → next (.error e) = throw (.file path e)) :
    Repeats premises.answers (liftM (Plan.removeFile path) >>= next)
      (fun _ v v' => Alike (insert (premises.place path) places) v v') w w' := by
  change Repeats premises.answers (ExceptT.lift (Plan.removeFile path) >>= next) _ w w'
  rw [Repeats, ExceptT.run_bind_lift]
  refine Plan.Twin.bind (twin_removeFile h path) ?_
  rintro reply reply' u u' ⟨hreply, halike⟩
  by_cases hreplies : Passed reply ∧ Passed reply'
  · intro result v result' v' hv hv'
    obtain ⟨rfl, rfl⟩ := hpassed reply hreplies.1 u result v hv
    obtain ⟨rfl, rfl⟩ := hpassed reply' hreplies.2 u' result' v' hv'
    exact ⟨rfl, fun _ _ => halike hreplies.1⟩
  · obtain rfl := hreply.resolve_right hreplies
    cases hreply' : reply' with
    | ok => exact absurd ⟨Or.inl hreply', Or.inl hreply'⟩ hreplies
    | error e =>
        have he : e ≠ .notFound := by
          rintro rfl
          exact hreplies ⟨Or.inr hreply', Or.inr hreply'⟩
        rw [hfailed e he]
        exact repeats_throw

theorem repeats_removeStale (h : Alike places w w') (path : Path) :
    Repeats premises.answers (Build.removeStale path)
      (fun _ v v' => Alike (insert (premises.place path) places) v v') w w' := by
  refine repeats_removal (a := ()) h ?_ ?_
  · rintro _ (rfl | rfl) u result v hv
    · obtain ⟨_, between, hreport, hresult⟩ := Plan.leads_bind.mp hv
      obtain rfl := leads_report.mp hreport
      obtain ⟨rfl, rfl⟩ := hresult
      exact ⟨rfl, rfl⟩
    · obtain ⟨rfl, rfl⟩ := hv
      exact ⟨rfl, rfl⟩
  · intro e he
    simp only [he, if_false]

variable {command : Command} {chore : Chore}

/-- Two runs of a chore fail in the same way, or have written the same. -/
def Finished (premises : Premises) (chore : Chore) (w w' : Stock)
    (reply reply' : Except ToolError Text) (v v' : Stock) : Prop :=
  (∃ e, reply = .error e ∧ reply' = .error e) ∨
    ∃ text text' made, reply = .ok text ∧ reply' = .ok text' ∧
      premises.outcome chore w = .ok made ∧ premises.Ran made w v ∧ premises.Ran made w' v'

theorem twin_finish {run run' : Run} (hchore : premises.chore? command = some chore)
    (hsame : premises.outcome chore w' = premises.outcome chore w)
    (hrun : w.jobs run = some command) (hrun' : w'.jobs run' = some command) :
    Plan.Twin premises.answers (command.finish run) (command.finish run')
      (premises.Finished chore w w') w w' := by
  have hawait : Plan.Twin premises.answers (Plan.await run) (Plan.await run')
      (fun ending ending' v v' => premises.Finished chore w w' (command.outcome ending)
        (command.outcome ending') v v') w w' := by
    refine Plan.twin_request ?_
    intro ending v ending' v' hending hending'
    replace hending := hending command chore hrun hchore
    replace hending' := hending' command chore hrun' hchore
    rw [hsame] at hending'
    cases houtcome : premises.outcome chore w with
    | error failure =>
        simp only [houtcome] at hending hending'
        subst hending hending'
        cases hresult : command.outcome failure.ending with
        | error e => exact Or.inl ⟨e, rfl, rfl⟩
        | ok text =>
            exact absurd ((Site.outcome_eq_ok_iff command).mp ⟨text, hresult⟩)
              failure.unsuccessful
    | ok made =>
        simp only [houtcome] at hending hending'
        obtain ⟨text, htext⟩ := (Site.outcome_eq_ok_iff command).mpr hending.1
        obtain ⟨text', htext'⟩ := (Site.outcome_eq_ok_iff command).mpr hending'.1
        exact Or.inr ⟨text, text', made, htext, htext', houtcome, hending.2, hending'.2⟩
  unfold Command.finish
  rw [map_eq_pure_bind, map_eq_pure_bind]
  exact hawait.bind fun _ _ _ _ hfinished => Plan.twin_pure hfinished

theorem twin_run (h : Alike places w w') (htimeout : command.timeout? = none)
    (hcancel : command.cancel? = none) (hchore : premises.chore? command = some chore)
    (hsame : premises.outcome chore w' = premises.outcome chore w) :
    Plan.Twin premises.answers command.run command.run (premises.Finished chore w w') w w' := by
  have hlaunch : Plan.Twin premises.answers (Plan.launch command) (Plan.launch command)
      (fun reply reply' v v' =>
        (∃ e, reply = .error (.impossible e) ∧ reply' = .error (.impossible e)) ∨
        ∃ run run', reply = .ok run ∧ reply' = .ok run' ∧ Stock.Started command run w v ∧
          Stock.Started command run' w' v') w w' := by
    refine Plan.twin_request ?_
    intro reply v reply' v' hreply hreply'
    replace hreply := hreply htimeout hcancel
    replace hreply' := hreply' htimeout hcancel
    rw [h.barrier] at hreply'
    cases hbarrier : w.barrier (.launch command) with
    | some e =>
        simp only [hbarrier] at hreply hreply'
        exact Or.inl ⟨e, hreply, hreply'⟩
    | none =>
        simp only [hbarrier] at hreply hreply'
        obtain ⟨run, hrun, hstarted⟩ := hreply
        obtain ⟨run', hrun', hstarted'⟩ := hreply'
        exact Or.inr ⟨run, run', hrun, hrun', hstarted, hstarted'⟩
  have hstart : Plan.Twin premises.answers command.start command.start
      (fun reply reply' v v' => (∃ e, reply = .error e ∧ reply' = .error e) ∨
        ∃ run run', reply = .ok run ∧ reply' = .ok run' ∧ Stock.Started command run w v ∧
          Stock.Started command run' w' v') w w' := by
    refine hlaunch.bind ?_
    rintro _ _ v v' (⟨e, rfl, rfl⟩ | ⟨run, run', rfl, rfl, hstarted, hstarted'⟩)
    · refine Plan.Twin.bind repeats_report ?_
      exact fun _ _ _ _ _ => Plan.twin_pure (Or.inl ⟨_, rfl, rfl⟩)
    · refine Plan.Twin.bind repeats_report ?_
      rintro - - u u' ⟨-, rfl, rfl⟩
      exact Plan.twin_pure (Or.inr ⟨run, run', rfl, rfl, hstarted, hstarted'⟩)
  refine hstart.bind ?_
  rintro _ _ v v' (⟨e, rfl, rfl⟩ | ⟨run, run', rfl, rfl, hstarted, hstarted'⟩)
  · exact Plan.twin_pure (Or.inl ⟨e, rfl, rfl⟩)
  · have houtcome : premises.outcome chore v = premises.outcome chore w := by
      rw [outcome, outcome, hstarted.item]
    have houtcome' : premises.outcome chore v' = premises.outcome chore w' := by
      rw [outcome, outcome, hstarted'.item]
    have hsame' := houtcome'.trans (hsame.trans houtcome.symm)
    intro reply u reply' u' hu hu'
    rcases twin_finish hchore hsame' hstarted.job hstarted'.job reply u reply' u' hu hu' with
      hfailed | ⟨text, text', made, htext, htext', hmade, hran, hran'⟩
    · exact Or.inl hfailed
    · exact Or.inr ⟨text, text', made, htext, htext', houtcome.symm.trans hmade,
        .of_started premises hstarted hran, .of_started premises hstarted' hran'⟩

theorem repeats_runTool (h : Alike places w w') (htimeout : command.timeout? = none)
    (hcancel : command.cancel? = none) (hchore : premises.chore? command = some chore)
    (hsame : premises.outcome chore w' = premises.outcome chore w) :
    Repeats premises.answers (Build.runTool command) (fun _ v v' => w.Keeps v ∧
      ∃ made, premises.outcome chore w = .ok made ∧
        Alike (places ∪ {place | ∃ file ∈ made, place = premises.place file.1}) v v') w w' := by
  change Repeats premises.answers (ExceptT.lift command.run >>= _) _ w w'
  rw [Repeats, ExceptT.run_bind_lift]
  refine Plan.Twin.bind (twin_run h htimeout hcancel hchore hsame) ?_
  rintro _ _ v v' (⟨e, rfl, rfl⟩ | ⟨text, text', made, rfl, rfl, hmade, hran, hran'⟩)
  · exact repeats_throw
  · refine repeats_pure ⟨?_, made, hmade, h.ran hran hran'⟩
    intro place hplace
    rw [hran.item]
    exact premises.keeps_putAll w made place hplace

/-- A tool of a build without watch reads a place in which the stocks do not differ. -/
theorem repeats_tool {β : Type} {program : Path} {arguments : List Text} {make : Command → Chore}
    {next : Part β} {Q : β → Stock → Stock → Prop} (h : Alike places w w')
    (htimeout : c.timeout? = none) (hcancel : c.cancel? = none)
    (hchore : ∀ command, command.directory? = some c.sourceDir → command.arguments = arguments →
      premises.chore? command = some (make command))
    (hsame : ∀ command, premises.outcome (make command) w' = premises.outcome (make command) w)
    (hnext : ∀ command made v v', premises.outcome (make command) w = .ok made → w.Keeps v →
      Alike (places ∪ {place | ∃ file ∈ made, place = premises.place file.1}) v v' →
      Repeats premises.answers next Q v v') :
    Repeats premises.answers (do Build.runTool (← c.command program arguments); next) Q w w' := by
  refine (repeats_lift (repeats_command c program arguments)).bind ?_
  rintro command v v' ⟨rfl, rfl, harguments, hdirectory, htimeout', hcancel'⟩
  refine (repeats_runTool h (htimeout'.trans htimeout) (hcancel'.trans hcancel)
    (hchore command hdirectory harguments) (hsame command)).bind ?_
  rintro - u u' ⟨hkeeps, made, hmade, halike⟩
  exact hnext command made u u' hmade hkeeps halike

end Premises
end Bytelink
