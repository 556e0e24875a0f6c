import Bytelink.Proofs.ClassFile
import Bytelink.Proofs.SceneMachine

/-!
# Builds on the machine

What is ensured of a build in every setting holds of a build on the machine, whatever its programs
do: the machine only has to keep the source directory where it is, and to have no symbolic links in
it when the build begins. So the class file of a build that has succeeded is a file on the volume of
the machine, and the path that it has was free when the first tool was started.
-/
namespace Bytelink.Machine

variable {m : Machine} {c : Config} {cwd : Path}

theorem noLinks_scene {setting : Setting} (h : ∀ path, setting.IsEntry path →
    ∀ k, m.volume.findEntry m.directory path = .ok k → (m.volume.node k).isLink = false) :
    setting.NoLinks m.scene.places := by
  intro path standing hentry hstanding
  obtain ⟨seen, hseen, hsame⟩ := Option.map_eq_some_iff.mp hstanding
  obtain ⟨k, hk, hsight⟩ := Volume.sight?_eq_some_iff.mp hseen
  have hlink : standing.isLink = (m.volume.node k).isLink := by
    rw [← hsame, hsight]
  rw [hlink]
  exact h path hentry k hk

theorem built_class_file (hprograms : m.programs = [])
    (hlinks : ∀ path, (Setting.free c.sourceDir cwd).IsEntry path →
      ∀ k, m.volume.findEntry m.directory path = .ok k → (m.volume.node k).isLink = false)
    (hsteady : ∀ a ∈ (build c).asked host m, a.2.Steady (.free c.sourceDir cwd)) :
    (∀ m', (.report (Build.entering .idle .preprocessing), m') ∈ (build c).asked host m →
      ∀ outDir, c.outDir.absolute cwd = .ok outDir →
        ∀ k, m'.volume.findEntry m'.directory (c.target.classFile outDir) ≠ .ok k) ∧
    ∀ artifact m', (build c).run host m = (.ok artifact, m') →
      ∃ outDir, c.outDir.absolute cwd = .ok outDir ∧
        artifact.classFile = c.target.classFile outDir ∧
        m'.volume.isFile m'.directory artifact.classFile = true := by
  have hspares : ∀ outDir, c.outDir.absolute cwd = .ok outDir →
      (Setting.free c.sourceDir cwd).Spares (c.target.classFile outDir) fun _ => True :=
    fun _ _ _ _ _ _ h => absurd trivial h
  have hdir : c.sourceDir = (Setting.free c.sourceDir cwd).directory := rfl
  have hlog : m.scene.log = [] := rfl
  have hbuild := Setting.concludes_secured hdir hlog (noLinks_scene hlinks) hspares
  obtain ⟨⟨w', hshows, hok, -⟩, hasked⟩ := Plan.Ensures.of_simulates
    (simulates c.sourceDir cwd) hbuild (shows_scene hprograms) hsteady
  constructor
  · intro m' hmem outDir houtDir k hk
    obtain ⟨w, hshows, hconducts, -⟩ := hasked _ hmem
    exact hshows.not_find (hconducts rfl outDir houtDir) k hk
  · intro artifact m' hrun
    have hrun' : (Build.stages c).run.run host m = (.ok artifact, m') := hrun
    rw [hrun'] at hok hshows
    obtain ⟨outDir, houtDir, hclassFile, ⟨content, hholds⟩, -⟩ := hok artifact rfl
    obtain ⟨n, bytes, hfind, hbytes, -⟩ := hshows.holds_iff.mp hholds
    refine ⟨outDir, houtDir, hclassFile, ?_⟩
    simp [Volume.isFile, Volume.anyAt, hfind, Inode.isFile, hbytes]

end Bytelink.Machine
