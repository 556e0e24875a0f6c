import Bytelink.Host.Machine
import Bytelink.Proofs.Changes
import Bytelink.Proofs.Scene

/-!
# The machine plays a scene

What can be found on the volume of a machine is a scene, and the machine answers every request as a
setting says in which programs may do anything (`Machine.simulates`). All that programs do is done
while a run is waited for, and is put down to that run: on a machine, too, a program can be at work
that has been started by a run before.

Two things are not up to the machine, since programs may move and remove directories: the current
directory has to keep its path, and the source directory has to stay where it is
(`Machine.Steady`).
-/
namespace Bytelink

/-- What somebody who reads the node gets to see. -/
def Inode.entry (n : Inode) : Entry :=
  match n.content with
  | .file bytes => .file bytes.toList
  | _ => .other

def Standing.sight (s : Standing) : Entry × Bool := (s.entry, s.isLink)

namespace Volume

/-- What is found under a path with links followed; a link may lead nowhere. -/
def entryAt (v : Volume) (here : NodeId) (path : Path) : Entry :=
  match v.find here path with
  | .ok n => (v.node n).entry
  | .error _ => .other

/-- What is found under a path, and whether it is found through a link. -/
def sight? (v : Volume) (here : NodeId) (path : Path) : Option (Entry × Bool) :=
  match v.findEntry here path with
  | .ok k => some (v.entryAt here path, (v.node k).isLink)
  | .error _ => none

variable {v v' : Volume} {here n : NodeId} {path : Path} {seen : Entry × Bool}

theorem sight?_eq_some_iff : v.sight? here path = some seen ↔
    ∃ k, v.findEntry here path = .ok k ∧ seen = (v.entryAt here path, (v.node k).isLink) := by
  unfold sight?
  cases v.findEntry here path with
  | error e => simp
  | ok k => simp [eq_comm]

theorem sight?_eq_none (h : ∀ k, v.findEntry here path ≠ .ok k) : v.sight? here path = none := by
  unfold sight?
  cases hfind : v.findEntry here path with
  | error e => rfl
  | ok k => exact absurd hfind (h k)

theorem Traces.isLink_eq (h : v.Traces v') (n : NodeId) :
    (v'.node n).isLink = (v.node n).isLink := by
  cases hlink : (v.node n).isLink with
  | false => exact Bool.eq_false_iff.mpr (mt (h.isLink n) (by simp [hlink]))
  | true =>
      unfold Inode.isLink at hlink
      split at hlink
      · next target hcontent => simp [Inode.isLink, h.link n target hcontent]
      · cases hlink

theorem sight?_congr (h : ∀ n, v.node n = v'.node n) (here : NodeId) (path : Path) :
    v.sight? here path = v'.sight? here path := by
  have hkeeps := keeps_of_node h
  have hkept := keeps_of_node fun n => (h n).symm
  have hentry : v.entryAt here path = v'.entryAt here path := by
    unfold entryAt
    cases hfind : v.find here path with
    | ok n =>
        rw [show v'.find here path = .ok n from hkeeps.findFor hfind]
        simp only [h]
    | error e =>
        cases hfind' : v'.find here path with
        | ok n =>
            rw [show v.find here path = .ok n from hkept.findFor hfind'] at hfind
            cases hfind
        | error e' => rfl
  unfold sight?
  cases hfind : v.findEntry here path with
  | ok k =>
      rw [show v'.findEntry here path = .ok k from hkeeps.findFor hfind]
      simp only [h, hentry]
  | error e =>
      cases hfind' : v'.findEntry here path with
      | ok n =>
          rw [show v.findEntry here path = .ok n from hkept.findFor hfind'] at hfind
          cases hfind
      | error e' => rfl

end Volume

namespace Places

def follow (places : Places) (sight? : Path → Option (Entry × Bool)) (maker? : Option Run) :
    Places := fun path =>
  (sight? path).map fun seen => ⟨seen.1, seen.2, (places path).elim maker? Standing.maker?⟩

def credit (places : Places) (sight? : Path → Option (Entry × Bool)) (run : Run) : Places :=
  fun path => (sight? path).map fun seen =>
    ((places path).filter fun s => s.sight = seen).getD ⟨seen.1, seen.2, some run⟩

variable {places : Places} {sight? : Path → Option (Entry × Bool)} {maker? : Option Run} {run : Run}
variable {path : Path} {standing : Standing}

theorem sight_follow (path : Path) :
    (places.follow sight? maker? path).map Standing.sight = sight? path := by
  unfold follow
  cases sight? path <;> rfl

theorem sight_credit (path : Path) :
    (places.credit sight? run path).map Standing.sight = sight? path := by
  unfold credit
  cases sight? path with
  | none => rfl
  | some seen =>
      cases hfilter : (places path).filter fun s => s.sight = seen with
      | none =>
          simp only [Option.map_some, hfilter, Option.getD_none]
          rfl
      | some standing =>
          have hsight := (Option.filter_eq_some_iff.mp hfilter).2
          simpa [hfilter] using hsight

theorem credit_cases (h : places.credit sight? run path = some standing) :
    places path = some standing ∨ standing.maker? = some run := by
  unfold credit at h
  obtain ⟨seen, -, hstanding⟩ := Option.map_eq_some_iff.mp h
  cases hfilter : (places path).filter fun s => s.sight = seen with
  | none =>
      rw [hfilter] at hstanding
      exact .inr (by rw [← hstanding]; rfl)
  | some found =>
      rw [hfilter] at hstanding
      obtain rfl : found = standing := hstanding
      exact .inl (Option.filter_eq_some_iff.mp hfilter).1

end Places

/-- A setting in which every program may do anything. -/
def Setting.free (directory currentDirectory : Path) : Setting where
  directory := directory
  currentDirectory := currentDirectory
  step _ _ _ _ := True
  exit _ _ _ := True

theorem Setting.IsEntry.endsInSlash {setting : Setting} {path : Path} (h : setting.IsEntry path) :
    path.endsInSlash = false := by
  obtain ⟨name, hplain, hpath⟩ := h
  have hjoin : ∃ q : Path, path = q.join ⟨name⟩ := by
    rcases hpath with hpath | habsolute
    · exact ⟨_, hpath⟩
    · exact ⟨_, Path.absolute_join_eq _ hplain habsolute⟩
  obtain ⟨q, rfl⟩ := hjoin
  rw [Path.join_eq q hplain]
  exact Path.endsInSlash_append _ hplain

namespace Machine

/-- The scene is what can be seen on the machine. Every program that is waited for is a run that has
not been found to have succeeded. -/
structure Shows (m : Machine) (w : Scene) : Prop where
  sight : ∀ path, (w.places path).map Standing.sight = m.volume.sight? m.directory path
  runs : ∀ run command, (run, command) ∈ w.runs → run.number < m.launched
  programs : ∀ p ∈ m.programs, (∃ command, (p.run, command) ∈ w.runs) ∧ p.run ∉ w.ended
  ended : ∀ run ∈ w.ended, run.number < m.launched

/-- The current directory has its path, and the source directory is found under its own path and
under that from the root. -/
structure Steady (setting : Setting) (m : Machine) : Prop where
  currentDirectory : ∀ text, m.volume.path? m.directory = some text →
    setting.currentDirectory = ⟨text⟩
  offers : m.volume.Offers m.directory setting.directory
  offersFromRoot : ∀ full, setting.directory.absolute setting.currentDirectory = .ok full →
    m.volume.Offers m.directory full

variable {m m' : Machine} {w : Scene} {path : Path} {run : Run} {directory cwd : Path}

theorem Steady.reaches {setting : Setting} (h : m.Steady setting) (hentry : setting.IsEntry path) :
    m.volume.Reaches m.directory path := by
  obtain ⟨name, hplain, hpath⟩ := hentry
  rcases hpath with hpath | hpath
  · rw [hpath]
    exact Volume.reaches_join h.offers hplain
  · have hne : setting.directory.text ≠ [] := by
      obtain ⟨n, hfind, -⟩ := h.offers
      obtain ⟨goal, hgoal, -⟩ := Volume.findFor_eq_ok_iff.mp hfind
      simpa using (Volume.goal_eq_ok_iff.mp hgoal).1.not_isEmpty
    obtain ⟨full, hfull, rfl⟩ := Path.absolute_join _ hplain hne hpath
    exact Volume.reaches_join (h.offersFromRoot full hfull) hplain

theorem Shows.exists_standing (h : m.Shows w) {seen : Entry × Bool}
    (hseen : m.volume.sight? m.directory path = some seen) :
    ∃ standing, w.places path = some standing ∧ standing.sight = seen := by
  rw [← h.sight path] at hseen
  exact Option.map_eq_some_iff.mp hseen

theorem Shows.sight_of (h : m.Shows w) {standing : Standing}
    (hstanding : w.places path = some standing) :
    m.volume.sight? m.directory path = some standing.sight := by
  rw [← h.sight path, hstanding]
  rfl

theorem Shows.holds_iff (h : m.Shows w) {content : Bytes} : w.Holds path content ↔
    ∃ n bytes, m.volume.find m.directory path = .ok n ∧
      (m.volume.node n).content = .file bytes ∧ bytes.toList = content := by
  constructor
  · intro ⟨standing, hstanding, hcontent⟩
    obtain ⟨k, -, hsight⟩ := Volume.sight?_eq_some_iff.mp (h.sight_of hstanding)
    have hentry : m.volume.entryAt m.directory path = .file content :=
      (congrArg Prod.fst hsight).symm.trans hcontent
    unfold Volume.entryAt at hentry
    split at hentry
    · next n hfind =>
        unfold Inode.entry at hentry
        split at hentry
        · next bytes hbytes => exact ⟨n, bytes, hfind, hbytes, Entry.file.inj hentry⟩
        · cases hentry
    · cases hentry
  · intro ⟨n, bytes, hfind, hbytes, hcontent⟩
    obtain ⟨k, hk⟩ := Volume.exists_findEntry hfind
    obtain ⟨standing, hstanding, hsight⟩ :=
      h.exists_standing (Volume.sight?_eq_some_iff.mpr ⟨k, hk, rfl⟩)
    refine ⟨standing, hstanding, ?_⟩
    have hentry := congrArg Prod.fst hsight
    simpa [Standing.sight, Volume.entryAt, hfind, Inode.entry, hbytes, hcontent] using hentry

/-- A request that starts no program and waits for none. -/
theorem Shows.reply (h : m.Shows w) {r : Request} (answer : r.Reply) {after : Places}
    (hlaunch : ∀ command, r ≠ .launch command) (hawait : ∀ run, r ≠ .await run)
    (hsight : ∀ path, (after path).map Standing.sight = m'.volume.sight? m'.directory path)
    (hlaunched : m'.launched = m.launched) (hprograms : m'.programs = m.programs) :
    m'.Shows (w.reply after r answer) where
  sight := hsight
  runs run command hrun := by
    rw [Scene.runs_reply after hlaunch] at hrun
    rw [hlaunched]
    exact h.runs run command hrun
  programs p hp := by
    rw [Scene.runs_reply after hlaunch, Scene.ended_reply after hawait]
    rw [hprograms] at hp
    exact h.programs p hp
  ended run hrun := by
    rw [Scene.ended_reply after hawait] at hrun
    rw [hlaunched]
    exact h.ended run hrun

def Answers (setting : Setting) (m : Machine) (w : Scene) (r : Request) : Prop :=
  ∃ w', setting.answers r (host.answer r m).1 w w' ∧ (host.answer r m).2.Shows w'

theorem answers_of_serves {setting : Setting} {r : Request} (after : Places)
    (hserves : setting.Serves w after r (host.answer r m).1)
    (hshows : (host.answer r m).2.Shows (w.reply after r (host.answer r m).1)) :
    Answers setting m w r :=
  ⟨_, ⟨w, after, .refl, hserves, rfl⟩, hshows⟩

/-- A request that changes nothing on the volume. -/
theorem answers_of_same {setting : Setting} (h : m.Shows w) {r : Request}
    (hlaunch : ∀ command, r ≠ .launch command) (hawait : ∀ run, r ≠ .await run)
    (hsame : (host.answer r m).2.volume = m.volume ∧ (host.answer r m).2.directory = m.directory ∧
      (host.answer r m).2.launched = m.launched ∧ (host.answer r m).2.programs = m.programs)
    (hserves : setting.Serves w w.places r (host.answer r m).1) : Answers setting m w r := by
  obtain ⟨hvolume, hdirectory, hlaunched, hprograms⟩ := hsame
  apply answers_of_serves w.places hserves
  apply h.reply _ hlaunch hawait _ hlaunched hprograms
  intro path
  rw [hvolume, hdirectory]
  exact h.sight path

variable {setting : Setting}

theorem answers_isFile (h : m.Shows w) (path : Path) : Answers setting m w (.isFile path) := by
  apply answers_of_same h (by simp) (by simp) ⟨rfl, rfl, rfl, rfl⟩
  refine ⟨rfl, ?_⟩
  simp only [host, answer, Volume.isFile, Volume.anyAt, h.holds_iff]
  constructor
  · intro hfile
    split at hfile
    · next n hfind =>
        unfold Inode.isFile at hfile
        split at hfile
        · next bytes hbytes => exact ⟨_, n, bytes, hfind, hbytes, rfl⟩
        · cases hfile
    · cases hfile
  · intro ⟨content, n, bytes, hfind, hbytes, hcontent⟩
    simp only [hfind, Inode.isFile, hbytes]
    rfl

theorem answers_currentDirectory (h : m.Shows w) (hsteady : m.Steady setting) :
    Answers setting m w .currentDirectory := by
  cases hpath : m.volume.path? m.directory with
  | none =>
      have hanswer : host.answer .currentDirectory m = (.error .notFound, m) := by
        simp only [host, answer, hpath]
      apply answers_of_same h (by simp) (by simp)
      · rw [hanswer]
        exact ⟨rfl, rfl, rfl, rfl⟩
      · rw [hanswer]
        exact ⟨rfl, fun _ hreply => by cases hreply⟩
  | some text =>
      have hanswer : host.answer .currentDirectory m = (.ok ⟨text⟩, m) := by
        simp only [host, answer, hpath]
      apply answers_of_same h (by simp) (by simp)
      · rw [hanswer]
        exact ⟨rfl, rfl, rfl, rfl⟩
      · rw [hanswer]
        refine ⟨rfl, fun path hreply => ?_⟩
        rw [← Except.ok.inj hreply]
        exact (hsteady.currentDirectory text hpath).symm

theorem answers_fileContent (h : m.Shows w) (path : Path) :
    Answers setting m w (.fileContent path) := by
  apply answers_of_same h (by simp) (by simp) ⟨rfl, rfl, rfl, rfl⟩
  simp only [host, answer, System.fileContent, bind, Except.bind]
  cases hfind : m.system.volume.find m.directory path with
  | error e =>
      refine ⟨rfl, fun _ hreply => (by cases hreply), fun _ content hholds => ?_⟩
      obtain ⟨n, -, hfind', -⟩ := h.holds_iff.mp hholds
      rw [show m.volume.find m.directory path = .error e from hfind] at hfind'
      cases hfind'
  | ok n =>
      have hplace : w.places path ≠ none := by
        obtain ⟨k, hk⟩ := Volume.exists_findEntry hfind
        obtain ⟨standing, hstanding, -⟩ :=
          h.exists_standing (Volume.sight?_eq_some_iff.mpr ⟨k, hk, rfl⟩)
        simp [hstanding]
      have hholds : ∀ found, w.Holds path found → ∃ bytes,
          (m.system.volume.node n).content = .file bytes ∧ bytes.toList = found := by
        intro found hfound
        obtain ⟨k, bytes, hk, hbytes, hcontent⟩ := h.holds_iff.mp hfound
        rw [show m.volume.find m.directory path = .ok n from hfind] at hk
        obtain rfl := Except.ok.inj hk
        exact ⟨bytes, hbytes, hcontent⟩
      refine ⟨rfl, fun content hreply => ⟨hplace, fun found hfound => ?_⟩, fun hreply => ?_⟩
      · obtain ⟨bytes, hbytes, hcontent⟩ := hholds found hfound
        simp only [hbytes] at hreply
        split at hreply
        · cases hreply
        · exact hcontent.symm.trans (Except.ok.inj hreply)
      · intro content hfound
        obtain ⟨bytes, hbytes, -⟩ := hholds content hfound
        simp only [hbytes] at hreply
        split at hreply <;> cases hreply

/-- What is found in both volumes stays the same but for its content. -/
theorem Shows.like_follow (h : m.Shows w) {v : Volume} {maker? : Option Run} {standing : Standing}
    {k : NodeId} (hk : m.volume.findEntry m.directory path = .ok k)
    (hk' : v.findEntry m.directory path = .ok k)
    (hlink : (v.node k).isLink = (m.volume.node k).isLink)
    (hstanding : w.places path = some standing) :
    ∃ standing', w.places.follow (v.sight? m.directory) maker? path = some standing' ∧
      standing'.Like standing := by
  have hsight : v.sight? m.directory path = some (v.entryAt m.directory path, (v.node k).isLink) :=
    Volume.sight?_eq_some_iff.mpr ⟨k, hk', rfl⟩
  obtain ⟨k', hfind, hbefore⟩ := Volume.sight?_eq_some_iff.mp (h.sight_of hstanding)
  rw [hk] at hfind
  obtain rfl := Except.ok.inj hfind
  have hsame := congrArg Prod.snd hbefore
  refine ⟨⟨v.entryAt m.directory path, (v.node k).isLink, standing.maker?⟩, ?_, ?_, rfl⟩
  · simp [Places.follow, hsight, hstanding]
  · exact hlink.trans hsame.symm

theorem Shows.exists_find (h : m.Shows w) {standing : Standing}
    (hstanding : w.places path = some standing) :
    ∃ k, m.volume.findEntry m.directory path = .ok k ∧
      standing.isLink = (m.volume.node k).isLink := by
  obtain ⟨k, hk, hsight⟩ := Volume.sight?_eq_some_iff.mp (h.sight_of hstanding)
  exact ⟨k, hk, congrArg Prod.snd hsight⟩

theorem Shows.not_find (h : m.Shows w) (hnone : w.places path = none) (k : NodeId) :
    m.volume.findEntry m.directory path ≠ .ok k := by
  intro hk
  obtain ⟨standing, hstanding, -⟩ :=
    h.exists_standing (Volume.sight?_eq_some_iff.mpr ⟨k, hk, rfl⟩)
  rw [hnone] at hstanding
  cases hstanding

theorem exists_of_follow {places : Places} {v : Volume} {here : NodeId} {maker? : Option Run}
    {standing : Standing} (h : places.follow (v.sight? here) maker? path = some standing) :
    ∃ k, v.findEntry here path = .ok k ∧ standing.isLink = (v.node k).isLink ∧
      standing.maker? = (places path).elim maker? Standing.maker? := by
  obtain ⟨seen, hseen, hstanding⟩ := Option.map_eq_some_iff.mp h
  obtain ⟨k, hk, hsight⟩ := Volume.sight?_eq_some_iff.mp hseen
  subst hstanding
  exact ⟨k, hk, congrArg Prod.snd hsight, rfl⟩

/-- A write at a path, as the scene sees it. What it makes bears the mark of the link that stands at
the path, if one does. -/
theorem written_follow (h : m.Shows w) {v : Volume}
    (hwrite : m.volume.Rewrites v ∨ m.volume.Makes v m.directory path) :
    Setting.Written path w.places (w.places.follow (v.sight? m.directory)
      ((w.places path).bind Standing.maker?)) := by
  have hempty : ∀ above entries, Content.file #[] = .directory above entries → entries = [] := by
    simp
  have hkeeps : m.volume.Keeps v := by
    rcases hwrite with hsame | ⟨goal, name, mode, -, -, hsearch, hnone, -, hput⟩
    · exact hsame.keeps
    · exact (Volume.keeps_put hsearch hnone hempty (by simp)).trans hput.keeps
  constructor
  · intro other standing hstanding
    obtain ⟨k, hk, -⟩ := h.exists_find hstanding
    exact h.like_follow hk (hkeeps.findFor hk) (hkeeps.isLink_eq k) hstanding
  · intro other standing hnone hstanding
    obtain ⟨k, hk, hlink, hmaker⟩ := exists_of_follow hstanding
    have hnew := h.not_find hnone
    rcases hwrite with hsame | ⟨goal, name, mode, hgoal, hlast, hsearch, hchild, hmode, hput⟩
    · exact absurd (hsame.kept.findFor hk) (hnew k)
    · rcases Volume.findEntry_put hsearch hchild hempty rfl hmode (hput.kept.findFor hk) with
        hold | ⟨rfl, hname⟩
      · exact absurd hold (hnew k)
      · have hfile : (v.node m.volume.nodes.size).isLink = false := by
          rw [hput.keeps.isLink_eq, Inode.isLink_congr Volume.outline_put_new]
          rfl
        refine ⟨hlink.trans hfile, ?_⟩
        obtain ⟨hfit, hleads⟩ := Volume.goal_eq_ok_iff.mp hgoal
        rcases hleads.opening_cases with hleads | ⟨goal', j, hleads, hnode, hj⟩
        · obtain ⟨hpiece, hstep⟩ := hleads.getLast? hlast
          exact .inl (hname.trans (Volume.fileName?_of_getLast? hpiece hstep).symm)
        · have hentry : m.volume.findEntry m.directory path = .ok j :=
            Volume.findFor_eq_ok_iff.mpr
              ⟨goal', Volume.goal_eq_ok_iff.mpr ⟨hfit, hleads⟩, hnode⟩
          obtain ⟨link, hplace, hsight⟩ :=
            h.exists_standing (Volume.sight?_eq_some_iff.mpr ⟨j, hentry, rfl⟩)
          refine .inr ⟨link, hplace, (congrArg Prod.snd hsight).trans hj, ?_⟩
          simpa [hnone, hplace] using hmaker

theorem answers_writeFile (h : m.Shows w) (path : Path) (content : Bytes) :
    Answers setting m w (.writeFile path content) := by
  have hmask : (0o666 &&& (0o777 - usualMask)) / 64 % 2 = 0 := by decide
  have hanswer : host.answer (.writeFile path content) m =
      ((m.system.writeFile m.directory usualMask path content).1,
        m.changeSystem fun _ => (m.system.writeFile m.directory usualMask path content).2) := rfl
  have hwrite : m.volume.Rewrites (host.answer (.writeFile path content) m).2.volume ∨
      m.volume.Makes (host.answer (.writeFile path content) m).2.volume m.directory path :=
    System.writeFile_cases hmask
  refine answers_of_serves (w.places.follow
    ((host.answer (.writeFile path content) m).2.volume.sight? m.directory)
    ((w.places path).bind Standing.maker?)) ?_ ?_
  · exact written_follow h hwrite
  · rw [hanswer]
    exact h.reply _ (by simp) (by simp) Places.sight_follow rfl rfl

theorem answers_removeFile (h : m.Shows w) (path : Path) :
    Answers setting m w (.removeFile path) := by
  cases hremove : m.volume.removeFile m.directory path with
  | error e =>
      have hanswer : host.answer (.removeFile path) m = (.error e, m) := by
        simp only [host, answer, hremove]
      apply answers_of_same h (by simp) (by simp)
      · rw [hanswer]
        exact ⟨rfl, rfl, rfl, rfl⟩
      · rw [hanswer]
        refine ⟨fun hreply => (by cases hreply), fun _ => rfl, fun hreply => ?_⟩
        obtain rfl := Except.error.inj hreply
        cases hplace : w.places path with
        | none => rfl
        | some standing =>
            obtain ⟨k, hk, -⟩ := h.exists_find hplace
            exact absurd hk (Volume.removeFile_notFound hremove)
  | ok v =>
      have hanswer : host.answer (.removeFile path) m = (.ok (), m.withVolume v) := by
        simp only [host, answer, hremove]
      obtain ⟨goal, name, -, -, -, hv⟩ := Volume.removeFile_eq_ok hremove
      have hkept : v.Keeps m.volume := by
        rw [hv]
        exact Volume.dropName_keeps _ _ _
      refine answers_of_serves (w.places.follow (v.sight? m.directory) none) ?_ ?_
      · rw [hanswer]
        refine ⟨fun _ => ⟨?_, fun other standing hstanding => ?_⟩, fun hreply => absurd rfl hreply,
          fun hreply => (by cases hreply)⟩
        · simp only [Places.follow,
            Volume.sight?_eq_none fun _ => Volume.removed hremove]
          rfl
        · obtain ⟨k, hk, hlink, hmaker⟩ := exists_of_follow hstanding
          obtain ⟨before, hbefore, hsight⟩ := h.exists_standing
            (Volume.sight?_eq_some_iff.mpr ⟨k, hkept.findFor hk, rfl⟩)
          refine ⟨before, hbefore, ?_, ?_⟩
          · rw [hlink, ← hkept.isLink_eq k]
            exact (congrArg Prod.snd hsight).symm
          · simpa [hbefore] using hmaker
      · rw [hanswer]
        exact h.reply _ (by simp) (by simp) Places.sight_follow rfl rfl

theorem answers_makeDirectories (h : m.Shows w) (hsteady : m.Steady setting) (path : Path) :
    Answers setting m w (.makeDirectories path) := by
  have hgrows := Volume.grows_makeDirectories m.volume m.directory path (0o777 - usualMask)
  generalize hmade : m.volume.makeDirectories m.directory path (0o777 - usualMask) = made at hgrows
  have hanswer : host.answer (.makeDirectories path) m = (made.2, m.withVolume made.1) := by
    rw [← hmade]
    rfl
  have hkeeps := hgrows.toKeeps
  refine answers_of_serves (w.places.follow (made.1.sight? m.directory) none) ?_ ?_
  · rw [hanswer]
    constructor
    · intro other content hholds
      obtain ⟨n, bytes, hfind, hbytes, hcontent⟩ := h.holds_iff.mp hholds
      obtain ⟨standing, hstanding, hfile⟩ := hholds
      obtain ⟨k, hk, hlink⟩ := h.exists_find hstanding
      obtain ⟨standing', hstanding', hlike⟩ : ∃ standing',
          w.places.follow (made.1.sight? m.directory) none other = some standing' ∧
            standing'.Like standing :=
        h.like_follow hk (hkeeps.findFor hk) (hkeeps.isLink_eq k) hstanding
      rw [hstanding', hstanding]
      have hfind' : made.1.find m.directory other = .ok n := hkeeps.findFor hfind
      have hentry : standing'.entry = standing.entry := by
        obtain ⟨seen, hseen, hsame⟩ := Option.map_eq_some_iff.mp hstanding'
        obtain ⟨j, -, hsight⟩ := Volume.sight?_eq_some_iff.mp hseen
        rw [← hsame, hfile, hsight, ← hcontent]
        simp [Volume.entryAt, hfind', Inode.entry, hgrows.file n bytes hbytes]
      obtain ⟨entry, isLink, maker?⟩ := standing
      obtain ⟨entry', isLink', maker?'⟩ := standing'
      obtain ⟨hisLink, hmaker⟩ := hlike
      simp only at hentry hisLink hmaker
      rw [hentry, hisLink, hmaker]
    · intro other standing hentry hstanding hisLink
      obtain ⟨k, hk, hlink, hmaker⟩ := exists_of_follow hstanding
      have hbefore := hgrows.findEntry_link (hsteady.reaches hentry) hentry.endsInSlash hk
        (hlink.symm.trans hisLink)
      obtain ⟨before, hplace, hsight⟩ := h.exists_standing
        (Volume.sight?_eq_some_iff.mpr ⟨k, hbefore, rfl⟩)
      refine ⟨before, hplace, ?_, ?_⟩
      · rw [hlink, hkeeps.isLink_eq k]
        exact (congrArg Prod.snd hsight).symm
      · simpa [hplace] using hmaker
  · rw [hanswer]
    exact h.reply _ (by simp) (by simp) Places.sight_follow rfl rfl

/-- Starting a program changes no file; what it does, it does later. -/
theorem launch_cases (m : Machine) (command : Command) :
    (∃ refusal, m.launch command = (.error refusal, m)) ∨
      ∃ program, program.run = ⟨m.launched⟩ ∧ (m.launch command).1 = .ok ⟨m.launched⟩ ∧
        (m.launch command).2.programs = m.programs ++ [program] ∧
        (m.launch command).2.launched = m.launched + 1 ∧
        (m.launch command).2.directory = m.directory ∧
        ∀ n, (m.launch command).2.volume.node n = m.volume.node n := by
  unfold launch
  split
  · exact .inl ⟨_, rfl⟩
  · dsimp only
    split
    · exact .inl ⟨_, rfl⟩
    · exact .inr ⟨_, rfl, rfl, rfl, rfl, rfl, fun _ => rfl⟩

/-- The number of a new run is that of no run before. -/
theorem Shows.fresh (h : m.Shows w) : (⟨m.launched⟩ : Run) ∉ w.ended ∧
    (⟨m.launched⟩ : Run) ∉ w.runs.map (·.1) := by
  constructor
  · intro hended
    exact Nat.lt_irrefl _ (h.ended _ hended)
  · intro hmem
    obtain ⟨⟨run, command⟩, hpair, heq⟩ := List.mem_map.mp hmem
    obtain rfl : run = ⟨m.launched⟩ := heq
    exact Nat.lt_irrefl _ (h.runs _ command hpair)

theorem Shows.refused (h : m.Shows w) (command : Command) (refusal : Refusal) :
    m.Shows (w.reply w.places (.launch command) (.error refusal)) := by
  have hended : (w.reply w.places (.launch command) (.error refusal)).ended = w.ended :=
    Scene.ended_reply w.places (by simp) _
  constructor
  · exact h.sight
  · rw [Scene.runs_refused]
    exact h.runs
  · rw [Scene.runs_refused, hended]
    exact h.programs
  · rw [hended]
    exact h.ended

theorem Shows.launch (h : m.Shows w) (command : Command) {program : Launched}
    (hrun : program.run = ⟨m.launched⟩) (hprograms : m'.programs = m.programs ++ [program])
    (hlaunched : m'.launched = m.launched + 1) (hdirectory : m'.directory = m.directory)
    (hnode : ∀ n, m'.volume.node n = m.volume.node n) :
    m'.Shows (w.reply w.places (.launch command) (.ok ⟨m.launched⟩)) := by
  have hruns : (w.reply w.places (.launch command) (.ok ⟨m.launched⟩)).runs =
      w.runs ++ [(⟨m.launched⟩, command)] := Scene.runs_launch w.places command ⟨m.launched⟩
  have hended : (w.reply w.places (.launch command) (.ok ⟨m.launched⟩)).ended = w.ended :=
    Scene.ended_reply w.places (by simp) _
  constructor
  · intro path
    rw [hdirectory, Volume.sight?_congr hnode]
    exact h.sight path
  · intro run c hmem
    rw [hruns] at hmem
    rw [hlaunched]
    rcases List.mem_append.mp hmem with hmem | hmem
    · exact Nat.lt_succ_of_lt (h.runs run c hmem)
    · have hpair := List.mem_singleton.mp hmem
      rw [(Prod.mk.inj hpair).1]
      exact Nat.lt_succ_self _
  · intro p hp
    rw [hruns, hended]
    rw [hprograms] at hp
    rcases List.mem_append.mp hp with hp | hp
    · obtain ⟨⟨c, hmem⟩, hnot⟩ := h.programs p hp
      exact ⟨⟨c, List.mem_append_left _ hmem⟩, hnot⟩
    · rw [List.mem_singleton.mp hp, hrun]
      exact ⟨⟨command, by simp⟩, h.fresh.1⟩
  · intro run hmem
    rw [hended] at hmem
    rw [hlaunched]
    exact Nat.lt_succ_of_lt (h.ended run hmem)

theorem answers_launch (h : m.Shows w) (command : Command) :
    Answers setting m w (.launch command) := by
  rcases launch_cases m command with ⟨refusal, hlaunch⟩ | ⟨program, hrun, hok, hprograms, hlaunched,
    hdirectory, hnode⟩
  · have hanswer : host.answer (.launch command) m = (.error refusal, m) := hlaunch
    apply answers_of_serves w.places
    · rw [hanswer]
      exact ⟨rfl, fun _ hreply => (by cases hreply)⟩
    · rw [hanswer]
      exact h.refused command refusal
  · have hreply : (host.answer (.launch command) m).1 = .ok ⟨m.launched⟩ := hok
    apply answers_of_serves w.places
    · refine ⟨rfl, fun run hrun => ?_⟩
      rw [hreply] at hrun
      rw [← Except.ok.inj hrun]
      exact h.fresh
    · rw [hreply]
      exact h.launch command hrun hprograms hlaunched hdirectory hnode

/-- Nothing but the system has changed. -/
structure Goes (m m' : Machine) : Prop where
  directory : m'.directory = m.directory
  launched : m'.launched = m.launched
  programs : m'.programs = m.programs

theorem goes_runUntil (m : Machine) (isDone : System → Bool) (deadline? : Option Nat) :
    m.Goes (m.runUntil isDone deadline?) := ⟨rfl, rfl, rfl⟩

theorem Goes.trans {m'' : Machine} (h : m.Goes m') (h' : m'.Goes m'') : m.Goes m'' where
  directory := h'.directory.trans h.directory
  launched := h'.launched.trans h.launched
  programs := h'.programs.trans h.programs

theorem goes_handle (p : Launched) (handled : List Handling) (m : Machine) :
    m.Goes (handled.foldl (handle p) m) := by
  induction handled generalizing m with
  | nil => exact ⟨rfl, rfl, rfl⟩
  | cons handling rest ih =>
      have hhandle : m.Goes (handle p m handling) := by cases handling <;> exact ⟨rfl, rfl, rfl⟩
      exact hhandle.trans (ih _)

theorem goes_watchProgram (p : Launched) (fuel number : Nat) (m : Machine) :
    m.Goes (watchProgram p fuel number m).2 := by
  induction fuel generalizing number m with
  | zero => exact ⟨rfl, rfl, rfl⟩
  | succ fuel ih =>
      have hhandled : ∀ (handled : List Handling) (time : Nat),
          m.Goes (handled.foldl (handle p) (m.runUntil (fun _ => false) (some time))) :=
        fun handled time => (goes_runUntil m _ _).trans (goes_handle p handled _)
      simp only [watchProgram]
      split
      · apply hhandled
      · exact (hhandled _ _).trans (ih _ _)

/-- What becomes of a program that is waited for: it is not waited for any more, unless nothing is
known of its end. -/
theorem await_cases (m : Machine) (run : Run) :
    m.await run = (.lost (.numbered 10), m) ∨
      (∃ p ∈ m.programs, p.run = run) ∧ (m.await run).2.directory = m.directory ∧
        (m.await run).2.launched = m.launched ∧
        ((m.await run).2.programs = m.programs.filter (fun q => q.run ≠ run) ∨
          (m.await run).2.programs = m.programs ∧ (m.await run).1 = .lost (.numbered 10)) := by
  unfold await
  split
  · exact .inl rfl
  · next p hfind =>
      have hrun : p.run = run := by simpa using List.find?_some hfind
      refine .inr ⟨⟨p, List.mem_of_find?_eq_some hfind, hrun⟩, ?_⟩
      have hwaited : m.Goes (if p.watch.isBlocking then m.waitProgram p
          else m.watchProgram p lookLimit 0).2 := by
        split
        · exact goes_runUntil m _ _
        · exact goes_watchProgram p _ _ m
      split
      rename_i verdict? m' hwait
      rw [hwait] at hwaited
      split
      · next verdict =>
          have hread : m.Goes (if verdict.awaitsReaders then
              m'.runUntil (!·.isGathering p.console) none else m') := by
            split
            · exact hwaited.trans (goes_runUntil m' _ _)
            · exact hwaited
          refine ⟨hread.directory, hread.launched, .inl ?_⟩
          rw [← hread.programs, ← hrun]
          rfl
      · exact ⟨hwaited.directory, hwaited.launched, .inr ⟨hwaited.programs, rfl⟩⟩

theorem mem_ended_await {after : Places} {ending : Ending} {other : Run}
    (h : other ∈ (w.reply after (.await run) ending).ended) : other ∈ w.ended ∨ other = run := by
  by_cases hsuccess : ∃ status output, ending = .exited status output ∧ status.isSuccess = true
  · obtain ⟨status, output, rfl, hstatus⟩ := hsuccess
    rw [Scene.ended_await after output hstatus] at h
    simpa using h
  · have hended : (w.reply after (.await run) ending).ended = w.ended := by
      apply Scene.ended_failed
      intro status output hexited hstatus
      exact hsuccess ⟨status, output, hexited, hstatus⟩
    rw [hended] at h
    exact .inl h

/-- A program whose end is known is not waited for any more; nothing else counts as its end. -/
theorem Shows.await (h : m.Shows w) {after : Places} {ending : Ending}
    (hsight : ∀ path, (after path).map Standing.sight = m'.volume.sight? m'.directory path)
    (hlaunched : m'.launched = m.launched)
    (hprograms : (∃ command, (run, command) ∈ w.runs) ∧
        m'.programs = m.programs.filter (fun q => q.run ≠ run) ∨
      m'.programs = m.programs ∧ ending = .lost (.numbered 10)) :
    m'.Shows (w.reply after (.await run) ending) := by
  have hruns : (w.reply after (.await run) ending).runs = w.runs :=
    Scene.runs_reply after (by simp) _
  have hended : ending = .lost (.numbered 10) →
      (w.reply after (.await run) ending).ended = w.ended := by
    intro hlost
    exact Scene.ended_failed after (by simp [hlost])
  constructor
  · exact hsight
  · rw [hruns, hlaunched]
    exact h.runs
  · intro q hq
    rw [hruns]
    rcases hprograms with ⟨-, hprograms⟩ | ⟨hprograms, hlost⟩
    · rw [hprograms] at hq
      obtain ⟨hq, hne⟩ := List.mem_filter.mp hq
      obtain ⟨hstarted, hunended⟩ := h.programs q hq
      refine ⟨hstarted, fun hmem => ?_⟩
      rcases mem_ended_await hmem with hmem | heq
      · exact hunended hmem
      · simp [heq] at hne
    · rw [hprograms] at hq
      rw [hended hlost]
      exact h.programs q hq
  · intro other hmem
    rw [hlaunched]
    rcases hprograms with ⟨⟨command, hrun⟩, -⟩ | ⟨-, hlost⟩
    · rcases mem_ended_await hmem with hmem | rfl
      · exact h.ended other hmem
      · exact h.runs _ command hrun
    · rw [hended hlost] at hmem
      exact h.ended other hmem

theorem answers_await (h : m.Shows w) (run : Run) :
    Answers (.free directory cwd) m w (.await run) := by
  have hanswer : host.answer (.await run) m = m.await run := rfl
  rcases await_cases m run with hlost | ⟨⟨p, hp, hrun⟩, hdirectory, hlaunched, hprograms⟩
  · apply answers_of_serves w.places
    · exact ⟨rfl, fun _ _ _ _ _ _ => trivial⟩
    · rw [hanswer, hlost]
      exact h.await h.sight rfl (.inr ⟨rfl, rfl⟩)
  · obtain ⟨⟨command, hmem⟩, hnot⟩ := h.programs p hp
    rw [hrun] at hmem hnot
    -- All that happens until the answer is put down to the run that is waited for.
    let after := w.places.credit ((m.await run).2.volume.sight? m.directory) run
    have hworks : (Setting.free directory cwd).Works w ⟨after, w.log⟩ :=
      ⟨run, command, ⟨hmem, hnot⟩, ⟨trivial, fun _ _ => Places.credit_cases⟩, rfl⟩
    refine ⟨_, ⟨⟨after, w.log⟩, after, .single hworks, ⟨rfl, fun _ _ _ _ _ _ => trivial⟩, rfl⟩, ?_⟩
    rw [hanswer]
    refine h.await (fun path => ?_) hlaunched
      (hprograms.imp_left fun hfilter => ⟨⟨command, hmem⟩, hfilter⟩)
    rw [hdirectory]
    exact Places.sight_credit path

def scene (m : Machine) : Scene where
  places path := (m.volume.sight? m.directory path).map fun seen => ⟨seen.1, seen.2, none⟩
  log := []

theorem shows_scene (h : m.programs = []) : m.Shows m.scene where
  sight path := by
    simp only [scene]
    cases m.volume.sight? m.directory path <;> rfl
  runs _ _ hmem := by cases hmem
  programs p hp := by
    rw [h] at hp
    cases hp
  ended _ hmem := by cases hmem

/-- As long as the machine is steady it answers as a setting says that asks nothing of programs. -/
theorem simulates (directory cwd : Path) :
    host.Simulates Shows (Steady (.free directory cwd)) (Setting.free directory cwd).answers := by
  intro r m w h hsteady
  cases r with
  | isDirectory path | entryNames path | turn workers | isCancelled token | report record =>
      exact answers_of_same h (by simp) (by simp) ⟨rfl, rfl, rfl, rfl⟩ rfl
  | isFile path => exact answers_isFile h path
  | currentDirectory => exact answers_currentDirectory h hsteady
  | fileContent path => exact answers_fileContent h path
  | writeFile path content => exact answers_writeFile h path content
  | removeFile path => exact answers_removeFile h path
  | makeDirectories path => exact answers_makeDirectories h hsteady path
  | launch command => exact answers_launch h command
  | await run => exact answers_await h run

end Machine
end Bytelink
