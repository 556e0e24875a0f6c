import Bytelink.Host.System
import Bytelink.Proofs.Lookups

/-!
# What changes do to lookups

The `outline` of a node is what a walk gets to know of it besides the names in a directory. A file
that is written and a name that is taken away change no outline. What is made has the next free
number, under which there has been nothing that could be searched, so a path that has led somewhere
still leads there.
-/
namespace Bytelink

/-- A node without what it holds. -/
def Inode.outline (n : Inode) : Inode :=
  let content := match n.content with
    | .directory above _ => .directory above []
    | .file _ => .file #[]
    | content => content
  { n with content := content, modified := 0 }

namespace Inode

variable {a b : Inode} {right : Right} {target : Text}

theorem grants_congr (h : a.outline = b.outline) : a.grants right = b.grants right := by
  have hmode := congrArg Inode.mode h
  have hown := congrArg Inode.isOwn h
  simp only [outline] at hmode hown
  simp only [grants, hmode, hown]

theorem isDirectory_congr (h : a.outline = b.outline) : a.isDirectory = b.isDirectory := by
  have hcontent := congrArg Inode.isDirectory h
  cases ha : a.content <;> cases hb : b.content <;>
    simp_all [outline, isDirectory]

theorem isLink_congr (h : a.outline = b.outline) : a.isLink = b.isLink := by
  have hcontent := congrArg Inode.isLink h
  cases ha : a.content <;> cases hb : b.content <;>
    simp_all [outline, isLink]

theorem link_congr (h : a.outline = b.outline) (ha : a.content = .link target) :
    b.content = .link target := by
  have hcontent := congrArg Inode.content h
  cases hb : b.content <;> simp_all [outline]

end Inode

namespace Volume

variable {v v' : Volume} {here directory n : NodeId} {name : Text} {path : Path} {aim : Aim}

theorem node_update (v : Volume) (n k : NodeId) (f : Inode → Inode) :
    (v.update n f).node k = if k = n ∧ n < v.nodes.size then f (v.node n) else v.node k := by
  simp only [node, update, Array.getD_eq_getD_getElem?, Array.getElem?_modify]
  by_cases hk : n = k
  · subst hk
    by_cases hn : n < v.nodes.size <;> simp [hn]
  · simp [hk, Ne.symm hk]

theorem node_add (v : Volume) (x : Inode) (k : NodeId) :
    (v.add x).2.node k = if k = v.nodes.size then x else v.node k := by
  simp only [node, add, Array.getD_eq_getD_getElem?, Array.getElem?_push]
  split <;> rfl

theorem node_of_size_le (h : v.nodes.size ≤ n) : v.node n = .missing := by
  simp [node, Array.getD_eq_getD_getElem?, Array.getElem?_eq_none h]

theorem ne_size (h : v.node n ≠ .missing) : n ≠ v.nodes.size := by
  rintro rfl
  exact h (node_of_size_le (Nat.le_refl _))

theorem lt_of_grants {right : Right} (h : (v.node n).grants right = true) : n < v.nodes.size := by
  apply Nat.lt_of_not_le
  intro hn
  rw [node_of_size_le hn] at h
  cases right <;> cases h

theorem above_congr (h : (v.node n).outline = (v'.node n).outline) : v.above n = v'.above n := by
  have hcontent := congrArg Inode.content h
  unfold above
  cases ha : (v.node n).content <;> cases hb : (v'.node n).content <;>
    simp_all [Inode.outline]

/-- Where no outline has changed, names that are still there keep their paths. -/
theorem keeps_of_outline (houtline : ∀ n, (v.node n).outline = (v'.node n).outline)
    (hkeeps : ∀ directory name n, v.child? directory name = some n →
      v'.child? directory name = some n) : v.Keeps v' where
  grants n h := Inode.grants_congr (houtline n) ▸ h
  above n _ := (above_congr (houtline n)).symm
  isDirectory n h := Inode.isDirectory_congr (houtline n) ▸ h
  link n _ h := Inode.link_congr (houtline n) h
  isLink n h := (Inode.isLink_congr (houtline n)).symm ▸ h
  child directory name n h := .inl (hkeeps directory name n h)
  keeps := hkeeps

theorem keeps_of_node (h : ∀ n, v.node n = v'.node n) : v.Keeps v' := by
  apply keeps_of_outline
  · intro n
    rw [h]
  · intro directory name n hn
    rw [← hn]
    simp only [child?, entries, h]

theorem outline_setBytes (v : Volume) (n k : NodeId) (f : Array UInt8 → Array UInt8) :
    ((v.setBytes n f).node k).outline = (v.node k).outline := by
  simp only [setBytes, node_update]
  split
  · next hk =>
      obtain ⟨rfl, -⟩ := hk
      split <;> simp_all [Inode.outline]
  · rfl

theorem entries_setBytes (v : Volume) (n k : NodeId) (f : Array UInt8 → Array UInt8) :
    (v.setBytes n f).entries k = v.entries k := by
  simp only [entries, setBytes, node_update]
  by_cases hk : k = n ∧ n < v.nodes.size
  · rw [if_pos hk, hk.1]
    cases hnode : v.node n with
    | mk content mode isOwn modified => cases content <;> rfl
  · rw [if_neg hk]

theorem keeps_setBytes (v : Volume) (n : NodeId) (f : Array UInt8 → Array UInt8) :
    v.Keeps (v.setBytes n f) := by
  apply keeps_of_outline
  · exact fun k => (outline_setBytes v n k f).symm
  · intro directory name k h
    rwa [child?, entries_setBytes]

theorem setBytes_keeps (v : Volume) (n : NodeId) (f : Array UInt8 → Array UInt8) :
    (v.setBytes n f).Keeps v := by
  apply keeps_of_outline
  · exact fun k => outline_setBytes v n k f
  · intro directory name k h
    rwa [child?, entries_setBytes] at h

theorem outline_rename (v : Volume) (directory k : NodeId)
    (f : List (Text × NodeId) → List (Text × NodeId)) :
    ((v.rename directory f).node k).outline = (v.node k).outline := by
  simp only [rename, node_update]
  split
  · next hk =>
      obtain ⟨rfl, -⟩ := hk
      split <;> simp_all [Inode.outline]
  · rfl

theorem entries_rename (v : Volume) (directory k : NodeId)
    (f : List (Text × NodeId) → List (Text × NodeId)) :
    (v.rename directory f).entries k =
      if k = directory ∧ (v.node directory).isDirectory = true then f (v.entries k)
      else v.entries k := by
  simp only [entries, rename, node_update]
  by_cases hk : k = directory
  · subst hk
    by_cases hlt : k < v.nodes.size
    · cases hcontent : (v.node k).content <;> simp [hlt, hcontent, Inode.isDirectory]
    · simp [hlt, node_of_size_le (Nat.le_of_not_lt hlt), Inode.missing, Inode.isDirectory]
  · simp [hk]

theorem lookup_filter_ne (entries : List (Text × NodeId)) (name other : Text) :
    (entries.filter (·.1 ≠ name)).lookup other =
      if other = name then none else entries.lookup other := by
  induction entries with
  | nil => simp
  | cons e rest ih =>
      obtain ⟨first, n⟩ := e
      by_cases hfirst : first = name
      · rw [List.filter_cons_of_neg (by simpa using hfirst), ih, List.lookup_cons, hfirst]
        by_cases hother : other = name
        · simp [hother]
        · simp [hother, beq_false_of_ne hother]
      · rw [List.filter_cons_of_pos (by simpa using hfirst), List.lookup_cons, ih, List.lookup_cons]
        by_cases hother : other = name
        · simp [hother, beq_false_of_ne (Ne.symm hfirst)]
        · simp [hother]

theorem entries_of_not_directory (h : (v.node n).isDirectory = false) : v.entries n = [] := by
  unfold entries
  cases hcontent : (v.node n).content <;> simp_all [Inode.isDirectory]

theorem child?_dropName (v : Volume) (directory k : NodeId) (name other : Text) :
    (v.dropName directory name).child? k other =
      if k = directory ∧ other = name then none else v.child? k other := by
  rw [child?, dropName, entries_rename, child?]
  by_cases hk : k = directory
  · subst hk
    cases hdirectory : (v.node k).isDirectory with
    | true =>
        rw [if_pos ⟨rfl, rfl⟩, lookup_filter_ne]
        simp
    | false => simp [entries_of_not_directory hdirectory]
  · simp [hk]

theorem dropName_keeps (v : Volume) (directory : NodeId) (name : Text) :
    (v.dropName directory name).Keeps v := by
  apply keeps_of_outline
  · exact fun k => outline_rename v directory k _
  · intro k other n h
    rw [child?_dropName] at h
    split at h
    · cases h
    · exact h

section

variable {content : Content} {mode : Nat}

theorem outline_put (h : n ≠ v.nodes.size) :
    ((v.put directory name content mode).2.node n).outline = (v.node n).outline := by
  simp only [put, addName]
  rw [outline_rename, node_add, if_neg h]

theorem outline_put_new :
    ((v.put directory name content mode).2.node v.nodes.size).outline =
      Inode.outline ⟨content, mode, true, v.time⟩ := by
  simp only [put, addName]
  rw [outline_rename, node_add, if_pos rfl]

theorem node_put (h : n ≠ v.nodes.size) (hfile : (v.node n).isDirectory = false) :
    (v.put directory name content mode).2.node n = v.node n := by
  have hadd : (v.add ⟨content, mode, true, v.time⟩).2.node n = v.node n := by
    rw [node_add, if_neg h]
  simp only [put, addName, rename, node_update]
  split
  · next hn =>
      obtain ⟨rfl, -⟩ := hn
      rw [hadd]
      cases hcontent : (v.node n).content <;> simp_all [Inode.isDirectory]
  · exact hadd

variable (hsearch : (v.node directory).grants .search = true)
variable (hnone : v.child? directory name = none)
variable (hempty : ∀ above entries, content = .directory above entries → entries = [])

include hsearch hnone hempty

theorem child?_put (k : NodeId) (other : Text) :
    (v.put directory name content mode).2.child? k other =
      if k = directory ∧ other = name ∧ (v.node directory).isDirectory = true then
        some v.nodes.size
      else v.child? k other := by
  have hne : directory ≠ v.nodes.size := Nat.ne_of_lt (lt_of_grants hsearch)
  have hadd : (v.add ⟨content, mode, true, v.time⟩).2.node directory = v.node directory := by
    rw [node_add, if_neg hne]
  simp only [child?, put, addName]
  rw [entries_rename, hadd]
  by_cases hk : k = directory
  · subst hk
    have hentries : (v.add ⟨content, mode, true, v.time⟩).2.entries k = v.entries k := by
      simp only [entries, hadd]
    rw [hentries]
    cases hdirectory : (v.node k).isDirectory with
    | true =>
        rw [if_pos ⟨rfl, rfl⟩, List.lookup_append]
        by_cases hother : other = name
        · subst hother
          rw [child?] at hnone
          simp [hnone, add]
        · simp [hother, beq_false_of_ne hother, List.lookup_cons]
    | false => simp
  · rw [if_neg (fun h => hk h.1), if_neg (fun h => hk h.1)]
    by_cases hsize : k = v.nodes.size
    · subst hsize
      have hnew : (v.add ⟨content, mode, true, v.time⟩).2.entries v.nodes.size = [] := by
        simp only [entries, node_add]
        cases content with
        | directory above entries => simp [hempty above entries rfl]
        | _ => rfl
      have hold : v.entries v.nodes.size = [] := by
        simp [entries, node_of_size_le (Nat.le_refl _), Inode.missing]
      rw [hnew, hold]
    · simp only [entries, node_add, if_neg hsize]

/-- What is made takes nothing away. -/
theorem keeps_put (hlink : ∀ target, content ≠ .link target) :
    v.Keeps (v.put directory name content mode).2 := by
  have hkeeps : ∀ k other n, v.child? k other = some n →
      (v.put directory name content mode).2.child? k other = some n := by
    intro k other n h
    rw [child?_put hsearch hnone hempty]
    split
    · next hnew =>
        rw [hnew.1, hnew.2.1, hnone] at h
        cases h
    · exact h
  constructor
  · constructor
    · intro n h
      have hn : n ≠ v.nodes.size := Nat.ne_of_lt (lt_of_grants h)
      rw [Inode.grants_congr (outline_put hn)]
      exact h
    · intro n h
      exact above_congr (outline_put (Nat.ne_of_lt (lt_of_grants h)))
    · intro n h
      have hn : n ≠ v.nodes.size := by
        apply ne_size
        intro hmissing
        rw [hmissing] at h
        cases h
      rw [Inode.isDirectory_congr (outline_put hn)]
      exact h
    · intro n target h
      have hn : n ≠ v.nodes.size := by
        apply ne_size
        intro hmissing
        rw [hmissing] at h
        cases h
      exact Inode.link_congr (outline_put hn).symm h
    · intro n h
      by_cases hn : n = v.nodes.size
      · subst hn
        rw [Inode.isLink_congr outline_put_new] at h
        cases content <;> simp_all [Inode.isLink]
      · rw [← Inode.isLink_congr (outline_put hn)]
        exact h
    · intro k other n h
      exact .inl (hkeeps k other n h)
  · exact hkeeps

theorem put_traces {bytes : Array UInt8} (hcontent : content = .file bytes)
    (hmode : mode / 64 % 2 = 0) : (v.put directory name content mode).2.Traces v := by
  subst hcontent
  have hnew : ∀ right,
      ((v.put directory name (.file bytes) mode).2.node v.nodes.size).grants right =
        Inode.grants ⟨.file bytes, mode, true, v.time⟩ right :=
    fun right => Inode.grants_congr outline_put_new
  have hne : ∀ n, ((v.put directory name (.file bytes) mode).2.node n).grants .search = true →
      n ≠ v.nodes.size := by
    intro n h hn
    subst hn
    rw [hnew] at h
    simp [Inode.grants, hmode] at h
  constructor
  · intro n h
    rw [← Inode.grants_congr (outline_put (hne n h))]
    exact h
  · intro n h
    exact (above_congr (outline_put (hne n h))).symm
  · intro n h
    by_cases hn : n = v.nodes.size
    · subst hn
      rw [Inode.isDirectory_congr outline_put_new] at h
      cases h
    · rw [← Inode.isDirectory_congr (outline_put hn)]
      exact h
  · intro n target h
    by_cases hn : n = v.nodes.size
    · subst hn
      have hlink := Inode.link_congr outline_put_new h
      cases hlink
    · exact Inode.link_congr (outline_put hn) h
  · intro n h
    have hn : n ≠ v.nodes.size := by
      apply ne_size
      intro hmissing
      rw [hmissing] at h
      cases h
    rw [Inode.isLink_congr (outline_put hn)]
    exact h
  · intro k other n h
    rw [child?_put hsearch hnone hempty] at h
    split at h
    · next hk =>
        obtain ⟨rfl, rfl, -⟩ := hk
        obtain rfl := Option.some.inj h
        refine .inr ⟨hnone, ?_, ?_⟩
        · rw [Inode.isDirectory_congr outline_put_new]
          rfl
        · rw [Inode.isLink_congr outline_put_new]
          rfl
    · exact .inl h

/-- After a file has been made, what is found is the file itself under its own name, or it has been
there before. -/
theorem findEntry_put {bytes : Array UInt8} (hcontent : content = .file bytes)
    (hmode : mode / 64 % 2 = 0)
    (h : (v.put directory name content mode).2.findEntry here path = .ok n) :
    v.findEntry here path = .ok n ∨ n = v.nodes.size ∧ path.fileName? = some name := by
  have htraces := put_traces hsearch hnone hempty hcontent hmode
  obtain ⟨goal, hgoal, hnode⟩ := findFor_eq_ok_iff.mp h
  obtain ⟨hfit, hleads⟩ := goal_eq_ok_iff.mp hgoal
  by_cases hlast : ∃ other, goal.last = .name other
  · obtain ⟨other, hlast⟩ := hlast
    obtain ⟨hchild, hslash⟩ := (nodeAt_name hlast).mp hnode
    have hleads' := htraces.leads hleads (by simp [hlast, hchild])
    rw [child?_put hsearch hnone hempty] at hchild
    split at hchild
    · next hnew =>
        obtain ⟨-, rfl, -⟩ := hnew
        obtain rfl := Option.some.inj hchild
        -- The new file is no directory, so the path does not end in a slash.
        have hfile : ¬ goal.hasSlash = true := by
          intro hends
          have hdirectory := hslash hends
          rw [Inode.isDirectory_congr outline_put_new, hcontent] at hdirectory
          cases hdirectory
        have hends : path.endsInSlash = false := by
          rw [← Bool.not_eq_true]
          exact fun hends => hfile (hleads'.hasSlash_of hends)
        rw [hends] at hleads'
        have hname := (hleads'.stopping rfl rfl).getLast? hlast
        exact .inr ⟨rfl, fileName?_of_getLast? hname.1 hname.2⟩
    · refine .inl (findFor_eq_ok_iff.mpr ⟨goal, goal_eq_ok_iff.mpr ⟨hfit, hleads'⟩, ?_⟩)
      exact (nodeAt_name hlast).mpr ⟨hchild, fun hends => htraces.isDirectory _ (hslash hends)⟩
  · have hlast := not_exists.mp hlast
    have hleads' := htraces.leads hleads fun other hother => absurd hother (hlast other)
    rw [nodeAt_of_ne_name hlast] at hnode
    refine .inl (findFor_eq_ok_iff.mpr ⟨goal, goal_eq_ok_iff.mpr ⟨hfit, hleads'⟩, ?_⟩)
    rw [nodeAt_of_ne_name hlast]
    exact hnode

end

/-- Directories have been made, and nothing else has changed. -/
structure Grows (v v' : Volume) : Prop extends Keeps v v' where
  file : ∀ n bytes, (v.node n).content = .file bytes → (v'.node n).content = .file bytes
  fresh : ∀ directory name n, v'.child? directory name = some n →
    v.child? directory name = some n ∨ (v'.node n).isDirectory = true

namespace Grows

theorem refl (v : Volume) : v.Grows v where
  toKeeps := .refl v
  file _ _ h := h
  fresh _ _ _ h := .inl h

theorem trans {v'' : Volume} (h : v.Grows v') (h' : v'.Grows v'') : v.Grows v'' where
  toKeeps := h.toKeeps.trans h'.toKeeps
  file n bytes hn := h'.file n bytes (h.file n bytes hn)
  fresh directory name n hn := by
    rcases h'.fresh directory name n hn with hn | hn
    · exact (h.fresh directory name n hn).imp_right (h'.isDirectory n)
    · exact .inr hn

/-- A directory on the way to the last of these pieces is missing, or may not be searched. -/
def Misses (v : Volume) (links : Nat) (here : NodeId) (hasSlash : Bool) (steps : List Text) :
    Prop :=
  ∃ e, v.walk .name links here hasSlash steps = .error e ∧ IsMissing e

variable {links : Nat} {hasSlash : Bool} {steps : List Text} {goal : Goal}

theorem or_misses_of_grants {P : Prop}
    (h : (v.node here).grants .search = true → P ∨ Misses v links here hasSlash (name :: steps)) :
    P ∨ Misses v links here hasSlash (name :: steps) := by
  by_cases hgrants : (v.node here).grants .search = true
  · exact h hgrants
  · exact .inr ⟨.permissionDenied, walk_barred hgrants, .inr (.inr rfl)⟩

/-- What a directory holds after directories have been made, it has held before, or the walk has
come to its end there. -/
theorem child_or_misses (h : v.Grows v') (hgrants : (v.node here).grants .search = true)
    (hstep : IsStep name) (hrest : steps ≠ []) (hchild : v'.child? here name = some n) :
    v.child? here name = some n ∨ Misses v links here hasSlash (name :: steps) := by
  cases hbefore : v.child? here name with
  | none => exact .inr ⟨.notFound, walk_missing hgrants hstep hrest hbefore, .inl rfl⟩
  | some m => exact .inl ((h.keeps _ _ _ hbefore).symm.trans hchild)

/-- A walk that was not possible before goes through a directory that was missing. -/
theorem leads_name (h : v.Grows v') (hleads : v'.Leads .name links here hasSlash steps goal) :
    v.Leads .name links here hasSlash steps goal ∨ Misses v links here hasSlash steps := by
  induction hleads with
  | root => exact .inl .root
  | here => exact or_misses_of_grants fun hgrants => .inl (.here hgrants)
  | above =>
      refine or_misses_of_grants fun hgrants => .inl ?_
      rw [h.above _ hgrants]
      exact .above hgrants
  | name _ hstep =>
      exact or_misses_of_grants fun hgrants => .inl (.name hgrants hstep (by simp [Aim.follows]))
  | stay _ hrest _ ih =>
      refine or_misses_of_grants fun hgrants => ?_
      rw [Misses, walk_stay hgrants hrest]
      exact ih.imp_left (.stay hgrants hrest)
  | rise _ hrest _ ih =>
      refine or_misses_of_grants fun hgrants => ?_
      rw [h.above _ hgrants] at ih
      rw [Misses, walk_rise hgrants hrest]
      exact ih.imp_left (.rise hgrants hrest)
  | @enter links here next hasSlash piece rest goal _ hstep hrest hchild' hdirectory' _ ih =>
      refine or_misses_of_grants fun hgrants => ?_
      rcases h.child_or_misses hgrants hstep hrest hchild' with hchild | hmisses
      · by_cases hdirectory : (v.node next).isDirectory = true
        · rw [Misses, walk_enter hgrants hstep hrest hchild hdirectory]
          exact ih.imp_left (.enter hgrants hstep hrest hchild hdirectory)
        · have hlink : ¬ (v.node next).isLink = true := by
            intro hlink
            cases hcontent : (v.node next).content with
            | link target => simp [Inode.isDirectory, h.link next target hcontent] at hdirectory'
            | _ => simp [Inode.isLink, hcontent] at hlink
          exact .inr ⟨.notADirectory, walk_blocked hgrants hstep hrest hchild hdirectory hlink,
            .inr (.inl rfl)⟩
      · exact .inr hmisses
  | @follow links here next hasSlash piece rest target goal _ hstep hrest hchild' hcontent' _ ih =>
      refine or_misses_of_grants fun hgrants => ?_
      have hne : rest ≠ [] := mt hrest (by simp [Aim.follows])
      rcases h.child_or_misses hgrants hstep hne hchild' with hchild | hmisses
      · have hlink := h.isLink next (by simp [Inode.isLink, hcontent'])
        cases hcontent : (v.node next).content with
        | link before =>
            have hsame := h.link next before hcontent
            rw [hcontent'] at hsame
            obtain rfl := Content.link.inj hsame
            rw [Misses, walk_follow hgrants hstep hrest hchild hcontent]
            exact ih.imp_left (.follow hgrants hstep hrest hchild hcontent)
        | _ => simp [Inode.isLink, hcontent] at hlink
      · exact .inr hmisses

/-- A link that is found after directories have been made has been there before, unless a directory
on the way has been missing. -/
theorem findEntry_link (h : v.Grows v') (hreaches : v.Reaches here path)
    (hends : path.endsInSlash = false) (hfound : v'.findEntry here path = .ok n)
    (hlink : (v'.node n).isLink = true) : v.findEntry here path = .ok n := by
  obtain ⟨goal, hgoal, hnode⟩ := findFor_eq_ok_iff.mp hfound
  obtain ⟨hfit, hleads'⟩ := goal_eq_ok_iff.mp hgoal
  rw [hends] at hleads'
  have hleads : v.Leads .entry linkLimit (startOf here path) path.endsInSlash (pieces path.text)
      goal := by
    rw [hends]
    rcases h.leads_name (hleads'.stopping rfl rfl) with hleads | ⟨e, hwalk, he⟩
    · exact hleads.stopping rfl rfl
    · refine absurd he (hreaches e ?_)
      rw [goal_eq hfit, hends]
      exact hwalk
  refine findFor_eq_ok_iff.mpr ⟨goal, goal_eq_ok_iff.mpr ⟨hfit, hleads⟩, ?_⟩
  have hfile : (v'.node n).isDirectory = false := by
    unfold Inode.isLink at hlink
    unfold Inode.isDirectory
    split at hlink
    · next hcontent => simp [hcontent]
    · cases hlink
  by_cases hlast : ∃ name, goal.last = .name name
  · obtain ⟨name, hlast⟩ := hlast
    obtain ⟨hchild, hslash⟩ := (nodeAt_name hlast).mp hnode
    rcases h.fresh _ _ _ hchild with hchild | hdirectory
    · refine (nodeAt_name hlast).mpr ⟨hchild, fun hslash' => ?_⟩
      rw [hslash hslash'] at hfile
      cases hfile
    · rw [hdirectory] at hfile
      cases hfile
  · have hlast := not_exists.mp hlast
    rw [nodeAt_of_ne_name hlast] at hnode ⊢
    exact hnode

end Grows

theorem grows_putDirectory {mode : Nat} (hsearch : (v.node directory).grants .search = true)
    (hnone : v.child? directory name = none) :
    v.Grows (v.putDirectory directory name mode).2 := by
  have hempty : ∀ above entries, Content.directory directory [] = .directory above entries →
      entries = [] := by
    intro above entries h
    exact (Content.directory.inj h).2.symm
  constructor
  · exact keeps_put hsearch hnone hempty (by simp)
  · intro n bytes h
    have hn : n ≠ v.nodes.size := by
      apply ne_size
      intro hmissing
      rw [hmissing] at h
      cases h
    unfold putDirectory
    rw [node_put hn (by simp [Inode.isDirectory, h])]
    exact h
  · intro k other n h
    unfold putDirectory at h ⊢
    rw [child?_put hsearch hnone hempty] at h
    split at h
    · obtain rfl := Option.some.inj h
      right
      rw [Inode.isDirectory_congr outline_put_new]
      rfl
    · exact .inl h

theorem grants_of_mayWrite (h : v.mayWrite directory = .ok ()) :
    (v.node directory).grants .search = true := by
  unfold mayWrite at h
  cases hsearch : (v.node directory).grants .search with
  | true => rfl
  | false => simp [hsearch] at h

theorem grants_of_mayChange (h : v.mayChange directory = .ok ()) :
    (v.node directory).grants .search = true := by
  unfold mayChange at h
  split at h
  · cases h
  · exact grants_of_mayWrite h

theorem grows_makeDirectory {mode : Nat} (h : v.makeDirectory here path mode = .ok v') :
    v.Grows v' := by
  simp only [makeDirectory, newPlace, bind, Except.bind, pure, Except.pure] at h
  split at h
  · cases h
  · next place hplace =>
      obtain rfl := Except.ok.inj h
      split at hplace
      · cases hplace
      · next goal hgoal =>
          split at hplace
          · next name hlast =>
              split at hplace
              · cases hplace
              · split at hplace
                · cases hplace
                · next hnone =>
                    split at hplace
                    · cases hplace
                    · split at hplace
                      · cases hplace
                      · next hchange =>
                          obtain rfl := Except.ok.inj hplace
                          apply grows_putDirectory (grants_of_mayChange hchange)
                          simpa using hnone
          · cases hplace

theorem grows_makeDirectoriesUp (here : NodeId) (mode depth : Nat) (path : Path) (v : Volume) :
    v.Grows (v.makeDirectoriesUp here mode depth path).1 := by
  induction depth generalizing path v with
  | zero => exact .refl v
  | succ depth ih =>
      simp only [makeDirectoriesUp]
      split
      · exact .refl v
      · split
        · next hmade => exact grows_makeDirectory hmade
        · split
          · split
            · exact .refl v
            · next parent hparent =>
                have hup := ih parent v
                split
                · next hmade => rwa [hmade] at hup
                · next v₁ hmade =>
                    rw [hmade] at hup
                    split
                    · next hlast => exact hup.trans (grows_makeDirectory hlast)
                    · exact hup
          · exact .refl v

theorem grows_makeDirectories (v : Volume) (here : NodeId) (path : Path) (mode : Nat) :
    v.Grows (v.makeDirectories here path mode).1 :=
  grows_makeDirectoriesUp here mode _ path v

/-- A file is removed by taking away its name. -/
theorem removeFile_eq_ok (h : v.removeFile here path = .ok v') :
    ∃ goal name, v.goal .name here path = .ok goal ∧ goal.last = .name name ∧
      goal.hasSlash = false ∧ v' = v.dropName goal.directory name := by
  simp only [removeFile, bind, Except.bind, pure, Except.pure] at h
  split at h
  · cases h
  · next goal hgoal =>
      split at h
      · next name hlast =>
          split at h
          · cases h
          · split at h
            · cases h
            · next hslash =>
                split at h
                · cases h
                · split at h
                  · cases h
                  · exact ⟨goal, name, hgoal, hlast, by simpa using hslash, (Except.ok.inj h).symm⟩
      · cases h

theorem removed (h : v.removeFile here path = .ok v') : v'.findEntry here path ≠ .ok n := by
  intro hfound
  obtain ⟨goal, name, hgoal, hlast, hslash, rfl⟩ := removeFile_eq_ok h
  obtain ⟨-, hleads⟩ := goal_eq_ok_iff.mp hgoal
  have hends : path.endsInSlash = false := by
    rw [← Bool.not_eq_true]
    intro hends
    rw [hleads.hasSlash_of hends] at hslash
    cases hslash
  have hbefore := (dropName_keeps v goal.directory name).findFor hfound
  obtain ⟨goal', hgoal', hnode'⟩ := findFor_eq_ok_iff.mp hfound
  obtain ⟨hfit, hleads'⟩ := goal_eq_ok_iff.mp hgoal'
  rw [hends] at hleads hleads'
  -- Both walks end at the name that has been taken away.
  have hname : (v.dropName goal.directory name).Leads .name linkLimit (startOf here path) false
      (pieces path.text) goal' := hleads'.stopping rfl rfl
  have hleads'' := (dropName_keeps v goal.directory name).leads hname fun _ _ => .inl rfl
  have hsame : goal' = goal := by
    have hwalk := walk_of_leads hleads''
    rw [walk_of_leads hleads] at hwalk
    exact (Except.ok.inj hwalk).symm
  subst hsame
  have hchild := ((nodeAt_name hlast).mp hnode').1
  rw [child?_dropName, if_pos ⟨rfl, rfl⟩] at hchild
  cases hchild

theorem mayDrop_ne_notFound (v : Volume) (directory n : NodeId) :
    v.mayDrop directory n ≠ .error .notFound := by
  unfold mayDrop mayWrite
  intro h
  simp only [bind, Except.bind, pure, Except.pure] at h
  split at h
  · next e he =>
      obtain rfl := Except.error.inj h
      split at he <;> cases he
  · split at h <;> cases h

theorem removeFile_notFound (h : v.removeFile here path = .error .notFound) :
    v.findEntry here path ≠ .ok n := by
  intro hfound
  obtain ⟨goal, hgoal, hnode⟩ := findFor_eq_ok_iff.mp hfound
  obtain ⟨hfit, hleads⟩ := goal_eq_ok_iff.mp hgoal
  obtain ⟨goal', hleads', hsome⟩ := hleads.exists_name fun name hlast => by
    simp [((nodeAt_name hlast).mp hnode).1]
  have hgoal' : v.goal .name here path = .ok goal' := goal_eq_ok_iff.mpr ⟨hfit, hleads'⟩
  simp only [removeFile, hgoal', bind, Except.bind, pure, Except.pure] at h
  split at h
  · next name hlast =>
      obtain ⟨k, hk⟩ := Option.isSome_iff_exists.mp (hsome name hlast)
      simp only [hk] at h
      split at h
      · split at h <;> cases h
      · split at h
        · next e he =>
            obtain rfl := Except.error.inj h
            exact mayDrop_ne_notFound _ _ _ he
        · split at h <;> cases h
  · cases h

/-- Files have been written, and nothing else has changed. -/
structure Rewrites (v v' : Volume) : Prop where
  keeps : v.Keeps v'
  kept : v'.Keeps v

theorem Rewrites.refl (v : Volume) : v.Rewrites v := ⟨.refl v, .refl v⟩

theorem Rewrites.trans {v'' : Volume} (h : v.Rewrites v') (h' : v'.Rewrites v'') : v.Rewrites v'' :=
  ⟨h.keeps.trans h'.keeps, h'.kept.trans h.kept⟩

theorem rewrites_setBytes (v : Volume) (n : NodeId) (f : Array UInt8 → Array UInt8) :
    v.Rewrites (v.setBytes n f) :=
  ⟨keeps_setBytes v n f, setBytes_keeps v n f⟩

/-- A file has been made under a path, or, where the path leads through a link, elsewhere. -/
def Makes (v v' : Volume) (here : NodeId) (path : Path) : Prop :=
  ∃ goal name mode, v.goal .opening here path = .ok goal ∧ goal.last = .name name ∧
    (v.node goal.directory).grants .search = true ∧ v.child? goal.directory name = none ∧
    mode / 64 % 2 = 0 ∧ (v.put goal.directory name (.file #[]) mode).2.Rewrites v'

end Volume

namespace System

variable {s after : System} {n here : NodeId} {access : Access} {opened : Opened} {path : Path}

theorem volume_release (s : System) (openings : List Nat) :
    (s.release openings).volume = s.volume := by
  simp only [release]
  split <;> rfl

theorem rewrites_openNode (h : s.openNode n access = .ok (opened, after)) :
    s.volume.Rewrites after.volume := by
  simp only [openNode] at h
  split at h
  · split at h
    · cases h
    · split at h
      · cases h
      · obtain ⟨-, rfl⟩ := Prod.mk.inj (Except.ok.inj h)
        exact .refl _
  · split at h
    · cases h
    · split at h
      · have hafter : (s.openQueue n access).2 = after := congrArg Prod.snd (Except.ok.inj h)
        rw [← hafter]
        simp only [openQueue, queueAt]
        split <;> exact .refl _
      · obtain ⟨-, rfl⟩ := Prod.mk.inj (Except.ok.inj h)
        exact .refl _
      · cases h
      · obtain ⟨-, rfl⟩ := Prod.mk.inj (Except.ok.inj h)
        simp only [addOpening]
        split
        · exact Volume.rewrites_setBytes _ _ _
        · exact .refl _

theorem rewrites_openAgain {o : Opening} (h : s.openAgain o access = .ok (opened, after)) :
    s.volume.Rewrites after.volume := by
  simp only [openAgain] at h
  split at h
  · exact rewrites_openNode h
  · exact rewrites_openNode h
  all_goals
    obtain ⟨-, rfl⟩ := Prod.mk.inj (Except.ok.inj h)
    exact .refl _

theorem openFile_cases {pid mask : Nat} (hmask : (0o666 &&& (0o777 - mask)) / 64 % 2 = 0)
    (h : s.openFile pid here mask path .writing = .ok (opened, after)) :
    s.volume.Rewrites after.volume ∨ s.volume.Makes after.volume here path := by
  simp only [openFile] at h
  split at h
  · split at h
    · exact .inl (rewrites_openAgain h)
    · cases h
  · have hcreates : Access.writing.creates = true := rfl
    simp only [hcreates, reduceCtorEq, reduceIte, bind, Except.bind, pure, Except.pure] at h
    split at h
    · cases h
    · next goal hgoal =>
        split at h
        · next name hlast =>
            split at h
            · cases h
            · split at h
              · exact .inl (rewrites_openNode h)
              · next hnone =>
                  split at h
                  · cases h
                  · next hchange =>
                      obtain ⟨-, rfl⟩ := Prod.mk.inj (Except.ok.inj h)
                      exact .inr ⟨goal, name, _, hgoal, hlast, Volume.grants_of_mayChange hchange,
                        hnone, hmask, .refl _⟩
        · cases h

theorem writeFile_cases {mask : Nat} {bytes : Bytes}
    (hmask : (0o666 &&& (0o777 - mask)) / 64 % 2 = 0) :
    s.volume.Rewrites (s.writeFile here mask path bytes).2.volume ∨
      s.volume.Makes (s.writeFile here mask path bytes).2.volume here path := by
  simp only [writeFile]
  split
  · exact .inl (.refl _)
  · next opened after hopen =>
      have hwrite : ∀ v : Volume, after.volume.Rewrites v →
          s.volume.Rewrites v ∨ s.volume.Makes v here path := by
        intro v hv
        rcases openFile_cases hmask hopen with hsame | hmade
        · exact .inl (hsame.trans hv)
        · obtain ⟨goal, name, mode, hgoal, hlast, hsearch, hnone, hmode, hput⟩ := hmade
          exact .inr ⟨goal, name, mode, hgoal, hlast, hsearch, hnone, hmode, hput.trans hv⟩
      apply hwrite
      split
      · simp only [volume_release]
        exact Volume.rewrites_setBytes _ _ _
      · rw [volume_release]
        exact .refl _
      · rw [volume_release]
        exact .refl _

end System
end Bytelink
