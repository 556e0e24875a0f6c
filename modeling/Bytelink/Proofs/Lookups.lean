import Bytelink.Host.Lookup
import Bytelink.Proofs.FileNames

/-!
# Walks through a volume

`Volume.Leads` gives the walks that come to an end, one constructor for each way in which a piece of
a path is passed, and `Volume.walk_eq_ok_iff` ties it to the walk that is computed. What depends on
the purpose of a lookup is only whether a link at the end is followed, so walks for different
purposes are compared by induction on it.

A volume `Traces` another if every path that leads to something there leads to the same name here,
and `Keeps` it if what has that name is the same as well (`Traces.leads`, `Keeps.findFor`). Changes
to a volume need only be looked at node by node then.
-/
namespace Bytelink

/-- Whether a link at the end of a path is followed. -/
def Aim.follows : Aim → Bool → Bool
  | .target, _ => true
  | .entry, hasSlash => hasSlash
  | .name, _ => false
  | .opening, hasSlash => !hasSlash

namespace Volume

/-- A piece of a path that is the name of something. -/
structure IsStep (piece : Text) : Prop where
  ne_here : piece ≠ ['.']
  ne_above : piece ≠ ['.', '.']
  length_le : (Utf8.encode piece).length ≤ nameLimit

section

variable (v : Volume) (aim : Aim)

/-- A walk along the pieces of a path that comes to its end. -/
inductive Leads : Nat → NodeId → Bool → List Text → Goal → Prop
  | root {links here hasSlash} : Leads links here hasSlash [] ⟨here, .root, hasSlash⟩
  | here {links here hasSlash} : (v.node here).grants .search = true →
      Leads links here hasSlash [['.']] ⟨here, .here, hasSlash⟩
  | above {links here hasSlash} : (v.node here).grants .search = true →
      Leads links here hasSlash [['.', '.']] ⟨v.above here, .above, hasSlash⟩
  | name {links here hasSlash piece} : (v.node here).grants .search = true → IsStep piece →
      (aim.follows hasSlash = true → ∀ n, v.child? here piece = some n →
        (v.node n).isLink = false) →
      Leads links here hasSlash [piece] ⟨here, .name piece, hasSlash⟩
  | stay {links here hasSlash rest goal} : (v.node here).grants .search = true → rest ≠ [] →
      Leads links here hasSlash rest goal →
      Leads links here hasSlash (['.'] :: rest) goal
  | rise {links here hasSlash rest goal} : (v.node here).grants .search = true → rest ≠ [] →
      Leads links (v.above here) hasSlash rest goal →
      Leads links here hasSlash (['.', '.'] :: rest) goal
  | enter {links here next hasSlash piece rest goal} : (v.node here).grants .search = true →
      IsStep piece → rest ≠ [] → v.child? here piece = some next →
      (v.node next).isDirectory = true → Leads links next hasSlash rest goal →
      Leads links here hasSlash (piece :: rest) goal
  | follow {links here next hasSlash piece rest target goal} :
      (v.node here).grants .search = true → IsStep piece →
      (rest = [] → aim.follows hasSlash = true) → v.child? here piece = some next →
      (v.node next).content = .link target →
      Leads links (if target.head? = some '/' then Volume.root else here)
        (hasSlash || rest.isEmpty && decide (target.getLast? = some '/'))
        (pieces target ++ rest) goal →
      Leads (links + 1) here hasSlash (piece :: rest) goal

end

variable {v v' : Volume} {aim : Aim} {links : Nat} {here n : NodeId} {hasSlash : Bool}
variable {name : Text} {steps : List Text} {goal : Goal} {path : Path}

theorem walk_barred (hgrants : ¬ (v.node here).grants .search = true) :
    v.walk aim links here hasSlash (name :: steps) = .error .permissionDenied := by
  simp [walk, hgrants]

section

variable (hgrants : (v.node here).grants .search = true)
include hgrants

theorem walk_stay (hrest : steps ≠ []) :
    v.walk aim links here hasSlash (['.'] :: steps) = v.walk aim links here hasSlash steps := by
  simp [walk, hgrants, hrest]

theorem walk_rise (hrest : steps ≠ []) : v.walk aim links here hasSlash (['.', '.'] :: steps) =
    v.walk aim links (v.above here) hasSlash steps := by
  simp [walk, hgrants, hrest]

variable (hstep : IsStep name)
include hstep

theorem walk_missing (hrest : steps ≠ []) (hchild : v.child? here name = none) :
    v.walk aim links here hasSlash (name :: steps) = .error .notFound := by
  have hlength := Nat.not_lt.mpr hstep.length_le
  simp [walk, hgrants, hstep.ne_here, hstep.ne_above, hlength, hrest, hchild]

theorem walk_enter (hrest : steps ≠ []) (hchild : v.child? here name = some n)
    (hdirectory : (v.node n).isDirectory = true) :
    v.walk aim links here hasSlash (name :: steps) = v.walk aim links n hasSlash steps := by
  have hlength := Nat.not_lt.mpr hstep.length_le
  cases hcontent : (v.node n).content with
  | directory =>
      simp [walk, hgrants, hstep.ne_here, hstep.ne_above, hlength, hrest, hchild, hcontent]
  | _ => simp [Inode.isDirectory, hcontent] at hdirectory

theorem walk_blocked (hrest : steps ≠ []) (hchild : v.child? here name = some n)
    (hdirectory : ¬ (v.node n).isDirectory = true) (hlink : ¬ (v.node n).isLink = true) :
    v.walk aim links here hasSlash (name :: steps) = .error .notADirectory := by
  have hlength := Nat.not_lt.mpr hstep.length_le
  cases hcontent : (v.node n).content with
  | directory => simp [Inode.isDirectory, hcontent] at hdirectory
  | link target => simp [Inode.isLink, hcontent] at hlink
  | _ => simp [walk, hgrants, hstep.ne_here, hstep.ne_above, hlength, hrest, hchild, hcontent]

theorem walk_follow {target : Text} (hrest : steps = [] → aim.follows hasSlash = true)
    (hchild : v.child? here name = some n) (hcontent : (v.node n).content = .link target) :
    v.walk aim (links + 1) here hasSlash (name :: steps) =
      v.walk aim links (if target.head? = some '/' then Volume.root else here)
        (hasSlash || steps.isEmpty && decide (target.getLast? = some '/'))
        (pieces target ++ steps) := by
  have hlength := Nat.not_lt.mpr hstep.length_le
  cases steps with
  | nil =>
      have hfollows := hrest rfl
      cases aim <;> simp [Aim.follows] at hfollows <;>
        simp [walk, hgrants, hstep.ne_here, hstep.ne_above, hlength, hchild, hcontent, hfollows]
  | cons next rest =>
      simp [walk, hgrants, hstep.ne_here, hstep.ne_above, hlength, hchild, hcontent]

end

theorem grants_of_not {n : Inode} (h : ¬ (!n.grants .search) = true) : n.grants .search = true := by
  simpa using h

theorem leads_of_walk (h : v.walk aim links here hasSlash steps = .ok goal) :
    v.Leads aim links here hasSlash steps goal := by
  fun_induction v.walk aim links here hasSlash steps with
  | case1 =>
      obtain rfl := Except.ok.inj h
      exact .root
  | case3 links here hasSlash rest hgrants hrest =>
      obtain rfl := Except.ok.inj h
      obtain rfl := List.isEmpty_iff.mp hrest
      exact .here (grants_of_not hgrants)
  | case4 links here hasSlash rest hgrants hrest ih =>
      exact .stay (grants_of_not hgrants) (mt List.isEmpty_iff.mpr hrest) (ih h)
  | case5 links here hasSlash rest hgrants hrest =>
      obtain rfl := Except.ok.inj h
      obtain rfl := List.isEmpty_iff.mp hrest
      exact .above (grants_of_not hgrants)
  | case6 links here hasSlash rest hgrants hrest hne ih =>
      exact .rise (grants_of_not hgrants) (mt List.isEmpty_iff.mpr hrest) (ih h)
  | case8 links here hasSlash piece rest hgrants hhere habove hlength hlast =>
      obtain rfl := Except.ok.inj h
      have hstops : rest = [] ∧ (aim = .name ∨ aim = .opening ∧ hasSlash = true) := by
        simpa using hlast
      obtain rfl := hstops.1
      apply Leads.name (grants_of_not hgrants) ⟨hhere, habove, Nat.le_of_not_lt hlength⟩
      rcases hstops.2 with rfl | ⟨rfl, rfl⟩ <;> simp [Aim.follows]
  | case9 links here hasSlash piece rest hgrants hhere habove hlength hlast hchild hrest =>
      obtain rfl := Except.ok.inj h
      obtain rfl := List.isEmpty_iff.mp hrest
      apply Leads.name (grants_of_not hgrants) ⟨hhere, habove, Nat.le_of_not_lt hlength⟩
      simp [hchild]
  | case11 links here hasSlash piece rest hgrants hhere habove hlength hlast next hchild up entries
      hcontent hrest =>
      obtain rfl := Except.ok.inj h
      obtain rfl := List.isEmpty_iff.mp hrest
      apply Leads.name (grants_of_not hgrants) ⟨hhere, habove, Nat.le_of_not_lt hlength⟩
      simp [hchild, Inode.isLink, hcontent]
  | case12 links here hasSlash piece rest hgrants hhere habove hlength hlast next hchild up entries
      hcontent hrest ih =>
      apply Leads.enter (grants_of_not hgrants) ⟨hhere, habove, Nat.le_of_not_lt hlength⟩
        (mt List.isEmpty_iff.mpr hrest) hchild _ (ih h)
      simp [Inode.isDirectory, hcontent]
  | case13 links here hasSlash piece rest hgrants hhere habove hlength hlast next hchild target
      hcontent hstop =>
      obtain rfl := Except.ok.inj h
      have hstops : (rest = [] ∧ aim = .entry) ∧ hasSlash = false := by simpa using hstop
      obtain ⟨⟨rfl, rfl⟩, rfl⟩ := hstops
      apply Leads.name (grants_of_not hgrants) ⟨hhere, habove, Nat.le_of_not_lt hlength⟩
      simp [Aim.follows]
  | case15 here hasSlash piece rest hgrants hhere habove hlength hlast next hchild target
      hcontent hstop links start endsInSlash ih =>
      apply Leads.follow (grants_of_not hgrants) ⟨hhere, habove, Nat.le_of_not_lt hlength⟩ _
        hchild hcontent (ih h)
      intro hrest
      cases aim <;> simp [hrest] at hlast hstop <;> simp [Aim.follows, hlast, hstop]
  | case16 links here hasSlash piece rest hgrants hhere habove hlength hlast next hchild hrest
      hdirectory hlink =>
      obtain rfl := Except.ok.inj h
      obtain rfl := List.isEmpty_iff.mp hrest
      apply Leads.name (grants_of_not hgrants) ⟨hhere, habove, Nat.le_of_not_lt hlength⟩
      intro _ n hn
      obtain rfl := Option.some.inj (hchild.symm.trans hn)
      cases hcontent : (v.node next).content with
      | link target => exact (hlink target hcontent).elim
      | _ => simp [Inode.isLink, hcontent]
  | _ => cases h

theorem walk_of_leads (h : v.Leads aim links here hasSlash steps goal) :
    v.walk aim links here hasSlash steps = .ok goal := by
  induction h with
  | root => rw [walk]
  | here hgrants => simp [walk, hgrants]
  | above hgrants => simp [walk, hgrants]
  | @name links here hasSlash piece hgrants hstep hlink =>
      have hlength := Nat.not_lt.mpr hstep.length_le
      cases hchild : v.child? here piece with
      | none => simp [walk, hgrants, hstep.ne_here, hstep.ne_above, hlength, hchild]
      | some n =>
          cases hcontent : (v.node n).content with
          | link target =>
              have hstops : aim.follows hasSlash = false := by
                rw [← Bool.not_eq_true]
                intro hfollows
                have hfree := hlink hfollows n hchild
                simp [Inode.isLink, hcontent] at hfree
              cases aim <;> simp [Aim.follows] at hstops <;>
                simp [walk, hgrants, hstep.ne_here, hstep.ne_above, hlength, hchild, hcontent,
                  hstops]
          | _ => simp [walk, hgrants, hstep.ne_here, hstep.ne_above, hlength, hchild, hcontent]
  | stay hgrants hrest _ ih => exact (walk_stay hgrants hrest).trans ih
  | rise hgrants hrest _ ih => exact (walk_rise hgrants hrest).trans ih
  | enter hgrants hstep hrest hchild hdirectory _ ih =>
      exact (walk_enter hgrants hstep hrest hchild hdirectory).trans ih
  | follow hgrants hstep hrest hchild hcontent _ ih =>
      exact (walk_follow hgrants hstep hrest hchild hcontent).trans ih

theorem walk_eq_ok_iff :
    v.walk aim links here hasSlash steps = .ok goal ↔ v.Leads aim links here hasSlash steps goal :=
  ⟨leads_of_walk, walk_of_leads⟩

namespace Leads

theorem hasSlash_of (h : v.Leads aim links here hasSlash steps goal) (hslash : hasSlash = true) :
    goal.hasSlash = true := by
  induction h with
  | root | here | above | name => exact hslash
  | stay _ _ _ ih | rise _ _ _ ih | enter _ _ _ _ _ _ ih => exact ih hslash
  | follow _ _ _ _ _ _ ih =>
      apply ih
      simp [hslash]

theorem getLast? (h : v.Leads .name links here hasSlash steps goal)
    (hlast : goal.last = .name name) :
    steps.getLast? = some name ∧ IsStep name := by
  induction h with
  | root | here | above => cases hlast
  | @name links here hasSlash piece hgrants hstep _ =>
      obtain rfl := Last.name.inj hlast
      exact ⟨rfl, hstep⟩
  | @stay links here hasSlash rest goal _ hrest _ ih
  | @rise links here hasSlash rest goal _ hrest _ ih
  | @enter links here next hasSlash piece rest goal _ _ hrest _ _ _ ih =>
      have hrest := ih hlast
      cases rest with
      | nil => contradiction
      | cons first rest => simpa using hrest
  | @follow links here next hasSlash piece rest target goal _ _ hrest _ _ _ ih =>
      have hrest' := ih hlast
      cases rest with
      | nil => simp [Aim.follows] at hrest
      | cons first rest => simpa using hrest'

/-- Without a slash at the end, all walks that stop at a link there are the same. -/
theorem stopping {aim' : Aim} (h : v.Leads aim links here false steps goal)
    (haim : aim.follows false = false) (haim' : aim'.follows false = false) :
    v.Leads aim' links here false steps goal := by
  generalize hslash : false = hasSlash at h
  induction h with
  | root => exact .root
  | here hgrants => exact .here hgrants
  | above hgrants => exact .above hgrants
  | name hgrants hstep _ => exact .name hgrants hstep (by simp [← hslash, haim'])
  | stay hgrants hrest _ ih => exact .stay hgrants hrest (ih hslash)
  | rise hgrants hrest _ ih => exact .rise hgrants hrest (ih hslash)
  | enter hgrants hstep hrest hchild hdirectory _ ih =>
      exact .enter hgrants hstep hrest hchild hdirectory (ih hslash)
  | follow hgrants hstep hrest hchild hcontent _ ih =>
      subst hslash
      have hne := mt hrest (by simp [haim])
      exact .follow hgrants hstep (fun h => absurd h hne) hchild hcontent (ih (by simp [hne]))

/-- What is found for any purpose has a name on the way. -/
theorem exists_name (h : v.Leads aim links here hasSlash steps goal)
    (hfound : ∀ name, goal.last = .name name → (v.child? goal.directory name).isSome) :
    ∃ goal', v.Leads .name links here hasSlash steps goal' ∧
      ∀ name, goal'.last = .name name → (v.child? goal'.directory name).isSome := by
  induction h with
  | root => exact ⟨_, .root, hfound⟩
  | here hgrants => exact ⟨_, .here hgrants, hfound⟩
  | above hgrants => exact ⟨_, .above hgrants, hfound⟩
  | name hgrants hstep _ => exact ⟨_, .name hgrants hstep (by simp [Aim.follows]), hfound⟩
  | stay hgrants hrest _ ih =>
      obtain ⟨goal', hgoal, hfound'⟩ := ih hfound
      exact ⟨goal', .stay hgrants hrest hgoal, hfound'⟩
  | rise hgrants hrest _ ih =>
      obtain ⟨goal', hgoal, hfound'⟩ := ih hfound
      exact ⟨goal', .rise hgrants hrest hgoal, hfound'⟩
  | enter hgrants hstep hrest hchild hdirectory _ ih =>
      obtain ⟨goal', hgoal, hfound'⟩ := ih hfound
      exact ⟨goal', .enter hgrants hstep hrest hchild hdirectory hgoal, hfound'⟩
  | @follow links here next hasSlash piece rest target goal hgrants hstep hrest hchild hcontent _
      ih =>
      cases rest with
      | nil =>
          refine ⟨_, .name hgrants hstep (by simp [Aim.follows]), ?_⟩
          intro name hname
          obtain rfl := Last.name.inj hname
          simp [hchild]
      | cons first rest =>
          obtain ⟨goal', hgoal, hfound'⟩ := ih hfound
          exact ⟨goal', .follow hgrants hstep (by simp) hchild hcontent hgoal, hfound'⟩

/-- What is found with links followed is found as an entry, which may be a link. -/
theorem exists_entry (h : v.Leads .target links here hasSlash steps goal)
    (hfound : v.nodeAt goal = .ok n) :
    ∃ goal' k, v.Leads .entry links here hasSlash steps goal' ∧ v.nodeAt goal' = .ok k := by
  induction h with
  | root => exact ⟨_, n, .root, hfound⟩
  | here hgrants => exact ⟨_, n, .here hgrants, hfound⟩
  | above hgrants => exact ⟨_, n, .above hgrants, hfound⟩
  | name hgrants hstep hlink => exact ⟨_, n, .name hgrants hstep fun _ => hlink rfl, hfound⟩
  | stay hgrants hrest _ ih =>
      obtain ⟨goal', k, hgoal, hfound'⟩ := ih hfound
      exact ⟨goal', k, .stay hgrants hrest hgoal, hfound'⟩
  | rise hgrants hrest _ ih =>
      obtain ⟨goal', k, hgoal, hfound'⟩ := ih hfound
      exact ⟨goal', k, .rise hgrants hrest hgoal, hfound'⟩
  | enter hgrants hstep hrest hchild hdirectory _ ih =>
      obtain ⟨goal', k, hgoal, hfound'⟩ := ih hfound
      exact ⟨goal', k, .enter hgrants hstep hrest hchild hdirectory hgoal, hfound'⟩
  | @follow links here next hasSlash piece rest target goal hgrants hstep _ hchild hcontent _ ih =>
      by_cases hstops : rest = [] ∧ hasSlash = false
      · obtain ⟨rfl, rfl⟩ := hstops
        exact ⟨_, next, .name hgrants hstep (by simp [Aim.follows]), by simp [nodeAt, hchild]⟩
      · obtain ⟨goal', k, hgoal, hfound'⟩ := ih hfound
        have hrest : rest = [] → Aim.entry.follows hasSlash = true := by
          simpa [Aim.follows] using hstops
        exact ⟨goal', k, .follow hgrants hstep hrest hchild hcontent hgoal, hfound'⟩

/-- A file is opened under the name at the end of its path, or there is a link in its place. -/
theorem opening_cases (h : v.Leads .opening links here hasSlash steps goal) :
    v.Leads .name links here hasSlash steps goal ∨
      ∃ goal' k, v.Leads .entry links here hasSlash steps goal' ∧ v.nodeAt goal' = .ok k ∧
        (v.node k).isLink = true := by
  induction h with
  | root => exact .inl .root
  | here hgrants => exact .inl (.here hgrants)
  | above hgrants => exact .inl (.above hgrants)
  | name hgrants hstep _ => exact .inl (.name hgrants hstep (by simp [Aim.follows]))
  | stay hgrants hrest _ ih =>
      rcases ih with hgoal | ⟨goal', k, hgoal, hfound⟩
      · exact .inl (.stay hgrants hrest hgoal)
      · exact .inr ⟨goal', k, .stay hgrants hrest hgoal, hfound⟩
  | rise hgrants hrest _ ih =>
      rcases ih with hgoal | ⟨goal', k, hgoal, hfound⟩
      · exact .inl (.rise hgrants hrest hgoal)
      · exact .inr ⟨goal', k, .rise hgrants hrest hgoal, hfound⟩
  | enter hgrants hstep hrest hchild hdirectory _ ih =>
      rcases ih with hgoal | ⟨goal', k, hgoal, hfound⟩
      · exact .inl (.enter hgrants hstep hrest hchild hdirectory hgoal)
      · exact .inr ⟨goal', k, .enter hgrants hstep hrest hchild hdirectory hgoal, hfound⟩
  | @follow links here next hasSlash piece rest target goal hgrants hstep hrest hchild hcontent _
      ih =>
      cases rest with
      | nil =>
          have hslash : hasSlash = false := by simpa [Aim.follows] using hrest rfl
          subst hslash
          refine .inr ⟨_, next, .name hgrants hstep (by simp [Aim.follows]), ?_, ?_⟩
          · simp [nodeAt, hchild]
          · simp [Inode.isLink, hcontent]
      | cons first rest =>
          rcases ih with hgoal | ⟨goal', k, hgoal, hfound⟩
          · exact .inl (.follow hgrants hstep (by simp) hchild hcontent hgoal)
          · exact .inr ⟨goal', k, .follow hgrants hstep (by simp) hchild hcontent hgoal, hfound⟩

end Leads

/-- A path that leads to something in the first volume leads to the same name in the second,
although there need not be anything any more. -/
structure Traces (v v' : Volume) : Prop where
  grants : ∀ n, (v.node n).grants .search = true → (v'.node n).grants .search = true
  above : ∀ n, (v.node n).grants .search = true → v'.above n = v.above n
  isDirectory : ∀ n, (v.node n).isDirectory = true → (v'.node n).isDirectory = true
  link : ∀ n target, (v.node n).content = .link target → (v'.node n).content = .link target
  isLink : ∀ n, (v'.node n).isLink = true → (v.node n).isLink = true
  child : ∀ directory name n, v.child? directory name = some n →
    v'.child? directory name = some n ∨ v'.child? directory name = none ∧
      (v.node n).isDirectory = false ∧ (v.node n).isLink = false

structure Keeps (v v' : Volume) : Prop extends Traces v v' where
  keeps : ∀ directory name n, v.child? directory name = some n →
    v'.child? directory name = some n

namespace Traces

theorem leads (h : v.Traces v') (hleads : v.Leads aim links here hasSlash steps goal)
    (hfound : ∀ name, goal.last = .name name →
      aim = .name ∨ (v.child? goal.directory name).isSome) :
    v'.Leads aim links here hasSlash steps goal := by
  induction hleads with
  | root => exact .root
  | here hgrants => exact .here (h.grants _ hgrants)
  | above hgrants =>
      rw [← h.above _ hgrants]
      exact .above (h.grants _ hgrants)
  | @name links here hasSlash piece hgrants hstep hlink =>
      apply Leads.name (h.grants _ hgrants) hstep
      intro hfollows n hn
      rcases hfound piece rfl with rfl | hsome
      · cases hfollows
      · obtain ⟨k, hk⟩ := Option.isSome_iff_exists.mp hsome
        rcases h.child here piece k hk with hsame | ⟨hnone, -⟩
        · obtain rfl := Option.some.inj (hsame.symm.trans hn)
          have hfree := hlink hfollows k hk
          exact Bool.eq_false_iff.mpr (mt (h.isLink k) (Bool.eq_false_iff.mp hfree))
        · rw [hnone] at hn
          cases hn
  | stay hgrants hrest _ ih => exact .stay (h.grants _ hgrants) hrest (ih hfound)
  | rise hgrants hrest _ ih =>
      apply Leads.rise (h.grants _ hgrants) hrest
      rw [h.above _ hgrants]
      exact ih hfound
  | enter hgrants hstep hrest hchild hdirectory _ ih =>
      rcases h.child _ _ _ hchild with hsame | ⟨-, hnot, -⟩
      · exact .enter (h.grants _ hgrants) hstep hrest hsame (h.isDirectory _ hdirectory) (ih hfound)
      · rw [hnot] at hdirectory
        cases hdirectory
  | follow hgrants hstep hrest hchild hcontent _ ih =>
      rcases h.child _ _ _ hchild with hsame | ⟨-, -, hnot⟩
      · exact .follow (h.grants _ hgrants) hstep hrest hsame (h.link _ _ hcontent) (ih hfound)
      · simp [Inode.isLink, hcontent] at hnot

end Traces

theorem Keeps.refl (v : Volume) : v.Keeps v where
  grants _ h := h
  above _ _ := rfl
  isDirectory _ h := h
  link _ _ h := h
  isLink _ h := h
  child _ _ _ h := .inl h
  keeps _ _ _ h := h

theorem fileName?_of_getLast? (h : (pieces path.text).getLast? = some name) (hstep : IsStep name) :
    path.fileName? = some name := by
  have hne : name ≠ [] := by
    intro hnil
    have hmem := List.mem_of_getLast? h
    simp [pieces, hnil] at hmem
  have hname : Component.ofPiece? name = some (.name name) := by
    unfold Component.ofPiece?
    split
    · exact absurd rfl hne
    · exact absurd rfl hstep.ne_here
    · exact absurd rfl hstep.ne_above
    · rfl
  -- Empty pieces may stand behind the last one, and stand for no component.
  have hlast : ((Text.splitOn '/' path.text).filterMap Component.ofPiece?).getLast? =
      some (.name name) := by
    obtain ⟨front, hfront⟩ := List.getLast?_eq_some_iff.mp h
    obtain ⟨before, behind, hsplit, -, hbehind⟩ := List.filter_eq_append_iff.mp hfront
    obtain ⟨empties, tail, rfl, hempties, -, htail⟩ := List.filter_eq_cons_iff.mp hbehind
    have hnone : ∀ piece, ¬ (!piece.isEmpty) = true → Component.ofPiece? piece = none := by
      intro piece hpiece
      have hnil : piece = [] := by simpa using hpiece
      rw [hnil]
      rfl
    have hempties' : empties.filterMap Component.ofPiece? = [] :=
      List.filterMap_eq_nil_iff.mpr fun piece hpiece => hnone piece (hempties piece hpiece)
    have htail' : tail.filterMap Component.ofPiece? = [] :=
      List.filterMap_eq_nil_iff.mpr fun piece hpiece =>
        hnone piece (List.filter_eq_nil_iff.mp htail piece hpiece)
    simp [hsplit, hname, hempties', htail']
  have hcomponents : path.components.getLast? = some (.name name) := by
    unfold Path.components
    split
    · next hsplit => simp [hsplit] at hlast
    · next first rest hsplit =>
        rw [hsplit, List.filterMap_cons] at hlast
        dsimp only
        split
        · next hempty =>
            have hfirst : first = [] := List.isEmpty_iff.mp hempty
            subst hfirst
            have hbelow : (rest.filterMap Component.ofPiece?).getLast? = some (.name name) := hlast
            cases rest with
            | nil => simp at hbelow
            | cons second rest => simp [List.getLast?_cons, hbelow]
        · split
          · next hdot =>
              subst hdot
              have hbelow : (rest.filterMap Component.ofPiece?).getLast? = some (.name name) :=
                hlast
              simp [List.getLast?_cons, hbelow]
          · cases hfirst : Component.ofPiece? first <;> simpa [hfirst] using hlast
  simp [Path.fileName?, hcomponents]

theorem Keeps.trans {v'' : Volume} (h : v.Keeps v') (h' : v'.Keeps v'') : v.Keeps v'' where
  grants n hn := h'.grants n (h.grants n hn)
  above n hn := (h'.above n (h.grants n hn)).trans (h.above n hn)
  isDirectory n hn := h'.isDirectory n (h.isDirectory n hn)
  link n target hn := h'.link n target (h.link n target hn)
  isLink n hn := h.isLink n (h'.isLink n hn)
  child _ _ _ hn := .inl (h'.keeps _ _ _ (h.keeps _ _ _ hn))
  keeps _ _ _ hn := h'.keeps _ _ _ (h.keeps _ _ _ hn)

/-- A path that can be looked up at all. -/
structure IsFit (path : Path) : Prop where
  not_isEmpty : path.text.isEmpty = false
  noNul : '\x00' ∉ path.text
  length_le : (Utf8.encode path.text).length ≤ pathLimit

/-- Where the walk along a path begins. -/
def startOf (here : NodeId) (path : Path) : NodeId := if path.isAbsolute then root else here

theorem goal_eq (hfit : IsFit path) (v : Volume) (aim : Aim) (here : NodeId) :
    v.goal aim here path =
      v.walk aim linkLimit (startOf here path) path.endsInSlash (pieces path.text) := by
  have hlength := Nat.not_lt.mpr hfit.length_le
  simp [goal, hfit.not_isEmpty, hfit.noNul, hlength, startOf]

theorem goal_eq_ok_iff : v.goal aim here path = .ok goal ↔ IsFit path ∧
    v.Leads aim linkLimit (startOf here path) path.endsInSlash (pieces path.text) goal := by
  constructor
  · intro h
    have hfit : IsFit path := by
      unfold Volume.goal at h
      split at h
      · cases h
      · split at h
        · cases h
        · split at h
          · cases h
          · next hempty hnul hlength =>
              exact ⟨by simpa using hempty, hnul, Nat.le_of_not_lt hlength⟩
    rw [goal_eq hfit] at h
    exact ⟨hfit, leads_of_walk h⟩
  · intro hfits
    obtain ⟨hfit, hleads⟩ := hfits
    rw [goal_eq hfit]
    exact walk_of_leads hleads

theorem nodeAt_name (hlast : goal.last = .name name) : v.nodeAt goal = .ok n ↔
    v.child? goal.directory name = some n ∧
      (goal.hasSlash = true → (v.node n).isDirectory = true) := by
  simp only [nodeAt, hlast]
  cases v.child? goal.directory name with
  | none => simp
  | some k =>
      simp only [Option.some.injEq, Bool.and_eq_true, Bool.not_eq_true']
      constructor
      · intro h
        split at h
        · cases h
        · next hslash =>
            obtain rfl := Except.ok.inj h
            exact ⟨rfl, by simpa using hslash⟩
      · intro hsome
        obtain ⟨hk, hdirectory⟩ := hsome
        obtain rfl := hk
        rw [if_neg (by simpa using hdirectory)]

theorem nodeAt_of_ne_name (hlast : ∀ name, goal.last ≠ .name name) :
    v.nodeAt goal = .ok goal.directory := by
  cases h : goal.last with
  | name name => exact absurd h (hlast name)
  | _ => simp only [nodeAt, h]

theorem findFor_eq_ok_iff : v.findFor aim here path = .ok n ↔
    ∃ goal, v.goal aim here path = .ok goal ∧ v.nodeAt goal = .ok n := by
  unfold findFor
  cases v.goal aim here path with
  | error e => simp [bind, Except.bind]
  | ok goal => simp [bind, Except.bind]

theorem Keeps.nodeAt (h : v.Keeps v') (hfound : v.nodeAt goal = .ok n) :
    v'.nodeAt goal = .ok n := by
  by_cases hlast : ∃ name, goal.last = .name name
  · obtain ⟨name, hlast⟩ := hlast
    have hnode := (nodeAt_name hlast).mp hfound
    exact (nodeAt_name hlast).mpr ⟨h.keeps _ _ _ hnode.1, fun hslash =>
      h.isDirectory n (hnode.2 hslash)⟩
  · have hlast := not_exists.mp hlast
    rw [nodeAt_of_ne_name hlast] at hfound ⊢
    exact hfound

theorem Keeps.findFor (h : v.Keeps v') (hfound : v.findFor aim here path = .ok n) :
    v'.findFor aim here path = .ok n := by
  obtain ⟨goal, hgoal, hnode⟩ := findFor_eq_ok_iff.mp hfound
  obtain ⟨hfit, hleads⟩ := goal_eq_ok_iff.mp hgoal
  have hleads' := h.leads hleads fun name hname => .inr (by simp [((nodeAt_name hname).mp hnode).1])
  exact findFor_eq_ok_iff.mpr ⟨goal, goal_eq_ok_iff.mpr ⟨hfit, hleads'⟩, h.nodeAt hnode⟩

theorem exists_findEntry (h : v.find here path = .ok n) : ∃ k, v.findEntry here path = .ok k := by
  obtain ⟨goal, hgoal, hnode⟩ := findFor_eq_ok_iff.mp h
  obtain ⟨hfit, hleads⟩ := goal_eq_ok_iff.mp hgoal
  obtain ⟨goal', k, hleads', hnode'⟩ := hleads.exists_entry hnode
  exact ⟨k, findFor_eq_ok_iff.mpr ⟨goal', goal_eq_ok_iff.mpr ⟨hfit, hleads'⟩, hnode'⟩⟩

/-- Behind a directory that is found, a path goes on from there. -/
theorem walk_append {aim' : Aim} {hasSlash' : Bool} {rest : List Text}
    (h : v.Leads .target links here hasSlash steps goal) (hfound : v.nodeAt goal = .ok n)
    (hdirectory : (v.node n).isDirectory = true) (hrest : rest ≠ []) :
    ∃ links', v.walk aim' links here hasSlash' (steps ++ rest) =
      v.walk aim' links' n hasSlash' rest := by
  induction h with
  | @root links here hasSlash =>
      obtain rfl := Except.ok.inj hfound
      exact ⟨links, rfl⟩
  | @here links here hasSlash hgrants =>
      obtain rfl := Except.ok.inj hfound
      exact ⟨links, walk_stay hgrants hrest⟩
  | @above links here hasSlash hgrants =>
      obtain rfl := Except.ok.inj hfound
      exact ⟨links, walk_rise hgrants hrest⟩
  | @name links here hasSlash piece hgrants hstep _ =>
      have hchild := ((nodeAt_name rfl).mp hfound).1
      exact ⟨links, walk_enter hgrants hstep hrest hchild hdirectory⟩
  | stay hgrants _ _ ih =>
      obtain ⟨links', hwalk⟩ := ih hfound
      exact ⟨links', (walk_stay hgrants (by simp [hrest])).trans hwalk⟩
  | rise hgrants _ _ ih =>
      obtain ⟨links', hwalk⟩ := ih hfound
      exact ⟨links', (walk_rise hgrants (by simp [hrest])).trans hwalk⟩
  | enter hgrants hstep _ hchild hnext _ ih =>
      obtain ⟨links', hwalk⟩ := ih hfound
      exact ⟨links', (walk_enter hgrants hstep (by simp [hrest]) hchild hnext).trans hwalk⟩
  | @follow _ _ _ _ _ later _ _ hgrants hstep _ hchild hcontent _ ih =>
      obtain ⟨links', hwalk⟩ := ih hfound
      have hne : later ++ rest ≠ [] := List.append_ne_nil_of_right_ne_nil later hrest
      refine ⟨links', (walk_follow hgrants hstep (absurd · hne) hchild hcontent).trans ?_⟩
      simpa only [List.isEmpty_eq_false_iff.mpr hne, Bool.false_and, Bool.or_false,
        List.append_assoc] using hwalk

/-- A directory that is missing, or may not be searched. -/
def IsMissing (e : SystemError) : Prop :=
  e = .notFound ∨ e = .notADirectory ∨ e = .permissionDenied

/-- The directories on the way to the last name of a path are there. -/
def Reaches (v : Volume) (here : NodeId) (path : Path) : Prop :=
  ∀ e, v.goal .name here path = .error e → ¬ IsMissing e

def Offers (v : Volume) (here : NodeId) (path : Path) : Prop :=
  ∃ n, v.find here path = .ok n ∧ (v.node n).isDirectory = true ∧
    (v.node n).grants .search = true

theorem pieces_join (hpath : path.text ≠ []) (hplain : IsPlain name) :
    pieces (path.join ⟨name⟩).text = pieces path.text ++ [name] := by
  have hname := Text.splitOn_of_not_mem hplain.no_slash
  have hkept : [name].filter (fun piece => !piece.isEmpty) = [name] := by simp [hplain.ne_nil]
  have hcut : ∀ front : Text, pieces (front ++ '/' :: name) = pieces front ++ [name] := by
    intro front
    simp only [pieces]
    rw [Text.splitOn_append_cons, List.filter_append, hname, hkept]
  rw [Path.join_eq path hplain]
  by_cases hslash : path.endsInSlash = true
  · obtain ⟨front, hfront⟩ :=
      List.getLast?_eq_some_iff.mp (by simpa [Path.endsInSlash] using hslash)
    have hbare : pieces path.text = pieces front := by
      simp only [pieces]
      rw [hfront, Text.splitOn_append_cons, List.filter_append]
      simp [Text.splitOn]
    have htext : path.lead ++ name = front ++ '/' :: name := by simp [Path.lead, hslash, hfront]
    rw [hbare, ← hcut front, ← htext]
  · have htext : path.lead ++ name = path.text ++ '/' :: name := by
      simp [Path.lead, hslash, hpath]
    rw [← hcut path.text, ← htext]

theorem reaches_join (h : v.Offers here path) (hplain : IsPlain name) :
    v.Reaches here (path.join ⟨name⟩) := by
  intro e he hmissing
  obtain ⟨n, hfind, hdirectory, hsearch⟩ := h
  obtain ⟨goal, hgoal, hnode⟩ := findFor_eq_ok_iff.mp hfind
  obtain ⟨hfit, hleads⟩ := goal_eq_ok_iff.mp hgoal
  have hpath : path.text ≠ [] := by simpa using hfit.not_isEmpty
  have hjoin := Path.join_eq path hplain
  have hlead : path.lead ≠ [] := by
    unfold Path.lead
    split <;> simp [hpath]
  have hstart : startOf here (path.join ⟨name⟩) = startOf here path := by
    obtain ⟨c, rest, htext⟩ := List.exists_cons_of_ne_nil hpath
    have habsolute : (path.join ⟨name⟩).isAbsolute = path.isAbsolute := by
      simp only [Path.isAbsolute, hjoin, Path.lead, htext]
      split <;> simp
    simp only [startOf, habsolute]
  by_cases hfit' : IsFit (path.join ⟨name⟩)
  · rw [goal_eq hfit', hstart, pieces_join hpath hplain] at he
    obtain ⟨links', hwalk⟩ := walk_append hleads hnode hdirectory (List.cons_ne_nil name [])
    rw [hwalk] at he
    by_cases hlength : nameLimit < (Utf8.encode name).length
    · simp [walk, hsearch, hplain.ne_current, hplain.ne_parent, hlength] at he
      subst he
      rcases hmissing with h | h | h <;> cases h
    · simp [walk, hsearch, hplain.ne_current, hplain.ne_parent, hlength] at he
  · -- A path that cannot be looked up is too long, or holds what no path can hold.
    unfold Volume.goal at he
    split at he
    · next hempty => simp [hjoin, hlead] at hempty
    · split at he
      · obtain rfl := Except.error.inj he
        rcases hmissing with h | h | h <;> cases h
      · split at he
        · obtain rfl := Except.error.inj he
          rcases hmissing with h | h | h <;> cases h
        · next hempty hnul hlength =>
            exact hfit' ⟨by simpa using hempty, hnul, Nat.le_of_not_lt hlength⟩

end Volume
end Bytelink
