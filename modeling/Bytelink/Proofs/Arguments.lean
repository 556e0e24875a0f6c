import Bytelink.CommandLine.Usage
import Bytelink.Proofs.Groups
import Mathlib.Data.List.Induction

/-!
# What arguments come to

A group can be in error, if only because of the groups before it (`Faulty`). The first group in
error decides what is wrong with the arguments. Where there is none the fields are a function of the
groups: each has the last value that is given to it (`Fields.ofGroups`). Reading goes from the
fields of the groups read so far to those of one group more, or fails with the fault of that group
(`read_arguments`, `read_faulty`). Since the last value for a field is found without looking at the
groups that set other fields, groups may change places (`Reordered`).
-/
namespace Bytelink.CommandLine

/-- The fields of a command line. -/
inductive Field
  | source
  | verbose
  | ofFlag (flag : Flag)
  deriving DecidableEq, Repr

namespace Group

def field? : Group → Option Field
  | verbose _ => some .verbose
  | assign flag _ _ => some (.ofFlag flag)
  | source _ => some .source
  | _ => none

/-- What a group says about its field. -/
def said : Group → Text
  | help word => word
  | verbose word => word
  | assign _ _ value => value
  | source path => path
  | unknown option => option
  | incomplete word => word

/-- The group is in error behind some others. -/
inductive Faulty (before : List Group) : Group → ArgumentError → Prop
  | help {word : Text} : Faulty before (help word) .helpWanted
  | unknown {option : Text} : Faulty before (unknown option) (.unknownOption option)
  | incomplete {word : Text} : Faulty before (incomplete word) (.missingValue word)
  | timeout {word value : Text} : Duration.ofSeconds? value = none →
      Faulty before (assign .timeout word value) (.invalidTimeout value)
  | jobs {word value : Text} : Text.unsigned? jobLimit value = none →
      Faulty before (assign .jobs word value) (.invalidJobs value)
  | source {path other : Text} : Group.source other ∈ before →
      Faulty before (source path) .multipleSources

end Group

open CommandLine.Group (Faulty)

def Sound (groups : List Group) : Prop :=
  ∀ before group after, groups = before ++ group :: after → ∀ e, ¬ Faulty before group e

def FirstFault (groups : List Group) (e : ArgumentError) : Prop :=
  ∃ before group after, groups = before ++ group :: after ∧ Sound before ∧ Faulty before group e

def lastSaid? (field : Field) (groups : List Group) : Option Text :=
  (groups.filter fun group => group.field? = some field).getLast?.map Group.said

def Fields.ofGroups (groups : List Group) : Fields where
  sourceDir? := (lastSaid? .source groups).map Path.mk
  className? := lastSaid? (.ofFlag .targetClass) groups
  outDir? := (lastSaid? (.ofFlag .outDir) groups).map Path.mk
  preprocessor? := (lastSaid? (.ofFlag .preprocessor) groups).map Path.mk
  compiler? := (lastSaid? (.ofFlag .compiler) groups).map Path.mk
  assembler? := (lastSaid? (.ofFlag .assembler) groups).map Path.mk
  template? := (lastSaid? (.ofFlag .template) groups).map Path.mk
  timeout? := (lastSaid? (.ofFlag .timeout) groups).bind Duration.ofSeconds?
  jobs := ((lastSaid? (.ofFlag .jobs) groups).bind (Text.unsigned? jobLimit)).getD 1
  verbose := (lastSaid? .verbose groups).isSome

variable {groups before : List Group} {group : Group} {rest arguments : List Text}
variable {e : ArgumentError} {field : Field}

theorem lastSaid?_concat : lastSaid? field (before ++ [group]) =
    if group.field? = some field then some group.said else lastSaid? field before := by
  by_cases h : group.field? = some field <;> simp [lastSaid?, List.filter_append, h]

theorem lastSaid?_isSome_iff :
    (lastSaid? field groups).isSome = true ↔ ∃ group ∈ groups, group.field? = some field := by
  simp [lastSaid?]

theorem sound_nil : Sound [] := by
  intro before group after h
  simp at h

theorem sound_concat :
    Sound (before ++ [group]) ↔ Sound before ∧ ∀ e, ¬ Faulty before group e := by
  constructor
  · intro h
    constructor
    · intro front g back hbefore e
      exact h front g (back ++ [group]) (by simp [hbefore]) e
    · exact h before group [] rfl
  · intro h front g back hwhole e
    rcases List.eq_nil_or_concat back with rfl | ⟨back, last, rfl⟩
    · obtain ⟨rfl, hg⟩ := List.append_inj' hwhole rfl
      obtain rfl := List.head_eq_of_cons_eq hg
      exact h.2 e
    · rw [List.concat_eq_append, ← List.cons_append, ← List.append_assoc] at hwhole
      exact h.1 front g back (List.append_inj' hwhole rfl).1 e

theorem sound_or_fault (groups : List Group) : Sound groups ∨ ∃ e, FirstFault groups e := by
  induction groups using List.reverseRecOn with
  | nil => exact Or.inl sound_nil
  | append_singleton before group ih =>
      rcases ih with hsound | ⟨e, front, g, back, rfl, hfront, hfault⟩
      · by_cases hfault : ∃ e, Faulty before group e
        · obtain ⟨e, hfault⟩ := hfault
          exact Or.inr ⟨e, before, group, [], rfl, hsound, hfault⟩
        · exact Or.inl (sound_concat.mpr ⟨hsound, not_exists.mp hfault⟩)
      · exact Or.inr ⟨e, front, g, back ++ [group], by simp, hfront, hfault⟩

section

variable {f : Fields} {flag : Flag} {word value : Text}

theorem read_flag_faulty (h : word ∈ flag.spellings) (hset : f.set word value = .error e) :
    f.read (word :: value :: rest) = .error e := by
  obtain ⟨hhelp, hverbose, hoption⟩ := Flag.word_cases h
  have hflag := valueFlags_contains_iff.mpr ⟨flag, h⟩
  rw [Fields.read.eq_def]
  simp only [hhelp, hverbose, hoption, hflag, hset, if_true, Bool.false_eq_true, if_false]

theorem read_flag_sound {after : Fields} (h : word ∈ flag.spellings)
    (hset : f.set word value = .ok after) : f.read (word :: value :: rest) = after.read rest := by
  obtain ⟨hhelp, hverbose, hoption⟩ := Flag.word_cases h
  have hflag := valueFlags_contains_iff.mpr ⟨flag, h⟩
  rw [Fields.read.eq_def]
  simp only [hhelp, hverbose, hoption, hflag, hset, if_true, Bool.false_eq_true, if_false]

theorem set_faulty (h : word ∈ flag.spellings)
    (hfault : Faulty before (.assign flag word value) e) : f.set word value = .error e := by
  cases hfault with
  | timeout hvalue =>
      obtain rfl := List.mem_singleton.mp h
      simp [Fields.set, hvalue]
  | jobs hvalue =>
      simp only [Flag.spellings, List.mem_cons, List.not_mem_nil, or_false] at h
      rcases h with rfl | rfl <;> simp [Fields.set, hvalue]

/-- A flag sets its field to the value, and leaves the others as they are. -/
theorem set_sound (h : word ∈ flag.spellings)
    (hsound : ∀ e, ¬ Faulty before (.assign flag word value) e) :
    (Fields.ofGroups before).set word value =
      .ok (Fields.ofGroups (before ++ [.assign flag word value])) := by
  have hgroup : (Group.assign flag word value).field? = some (.ofFlag flag) := rfl
  have hsaid : (Group.assign flag word value).said = value := rfl
  simp only [Fields.ofGroups, lastSaid?_concat, hgroup, hsaid]
  cases flag with
  | timeout =>
      obtain rfl := List.mem_singleton.mp h
      obtain ⟨limit, hvalue⟩ := Option.ne_none_iff_exists'.mp fun hnone =>
        hsound _ (.timeout hnone)
      simp [Fields.set, hvalue]
  | jobs =>
      obtain ⟨jobs, hvalue⟩ := Option.ne_none_iff_exists'.mp fun hnone => hsound _ (.jobs hnone)
      simp only [Flag.spellings, List.mem_cons, List.not_mem_nil, or_false] at h
      rcases h with rfl | rfl <;> simp [Fields.set, hvalue]
  | outDir =>
      simp only [Flag.spellings, List.mem_cons, List.not_mem_nil, or_false] at h
      rcases h with rfl | rfl <;> simp [Fields.set]
  | targetClass | preprocessor | compiler | assembler | template =>
      obtain rfl := List.mem_singleton.mp h
      simp [Fields.set]

end

theorem read_faulty (hfits : group.Fits rest) (hfault : Faulty before group e) :
    (Fields.ofGroups before).read (group.arguments ++ rest) = .error e := by
  cases hfits with
  | help hword =>
      cases hfault
      simp [Group.arguments, Fields.read.eq_def, isHelp_iff.mpr hword]
  | verbose hword => cases hfault
  | assign hword => exact read_flag_faulty hword (set_faulty hword hfault)
  | @source path _ hpath =>
      cases hfault with
      | source hother =>
          have hoption : isOption path = false := Bool.eq_false_iff.mpr (mt isOption_iff.mp hpath)
          obtain ⟨hhelp, hverbose⟩ := path_cases hoption
          have hgiven : (Fields.ofGroups before).sourceDir?.isSome = true := by
            rw [Fields.ofGroups, Option.isSome_map, lastSaid?_isSome_iff]
            exact ⟨_, hother, rfl⟩
          rw [Fields.read.eq_def]
          simp [Group.arguments, hhelp, hverbose, hoption, hgiven]
  | unknown hhyphen hhelp hverbose hflag =>
      cases hfault
      have hhelp := Bool.eq_false_iff.mpr (mt isHelp_iff.mp hhelp)
      have hverbose := Bool.eq_false_iff.mpr (mt isVerbose_iff.mp hverbose)
      have hnone := Bool.eq_false_iff.mpr (mt valueFlags_contains_iff.mp (not_exists.mpr hflag))
      rw [Fields.read.eq_def]
      simp only [Group.arguments, List.cons_append, List.nil_append, hhelp, hverbose,
        isOption_iff.mpr hhyphen, hnone, if_true, Bool.false_eq_true, if_false]
  | @incomplete flag _ hword =>
      cases hfault
      obtain ⟨hhelp, hverbose, hoption⟩ := Flag.word_cases hword
      have hflag := valueFlags_contains_iff.mpr ⟨flag, hword⟩
      rw [Fields.read.eq_def]
      simp only [Group.arguments, List.append_nil, hhelp, hverbose, hoption, hflag, if_true,
        Bool.false_eq_true, if_false]

/-- Any other group brings the fields from what the groups before it say to what they say together
with it. -/
theorem read_arguments (hfits : group.Fits rest) (hsound : ∀ e, ¬ Faulty before group e) :
    (Fields.ofGroups before).read (group.arguments ++ rest) =
      (Fields.ofGroups (before ++ [group])).read rest := by
  cases hfits with
  | help hword => exact absurd .help (hsound _)
  | unknown hhyphen hhelp hverbose hflag => exact absurd .unknown (hsound _)
  | incomplete hword => exact absurd .incomplete (hsound _)
  | assign hword => exact read_flag_sound hword (set_sound hword hsound)
  | verbose hword =>
      have hhelp : ∀ word ∈ (["--verbose", "-v"] : List Text), isHelp word = false := by decide
      rw [Fields.read.eq_def]
      simp [Group.arguments, hhelp _ hword, isVerbose_iff.mpr hword, Fields.ofGroups,
        lastSaid?_concat, Group.field?]
  | @source path _ hpath =>
      have hoption : isOption path = false := Bool.eq_false_iff.mpr (mt isOption_iff.mp hpath)
      obtain ⟨hhelp, hverbose⟩ := path_cases hoption
      have hfirst : (Fields.ofGroups before).sourceDir?.isSome = false := by
        rw [Bool.eq_false_iff, Fields.ofGroups, Option.isSome_map, Ne, lastSaid?_isSome_iff]
        rintro ⟨other, hother, hfield⟩
        cases other with
        | source given => exact hsound _ (.source hother)
        | _ => cases hfield
      rw [Fields.read.eq_def]
      simp only [Group.arguments, List.cons_append, List.nil_append, hhelp, hverbose, hoption,
        hfirst, Bool.false_eq_true, if_false]
      simp [Fields.ofGroups, lastSaid?_concat, Group.field?, Group.said]

theorem read_sound (h : Reads arguments groups) (hsound : Sound (before ++ groups)) :
    (Fields.ofGroups before).read arguments = .ok (Fields.ofGroups (before ++ groups)) := by
  induction h generalizing before with
  | nil => simp [Fields.read]
  | @cons group rest groups hfits _ ih =>
      rw [read_arguments hfits (hsound before group groups rfl), ih (by simpa using hsound)]
      simp

theorem read_firstFault {front back : List Group} (h : Reads arguments groups)
    (hgroups : groups = front ++ group :: back) (hsound : Sound (before ++ front))
    (hfault : Faulty (before ++ front) group e) :
    (Fields.ofGroups before).read arguments = .error e := by
  induction h generalizing before front with
  | nil => simp at hgroups
  | @cons first rest groups hfits _ ih =>
      cases front with
      | nil =>
          obtain rfl := List.head_eq_of_cons_eq hgroups
          exact read_faulty hfits (by simpa using hfault)
      | cons next front =>
          rw [List.cons_append, List.cons.injEq] at hgroups
          obtain ⟨rfl, hgroups⟩ := hgroups
          rw [read_arguments hfits (hsound before first front rfl)]
          exact ih hgroups (by simpa using hsound) (by simpa using hfault)

theorem ofGroups_nil : Fields.ofGroups [] = Fields.initial := rfl

theorem parseBuild_sound (h : Reads arguments groups) (hsound : Sound groups) :
    parseBuild arguments = (Fields.ofGroups groups).finish := by
  have hread : (Fields.ofGroups []).read arguments = .ok (Fields.ofGroups ([] ++ groups)) :=
    read_sound h hsound
  rw [parseBuild, ← ofGroups_nil, hread]
  rfl

theorem parseBuild_firstFault (h : Reads arguments groups) (hfault : FirstFault groups e) :
    parseBuild arguments = .error e := by
  obtain ⟨front, group, back, hgroups, hsound, hfault⟩ := hfault
  have hread : (Fields.ofGroups []).read arguments = .error e :=
    read_firstFault h hgroups hsound hfault
  rw [parseBuild, ← ofGroups_nil, hread]

/-- The build that some groups describe. A field has the value that is given to it last, and without
one it has its default. -/
structure Describes (groups : List Group) (a : BuildArguments) : Prop where
  sourceDir : lastSaid? .source groups = some a.sourceDir.text
  className : lastSaid? (.ofFlag .targetClass) groups = some a.className
  outDir : a.outDir? = (lastSaid? (.ofFlag .outDir) groups).map Path.mk
  preprocessor : a.preprocessor? = (lastSaid? (.ofFlag .preprocessor) groups).map Path.mk
  compiler : a.compiler? = (lastSaid? (.ofFlag .compiler) groups).map Path.mk
  assembler : a.assembler? = (lastSaid? (.ofFlag .assembler) groups).map Path.mk
  template : a.template? = (lastSaid? (.ofFlag .template) groups).map Path.mk
  timeout : a.timeout? = (lastSaid? (.ofFlag .timeout) groups).bind Duration.ofSeconds?
  jobs : a.jobs = ((lastSaid? (.ofFlag .jobs) groups).bind (Text.unsigned? jobLimit)).getD 1
  verbose : a.verbose = (lastSaid? .verbose groups).isSome

def Mentions (groups : List Group) (field : Field) : Prop :=
  ∃ group ∈ groups, group.field? = some field

/-- What is missing from groups of which none is in error: the source directory, or else the class.
-/
inductive Lacks (groups : List Group) : ArgumentError → Prop
  | source : ¬ Mentions groups .source → Lacks groups .missingSource
  | targetClass : Mentions groups .source → ¬ Mentions groups (.ofFlag .targetClass) →
      Lacks groups .missingClass

theorem lastSaid?_eq_none_iff : lastSaid? field groups = none ↔ ¬ Mentions groups field := by
  rw [← Option.not_isSome_iff_eq_none, lastSaid?_isSome_iff, Mentions]

theorem finish_lacking (h : Lacks groups e) : (Fields.ofGroups groups).finish = .error e := by
  cases h with
  | source hsource =>
      have hnone := lastSaid?_eq_none_iff.mpr hsource
      simp [Fields.finish, Fields.ofGroups, hnone]
  | targetClass hsource hclass =>
      have hnone := lastSaid?_eq_none_iff.mpr hclass
      obtain ⟨path, hpath⟩ := Option.isSome_iff_exists.mp (lastSaid?_isSome_iff.mpr hsource)
      simp [Fields.finish, Fields.ofGroups, hpath, hnone]

theorem finish_describing {a : BuildArguments} (h : Describes groups a) :
    (Fields.ofGroups groups).finish = .ok a := by
  simp only [Fields.finish, Fields.ofGroups, h.sourceDir, h.className, Option.map_some, ← h.outDir,
    ← h.preprocessor, ← h.compiler, ← h.assembler, ← h.template, ← h.timeout, ← h.jobs, ← h.verbose]

theorem describes_or_lacks (groups : List Group) :
    (∃ a, Describes groups a) ∨ ∃ e, Lacks groups e := by
  by_cases hsource : Mentions groups .source
  · by_cases hclass : Mentions groups (.ofFlag .targetClass)
    · obtain ⟨path, hpath⟩ := Option.isSome_iff_exists.mp (lastSaid?_isSome_iff.mpr hsource)
      obtain ⟨name, hname⟩ := Option.isSome_iff_exists.mp (lastSaid?_isSome_iff.mpr hclass)
      exact Or.inl ⟨⟨⟨path⟩, name, _, _, _, _, _, _, _, _⟩,
        hpath, hname, rfl, rfl, rfl, rfl, rfl, rfl, rfl, rfl⟩
    · exact Or.inr ⟨_, .targetClass hsource hclass⟩
  · exact Or.inr ⟨_, .source hsource⟩

/-- The same groups in another order, which is the same among the groups that set one field. -/
structure Reordered (groups others : List Group) : Prop where
  perm : others.Perm groups
  order (field : Field) : (others.filter fun group => group.field? = some field) =
    groups.filter fun group => group.field? = some field

theorem exists_source_of_field? (h : group.field? = some .source) : ∃ path, group = .source path := by
  cases group with
  | source path => exact ⟨path, rfl⟩
  | _ => cases h

/-- Only a source directory can be in error because of what stands before it. -/
theorem not_faulty_iff : (∀ e, ¬ Faulty before group e) ↔ (∀ e, ¬ Faulty [] group e) ∧
    (group.field? = some .source → ¬ Mentions before .source) := by
  constructor
  · intro h
    constructor
    · intro e hfault
      cases hfault with
      | help => exact h _ .help
      | unknown => exact h _ .unknown
      | incomplete => exact h _ .incomplete
      | timeout hvalue => exact h _ (.timeout hvalue)
      | jobs hvalue => exact h _ (.jobs hvalue)
      | source hother => cases hother
    · rintro hfield ⟨other, hother, hsource⟩
      obtain ⟨path, rfl⟩ := exists_source_of_field? hfield
      obtain ⟨given, rfl⟩ := exists_source_of_field? hsource
      exact h _ (.source hother)
  · rintro ⟨halone, hfirst⟩ e hfault
    cases hfault with
    | help => exact halone _ .help
    | unknown => exact halone _ .unknown
    | incomplete => exact halone _ .incomplete
    | timeout hvalue => exact halone _ (.timeout hvalue)
    | jobs hvalue => exact halone _ (.jobs hvalue)
    | source hother => exact hfirst rfl ⟨_, hother, rfl⟩

theorem sound_iff : Sound groups ↔ (∀ group ∈ groups, ∀ e, ¬ Faulty [] group e) ∧
    (groups.filter fun group => group.field? = some .source).length ≤ 1 := by
  induction groups using List.reverseRecOn with
  | nil => simp [sound_nil]
  | append_singleton before group ih =>
      have hnone : ¬ Mentions before .source ↔
          (before.filter fun group => group.field? = some .source).length = 0 := by
        simp [Mentions, List.filter_eq_nil_iff]
      have hlength : ((before ++ [group]).filter fun group => group.field? = some .source).length =
          (before.filter fun group => group.field? = some .source).length +
            if group.field? = some .source then 1 else 0 := by
        by_cases hfield : group.field? = some .source <;> simp [List.filter_append, hfield]
      have hall : (∀ g ∈ before ++ [group], ∀ e, ¬ Faulty [] g e) ↔
          (∀ g ∈ before, ∀ e, ¬ Faulty [] g e) ∧ ∀ e, ¬ Faulty [] group e := by
        simp only [List.forall_mem_append, List.forall_mem_singleton]
      rw [sound_concat, ih, not_faulty_iff, hnone, hlength, hall]
      by_cases hfield : group.field? = some .source
      · simp only [hfield, if_true, true_implies]
        constructor
        · intro ⟨⟨hbefore, hone⟩, hgroup, hzero⟩
          exact ⟨⟨hbefore, hgroup⟩, by omega⟩
        · intro ⟨⟨hbefore, hgroup⟩, hone⟩
          exact ⟨⟨hbefore, by omega⟩, hgroup, by omega⟩
      · simp only [hfield, if_false, Nat.add_zero, false_implies, and_true]
        rw [and_right_comm]

theorem Reordered.sound {others : List Group} (h : Reordered groups others)
    (hsound : Sound groups) : Sound others := by
  obtain ⟨halone, hone⟩ := sound_iff.mp hsound
  apply sound_iff.mpr
  constructor
  · intro group hmem
    exact halone group (h.perm.mem_iff.mp hmem)
  · rw [h.order .source]
    exact hone

theorem Reordered.ofGroups_eq {others : List Group} (h : Reordered groups others) :
    Fields.ofGroups others = Fields.ofGroups groups := by
  have hlast : ∀ field, lastSaid? field others = lastSaid? field groups := fun field => by
    rw [lastSaid?, h.order field, lastSaid?]
  simp only [Fields.ofGroups, hlast]

theorem Reordered.reads {others : List Group} (h : Reordered groups others)
    (hreads : Reads arguments groups) (hsound : Sound groups) :
    Reads (others.flatMap Group.arguments) others := by
  apply hreads.flatMap
  · exact fun group hmem => h.perm.mem_iff.mp hmem
  · rintro group hmem word rfl
    exact (sound_iff.mp hsound).1 _ (h.perm.mem_iff.mp hmem) _ .incomplete

theorem not_begins_usage {lead : Text} (hlength : 6 ≤ lead.length)
    (h : ¬ ("Usage:" : Text) <+: lead) (tail : Text) : ¬ ("Usage:" : Text) <+: lead ++ tail := by
  intro hbegins
  exact h (List.prefix_of_prefix_length_le hbegins (List.prefix_append lead tail) hlength)

theorem begins_usage_iff : ("Usage:" : Text) <+: e.message ↔ e = .helpWanted := by
  cases e with
  | helpWanted => exact iff_of_true (List.isPrefixOf_iff_prefix.mp (by decide)) rfl
  | unknownCommand | unknownOption | missingValue | invalidTimeout | invalidJobs =>
      exact iff_of_false (not_begins_usage (by decide) (by decide) _) (by simp)
  | missingCommand | multipleSources | missingSource | missingClass =>
      exact iff_of_false (by decide) (by simp)

theorem parseBuild_eq_ok_iff {a : BuildArguments} (h : Reads arguments groups) :
    parseBuild arguments = .ok a ↔ Sound groups ∧ Describes groups a := by
  constructor
  · intro hok
    rcases sound_or_fault groups with hsound | ⟨e, hfault⟩
    · rw [parseBuild_sound h hsound] at hok
      rcases describes_or_lacks groups with ⟨b, hb⟩ | ⟨e, he⟩
      · rw [finish_describing hb, Except.ok.injEq] at hok
        exact ⟨hsound, hok ▸ hb⟩
      · rw [finish_lacking he] at hok
        cases hok
    · rw [parseBuild_firstFault h hfault] at hok
      cases hok
  · rintro ⟨hsound, ha⟩
    rw [parseBuild_sound h hsound, finish_describing ha]

theorem parseBuild_eq_error_iff (h : Reads arguments groups) :
    parseBuild arguments = .error e ↔ FirstFault groups e ∨ Sound groups ∧ Lacks groups e := by
  constructor
  · intro herror
    rcases sound_or_fault groups with hsound | ⟨e', hfault⟩
    · rw [parseBuild_sound h hsound] at herror
      rcases describes_or_lacks groups with ⟨a, ha⟩ | ⟨e', he⟩
      · rw [finish_describing ha] at herror
        cases herror
      · rw [finish_lacking he, Except.error.injEq] at herror
        exact Or.inr ⟨hsound, herror ▸ he⟩
    · rw [parseBuild_firstFault h hfault, Except.error.injEq] at herror
      exact Or.inl (herror ▸ hfault)
  · rintro (hfault | ⟨hsound, hlacks⟩)
    · exact parseBuild_firstFault h hfault
    · rw [parseBuild_sound h hsound, finish_lacking hlacks]

theorem firstFault_help_iff : FirstFault groups .helpWanted ↔
    ∃ before word after, groups = before ++ .help word :: after ∧ Sound before := by
  constructor
  · rintro ⟨before, group, after, hgroups, hsound, hfault⟩
    cases hfault
    exact ⟨before, _, after, hgroups, hsound⟩
  · rintro ⟨before, word, after, hgroups, hsound⟩
    exact ⟨before, _, after, hgroups, hsound, .help⟩

/-- Arguments have one reading as groups. If none of the groups is in error and both the source
directory and the class are there, they are understood, each field with the value given to it last,
and the groups may change places among those of other fields. Otherwise the first group in error
tells what is wrong, or else what is missing, and only a wish for help is answered with the usage
text. -/
theorem parseBuild_reads (arguments : List Text) :
    ∃ groups, (∀ other, Reads arguments other ↔ other = groups) ∧
      (∀ a, parseBuild arguments = .ok a ↔ Sound groups ∧ Describes groups a) ∧
      (Sound groups → Mentions groups .source → Mentions groups (.ofFlag .targetClass) →
        ∃ a, parseBuild arguments = .ok a) ∧
      (Sound groups → ∀ others, Reordered groups others →
        parseBuild (others.flatMap Group.arguments) = parseBuild arguments) ∧
      (∀ e, parseBuild arguments = .error e ↔
        FirstFault groups e ∨ Sound groups ∧ Lacks groups e) ∧
      ((∃ e, parseBuild arguments = .error e ∧ ("Usage:" : Text) <+: e.message) ↔
        ∃ before word after, groups = before ++ .help word :: after ∧ Sound before) := by
  have hreads := reads_grouped arguments
  refine ⟨grouped arguments, fun other => reads_iff, fun a => parseBuild_eq_ok_iff hreads, ?_, ?_,
    fun e => parseBuild_eq_error_iff hreads, ?_⟩
  · intro hsound hsource hclass
    rcases describes_or_lacks (grouped arguments) with ⟨a, ha⟩ | ⟨e, hlacks⟩
    · exact ⟨a, (parseBuild_eq_ok_iff hreads).mpr ⟨hsound, ha⟩⟩
    · cases hlacks with
      | source hnone => exact absurd hsource hnone
      | targetClass _ hnone => exact absurd hclass hnone
  · intro hsound others hreordered
    rw [parseBuild_sound hreads hsound, ← hreordered.ofGroups_eq]
    exact parseBuild_sound (hreordered.reads hreads hsound) (hreordered.sound hsound)
  · rw [← firstFault_help_iff]
    constructor
    · rintro ⟨e, herror, hbegins⟩
      obtain rfl := begins_usage_iff.mp hbegins
      rcases (parseBuild_eq_error_iff hreads).mp herror with hfault | ⟨-, hlacks⟩
      · exact hfault
      · cases hlacks
    · intro hfault
      exact ⟨_, parseBuild_firstFault hreads hfault, begins_usage_iff.mpr rfl⟩

def twoJobCounts : List Group :=
  [.assign .jobs "-j" "2", .source "src", .assign .jobs "--jobs" "4",
    .assign .targetClass "--class" "--help"]

/-- The same groups, with the source directory at the end and the class in front. -/
def twoJobCountsReordered : List Group :=
  [.assign .targetClass "--class" "--help", .assign .jobs "-j" "2", .assign .jobs "--jobs" "4",
    .source "src"]

theorem parse_two_job_counts :
    Sound twoJobCounts ∧ Mentions twoJobCounts .source ∧
    Mentions twoJobCounts (.ofFlag .targetClass) ∧ Reordered twoJobCounts twoJobCountsReordered ∧
    (∃ a, parseBuild ["-j", "2", "src", "--jobs", "4", "--class", "--help"] = .ok a ∧
      a.className = ("--help" : Text) ∧ a.jobs = 4) ∧
    parseBuild ["--class", "--help", "-j", "2", "--jobs", "4", "src"] =
      parseBuild ["-j", "2", "src", "--jobs", "4", "--class", "--help"] := by
  have hsound : Sound twoJobCounts := by
    apply sound_iff.mpr
    constructor
    · intro group hmem e hfault
      simp only [twoJobCounts, List.mem_cons, List.not_mem_nil, or_false] at hmem
      rcases hmem with rfl | rfl | rfl | rfl
      · cases hfault with
        | jobs hvalue => exact absurd hvalue (by decide)
      · cases hfault with
        | source hother => cases hother
      · cases hfault with
        | jobs hvalue => exact absurd hvalue (by decide)
      · cases hfault
    · decide
  have hsource : Mentions twoJobCounts .source := ⟨_, .tail _ (.head _), rfl⟩
  have hclass : Mentions twoJobCounts (.ofFlag .targetClass) :=
    ⟨_, .tail _ (.tail _ (.tail _ (.head _))), rfl⟩
  have hreordered : Reordered twoJobCounts twoJobCountsReordered := by
    constructor
    · decide
    · intro field
      cases field with
      | ofFlag flag => cases flag <;> decide
      | _ => decide
  obtain ⟨groups, hreads, hok, hfound, hchange, -⟩ :=
    parseBuild_reads ["-j", "2", "src", "--jobs", "4", "--class", "--help"]
  have hgroups : twoJobCounts = groups := (hreads _).mp (reads_iff.mpr (by decide))
  subst hgroups
  obtain ⟨a, ha⟩ := hfound hsound hsource hclass
  have hdescribes := ((hok a).mp ha).2
  have hname : lastSaid? (.ofFlag .targetClass) twoJobCounts = some ("--help" : Text) := by decide
  refine ⟨hsound, hsource, hclass, hreordered, ⟨a, ha, ?_, ?_⟩, hchange hsound _ hreordered⟩
  · exact Option.some.inj (hdescribes.className.symm.trans hname)
  · rw [hdescribes.jobs]
    decide

end Bytelink.CommandLine
