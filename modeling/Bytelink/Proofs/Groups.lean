import Bytelink.CommandLine.Arguments

/-!
# Arguments as groups

What the arguments after `build` say, one thing after another. A group is an argument that says
something by itself, or a flag together with its value, which may be any argument at all. `Fits`
tells what kind of group stands at the front of some arguments, and `Reads` is the reading of all of
them from left to right. Every list of arguments has exactly one reading (`reads_iff`), and a list
of groups of which each has all its arguments is the reading of those arguments in a row
(`Reads.flatMap`). That is what allows groups to change places.
-/
namespace Bytelink.CommandLine

/-- What can be told by a flag and a value. -/
inductive Flag
  | targetClass
  | outDir
  | preprocessor
  | compiler
  | assembler
  | template
  | timeout
  | jobs
  deriving DecidableEq, Repr

def Flag.spellings : Flag → List Text
  | targetClass => ["--class"]
  | outDir => ["-o", "--out-dir"]
  | preprocessor => ["--gcc"]
  | compiler => ["--cc1"]
  | assembler => ["--assembler"]
  | template => ["--template"]
  | timeout => ["--timeout"]
  | jobs => ["-j", "--jobs"]

/-- One thing that arguments say, in their own words. -/
inductive Group
  | help (word : Text)
  | verbose (word : Text)
  | assign (flag : Flag) (word value : Text)
  | source (path : Text)
  | unknown (option : Text)
  /-- A flag with nothing behind it. -/
  | incomplete (word : Text)
  deriving DecidableEq, Repr

namespace Group

def arguments : Group → List Text
  | help word => [word]
  | verbose word => [word]
  | assign _ word value => [word, value]
  | source path => [path]
  | unknown option => [option]
  | incomplete word => [word]

/-- Which group stands in front of the rest of the arguments. Whatever begins with a hyphen and is
nothing else is an unknown option. -/
inductive Fits : Group → List Text → Prop
  | help {word : Text} {rest : List Text} :
      word ∈ (["--help", "-h"] : List Text) → Fits (help word) rest
  | verbose {word : Text} {rest : List Text} :
      word ∈ (["--verbose", "-v"] : List Text) → Fits (verbose word) rest
  | assign {flag : Flag} {word value : Text} {rest : List Text} :
      word ∈ flag.spellings → Fits (assign flag word value) rest
  | source {path : Text} {rest : List Text} : path.head? ≠ some '-' → Fits (source path) rest
  | unknown {option : Text} {rest : List Text} : option.head? = some '-' →
      option ∉ (["--help", "-h"] : List Text) → option ∉ (["--verbose", "-v"] : List Text) →
      (∀ flag : Flag, option ∉ flag.spellings) → Fits (unknown option) rest
  | incomplete {flag : Flag} {word : Text} : word ∈ flag.spellings → Fits (incomplete word) []

end Group

inductive Reads : List Text → List Group → Prop
  | nil : Reads [] []
  | cons {group : Group} {rest : List Text} {groups : List Group} :
      group.Fits rest → Reads rest groups → Reads (group.arguments ++ rest) (group :: groups)

variable {word : Text} {flag : Flag} {rest arguments : List Text} {groups : List Group}

theorem isHelp_iff : isHelp word = true ↔ word ∈ (["--help", "-h"] : List Text) := by
  simp [isHelp]

theorem isVerbose_iff : isVerbose word = true ↔ word ∈ (["--verbose", "-v"] : List Text) := by
  simp [isVerbose]

theorem isOption_iff : isOption word = true ↔ word.head? = some '-' := by
  simp [isOption]

theorem valueFlags_contains_iff :
    valueFlags.contains word = true ↔ ∃ flag : Flag, word ∈ flag.spellings := by
  rw [List.contains_iff_mem]
  constructor
  · intro h
    simp only [valueFlags, List.mem_cons, List.not_mem_nil, or_false] at h
    rcases h with rfl | rfl | rfl | rfl | rfl | rfl | rfl | rfl | rfl | rfl
    · exact ⟨.targetClass, by decide⟩
    · exact ⟨.outDir, by decide⟩
    · exact ⟨.outDir, by decide⟩
    · exact ⟨.preprocessor, by decide⟩
    · exact ⟨.compiler, by decide⟩
    · exact ⟨.assembler, by decide⟩
    · exact ⟨.template, by decide⟩
    · exact ⟨.timeout, by decide⟩
    · exact ⟨.jobs, by decide⟩
    · exact ⟨.jobs, by decide⟩
  · rintro ⟨flag, h⟩
    have hall : ∀ word ∈ flag.spellings, word ∈ valueFlags := by cases flag <;> decide
    exact hall word h

theorem Flag.word_cases (h : word ∈ flag.spellings) :
    isHelp word = false ∧ isVerbose word = false ∧ isOption word = true := by
  have hall : ∀ word ∈ flag.spellings,
      isHelp word = false ∧ isVerbose word = false ∧ isOption word = true := by
    cases flag <;> decide
  exact hall word h

theorem path_cases (h : isOption word = false) : isHelp word = false ∧ isVerbose word = false := by
  have hhelp : ∀ word ∈ (["--help", "-h"] : List Text), isOption word = true := by decide
  have hverbose : ∀ word ∈ (["--verbose", "-v"] : List Text), isOption word = true := by decide
  constructor
  · rw [Bool.eq_false_iff]
    intro hword
    rw [hhelp word (isHelp_iff.mp hword)] at h
    cases h
  · rw [Bool.eq_false_iff]
    intro hword
    rw [hverbose word (isVerbose_iff.mp hword)] at h
    cases h

/-- Two flags are not written alike. -/
theorem Flag.eq_of_mem_spellings {other : Flag} (h : word ∈ flag.spellings)
    (h' : word ∈ other.spellings) : flag = other := by
  have hall : ∀ word ∈ flag.spellings, word ∈ other.spellings → flag = other := by
    cases flag <;> cases other <;> decide
  exact hall word h h'

def Flag.ofWord? (word : Text) : Option Flag :=
  let flags : List Flag :=
    [.targetClass, .outDir, .preprocessor, .compiler, .assembler, .template, .timeout, .jobs]
  flags.find? fun flag => flag.spellings.contains word

theorem Flag.ofWord?_eq_some_iff : Flag.ofWord? word = some flag ↔ word ∈ flag.spellings := by
  constructor
  · intro h
    simpa using List.find?_some h
  · intro h
    cases hfound : Flag.ofWord? word with
    | none =>
        have hnone := List.find?_eq_none.mp hfound flag (by cases flag <;> decide)
        simp [h] at hnone
    | some other =>
        have hother : word ∈ other.spellings := by simpa using List.find?_some hfound
        rw [Flag.eq_of_mem_spellings hother h]

theorem Flag.ofWord?_eq_none_iff :
    Flag.ofWord? word = none ↔ ∀ flag : Flag, word ∉ flag.spellings := by
  rw [Option.eq_none_iff_forall_ne_some]
  exact forall_congr' fun flag => not_congr Flag.ofWord?_eq_some_iff

/-- The groups in which arguments are read. -/
def grouped : List Text → List Group
  | [] => []
  | word :: rest =>
      if isHelp word then .help word :: grouped rest
      else if isVerbose word then .verbose word :: grouped rest
      else match Flag.ofWord? word with
        | none => (if isOption word then .unknown word else .source word) :: grouped rest
        | some flag => match rest with
          | [] => [.incomplete word]
          | value :: rest => .assign flag word value :: grouped rest

theorem grouped_append {group : Group} (h : group.Fits rest) :
    grouped (group.arguments ++ rest) = group :: grouped rest := by
  cases h with
  | help hword => simp [Group.arguments, grouped, isHelp_iff.mpr hword]
  | verbose hword =>
      have hhelp : ∀ word ∈ (["--verbose", "-v"] : List Text), isHelp word = false := by decide
      simp [Group.arguments, grouped, hhelp _ hword, isVerbose_iff.mpr hword]
  | assign hword =>
      obtain ⟨hhelp, hverbose, -⟩ := Flag.word_cases hword
      simp [Group.arguments, grouped, hhelp, hverbose, Flag.ofWord?_eq_some_iff.mpr hword]
  | incomplete hword =>
      obtain ⟨hhelp, hverbose, -⟩ := Flag.word_cases hword
      simp [Group.arguments, grouped, hhelp, hverbose, Flag.ofWord?_eq_some_iff.mpr hword]
  | @source path _ hpath =>
      have hoption : isOption path = false := Bool.eq_false_iff.mpr (mt isOption_iff.mp hpath)
      obtain ⟨hhelp, hverbose⟩ := path_cases hoption
      have hflag : Flag.ofWord? path = none := Flag.ofWord?_eq_none_iff.mpr fun flag hword => by
        rw [(Flag.word_cases hword).2.2] at hoption
        cases hoption
      simp [Group.arguments, grouped, hhelp, hverbose, hflag, hoption]
  | unknown hhyphen hhelp hverbose hflag =>
      have hhelp := Bool.eq_false_iff.mpr (mt isHelp_iff.mp hhelp)
      have hverbose := Bool.eq_false_iff.mpr (mt isVerbose_iff.mp hverbose)
      simp [Group.arguments, grouped, hhelp, hverbose, Flag.ofWord?_eq_none_iff.mpr hflag,
        isOption_iff.mpr hhyphen]

theorem reads_grouped (arguments : List Text) : Reads arguments (grouped arguments) := by
  fun_induction grouped arguments with
  | case1 => exact .nil
  | case2 word rest hhelp ih => exact .cons (.help (isHelp_iff.mp hhelp)) ih
  | case3 word rest hhelp hverbose ih => exact .cons (.verbose (isVerbose_iff.mp hverbose)) ih
  | case4 word rest hhelp hverbose hflag ih =>
      by_cases hoption : isOption word = true
      · rw [if_pos hoption]
        exact .cons (.unknown (isOption_iff.mp hoption) (mt isHelp_iff.mpr hhelp)
          (mt isVerbose_iff.mpr hverbose) (Flag.ofWord?_eq_none_iff.mp hflag)) ih
      · rw [if_neg hoption]
        exact .cons (.source (mt isOption_iff.mpr hoption)) ih
  | case5 word hhelp hverbose flag hflag =>
      exact .cons (.incomplete (Flag.ofWord?_eq_some_iff.mp hflag)) .nil
  | case6 word hhelp hverbose flag hflag value rest ih =>
      exact .cons (.assign (Flag.ofWord?_eq_some_iff.mp hflag)) ih

/-- There is one way of reading arguments. -/
theorem reads_iff : Reads arguments groups ↔ groups = grouped arguments := by
  constructor
  · intro h
    induction h with
    | nil => rfl
    | cons hfits _ ih => rw [grouped_append hfits, ih]
  · rintro rfl
    exact reads_grouped arguments

theorem Group.Fits.of_complete {group : Group} {others : List Text} (h : group.Fits rest)
    (hcomplete : ∀ word, group ≠ .incomplete word) : group.Fits others := by
  cases h with
  | help hword => exact .help hword
  | verbose hword => exact .verbose hword
  | assign hword => exact .assign hword
  | source hpath => exact .source hpath
  | unknown hhyphen hhelp hverbose hflag => exact .unknown hhyphen hhelp hverbose hflag
  | incomplete _ => exact absurd rfl (hcomplete _)

theorem Reads.fits (h : Reads arguments groups) {group : Group} (hmem : group ∈ groups) :
    ∃ rest, group.Fits rest := by
  induction h with
  | nil => cases hmem
  | cons hfits _ ih =>
      rcases List.mem_cons.mp hmem with rfl | hmem
      · exact ⟨_, hfits⟩
      · exact ih hmem

/-- Groups taken from a reading, in any order, are the reading of their arguments. -/
theorem Reads.flatMap {others : List Group} (h : Reads arguments groups)
    (hmem : ∀ group ∈ others, group ∈ groups)
    (hcomplete : ∀ group ∈ others, ∀ word, group ≠ .incomplete word) :
    Reads (others.flatMap Group.arguments) others := by
  induction others with
  | nil => exact .nil
  | cons group others ih =>
      obtain ⟨rest, hfits⟩ := h.fits (hmem group List.mem_cons_self)
      rw [List.flatMap_cons]
      apply Reads.cons
      · exact hfits.of_complete (hcomplete group List.mem_cons_self)
      · exact ih (fun other hother => hmem other (List.mem_cons_of_mem group hother))
          fun other hother => hcomplete other (List.mem_cons_of_mem group hother)

end Bytelink.CommandLine
