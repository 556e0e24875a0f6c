import Bytelink.Proofs.FileNames
import Mathlib.Data.List.Infix

/-!
# Targets and their class files

What a target's name can be is said here without cutting it into segments: `IsAccepted` names the
characters and the places of slashes that are excluded, and `Rejects` which of several faults of a
name is reported. The name of a target is its segments with slashes between them, and its class file
is the path with one step more for each segment (`components_classFile`). No segment leads upwards
or back to the root, so the file stands below the directory. Its text is the name with something
before and behind it (`classFile_eq`), and therefore no other target has the same file.
-/
namespace Bytelink

namespace Text

variable {mark : Char} {t : Text}

theorem splitOn_eq_cons (mark : Char) (t : Text) :
    splitOn mark t = t.takeWhile (· != mark) :: (splitOn mark t).tail := by
  induction t with
  | nil => rfl
  | cons c rest ih =>
      by_cases hc : c = mark
      · simp [splitOn, hc]
      · rw [splitOn, if_neg hc, ih]
        simp [hc]

theorem nil_mem_tail_splitOn :
    [] ∈ (splitOn mark t).tail ↔ t.getLast? = some mark ∨ [mark, mark] <:+: t := by
  induction t with
  | nil => simp [splitOn]
  | cons c rest ih =>
      cases rest with
      | nil => by_cases hc : c = mark <;> simp [splitOn, hc, List.infix_cons_iff]
      | cons d rest =>
          have hinfix : [mark, mark] <:+: c :: d :: rest ↔
              c = mark ∧ d = mark ∨ [mark, mark] <:+: d :: rest := by
            rw [List.infix_cons_iff]
            simp [eq_comm]
          rw [List.getLast?_cons_cons, hinfix]
          by_cases hc : c = mark
          · have htail : (splitOn mark (c :: d :: rest)).tail = splitOn mark (d :: rest) := by
              simp [splitOn, hc]
            rw [htail, splitOn_eq_cons, List.mem_cons, ih]
            by_cases hd : d = mark <;> simp [hc, hd]
          · have htail : (splitOn mark (c :: d :: rest)).tail =
                (splitOn mark (d :: rest)).tail := by
              rw [splitOn, if_neg hc, splitOn_eq_cons]
              rfl
            rw [htail, ih]
            simp [hc]

theorem nil_mem_splitOn (ht : t ≠ []) : [] ∈ splitOn mark t ↔
    t.head? = some mark ∨ t.getLast? = some mark ∨ [mark, mark] <:+: t := by
  obtain ⟨c, rest, rfl⟩ := List.exists_cons_of_ne_nil ht
  rw [splitOn_eq_cons, List.mem_cons, nil_mem_tail_splitOn]
  by_cases hc : c = mark <;> simp [hc]

theorem join_concat (between last : Text) {front : List Text} (hfront : front ≠ []) :
    join between (front ++ [last]) = join between front ++ between ++ last := by
  induction front with
  | nil => exact absurd rfl hfront
  | cons piece front ih =>
      cases front with
      | nil => simp [join]
      | cons next front =>
          simp only [List.cons_append] at ih ⊢
          simp only [join, ih (List.cons_ne_nil next front), List.append_assoc]

theorem join_concat_append (between last tail : Text) (front : List Text) :
    join between (front ++ [last ++ tail]) = join between (front ++ [last]) ++ tail := by
  cases front with
  | nil => rfl
  | cons piece front =>
      simp only [join_concat between _ (List.cons_ne_nil piece front), List.append_assoc]

end Text

namespace Path

variable {names : List Text}

theorem lead_join (p : Path) {name : Text} (h : IsPlain name) :
    (p.join ⟨name⟩).lead = p.lead ++ name ++ ['/'] := by
  have hends := endsInSlash_append p.lead h
  have hfull : (p.lead ++ name).isEmpty = false := by simp [h.ne_nil]
  rw [join_eq p h, lead, hends, hfull]
  rfl

theorem foldl_join_eq (p : Path) (hne : names ≠ []) (h : ∀ name ∈ names, IsPlain name) :
    names.foldl (fun q name => q.join ⟨name⟩) p = ⟨p.lead ++ Text.join ['/'] names⟩ := by
  induction names generalizing p with
  | nil => exact absurd rfl hne
  | cons name rest ih =>
      have hname : IsPlain name := h name List.mem_cons_self
      rw [List.foldl_cons]
      cases rest with
      | nil => exact join_eq p hname
      | cons next rest =>
          rw [ih (p.join ⟨name⟩) (List.cons_ne_nil next rest)
            (fun other hother => h other (List.mem_cons_of_mem name hother)), lead_join p hname]
          simp [Text.join]

theorem components_foldl_join (p : Path) (h : ∀ name ∈ names, IsPlain name) :
    (names.foldl (fun q name => q.join ⟨name⟩) p).components =
      p.components ++ names.map Component.name := by
  induction names generalizing p with
  | nil => simp
  | cons name rest ih =>
      rw [List.foldl_cons, ih (p.join ⟨name⟩) fun other hother =>
        h other (List.mem_cons_of_mem name hother),
        components_join p (h name List.mem_cons_self)]
      simp

end Path

namespace Target

/-- A character that a class name can hold. -/
def Allowed (c : Char) : Prop := Text.isBlank c = false ∧ c ≠ '\\' ∧ c ≠ '.'

/-- A slash stands at one of the ends, or right behind another. -/
def HasEmptySegment (name : Text) : Prop :=
  name.head? = some '/' ∨ name.getLast? = some '/' ∨ ['/', '/'] <:+: name

/-- The names of targets. -/
structure IsAccepted (name : Text) : Prop where
  ne_nil : name ≠ []
  allowed : ∀ c ∈ name, Allowed c
  no_empty_segment : ¬ HasEmptySegment name

/-- What is wrong with any other text. A name that has no characters is empty and nothing else; the
first character that is not allowed counts before an empty segment anywhere. -/
inductive Rejects : Text → ConfigError → Prop
  | empty : Rejects [] .emptyTarget
  | character {before after : Text} {c : Char} : (∀ x ∈ before, Allowed x) → ¬ Allowed c →
      Rejects (before ++ c :: after) (.invalidCharacter (before ++ c :: after) c)
  | segment {name : Text} : name ≠ [] → (∀ c ∈ name, Allowed c) → HasEmptySegment name →
      Rejects name (.emptySegment name)

variable {name : Text} {e : ConfigError} {t : Target}

theorem isForbidden_eq_false_iff {c : Char} : isForbidden c = false ↔ Allowed c := by
  simp [isForbidden, Allowed, and_assoc]

theorem isValid_iff : IsValid name ↔ IsAccepted name := by
  constructor
  · intro h
    refine ⟨h.ne_nil, fun c hc => isForbidden_eq_false_iff.mp (h.allowed c hc), fun hempty => ?_⟩
    exact h.segments_ne_nil [] ((Text.nil_mem_splitOn h.ne_nil).mpr hempty) rfl
  · intro h
    refine ⟨h.ne_nil, fun c hc => isForbidden_eq_false_iff.mpr (h.allowed c hc), ?_⟩
    intro segment hsegment hnil
    exact h.no_empty_segment ((Text.nil_mem_splitOn h.ne_nil).mp (hnil ▸ hsegment))

theorem find?_isForbidden_eq_none (h : ∀ c ∈ name, Allowed c) : name.find? isForbidden = none := by
  rw [List.find?_eq_none]
  intro c hc
  simp [isForbidden_eq_false_iff.mpr (h c hc)]

theorem parse_name (t : Target) : parse t.name = .ok t := by
  have hnone := find?_isForbidden_eq_none (isValid_iff.mp t.valid).allowed
  have hfull : [] ∉ Text.splitOn '/' t.name := fun h => t.valid.segments_ne_nil [] h rfl
  unfold parse
  rw [dif_neg t.valid.ne_nil]
  split
  · rename_i c hc
    rw [hnone] at hc
    cases hc
  · rw [dif_neg hfull]

theorem parse_of_rejects (h : Rejects name e) : parse name = .error e := by
  cases h with
  | empty => rfl
  | @character before after c hbefore hc =>
      have hnone := find?_isForbidden_eq_none hbefore
      have hforbidden : isForbidden c = true := by
        rw [← Bool.not_eq_false, isForbidden_eq_false_iff]
        exact hc
      have hfind : (before ++ c :: after).find? isForbidden = some c := by
        rw [List.find?_append, hnone, Option.none_or, List.find?_cons_of_pos hforbidden]
      unfold parse
      rw [dif_neg (by simp)]
      split
      · rename_i d hd
        rw [hfind] at hd
        rw [Option.some.inj hd]
      · rename_i hd
        rw [hfind] at hd
        cases hd
  | segment hne hallowed hempty =>
      have hnone := find?_isForbidden_eq_none hallowed
      unfold parse
      rw [dif_neg hne]
      split
      · rename_i c hc
        rw [hnone] at hc
        cases hc
      · rw [dif_pos ((Text.nil_mem_splitOn hne).mpr hempty)]

theorem accepted_or_rejected (name : Text) : IsAccepted name ∨ ∃ e, Rejects name e := by
  by_cases hne : name = []
  · exact Or.inr ⟨.emptyTarget, hne ▸ .empty⟩
  · cases hfind : name.find? isForbidden with
    | some c =>
        obtain ⟨hc, before, after, rfl, hbefore⟩ := List.find?_eq_some_iff_append.mp hfind
        refine Or.inr ⟨_, .character (fun x hx => ?_) fun hallowed => ?_⟩
        · simpa [isForbidden_eq_false_iff] using hbefore x hx
        · rw [isForbidden_eq_false_iff.mpr hallowed] at hc
          cases hc
    | none =>
        have hallowed : ∀ c ∈ name, Allowed c := fun c hc =>
          isForbidden_eq_false_iff.mp (by simpa using List.find?_eq_none.mp hfind c hc)
        by_cases hempty : HasEmptySegment name
        · exact Or.inr ⟨_, .segment hne hallowed hempty⟩
        · exact Or.inl ⟨hne, hallowed, hempty⟩

theorem parse_eq_ok_iff : parse name = .ok t ↔ t.name = name := by
  constructor
  · intro h
    rcases accepted_or_rejected name with haccepted | ⟨e, he⟩
    · have hself := parse_name ⟨name, isValid_iff.mpr haccepted⟩
      rw [h, Except.ok.injEq] at hself
      rw [hself]
    · rw [parse_of_rejects he] at h
      cases h
  · rintro rfl
    exact parse_name t

theorem parse_eq_error_iff : parse name = .error e ↔ Rejects name e := by
  constructor
  · intro h
    rcases accepted_or_rejected name with haccepted | ⟨e', he⟩
    · rw [parse_name ⟨name, isValid_iff.mpr haccepted⟩] at h
      cases h
    · rw [parse_of_rejects he, Except.error.injEq] at h
      exact h ▸ he
  · exact parse_of_rejects

/-- The segments before the simple name. -/
def packageSegments (t : Target) : List Text := t.segments.dropLast

theorem segments_eq (t : Target) : t.segments = t.packageSegments ++ [t.simpleName] := by
  have hne : t.segments ≠ [] := Text.splitOn_ne_nil '/' t.name
  rw [simpleName, List.getLast?_eq_some_getLast hne]
  exact (List.dropLast_append_getLast hne).symm

theorem join_segments (t : Target) : Text.join ['/'] t.segments = t.name :=
  Text.join_splitOn '/' t.name

theorem isPlain_segment {segment : Text} (h : segment ∈ t.segments) : IsPlain segment := by
  have hperiod : '.' ∉ segment := fun hmem =>
    absurd (t.valid.allowed '.' (Text.mem_of_mem_splitOn h hmem)) (by decide)
  refine ⟨t.valid.segments_ne_nil segment h, Text.not_mem_of_mem_splitOn h, ?_, ?_⟩
  · exact fun he => hperiod (by simp [he])
  · exact fun he => hperiod (by simp [he])

theorem package?_cases (t : Target) :
    t.package? = none ∧ t.name = t.simpleName ∨
      ∃ package, t.package? = some package ∧ t.name = package ++ '/' :: t.simpleName := by
  have hlength : t.segments.length = t.packageSegments.length + 1 := by simp [segments_eq t]
  have hname := t.join_segments
  rw [segments_eq] at hname
  by_cases hpackage : t.packageSegments = []
  · refine Or.inl ⟨by simp [package?, hlength, hpackage], ?_⟩
    simpa [hpackage, Text.join] using hname.symm
  · refine Or.inr ⟨Text.join ['/'] t.packageSegments, ?_, ?_⟩
    · have hlong := List.length_pos_iff.mpr hpackage
      rw [package?, if_pos (by omega)]
      rfl
    · rw [← hname, Text.join_concat _ _ hpackage]
      simp

def classSteps (t : Target) : List Text := t.packageSegments ++ [t.className]

theorem isPlain_classStep {step : Text} (h : step ∈ t.classSteps) : IsPlain step := by
  rcases List.mem_append.mp h with hfront | hlast
  · exact isPlain_segment (List.mem_of_mem_dropLast hfront)
  · rw [List.mem_singleton.mp hlast]
    exact t.isPlain_className

theorem components_classFile (t : Target) (directory : Path) :
    (t.classFile directory).components = directory.components ++ t.classSteps.map .name :=
  Path.components_foldl_join directory fun _ => isPlain_classStep

theorem classFile_eq (t : Target) (directory : Path) :
    t.classFile directory = ⟨directory.lead ++ t.name ++ ".class"⟩ := by
  have hne : t.classSteps ≠ [] := by simp [classSteps]
  have hjoin : Text.join ['/'] t.classSteps = t.name ++ (".class" : Text) := by
    rw [classSteps, className, Text.join_concat_append, ← segments_eq, join_segments]
    rfl
  rw [List.append_assoc, ← hjoin]
  exact Path.foldl_join_eq directory hne fun _ => isPlain_classStep

theorem classFile_injective {t t' : Target} {directory : Path}
    (h : t.classFile directory = t'.classFile directory) : t.name = t'.name := by
  rw [classFile_eq, classFile_eq, Path.mk.injEq] at h
  exact List.append_cancel_left (List.append_cancel_right h)

/-- A text is the name of a target if and only if it is accepted, and otherwise the first of its
faults is reported. A name is divided at its last slash. Its class file stands below the directory,
one step down for each segment, under a path that is the name with the directory before it, and no
other name has the same class file. -/
theorem parse_and_class_file (name : Text) :
    ((∃ t, parse name = .ok t) ↔ IsAccepted name) ∧
      (∀ e, parse name = .error e ↔ Rejects name e) ∧
      ∀ t, parse name = .ok t →
        '/' ∉ t.simpleName ∧
        (t.package? = none ∧ name = t.simpleName ∨
          ∃ package, t.package? = some package ∧ name = package ++ '/' :: t.simpleName) ∧
        (∀ segment ∈ t.segments, segment ≠ ['.'] ∧ segment ≠ ['.', '.'] ∧
          (⟨segment⟩ : Path).isAbsolute = false) ∧
        ∀ directory : Path,
          (t.classFile directory).text = directory.lead ++ name ++ ".class" ∧
          (t.classFile directory).components = directory.components ++ t.classSteps.map .name ∧
          ∀ other t', parse other = .ok t' →
            t'.classFile directory = t.classFile directory → other = name := by
  refine ⟨⟨?_, ?_⟩, fun e => parse_eq_error_iff, ?_⟩
  · rintro ⟨t, ht⟩
    exact parse_eq_ok_iff.mp ht ▸ isValid_iff.mp t.valid
  · exact fun h => ⟨⟨name, isValid_iff.mpr h⟩, parse_name ⟨name, isValid_iff.mpr h⟩⟩
  · intro t ht
    obtain rfl := parse_eq_ok_iff.mp ht
    refine ⟨t.no_slash_simpleName, t.package?_cases, fun segment hsegment => ?_,
      fun directory => ⟨?_, t.components_classFile directory, ?_⟩⟩
    · have hplain := isPlain_segment hsegment
      exact ⟨hplain.ne_current, hplain.ne_parent, hplain.isAbsolute_eq_false⟩
    · rw [classFile_eq]
    · intro other t' hother hsame
      rw [← parse_eq_ok_iff.mp hother]
      exact classFile_injective hsame

/-- A class two packages deep. -/
def nested : Target where
  name := ("com/example/Multi" : Text)
  valid := {
    ne_nil := by decide
    allowed := fun c hc => by
      have hall : ("com/example/Multi" : Text).all (fun c => !isForbidden c) = true := by decide
      simpa using List.all_eq_true.mp hall c hc
    segments_ne_nil := by decide }

theorem class_file_of_nested : parse ("com/example/Multi" : Text) = .ok nested ∧
    (nested.classFile ⟨"out/"⟩).text = ("out/com/example/Multi.class" : Text) ∧
    (nested.classFile ⟨"out/"⟩).components =
      [.name "out", .name "com", .name "example", .name "Multi.class"] := by
  have hparse : parse ("com/example/Multi" : Text) = .ok nested := nested.parse_name
  obtain ⟨htext, hcomponents, -⟩ :=
    ((parse_and_class_file ("com/example/Multi" : Text)).2.2 nested hparse).2.2.2 ⟨"out/"⟩
  refine ⟨hparse, htext, hcomponents.trans ?_⟩
  decide

end Target
end Bytelink
