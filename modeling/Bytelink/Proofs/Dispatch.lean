import Bytelink.Proofs.Cutting

/-!
# Dispatch of directives

`Directive.Spells` says how a line is written as a directive: what is white space, which is the name
and which is the operand. A line is read by trimming it, dropping its period, cutting it at the
first white space and trimming the rest, and `read?_eq_some_iff` shows that this finds the name and
the operand of every line that has them, and none of any other line. An operand cannot come out
empty: the line has been trimmed before it is cut, so something follows the white space.

What a registry makes of a name depends on the decoders that were registered for that name, and on
the last of them alone (`Registry.Built.get?_eq`).
-/
namespace Bytelink

namespace Text

variable {t name rest before after core : Text}

/-- Where a text is cut, it has its first white space. -/
theorem eq_of_splitAtBlank (h : splitAtBlank t = some (name, rest)) :
    (∀ c ∈ name, isBlank c = false) ∧
      ∃ blank, isBlank blank = true ∧ t = name ++ blank :: rest := by
  induction t generalizing name with
  | nil => simp [splitAtBlank] at h
  | cons c t ih =>
      cases hc : isBlank c with
      | true =>
          simp only [splitAtBlank, hc, if_true, Option.some.injEq, Prod.mk.injEq] at h
          obtain ⟨rfl, rfl⟩ := h
          exact ⟨by simp, c, hc, rfl⟩
      | false =>
          simp only [splitAtBlank, hc, Bool.false_eq_true, if_false] at h
          obtain ⟨⟨front, behind⟩, hsplit, hparts⟩ := Option.map_eq_some_iff.mp h
          obtain ⟨rfl, rfl⟩ := Prod.mk.inj hparts
          obtain ⟨hfront, blank, hblank, rfl⟩ := ih hsplit
          refine ⟨?_, blank, hblank, rfl⟩
          intro d hd
          rcases List.mem_cons.mp hd with rfl | hd
          · exact hc
          · exact hfront d hd

theorem trim_append_blanks (h : ∀ c ∈ after, isBlank c = true) (t : Text) :
    trim (t ++ after) = trim t := by
  induction after using List.reverseRecOn with
  | nil => rw [List.append_nil]
  | append_singleton after c ih =>
      rw [List.forall_mem_append] at h
      rw [← List.append_assoc, trim_append_blank (h.2 c List.mem_cons_self), ih h.1]

theorem exists_blanks_trim (t : Text) : ∃ before after, (∀ c ∈ before, isBlank c = true) ∧
    (∀ c ∈ after, isBlank c = true) ∧ t = before ++ (trim t ++ after) := by
  have hblank : ∀ u : Text, ∀ c ∈ u.takeWhile isBlank, isBlank c = true := fun u =>
    List.all_eq_true.mp List.all_takeWhile
  have hend : trimStart t = trim t ++ ((trimStart t).reverse.takeWhile isBlank).reverse := by
    rw [trim, trimEnd, ← List.reverse_append, List.takeWhile_append_dropWhile, List.reverse_reverse]
  refine ⟨t.takeWhile isBlank, ((trimStart t).reverse.takeWhile isBlank).reverse, hblank t, ?_, ?_⟩
  · intro c hc
    exact hblank _ c (List.mem_reverse.mp hc)
  · rw [← hend, trimStart, List.takeWhile_append_dropWhile]

theorem trim_ne_nil {c : Char} (h : c ∈ t) (hc : isBlank c = false) : trim t ≠ [] := by
  intro hnil
  obtain ⟨before, after, hbefore, hafter, hsplit⟩ := exists_blanks_trim t
  rw [hsplit, hnil, List.nil_append] at h
  have hblank : isBlank c = true := by
    rcases List.mem_append.mp h with hmem | hmem
    · exact hbefore c hmem
    · exact hafter c hmem
  rw [hc] at hblank
  cases hblank

end Text

namespace Directive

/-- How a name is written in front of white space: behind a period, or without one where nothing of
the name is taken for it. -/
def IsLead (lead name : Text) : Prop :=
  lead = '.' :: name ∨ lead = name ∧ name ≠ [] ∧ name.head? ≠ some '.'

/-- The line is a directive with this name and this operand: they are written one after the other
with white space between them, and there may be white space around them. -/
structure Spells (line name operand : Text) : Prop where
  name_unbroken : ∀ c ∈ name, Text.isBlank c = false
  operand_ne_nil : operand ≠ []
  operand_trimmed : Text.trim operand = operand
  written : ∃ before lead gap after : Text, (∀ c ∈ before, Text.isBlank c = true) ∧
    IsLead lead name ∧ (∀ c ∈ gap, Text.isBlank c = true) ∧ gap ≠ [] ∧
    (∀ c ∈ after, Text.isBlank c = true) ∧ line = before ++ (lead ++ (gap ++ (operand ++ after)))

def withoutPeriod (t : Text) : Text :=
  match t with
  | '.' :: rest => rest
  | _ => t

/-- The name and the operand of a line, if it has them. -/
def read? (line : Text) : Option (Text × Text) :=
  (Text.splitAtBlank (withoutPeriod (Text.trim line))).map fun parts => (parts.1, Text.trim parts.2)

variable {line lead name operand rest : Text}

theorem withoutPeriod_of_ne {c : Char} (h : c ≠ '.') (rest : Text) :
    withoutPeriod (c :: rest) = c :: rest := by
  unfold withoutPeriod
  split
  · rename_i hcons
    exact absurd (List.cons.inj hcons).1 h
  · rfl

theorem IsLead.withoutPeriod_append (h : IsLead lead name) (rest : Text) :
    withoutPeriod (lead ++ rest) = name ++ rest := by
  rcases h with rfl | ⟨rfl, hne, hhead⟩
  · rfl
  · obtain ⟨c, more, rfl⟩ := List.exists_cons_of_ne_nil hne
    have hc : c ≠ '.' := fun he => hhead (by rw [he, List.head?_cons])
    rw [List.cons_append, withoutPeriod_of_ne hc]

theorem IsLead.head_not_blank (h : IsLead lead name)
    (hname : ∀ c ∈ name, Text.isBlank c = false) : ∃ c more, lead = c :: more ∧
      Text.isBlank c = false := by
  rcases h with rfl | ⟨rfl, hne, -⟩
  · exact ⟨'.', name, rfl, by decide⟩
  · obtain ⟨c, more, rfl⟩ := List.exists_cons_of_ne_nil hne
    exact ⟨c, more, rfl, hname c List.mem_cons_self⟩

/-- Whatever is left when a period has been dropped was written behind it, or without one. -/
theorem exists_lead {t : Text} {blank : Char} (hblank : Text.isBlank blank = true)
    (hhead : ∀ c, t.head? = some c → Text.isBlank c = false)
    (h : withoutPeriod t = name ++ blank :: rest) :
    ∃ lead, IsLead lead name ∧ t = lead ++ blank :: rest := by
  cases t with
  | nil => simp [withoutPeriod] at h
  | cons c t =>
      by_cases hc : c = '.'
      · subst hc
        have ht : t = name ++ blank :: rest := h
        exact ⟨'.' :: name, Or.inl rfl, by rw [ht, List.cons_append]⟩
      · rw [withoutPeriod_of_ne hc] at h
        refine ⟨name, Or.inr ⟨rfl, ?_, ?_⟩, h⟩
        · intro hnil
          rw [hnil, List.nil_append, List.cons.injEq] at h
          have hnot := hhead c rfl
          rw [h.1, hblank] at hnot
          cases hnot
        · intro hperiod
          obtain ⟨more, rfl⟩ := List.head?_eq_some_iff.mp hperiod
          rw [List.cons_append, List.cons.injEq] at h
          exact hc h.1

/-- What is written as a directive is read as its name and its operand. -/
theorem Spells.read?_eq (h : Spells line name operand) : read? line = some (name, operand) := by
  obtain ⟨before, lead, gap, after, hbefore, hlead, hgap, hne, hafter, rfl⟩ := h.written
  obtain ⟨blank, more, rfl⟩ := List.exists_cons_of_ne_nil hne
  rw [List.forall_mem_cons] at hgap
  have hname : name.any Text.isBlank = false := by
    rw [List.any_eq_false]
    intro c hc
    rw [h.name_unbroken c hc]
    exact Bool.false_ne_true
  have htrim : Text.trim (before ++ (lead ++ (blank :: more ++ (operand ++ after)))) =
      lead ++ (blank :: more ++ operand) := by
    have hassoc : lead ++ (blank :: more ++ (operand ++ after)) =
        lead ++ (blank :: more ++ operand) ++ after := by
      simp only [List.append_assoc]
    rw [Text.trim_blanks_append hbefore, hassoc, Text.trim_append_blanks hafter]
    apply Text.trim_eq_self
    · intro c hc
      obtain ⟨d, tail, rfl, hd⟩ := hlead.head_not_blank h.name_unbroken
      rw [List.cons_append, List.head?_cons] at hc
      exact Option.some.inj hc ▸ hd
    · intro c hc
      rw [List.getLast?_append_of_ne_nil _ (by simp), List.getLast?_append_of_ne_nil _
        h.operand_ne_nil, ← h.operand_trimmed] at hc
      exact Text.isBlank_of_getLast?_trim hc
  have hoperand : Text.trim (more ++ operand) = operand := by
    rw [Text.trim_blanks_append hgap.2, h.operand_trimmed]
  rw [read?, htrim, hlead.withoutPeriod_append, List.cons_append,
    Text.splitAtBlank_append hname hgap.1, Option.map_some, hoperand]

/-- What is read as a name and an operand is written as a directive with them. -/
theorem spells_of_read? (h : read? line = some (name, operand)) : Spells line name operand := by
  obtain ⟨⟨front, rest⟩, hsplit, hparts⟩ := Option.map_eq_some_iff.mp h
  obtain ⟨rfl, rfl⟩ := Prod.mk.inj hparts
  obtain ⟨hname, blank, hblank, hbody⟩ := Text.eq_of_splitAtBlank hsplit
  obtain ⟨lead, hlead, htrim⟩ := exists_lead hblank (fun _ => Text.isBlank_of_head?_trim) hbody
  -- The last character of the trimmed line is not white space, so the cut is not before it.
  have hlast : ∃ c ∈ rest, Text.isBlank c = false := by
    have hwhole : (Text.trim line).getLast? = (blank :: rest).getLast? := by
      rw [htrim, List.getLast?_append_of_ne_nil _ (List.cons_ne_nil _ _)]
    have hsome := List.getLast?_eq_some_getLast (List.cons_ne_nil blank rest)
    have hnot := Text.isBlank_of_getLast?_trim (hwhole.trans hsome)
    rcases List.mem_cons.mp (List.getLast_mem (List.cons_ne_nil blank rest)) with hfirst | hrest
    · rw [hfirst, hblank] at hnot
      cases hnot
    · exact ⟨_, hrest, hnot⟩
  obtain ⟨c, hc, hnot⟩ := hlast
  obtain ⟨before, after, hbefore, hafter, hline⟩ := Text.exists_blanks_trim line
  obtain ⟨gap, tail, hgap, htail, hrest⟩ := Text.exists_blanks_trim rest
  refine ⟨hname, Text.trim_ne_nil hc hnot, Text.trim_trim rest,
    before, lead, blank :: gap, tail ++ after, hbefore, hlead, ?_, List.cons_ne_nil _ _, ?_, ?_⟩
  · exact List.forall_mem_cons.mpr ⟨hblank, hgap⟩
  · exact List.forall_mem_append.mpr ⟨htail, hafter⟩
  · rw [hline, htrim]
    conv => lhs; rw [hrest]
    simp only [List.append_assoc, List.cons_append]

theorem read?_eq_some_iff : read? line = some (name, operand) ↔ Spells line name operand :=
  ⟨spells_of_read?, Spells.read?_eq⟩

end Directive

namespace Registry

/-- The registrations that a registry has been built by, oldest first. -/
inductive Built : List (Text × Decoder) → Registry → Prop
  | empty : Built [] .empty
  | standard : Built [("ascii", Constant.decode)] .standard
  | insert {history : List (Text × Decoder)} {r : Registry} (name : Text) (decoder : Decoder) :
      Built history r → Built (history ++ [(name, decoder)]) (r.insert name decoder)

variable {r other : Registry} {history past front back : List (Text × Decoder)}
  {line name operand : Text} {decoder : Decoder}

theorem decode_eq (r : Registry) (line : Text) : r.decode line =
    (Directive.read? line).elim (.error (.malformedDirective (Text.trim line))) fun parts =>
      (r.get? parts.1).elim (.error (.unimplementedDirective parts.1)) (· parts.2) := by
  rw [Directive.read?, Option.elim_map]
  fun_cases Registry.decode r line with
  | case1 trimmed body hnone =>
      have hsplit : Text.splitAtBlank (Directive.withoutPeriod (Text.trim line)) = none := hnone
      rw [hsplit]
      rfl
  | case2 trimmed body name operand hsome hget =>
      have hsplit : Text.splitAtBlank (Directive.withoutPeriod (Text.trim line)) =
          some (name, operand) := hsome
      simp [hsplit, hget]
  | case3 trimmed body name operand hsome decoder hget =>
      have hsplit : Text.splitAtBlank (Directive.withoutPeriod (Text.trim line)) =
          some (name, operand) := hsome
      simp [hsplit, hget]

/-- The decoders that were registered for a name, oldest first. -/
def decodersFor (name : Text) (history : List (Text × Decoder)) : List Decoder :=
  (history.filter fun entry => entry.1 == name).map (·.2)

theorem mem_decodersFor : decoder ∈ decodersFor name history ↔ (name, decoder) ∈ history := by
  simp only [decodersFor, List.mem_map, List.mem_filter, beq_iff_eq]
  constructor
  · rintro ⟨⟨written, held⟩, ⟨hmem, rfl⟩, rfl⟩
    exact hmem
  · intro hmem
    exact ⟨(name, decoder), ⟨hmem, rfl⟩, rfl⟩

theorem decodersFor_append (name : Text) (front back : List (Text × Decoder)) :
    decodersFor name (front ++ back) = decodersFor name front ++ decodersFor name back := by
  rw [decodersFor, List.filter_append, List.map_append]
  rfl

theorem decodersFor_cons_of_eq {entry : Text × Decoder} (h : entry.1 = name) :
    decodersFor name (entry :: back) = entry.2 :: decodersFor name back := by
  rw [decodersFor, List.filter_cons_of_pos (by simpa using h), List.map_cons]
  rfl

theorem decodersFor_cons_of_ne {entry : Text × Decoder} (h : entry.1 ≠ name) :
    decodersFor name (entry :: back) = decodersFor name back := by
  rw [decodersFor, List.filter_cons_of_neg (by simpa using h)]
  rfl

theorem get?_insert (r : Registry) (written : Text) (decoder : Decoder) (name : Text) :
    (r.insert written decoder).get? name =
      if name = written then some decoder else r.get? name := by
  by_cases hname : name = written
  · rw [if_pos hname, hname]
    exact List.lookup_cons_self
  · rw [if_neg hname]
    change List.lookup name ((written, decoder) :: r.decoders) = List.lookup name r.decoders
    rw [List.lookup_cons, beq_false_of_ne hname]

/-- Registering a decoder makes it the newest of its name and leaves the other names alone. -/
theorem get?_insert_eq (h : r.get? name = (decodersFor name history).getLast?)
    (written : Text) (decoder : Decoder) : (r.insert written decoder).get? name =
      (decodersFor name (history ++ [(written, decoder)])).getLast? := by
  rw [get?_insert, decodersFor_append]
  by_cases hname : name = written
  · subst hname
    have hown : decodersFor name [(name, decoder)] = [decoder] := by simp [decodersFor]
    rw [if_pos rfl, hown, List.getLast?_concat]
  · have hnone : decodersFor name [(written, decoder)] = [] :=
      decodersFor_cons_of_ne (Ne.symm hname)
    rw [if_neg hname, hnone, List.append_nil, h]

theorem Built.get?_eq (h : r.Built history) (name : Text) :
    r.get? name = (decodersFor name history).getLast? := by
  have hempty : Registry.empty.get? name = (decodersFor name []).getLast? := rfl
  induction h with
  | empty => exact hempty
  | standard => exact get?_insert_eq hempty _ _
  | insert written decoder _ ih => exact get?_insert_eq ih written decoder

theorem Built.supports_iff (h : r.Built history) :
    r.supports name = true ↔ ∃ decoder, (name, decoder) ∈ history := by
  rw [supports, h.get?_eq, List.getLast?_isSome]
  constructor
  · intro hne
    obtain ⟨decoder, hmem⟩ := List.exists_mem_of_ne_nil _ hne
    exact ⟨decoder, mem_decodersFor.mp hmem⟩
  · rintro ⟨decoder, hmem⟩
    exact List.ne_nil_of_mem (mem_decodersFor.mpr hmem)

/-- What a registry does with a line that has a name and an operand. -/
theorem Built.decode_eq (h : r.Built history) (hline : Directive.Spells line name operand) :
    r.decode line = (decodersFor name history).getLast?.elim
      (.error (.unimplementedDirective name)) (· operand) := by
  rw [Registry.decode_eq, hline.read?_eq, Option.elim_some, h.get?_eq]

theorem decode_of_not_spells (h : ∀ name operand, ¬ Directive.Spells line name operand)
    (r : Registry) : r.decode line = .error (.malformedDirective (Text.trim line)) := by
  have hread : Directive.read? line = none := by
    rw [Option.eq_none_iff_forall_ne_some]
    intro parts hparts
    exact h parts.1 parts.2 (Directive.read?_eq_some_iff.mp hparts)
  rw [decode_eq, hread, Option.elim_none]

theorem Built.supports_congr (h : r.Built history) (hother : other.Built past)
    (hsame : decodersFor name past = decodersFor name history) :
    other.supports name = r.supports name := by
  rw [supports, supports, h.get?_eq, hother.get?_eq, hsame]

/-- Registries that answer an operand alike for the name of a line do the same with the line. -/
theorem Built.decode_congr (h : r.Built history) (hother : other.Built past)
    (hsame : ∀ name operand, Directive.Spells line name operand →
      (decodersFor name past).map (· operand) = (decodersFor name history).map (· operand)) :
    other.decode line = r.decode line := by
  by_cases hline : ∃ name operand, Directive.Spells line name operand
  · obtain ⟨name, operand, hline⟩ := hline
    have helim : ∀ decoders : List Decoder, decoders.getLast?.elim
        (.error (.unimplementedDirective name)) (· operand) =
          (decoders.map (· operand)).getLast?.getD (.error (.unimplementedDirective name)) := by
      intro decoders
      rw [List.getLast?_map]
      cases decoders.getLast? <;> rfl
    rw [h.decode_eq hline, hother.decode_eq hline, helim, helim, hsame name operand hline]
  · have hnone : ∀ name operand, ¬ Directive.Spells line name operand := by
      intro name operand hspells
      exact hline ⟨name, operand, hspells⟩
    rw [decode_of_not_spells hnone, decode_of_not_spells hnone]

theorem decodersFor_added {added : List (Text × Decoder)} (h : ∀ entry ∈ added, entry.1 ≠ name) :
    decodersFor name (front ++ added ++ back) = decodersFor name (front ++ back) := by
  have hnone : decodersFor name added = [] := by
    rw [List.eq_nil_iff_forall_not_mem]
    intro decoder hmem
    exact h _ (mem_decodersFor.mp hmem) rfl
  rw [decodersFor_append, decodersFor_append, hnone, List.append_nil, decodersFor_append]

theorem decodersFor_exchange {entry next : Text × Decoder} (h : entry.1 ≠ next.1) (name : Text) :
    decodersFor name (front ++ next :: entry :: back) =
      decodersFor name (front ++ entry :: next :: back) := by
  rw [decodersFor_append, decodersFor_append]
  congr 1
  by_cases hentry : entry.1 = name
  · have hnext : next.1 ≠ name := hentry ▸ h.symm
    rw [decodersFor_cons_of_ne hnext, decodersFor_cons_of_eq hentry,
      decodersFor_cons_of_eq hentry, decodersFor_cons_of_ne hnext]
  · by_cases hnext : next.1 = name
    · rw [decodersFor_cons_of_ne hentry, decodersFor_cons_of_eq hnext,
        decodersFor_cons_of_eq hnext, decodersFor_cons_of_ne hentry]
    · rw [decodersFor_cons_of_ne hentry, decodersFor_cons_of_ne hnext,
        decodersFor_cons_of_ne hnext, decodersFor_cons_of_ne hentry]

/-- The same name, with decoders that answer every operand that a line can have in the same way. -/
def Agrees (entry other : Text × Decoder) : Prop :=
  entry.1 = other.1 ∧
    ∀ operand, operand ≠ [] → Text.trim operand = operand → entry.2 operand = other.2 operand

/-- Registrations that agree one by one have the same answers for a name. -/
theorem answers_eq (h : List.Forall₂ Agrees history past) (hne : operand ≠ [])
    (htrim : Text.trim operand = operand) (name : Text) :
    (decodersFor name history).map (· operand) = (decodersFor name past).map (· operand) := by
  induction h with
  | nil => rfl
  | @cons entry new history past hagree _ ih =>
      obtain ⟨hname, hsame⟩ := hagree
      by_cases hown : entry.1 = name
      · rw [decodersFor_cons_of_eq hown, decodersFor_cons_of_eq (hname ▸ hown), List.map_cons,
          List.map_cons, hsame operand hne htrim, ih]
      · rw [decodersFor_cons_of_ne hown, decodersFor_cons_of_ne (hname ▸ hown), ih]

/-- Directives are dispatched by name, whatever the white space between their parts. A registry
supports the names that were registered and no others. A line that has a name and an operand is
decoded by the last decoder that was registered for the name, which is given just the operand, or it
is refused if there is none; a line that has none is malformed. Two registries do the same with a
line if they were given the same decoders in the same order for the name in it, so adding decoders
for other names and exchanging registrations of two names changes nothing. No decoder is asked for
an empty operand or for one with white space around it: decoders that differ there only cannot be
told apart. -/
theorem Built.dispatches (h : r.Built history) :
    (∀ name, r.supports name = true ↔ ∃ decoder, (name, decoder) ∈ history) ∧
    (∀ line name operand, Directive.Spells line name operand →
      r.decode line = (decodersFor name history).getLast?.elim
        (.error (.unimplementedDirective name)) (· operand)) ∧
    (∀ line, (∀ name operand, ¬ Directive.Spells line name operand) →
      r.decode line = .error (.malformedDirective (Text.trim line))) ∧
    (∀ past (other : Registry), other.Built past →
      (∀ name, decodersFor name past = decodersFor name history →
        other.supports name = r.supports name) ∧
      (∀ line, (∀ name operand, Directive.Spells line name operand →
          decodersFor name past = decodersFor name history) →
        other.decode line = r.decode line) ∧
      (List.Forall₂ Agrees past history → ∀ line, other.decode line = r.decode line)) ∧
    (∀ front back added, history = front ++ back →
      ∀ other : Registry, other.Built (front ++ added ++ back) →
      ∀ name, (∀ entry ∈ added, entry.1 ≠ name) →
        other.supports name = r.supports name ∧
        ∀ line operand, Directive.Spells line name operand →
          other.decode line = r.decode line) ∧
    (∀ front back entry next, history = front ++ entry :: next :: back → entry.1 ≠ next.1 →
      ∀ other : Registry, other.Built (front ++ next :: entry :: back) →
        (∀ name, other.supports name = r.supports name) ∧
        ∀ line, other.decode line = r.decode line) := by
  have hdecode : ∀ {past} {other : Registry} {line}, other.Built past →
      (∀ name operand, Directive.Spells line name operand →
        decodersFor name past = decodersFor name history) → other.decode line = r.decode line := by
    intro past other line hother hsame
    apply h.decode_congr hother
    intro name operand hline
    rw [hsame name operand hline]
  refine ⟨fun _ => h.supports_iff, fun _ _ _ => h.decode_eq,
    fun _ hnone => decode_of_not_spells hnone r, ?_, ?_, ?_⟩
  · intro past other hother
    refine ⟨fun _ => h.supports_congr hother, fun _ => hdecode hother, ?_⟩
    intro hagree line
    apply h.decode_congr hother
    intro name operand hline
    exact answers_eq hagree hline.operand_ne_nil hline.operand_trimmed name
  · intro front back added hsplit other hother name hadded
    have hsame : decodersFor name (front ++ added ++ back) = decodersFor name history := by
      rw [hsplit, decodersFor_added hadded]
    refine ⟨h.supports_congr hother hsame, ?_⟩
    intro line operand hline
    rw [hother.decode_eq hline, h.decode_eq hline, hsame]
  · intro front back entry next hsplit hne other hother
    have hsame : ∀ name, decodersFor name (front ++ next :: entry :: back) =
        decodersFor name history := by
      intro name
      rw [hsplit, decodersFor_exchange hne]
    refine ⟨fun name => h.supports_congr hother (hsame name), ?_⟩
    intro line
    exact hdecode hother fun name _ _ => hsame name

/-- A decoder that counts is given the four characters between the white space. -/
theorem Built.dispatches_count :
    let count : Decoder := fun operand => .ok [UInt8.ofNat operand.length]
    let counting := Registry.standard.insert "count" count
    counting.supports "count" = true ∧
      counting.decode "\u2003.count\t\u00a0d\u00e9 x\u3000" = .ok [4] ∧
      counting.decode ".ascii \"a\"" = Registry.standard.decode ".ascii \"a\"" := by
  intro count counting
  have hbuilt : counting.Built [("ascii", Constant.decode), ("count", count)] :=
    .insert _ _ .standard
  have hcount : Directive.Spells "\u2003.count\t\u00a0d\u00e9 x\u3000" "count" "d\u00e9 x" :=
    Directive.read?_eq_some_iff.mp (by decide)
  have hascii : Directive.Spells ".ascii \"a\"" "ascii" "\"a\"" :=
    Directive.read?_eq_some_iff.mp (by decide)
  obtain ⟨hsupports, hdecode, -⟩ := Built.dispatches hbuilt
  obtain ⟨-, -, -, -, hadded, -⟩ := Built.dispatches Built.standard
  refine ⟨(hsupports _).mpr ⟨count, List.mem_cons_of_mem _ List.mem_cons_self⟩, ?_, ?_⟩
  · rw [hdecode _ _ _ hcount]
    rfl
  · obtain ⟨-, hsame⟩ := hadded [_] [] [("count", count)] rfl counting hbuilt "ascii" (by simp)
    exact hsame _ _ hascii

end Registry

end Bytelink
