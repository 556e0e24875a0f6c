import Bytelink.Build.Target
import Bytelink.Proofs.Instruction
import Bytelink.Proofs.Linking
import Mathlib.Algebra.GroupWithZero.Nat

/-!
# Linked programs piece by piece

The class gets its name in one pass over the whole program, template and bodies together. `Slots`
is the reading of a text that this pass performs: an occurrence of the placeholder is a slot for the
name, every other character is kept. A slot does not extend over a line feed, so a program whose
parts end in line feeds can be named part by part (`nameClass_flatten`).

Naming is not idempotent, since a name may complete the placeholder with what stands around it:
the class `rogue` makes `Progue` of `PProg`. But the name has a part in every such occurrence
(`Slots.overlap`). `ofOffers_link_pieces` puts this together with the substitution of references.
-/
namespace Bytelink

namespace Text

variable {pattern new : Text}

theorem replaceFrom_eq_drop (skip : Nat) (t : Text) :
    replaceFrom pattern new skip t = replaceAll pattern new (t.drop skip) := by
  induction t generalizing skip with
  | nil =>
      rw [List.drop_nil]
      cases skip <;> rfl
  | cons c rest ih =>
      cases skip with
      | zero => rfl
      | succ skip => exact ih skip

theorem replaceAll_append_of_prefix (hp : pattern ≠ []) (rest : Text) :
    replaceAll pattern new (pattern ++ rest) = new ++ replaceAll pattern new rest := by
  obtain ⟨c, tail, rfl⟩ := List.exists_cons_of_ne_nil hp
  have hplaceholder : (c :: tail).isPrefixOf (c :: (tail ++ rest)) = true :=
    List.isPrefixOf_iff_prefix.mpr (List.prefix_append (c :: tail) rest)
  have hskip : (c :: tail).length - 1 = tail.length := Nat.add_sub_cancel _ _
  rw [replaceAll, List.cons_append, replaceFrom, if_pos hplaceholder, hskip, replaceFrom_eq_drop,
    List.drop_left]

end Text

/-- What is read in one step: a character that stays, or a place for the name of the class. -/
inductive Slot
  | kept (c : Char)
  | named
  deriving DecidableEq, Repr

def Slot.fill (className : Text) (slots : List Slot) : Text :=
  slots.flatMap fun
    | kept c => [c]
    | named => className

/-- The reading of a text from left to right. -/
inductive Slots : Text → List Slot → Prop
  | done : Slots [] []
  | named {rest : Text} {slots : List Slot} : Slots rest slots →
      Slots (placeholder ++ rest) (.named :: slots)
  | kept {c : Char} {rest : Text} {slots : List Slot} : ¬ placeholder <+: c :: rest →
      Slots rest slots → Slots (c :: rest) (.kept c :: slots)

variable {slots : List Slot} {t className : Text}

@[simp] theorem Slot.fill_nil : Slot.fill className [] = [] := rfl

@[simp] theorem Slot.fill_kept (c : Char) :
    Slot.fill className (.kept c :: slots) = c :: Slot.fill className slots := rfl

@[simp] theorem Slot.fill_named :
    Slot.fill className (.named :: slots) = className ++ Slot.fill className slots := rfl

/-- Every text has a reading. -/
theorem exists_slots (t : Text) : ∃ slots, Slots t slots := by
  -- By the length of the text, since a slot passes over the whole placeholder.
  induction hlen : t.length using Nat.strongRecOn generalizing t with
  | ind n ih =>
      by_cases hp : placeholder <+: t
      · obtain ⟨rest, rfl⟩ := hp
        have hshort : rest.length < n := by
          rw [← hlen, List.length_append]
          simp [placeholder]
        obtain ⟨slots, h⟩ := ih rest.length hshort rest rfl
        exact ⟨.named :: slots, .named h⟩
      · cases t with
        | nil => exact ⟨[], .done⟩
        | cons c rest =>
            have hshort : rest.length < n := by
              rw [← hlen]
              exact Nat.lt_succ_self _
            obtain ⟨slots, h⟩ := ih rest.length hshort rest rfl
            exact ⟨.kept c :: slots, .kept hp h⟩

theorem Slots.nameClass_eq (h : Slots t slots) :
    nameClass className t = Slot.fill className slots := by
  induction h with
  | done => rfl
  | named _ ih =>
      unfold nameClass at ih ⊢
      rw [Text.replaceAll_append_of_prefix (by decide), ih, Slot.fill_named]
  | kept hno _ ih =>
      unfold nameClass at ih ⊢
      rw [Text.replaceAll_cons_of_not_prefix hno, ih, Slot.fill_kept]

theorem Slots.fill_placeholder (h : Slots t slots) : Slot.fill placeholder slots = t := by
  induction h with
  | done => rfl
  | named _ ih => rw [Slot.fill_named, ih]
  | kept _ _ ih => rw [Slot.fill_kept, ih]

/-- What is written at the front was kept, unless a slot was filled in it. -/
theorem kept_or_named {front back : Text} (h : Slot.fill className slots = front ++ back) :
    front <+: Slot.fill placeholder slots ∨ ∃ before after,
      slots = before ++ .named :: after ∧ (Slot.fill className before).length < front.length := by
  induction front generalizing slots with
  | nil => exact Or.inl List.nil_prefix
  | cons c front ih =>
      cases slots with
      | nil => simp at h
      | cons slot slots =>
          cases slot with
          | named => exact Or.inr ⟨[], slots, rfl, Nat.succ_pos _⟩
          | kept d =>
              rw [Slot.fill_kept, List.cons_append, List.cons.injEq] at h
              obtain ⟨rfl, hrest⟩ := h
              rcases ih hrest with hkept | ⟨before, after, rfl, hlt⟩
              · left
                rw [Slot.fill_kept, List.cons_prefix_cons]
                exact ⟨rfl, hkept⟩
              · right
                refine ⟨.kept d :: before, after, rfl, ?_⟩
                rw [Slot.fill_kept, List.length_cons, List.length_cons]
                exact Nat.succ_lt_succ hlt

/-- Where the placeholder occurs once the class is named, a copy of the name takes part: it begins
before the occurrence ends, and ends after the occurrence begins. -/
theorem Slots.overlap (h : Slots t slots) (hname : className ≠ []) {front back : Text}
    (hwritten : Slot.fill className slots = front ++ placeholder ++ back) :
    ∃ before after, slots = before ++ .named :: after ∧
      (Slot.fill className before).length < front.length + placeholder.length ∧
      front.length < (Slot.fill className before).length + className.length := by
  have hpos : 0 < className.length := List.length_pos_iff.mpr hname
  induction h generalizing front with
  | done => simp [placeholder] at hwritten
  | @named rest slots _ ih =>
      by_cases hlt : front.length < className.length
      · refine ⟨[], slots, rfl, ?_, ?_⟩
        · simp [placeholder]
        · simpa using hlt
      · -- The occurrence begins behind the copy.
        rw [Slot.fill_named, List.append_assoc] at hwritten
        have hcopy : className <+: front ++ (placeholder ++ back) := ⟨_, hwritten⟩
        obtain ⟨later, rfl⟩ :=
          List.prefix_of_prefix_length_le hcopy (List.prefix_append _ _) (Nat.le_of_not_lt hlt)
        rw [List.append_assoc, List.append_cancel_left_eq, ← List.append_assoc] at hwritten
        obtain ⟨before, after, rfl, hbegin, hend⟩ := ih hwritten
        refine ⟨.named :: before, after, rfl, ?_, ?_⟩
        · rw [Slot.fill_named, List.length_append, List.length_append]
          omega
        · rw [Slot.fill_named, List.length_append, List.length_append]
          omega
  | @kept c rest slots hno hrest ih =>
      cases front with
      | nil =>
          rw [List.nil_append] at hwritten
          rcases kept_or_named hwritten with hkept | ⟨before, after, hslots, hlt⟩
          · rw [Slot.fill_kept, hrest.fill_placeholder] at hkept
            exact absurd hkept hno
          · refine ⟨before, after, hslots, ?_, ?_⟩
            · simpa using hlt
            · simpa using Nat.add_pos_right _ hpos
      | cons d front =>
          rw [Slot.fill_kept, List.cons_append, List.cons_append, List.cons.injEq] at hwritten
          obtain ⟨before, after, rfl, hbegin, hend⟩ := ih hwritten.2
          refine ⟨.kept c :: before, after, rfl, ?_, ?_⟩
          · rw [Slot.fill_kept, List.length_cons, List.length_cons]
            omega
          · rw [Slot.fill_kept, List.length_cons, List.length_cons]
            omega

theorem nameClass_append (ha : EndsLine t) (b : Text) :
    nameClass className (t ++ b) = nameClass className t ++ nameClass className b := by
  obtain ⟨front, rfl⟩ := endsLine_iff.mp ha
  have hnil : Text.replaceAll placeholder className [] = [] := rfl
  unfold nameClass
  rw [List.append_assoc, List.singleton_append, Text.replaceAll_append_cons (by decide) (by decide),
    Text.replaceAll_append_cons (by decide) (by decide), hnil, List.append_assoc,
    List.singleton_append]

theorem nameClass_flatten {parts : List Text} (h : ∀ part ∈ parts.dropLast, EndsLine part) :
    nameClass className parts.flatten = parts.flatMap (nameClass className) := by
  induction parts with
  | nil => rfl
  | cons part rest ih =>
      cases rest with
      | nil => simp
      | cons next rest =>
          rw [List.dropLast_cons_cons, List.forall_mem_cons] at h
          rw [List.flatten_cons, nameClass_append h.1, ih h.2]
          rfl

theorem count_nameClass (hname : '\n' ∉ className) (t : Text) :
    (nameClass className t).count '\n' = t.count '\n' := by
  obtain ⟨slots, h⟩ := exists_slots t
  rw [h.nameClass_eq]
  induction h with
  | done => rfl
  | named _ ih =>
      have hplaceholder : placeholder.count '\n' = 0 := by decide
      rw [Slot.fill_named, List.count_append, List.count_append, ih,
        List.count_eq_zero_of_not_mem hname, hplaceholder]
  | kept _ _ ih => rw [Slot.fill_kept, List.count_cons, List.count_cons, ih]

theorem Target.lineFeed_not_mem (target : Target) : '\n' ∉ target.name := by
  intro h
  exact absurd (target.valid.allowed '\n' h) (by decide)

namespace Segment

variable {s : Segment} {pieces : List Piece} {name : Text}

theorem SingleLine.not_mem_reference (h : s.SingleLine) (hscan : s.Scan t pieces)
    (hmem : .reference name ∈ pieces) : '\n' ∉ marker name := by
  induction hscan with
  | done => cases hmem
  | reference _ hchosen _ ih =>
      rcases List.mem_cons.mp hmem with he | hmem
      · obtain rfl := Piece.reference.inj he
        exact h.not_mem_marker hchosen.1.1
      · exact ih hmem
  | kept _ _ ih =>
      rcases List.mem_cons.mp hmem with he | hmem
      · cases he
      · exact ih hmem

theorem count_substitute (hs : s.Sized) (h : s.SingleLine) (t : Text) :
    (s.substitute t).count '\n' = t.count '\n' := by
  obtain ⟨pieces, hscan, hwritten⟩ := hs.exists_scan t
  have hpush : ∀ value, (pushConstant value).count '\n' = 0 := fun value =>
    List.count_eq_zero_of_not_mem (not_mem_pushConstant (by decide) (by decide) (by decide) value)
  rw [hwritten]
  clear hwritten
  induction hscan with
  | done => rfl
  | reference ht hchosen _ ih =>
      have hmarker := List.count_eq_zero_of_not_mem (h.not_mem_marker hchosen.1.1)
      rw [List.flatMap_cons, Piece.written, List.count_append, hpush, ih, ht, List.count_append,
        hmarker]
  | kept _ _ ih =>
      rw [List.flatMap_cons, Piece.written, List.singleton_append, List.count_cons, List.count_cons,
        ih]

end Segment

section

variable {template : Template} {fragments : List Fragment} {segment : Segment}

theorem unnamedText_eq_flatten : unnamedText template fragments segment =
    (template.text :: fragments.map fun f => segment.substitute f.body).flatten := by
  rw [unnamedText, List.flatten_cons, List.flatMap_def]

/-- A program is the template with the class named, and then each body with its references
substituted and the class named. -/
theorem link_text_eq (hs : segment.Sized) (h : segment.SingleLine) (className : Text)
    (htemplate : EndsLine template.text) (hbodies : ∀ f ∈ fragments.dropLast, EndsLine f.body) :
    (link template className fragments segment).text = template.instantiate className ++
      fragments.flatMap fun f => nameClass className (segment.substitute f.body) := by
  have hparts : ∀ part ∈ (template.text ::
      fragments.map fun f => segment.substitute f.body).dropLast, EndsLine part := by
    intro part hpart
    cases hfragments : fragments with
    | nil => simp [hfragments] at hpart
    | cons first rest =>
        rw [List.dropLast_cons_of_ne_nil (by simp [hfragments]), ← List.map_dropLast] at hpart
        rcases List.mem_cons.mp hpart with rfl | hpart
        · exact htemplate
        · obtain ⟨f, hf, rfl⟩ := List.mem_map.mp hpart
          exact Segment.endsLine_substitute hs h (hbodies f hf)
  rw [link, unnamedText_eq_flatten, nameClass_flatten hparts, List.flatMap_cons, List.flatMap_map]
  rfl

theorem count_link (hs : segment.Sized) (h : segment.SingleLine) {className : Text}
    (hname : '\n' ∉ className) : (link template className fragments segment).text.count '\n' =
      template.text.count '\n' + (fragments.map fun f => f.body.count '\n').sum := by
  rw [link, count_nameClass hname, unnamedText, List.count_append, List.count_flatMap]
  simp only [Function.comp_def, Segment.count_substitute hs h]

end

/-- Linking against the segment of any offers works line by line and piece by piece: no reference
is resolved across a line feed, the program is the template with the class named followed by each
body with its references substituted and the class named, it has the line feeds of the template and
the bodies, and every occurrence of the placeholder in it overlaps a copy of the name that naming
the class has put there. -/
theorem ofOffers_link_pieces (offers : List Offer) :
    (∀ a b, a = [] ∨ EndsLine a → (Segment.ofOffers offers).substitute (a ++ b) =
      (Segment.ofOffers offers).substitute a ++ (Segment.ofOffers offers).substitute b) ∧
    (∀ body, ∃ pieces, (Segment.ofOffers offers).Scan body pieces ∧
      (Segment.ofOffers offers).substitute body =
        pieces.flatMap (Piece.written (Segment.ofOffers offers).symbols) ∧
      ∀ name, .reference name ∈ pieces → '\n' ∉ marker name) ∧
    ∀ (template : Template) (target : Target) (fragments : List Fragment),
      EndsLine template.text → (∀ f ∈ fragments.dropLast, EndsLine f.body) →
      (link template target.name fragments (Segment.ofOffers offers)).text =
        template.instantiate target.name ++ fragments.flatMap (fun f =>
          nameClass target.name ((Segment.ofOffers offers).substitute f.body)) ∧
      (link template target.name fragments (Segment.ofOffers offers)).text.count '\n' =
        template.text.count '\n' + (fragments.map fun f => f.body.count '\n').sum ∧
      ∃ slots, Slots (unnamedText template fragments (Segment.ofOffers offers)) slots ∧
        (link template target.name fragments (Segment.ofOffers offers)).text =
          Slot.fill target.name slots ∧
        ∀ front back, (link template target.name fragments (Segment.ofOffers offers)).text =
            front ++ placeholder ++ back →
          ∃ before after, slots = before ++ .named :: after ∧
            (Slot.fill target.name before).length < front.length + placeholder.length ∧
            front.length < (Slot.fill target.name before).length + target.name.length := by
  have hs := Segment.ofOffers_sized offers
  have hsingle := Segment.ofOffers_singleLine offers
  refine ⟨?_, ?_, ?_⟩
  · intro a b ha
    exact Segment.substitute_append hs hsingle ha b
  · intro body
    obtain ⟨pieces, hscan, hwritten⟩ := hs.exists_scan body
    exact ⟨pieces, hscan, hwritten, fun name => hsingle.not_mem_reference hscan⟩
  · intro template target fragments htemplate hbodies
    obtain ⟨slots, hslots⟩ :=
      exists_slots (unnamedText template fragments (Segment.ofOffers offers))
    refine ⟨link_text_eq hs hsingle target.name htemplate hbodies,
      count_link hs hsingle target.lineFeed_not_mem, slots, hslots, hslots.nameClass_eq, ?_⟩
    intro front back htext
    exact hslots.overlap target.valid.ne_nil (hslots.nameClass_eq.symm.trans htext)

def rogueTarget : Target where
  name := "rogue"
  valid :=
    { ne_nil := by decide
      allowed := by
        have hall : ("rogue" : Text).all (!isForbidden ·) = true := by decide
        intro c hc
        simpa using List.all_eq_true.mp hall c hc
      segments_ne_nil := by decide }

/-- The class `rogue` completes the placeholder to its left, and a body without a line feed at its
end may stand last. -/
theorem link_pieces_of_rogue :
    let offers : List Offer := [⟨.standard, "a.c", "A:\n\t.ascii \"xy\"\n"⟩]
    let target := rogueTarget
    let fragments := [Fragment.ofBody "a.c" "\tsymrefAend\n", .ofBody "b.c" "PProg"]
    (link .standard target.name fragments (Segment.ofOffers offers)).text =
        Template.standard.instantiate target.name ++ fragments.flatMap (fun f =>
          nameClass target.name ((Segment.ofOffers offers).substitute f.body)) ∧
      (link .standard target.name fragments (Segment.ofOffers offers)).text.count '\n' =
        Template.standard.text.count '\n' + (fragments.map fun f => f.body.count '\n').sum ∧
      ∃ slots, Slots (unnamedText .standard fragments (Segment.ofOffers offers)) slots ∧
        (link .standard target.name fragments (Segment.ofOffers offers)).text =
          Slot.fill target.name slots ∧
        ∀ front back, (link .standard target.name fragments (Segment.ofOffers offers)).text =
            front ++ placeholder ++ back →
          ∃ before after, slots = before ++ .named :: after ∧
            (Slot.fill target.name before).length < front.length + placeholder.length ∧
            front.length < (Slot.fill target.name before).length + target.name.length := by
  intro offers target fragments
  have htemplate : EndsLine Template.standard.text := by
    unfold EndsLine
    decide +kernel
  have hbodies : ∀ f ∈ fragments.dropLast, EndsLine f.body := by
    unfold EndsLine
    decide
  exact (ofOffers_link_pieces offers).2.2 .standard target fragments htemplate hbodies

/-- The occurrence that the name completes. -/
example : Slot.fill "rogue" [.kept 'P', .named] = "Progue" := by decide

end Bytelink
