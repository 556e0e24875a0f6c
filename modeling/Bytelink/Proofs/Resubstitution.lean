import Bytelink.Proofs.Instruction
import Bytelink.Proofs.Scan
import Mathlib.Logic.Function.Iterate

/-!
# Substituting again

What substitution writes is made of kept characters and of instructions. No `symref` and no `end`
overlaps an instruction, so each of them that is written was kept, character by character, from the
text (`exists_kept`), while every reference took at least one `symref` away. So the number of
`symref` bounds the number of passes that change anything.

A kept `symref` still begins no marker of a declared name, unless an instruction was written between
it and its `end`, and then the name contains the whole instruction. White space may stand in names,
so there are such names, and substitution is idempotent exactly for those segments for which no text
is substituted into the marker of a declared name.
-/
namespace Bytelink

namespace Text

/-- The number of places of a text at which a pattern begins. -/
def occurrences (pattern : Text) : Text → Nat
  | [] => if pattern = [] then 1 else 0
  | c :: rest => (if pattern <+: c :: rest then 1 else 0) + occurrences pattern rest

variable {pattern : Text}

theorem occurrences_le_append (front t : Text) :
    occurrences pattern t ≤ occurrences pattern (front ++ t) := by
  induction front with
  | nil => exact Nat.le_refl _
  | cons c front ih => exact Nat.le_trans ih (Nat.le_add_left _ _)

/-- A front at none of whose places the pattern begins adds no occurrence. -/
theorem occurrences_append_of_clear (front t : Text)
    (h : ∀ before after, front = before ++ after → after ≠ [] → ¬ pattern <+: after ++ t) :
    occurrences pattern (front ++ t) = occurrences pattern t := by
  induction front with
  | nil => rfl
  | cons c front ih =>
      have hrest := ih fun before after hsplit => h (c :: before) after (by rw [hsplit]; rfl)
      have hno : ¬ pattern <+: c :: (front ++ t) := h [] (c :: front) rfl (List.cons_ne_nil _ _)
      rw [List.cons_append, occurrences, if_neg hno, Nat.zero_add, hrest]

theorem occurrences_lt_append (hp : pattern ≠ []) (middle t : Text) :
    occurrences pattern t < occurrences pattern (pattern ++ middle ++ t) := by
  obtain ⟨c, tail, rfl⟩ := List.exists_cons_of_ne_nil hp
  have hbegins : c :: tail <+: c :: (tail ++ middle ++ t) := by
    rw [List.append_assoc]
    exact List.prefix_append (c :: tail) _
  have hrest : occurrences (c :: tail) t ≤ occurrences (c :: tail) (tail ++ middle ++ t) :=
    occurrences_le_append _ t
  rw [List.cons_append, List.cons_append, occurrences, if_pos hbegins]
  omega

end Text

section Written

variable {symbols : List Symbol} {pieces : List Piece}

def writtenText (symbols : List Symbol) (pieces : List Piece) : Text :=
  pieces.flatMap (Piece.written symbols)

def sourceText (pieces : List Piece) : Text := pieces.flatMap Piece.source

def keptAll (t : Text) : List Piece := t.map .kept

@[simp] theorem writtenText_nil : writtenText symbols [] = [] := rfl

@[simp] theorem writtenText_kept (c : Char) :
    writtenText symbols (.kept c :: pieces) = c :: writtenText symbols pieces := rfl

@[simp] theorem writtenText_reference (name : Text) :
    writtenText symbols (.reference name :: pieces) =
      pushConstant (baseAddress + sizeBefore name symbols) ++ writtenText symbols pieces := rfl

@[simp] theorem writtenText_append (a b : List Piece) :
    writtenText symbols (a ++ b) = writtenText symbols a ++ writtenText symbols b :=
  List.flatMap_append

@[simp] theorem sourceText_append (a b : List Piece) :
    sourceText (a ++ b) = sourceText a ++ sourceText b := List.flatMap_append

@[simp] theorem sourceText_kept (c : Char) :
    sourceText (.kept c :: pieces) = c :: sourceText pieces := rfl

@[simp] theorem sourceText_reference (name : Text) :
    sourceText (.reference name :: pieces) = marker name ++ sourceText pieces := rfl

@[simp] theorem writtenText_keptAll (t : Text) : writtenText symbols (keptAll t) = t := by
  induction t with
  | nil => rfl
  | cons c t ih => exact congrArg (c :: ·) ih

@[simp] theorem sourceText_keptAll (t : Text) : sourceText (keptAll t) = t := by
  induction t with
  | nil => rfl
  | cons c t ih => exact congrArg (c :: ·) ih

theorem exists_keptAll {front t : Text} (hfront : ∀ c ∈ front, c ≠ 's' ∧ c ≠ 'l')
    (h : writtenText symbols pieces = front ++ t) :
    ∃ rest, pieces = keptAll front ++ rest ∧ writtenText symbols rest = t := by
  induction front generalizing pieces with
  | nil => exact ⟨pieces, rfl, h⟩
  | cons c front ih =>
      cases pieces with
      | nil => simp at h
      | cons piece pieces =>
          cases piece with
          | kept d =>
              rw [writtenText_kept, List.cons_append, List.cons.injEq] at h
              obtain ⟨rest, rfl, hrest⟩ :=
                ih (fun x hx => hfront x (List.mem_cons_of_mem c hx)) h.2
              exact ⟨rest, by rw [h.1]; rfl, hrest⟩
          | reference name =>
              obtain ⟨d, tail, hpush, hd⟩ :=
                pushConstant_head (baseAddress + sizeBefore name symbols)
              rw [writtenText_reference, hpush, List.cons_append, List.cons_append,
                List.cons.injEq] at h
              have hc := hfront c List.mem_cons_self
              rw [← h.1] at hc
              rcases hd with rfl | rfl
              · exact absurd rfl hc.1
              · exact absurd rfl hc.2

/-- No occurrence of the pattern begins inside an instruction, and none of its characters but the
first could begin one. -/
structure Clear (pattern : Text) : Prop where
  outside : ∀ {value before after t}, pushConstant value = before ++ after → after ≠ [] →
    ¬ pattern <+: after ++ t
  tail : ∀ c ∈ pattern.tail, c ≠ 's' ∧ c ≠ 'l'
  ne_nil : pattern ≠ []

theorem clear_markerOpen : Clear markerOpen := by
  refine ⟨?_, by simp [markerOpen], by decide⟩
  rintro value before after t hsplit hne ⟨z, hz⟩
  obtain ⟨c, tail, rfl⟩ := List.exists_cons_of_ne_nil hne
  simp only [markerOpen, List.cons_append, List.cons.injEq] at hz
  obtain ⟨rfl, hz⟩ := hz
  cases tail with
  | nil => exact absurd (isDigit_of_pushConstant_concat hsplit) (by decide)
  | cons d tail =>
      simp only [List.cons_append, List.cons.injEq] at hz
      obtain ⟨rfl, -⟩ := hz
      have hy : 'y' ∉ pushConstant value :=
        not_mem_pushConstant (by decide) (by decide) (by decide) value
      exact hy (by simp [hsplit])

theorem clear_markerClose : Clear markerClose := by
  refine ⟨?_, by simp [markerClose], by decide⟩
  rintro value before after t hsplit hne ⟨z, hz⟩
  obtain ⟨c, tail, rfl⟩ := List.exists_cons_of_ne_nil hne
  simp only [markerClose, List.cons_append, List.cons.injEq] at hz
  obtain ⟨rfl, -⟩ := hz
  have he : 'e' ∉ pushConstant value :=
    not_mem_pushConstant (by decide) (by decide) (by decide) value
  exact he (by simp [hsplit])

/-- An occurrence in what is written was kept, character by character. -/
theorem Clear.exists_kept {pattern x z : Text} (hp : Clear pattern)
    (h : writtenText symbols pieces = x ++ (pattern ++ z)) :
    ∃ before after, pieces = before ++ (keptAll pattern ++ after) ∧
      writtenText symbols before = x ∧ writtenText symbols after = z := by
  induction pieces generalizing x with
  | nil =>
      have hnil := (List.append_eq_nil_iff.mp (List.append_eq_nil_iff.mp h.symm).2).1
      exact absurd hnil hp.ne_nil
  | cons piece pieces ih =>
      cases piece with
      | kept c =>
          cases x with
          | nil =>
              obtain ⟨d, tail, rfl⟩ := List.exists_cons_of_ne_nil hp.ne_nil
              rw [writtenText_kept, List.nil_append, List.cons_append, List.cons.injEq] at h
              obtain ⟨rest, rfl, hrest⟩ := exists_keptAll hp.tail h.2
              exact ⟨[], rest, by rw [h.1]; rfl, rfl, hrest⟩
          | cons d x =>
              rw [writtenText_kept, List.cons_append, List.cons.injEq] at h
              obtain ⟨before, after, rfl, hx, hz⟩ := ih h.2
              exact ⟨.kept c :: before, after, rfl, by rw [writtenText_kept, hx, h.1], hz⟩
      | reference name =>
          rw [writtenText_reference] at h
          -- The occurrence begins behind the instruction, since it does not begin inside.
          have hbehind : ∃ x', x = pushConstant (baseAddress + sizeBefore name symbols) ++ x' ∧
              writtenText symbols pieces = x' ++ (pattern ++ z) := by
            rcases List.append_eq_append_iff.mp h with ⟨x', hx, hrest⟩ | ⟨inside, hinside, hz⟩
            · exact ⟨x', hx, hrest⟩
            · by_cases hne : inside = []
              · subst hne
                exact ⟨[], by simpa using hinside.symm, by simpa using hz.symm⟩
              · exact absurd ⟨z, hz⟩ (hp.outside hinside hne)
          obtain ⟨x', hx, hrest⟩ := hbehind
          obtain ⟨before, after, rfl, hx', hz⟩ := ih hrest
          exact ⟨.reference name :: before, after, rfl, by rw [writtenText_reference, hx', hx], hz⟩

theorem eq_nil_of_writtenText_eq_nil (h : writtenText symbols pieces = []) : pieces = [] := by
  cases pieces with
  | nil => rfl
  | cons piece pieces =>
      cases piece with
      | kept c => simp at h
      | reference name =>
          obtain ⟨c, tail, hpush, -⟩ := pushConstant_head (baseAddress + sizeBefore name symbols)
          simp [hpush] at h

theorem keptAll_or_reference (pieces : List Piece) : ∃ front, pieces = keptAll front ∨
    ∃ name rest, pieces = keptAll front ++ .reference name :: rest := by
  induction pieces with
  | nil => exact ⟨[], Or.inl rfl⟩
  | cons piece pieces ih =>
      cases piece with
      | kept c =>
          obtain ⟨front, rfl | ⟨name, rest, rfl⟩⟩ := ih
          · exact ⟨c :: front, Or.inl rfl⟩
          · exact ⟨c :: front, Or.inr ⟨name, rest, rfl⟩⟩
      | reference name => exact ⟨[], Or.inr ⟨name, pieces, rfl⟩⟩

def references : List Piece → Nat
  | [] => 0
  | .kept _ :: rest => references rest
  | .reference _ :: rest => references rest + 1

theorem references_pos {name : Text} (h : .reference name ∈ pieces) : 0 < references pieces := by
  induction pieces with
  | nil => simp at h
  | cons piece pieces ih =>
      cases piece with
      | kept c => exact ih (by simpa using h)
      | reference other => exact Nat.succ_pos _

/-- Writing makes no `symref`, and every reference takes one away. -/
theorem occurrences_writtenText_add_references_le (symbols : List Symbol) (pieces : List Piece) :
    Text.occurrences markerOpen (writtenText symbols pieces) + references pieces ≤
      Text.occurrences markerOpen (sourceText pieces) := by
  induction pieces with
  | nil => exact Nat.le_refl _
  | cons piece pieces ih =>
      cases piece with
      | kept c =>
          have hopen : markerOpen <+: c :: writtenText symbols pieces →
              markerOpen <+: c :: sourceText pieces := by
            rintro ⟨z, hz⟩
            have hbegin : writtenText symbols (.kept c :: pieces) = [] ++ (markerOpen ++ z) :=
              hz.symm
            obtain ⟨before, after, hsplit, hbefore, -⟩ := clear_markerOpen.exists_kept hbegin
            rw [eq_nil_of_writtenText_eq_nil hbefore, List.nil_append] at hsplit
            rw [← sourceText_kept, hsplit, sourceText_append, sourceText_keptAll]
            exact List.prefix_append _ _
          rw [writtenText_kept, sourceText_kept, references]
          simp only [Text.occurrences]
          by_cases hp : markerOpen <+: c :: writtenText symbols pieces
          · rw [if_pos hp, if_pos (hopen hp)]
            omega
          · rw [if_neg hp]
            omega
      | reference name =>
          have hclear : Text.occurrences markerOpen
              (writtenText symbols (.reference name :: pieces)) =
                Text.occurrences markerOpen (writtenText symbols pieces) :=
            Text.occurrences_append_of_clear _ _ fun _ _ => clear_markerOpen.outside
          have hgone : Text.occurrences markerOpen (sourceText pieces) <
              Text.occurrences markerOpen (marker name ++ sourceText pieces) :=
            Text.occurrences_lt_append (by decide) (name ++ markerClose) (sourceText pieces)
          rw [hclear, sourceText_reference, references]
          omega

end Written

namespace Segment

variable {s : Segment} {name t : Text} {pieces : List Piece}

theorem Scan.sourceText_eq (h : s.Scan t pieces) : sourceText pieces = t := h.source

theorem Fits.append (h : s.Fits name t) (more : Text) : s.Fits name (t ++ more) :=
  ⟨h.1, h.2.trans (List.prefix_append t more)⟩

theorem Scan.of_append_right {front back : List Piece} (h : s.Scan t (front ++ back)) :
    s.Scan (sourceText back) back := by
  induction front generalizing t with
  | nil =>
      have hsource := h.sourceText_eq
      rw [List.nil_append] at h hsource
      exact hsource.symm ▸ h
  | cons piece front ih =>
      cases h with
      | reference _ _ hrest => exact ih hrest
      | kept _ hrest => exact ih hrest

/-- The earlier pieces of a scan are the scan of the earlier text: what fits there fits in the whole
text as well. -/
theorem Scan.of_append_left {front back : List Piece} (h : s.Scan t (front ++ back)) :
    s.Scan (sourceText front) front := by
  induction front generalizing t with
  | nil => exact .done
  | cons piece front ih =>
      have hsource := h.sourceText_eq
      cases h with
      | @reference _ name rest _ ht hchosen hrest =>
          rw [List.cons_append, sourceText_reference, sourceText_append,
            ← List.append_assoc] at hsource
          refine .reference rfl ⟨⟨hchosen.1.1, List.prefix_append _ _⟩, ?_⟩ (ih hrest)
          intro other hother
          exact hchosen.2 other (hsource ▸ hother.append (sourceText back))
      | @kept c rest _ hno hrest =>
          rw [List.cons_append, sourceText_kept, sourceText_append, ← List.cons_append] at hsource
          refine .kept ?_ (ih hrest)
          intro other hother
          exact hno other (hsource ▸ hother.append (sourceText back))

theorem Scan.not_keptAll_marker (h : s.Scan t (keptAll (marker name) ++ pieces))
    (hname : name ∈ s.names) : False := by
  have hsource := h.sourceText_eq
  rw [sourceText_append, sourceText_keptAll] at hsource
  cases h with
  | kept hno _ => exact hno name ⟨hname, hsource ▸ List.prefix_append _ _⟩

/-- The pieces that write a declared marker: its beginning and its end were kept, and between them
stands an instruction of a name that is declared too. -/
theorem Scan.exists_of_written_marker (h : s.Scan t pieces) (hname : name ∈ s.names) {x z : Text}
    (hwritten : writtenText s.symbols pieces = x ++ (marker name ++ z)) :
    ∃ before middle after, pieces = before ++ (middle ++ after) ∧
      writtenText s.symbols middle = marker name ∧
      ∃ front other back, name = front ++
        (pushConstant (baseAddress + sizeBefore other s.symbols) ++ back) ∧ other ∈ s.names := by
  rw [marker, List.append_assoc, List.append_assoc] at hwritten
  obtain ⟨before, behind, rfl, -, hbehind⟩ := clear_markerOpen.exists_kept hwritten
  obtain ⟨inside, after, rfl, hinside, -⟩ := clear_markerClose.exists_kept hbehind
  refine ⟨before, keptAll markerOpen ++ (inside ++ keptAll markerClose), after, by simp, ?_, ?_⟩
  · rw [writtenText_append, writtenText_append, writtenText_keptAll, writtenText_keptAll,
      hinside, marker]
  · have hbegin := h.of_append_right
    obtain ⟨front, rfl | ⟨other, rest, rfl⟩⟩ := keptAll_or_reference inside
    · rw [writtenText_keptAll] at hinside
      subst hinside
      have hwhole : keptAll markerOpen ++ (keptAll front ++ (keptAll markerClose ++ after)) =
          keptAll (marker front) ++ after := by
        simp [keptAll, marker]
      rw [hwhole] at hbegin
      exact (hbegin.not_keptAll_marker hname).elim
    · refine ⟨front, other, writtenText s.symbols rest, ?_, ?_⟩
      · rw [← hinside, writtenText_append, writtenText_keptAll, writtenText_reference]
      · have hrest := hbegin.of_append_right
        rw [List.append_assoc] at hrest
        cases hrest.of_append_right with
        | reference _ hchosen _ => exact hchosen.1.1

theorem Sized.exists_writtenText (h : s.Sized) (t : Text) :
    ∃ pieces, s.Scan t pieces ∧ s.substitute t = writtenText s.symbols pieces := h.exists_scan t

theorem Sized.exists_address (h : s.Sized) (hname : name ∈ s.names) :
    ∃ entry ∈ s.layout, entry.address = baseAddress + sizeBefore name s.symbols := by
  obtain ⟨entry, hfind⟩ := exists_find_layout hname
  refine ⟨entry, List.mem_of_find?_eq_some hfind, ?_⟩
  rw [Placed.address, h.offset_of_find? hfind, sizeBefore]

/-- Substitution writes no `symref` that was not there, and one less if it changes anything. -/
theorem Sized.occurrences_substitute (h : s.Sized) (t : Text) :
    Text.occurrences markerOpen (s.substitute t) ≤ Text.occurrences markerOpen t ∧
      (s.substitute t ≠ t →
        Text.occurrences markerOpen (s.substitute t) < Text.occurrences markerOpen t) := by
  obtain ⟨pieces, hscan, hwritten⟩ := h.exists_writtenText t
  have hsource := hscan.sourceText_eq
  have hcount := occurrences_writtenText_add_references_le s.symbols pieces
  rw [← hwritten, hsource] at hcount
  refine ⟨by omega, fun hne => ?_⟩
  obtain ⟨front, rfl | ⟨name, rest, rfl⟩⟩ := keptAll_or_reference pieces
  · rw [writtenText_keptAll] at hwritten
    rw [sourceText_keptAll] at hsource
    exact absurd (hwritten.trans hsource) hne
  · have hmem : .reference name ∈ keptAll front ++ .reference name :: rest := by simp
    have hpos := references_pos hmem
    omega

/-- Substitution leaves exactly those texts unchanged in which no declared marker stands. -/
theorem Sized.substitute_eq_self_iff (h : s.Sized) :
    s.substitute t = t ↔ ∀ name ∈ s.names, ¬ marker name <:+: t := by
  obtain ⟨pieces, hscan, hwritten⟩ := h.exists_writtenText t
  have hsource := hscan.sourceText_eq
  constructor
  · rintro hsame name hname ⟨x, z, hxz⟩
    have hmarker : writtenText s.symbols pieces = x ++ (marker name ++ z) := by
      rw [← hwritten, hsame, ← hxz, List.append_assoc]
    obtain ⟨front, rfl | ⟨other, rest, rfl⟩⟩ := keptAll_or_reference pieces
    · -- Everything was kept, so the marker stands in the scanned text as well.
      rw [writtenText_keptAll] at hmarker
      have hsplit : keptAll front = keptAll x ++ (keptAll (marker name) ++ keptAll z) := by
        simp [hmarker, keptAll]
      rw [hsplit] at hscan
      exact hscan.of_append_right.not_keptAll_marker hname
    · have hcount := occurrences_writtenText_add_references_le s.symbols
        (keptAll front ++ .reference other :: rest)
      have hmem : .reference other ∈ keptAll front ++ .reference other :: rest := by simp
      have hpos := references_pos hmem
      rw [← hwritten, hsource, hsame] at hcount
      omega
  · intro hnone
    obtain ⟨front, rfl | ⟨other, rest, rfl⟩⟩ := keptAll_or_reference pieces
    · rw [hwritten, writtenText_keptAll, ← hsource, sourceText_keptAll]
    · have hbegin := hscan.of_append_right
      cases hbegin with
      | reference _ hchosen _ =>
          refine absurd ?_ (hnone other hchosen.1.1)
          rw [← hsource]
          exact ⟨front, sourceText rest, by simp⟩

/-- A pass that changes nothing has been reached once there were as many passes as there is
`symref`. -/
theorem Sized.substitute_iterate_fixed (h : s.Sized) {passes : Nat}
    (hpasses : Text.occurrences markerOpen t ≤ passes) :
    s.substitute (s.substitute^[passes] t) = s.substitute^[passes] t := by
  induction passes generalizing t with
  | zero =>
      refine Decidable.byContradiction fun hne => ?_
      have hlt := (h.occurrences_substitute t).2 hne
      omega
  | succ passes ih =>
      by_cases hsame : s.substitute t = t
      · rw [Function.iterate_fixed hsame, hsame]
      · have hlt := (h.occurrences_substitute t).2 hsame
        rw [Function.iterate_succ_apply]
        exact ih (by omega)

/-- If a second pass changes the text, the first has written the marker of a declared name. This
marker is what some text is substituted into, and its name contains an instruction. -/
theorem Sized.exists_marker_of_second_pass (h : s.Sized)
    (hne : s.substitute (s.substitute t) ≠ s.substitute t) :
    ∃ name ∈ s.names, (∃ t', s.substitute t' = marker name) ∧
      ∃ entry ∈ s.layout, pushConstant entry.address <:+: name := by
  rw [ne_eq, h.substitute_eq_self_iff] at hne
  simp only [Classical.not_forall, Classical.not_not, exists_prop] at hne
  obtain ⟨name, hname, x, z, hxz⟩ := hne
  obtain ⟨pieces, hscan, hwritten⟩ := h.exists_writtenText t
  rw [hwritten, List.append_assoc] at hxz
  obtain ⟨before, middle, after, rfl, hmiddle, front, other, back, hsplit, hother⟩ :=
    hscan.exists_of_written_marker hname hxz.symm
  refine ⟨name, hname, ⟨sourceText middle, ?_⟩, ?_⟩
  · have hpart := hscan.of_append_right.of_append_left
    obtain ⟨pieces, hscan', hwritten'⟩ := h.exists_writtenText (sourceText middle)
    rw [hwritten', hscan'.unique hpart, hmiddle]
  · obtain ⟨entry, hentry, haddress⟩ := h.exists_address hother
    refine ⟨entry, hentry, front, back, ?_⟩
    rw [haddress, hsplit, List.append_assoc]

theorem Sized.substitute_marker_ne (h : s.Sized) (hname : name ∈ s.names) :
    s.substitute (marker name) ≠ marker name := by
  rw [ne_eq, h.substitute_eq_self_iff]
  exact fun hnone => hnone name hname List.infix_rfl

/-- Substitution is idempotent exactly for the segments for which no text is substituted into the
marker of a declared name. This is so in particular if no declared name contains the instruction
that pushes the address of a symbol. -/
theorem ofOffers_substitute_idempotent_iff (offers : List Offer) :
    ((∀ body, (ofOffers offers).substitute ((ofOffers offers).substitute body) =
        (ofOffers offers).substitute body) ↔
      ∀ name ∈ (ofOffers offers).names, ∀ body,
        (ofOffers offers).substitute body ≠ marker name) ∧
    ((∀ name ∈ (ofOffers offers).names, ∀ entry ∈ (ofOffers offers).layout,
        ¬ pushConstant entry.address <:+: name) →
      ∀ body, (ofOffers offers).substitute ((ofOffers offers).substitute body) =
        (ofOffers offers).substitute body) := by
  have hs := ofOffers_sized offers
  refine ⟨⟨?_, ?_⟩, ?_⟩
  · intro hidem name hname body hbody
    have htwice := hidem body
    rw [hbody] at htwice
    exact hs.substitute_marker_ne hname htwice
  · intro hnone body
    refine Decidable.byContradiction fun hne => ?_
    obtain ⟨name, hname, ⟨body', hbody'⟩, -⟩ := hs.exists_marker_of_second_pass hne
    exact hnone name hname body' hbody'
  · intro hnone body
    refine Decidable.byContradiction fun hne => ?_
    obtain ⟨name, hname, -, entry, hentry, hpart⟩ := hs.exists_marker_of_second_pass hne
    exact hnone name hname entry hentry hpart

/-- Two passes agree for names with white space in which no instruction stands. -/
theorem substitute_idempotent_for_spaced_names :
    let offers : List Offer := [⟨.standard, "unit", "A b:\n\t.ascii \"xy\"\nsipush 1:\n"⟩]
    let body : Text := "symrefsymrefA bendend"
    (∀ name ∈ (ofOffers offers).names, ∀ entry ∈ (ofOffers offers).layout,
      ¬ pushConstant entry.address <:+: name) ∧
    (ofOffers offers).substitute ((ofOffers offers).substitute body) =
      (ofOffers offers).substitute body := by
  intro offers body
  have hnames : ∀ name ∈ (ofOffers offers).names, ∀ entry ∈ (ofOffers offers).layout,
      ¬ pushConstant entry.address <:+: name := by
    decide +kernel
  exact ⟨hnames, (ofOffers_substitute_idempotent_iff offers).2 hnames body⟩

/-- Substitution is not idempotent for all segments: with a symbol `A` at the first address and the
instruction for this address as another name, the first pass over `symrefsymrefAendend` writes a
marker, which the second replaces. -/
theorem substitute_not_idempotent :
    ¬ ∀ (listing body : Text), (ofOffers [⟨.standard, "unit", listing⟩]).substitute
        ((ofOffers [⟨.standard, "unit", listing⟩]).substitute body) =
      (ofOffers [⟨.standard, "unit", listing⟩]).substitute body := by
  intro hall
  exact absurd (hall "A:\nsipush 4096:\n" "symrefsymrefAendend") (by decide +kernel)

/-- Passes never make a `symref`, and one that changes the text takes one away at least. So the text
is settled after as many passes as it has `symref`, and after the first pass unless a declared name
contains the instruction that pushes the address of a symbol. -/
theorem ofOffers_substitute_converges (offers : List Offer) (body : Text) :
    Text.occurrences markerOpen ((ofOffers offers).substitute body) ≤
      Text.occurrences markerOpen body ∧
    ((ofOffers offers).substitute body ≠ body →
      Text.occurrences markerOpen ((ofOffers offers).substitute body) <
        Text.occurrences markerOpen body) ∧
    (∀ passes, Text.occurrences markerOpen body ≤ passes →
      (ofOffers offers).substitute ((ofOffers offers).substitute^[passes] body) =
        (ofOffers offers).substitute^[passes] body) ∧
    ((ofOffers offers).substitute ((ofOffers offers).substitute body) ≠
        (ofOffers offers).substitute body →
      ∃ name ∈ (ofOffers offers).names, ∃ entry ∈ (ofOffers offers).layout,
        pushConstant entry.address <:+: name) ∧
    ((∀ name ∈ (ofOffers offers).names, ' ' ∉ name) →
      (ofOffers offers).substitute ((ofOffers offers).substitute body) =
        (ofOffers offers).substitute body) := by
  have hs := ofOffers_sized offers
  obtain ⟨hle, hlt⟩ := hs.occurrences_substitute body
  refine ⟨hle, hlt, fun passes => hs.substitute_iterate_fixed, ?_, ?_⟩
  · intro hne
    obtain ⟨name, hname, -, hinstruction⟩ := hs.exists_marker_of_second_pass hne
    exact ⟨name, hname, hinstruction⟩
  · intro hspace
    refine Decidable.byContradiction fun hne => ?_
    obtain ⟨name, hname, -, entry, -, hpart⟩ := hs.exists_marker_of_second_pass hne
    exact hspace name hname (hpart.mem (space_mem_pushConstant entry.address))

/-- A text that the first two passes change, and one that is settled after the first. -/
theorem substitute_settles_after_two_passes :
    let s := ofOffers [⟨.standard, "unit", "A:\nsipush 4096:\n"⟩]
    let body : Text := "symrefsymrefAendend"
    let spaceless := ofOffers [⟨.standard, "unit", "A:\nAend:\n"⟩]
    (Text.occurrences markerOpen (s.substitute body) < Text.occurrences markerOpen body ∧
      s.substitute (s.substitute^[2] body) = s.substitute^[2] body ∧
      ∃ name ∈ s.names, ∃ entry ∈ s.layout, pushConstant entry.address <:+: name) ∧
    spaceless.substitute (spaceless.substitute body) = spaceless.substitute body := by
  intro s body spaceless
  obtain ⟨-, hlt, hfixed, hname, -⟩ :=
    ofOffers_substitute_converges [⟨.standard, "unit", "A:\nsipush 4096:\n"⟩] body
  refine ⟨⟨hlt (by decide +kernel), hfixed 2 (by decide), hname (by decide +kernel)⟩, ?_⟩
  exact (ofOffers_substitute_converges [⟨.standard, "unit", "A:\nAend:\n"⟩] body).2.2.2.2
    (by decide +kernel)

end Segment

end Bytelink
