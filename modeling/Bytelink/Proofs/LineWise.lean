import Bytelink.Proofs.Scan

/-!
# Substitution works line by line

No declared name contains a line feed, since a name is cut out of one row of a listing. So no
marker extends over a line feed, the scan of a text is the scan of its lines one after another, and
a line that is the marker of a declared name is replaced as a whole whatever stands around it and
whatever other names are declared.
-/
namespace Bytelink

def EndsLine (t : Text) : Prop := t.getLast? = some '\n'

theorem endsLine_iff {t : Text} : EndsLine t ↔ ∃ front, t = front ++ ['\n'] :=
  List.getLast?_eq_some_iff

theorem EndsLine.append_left {t : Text} (h : EndsLine t) (front : Text) :
    EndsLine (front ++ t) := by
  obtain ⟨rest, rfl⟩ := endsLine_iff.mp h
  exact endsLine_iff.mpr ⟨front ++ rest, (List.append_assoc _ _ _).symm⟩

theorem Text.prefix_append_cons_iff {pattern t rest : Text} {c : Char} (h : c ∉ pattern) :
    pattern <+: t ++ c :: rest ↔ pattern <+: t := by
  constructor
  · intro hp
    rcases List.prefix_or_prefix_of_prefix hp (List.prefix_append t (c :: rest)) with hle | hle
    · exact hle
    · obtain ⟨extra, rfl⟩ := hle
      rw [List.prefix_append_right_inj] at hp
      cases extra with
      | nil => simp
      | cons d extra =>
          obtain ⟨rfl, -⟩ := List.cons_prefix_cons.mp hp
          exact absurd (by simp) h
  · exact fun hp => hp.trans (List.prefix_append t (c :: rest))

namespace Grammar

theorem not_mem_of_mem_rows {text row : Text} (h : row ∈ rows text) : '\n' ∉ row := by
  obtain ⟨piece, hpiece, rfl⟩ := List.mem_map.mp h
  exact fun hn => Text.not_mem_of_mem_splitOn hpiece (Text.mem_of_mem_trim hn)

theorem mem_of_mem_name {c : Char} {row : Text} (h : c ∈ name row) : c ∈ row :=
  (List.takeWhile_sublist _).mem (Text.mem_of_mem_trim h)

theorem exists_label_of_mem_symbols {registry : Registry} {rs : List Text} {symbol : Symbol}
    (h : symbol ∈ symbols registry rs) : ∃ row ∈ rs, IsLabel row ∧ symbol.name = name row := by
  induction rs with
  | nil => simp [symbols] at h
  | cons first rest ih =>
      by_cases hf : IsLabel first
      · simp only [symbols, hf, if_true, List.mem_cons] at h
        rcases h with rfl | h
        · exact ⟨first, List.mem_cons_self, hf, rfl⟩
        · obtain ⟨row, hrow, hl⟩ := ih h
          exact ⟨row, List.mem_cons_of_mem _ hrow, hl⟩
      · simp only [symbols, hf, if_false] at h
        obtain ⟨row, hrow, hl⟩ := ih h
        exact ⟨row, List.mem_cons_of_mem _ hrow, hl⟩

end Grammar

namespace Segment

/-- No declared name contains a line feed. -/
def SingleLine (s : Segment) : Prop := ∀ name ∈ s.names, '\n' ∉ name

variable {s : Segment} {name t : Text}

theorem SingleLine.offer (h : s.SingleLine) (o : Offer) : (s.offer o).SingleLine := by
  rcases offer_cases s o with hsame | hok
  · rwa [hsame]
  · obtain ⟨-, hsymbols, -⟩ := Grammar.append_eq_ok_iff.mp hok
    intro name hname
    rw [names, hsymbols, List.map_append, List.mem_append] at hname
    rcases hname with hold | hnew
    · exact h name hold
    · obtain ⟨symbol, hmem, rfl⟩ := List.mem_map.mp hnew
      obtain ⟨row, hrow, -, hlabel⟩ := Grammar.exists_label_of_mem_symbols hmem
      rw [hlabel]
      exact fun hn => Grammar.not_mem_of_mem_rows hrow (Grammar.mem_of_mem_name hn)

theorem ofOffers_singleLine (offers : List Offer) : (ofOffers offers).SingleLine :=
  ofOffers_invariant (P := SingleLine) (by simp [SingleLine, names, empty])
    (fun _ o hs => hs.offer o) offers

theorem SingleLine.not_mem_marker (h : s.SingleLine) (hname : name ∈ s.names) :
    '\n' ∉ marker name := by
  simp only [marker, List.mem_append, not_or]
  exact ⟨by decide, h name hname, by decide⟩

theorem SingleLine.fits_append (h : s.SingleLine) (name t rest : Text) :
    s.Fits name (t ++ '\n' :: rest) ↔ s.Fits name t := by
  constructor
  · rintro ⟨hname, hp⟩
    exact ⟨hname, (Text.prefix_append_cons_iff (h.not_mem_marker hname)).mp hp⟩
  · rintro ⟨hname, hp⟩
    exact ⟨hname, (Text.prefix_append_cons_iff (h.not_mem_marker hname)).mpr hp⟩

theorem SingleLine.chosen_append (h : s.SingleLine) (hchosen : s.Chosen name t) (rest : Text) :
    s.Chosen name (t ++ '\n' :: rest) := by
  refine ⟨(h.fits_append name t rest).mpr hchosen.1, ?_⟩
  intro other hother
  exact hchosen.2 other ((h.fits_append other t rest).mp hother)

/-- The scan of a text goes on after a line feed as if the text began there. -/
theorem Scan.append_line (h : s.SingleLine) {rest : Text} {pieces others : List Piece}
    (ht : s.Scan t pieces) (hrest : s.Scan rest others) :
    s.Scan (t ++ '\n' :: rest) (pieces ++ .kept '\n' :: others) := by
  induction ht with
  | done =>
      refine .kept ?_ hrest
      intro name hfits
      obtain ⟨after, hafter⟩ := hfits.head
      simp [markerOpen] at hafter
  | reference ht hchosen _ ih =>
      refine .reference ?_ (h.chosen_append hchosen rest) ih
      rw [ht, List.append_assoc]
  | @kept c line pieces hno _ ih =>
      refine .kept ?_ ih
      intro name hfits
      exact hno name ((h.fits_append name (c :: line) rest).mp hfits)

theorem substitute_append_line (hs : s.Sized) (h : s.SingleLine) (a b : Text) :
    s.substitute (a ++ '\n' :: b) = s.substitute a ++ '\n' :: s.substitute b := by
  obtain ⟨pieces, ha, hwrittena⟩ := hs.exists_scan a
  obtain ⟨others, hb, hwrittenb⟩ := hs.exists_scan b
  obtain ⟨whole, hab, hwritten⟩ := hs.exists_scan (a ++ '\n' :: b)
  rw [hwritten, hab.unique (ha.append_line h hb), hwrittena, hwrittenb, List.flatMap_append,
    List.flatMap_cons, Piece.written, List.singleton_append]

theorem substitute_append (hs : s.Sized) (h : s.SingleLine) {a : Text}
    (ha : a = [] ∨ EndsLine a) (b : Text) :
    s.substitute (a ++ b) = s.substitute a ++ s.substitute b := by
  rcases ha with rfl | ha
  · rw [substitute_nil, List.nil_append, List.nil_append]
  · obtain ⟨front, rfl⟩ := endsLine_iff.mp ha
    rw [List.append_assoc, List.singleton_append, substitute_append_line hs h,
      substitute_append_line hs h, substitute_nil, List.append_assoc, List.singleton_append]

theorem endsLine_substitute (hs : s.Sized) (h : s.SingleLine) (ht : EndsLine t) :
    EndsLine (s.substitute t) := by
  obtain ⟨front, rfl⟩ := endsLine_iff.mp ht
  rw [substitute_append_line hs h, substitute_nil]
  exact endsLine_iff.mpr ⟨_, rfl⟩

theorem chosen_marker (hname : name ∈ s.names) : s.Chosen name (marker name) := by
  refine ⟨⟨hname, List.prefix_rfl⟩, ?_⟩
  intro other hother
  have hle := hother.2.length_le
  rw [length_marker, length_marker] at hle
  omega

/-- A line that is the marker of a declared name after some indentation is replaced as a whole. -/
theorem substitute_marker_line (hs : s.Sized) (hname : name ∈ s.names) {indent : Text}
    (hindent : 's' ∉ indent) : s.substitute (indent ++ marker name) =
      indent ++ pushConstant (baseAddress + sizeBefore name s.symbols) := by
  rw [substitute_append_of_no_s hindent,
    hs.substitute_reference (List.append_nil _).symm (chosen_marker hname), substitute_nil,
    List.append_nil]

end Segment
end Bytelink
