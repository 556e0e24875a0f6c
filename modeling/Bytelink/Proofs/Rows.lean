import Bytelink.Data.Listing

/-!
# Rows of a data listing

The rows of a listing are its pieces between line feeds, each of them trimmed. A blank row says
nothing, a row that begins with a period is a directive, and every other row is a label.

`Step` says everything that one row can do to a listing, faults included, and `readLine_step` that
the reader does just this; later arguments distinguish its cases and do not open the reader again.
How the reader finds line ends makes no difference: `readLines_pieces` replaces its lines by the
pieces between line feeds, because a carriage return before a line feed is trimmed away and the
empty piece after a final line feed is blank.
-/
namespace Bytelink

namespace Text

theorem trimEnd_append_blank {c : Char} (hc : isBlank c = true) (t : Text) :
    trimEnd (t ++ [c]) = trimEnd t := by
  simp only [trimEnd, List.reverse_append, List.reverse_singleton, List.singleton_append,
    List.dropWhile_cons, hc, if_true]

theorem trim_append_blank {c : Char} (hc : isBlank c = true) (t : Text) :
    trim (t ++ [c]) = trim t := by
  simp only [trim, trimStart, List.dropWhile_append]
  split
  · rename_i he
    rw [List.isEmpty_iff.mp he]
    simp only [List.dropWhile_cons, hc, if_true, List.dropWhile_nil]
  · exact trimEnd_append_blank hc _

theorem trim_dropReturn (t : Text) : trim (dropReturn t) = trim t := by
  unfold dropReturn
  split
  · rename_i hlast
    obtain ⟨front, rfl⟩ := List.getLast?_eq_some_iff.mp hlast
    rw [List.dropLast_concat]
    exact (trim_append_blank (by decide) front).symm
  · rfl

/-- Lines and pieces between line feeds agree after trimming, but for a blank piece at the end. -/
theorem linesFrom_trim (t current piece : Text) (pieces : List Text)
    (h : splitOn '\n' t = piece :: pieces) :
    (linesFrom current t).map trim = ((current.reverse ++ piece) :: pieces).map trim ∨
      (linesFrom current t ++ [[]]).map trim = ((current.reverse ++ piece) :: pieces).map trim := by
  induction t generalizing current piece pieces with
  | nil =>
      simp only [splitOn, List.cons.injEq] at h
      obtain ⟨rfl, rfl⟩ := h
      cases current with
      | nil => exact Or.inr rfl
      | cons c current => exact Or.inl (by simp [linesFrom])
  | cons c rest ih =>
      obtain ⟨next, others, hrest⟩ := List.exists_cons_of_ne_nil (splitOn_ne_nil '\n' rest)
      by_cases hc : c = '\n'
      · simp only [splitOn, hc, if_true, List.cons.injEq] at h
        obtain ⟨rfl, rfl⟩ := h
        have hnext := ih [] next others hrest
        simp only [List.reverse_nil, List.nil_append, ← hrest] at hnext
        simp only [linesFrom, hc, if_true, List.append_nil, List.map_cons, List.cons_append,
          trim_dropReturn, List.cons.injEq, true_and]
        exact hnext
      · simp only [splitOn, hc, if_false, hrest, List.cons.injEq] at h
        obtain ⟨rfl, rfl⟩ := h
        have hnext := ih (c :: current) next others hrest
        simp only [List.reverse_cons, List.append_assoc, List.singleton_append] at hnext
        simp only [linesFrom, hc, if_false]
        exact hnext

theorem lines_trim (t : Text) :
    (lines t).map trim = (splitOn '\n' t).map trim ∨
      (lines t ++ [[]]).map trim = (splitOn '\n' t).map trim := by
  obtain ⟨piece, pieces, h⟩ := List.exists_cons_of_ne_nil (splitOn_ne_nil '\n' t)
  have hlines := linesFrom_trim t [] piece pieces h
  rw [h]
  exact hlines

theorem not_mem_of_mem_splitOn {mark : Char} {t piece : Text} (h : piece ∈ splitOn mark t) :
    mark ∉ piece := by
  induction t generalizing piece with
  | nil =>
      simp only [splitOn, List.mem_singleton] at h
      simp [h]
  | cons c rest ih =>
      obtain ⟨next, others, hrest⟩ := List.exists_cons_of_ne_nil (splitOn_ne_nil mark rest)
      by_cases hc : c = mark
      · simp only [splitOn, hc, if_true, List.mem_cons] at h
        rcases h with rfl | h
        · simp
        · exact ih h
      · simp only [splitOn, hc, if_false, hrest, List.mem_cons] at h
        rcases h with rfl | h
        · have hnext : mark ∉ next := ih (by simp [hrest])
          simp only [List.mem_cons, not_or]
          exact ⟨fun he => hc he.symm, hnext⟩
        · exact ih (by simp [hrest, h])

theorem mem_of_mem_splitOn {mark x : Char} {t piece : Text} (h : piece ∈ splitOn mark t)
    (hx : x ∈ piece) : x ∈ t := by
  induction t generalizing piece with
  | nil =>
      rw [splitOn, List.mem_singleton] at h
      exact h ▸ hx
  | cons c rest ih =>
      obtain ⟨next, others, hrest⟩ := List.exists_cons_of_ne_nil (splitOn_ne_nil mark rest)
      by_cases hc : c = mark
      · simp only [splitOn, hc, if_true, List.mem_cons] at h
        rcases h with rfl | h
        · simp at hx
        · exact List.mem_cons_of_mem c (ih h hx)
      · simp only [splitOn, hc, if_false, hrest, List.mem_cons] at h
        rcases h with rfl | h
        · rcases List.mem_cons.mp hx with rfl | hx
          · exact List.mem_cons_self
          · exact List.mem_cons_of_mem c (ih (by simp [hrest]) hx)
        · exact List.mem_cons_of_mem c (ih (by simp [hrest, h]) hx)

theorem splitOn_append_cons (mark : Char) (front rest : Text) :
    splitOn mark (front ++ mark :: rest) = splitOn mark front ++ splitOn mark rest := by
  induction front with
  | nil => simp [splitOn]
  | cons c front ih =>
      obtain ⟨piece, pieces, hfront⟩ := List.exists_cons_of_ne_nil (splitOn_ne_nil mark front)
      by_cases hc : c = mark
      · simp only [List.cons_append, splitOn, hc, if_true, ih]
      · simp only [List.cons_append, splitOn, hc, if_false, ih, hfront]

theorem splitOn_of_not_mem {mark : Char} {t : Text} (h : mark ∉ t) : splitOn mark t = [t] := by
  induction t with
  | nil => rfl
  | cons c rest ih =>
      rw [List.mem_cons, not_or] at h
      have hc : c ≠ mark := fun he => h.1 he.symm
      simp only [splitOn, hc, if_false, ih h.2]

theorem join_splitOn (mark : Char) (t : Text) : join [mark] (splitOn mark t) = t := by
  induction t with
  | nil => rfl
  | cons c rest ih =>
      obtain ⟨piece, pieces, hrest⟩ := List.exists_cons_of_ne_nil (splitOn_ne_nil mark rest)
      by_cases hc : c = mark
      · simp only [splitOn, hc, if_true, hrest, join, List.nil_append] at ih ⊢
        rw [ih, List.singleton_append]
      · simp only [splitOn, hc, if_false, hrest] at ih ⊢
        rw [← ih]
        cases pieces with
        | nil => rfl
        | cons next pieces => simp only [join, List.cons_append]

theorem mem_of_mem_trim {c : Char} {t : Text} (h : c ∈ trim t) : c ∈ t := by
  simp only [trim, trimEnd, trimStart, List.mem_reverse] at h
  have hmid := List.mem_reverse.mp ((List.dropWhile_sublist _).mem h)
  exact (List.dropWhile_sublist _).mem hmid

end Text

namespace Grammar

/-- The rows of a listing, blank ones included. Line number `n + 1` is the row at position `n`. -/
def rows (text : Text) : List Text := (Text.splitOn '\n' text).map Text.trim

def IsDirective (row : Text) : Prop := row.head? = some '.'

def IsLabel (row : Text) : Prop := row ≠ [] ∧ row.head? ≠ some '.'

instance : DecidablePred IsDirective :=
  fun row => inferInstanceAs (Decidable (row.head? = some '.'))

instance : DecidablePred IsLabel :=
  fun row => inferInstanceAs (Decidable (row ≠ [] ∧ row.head? ≠ some '.'))

def name (row : Text) : Text := Text.trim (row.takeWhile (· != ':'))

/-- A usable label has a colon and something other than white space before it. -/
def Named (row : Text) : Prop := ':' ∈ row ∧ name row ≠ []

instance : DecidablePred Named :=
  fun row => inferInstanceAs (Decidable (':' ∈ row ∧ name row ≠ []))

theorem IsLabel.not_directive {row : Text} (h : IsLabel row) : ¬ IsDirective row := h.2

theorem IsDirective.not_label {row : Text} (h : IsDirective row) : ¬ IsLabel row :=
  fun hl => hl.2 h

theorem blank_or_directive_or_label (row : Text) : row = [] ∨ IsDirective row ∨ IsLabel row := by
  by_cases hb : row = []
  · exact Or.inl hb
  · by_cases hd : IsDirective row
    · exact Or.inr (Or.inl hd)
    · exact Or.inr (Or.inr ⟨hb, hd⟩)

theorem labelName?_eq (row : Text) :
    labelName? row = if Named row then some (name row) else none := by
  unfold labelName? Named name
  by_cases hc : ':' ∈ row
  · by_cases hn : Text.trim (row.takeWhile (· != ':')) = [] <;> simp [hc, hn]
  · simp [hc]

/-- What a row does to a listing that has been read so far: it is passed over, gives its bytes to
the newest symbol, declares a symbol, or is at fault. -/
inductive Step (registry : Registry) (l : Listing) : Text → Except Fault Listing → Prop
  | blank : Step registry l [] (.ok l)
  | orphan {row : Text} : IsDirective row → l.symbols = [] →
      Step registry l row (.error .directiveWithoutSymbol)
  | undecodable {row : Text} {fault : Fault} : IsDirective row → l.symbols ≠ [] →
      registry.decode row = .error fault → Step registry l row (.error fault)
  | overflow {row : Text} {payload : Bytes} : IsDirective row → l.symbols ≠ [] →
      registry.decode row = .ok payload →
      Segment.sizeLimit < l.total.toNat + payload.length →
      Step registry l row (.error .segmentOverflow)
  | payload {row : Text} {payload : Bytes} {newest : Symbol} {earlier : List Symbol} :
      IsDirective row → l.symbols = newest :: earlier → registry.decode row = .ok payload →
      l.total.toNat + payload.length ≤ Segment.sizeLimit →
      Step registry l row (.ok ⟨⟨newest.name, newest.payload ++ payload⟩ :: earlier,
        l.total + UInt32.ofNat payload.length⟩)
  | unnamed {row : Text} : IsLabel row → ¬ Named row →
      Step registry l row (.error (.malformedLabel row))
  | symbol {row : Text} : IsLabel row → Named row →
      Step registry l row (.ok ⟨⟨name row, []⟩ :: l.symbols, l.total⟩)

private theorem readLine_directive {registry : Registry} {l : Listing} {raw rest : Text}
    (hrow : Text.trim raw = '.' :: rest) :
    Step registry l ('.' :: rest) (l.readLine registry raw) := by
  have hd : IsDirective ('.' :: rest) := rfl
  cases hs : l.symbols with
  | nil =>
      simp only [Listing.readLine, hrow, hs, List.isEmpty_nil, if_true]
      exact .orphan hd hs
  | cons newest earlier =>
      have hne : l.symbols ≠ [] := by simp [hs]
      simp only [Listing.readLine, hrow, hs, List.isEmpty_cons, Bool.false_eq_true, if_false]
      cases hdec : registry.decode ('.' :: rest) with
      | error fault => exact .undecodable hd hne hdec
      | ok payload =>
          simp only [Listing.addPayload, hs]
          split
          · rename_i hfits
            exact .payload hd hs hdec hfits
          · rename_i hover
            exact .overflow hd hne hdec (by omega)

private theorem readLine_label {registry : Registry} {l : Listing} {raw : Text}
    (hl : IsLabel (Text.trim raw)) :
    Step registry l (Text.trim raw) (l.readLine registry raw) := by
  have hread : l.readLine registry raw =
      if Named (Text.trim raw) then .ok ⟨⟨name (Text.trim raw), []⟩ :: l.symbols, l.total⟩
      else .error (.malformedLabel (Text.trim raw)) := by
    unfold Listing.readLine
    split
    · rename_i hb
      exact absurd hb hl.1
    · rename_i rest hdot
      exact absurd (by simp [hdot]) hl.2
    · rw [labelName?_eq]
      by_cases hn : Named (Text.trim raw) <;> simp [hn]
  rw [hread]
  split
  · exact .symbol hl ‹_›
  · exact .unnamed hl ‹_›

theorem readLine_step (registry : Registry) (l : Listing) (raw : Text) :
    Step registry l (Text.trim raw) (l.readLine registry raw) := by
  rcases blank_or_directive_or_label (Text.trim raw) with hb | hd | hl
  · simp only [Listing.readLine, hb]
    exact .blank
  · obtain ⟨rest, hrow⟩ := List.head?_eq_some_iff.mp hd
    rw [hrow]
    exact readLine_directive hrow
  · exact readLine_label hl

/-- A property that every harmless row keeps holds of the listing that is read in the end. -/
theorem readLines_invariant {registry : Registry} {P : Listing → Prop}
    (keeps : ∀ l row l', P l → Step registry l row (.ok l') → P l')
    {raws : List Text} {number : Nat} {l l' : Listing} (hl : P l)
    (hread : Listing.readLines registry number l raws = .ok l') : P l' := by
  induction raws generalizing number l with
  | nil =>
      simp only [Listing.readLines, Except.ok.injEq] at hread
      exact hread ▸ hl
  | cons raw rest ih =>
      have hstep := readLine_step registry l raw
      cases hone : l.readLine registry raw with
      | error fault => simp [Listing.readLines, hone] at hread
      | ok next =>
          rw [hone] at hstep
          simp only [Listing.readLines, hone] at hread
          exact ih (keeps l _ next hl hstep) hread

theorem readLines_congr {registry : Registry} {raws others : List Text}
    (h : raws.map Text.trim = others.map Text.trim) (number : Nat) (l : Listing) :
    Listing.readLines registry number l raws = Listing.readLines registry number l others := by
  induction raws generalizing others number l with
  | nil => rw [List.map_eq_nil_iff.mp h.symm]
  | cons raw rest ih =>
      obtain ⟨other, tail, rfl, hone, htail⟩ := List.map_eq_cons_iff.mp h.symm
      have hline : l.readLine registry raw = l.readLine registry other := by
        simp only [Listing.readLine, hone]
      simp only [Listing.readLines, hline]
      cases l.readLine registry other with
      | error fault => rfl
      | ok next => exact ih htail.symm (number + 1) next

theorem readLines_blank_end (registry : Registry) (raws : List Text) (number : Nat)
    (l : Listing) : Listing.readLines registry number l (raws ++ [[]]) =
      Listing.readLines registry number l raws := by
  induction raws generalizing number l with
  | nil => rfl
  | cons raw rest ih =>
      simp only [List.cons_append, Listing.readLines]
      cases l.readLine registry raw with
      | error fault => rfl
      | ok next => exact ih (number + 1) next

/-- Reading a text line by line is reading its pieces between line feeds. -/
theorem readLines_pieces (registry : Registry) (text : Text) (number : Nat) (l : Listing) :
    Listing.readLines registry number l (Text.lines text) =
      Listing.readLines registry number l (Text.splitOn '\n' text) := by
  rcases Text.lines_trim text with h | h
  · exact readLines_congr h number l
  · rw [← readLines_blank_end]
    exact readLines_congr h number l

end Grammar
end Bytelink
