import Bytelink.Proofs.LineWise
import Mathlib.Data.List.DropRight

/-!
# What a declared name can look like

A name is cut out of a label row and trimmed. So it is not empty, neither begins nor ends with white
space, has no colon and no line feed, and does not begin with a period. `WellNamed` says this of all
names of a segment, and every segment that offers build has it. White space inside, quotes, carriage
returns and periods further on are all possible.
-/
namespace Bytelink

namespace Text

variable {t : Text}

theorem trimEnd_prefix (t : Text) : trimEnd t <+: t := List.rdropWhile_prefix isBlank t

theorem isBlank_of_head?_trim {c : Char} (h : (trim t).head? = some c) : isBlank c = false := by
  obtain ⟨rest, hrest⟩ := trimEnd_prefix (trimStart t)
  have hstart : (t.dropWhile isBlank).head? = some c := by
    rw [← trimStart, ← hrest, List.head?_append, ← trim, h, Option.some_or]
  have hnot := List.head?_dropWhile_not isBlank t
  rw [hstart] at hnot
  simpa using hnot

theorem isBlank_of_getLast?_trim {c : Char} (h : (trim t).getLast? = some c) :
    isBlank c = false := by
  rw [trim, trimEnd, List.getLast?_reverse] at h
  have hnot := List.head?_dropWhile_not isBlank (trimStart t).reverse
  rw [h] at hnot
  simpa using hnot

theorem trim_eq_self (hhead : ∀ c, t.head? = some c → isBlank c = false)
    (hlast : ∀ c, t.getLast? = some c → isBlank c = false) : trim t = t := by
  have hstart : trimStart t = t := by
    cases t with
    | nil => rfl
    | cons c rest =>
        exact List.dropWhile_cons_of_neg (by simp [hhead c rfl])
  rw [trim, hstart, trimEnd]
  rcases List.eq_nil_or_concat t with rfl | ⟨init, last, rfl⟩
  · rfl
  · have hblank : isBlank last = false := hlast last (by simp)
    rw [List.concat_eq_append, List.reverse_concat, List.dropWhile_cons_of_neg (by simp [hblank])]
    simp

theorem trim_trim (t : Text) : trim (trim t) = trim t :=
  trim_eq_self (fun _ => isBlank_of_head?_trim) (fun _ => isBlank_of_getLast?_trim)

theorem head?_trim_of_not_blank {c : Char} {rest : Text} (h : isBlank c = false) :
    (trim (c :: rest)).head? = some c := by
  have hstart : trimStart (c :: rest) = c :: rest := List.dropWhile_cons_of_neg (by simp [h])
  obtain ⟨gone, hgone⟩ := trimEnd_prefix (c :: rest)
  rw [trim, hstart]
  cases hend : trimEnd (c :: rest) with
  | nil =>
      have hall : ∀ x ∈ (c :: rest).reverse, isBlank x = true := by
        simpa [trimEnd] using hend
      rw [hall c (by simp)] at h
      exact absurd h (by decide)
  | cons d tail =>
      rw [hend, List.cons_append, List.cons.injEq] at hgone
      rw [hgone.1, List.head?_cons]

end Text

/-- What a declared name can look like. -/
structure IsName (name : Text) : Prop where
  ne_nil : name ≠ []
  trimmed : Text.trim name = name
  no_colon : ':' ∉ name
  no_lineFeed : '\n' ∉ name
  no_period : name.head? ≠ some '.'

namespace Grammar

theorem trim_of_mem_rows {text row : Text} (h : row ∈ rows text) : Text.trim row = row := by
  obtain ⟨piece, -, rfl⟩ := List.mem_map.mp h
  exact Text.trim_trim piece

theorem isName_of_label {text row : Text} (h : row ∈ rows text) (hl : IsLabel row)
    (hn : Named row) : IsName (name row) := by
  have hcolon : ':' ∉ row.takeWhile (· != ':') := by
    intro hc
    simpa using List.all_eq_true.mp List.all_takeWhile _ hc
  refine ⟨hn.2, Text.trim_trim _, fun hc => hcolon (Text.mem_of_mem_trim hc),
    fun hc => not_mem_of_mem_rows h (mem_of_mem_name hc), ?_⟩
  obtain ⟨c, rest, rfl⟩ := List.exists_cons_of_ne_nil hl.1
  have hblank : Text.isBlank c = false := by
    have htrim := trim_of_mem_rows h
    exact Text.isBlank_of_head?_trim (t := c :: rest) (by rw [htrim, List.head?_cons])
  by_cases hc : c = ':'
  · -- Nothing stands before the colon, so there would be no name.
    refine absurd ?_ hn.2
    simp [name, hc, Text.trim, Text.trimStart, Text.trimEnd]
  · have hlead : (c :: rest).takeWhile (· != ':') = c :: rest.takeWhile (· != ':') :=
      List.takeWhile_cons_of_pos (by simpa using hc)
    rw [name, hlead, Text.head?_trim_of_not_blank hblank]
    exact fun hdot => hl.2 hdot

end Grammar

namespace Segment

/-- Every declared name looks like one. -/
def WellNamed (s : Segment) : Prop := ∀ name ∈ s.names, IsName name

variable {s : Segment}

theorem WellNamed.offer (h : s.WellNamed) (o : Offer) : (s.offer o).WellNamed := by
  rcases offer_cases s o with hsame | hok
  · rwa [hsame]
  · obtain ⟨hacc, hsymbols, -⟩ := Grammar.append_eq_ok_iff.mp hok
    intro name hname
    rw [names, hsymbols, List.map_append, List.mem_append] at hname
    rcases hname with hold | hnew
    · exact h name hold
    · obtain ⟨symbol, hmem, rfl⟩ := List.mem_map.mp hnew
      obtain ⟨row, hrow, hl, hname⟩ := Grammar.exists_label_of_mem_symbols hmem
      rw [hname]
      exact Grammar.isName_of_label hrow hl (hacc.labels row hrow hl)

theorem ofOffers_wellNamed (offers : List Offer) : (ofOffers offers).WellNamed :=
  ofOffers_invariant (P := WellNamed) (by simp [WellNamed, names, empty])
    (fun _ o hs => hs.offer o) offers

end Segment
end Bytelink
