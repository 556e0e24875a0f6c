import Bytelink.Proofs.Naming
import Bytelink.Proofs.Resubstitution
import Mathlib.Data.List.Infix
import Mathlib.Tactic.WLOG

/-!
# Replacing the markers of one symbol after another

Substitution goes through the text once and looks up a symbol at each marker. `replaceEach` goes
through the symbols in the order of the layout instead, and replaces every occurrence of the marker
of the symbol in the text that it has so far. In general the two differ. They agree for names that
contain neither `symref` nor `end` nor a space: the markers of such names do not run into each
other, and no instruction that is written can become a part of one.

One pass of `replaceEach` is one symbol more for substitution (`substitute_add_symbol`), and the
agreement follows by induction on the symbols (`ofOffers_substitute_eq_replaceEach`). Of a name that
is declared again no marker is left for the later pass, so that the first declaration wins in both.
-/
namespace Bytelink

namespace Text

variable {pattern front back t : Text}

/-- Wherever `t` follows `front`, the pattern begins at no place of `front`. -/
def Misses (pattern front t : Text) : Prop :=
  ∀ before after, front = before ++ after → after ≠ [] → ¬ pattern <+: after ++ t

theorem Misses.tail {c : Char} (h : Misses pattern (c :: front) t) : Misses pattern front t :=
  fun before after hsplit => h (c :: before) after (by rw [hsplit]; rfl)

theorem Misses.not_prefix {c : Char} (h : Misses pattern (c :: front) t) :
    ¬ pattern <+: c :: (front ++ t) := h [] (c :: front) rfl (List.cons_ne_nil _ _)

theorem Misses.append (hfront : Misses pattern front (back ++ t)) (hback : Misses pattern back t) :
    Misses pattern (front ++ back) t := by
  intro before after hsplit hne
  rcases List.append_eq_append_iff.mp hsplit with ⟨middle, rfl, rfl⟩ | ⟨middle, rfl, rfl⟩
  · exact hback middle after rfl hne
  · by_cases hmiddle : middle = []
    · subst hmiddle
      exact hback [] back rfl hne
    · rw [List.append_assoc]
      exact hfront before middle rfl hmiddle

theorem Misses.mono {longer : Text} (h : Misses pattern front t) (hlonger : pattern <+: longer) :
    Misses longer front t :=
  fun before after hsplit hne hp => h before after hsplit hne (hlonger.trans hp)

theorem misses_of_head_not_mem {c : Char} {rest : Text} (h : c ∉ front) :
    Misses (c :: rest) front t := by
  intro before after hsplit hne hp
  obtain ⟨d, tail, rfl⟩ := List.exists_cons_of_ne_nil hne
  obtain ⟨rfl, -⟩ := List.cons_prefix_cons.mp hp
  exact h (by simp [hsplit])

/-- An occurrence none of whose ends begins `t` lies in what stands before `t`. -/
theorem prefix_of_prefix_append (h : pattern <+: front ++ t)
    (hends : ∀ last, last <:+ pattern → last <+: t → last = []) : pattern <+: front := by
  rcases List.prefix_or_prefix_of_prefix h (List.prefix_append front t) with hle | ⟨last, rfl⟩
  · exact hle
  · rw [List.prefix_append_right_inj] at h
    simp [hends last (List.suffix_append front last) h]

theorem replaceAll_append_of_misses {new : Text} (h : Misses pattern front t) :
    replaceAll pattern new (front ++ t) = front ++ replaceAll pattern new t := by
  induction front with
  | nil => rfl
  | cons c front ih =>
      rw [List.cons_append, replaceAll_cons_of_not_prefix h.not_prefix, ih h.tail, List.cons_append]

end Text

/-- A name in which nothing of a marker and no instruction can stand. -/
structure Ordinary (name : Text) : Prop where
  no_open : ¬ markerOpen <:+: name
  no_close : ¬ markerClose <:+: name
  no_space : ' ' ∉ name

namespace Ordinary

variable {name other t : Text}

theorem misses_open (h : Ordinary name) (t : Text) :
    Text.Misses markerOpen (markerOpen.tail ++ (name ++ markerClose)) t := by
  -- No end of `symref` but the empty one begins `end`.
  have hends : ∀ last, last <:+ markerOpen → last <+: markerClose ++ t → last = [] := by
    intro last hlast hp
    rw [← List.mem_tails] at hlast
    simp only [markerOpen, List.tails, List.mem_cons, List.not_mem_nil, or_false] at hlast
    rcases hlast with rfl | rfl | rfl | rfl | rfl | rfl | rfl <;> simp_all [markerClose]
  refine .append (Text.misses_of_head_not_mem (by decide))
    (.append ?_ (Text.misses_of_head_not_mem (by decide)))
  intro before after hsplit _ hp
  have hinside := Text.prefix_of_prefix_append hp hends
  refine h.no_open (hinside.isInfix.trans ?_)
  rw [hsplit]
  exact (List.suffix_append before after).isInfix

theorem eq_nil_of_close_prefix {front back : Text} (h : Ordinary (front ++ back))
    (hp : markerClose <+: back ++ markerClose) : back = [] := by
  cases back with
  | nil => rfl
  | cons c back =>
      have hends : ∀ last, last <:+ markerClose.tail → last <+: markerClose → last = [] := by
        intro last hlast hp
        rw [← List.mem_tails] at hlast
        simp only [markerClose, List.tail_cons, List.tails, List.mem_cons, List.not_mem_nil,
          or_false] at hlast
        rcases hlast with rfl | rfl | rfl <;> simp_all [markerClose]
      obtain ⟨rfl, htail⟩ := List.cons_prefix_cons.mp hp
      have hinside : markerClose <+: 'e' :: back :=
        List.cons_prefix_cons.mpr ⟨rfl, Text.prefix_of_prefix_append htail hends⟩
      exact absurd (hinside.isInfix.trans (List.suffix_append front _).isInfix) h.no_close

theorem unique_at (hname : Ordinary name) (hother : Ordinary other) (h : marker name <+: t)
    (h' : marker other <+: t) : name = other := by
  wlog hlen : name.length ≤ other.length generalizing name other
  · exact (this hother hname h' h (Nat.le_of_not_le hlen)).symm
  have hmarkers : marker name <+: marker other :=
    List.prefix_of_prefix_length_le h h' (by simpa only [length_marker, Nat.add_le_add_iff_right])
  rw [marker, marker, List.prefix_append_right_inj] at hmarkers
  obtain ⟨back, rfl⟩ := List.prefix_of_prefix_length_le
    ((List.prefix_append name markerClose).trans hmarkers) (List.prefix_append other markerClose)
    hlen
  rw [List.append_assoc, List.prefix_append_right_inj] at hmarkers
  rw [hother.eq_nil_of_close_prefix hmarkers, List.append_nil]

end Ordinary

section Written

variable {symbols : List Symbol} {pieces : List Piece} {name x z : Text}

/-- A marker that is written was kept, character by character, unless its name has a space. -/
theorem exists_kept_marker (hspace : ' ' ∉ name)
    (h : writtenText symbols pieces = x ++ (marker name ++ z)) :
    ∃ before after, pieces = before ++ (keptAll (marker name) ++ after) ∧
      writtenText symbols before = x ∧ writtenText symbols after = z := by
  rw [marker, List.append_assoc, List.append_assoc] at h
  obtain ⟨before, behind, rfl, hbefore, hbehind⟩ := clear_markerOpen.exists_kept h
  obtain ⟨inside, after, rfl, hinside, hafter⟩ := clear_markerClose.exists_kept hbehind
  obtain ⟨front, rfl | ⟨other, rest, rfl⟩⟩ := keptAll_or_reference inside
  · rw [writtenText_keptAll] at hinside
    subst hinside
    exact ⟨before, after, by simp [keptAll, marker], hbefore, hafter⟩
  · refine absurd ?_ hspace
    rw [← hinside, writtenText_append, writtenText_reference]
    simp [space_mem_pushConstant]

theorem misses_pushConstant (value : Nat) (name t : Text) :
    Text.Misses (marker name) (pushConstant value) t :=
  Text.Misses.mono (fun _ _ => clear_markerOpen.outside) (List.prefix_append _ _)

theorem sizeBefore_append_of_mem (h : name ∈ symbols.map (·.name)) (more : List Symbol) :
    sizeBefore name (symbols ++ more) = sizeBefore name symbols := by
  induction symbols with
  | nil => simp at h
  | cons first rest ih =>
      by_cases hfirst : first.name = name
      · simp [sizeBefore, hfirst]
      · have hrest := ih (by simpa [Ne.symm hfirst] using h)
        simp only [sizeBefore] at hrest
        simp [sizeBefore, hfirst, payloadSize, hrest]

theorem sizeBefore_append_of_not_mem {last : Symbol} (h : last.name ∉ symbols.map (·.name))
    (more : List Symbol) :
    sizeBefore last.name (symbols ++ last :: more) = payloadSize symbols := by
  have hother : ∀ symbol ∈ symbols, (symbol.name != last.name) = true := by
    intro symbol hsymbol
    rw [bne_iff_ne]
    exact fun he => h (he ▸ List.mem_map_of_mem hsymbol)
  rw [sizeBefore, List.takeWhile_append_of_pos hother, List.takeWhile_cons_of_neg (by simp),
    List.append_nil]

end Written

namespace Segment

variable {s longer : Segment} {front rest t : Text}

theorem substitute_append_of_misses (h : Text.Misses markerOpen front rest) :
    s.substitute (front ++ rest) = front ++ s.substitute rest := by
  induction front with
  | nil => rfl
  | cons c front ih =>
      rw [List.cons_append, substitute_cons h.not_prefix, ih h.tail, List.cons_append]

/-- An ordinary marker at which nothing fits is kept as a whole. -/
theorem substitute_unknown_marker {name : Text} (hname : Ordinary name)
    (hno : ∀ other, ¬ s.Fits other (marker name ++ rest)) :
    s.substitute (marker name ++ rest) = marker name ++ s.substitute rest := by
  have hmarker : marker name = 's' :: (markerOpen.tail ++ (name ++ markerClose)) := rfl
  rw [hmarker, List.cons_append] at hno ⊢
  rw [substitute_kept hno, substitute_append_of_misses (hname.misses_open rest), List.cons_append]

theorem chosen_of_ordinary {name : Text} (hnames : ∀ name ∈ s.names, Ordinary name)
    (hname : name ∈ s.names) (hp : marker name <+: t) : s.Chosen name t := by
  refine ⟨⟨hname, hp⟩, fun other hother => ?_⟩
  rw [(hnames name hname).unique_at (hnames other hother.1) hp hother.2]

theorem Sized.marker_prefix_of_substitute (hs : s.Sized) {name : Text} (hspace : ' ' ∉ name)
    (h : marker name <+: s.substitute t) : marker name <+: t := by
  obtain ⟨pieces, hscan, hwritten⟩ := hs.exists_writtenText t
  obtain ⟨z, hz⟩ := h
  have hbegin : writtenText s.symbols pieces = [] ++ (marker name ++ z) := by
    rw [← hwritten, ← hz, List.nil_append]
  obtain ⟨before, after, rfl, hbefore, -⟩ := exists_kept_marker hspace hbegin
  obtain rfl := eq_nil_of_writtenText_eq_nil hbefore
  rw [← hscan.sourceText_eq, List.nil_append, sourceText_append, sourceText_keptAll]
  exact List.prefix_append _ _

/-- With one symbol more at the end, substitution replaces the markers of its name in what it wrote
without this symbol. -/
theorem substitute_add_symbol (hs : s.Sized) (hlonger : longer.Sized) {last : Symbol}
    (hsymbols : longer.symbols = s.symbols ++ [last])
    (hnames : ∀ name ∈ longer.names, Ordinary name) (t : Text) : longer.substitute t =
      Text.replaceAll (marker last.name) (pushConstant (baseAddress + payloadSize s.symbols))
        (s.substitute t) := by
  have hmem : ∀ {name}, name ∈ longer.names ↔ name ∈ s.names ∨ name = last.name := by
    simp [names, hsymbols]
  have hlast : last.name ∈ longer.names := hmem.mpr (.inr rfl)
  have hsnames : ∀ name ∈ s.names, Ordinary name :=
    fun name hname => hnames name (hmem.mpr (.inl hname))
  -- By the length of the text, since a marker is passed over as a whole.
  induction hlen : t.length using Nat.strongRecOn generalizing t with
  | ind n ih =>
      have hrest : ∀ {name rest}, t = marker name ++ rest → longer.substitute rest =
          Text.replaceAll (marker last.name) (pushConstant (baseAddress + payloadSize s.symbols))
            (s.substitute rest) := by
        intro name rest ht
        have hshort : rest.length < n := by
          rw [← hlen, ht, List.length_append, length_marker]
          omega
        exact ih rest.length hshort rest rfl
      by_cases hfit : ∃ name, s.Fits name t
      · -- The marker of a symbol that was there: what is written for it is left alone.
        obtain ⟨name, hname, rest, rfl⟩ := hfit
        have hp : marker name <+: marker name ++ rest := List.prefix_append _ _
        rw [hlonger.substitute_reference rfl (chosen_of_ordinary hnames (hmem.mpr (.inl hname)) hp),
          hs.substitute_reference rfl (chosen_of_ordinary hsnames hname hp), hsymbols,
          sizeBefore_append_of_mem hname, Text.replaceAll_append_of_misses
            (misses_pushConstant _ _ _), hrest rfl]
      · have hno : ∀ name, ¬ s.Fits name t := fun name hname => hfit ⟨name, hname⟩
        by_cases hp : marker last.name <+: t
        · -- The marker of the new symbol: it was kept, and is replaced.
          have hnew : last.name ∉ s.names := fun hold => hno last.name ⟨hold, hp⟩
          obtain ⟨rest, rfl⟩ := hp
          have hp : marker last.name <+: marker last.name ++ rest := List.prefix_append _ _
          have hne : marker last.name ≠ [] := List.cons_ne_nil _ _
          rw [hlonger.substitute_reference rfl (chosen_of_ordinary hnames hlast hp),
            substitute_unknown_marker (hnames _ hlast) hno, hsymbols,
            sizeBefore_append_of_not_mem hnew, Text.replaceAll_append_of_prefix hne, hrest rfl]
        · cases t with
          | nil => simp [Text.replaceAll, Text.replaceFrom]
          | cons c rest =>
              have hkept := substitute_kept hno
              have hnone : ∀ name, ¬ longer.Fits name (c :: rest) := by
                rintro name ⟨hname, hprefix⟩
                rcases hmem.mp hname with hold | rfl
                · exact hno name ⟨hold, hprefix⟩
                · exact hp hprefix
              have hgone : ¬ marker last.name <+: c :: s.substitute rest := by
                rw [← hkept]
                exact fun h => hp (hs.marker_prefix_of_substitute (hnames _ hlast).no_space h)
              have hshort : rest.length < n := by
                rw [← hlen]
                exact Nat.lt_succ_self _
              rw [substitute_kept hnone, hkept, Text.replaceAll_cons_of_not_prefix hgone,
                ih rest.length hshort rest rfl]

/-- The markers of one symbol after another replaced, each by the instruction that pushes the
address of the symbol. -/
def replaceEach (s : Segment) (body : Text) : Text :=
  s.layout.foldl (fun text entry =>
    Text.replaceAll (marker entry.symbol.name) (pushConstant entry.address) text) body

/-- The last symbol has its turn last, with the exact end of the others as its address. -/
theorem replaceEach_concat {symbols : List Symbol} {last : Symbol}
    (h : payloadSize symbols ≤ sizeLimit) (total total' : UInt32) (body : Text) :
    replaceEach ⟨symbols ++ [last], total⟩ body =
      Text.replaceAll (marker last.name) (pushConstant (baseAddress + payloadSize symbols))
        (replaceEach ⟨symbols, total'⟩ body) := by
  have hroom : (0 : UInt32).toNat + payloadSize symbols ≤ sizeLimit := by
    rwa [UInt32.toNat_zero, Nat.zero_add]
  obtain ⟨offset, hoffset, hlayout⟩ := layoutFrom_append hroom [last]
  rw [UInt32.toNat_zero, Nat.zero_add] at hoffset
  simp only [replaceEach, layout, hlayout, layoutFrom, List.foldl_append, List.foldl_cons,
    List.foldl_nil, Placed.address, hoffset]

theorem Sized.substitute_eq_replaceEach (hs : s.Sized) (hnames : ∀ name ∈ s.names, Ordinary name)
    (body : Text) : s.substitute body = s.replaceEach body := by
  obtain ⟨symbols, total⟩ := s
  induction symbols using List.reverseRecOn generalizing total with
  | nil =>
      rw [hs.substitute_eq_self_iff.mpr (by simp [names])]
      rfl
  | append_singleton symbols last ih =>
      have hle : payloadSize symbols ≤ sizeLimit := by
        have hall := hs.payloadSize_le
        rw [payloadSize_append] at hall
        exact Nat.le_trans (Nat.le_add_right _ _) hall
      let shorter : Segment := ⟨symbols, .ofNat (payloadSize symbols)⟩
      have hshorter : shorter.Sized := toNat_ofNat_of_le hle
      have hfewer : ∀ name ∈ shorter.names, Ordinary name := fun name hname =>
        hnames name (by rw [names, List.map_append]; exact List.mem_append_left _ hname)
      rw [substitute_add_symbol hshorter hs rfl hnames, ih _ hshorter hfewer,
        replaceEach_concat hle total shorter.totalSize]

/-- For every segment that offers can build whose names contain neither `symref` nor `end` nor a
space, and for every text, substitution is the replacement of the markers of one symbol after
another in the order of declaration, repeated names included. -/
theorem ofOffers_substitute_eq_replaceEach (offers : List Offer)
    (hnames : ∀ name ∈ (ofOffers offers).names,
      ¬ markerClose <:+: name ∧ ¬ markerOpen <:+: name ∧ ' ' ∉ name) (body : Text) :
    (ofOffers offers).substitute body = (ofOffers offers).replaceEach body := by
  refine (ofOffers_sized offers).substitute_eq_replaceEach (fun name hname => ?_) body
  obtain ⟨hclose, hopen, hspace⟩ := hnames name hname
  exact ⟨hopen, hclose, hspace⟩

/-- Markers of two names, one of them declared twice and a beginning of the other, next to each
other and inside a `symref` that stays. -/
theorem substitute_each_of_repeated_name :
    let offers : List Offer := [⟨.standard, "a.c", "A:\n\t.ascii \"xy\"\nAe:\nA:\n"⟩]
    let body : Text := "symrefsymrefAeendsymrefAendend"
    (∀ name ∈ (ofOffers offers).names,
      ¬ markerClose <:+: name ∧ ¬ markerOpen <:+: name ∧ ' ' ∉ name) ∧
    (ofOffers offers).substitute body = (ofOffers offers).replaceEach body ∧
    (ofOffers offers).replaceEach body = "symrefsipush 4098sipush 4096end".toList := by
  intro offers body
  have hnames : ∀ name ∈ (ofOffers offers).names,
      ¬ markerClose <:+: name ∧ ¬ markerOpen <:+: name ∧ ' ' ∉ name := by
    decide +kernel
  exact ⟨hnames, ofOffers_substitute_eq_replaceEach offers hnames body, by decide +kernel⟩

end Segment

end Bytelink
