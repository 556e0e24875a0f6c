import Bytelink.Proofs.Layout
import Bytelink.Data.Marker

/-!
# The scan that substitution performs

`Scan` reads a text character by character: where the marker of a declared name begins, it takes
the longest such name and passes over the whole marker; elsewhere it keeps one character. The
pieces it yields are written one after another and never read again.

Substitution proceeds differently. It jumps from one `symref` to the next, keeps the best entry of
the layout so far, and passes over an unresolved `symref` as a whole. The last step agrees with the
scan because `s` stands only at the beginning of `symref`, and the choice does because two fitting
names of one length are the same name. `ofOffers_substitute_scan` states the agreement, and that
the pieces depend on nothing but the set of declared names.
-/
namespace Bytelink

namespace Text

variable {pattern t : Text}

theorem cut_of_prefix (hp : pattern ≠ []) (rest : Text) :
    cut pattern (pattern ++ rest) = some ([], rest) := by
  obtain ⟨c, tail, rfl⟩ := List.exists_cons_of_ne_nil hp
  have hprefix : (c :: tail).isPrefixOf ((c :: tail) ++ rest) = true :=
    List.isPrefixOf_iff_prefix.mpr (List.prefix_append _ _)
  rw [List.cons_append] at hprefix ⊢
  simp only [cut, hprefix, if_true]
  rw [← List.cons_append, List.drop_left]

theorem cut_of_not_prefix {c : Char} {rest : Text} (h : ¬ pattern <+: c :: rest) :
    cut pattern (c :: rest) = (cut pattern rest).map fun parts => (c :: parts.1, parts.2) := by
  have hno : pattern.isPrefixOf (c :: rest) = false := by
    rw [← Bool.not_eq_true, List.isPrefixOf_iff_prefix]
    exact h
  simp only [cut, hno, Bool.false_eq_true, if_false]

theorem stripStart_eq_some_iff {rest : Text} :
    stripStart pattern t = some rest ↔ t = pattern ++ rest := by
  unfold stripStart
  constructor
  · intro h
    split at h
    · rename_i hp
      obtain ⟨tail, rfl⟩ := List.isPrefixOf_iff_prefix.mp hp
      simp only [List.drop_left, Option.some.injEq] at h
      rw [h]
    · simp at h
  · rintro rfl
    simp

theorem stripStart_isSome_iff : (stripStart pattern t).isSome = true ↔ pattern <+: t := by
  rw [Option.isSome_iff_exists]
  constructor
  · rintro ⟨rest, h⟩
    exact ⟨rest, (stripStart_eq_some_iff.mp h).symm⟩
  · rintro ⟨rest, h⟩
    exact ⟨rest, stripStart_eq_some_iff.mpr h.symm⟩

theorem stripEnd_eq_some_iff {front : Text} :
    stripEnd pattern t = some front ↔ t = front ++ pattern := by
  simp only [stripEnd, Option.map_eq_some_iff, stripStart_eq_some_iff]
  constructor
  · rintro ⟨reversed, h, rfl⟩
    rw [← List.reverse_reverse t, h, List.reverse_append, List.reverse_reverse]
  · rintro rfl
    exact ⟨front.reverse, List.reverse_append, List.reverse_reverse front⟩

end Text

def marker (name : Text) : Text := markerOpen ++ (name ++ markerClose)

theorem length_marker (name : Text) : (marker name).length = name.length + 9 := by
  simp only [marker, List.length_append, markerOpen, markerClose, List.length_cons,
    List.length_nil]
  omega

theorem marker_injective {name other : Text} (h : marker name = marker other) : name = other :=
  List.append_cancel_right (List.append_cancel_left h)

theorem afterMarker?_isSome_iff {name rest : Text} :
    (afterMarker? name rest).isSome = true ↔ marker name <+: markerOpen ++ rest := by
  rw [marker, List.prefix_append_right_inj, afterMarker?, Option.isSome_bind,
    Option.any_eq_true]
  constructor
  · rintro ⟨tail, hname, hclose⟩
    obtain ⟨final, rfl⟩ := Text.stripStart_isSome_iff.mp hclose
    rw [Text.stripStart_eq_some_iff.mp hname, ← List.append_assoc]
    exact List.prefix_append _ _
  · rintro ⟨final, rfl⟩
    refine ⟨markerClose ++ final, Text.stripStart_eq_some_iff.mpr (List.append_assoc _ _ _), ?_⟩
    exact Text.stripStart_isSome_iff.mpr (List.prefix_append _ _)

/-- The number of bytes before the first symbol of a name. -/
def sizeBefore (name : Text) (symbols : List Symbol) : Nat :=
  payloadSize (symbols.takeWhile fun s => s.name != name)

/-- What a scan reads in one step. -/
inductive Piece
  | kept (c : Char)
  | reference (name : Text)
  deriving DecidableEq, Repr

def Piece.source : Piece → Text
  | kept c => [c]
  | reference name => marker name

def Piece.written (symbols : List Symbol) : Piece → Text
  | kept c => [c]
  | reference name => pushConstant (baseAddress + sizeBefore name symbols)

namespace Segment

/-- The declared names, in order and with repetitions. -/
def names (s : Segment) : List Text := s.symbols.map (·.name)

def Fits (s : Segment) (name t : Text) : Prop := name ∈ s.names ∧ marker name <+: t

/-- The longest of the names whose marker fits. -/
def Chosen (s : Segment) (name t : Text) : Prop :=
  s.Fits name t ∧ ∀ other, s.Fits other t → other.length ≤ name.length

/-- The reading of a text character by character. -/
inductive Scan (s : Segment) : Text → List Piece → Prop
  | done : Scan s [] []
  | reference {t name rest : Text} {pieces : List Piece} : t = marker name ++ rest →
      s.Chosen name t → Scan s rest pieces → Scan s t (.reference name :: pieces)
  | kept {c : Char} {rest : Text} {pieces : List Piece} : (∀ name, ¬ s.Fits name (c :: rest)) →
      Scan s rest pieces → Scan s (c :: rest) (.kept c :: pieces)

variable {s : Segment} {name other t rest : Text} {pieces : List Piece}

theorem Fits.eq_of_length (h : s.Fits name t) (h' : s.Fits other t)
    (hlen : name.length = other.length) : name = other := by
  refine marker_injective ?_
  have hsame : (marker name).length = (marker other).length := by
    rw [length_marker, length_marker, hlen]
  exact (List.prefix_of_prefix_length_le h.2 h'.2 (Nat.le_of_eq hsame)).eq_of_length hsame

theorem Chosen.unique (h : s.Chosen name t) (h' : s.Chosen other t) : name = other :=
  h.1.eq_of_length h'.1 (Nat.le_antisymm (h'.2 name h.1) (h.2 other h'.1))

theorem Fits.head (h : s.Fits name t) : ∃ after, t = markerOpen ++ after := by
  obtain ⟨final, rfl⟩ := h.2
  exact ⟨(name ++ markerClose) ++ final, List.append_assoc _ _ _⟩

/-- The best entry is the first among those with the longest name. -/
theorem foldl_longer (best : Placed) (entries : List Placed) :
    ∃ p, entries.foldl longer (some best) = some p ∧
      (∀ q ∈ best :: entries, q.symbol.name.length ≤ p.symbol.name.length) ∧
      (best :: entries).find? (fun q => q.symbol.name.length == p.symbol.name.length) =
        some p := by
  induction entries generalizing best with
  | nil => exact ⟨best, rfl, by simp, by simp⟩
  | cons entry entries ih =>
      by_cases hle : entry.symbol.name.length ≤ best.symbol.name.length
      · obtain ⟨p, hfold, hmax, hfind⟩ := ih best
        have hbest := hmax best List.mem_cons_self
        refine ⟨p, by simpa only [List.foldl_cons, longer, hle, if_true] using hfold, ?_, ?_⟩
        · intro q hq
          simp only [List.mem_cons] at hq hmax
          rcases hq with rfl | rfl | hq
          · exact hbest
          · exact Nat.le_trans hle hbest
          · exact hmax q (Or.inr hq)
        · rw [List.find?_cons] at hfind ⊢
          split at hfind
          · exact hfind
          · rename_i hne
            have hlt : (entry.symbol.name.length == p.symbol.name.length) = false := by
              simp only [beq_eq_false_iff_ne] at hne ⊢
              omega
            rw [List.find?_cons, hlt]
            exact hfind
      · obtain ⟨p, hfold, hmax, hfind⟩ := ih entry
        have hentry := hmax entry List.mem_cons_self
        refine ⟨p, by simpa only [List.foldl_cons, longer, hle, if_false] using hfold, ?_, ?_⟩
        · intro q hq
          rcases List.mem_cons.mp hq with rfl | hq
          · omega
          · exact hmax q hq
        · have hlt : (best.symbol.name.length == p.symbol.name.length) = false := by
            simp only [beq_eq_false_iff_ne]
            omega
          rw [List.find?_cons, hlt]
          exact hfind

theorem mem_names_iff : name ∈ s.names ↔ ∃ p ∈ s.layout, p.symbol.name = name := by
  rw [names, ← s.layout_symbols, List.map_map, List.mem_map]
  rfl

theorem exists_find_layout (h : name ∈ s.names) :
    ∃ entry, (s.layout.find? fun entry => entry.symbol.name == name) = some entry := by
  obtain ⟨p, hp, hname⟩ := mem_names_iff.mp h
  apply Option.isSome_iff_exists.mp
  rw [List.find?_isSome]
  exact ⟨p, hp, by simpa using hname⟩

theorem not_fits_of_resolve? {after : Text} (h : s.resolve? after = none) (name : Text) :
    ¬ s.Fits name (markerOpen ++ after) := by
  rintro ⟨hname, hmarker⟩
  obtain ⟨p, hp, rfl⟩ := mem_names_iff.mp hname
  have hmem : p ∈ s.layout.filter fun entry => (afterMarker? entry.symbol.name after).isSome :=
    List.mem_filter.mpr ⟨hp, afterMarker?_isSome_iff.mpr hmarker⟩
  unfold resolve? at h
  obtain ⟨first, others, hsplit⟩ := List.exists_cons_of_ne_nil (List.ne_nil_of_mem hmem)
  obtain ⟨q, hq, -⟩ := foldl_longer first others
  rw [hsplit] at h
  exact absurd (hq.symm.trans h) (by simp)

/-- The entry that is taken has the longest fitting name, and is the first of this name. -/
theorem chosen_of_resolve? {after : Text} {p : Placed} (h : s.resolve? after = some p) :
    s.Chosen p.symbol.name (markerOpen ++ after) ∧
      s.layout.find? (fun entry => entry.symbol.name == p.symbol.name) = some p := by
  have hfits : ∀ q ∈ s.layout,
      ((afterMarker? q.symbol.name after).isSome = true ↔
        s.Fits q.symbol.name (markerOpen ++ after)) := by
    intro q hq
    rw [afterMarker?_isSome_iff, Fits, mem_names_iff]
    exact ⟨fun hm => ⟨⟨q, hq, rfl⟩, hm⟩, fun hm => hm.2⟩
  unfold resolve? at h
  cases hfilter : s.layout.filter fun entry => (afterMarker? entry.symbol.name after).isSome with
  | nil => simp [hfilter] at h
  | cons first others =>
      obtain ⟨q, hfold, hmax, hfind⟩ := foldl_longer first others
      rw [hfilter] at h
      obtain rfl := Option.some.inj (hfold.symm.trans h)
      rw [← hfilter] at hmax hfind
      have hq := List.mem_filter.mp (List.mem_of_find?_eq_some hfind)
      have hqfits := (hfits q hq.1).mp hq.2
      refine ⟨⟨hqfits, ?_⟩, ?_⟩
      · intro other hother
        obtain ⟨r, hr, rfl⟩ := mem_names_iff.mp hother.1
        exact hmax r (List.mem_filter.mpr ⟨hr, (hfits r hr).mpr hother⟩)
      · rw [List.find?_filter] at hfind
        rw [← hfind, ← List.head?_filter, ← List.head?_filter]
        refine congrArg List.head? (List.filter_congr fun r hr => ?_)
        rw [Bool.eq_iff_iff, decide_eq_true_iff, hfits r hr, beq_iff_eq, beq_iff_eq]
        constructor
        · intro he
          exact ⟨he ▸ hqfits, congrArg List.length he⟩
        · rintro ⟨hrfits, hlen⟩
          exact hrfits.eq_of_length hqfits hlen

theorem exists_chosen (h : s.Fits other t) : ∃ name, s.Chosen name t := by
  obtain ⟨after, rfl⟩ := h.head
  cases hres : s.resolve? after with
  | none => exact absurd h (not_fits_of_resolve? hres other)
  | some p => exact ⟨p.symbol.name, (chosen_of_resolve? hres).1⟩

@[simp] theorem substitute_nil (s : Segment) : s.substitute [] = [] := by
  rw [substitute]
  rfl

/-- What is written from a `symref` on, given the text after it. -/
def substituteAfter (s : Segment) (after : Text) : Text :=
  match s.resolve? after with
  | some entry => pushConstant entry.address ++
      s.substitute (after.drop (entry.symbol.name.length + markerClose.length))
  | none => markerOpen ++ s.substitute after

theorem substitute_of_cut_none (h : Text.cut markerOpen t = none) : s.substitute t = t := by
  rw [substitute]
  split
  · rfl
  · rename_i hsome
    simp [h] at hsome

theorem substitute_of_cut_some {before after : Text}
    (h : Text.cut markerOpen t = some (before, after)) :
    s.substitute t = before ++ s.substituteAfter after := by
  rw [substitute]
  split
  · rename_i hnone
    simp [h] at hnone
  · rename_i front back hsome
    obtain ⟨rfl, rfl⟩ := Prod.mk.inj (Option.some.inj (h.symm.trans hsome))
    unfold substituteAfter
    cases s.resolve? after <;> simp only [List.append_assoc]

theorem substitute_open (s : Segment) (after : Text) :
    s.substitute (markerOpen ++ after) = s.substituteAfter after := by
  have hcut : Text.cut markerOpen (markerOpen ++ after) = some ([], after) :=
    Text.cut_of_prefix (by decide) after
  rw [substitute_of_cut_some hcut, List.nil_append]

theorem substitute_cons {c : Char} (h : ¬ markerOpen <+: c :: rest) :
    s.substitute (c :: rest) = c :: s.substitute rest := by
  have hcut := Text.cut_of_not_prefix h
  cases hrest : Text.cut markerOpen rest with
  | none =>
      rw [hrest, Option.map_none] at hcut
      rw [substitute_of_cut_none hcut, substitute_of_cut_none hrest]
  | some parts =>
      rw [hrest, Option.map_some] at hcut
      rw [substitute_of_cut_some hcut, substitute_of_cut_some hrest, List.cons_append]

theorem not_open_of_ne {c : Char} (hc : c ≠ 's') (rest : Text) : ¬ markerOpen <+: c :: rest := by
  intro hprefix
  exact hc (List.cons_prefix_cons.mp hprefix).1.symm

theorem substitute_append_of_no_s {front : Text} (h : 's' ∉ front) (rest : Text) :
    s.substitute (front ++ rest) = front ++ s.substitute rest := by
  induction front with
  | nil => rfl
  | cons c front ih =>
      simp only [List.mem_cons, not_or] at h
      rw [List.cons_append, substitute_cons (not_open_of_ne (fun he => h.1 he.symm) _), ih h.2,
        List.cons_append]

theorem substitute_kept {c : Char} (h : ∀ name, ¬ s.Fits name (c :: rest)) :
    s.substitute (c :: rest) = c :: s.substitute rest := by
  by_cases hopen : markerOpen <+: c :: rest
  · obtain ⟨after, hafter⟩ := hopen
    obtain ⟨rfl, rfl⟩ := List.cons.inj hafter
    have hnone : s.resolve? after = none := by
      cases hres : s.resolve? after with
      | none => rfl
      | some p => exact absurd (chosen_of_resolve? hres).1.1 (h p.symbol.name)
    -- The program passes over all of `symref` here. The scan does the same one character at a time,
    -- because no marker can begin inside it.
    have hwhole := substitute_open s after
    rw [substituteAfter, hnone] at hwhole
    exact hwhole.trans (congrArg ('s' :: ·) (substitute_append_of_no_s (by decide) after).symm)
  · exact substitute_cons hopen

/-- The name chosen is pushed with the address of its first symbol, and the whole marker is passed
over. -/
theorem Sized.substitute_reference (h : s.Sized) (ht : t = marker name ++ rest)
    (hchosen : s.Chosen name t) :
    s.substitute t =
      pushConstant (baseAddress + sizeBefore name s.symbols) ++ s.substitute rest := by
  have hopen : t = markerOpen ++ (name ++ markerClose ++ rest) := by
    rw [ht, marker]
    simp only [List.append_assoc]
  rw [hopen] at hchosen
  rw [hopen, substitute_open, substituteAfter]
  cases hres : s.resolve? (name ++ markerClose ++ rest) with
  | none => exact absurd hchosen.1 (not_fits_of_resolve? hres name)
  | some p =>
      obtain ⟨hp, hfirst⟩ := chosen_of_resolve? hres
      obtain rfl := hp.unique hchosen
      have hoffset := h.offset_of_find? hfirst
      simp only [Placed.address, hoffset, sizeBefore]
      rw [← List.length_append, List.drop_left]

/-- Substitution writes the pieces that the scan reads. -/
theorem Sized.exists_scan (h : s.Sized) (t : Text) :
    ∃ pieces, s.Scan t pieces ∧ s.substitute t = pieces.flatMap (Piece.written s.symbols) := by
  -- By the length of the text, since a reference passes over a whole marker at once.
  induction hlen : t.length using Nat.strongRecOn generalizing t with
  | ind n ih =>
      by_cases hfit : ∃ name, s.Fits name t
      · obtain ⟨other, hother⟩ := hfit
        obtain ⟨name, hchosen⟩ := exists_chosen hother
        obtain ⟨rest, ht⟩ := hchosen.1.2
        have hshort : rest.length < n := by
          rw [← hlen, ← ht, List.length_append, length_marker]
          omega
        obtain ⟨pieces, hscan, hwritten⟩ := ih rest.length hshort rest rfl
        refine ⟨.reference name :: pieces, .reference ht.symm hchosen hscan, ?_⟩
        rw [h.substitute_reference ht.symm hchosen, hwritten, List.flatMap_cons]
        rfl
      · have hno : ∀ name, ¬ s.Fits name t := fun name hf => hfit ⟨name, hf⟩
        cases t with
        | nil => exact ⟨[], .done, by simp⟩
        | cons c rest =>
            have hshort : rest.length < n := by
              rw [← hlen]
              exact Nat.lt_succ_self _
            obtain ⟨pieces, hscan, hwritten⟩ := ih rest.length hshort rest rfl
            refine ⟨.kept c :: pieces, .kept hno hscan, ?_⟩
            rw [substitute_kept hno, hwritten, List.flatMap_cons]
            rfl

/-- A text has only one reading. -/
theorem Scan.unique {others : List Piece} (h : s.Scan t pieces) (h' : s.Scan t others) :
    pieces = others := by
  induction h generalizing others with
  | done =>
      cases h' with
      | done => rfl
      | reference ht => simp [marker, markerOpen] at ht
  | @reference t name rest pieces ht hchosen _ ih =>
      cases h' with
      | done => simp [marker, markerOpen] at ht
      | @reference _ other rest' _ ht' hchosen' hrest' =>
          obtain rfl := hchosen.unique hchosen'
          obtain rfl := List.append_cancel_left (ht.symm.trans ht')
          rw [ih hrest']
      | kept hno => exact absurd hchosen.1 (hno name)
  | @kept c rest pieces hno _ ih =>
      cases h' with
      | reference _ hchosen => exact absurd hchosen.1 (hno _)
      | kept _ hrest' => rw [ih hrest']

theorem Scan.source (h : s.Scan t pieces) : pieces.flatMap Piece.source = t := by
  induction h with
  | done => rfl
  | reference ht _ _ ih => rw [List.flatMap_cons, ih, ht, Piece.source]
  | kept _ _ ih => rw [List.flatMap_cons, ih, Piece.source, List.singleton_append]

/-- The reading depends on what fits at the places of the text only. -/
theorem Scan.congr_fits {s' : Segment} (h : s.Scan t pieces)
    (hfits : ∀ name rest, rest <:+ t → (s'.Fits name rest ↔ s.Fits name rest)) :
    s'.Scan t pieces := by
  induction h with
  | done => exact .done
  | @reference t name rest pieces ht hchosen _ ih =>
      have hhere := fun other => hfits other t (List.suffix_refl t)
      have hbehind : rest <:+ t := by
        rw [ht]
        exact List.suffix_append _ _
      refine .reference ht ⟨(hhere name).mpr hchosen.1, ?_⟩ ?_
      · intro other hother
        exact hchosen.2 other ((hhere other).mp hother)
      · exact ih fun other later hlater => hfits other later (hlater.trans hbehind)
  | @kept c rest pieces hno _ ih =>
      refine .kept ?_ (ih ?_)
      · intro name hname
        exact hno name ((hfits name _ (List.suffix_refl _)).mp hname)
      · intro other later hlater
        exact hfits other later (hlater.trans (List.suffix_cons c rest))

theorem Scan.congr {s' : Segment} (hnames : ∀ name, name ∈ s'.names ↔ name ∈ s.names)
    (h : s.Scan t pieces) : s'.Scan t pieces :=
  h.congr_fits fun name rest _ => by rw [Fits, Fits, hnames]

/-- Substitution is the scan, for every segment that offers can build and every text. The scan
reads each text in one way, loses none of it, and reads it alike for all segments that declare the
same names, in whatever order. -/
theorem ofOffers_substitute_scan (offers : List Offer) (body : Text) :
    ∃ pieces, (∀ others, (ofOffers offers).Scan body others ↔ others = pieces) ∧
      (ofOffers offers).substitute body =
        pieces.flatMap (Piece.written (ofOffers offers).symbols) ∧
      pieces.flatMap Piece.source = body ∧
      ∀ reordered : List Offer,
        (∀ name, name ∈ (ofOffers reordered).names ↔ name ∈ (ofOffers offers).names) →
        (ofOffers reordered).substitute body =
          pieces.flatMap (Piece.written (ofOffers reordered).symbols) := by
  obtain ⟨pieces, hscan, hwritten⟩ := (ofOffers_sized offers).exists_scan body
  refine ⟨pieces, ?_, hwritten, hscan.source, ?_⟩
  · intro others
    constructor
    · exact fun h => h.unique hscan
    · rintro rfl
      exact hscan
  · intro reordered hnames
    obtain ⟨others, hscan', hwritten'⟩ := (ofOffers_sized reordered).exists_scan body
    rw [hwritten', hscan'.unique (hscan.congr hnames)]

end Segment
end Bytelink
