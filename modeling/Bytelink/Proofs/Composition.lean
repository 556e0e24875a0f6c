import Bytelink.Proofs.Layout
import Bytelink.Link.Fragment

/-!
# Segments are put together from separate listings

A listing is read without regard to what the segment holds already, but for the limit on the size of
the whole. So what a listing adds to a segment is what it declares on its own, when it is read into
the empty segment (`append_eq_ok_iff_alone`), and a fault other than an overflow is one that it has
on its own (`append_error_alone`).

`ofFragments_compositional` says this of whole lists of fragments: their listings can be put
together exactly if each can be read alone and the sizes have room together. It also says that
offers which are refused can stand anywhere among others and change nothing.
-/
namespace Bytelink

namespace Grammar

variable {registry : Registry} {old new : Nat} {earlier rs : List Text} {row : Text} {fault : Fault}

/-- Only an overflow depends on the size of the segment. -/
theorem Breaks.of_ne_overflow (h : Breaks registry old earlier row fault)
    (hfault : fault ≠ .segmentOverflow) (new : Nat) : Breaks registry new earlier row fault := by
  cases h with
  | label hl hn => exact .label hl hn
  | orphan hd hno => exact .orphan hd hno
  | undecodable hd hex hdec => exact .undecodable hd hex hdec
  | overflow => exact absurd rfl hfault

theorem Breaks.mono (h : Breaks registry new earlier row fault) (hle : new ≤ old) :
    Breaks registry old earlier row fault := by
  cases h with
  | label hl hn => exact .label hl hn
  | orphan hd hno => exact .orphan hd hno
  | undecodable hd hex hdec => exact .undecodable hd hex hdec
  | overflow hd hex hdec hover => exact .overflow hd hex hdec (by omega)

theorem Unbroken.mono (h : Unbroken registry old rs) (hle : new ≤ old) :
    Unbroken registry new rs :=
  fun before row after fault hsplit hb => h before row after fault hsplit (hb.mono hle)

/-- The first fault of a listing, unless it is an overflow, is also its first fault for a smaller
segment. -/
theorem FirstBreak.of_ne_overflow {index : Nat} (h : FirstBreak registry old rs index fault)
    (hfault : fault ≠ .segmentOverflow) (hle : new ≤ old) :
    FirstBreak registry new rs index fault := by
  obtain ⟨before, row, after, hsplit, hlen, hub, hb⟩ := h
  exact ⟨before, row, after, hsplit, hlen, hub.mono hle, hb.of_ne_overflow hfault new⟩

/-- A listing suits a segment exactly if it suits the empty one and there is room for it. -/
theorem accepts_iff : Accepts registry old rs ↔
    Accepts registry 0 rs ∧ old + size registry rs ≤ Segment.sizeLimit := by
  constructor
  · intro h
    exact ⟨⟨h.labels, h.directives, by have := h.fits; omega⟩, h.fits⟩
  · rintro ⟨h, hfits⟩
    exact ⟨h.labels, h.directives, hfits⟩

end Grammar

def Segment.appendFragment (s : Segment) (registry : Registry) (f : Fragment) :
    Except DataError Segment :=
  match f.listing with
  | none => .ok s
  | some text => s.append registry f.origin text

def Fragment.alone (registry : Registry) (f : Fragment) : Except DataError Segment :=
  Segment.empty.appendFragment registry f

namespace Segment

/-- The number of bytes in some segments together. -/
def sizes : List Segment → Nat
  | [] => 0
  | part :: parts => part.totalSize.toNat + sizes parts

/-- `whole` is `s` with the segments `parts` after it, one after another. -/
structure Joins (s : Segment) (parts : List Segment) (whole : Segment) : Prop where
  symbols : whole.symbols = s.symbols ++ parts.flatMap (·.symbols)
  size : whole.totalSize.toNat = s.totalSize.toNat + sizes parts

variable {registry : Registry} {origin text : Text} {fragments : List Fragment}
variable {s part next whole : Segment} {parts : List Segment} {e : DataError}

@[simp] theorem sizes_nil : sizes [] = 0 := rfl

@[simp] theorem sizes_cons (part : Segment) (parts : List Segment) :
    sizes (part :: parts) = part.totalSize.toNat + sizes parts := rfl

theorem joins_nil : s.Joins [] whole ↔ whole = s := by
  constructor
  · rintro ⟨hsymbols, hsize⟩
    obtain ⟨symbols, total⟩ := whole
    obtain ⟨symbols', total'⟩ := s
    simp only [List.flatMap_nil, List.append_nil] at hsymbols
    obtain rfl := UInt32.toNat_inj.mp hsize
    rw [hsymbols]
  · rintro rfl
    exact ⟨(List.append_nil _).symm, rfl⟩

theorem joins_empty : s.Joins [empty] whole ↔ whole = s := by
  rw [← joins_nil]
  exact ⟨fun h => ⟨h.symbols, h.size⟩, fun h => ⟨h.symbols, h.size⟩⟩

theorem totalSize_empty : empty.totalSize.toNat = 0 := rfl

theorem empty_joins_iff : empty.Joins parts whole ↔
    whole.symbols = parts.flatMap (·.symbols) ∧ whole.totalSize.toNat = sizes parts := by
  constructor
  · rintro ⟨hsymbols, hsize⟩
    rw [totalSize_empty, Nat.zero_add] at hsize
    exact ⟨hsymbols, hsize⟩
  · rintro ⟨hsymbols, hsize⟩
    rw [← Nat.zero_add (sizes parts), ← totalSize_empty] at hsize
    exact ⟨hsymbols, hsize⟩

theorem joins_cons : s.Joins (part :: parts) whole ↔
    ∃ next, s.Joins [part] next ∧ next.Joins parts whole := by
  constructor
  · rintro ⟨hsymbols, hsize⟩
    have hle := whole.totalSize_le
    rw [sizes_cons] at hsize
    have htotal : (UInt32.ofNat (s.totalSize.toNat + part.totalSize.toNat)).toNat =
        s.totalSize.toNat + part.totalSize.toNat := toNat_ofNat_of_le (by omega)
    refine ⟨⟨s.symbols ++ part.symbols, .ofNat (s.totalSize.toNat + part.totalSize.toNat)⟩,
      ⟨?_, ?_⟩, ⟨?_, ?_⟩⟩
    · rw [List.flatMap_singleton]
    · rw [sizes_cons, sizes_nil, Nat.add_zero, htotal]
    · rw [hsymbols, List.flatMap_cons, List.append_assoc]
    · rw [hsize, htotal, Nat.add_assoc]
  · rintro ⟨next, ⟨hnext, hnextSize⟩, ⟨hwhole, hwholeSize⟩⟩
    refine ⟨?_, ?_⟩
    · rw [hwhole, hnext, List.flatMap_singleton, List.flatMap_cons, List.append_assoc]
    · rw [hwholeSize, hnextSize, sizes_cons, sizes_cons, sizes_nil, Nat.add_zero, Nat.add_assoc]

theorem exists_joins_iff : (∃ whole, s.Joins parts whole) ↔
    s.totalSize.toNat + sizes parts ≤ sizeLimit := by
  constructor
  · rintro ⟨whole, hjoins⟩
    rw [← hjoins.size]
    exact whole.totalSize_le
  · intro hfits
    exact ⟨⟨s.symbols ++ parts.flatMap (·.symbols), .ofNat (s.totalSize.toNat + sizes parts)⟩, rfl,
      toNat_ofNat_of_le hfits⟩

/-- What a listing adds to a segment is the segment that it declares by itself. -/
theorem append_eq_ok_iff_alone : s.append registry origin text = .ok whole ↔
    ∃ part, empty.append registry origin text = .ok part ∧ s.Joins [part] whole := by
  constructor
  · intro h
    obtain ⟨hacc, hsymbols, htotal⟩ := Grammar.append_eq_ok_iff.mp h
    obtain ⟨halone, hfits⟩ := Grammar.accepts_iff.mp hacc
    have hsize := toNat_ofNat_of_le (Nat.le_trans (Nat.le_add_left _ _) hfits)
    refine ⟨⟨Grammar.symbols registry (Grammar.rows text),
      .ofNat (Grammar.size registry (Grammar.rows text))⟩, ?_, ⟨?_, ?_⟩⟩
    · refine Grammar.append_eq_ok_iff.mpr ⟨halone, rfl, ?_⟩
      rw [hsize]
      exact (Nat.zero_add _).symm
    · simpa using hsymbols
    · simpa [hsize] using htotal
  · rintro ⟨part, hpart, ⟨hsymbols, htotal⟩⟩
    obtain ⟨halone, hpartSymbols, hpartSize⟩ := Grammar.append_eq_ok_iff.mp hpart
    have hsize : part.totalSize.toNat = Grammar.size registry (Grammar.rows text) :=
      hpartSize.trans (Nat.zero_add _)
    have hle := whole.totalSize_le
    rw [sizes_cons, sizes_nil, Nat.add_zero, hsize] at htotal
    refine Grammar.append_eq_ok_iff.mpr ⟨Grammar.accepts_iff.mpr ⟨halone, by omega⟩, ?_, htotal⟩
    rw [hsymbols, List.flatMap_singleton, hpartSymbols]
    rfl

theorem append_eq_error_alone (h : s.append registry origin text = .error e)
    (hfault : e.fault ≠ .segmentOverflow) : empty.append registry origin text = .error e := by
  obtain ⟨index, fault, hfirst, rfl⟩ := Grammar.append_eq_error_iff.mp h
  exact Grammar.append_eq_error_iff.mpr
    ⟨index, fault, hfirst.of_ne_overflow hfault (Nat.zero_le _), rfl⟩

theorem appendFragments_cons (s : Segment) (registry : Registry) (f : Fragment)
    (rest : List Fragment) : s.appendFragments registry (f :: rest) =
      (s.appendFragment registry f).bind fun next => next.appendFragments registry rest := by
  unfold appendFragment
  rw [appendFragments]
  cases f.listing with
  | none => rfl
  | some text =>
      simp only
      cases s.append registry f.origin text <;> rfl

theorem appendFragment_eq_ok_iff {f : Fragment} : s.appendFragment registry f = .ok whole ↔
    ∃ part, f.alone registry = .ok part ∧ s.Joins [part] whole := by
  unfold Fragment.alone appendFragment
  cases f.listing with
  | none =>
      simp only [Except.ok.injEq, exists_eq_left', joins_empty]
      exact eq_comm
  | some text => exact append_eq_ok_iff_alone

theorem appendFragment_eq_error_alone {f : Fragment} (h : s.appendFragment registry f = .error e)
    (hfault : e.fault ≠ .segmentOverflow) : f.alone registry = .error e := by
  unfold Fragment.alone
  unfold appendFragment at h ⊢
  cases hlisting : f.listing with
  | none => simp [hlisting] at h
  | some text =>
      simp only [hlisting] at h ⊢
      exact append_eq_error_alone h hfault

theorem appendFragments_eq_ok_iff : s.appendFragments registry fragments = .ok whole ↔
    ∃ parts, fragments.map (Fragment.alone registry) = parts.map .ok ∧ s.Joins parts whole := by
  induction fragments generalizing s with
  | nil =>
      rw [appendFragments, Except.ok.injEq]
      constructor
      · rintro rfl
        exact ⟨[], rfl, joins_nil.mpr rfl⟩
      · rintro ⟨parts, hparts, hjoins⟩
        obtain rfl : parts = [] := List.map_eq_nil_iff.mp hparts.symm
        exact (joins_nil.mp hjoins).symm
  | cons f rest ih =>
      rw [appendFragments_cons]
      constructor
      · intro h
        cases hone : s.appendFragment registry f with
        | error e => simp [hone, Except.bind] at h
        | ok next =>
            rw [hone] at h
            obtain ⟨part, hpart, hnext⟩ := appendFragment_eq_ok_iff.mp hone
            obtain ⟨parts, hparts, hjoins⟩ := ih.mp h
            refine ⟨part :: parts, ?_, joins_cons.mpr ⟨next, hnext, hjoins⟩⟩
            rw [List.map_cons, List.map_cons, hpart, hparts]
      · rintro ⟨parts, hparts, hjoins⟩
        obtain ⟨part, parts, rfl, hpart, hrest⟩ := List.map_eq_cons_iff.mp hparts.symm
        obtain ⟨next, hnext, hjoins⟩ := joins_cons.mp hjoins
        rw [appendFragment_eq_ok_iff.mpr ⟨part, hpart.symm, hnext⟩]
        exact ih.mpr ⟨parts, hrest.symm, hjoins⟩

/-- The first fragment that is refused for anything but an overflow is the first that is refused by
itself, and with the same error. -/
theorem appendFragments_eq_error_alone (h : s.appendFragments registry fragments = .error e)
    (hfault : e.fault ≠ .segmentOverflow) :
    ∃ before f after, fragments = before ++ f :: after ∧
      (∀ g ∈ before, ∃ part, g.alone registry = .ok part) ∧ f.alone registry = .error e := by
  induction fragments generalizing s with
  | nil => simp [appendFragments] at h
  | cons f rest ih =>
      rw [appendFragments_cons] at h
      cases hone : s.appendFragment registry f with
      | error e' =>
          rw [hone] at h
          obtain rfl := Except.error.inj h
          exact ⟨[], f, rest, rfl, by simp, appendFragment_eq_error_alone hone hfault⟩
      | ok next =>
          rw [hone] at h
          obtain ⟨part, hpart, -⟩ := appendFragment_eq_ok_iff.mp hone
          obtain ⟨before, g, after, rfl, hbefore, hg⟩ := ih h
          refine ⟨f :: before, g, after, rfl, ?_, hg⟩
          intro k hk
          rcases List.mem_cons.mp hk with rfl | hk
          · exact ⟨part, hpart⟩
          · exact hbefore k hk

/-- `more` is `offers` with others in between, each of them refused in its turn. -/
inductive Interspersed : Segment → List Offer → List Offer → Prop
  | done {s : Segment} : Interspersed s [] []
  | common {s : Segment} {o : Offer} {offers more : List Offer} :
      Interspersed (s.offer o) offers more → Interspersed s (o :: offers) (o :: more)
  | refused {s : Segment} {o : Offer} {e : DataError} {offers more : List Offer} :
      s.append o.registry o.origin o.text = .error e → Interspersed s offers more →
      Interspersed s offers (o :: more)

theorem Interspersed.foldl_offer {offers more : List Offer} (h : Interspersed s offers more) :
    more.foldl offer s = offers.foldl offer s := by
  induction h with
  | done => rfl
  | common _ ih => exact ih
  | @refused s o e offers more herror _ ih =>
      have hsame : s.offer o = s := by simp only [offer, herror]
      rw [List.foldl_cons, hsame, ih]

/-- The listings of fragments make a segment exactly if each is taken by itself and their sizes have
room together, and then its symbols are theirs, one listing after another. The first fault that is
no overflow is the first that a fragment has by itself. And offers that are refused make no
difference to a segment, wherever they stand among others. -/
theorem ofFragments_compositional (registry : Registry) (fragments : List Fragment) :
    (∀ whole, ofFragments registry fragments = .ok whole ↔
      ∃ parts, fragments.map (Fragment.alone registry) = parts.map .ok ∧
        whole.symbols = parts.flatMap (·.symbols) ∧ whole.totalSize.toNat = sizes parts) ∧
    ((∃ whole, ofFragments registry fragments = .ok whole) ↔
      ∃ parts, fragments.map (Fragment.alone registry) = parts.map .ok ∧
        sizes parts ≤ sizeLimit) ∧
    (∀ e, ofFragments registry fragments = .error e → e.fault ≠ .segmentOverflow →
      ∃ before f after, fragments = before ++ f :: after ∧
        (∀ g ∈ before, ∃ part, g.alone registry = .ok part) ∧ f.alone registry = .error e) ∧
    ∀ (s : Segment) (offers more : List Offer), Interspersed s offers more →
      more.foldl offer s = offers.foldl offer s := by
  refine ⟨?_, ?_, fun e => appendFragments_eq_error_alone, fun s offers more => ?_⟩
  · intro whole
    rw [ofFragments, appendFragments_eq_ok_iff]
    simp only [empty_joins_iff]
  · simp only [ofFragments, appendFragments_eq_ok_iff]
    constructor
    · rintro ⟨whole, parts, hparts, hwhole⟩
      refine ⟨parts, hparts, ?_⟩
      rw [← (empty_joins_iff.mp hwhole).2]
      exact whole.totalSize_le
    · rintro ⟨parts, hparts, hfits⟩
      have hroom : empty.totalSize.toNat + sizes parts ≤ sizeLimit := by
        rwa [totalSize_empty, Nat.zero_add]
      obtain ⟨whole, hwhole⟩ := exists_joins_iff.mpr hroom
      exact ⟨whole, parts, hparts, hwhole⟩
  · exact Interspersed.foldl_offer

/-- The third of four fragments is refused with the number of its own line, and a listing that is
refused between two others leaves no trace. -/
theorem third_fragment_refused :
    let listed : Fragment := ⟨"a.c", [], some "A:\n\t.ascii \"xy\"\n"⟩
    let bare : Fragment := .ofBody "b.c" "\tnop\n"
    let faulty : Fragment := ⟨"c.c", [], some "B:\n\t.word 7\n"⟩
    let orphan : Fragment := ⟨"d.c", [], some ".ascii \"z\"\n"⟩
    let fragments := [listed, bare, faulty, orphan]
    let error : DataError := ⟨"c.c", 2, .unimplementedDirective "word"⟩
    let first : Offer := ⟨.standard, "a.c", "A:\n\t.ascii \"xy\"\n"⟩
    let refused : Offer := ⟨.empty, "c.c", "B:\n\t.ascii \"xy\"\n"⟩
    let last : Offer := ⟨.standard, "d.c", "D:\n"⟩
    (ofFragments .standard fragments = .error error ∧ error.fault ≠ .segmentOverflow ∧
      ∃ before f after, fragments = before ++ f :: after ∧
        (∀ g ∈ before, ∃ part, g.alone .standard = .ok part) ∧ f.alone .standard = .error error) ∧
    Interspersed empty [first, last] [first, refused, last] ∧
      [first, refused, last].foldl offer empty = [first, last].foldl offer empty := by
  intro listed bare faulty orphan fragments error first refused last
  obtain ⟨-, -, hfaults, hoffers⟩ := ofFragments_compositional .standard fragments
  have herror : ofFragments .standard fragments = .error error := by with_unfolding_all rfl
  have hfault : error.fault ≠ .segmentOverflow := by simp [error]
  have hrefused : (empty.offer first).append refused.registry refused.origin refused.text =
      .error ⟨"c.c", 2, .unimplementedDirective "ascii"⟩ := by with_unfolding_all rfl
  have hoffered : Interspersed empty [first, last] [first, refused, last] :=
    .common (.refused hrefused (.common .done))
  exact ⟨⟨herror, hfault, hfaults error herror hfault⟩, hoffered, hoffers _ _ _ hoffered⟩

end Segment
end Bytelink
