import Bytelink.Proofs.Linking
import Bytelink.Proofs.Replacement

/-!
# Segments that grow

An offer only ever puts symbols behind those that are there. What was laid out keeps its place, and
the bytes of the larger segment go on from those of the smaller one (`GrowsTo.offsetOf?`,
`GrowsTo.payloads`).

A reference could still be stolen: a marker refers to the longest name that fits, over the whole
segment. A name that is declared anew can only take a marker that is spelled out in the text, so a
text that spells none of the new markers is read as before (`GrowsTo.scan`), whatever beginnings of
each other the old and the new names are. A name that is declared again keeps its first symbol.
-/
namespace Bytelink
namespace Segment

variable {s longer : Segment} {name t : Text} {pieces : List Piece}

/-- The symbols of the one segment stand in front of all others of the second. -/
def GrowsTo (s longer : Segment) : Prop := s.symbols <+: longer.symbols

theorem growsTo_offer (s : Segment) (o : Offer) : s.GrowsTo (s.offer o) := by
  obtain ⟨added, hsymbols, -⟩ := offer_added s o
  rw [GrowsTo, hsymbols]
  exact List.prefix_append _ _

/-- Further offers, taken or refused, make a segment grow. -/
theorem growsTo_offers (s : Segment) (more : List Offer) : s.GrowsTo (more.foldl offer s) := by
  induction more generalizing s with
  | nil => exact List.prefix_refl _
  | cons o rest ih =>
      have hfirst := growsTo_offer s o
      exact hfirst.trans (ih (s.offer o))

theorem GrowsTo.mem_names (h : s.GrowsTo longer) (hname : name ∈ s.names) :
    name ∈ longer.names := by
  have hnames : s.names <+: longer.names := h.map _
  exact hnames.subset hname

/-- The first symbol of a name, and all before it, stay where they are. -/
theorem GrowsTo.sizeBefore (h : s.GrowsTo longer) (hname : name ∈ s.names) :
    sizeBefore name longer.symbols = sizeBefore name s.symbols := by
  obtain ⟨more, hmore⟩ := h
  rw [← hmore]
  exact sizeBefore_append_of_mem hname more

theorem GrowsTo.offsetOf? (h : s.GrowsTo longer) (hs : s.Sized) (hlonger : longer.Sized)
    (hname : name ∈ s.names) :
    ∃ offset, s.offsetOf? name = some offset ∧ longer.offsetOf? name = some offset := by
  obtain ⟨-, offset, -, hoffset, hplace, -⟩ := hs.exists_first_placed hname
  obtain ⟨-, offset', -, hoffset', hplace', -⟩ := hlonger.exists_first_placed (h.mem_names hname)
  have hsame : offset' = offset := by
    apply UInt32.toNat_inj.mp
    rw [hplace, hplace', h.sizeBefore hname]
  exact ⟨offset, hoffset, hsame ▸ hoffset'⟩

/-- Behind the header a persisted segment has the payloads in the order of declaration. -/
theorem drop_toBytes (s : Segment) : s.toBytes.drop 4 = s.symbols.flatMap (·.payload) := by
  have hheader : (bigEndian s.totalSize).length = 4 := rfl
  rw [toBytes, ← hheader, List.drop_left, ← s.layout_symbols, List.flatMap_map]

theorem GrowsTo.payloads (h : s.GrowsTo longer) : s.toBytes.drop 4 <+: longer.toBytes.drop 4 := by
  obtain ⟨more, hmore⟩ := h
  rw [drop_toBytes, drop_toBytes, ← hmore, List.flatMap_append]
  exact List.prefix_append _ _

theorem Scan.mem_names (h : s.Scan t pieces) (href : .reference name ∈ pieces) :
    name ∈ s.names := by
  induction h with
  | done => cases href
  | reference _ hchosen _ ih =>
      cases href with
      | head => exact hchosen.1.1
      | tail _ htail => exact ih htail
  | kept _ _ ih =>
      cases href with
      | tail _ htail => exact ih htail

/-- Where a text spells no marker of a new name, nothing new fits. -/
theorem GrowsTo.fits_iff (h : s.GrowsTo longer)
    (hnew : ∀ name ∈ longer.names, name ∉ s.names → ¬ marker name <:+: t) {rest : Text}
    (hrest : rest <:+ t) : longer.Fits name rest ↔ s.Fits name rest := by
  constructor
  · intro hfits
    have hspelled : marker name <:+: t := hfits.2.isInfix.trans hrest.isInfix
    have hold : name ∈ s.names := by
      by_contra hno
      exact hnew name hfits.1 hno hspelled
    exact ⟨hold, hfits.2⟩
  · intro hfits
    exact ⟨h.mem_names hfits.1, hfits.2⟩

/-- The larger segment reads such a text as the smaller one does. -/
theorem GrowsTo.scan (h : s.GrowsTo longer)
    (hnew : ∀ name ∈ longer.names, name ∉ s.names → ¬ marker name <:+: t)
    (hscan : s.Scan t pieces) : longer.Scan t pieces :=
  hscan.congr_fits fun _ _ hrest => h.fits_iff hnew hrest

theorem GrowsTo.writtenText (h : s.GrowsTo longer)
    (hnames : ∀ name, .reference name ∈ pieces → name ∈ s.names) :
    writtenText longer.symbols pieces = writtenText s.symbols pieces := by
  induction pieces with
  | nil => rfl
  | cons piece pieces ih =>
      have hrest := ih fun name hname => hnames name (List.mem_cons_of_mem _ hname)
      cases piece with
      | kept c => rw [writtenText_kept, writtenText_kept, hrest]
      | reference name =>
          have hname := hnames name List.mem_cons_self
          rw [writtenText_reference, writtenText_reference, h.sizeBefore hname, hrest]

/-- Substitution changes only in texts that spell the marker of a new name. -/
theorem GrowsTo.substitute (h : s.GrowsTo longer) (hs : s.Sized) (hlonger : longer.Sized)
    (hnew : ∀ name ∈ longer.names, name ∉ s.names → ¬ marker name <:+: t) :
    longer.substitute t = s.substitute t := by
  obtain ⟨pieces, hscan, hwritten⟩ := hs.exists_writtenText t
  obtain ⟨others, hscan', hwritten'⟩ := hlonger.exists_writtenText t
  have hsame : others = pieces := hscan'.unique (h.scan hnew hscan)
  rw [hwritten', hwritten, hsame]
  exact h.writtenText fun name hname => hscan.mem_names hname

/-- Further offers are conservative, for every segment that offers can build: no declared name
moves, also if it is declared again; the persisted bytes go on from those that were there; and
every text that spells no marker of a name that is only declared by the further offers is
substituted as before. -/
theorem ofOffers_append_conservative (offers more : List Offer) :
    (∀ name ∈ (ofOffers offers).names, ∃ offset,
      (ofOffers offers).offsetOf? name = some offset ∧
      (ofOffers (offers ++ more)).offsetOf? name = some offset) ∧
    (ofOffers offers).toBytes.drop 4 <+: (ofOffers (offers ++ more)).toBytes.drop 4 ∧
    ∀ body : Text,
      (∀ name ∈ (ofOffers (offers ++ more)).names, name ∉ (ofOffers offers).names →
        ¬ marker name <:+: body) →
      (ofOffers (offers ++ more)).substitute body = (ofOffers offers).substitute body := by
  have hs := ofOffers_sized offers
  have hlonger := ofOffers_sized (offers ++ more)
  have hgrows : (ofOffers offers).GrowsTo (ofOffers (offers ++ more)) := by
    rw [ofOffers, ofOffers, List.foldl_append]
    exact growsTo_offers _ more
  refine ⟨?_, hgrows.payloads, ?_⟩
  · intro name hname
    exact hgrows.offsetOf? hs hlonger hname
  · intro body hnew
    exact hgrows.substitute hs hlonger hnew

/-- A second listing declares `A` again, and with `Aend` a longer name of which `A` is a beginning.
The text has markers of the old names, one right after a `symref` that stays, and the text `Aend`,
but no marker of it. -/
theorem substitute_beside_longer_name :
    let offers : List Offer := [⟨.standard, "a.c", "A:\n\t.ascii \"xy\"\nB:\n"⟩]
    let more : List Offer := [⟨.standard, "b.c", "Aend:\n\t.ascii \"hi\"\nA:\n\t.ascii \"z\"\n"⟩]
    let body : Text := "symrefAend symrefsymrefBend Aend"
    (ofOffers (offers ++ more)).names = (ofOffers offers).names ++ ["Aend".toList, "A".toList] ∧
    (∀ name ∈ (ofOffers (offers ++ more)).names, name ∉ (ofOffers offers).names →
      ¬ marker name <:+: body) ∧
    (ofOffers (offers ++ more)).substitute body = (ofOffers offers).substitute body ∧
    (ofOffers offers).substitute body = "sipush 4096 symrefsipush 4098 Aend".toList := by
  intro offers more body
  have hnew : ∀ name ∈ (ofOffers (offers ++ more)).names, name ∉ (ofOffers offers).names →
      ¬ marker name <:+: body := by
    decide +kernel
  exact ⟨by decide +kernel, hnew, (ofOffers_append_conservative offers more).2.2 body hnew,
    by decide +kernel⟩

end Segment
end Bytelink
