import Bytelink.Proofs.Grammar
import Mathlib.Logic.ExistsUnique

/-!
# Exact sizes and offsets

A segment keeps its size in a word that grows with each directive, and computes offsets anew with
saturating additions of truncated payload lengths. `Sized` says that the word is the exact sum of
all payload lengths. Every offer keeps it, whether it is taken or refused, and it is all that the
layout needs: no length is truncated, no addition saturates, and the payloads tile the segment
(`Tiled`). `ofOffers_tiled` states this of every segment that offers can build, in particular after
each single offer, since the offers before it build a segment too.
-/
namespace Bytelink

/-- The exact number of payload bytes of some symbols. -/
def payloadSize : List Symbol → Nat
  | [] => 0
  | s :: rest => s.payload.length + payloadSize rest

theorem payloadSize_append (a b : List Symbol) :
    payloadSize (a ++ b) = payloadSize a + payloadSize b := by
  induction a with
  | nil => simp [payloadSize]
  | cons s rest ih => simp only [List.cons_append, payloadSize, ih, Nat.add_assoc]

theorem payloadSize_reverse (a : List Symbol) : payloadSize a.reverse = payloadSize a := by
  induction a with
  | nil => rfl
  | cons s rest ih =>
      rw [List.reverse_cons, payloadSize_append, ih]
      simp only [payloadSize]
      omega

theorem payloadSize_eq_length (a : List Symbol) :
    payloadSize a = (a.flatMap (·.payload)).length := by
  induction a with
  | nil => rfl
  | cons s rest ih => rw [List.flatMap_cons, List.length_append, ← ih, payloadSize]

theorem payloadSize_take_succ {a : List Symbol} {i : Nat} (h : i < a.length) :
    payloadSize (a.take (i + 1)) = payloadSize (a.take i) + a[i].payload.length := by
  rw [List.take_succ_eq_append_getElem h, payloadSize_append]
  rfl

theorem payloadSize_take_le (a : List Symbol) (i : Nat) :
    payloadSize (a.take i) ≤ payloadSize a := by
  have hsum := congrArg payloadSize (List.take_append_drop i a)
  rw [payloadSize_append] at hsum
  omega

theorem payloadSize_take_mono (a : List Symbol) {i j : Nat} (h : i ≤ j) :
    payloadSize (a.take i) ≤ payloadSize (a.take j) := by
  have hle := payloadSize_take_le (a.take j) i
  rwa [List.take_take, Nat.min_eq_left h] at hle

theorem payloadSize_take_add_le {a : List Symbol} {i : Nat} (h : i < a.length) :
    payloadSize (a.take i) + a[i].payload.length ≤ payloadSize a := by
  rw [← payloadSize_take_succ h]
  exact payloadSize_take_le a (i + 1)

theorem exists_payload_at {a : List Symbol} {k : Nat} (hk : k < payloadSize a) :
    ∃ i, ∃ h : i < a.length, payloadSize (a.take i) ≤ k ∧
      k < payloadSize (a.take i) + a[i].payload.length := by
  induction a generalizing k with
  | nil => exact absurd hk (Nat.not_lt_zero k)
  | cons s rest ih =>
      by_cases hfirst : k < s.payload.length
      · exact ⟨0, by simp, by simp [payloadSize], by simpa [payloadSize] using hfirst⟩
      · rw [payloadSize] at hk
        have hrest : k - s.payload.length < payloadSize rest := by omega
        obtain ⟨i, hi, hlow, hhigh⟩ := ih hrest
        refine ⟨i + 1, by simpa using hi, ?_, ?_⟩
        · simp only [List.take_succ_cons, payloadSize]
          omega
        · simp only [List.take_succ_cons, payloadSize, List.getElem_cons_succ]
          omega

theorem payload_at_unique {a : List Symbol} {i j k : Nat} (hj : j < a.length)
    (hlow : payloadSize (a.take i) ≤ k)
    (hhigh : k < payloadSize (a.take j) + a[j].payload.length) : i ≤ j := by
  refine Nat.le_of_not_lt fun hlt => ?_
  have hmono := payloadSize_take_mono a (show j + 1 ≤ i from hlt)
  rw [payloadSize_take_succ hj] at hmono
  omega

theorem Symbol.size_toNat {s : Symbol} (h : s.payload.length ≤ Segment.sizeLimit) :
    s.size.toNat = s.payload.length := by
  unfold Segment.sizeLimit at h
  simp only [Symbol.size, UInt32.toNat_ofNat']
  omega

theorem saturatingAdd_toNat {a b : UInt32} (h : a.toNat + b.toNat ≤ Segment.sizeLimit) :
    (saturatingAdd a b).toNat = a.toNat + b.toNat := by
  unfold Segment.sizeLimit at h
  have hlt : a.toNat + b.toNat < UInt32.size := by
    simp only [UInt32.size]
    omega
  rw [saturatingAdd, if_pos hlt, UInt32.toNat_add]
  omega

namespace Segment

def ofOffers (offers : List Offer) : Segment := offers.foldl offer empty

/-- The recorded size is the exact sum of all payload lengths. -/
def Sized (s : Segment) : Prop := s.totalSize.toNat = payloadSize s.symbols

variable {s s' : Segment} {registry : Registry} {origin text : Text}

theorem step_total {l l' : Listing} {row : Text}
    (h : Grammar.Step registry l row (.ok l')) :
    l'.total.toNat + payloadSize l.symbols = l.total.toNat + payloadSize l'.symbols := by
  cases h with
  | blank => rfl
  | payload _ hs _ hfits =>
      rw [Grammar.toNat_add_payload hfits, hs]
      simp only [payloadSize, List.length_append]
      omega
  | symbol => simp only [payloadSize, List.length_nil, Nat.zero_add]

/-- A listing that is taken adds symbols at the end, and exactly their bytes to the size. -/
theorem append_added (h : s.append registry origin text = .ok s') :
    ∃ added, s'.symbols = s.symbols ++ added ∧
      s'.totalSize.toNat = s.totalSize.toNat + payloadSize added := by
  unfold append at h
  split at h
  · simp at h
  · rename_i listing hread
    obtain rfl := Except.ok.inj h
    refine ⟨listing.symbols.reverse, rfl, ?_⟩
    rw [payloadSize_reverse]
    refine Grammar.readLines_invariant
      (P := fun l => l.total.toNat = s.totalSize.toNat + payloadSize l.symbols) ?_ rfl hread
    intro l row l' hl hstep
    have htotal := step_total hstep
    omega

theorem offer_cases (s : Segment) (o : Offer) :
    s.offer o = s ∨ s.append o.registry o.origin o.text = .ok (s.offer o) := by
  unfold offer
  cases h : s.append o.registry o.origin o.text with
  | error e => exact Or.inl rfl
  | ok s' => exact Or.inr rfl

theorem offer_added (s : Segment) (o : Offer) :
    ∃ added, (s.offer o).symbols = s.symbols ++ added ∧
      (s.offer o).totalSize.toNat = s.totalSize.toNat + payloadSize added := by
  rcases offer_cases s o with h | h
  · exact ⟨[], by simp [h], by simp [h, payloadSize]⟩
  · exact append_added h

theorem Sized.offer (h : s.Sized) (o : Offer) : (s.offer o).Sized := by
  obtain ⟨added, hsymbols, htotal⟩ := offer_added s o
  unfold Sized at h ⊢
  rw [hsymbols, htotal, payloadSize_append, h]

/-- What the empty segment has and every offer keeps holds of every segment that is built. -/
theorem ofOffers_invariant {P : Segment → Prop} (start : P empty)
    (keeps : ∀ s o, P s → P (s.offer o)) (offers : List Offer) :
    P (ofOffers offers) := by
  have hfold : ∀ s, P s → P (offers.foldl Segment.offer s) := by
    induction offers with
    | nil => exact fun s hs => hs
    | cons o rest ih => exact fun s hs => ih (s.offer o) (keeps s o hs)
  exact hfold empty start

theorem ofOffers_sized (offers : List Offer) : (ofOffers offers).Sized :=
  ofOffers_invariant (P := Sized) rfl (fun _ o hs => hs.offer o) offers

theorem toNat_ofNat_of_le {n : Nat} (h : n ≤ sizeLimit) : (UInt32.ofNat n).toNat = n :=
  UInt32.toNat_ofNat_of_lt' (Nat.lt_succ_of_le h)

theorem totalSize_le (s : Segment) : s.totalSize.toNat ≤ sizeLimit :=
  Nat.le_of_lt_succ s.totalSize.toNat_lt

theorem Sized.payloadSize_le (h : s.Sized) : payloadSize s.symbols ≤ sizeLimit := by
  have hlt := s.totalSize.toNat_lt
  unfold Sized at h
  unfold sizeLimit
  omega

theorem layoutFrom_symbols (next : UInt32) (symbols : List Symbol) :
    (layoutFrom next symbols).map (·.symbol) = symbols := by
  induction symbols generalizing next with
  | nil => rfl
  | cons first rest ih => simp only [layoutFrom, List.map_cons, ih]

theorem layout_symbols (s : Segment) : s.layout.map (·.symbol) = s.symbols :=
  layoutFrom_symbols 0 s.symbols

/-- The symbols after some others are placed from the end of these on. -/
theorem layoutFrom_append {next : UInt32} {front : List Symbol}
    (h : next.toNat + payloadSize front ≤ sizeLimit) (rest : List Symbol) :
    ∃ middle : UInt32, middle.toNat = next.toNat + payloadSize front ∧
      layoutFrom next (front ++ rest) = layoutFrom next front ++ layoutFrom middle rest := by
  induction front generalizing next with
  | nil => exact ⟨next, rfl, rfl⟩
  | cons first front ih =>
      rw [payloadSize] at h
      have hsize : first.size.toNat = first.payload.length := Symbol.size_toNat (by omega)
      have hadd : (saturatingAdd next first.size).toNat = next.toNat + first.payload.length := by
        rw [saturatingAdd_toNat (by omega), hsize]
      have hrest : (saturatingAdd next first.size).toNat + payloadSize front ≤ sizeLimit := by
        omega
      obtain ⟨middle, hmiddle, hlayout⟩ := ih hrest
      refine ⟨middle, ?_, ?_⟩
      · rw [hmiddle, hadd, payloadSize]
        omega
      · simp only [List.cons_append, layoutFrom, hlayout]

/-- A symbol stands at the exact end of the symbols declared before it. -/
theorem Sized.layout_split (h : s.Sized) {front back : List Symbol} {symbol : Symbol}
    (hsplit : s.symbols = front ++ symbol :: back) :
    ∃ before offset after, s.layout = before ++ ⟨symbol, offset⟩ :: after ∧
      before.map (·.symbol) = front ∧ offset.toNat = payloadSize front := by
  have hle := h.payloadSize_le
  rw [hsplit, payloadSize_append] at hle
  have hfront : (0 : UInt32).toNat + payloadSize front ≤ sizeLimit := by
    rw [UInt32.toNat_zero]
    omega
  obtain ⟨offset, hoffset, hlayout⟩ := layoutFrom_append hfront (symbol :: back)
  refine ⟨layoutFrom 0 front, offset, layoutFrom (saturatingAdd offset symbol.size) back, ?_,
    layoutFrom_symbols 0 front, by simpa using hoffset⟩
  rw [layout, hsplit, hlayout]
  rfl

theorem length_layout (s : Segment) : s.layout.length = s.symbols.length := by
  have hlen := congrArg List.length s.layout_symbols
  simpa using hlen

theorem Sized.layout_getElem (h : s.Sized) {i : Nat} (hi : i < s.layout.length)
    (hi' : i < s.symbols.length) : s.layout[i].symbol = s.symbols[i] ∧
      s.layout[i].offset.toNat = payloadSize (s.symbols.take i) := by
  have hsplit : s.symbols = s.symbols.take i ++ s.symbols[i] :: s.symbols.drop (i + 1) := by
    rw [← List.drop_eq_getElem_cons hi', List.take_append_drop]
  obtain ⟨before, offset, after, hlayout, hbefore, hoffset⟩ := h.layout_split hsplit
  have hlen : before.length = i := by
    have hmap := congrArg List.length hbefore
    simpa [Nat.min_eq_left (Nat.le_of_lt hi')] using hmap
  have hget : s.layout[i] = ⟨s.symbols[i], offset⟩ := by
    simp only [hlayout, ← hlen, List.getElem_append_right (Nat.le_refl _), Nat.sub_self,
      List.getElem_cons_zero]
  rw [hget]
  exact ⟨rfl, hoffset⟩

theorem Sized.placed_end_le (h : s.Sized) {p : Placed} (hp : p ∈ s.layout) :
    p.offset.toNat + p.symbol.payload.length ≤ s.totalSize.toNat := by
  obtain ⟨i, hi, rfl⟩ := List.getElem_of_mem hp
  have hi' : i < s.symbols.length := by rwa [← s.length_layout]
  obtain ⟨hsymbol, hoffset⟩ := h.layout_getElem hi hi'
  rw [hsymbol, hoffset, h]
  exact payloadSize_take_add_le hi'

theorem Sized.placed_size (h : s.Sized) {p : Placed} (hp : p ∈ s.layout) :
    p.symbol.size.toNat = p.symbol.payload.length := by
  have hend := h.placed_end_le hp
  have hlt := s.totalSize.toNat_lt
  refine Symbol.size_toNat ?_
  unfold sizeLimit
  omega

/-- The layout of a segment places its symbols in order, without gap or overlap and without any
loss in its word arithmetic. -/
structure Tiled (s : Segment) : Prop where
  symbols : s.layout.map (·.symbol) = s.symbols
  size : ∀ p ∈ s.layout, p.symbol.size.toNat = p.symbol.payload.length
  offset : ∀ i, ∀ h : i < s.layout.length,
    s.layout[i].offset.toNat = payloadSize (s.symbols.take i)
  unsaturated : ∀ p ∈ s.layout, (saturatingAdd p.offset p.symbol.size).toNat =
    p.offset.toNat + p.symbol.payload.length
  first : ∀ h : 0 < s.layout.length, s.layout[0].offset.toNat = 0
  adjacent : ∀ i, ∀ h : i + 1 < s.layout.length, s.layout[i + 1].offset.toNat =
    s.layout[i].offset.toNat + s.layout[i].symbol.size.toNat
  within : ∀ p ∈ s.layout, p.offset.toNat + p.symbol.size.toNat ≤ s.totalSize.toNat
  covered : ∀ k < s.totalSize.toNat, ∃! i, ∃ h : i < s.layout.length,
    s.layout[i].offset.toNat ≤ k ∧ k < s.layout[i].offset.toNat + s.layout[i].symbol.size.toNat

theorem Sized.layout_bounds (h : s.Sized) {i : Nat} (hi : i < s.layout.length)
    (hi' : i < s.symbols.length) : s.layout[i].offset.toNat = payloadSize (s.symbols.take i) ∧
      s.layout[i].symbol.size.toNat = s.symbols[i].payload.length := by
  obtain ⟨hsymbol, hoffset⟩ := h.layout_getElem hi hi'
  refine ⟨hoffset, ?_⟩
  rw [h.placed_size (List.getElem_mem hi), hsymbol]

theorem Sized.covered (h : s.Sized) {k : Nat} (hk : k < s.totalSize.toNat) :
    ∃! i, ∃ h : i < s.layout.length, s.layout[i].offset.toNat ≤ k ∧
      k < s.layout[i].offset.toNat + s.layout[i].symbol.size.toNat := by
  rw [h] at hk
  have hlen := s.length_layout
  obtain ⟨i, hi, hlow, hhigh⟩ := exists_payload_at hk
  have hi' : i < s.layout.length := by omega
  obtain ⟨hoffset, hsize⟩ := h.layout_bounds hi' hi
  refine ⟨i, ⟨hi', by rwa [hoffset], by rwa [hoffset, hsize]⟩, ?_⟩
  rintro j ⟨hj', hlow', hhigh'⟩
  have hj : j < s.symbols.length := by omega
  obtain ⟨hoffset', hsize'⟩ := h.layout_bounds hj' hj
  rw [hoffset'] at hlow' hhigh'
  rw [hsize'] at hhigh'
  exact Nat.le_antisymm (payload_at_unique hi hlow' hhigh) (payload_at_unique hj hlow hhigh')

theorem Sized.tiled (h : s.Sized) : s.Tiled := by
  have hlen := s.length_layout
  refine ⟨s.layout_symbols, fun p hp => h.placed_size hp, ?_, ?_, ?_, ?_, ?_,
    fun k hk => h.covered hk⟩
  · intro i hi
    exact (h.layout_getElem hi (by omega)).2
  · intro p hp
    have hend := h.placed_end_le hp
    have hlt := s.totalSize.toNat_lt
    rw [saturatingAdd_toNat, h.placed_size hp]
    rw [h.placed_size hp]
    unfold sizeLimit
    omega
  · intro hpos
    rw [(h.layout_getElem hpos (by omega)).2]
    rfl
  · intro i hi
    obtain ⟨hoffset, hsize⟩ := h.layout_bounds (Nat.lt_of_succ_lt hi) (by omega)
    rw [(h.layout_getElem hi (by omega)).2, hoffset, hsize, payloadSize_take_succ]
  · intro p hp
    rw [h.placed_size hp]
    exact h.placed_end_le hp

/-- The size never shrinks, and the difference of two sizes counts the bytes added in between. -/
theorem offer_growth (s : Segment) (o : Offer) :
    s.totalSize ≤ (s.offer o).totalSize ∧ ((s.offer o).totalSize - s.totalSize).toNat =
      payloadSize ((s.offer o).symbols.drop s.symbols.length) := by
  obtain ⟨added, hsymbols, htotal⟩ := offer_added s o
  have hle : s.totalSize ≤ (s.offer o).totalSize := by
    rw [UInt32.le_iff_toNat_le]
    omega
  refine ⟨hle, ?_⟩
  rw [UInt32.toNat_sub_of_le _ _ hle, hsymbols, List.drop_left, htotal]
  omega

/-- After any offers, taken or refused, the recorded size is the exact sum of all payload lengths,
the layout tiles the segment, and a further offer never makes the size smaller. -/
theorem ofOffers_tiled (offers : List Offer) :
    (ofOffers offers).totalSize.toNat = payloadSize (ofOffers offers).symbols ∧
    payloadSize (ofOffers offers).symbols ≤ sizeLimit ∧
    (ofOffers offers).Tiled ∧
    ∀ o, (ofOffers offers).totalSize ≤ ((ofOffers offers).offer o).totalSize ∧
      (((ofOffers offers).offer o).totalSize - (ofOffers offers).totalSize).toNat =
        payloadSize (((ofOffers offers).offer o).symbols.drop (ofOffers offers).symbols.length) :=
  ⟨ofOffers_sized offers, (ofOffers_sized offers).payloadSize_le, (ofOffers_sized offers).tiled,
    fun o => offer_growth (ofOffers offers) o⟩

/-- The first symbol of a declared name, after symbols of other names. -/
theorem exists_first {symbols : List Symbol} {name : Text}
    (h : ∃ symbol ∈ symbols, symbol.name = name) :
    ∃ symbol back, symbols = (symbols.takeWhile fun s => s.name != name) ++ symbol :: back ∧
      symbol.name = name ∧ symbols.find? (fun s => s.name == name) = some symbol := by
  induction symbols with
  | nil => simp at h
  | cons first rest ih =>
      by_cases hf : first.name = name
      · exact ⟨first, rest, by simp [hf], hf, List.find?_cons_of_pos (by simpa using hf)⟩
      · obtain ⟨symbol, hmem, hname⟩ := h
        rcases List.mem_cons.mp hmem with rfl | hmem
        · exact absurd hname hf
        · obtain ⟨found, back, hsplit, hfound, hfirst⟩ := ih ⟨symbol, hmem, hname⟩
          have hbne : (first.name != name) = true := by simpa using hf
          refine ⟨found, back, ?_, hfound, ?_⟩
          · rw [List.takeWhile_cons, hbne, if_pos rfl, List.cons_append, ← hsplit]
          · rw [List.find?_cons_of_neg (by simpa using hf), hfirst]

/-- The first entry of a name stands at the exact end of the symbols before it. -/
theorem Sized.offset_of_find? (h : s.Sized) {name : Text} {p : Placed}
    (hfind : s.layout.find? (fun entry => entry.symbol.name == name) = some p) :
    p.offset.toNat = payloadSize (s.symbols.takeWhile fun s => s.name != name) := by
  have hname := List.find?_some hfind
  have hmem : p.symbol ∈ s.symbols := by
    rw [← s.layout_symbols]
    exact List.mem_map_of_mem (List.mem_of_find?_eq_some hfind)
  obtain ⟨symbol, back, hsplit, hsymbol, -⟩ :=
    exists_first ⟨p.symbol, hmem, by simpa using hname⟩
  obtain ⟨before, offset, after, hlayout, hbefore, hoffset⟩ := h.layout_split hsplit
  have hnone : before.find? (fun entry => entry.symbol.name == name) = none := by
    rw [List.find?_eq_none]
    intro q hq
    have hin : q.symbol ∈ s.symbols.takeWhile fun s => s.name != name := by
      rw [← hbefore]
      exact List.mem_map_of_mem hq
    simpa using List.all_eq_true.mp List.all_takeWhile q.symbol hin
  rw [hlayout, List.find?_append, hnone, Option.none_or, List.find?_cons_of_pos (by simpa)] at hfind
  obtain rfl := Option.some.inj hfind
  exact hoffset

/-- The bytes of a symbol stand in the persisted segment right after the header and the bytes of
the symbols declared before it. -/
theorem toBytes_slice {front back : List Symbol} {symbol : Symbol}
    (hsplit : s.symbols = front ++ symbol :: back) :
    (s.toBytes.drop (4 + payloadSize front)).take symbol.payload.length = symbol.payload := by
  have hbytes : s.layout.flatMap (·.symbol.payload) =
      front.flatMap (·.payload) ++ (symbol.payload ++ back.flatMap (·.payload)) := by
    rw [← List.flatMap_cons, ← List.flatMap_append, ← hsplit, ← s.layout_symbols,
      List.flatMap_map]
  have hlen : (bigEndian s.totalSize ++ front.flatMap (·.payload)).length =
      4 + payloadSize front := by
    rw [List.length_append, ← payloadSize_eq_length]
    rfl
  rw [toBytes, hbytes, ← List.append_assoc, ← hlen, List.drop_left, List.take_left]

end Segment
end Bytelink
