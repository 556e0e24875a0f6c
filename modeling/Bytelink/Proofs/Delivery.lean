import Bytelink.Data.Sink
import Bytelink.Proofs.Layout

/-!
# What arrives at a sink

A segment is written piece by piece, each piece in as many writes as the sink needs. What arrives
does not depend on any of this: it is as much of the persisted bytes as the sink has room for, and
the result says whether that is all of them.

`Delivers` states this of any run of bytes. It holds of one run after another if the first fits
(`Delivers.append`), which is what both loops need: `writeAll` for the bytes that one write takes
and the rest, `writeEach` for the first piece and the others.
-/
namespace Bytelink

namespace Sink

variable {sink : Sink} {front back bytes : Bytes} {outcome : Except WriteError Unit × Sink}

/-- There is room for all of `bytes`. -/
def Fits (sink : Sink) (bytes : Bytes) : Prop :=
  sink.room bytes.length = bytes.length

/-- As much of `bytes` as there is room for. -/
def admits (sink : Sink) (bytes : Bytes) : Bytes :=
  bytes.take (sink.room bytes.length)

/-- The sink after it has taken `bytes`. -/
def after (sink : Sink) (bytes : Bytes) (later : List Nat) : Sink :=
  { sink with taken := sink.taken ++ bytes, shortfalls := later }

/-- All of `bytes` that there is room for arrives, and it is a success if that is all of them. -/
inductive Delivers (sink : Sink) (bytes : Bytes) : Except WriteError Unit × Sink → Prop
  | whole (later : List Nat) (h : sink.Fits bytes) :
      Delivers sink bytes (.ok (), sink.after bytes later)
  | part (later : List Nat) (h : ¬ sink.Fits bytes) :
      Delivers sink bytes (.error sink.refusal, sink.after (sink.admits bytes) later)

theorem room_le (sink : Sink) (offered : Nat) : sink.room offered ≤ offered := by
  unfold room
  split <;> omega

theorem fits_nil (sink : Sink) : sink.Fits [] := Nat.le_zero.mp (sink.room_le 0)

theorem accepts_le_room (sink : Sink) (offered : Nat) :
    sink.accepts offered ≤ sink.room offered := by
  unfold accepts
  dsimp only
  split <;> omega

theorem accepts_eq_zero_iff (h : sink.perWrite ≠ some 0) (offered : Nat) :
    sink.accepts offered = 0 ↔ sink.room offered = 0 := by
  unfold accepts
  dsimp only
  split
  case h_1 chunk hchunk =>
    have hpos : chunk ≠ 0 := fun hzero => h (hzero ▸ hchunk)
    omega
  case h_2 => omega

theorem fits_take_accepts (sink : Sink) (bytes : Bytes) :
    sink.Fits (bytes.take (sink.accepts bytes.length)) := by
  have hle := sink.accepts_le_room bytes.length
  unfold Fits room at *
  cases hcapacity : sink.capacity with
  | none => rfl
  | some capacity =>
      simp only [hcapacity, List.length_take] at hle ⊢
      omega

theorem room_append (h : sink.Fits front) (later : List Nat) (back : Bytes) :
    sink.room (front ++ back).length =
      front.length + (sink.after front later).room back.length := by
  unfold Fits room at h
  unfold room after
  cases hcapacity : sink.capacity with
  | none => exact List.length_append
  | some capacity =>
      simp only [hcapacity, List.length_append] at h ⊢
      omega

theorem room_append_of_not_fits (h : ¬ sink.Fits front) (back : Bytes) :
    sink.room (front ++ back).length = sink.room front.length := by
  unfold Fits room at h
  unfold room
  cases hcapacity : sink.capacity with
  | none => simp only [hcapacity, not_true_eq_false] at h
  | some capacity =>
      simp only [hcapacity, List.length_append] at h ⊢
      omega

theorem fits_append_iff (h : sink.Fits front) (later : List Nat) :
    sink.Fits (front ++ back) ↔ (sink.after front later).Fits back := by
  rw [Fits, room_append h later, List.length_append, Nat.add_left_cancel_iff, Fits]

theorem admits_append (h : sink.Fits front) (later : List Nat) :
    sink.admits (front ++ back) = front ++ (sink.after front later).admits back := by
  rw [admits, room_append h later, List.take_length_add_append, admits]

theorem after_after (front back : Bytes) (later last : List Nat) :
    (sink.after front later).after back last = sink.after (front ++ back) last := by
  simp only [after, List.append_assoc]

theorem after_nil (sink : Sink) : sink.after [] sink.shortfalls = sink := by
  simp only [after, List.append_nil]

theorem delivers_nil (sink : Sink) : sink.Delivers [] (.ok (), sink) := by
  have hwhole := Delivers.whole sink.shortfalls sink.fits_nil
  rwa [after_nil] at hwhole

theorem Delivers.append {later : List Nat} (hfront : sink.Fits front)
    (hback : (sink.after front later).Delivers back outcome) :
    sink.Delivers (front ++ back) outcome := by
  cases hback with
  | whole last h =>
      rw [after_after]
      exact .whole last ((fits_append_iff hfront later).mpr h)
  | part last h =>
      rw [after_after, ← admits_append hfront later]
      exact .part last (fun hall => h ((fits_append_iff hfront later).mp hall))

/-- Once something does not fit, what follows it makes no difference. -/
theorem delivers_append_of_not_fits (hfront : ¬ sink.Fits front) (later : List Nat)
    (back : Bytes) : sink.Delivers (front ++ back)
      (.error sink.refusal, sink.after (sink.admits front) later) := by
  have hroom := room_append_of_not_fits hfront back
  have hle := sink.room_le front.length
  have hall : ¬ sink.Fits (front ++ back) := by
    unfold Fits at hfront ⊢
    rw [hroom, List.length_append]
    omega
  have hsame : sink.admits (front ++ back) = sink.admits front := by
    rw [admits, hroom, List.take_append_of_le_length hle, admits]
  rw [← hsame]
  exact .part later hall

/-- By the writes: each takes something of what is left, until nothing is left or no room. -/
theorem delivers_writeAll (h : sink.perWrite ≠ some 0) (bytes : Bytes) :
    sink.Delivers bytes (sink.writeAll bytes) := by
  induction sink, bytes using writeAll.induct with
  | case1 sink =>
      rw [writeAll, dif_pos rfl]
      exact sink.delivers_nil
  | case2 sink bytes hne count hcount =>
      have hroom : sink.room bytes.length = 0 := (accepts_eq_zero_iff h _).mp hcount
      have hfits : ¬ sink.Fits bytes := by
        rw [Fits, hroom]
        exact fun hlen => hne (List.length_eq_zero_iff.mp hlen.symm)
      have hnone : sink.after (sink.admits bytes) sink.shortfalls = sink := by
        rw [admits, hroom, List.take_zero, after_nil]
      have hpart := Delivers.part sink.shortfalls hfits
      rw [hnone] at hpart
      rw [writeAll, dif_neg hne, dif_pos hcount]
      exact hpart
  | case3 sink bytes hne count hcount hlt next ih =>
      have hrest : (sink.after (bytes.take count) sink.shortfalls.tail).Delivers
          (bytes.drop count) (next.writeAll (bytes.drop count)) := ih h
      have hall := Delivers.append (sink.fits_take_accepts bytes) hrest
      rw [List.take_append_drop] at hall
      rw [writeAll, dif_neg hne, dif_neg hcount]
      exact hall

theorem delivers_writeEach (h : sink.perWrite ≠ some 0) (runs : List Bytes) :
    sink.Delivers runs.flatten (sink.writeEach runs) := by
  induction runs generalizing sink with
  | nil => exact sink.delivers_nil
  | cons bytes rest ih =>
      have hfirst := delivers_writeAll h bytes
      rw [List.flatten_cons, writeEach]
      generalize sink.writeAll bytes = written at hfirst ⊢
      cases hfirst with
      | whole later hfits => exact .append hfits (ih h)
      | part later hfits => exact delivers_append_of_not_fits hfits later rest.flatten

end Sink

namespace Segment

variable {s : Segment} {sink : Sink}

/-- The number that `bytes` stand for, the most significant first. -/
def bigEndianValue (bytes : Bytes) : Nat :=
  bytes.foldl (fun value byte => 256 * value + byte.toNat) 0

theorem bigEndianValue_bigEndian (word : UInt32) :
    bigEndianValue (bigEndian word) = word.toNat := by
  have hlt := word.toNat_lt
  simp only [bigEndianValue, bigEndian, List.foldl_cons, List.foldl_nil, UInt32.toNat_toUInt8,
    UInt32.toNat_shiftRight, UInt32.reduceToNat, Nat.reduceMod, Nat.shiftRight_eq_div_pow]
  omega

theorem Sized.length_toBytes (h : s.Sized) : s.toBytes.length = 4 + s.totalSize.toNat := by
  rw [toBytes, List.length_append, ← List.flatMap_map, layout_symbols, ← payloadSize_eq_length, h]
  rfl

theorem Sized.placed_bytes (h : s.Sized) {p : Placed} (hp : p ∈ s.layout) :
    (s.toBytes.drop (4 + p.offset.toNat)).take p.symbol.size.toNat = p.symbol.payload := by
  obtain ⟨i, hi, rfl⟩ := List.getElem_of_mem hp
  have hi' : i < s.symbols.length := by rwa [← s.length_layout]
  have hsplit : s.symbols = s.symbols.take i ++ s.symbols[i] :: s.symbols.drop (i + 1) := by
    rw [← List.drop_eq_getElem_cons hi', List.take_append_drop]
  obtain ⟨hsymbol, hoffset⟩ := h.layout_getElem hi hi'
  rw [h.placed_size hp, hsymbol, hoffset]
  exact toBytes_slice hsplit

/-- The pieces that are written one after another are the persisted bytes. -/
theorem flatten_pieces (s : Segment) :
    (bigEndian s.totalSize :: s.layout.map (·.symbol.payload)).flatten = s.toBytes := by
  rw [List.flatten_cons, ← List.flatMap_def, toBytes]

/-- A segment is flushed when all of it has arrived, and not otherwise. -/
theorem writeTo_cases (h : sink.perWrite ≠ some 0) (s : Segment) :
    (sink.Fits s.toBytes ∧ ∃ later, s.writeTo sink = (sink.after s.toBytes later).flush) ∨
      (¬ sink.Fits s.toBytes ∧ ∃ later,
        s.writeTo sink = (.error sink.refusal, sink.after (sink.admits s.toBytes) later)) := by
  have hdelivers := Sink.delivers_writeEach h
    (bigEndian s.totalSize :: s.layout.map (·.symbol.payload))
  rw [flatten_pieces] at hdelivers
  rw [writeTo]
  generalize sink.writeEach _ = written at hdelivers ⊢
  cases hdelivers with
  | whole later hfits => exact .inl ⟨hfits, later, rfl⟩
  | part later hfits => exact .inr ⟨hfits, later, rfl⟩

/-- A fresh sink of limited room, whatever it takes at a time, ends up with as much of the persisted
bytes as it has room for. The result is a success if that is all of them and the flush succeeds,
and the flush comes after the last byte. -/
theorem writeTo_limited {limit : Nat} (hwrite : sink.perWrite ≠ some 0)
    (hlimit : sink.capacity = some limit) (htaken : sink.taken = []) (hflushes : sink.flushes = [])
    (s : Segment) :
    (s.writeTo sink).2.taken = s.toBytes.take limit ∧
      ((s.writeTo sink).1 = .ok () ↔ s.toBytes.length ≤ limit ∧ sink.flushFails = false) ∧
      (s.writeTo sink).2.flushes =
        if s.toBytes.length ≤ limit then [s.toBytes.length] else [] := by
  have hroom : sink.room s.toBytes.length = min s.toBytes.length limit := by
    simp only [Sink.room, hlimit, htaken, List.length_nil, Nat.sub_zero]
  have hfits : sink.Fits s.toBytes ↔ s.toBytes.length ≤ limit := by
    rw [Sink.Fits, hroom]
    omega
  rcases s.writeTo_cases hwrite with ⟨hall, later, hresult⟩ | ⟨hall, later, hresult⟩
  · rw [hfits] at hall
    rw [hresult, if_pos hall, List.take_of_length_le hall]
    refine ⟨by simp only [Sink.flush, Sink.after, htaken, List.nil_append], ?_,
      by simp only [Sink.flush, Sink.after, htaken, hflushes, List.nil_append]⟩
    cases hflush : sink.flushFails <;> simp [Sink.flush, Sink.after, hflush, hall]
  · have hadmits : sink.admits s.toBytes = s.toBytes.take limit := by
      rw [Sink.admits, hroom, Nat.min_comm, ← List.take_eq_take_min]
    rw [hfits] at hall
    rw [hresult, if_neg hall, hadmits]
    exact ⟨by simp only [Sink.after, htaken, List.nil_append],
      iff_of_false (fun hok => nomatch hok) (fun hok => hall hok.1), hflushes⟩

/-- The persisted form of every segment that offers can build: the size in four bytes, then each
payload where the layout places it. Of a fresh sink with room for `limit` bytes, however few it
takes at a time, exactly the first `limit` of these bytes are taken. Writing succeeds if and only if
they are all of them and the flush succeeds, and nothing is flushed before the last byte. -/
theorem ofOffers_persisted (offers : List Offer) :
    let s := ofOffers offers
    s.toBytes.length = 4 + s.totalSize.toNat ∧
    bigEndianValue (s.toBytes.take 4) = s.totalSize.toNat ∧
    (∀ p ∈ s.layout, p.symbol.size.toNat = p.symbol.payload.length ∧
      (s.toBytes.drop (4 + p.offset.toNat)).take p.symbol.size.toNat = p.symbol.payload) ∧
    ∀ (sink : Sink) (limit : Nat), sink.perWrite ≠ some 0 → sink.capacity = some limit →
      sink.taken = [] → sink.flushes = [] →
        (s.writeTo sink).2.taken = s.toBytes.take limit ∧
        ((s.writeTo sink).1 = .ok () ↔ s.toBytes.length ≤ limit ∧ sink.flushFails = false) ∧
        (s.writeTo sink).2.flushes =
          if s.toBytes.length ≤ limit then [s.toBytes.length] else [] := by
  intro s
  have hs : s.Sized := ofOffers_sized offers
  refine ⟨hs.length_toBytes, bigEndianValue_bigEndian s.totalSize,
    fun p hp => ⟨hs.placed_size hp, hs.placed_bytes hp⟩, ?_⟩
  intro sink limit hwrite hlimit htaken hflushes
  exact writeTo_limited hwrite hlimit htaken hflushes s

/-- Room for exactly the persisted bytes is enough, though symbols without bytes are still to be
written when it is used up. With room for one byte less, all but the last arrive. -/
theorem persisted_with_exact_room :
    let s := ofOffers [⟨.standard, "a.c", "A:\n\t.ascii \"xy\"\nB:\nC:\n"⟩]
    let sink (limit : Nat) : Sink := ⟨some 3, some limit, .fails, false, [], [1, 0, 7], []⟩
    s.toBytes = [0, 0, 0, 2, 120, 121] ∧
    (s.writeTo (sink 6)).1 = .ok () ∧ (s.writeTo (sink 6)).2.taken = [0, 0, 0, 2, 120, 121] ∧
    (s.writeTo (sink 6)).2.flushes = [6] ∧
    (s.writeTo (sink 5)).1 ≠ .ok () ∧ (s.writeTo (sink 5)).2.taken = [0, 0, 0, 2, 120] ∧
    (s.writeTo (sink 5)).2.flushes = [] := by
  intro s sink
  have hbytes : s.toBytes = [0, 0, 0, 2, 120, 121] := by decide +kernel
  obtain ⟨-, -, -, hwrite⟩ := ofOffers_persisted
    [⟨.standard, "a.c", "A:\n\t.ascii \"xy\"\nB:\nC:\n"⟩]
  have hwrite' := fun limit => hwrite (sink limit) limit (by simp [sink]) rfl rfl rfl
  obtain ⟨htaken, hok, hflushes⟩ := hwrite' 6
  obtain ⟨htaken', hok', hflushes'⟩ := hwrite' 5
  rw [hbytes] at htaken hok hflushes htaken' hok' hflushes'
  exact ⟨hbytes, hok.mpr ⟨by decide, rfl⟩, htaken, hflushes,
    fun h => absurd (hok'.mp h).1 (by decide), htaken', hflushes'⟩

end Segment

end Bytelink
