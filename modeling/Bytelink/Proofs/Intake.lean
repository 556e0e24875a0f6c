import Bytelink.Host.Capture
import Bytelink.Proofs.Merges

/-!
# What the readers take is captured once and in order

A read takes nothing away from what a reader has left, it only puts a chunk aside
(`Reader.left_read`); appending moves just this chunk (`Reader.bytes_append`, `Reader.held_append`).
So whatever the two readers do, in whatever order, what is captured is put together from a beginning
of each stream, and the rest of the stream is what the reader has left (`Intake.Follows`). A reader
that is always ahead of its writer takes everything as it is written (`Intake.captured_write`).
-/
namespace Bytelink

namespace Capture

@[simp] theorem bytes_add (c : Capture) (chunk : Bytes) : (c.add chunk).bytes = c.bytes ++ chunk := by
  simp [bytes, add]

end Capture

namespace Reader

variable {r : Reader} {result : ReadResult} {captured : Capture}

/-- What the reader has taken and not appended yet. -/
def held (r : Reader) : Bytes :=
  match r.phase with
  | .appending chunk => chunk
  | _ => []

/-- What the reader has not appended yet. -/
def left (r : Reader) : Bytes := r.held ++ r.unread

/-- What a read can do. -/
theorem read_cases (r : Reader) (result : ReadResult) :
    r.read result = r ∨
    (r.phase = .reading ∧ r.unread = [] ∧ r.read result = ⟨[], .ended⟩) ∨
    (∃ chunk rest, r.phase = .reading ∧ chunk ≠ [] ∧ r.unread = chunk ++ rest ∧
      r.read result = ⟨rest, .appending chunk⟩) ∨
    (∃ reason, r.phase = .reading ∧ r.read result = ⟨r.unread, .failed reason⟩) := by
  obtain ⟨unread, phase⟩ := r
  cases phase with
  | appending _ | ended | failed _ => exact .inl rfl
  | reading =>
      cases result with
      | interrupted => exact .inl rfl
      | failed reason => exact .inr (.inr (.inr ⟨reason, rfl, rfl⟩))
      | bytes size =>
          right
          cases hchunk : unread.take size.count with
          | nil =>
              have hunread : unread = [] := by
                rcases List.take_eq_nil_iff.mp hchunk with hcount | hunread
                · exact absurd hcount (Nat.ne_of_gt size.pos)
                · exact hunread
              exact .inl ⟨rfl, hunread, by simp [read, hunread]⟩
          | cons b chunk =>
              have hunread : unread = (b :: chunk) ++ unread.drop size.count := by
                rw [← hchunk, List.take_append_drop]
              exact .inr (.inl ⟨b :: chunk, _, rfl, List.cons_ne_nil _ _, hunread, by
                simp only [read, hchunk]⟩)

theorem read_bytes (hphase : r.phase = .reading) (hunread : r.unread ≠ []) (size : ChunkSize) :
    r.read (.bytes size) =
      ⟨r.unread.drop size.count, .appending (r.unread.take size.count)⟩ := by
  have hchunk : r.unread.take size.count ≠ [] := by
    simp [List.take_eq_nil_iff, hunread, Nat.ne_of_gt size.pos]
  cases htake : r.unread.take size.count with
  | nil => exact absurd htake hchunk
  | cons b chunk => simp only [read, hphase, htake]

@[simp] theorem left_read (r : Reader) (result : ReadResult) : (r.read result).left = r.left := by
  rcases r.read_cases result with h | ⟨hphase, hunread, h⟩ | ⟨chunk, rest, hphase, -, hunread, h⟩ |
    ⟨reason, hphase, h⟩
  · rw [h]
  · simp [h, left, held, hphase, hunread]
  · simp [h, left, held, hphase, hunread]
  · simp [h, left, held, hphase]

theorem left_of_read_ended (h : (r.read result).phase = .ended) (hr : r.phase ≠ .ended) :
    r.left = [] := by
  rcases r.read_cases result with hread | ⟨hphase, hunread, -⟩ | ⟨_, _, -, -, -, hread⟩ |
    ⟨_, -, hread⟩
  · exact absurd (hread ▸ h) hr
  · simp [left, held, hphase, hunread]
  · simp [hread] at h
  · simp [hread] at h

@[simp] theorem bytes_append (r : Reader) (captured : Capture) :
    (r.append captured).2.bytes = captured.bytes ++ r.held := by
  cases hphase : r.phase <;> simp [append, held, hphase]

theorem held_append (r : Reader) (captured : Capture) :
    r.held ++ (r.append captured).1.left = r.left := by
  cases hphase : r.phase <;> simp [append, left, held, hphase]

theorem ended_of_append (h : (r.append captured).1.phase = .ended) :
    r.phase = .ended ∧ (r.append captured).1 = r := by
  cases hphase : r.phase <;> simp [append, hphase] at h ⊢

theorem read_of_hasStopped (h : r.hasStopped) (result : ReadResult) : r.read result = r := by
  cases hphase : r.phase <;> simp [hasStopped, hphase] at h <;> simp [read, hphase]

theorem append_of_hasStopped (h : r.hasStopped) (captured : Capture) :
    r.append captured = (r, captured) := by
  cases hphase : r.phase <;> simp [hasStopped, hphase] at h <;> simp [append, hphase]

end Reader

namespace Intake

variable {s : Intake} {stream : Outlet → Bytes} {outlet other : Outlet}

@[simp] theorem reader_withReader_self (s : Intake) (outlet : Outlet) (reader : Reader) :
    (s.withReader outlet reader).reader outlet = reader := by
  cases outlet <;> rfl

theorem reader_withReader_of_ne (h : other ≠ outlet) (s : Intake) (reader : Reader) :
    (s.withReader outlet reader).reader other = s.reader other := by
  cases outlet <;> cases other <;> first | rfl | exact absurd rfl h

@[simp] theorem captured_withReader (s : Intake) (outlet : Outlet) (reader : Reader) :
    (s.withReader outlet reader).captured = s.captured := by
  cases outlet <;> rfl

@[simp] theorem withReader_reader (s : Intake) (outlet : Outlet) :
    s.withReader outlet (s.reader outlet) = s := by
  cases outlet <;> rfl

@[simp] theorem reader_read_self (s : Intake) (outlet : Outlet) (result : ReadResult) :
    (s.read outlet result).reader outlet = (s.reader outlet).read result :=
  s.reader_withReader_self outlet _

theorem reader_read_of_ne (h : other ≠ outlet) (s : Intake) (result : ReadResult) :
    (s.read outlet result).reader other = s.reader other :=
  reader_withReader_of_ne h s _

@[simp] theorem captured_read (s : Intake) (outlet : Outlet) (result : ReadResult) :
    (s.read outlet result).captured = s.captured :=
  s.captured_withReader outlet _

@[simp] theorem reader_append_self (s : Intake) (outlet : Outlet) :
    (s.append outlet).reader outlet = ((s.reader outlet).append s.captured).1 := by
  cases outlet <;> rfl

theorem reader_append_of_ne (h : other ≠ outlet) (s : Intake) :
    (s.append outlet).reader other = s.reader other := by
  rw [← reader_withReader_of_ne h s ((s.reader outlet).append s.captured).1]
  cases other <;> rfl

@[simp] theorem captured_append (s : Intake) (outlet : Outlet) :
    (s.append outlet).captured = ((s.reader outlet).append s.captured).2 := rfl

/-- Both readers have come to the end of their streams. -/
def HasEnded (s : Intake) : Prop := ∀ outlet, (s.reader outlet).phase = .ended

theorem hasStopped_iff : s.hasStopped ↔ ∀ outlet, (s.reader outlet).hasStopped := by
  unfold hasStopped
  rw [Bool.and_eq_true]
  constructor
  · rintro ⟨hstandard, herrors⟩ outlet
    cases outlet with
    | standard => exact hstandard
    | errors => exact herrors
  · exact fun h => ⟨h .standard, h .errors⟩

theorem read_of_hasStopped (h : s.hasStopped) (outlet : Outlet) (result : ReadResult) :
    s.read outlet result = s := by
  rw [read, Reader.read_of_hasStopped (hasStopped_iff.mp h outlet), withReader_reader]

theorem append_of_hasStopped (h : s.hasStopped) (outlet : Outlet) : s.append outlet = s := by
  simp [append, Reader.append_of_hasStopped (hasStopped_iff.mp h outlet)]

structure Follows (stream : Outlet → Bytes) (s : Intake) : Prop where
  gathered : ∃ taken : Outlet → Bytes, (∀ outlet, taken outlet ++ (s.reader outlet).left = stream outlet) ∧
    Merges [taken .standard, taken .errors] s.captured.bytes
  ended : ∀ outlet, (s.reader outlet).phase = .ended → (s.reader outlet).left = []

theorem follows_start (stream : Outlet → Bytes) :
    Follows stream (.start (stream .standard) (stream .errors)) where
  gathered := by
    refine ⟨fun _ => [], fun outlet => ?_, .done (by simp)⟩
    cases outlet <;> rfl
  ended := by
    intro outlet h
    cases outlet <;> cases h

theorem merges_update {taken : Outlet → Bytes} {captured : Bytes}
    (h : Merges [taken .standard, taken .errors] captured) (outlet : Outlet) (chunk : Bytes) :
    let after := Function.update taken outlet (taken outlet ++ chunk)
    Merges [after .standard, after .errors] (captured ++ chunk) := by
  cases outlet with
  | standard =>
      have hfirst : Merges ([] ++ taken .standard :: [taken .errors]) captured := h
      simpa using hfirst.append chunk
  | errors =>
      have hsecond : Merges ([taken .standard] ++ taken .errors :: []) captured := h
      simpa using hsecond.append chunk

theorem Follows.read (h : s.Follows stream) (outlet : Outlet) (result : ReadResult) :
    (s.read outlet result).Follows stream where
  gathered := by
    obtain ⟨taken, hleft, hmerges⟩ := h.gathered
    refine ⟨taken, fun other => ?_, by simpa using hmerges⟩
    obtain rfl | hne := eq_or_ne other outlet
    · rw [reader_read_self, Reader.left_read, hleft]
    · rw [reader_read_of_ne hne, hleft]
  ended := by
    intro other hother
    obtain rfl | hne := eq_or_ne other outlet
    · rw [reader_read_self] at hother ⊢
      rw [Reader.left_read]
      by_cases hphase : (s.reader other).phase = .ended
      · exact h.ended other hphase
      · exact Reader.left_of_read_ended hother hphase
    · rw [reader_read_of_ne hne] at hother ⊢
      exact h.ended other hother

theorem Follows.append (h : s.Follows stream) (outlet : Outlet) :
    (s.append outlet).Follows stream where
  gathered := by
    obtain ⟨taken, hleft, hmerges⟩ := h.gathered
    have hmore := merges_update hmerges outlet (s.reader outlet).held
    refine ⟨_, fun other => ?_, by simpa using hmore⟩
    obtain rfl | hne := eq_or_ne other outlet
    · rw [Function.update_self, reader_append_self, List.append_assoc, Reader.held_append, hleft]
    · rw [Function.update_of_ne hne, reader_append_of_ne hne, hleft]
  ended := by
    intro other hother
    obtain rfl | hne := eq_or_ne other outlet
    · rw [reader_append_self] at hother ⊢
      obtain ⟨hphase, heq⟩ := Reader.ended_of_append hother
      rw [heq]
      exact h.ended other hphase
    · rw [reader_append_of_ne hne] at hother ⊢
      exact h.ended other hother

theorem Follows.taken_of_hasEnded (h : s.Follows stream) (hended : s.HasEnded) :
    Merges [stream .standard, stream .errors] s.captured.bytes := by
  obtain ⟨taken, hleft, hmerges⟩ := h.gathered
  have htaken : taken = stream := by
    funext outlet
    rw [← hleft outlet, h.ended outlet (hended outlet), List.append_nil]
  rwa [htaken] at hmerges

end Intake

namespace Intake

variable {s : Intake} {outlet other : Outlet}

/-- A reader at work comes to what is left last. -/
theorem drain_of_reading {fuel : Nat} (hphase : (s.reader outlet).phase = .reading)
    (hfuel : (s.reader outlet).unread.length ≤ fuel) :
    (drain outlet fuel s).reader outlet = ⟨[], .reading⟩ ∧
      (drain outlet fuel s).captured.bytes = s.captured.bytes ++ (s.reader outlet).unread := by
  induction fuel generalizing s with
  | zero =>
      have hunread : (s.reader outlet).unread = [] := List.length_eq_zero_iff.mp (by omega)
      rw [drain, hunread, List.append_nil, ← hunread, ← hphase]
      exact ⟨rfl, rfl⟩
  | succ fuel ih =>
      rw [drain]
      split
      · next hempty =>
          have hunread : (s.reader outlet).unread = [] := List.isEmpty_iff.mp hempty
          rw [hunread, List.append_nil, ← hunread, ← hphase]
          exact ⟨rfl, rfl⟩
      · next hempty =>
          have hunread : (s.reader outlet).unread ≠ [] := by simpa using hempty
          have hread := Reader.read_bytes hphase hunread .most
          have hreading : (((s.read outlet (.bytes .most)).append outlet).reader outlet) =
              ⟨(s.reader outlet).unread.drop ChunkSize.most.count, .reading⟩ := by
            simp [hread, Reader.append]
          have hpos := ChunkSize.most.pos
          have hlength := List.length_pos_iff.mpr hunread
          have hless : (((s.read outlet (.bytes .most)).append outlet).reader outlet).unread.length
              ≤ fuel := by
            rw [hreading, List.length_drop]
            omega
          obtain ⟨hreader, hcaptured⟩ := ih (by rw [hreading]) hless
          refine ⟨hreader, hcaptured.trans ?_⟩
          simp [hread, Reader.append]

theorem reader_drain_of_ne (h : other ≠ outlet) (fuel : Nat) (s : Intake) :
    (drain outlet fuel s).reader other = s.reader other := by
  induction fuel generalizing s with
  | zero => rfl
  | succ fuel ih =>
      rw [drain]
      split
      · rfl
      · rw [ih, reader_append_of_ne h, reader_read_of_ne h]

theorem captured_write (h : s.reader outlet = ⟨[], .reading⟩) (bytes : Bytes) :
    (s.write outlet bytes).captured.bytes = s.captured.bytes ++ bytes := by
  have hreader := s.reader_withReader_self outlet ⟨bytes, .reading⟩
  have hdrain := drain_of_reading (by rw [hreader]) (Nat.le_refl _)
  simpa [write, h] using hdrain.2

end Intake

/-- The bytes are put together from a beginning of each stream, each in its order. -/
def Interleaved (standard errors bytes : Bytes) : Prop :=
  ∃ first second, first <+: standard ∧ second <+: errors ∧ Merges [first, second] bytes

/-- The two streams of a program. -/
def Outlet.stream (standard errors : Bytes) : Outlet → Bytes
  | .standard => standard
  | .errors => errors

section
variable {standard errors bytes : Bytes}

theorem Intake.Follows.interleaved {s : Intake} (h : s.Follows (Outlet.stream standard errors)) :
    Interleaved standard errors s.captured.bytes := by
  obtain ⟨taken, hleft, hmerges⟩ := h.gathered
  exact ⟨taken .standard, taken .errors, ⟨_, hleft .standard⟩, ⟨_, hleft .errors⟩, hmerges⟩

theorem eq_of_merges_nil (h : Merges [standard, []] bytes) : bytes = standard :=
  h.eq_of_flatten_eq (by simp) (by simp)

theorem eq_of_nil_merges (h : Merges [[], errors] bytes) : bytes = errors :=
  h.eq_of_flatten_eq (by simp) (by simp)

theorem Interleaved.of_silent_errors (h : Interleaved standard [] bytes) : bytes <+: standard := by
  obtain ⟨first, second, hfirst, hsecond, hmerges⟩ := h
  rw [List.prefix_nil.mp hsecond] at hmerges
  rwa [eq_of_merges_nil hmerges]

theorem Interleaved.of_silent_standard (h : Interleaved [] errors bytes) : bytes <+: errors := by
  obtain ⟨first, second, hfirst, hsecond, hmerges⟩ := h
  rw [List.prefix_nil.mp hfirst] at hmerges
  rwa [eq_of_nil_merges hmerges]

end
end Bytelink
