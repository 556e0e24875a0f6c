import Bytelink.Proofs.Rows

/-!
# The grammar of data listings

`Accepts` says which listings are well formed and `symbols` what they declare: one symbol for each
label row, with the bytes of the directive rows up to the next label row. `Breaks` says which rule
a row breaks, given the rows before it. `append_follows_grammar` is the contract of the reader: it
takes exactly the well-formed listings that fit, adds exactly the declared symbols, and otherwise
names the first row that breaks a rule.

The reader keeps its symbols newest first and its size as a word. `Reads` ties this state to the
rows read so far; a harmless row keeps it and a fault is the rule that the row breaks.
-/
namespace Bytelink

/-- A listing offered to a segment, with the registry that reads its directives. -/
structure Offer where
  registry : Registry
  origin : Text
  text : Text

/-- The segment after an offer. A refused listing leaves it as it was. -/
def Segment.offer (s : Segment) (o : Offer) : Segment :=
  match s.append o.registry o.origin o.text with
  | .ok s' => s'
  | .error _ => s

namespace Grammar

def bytes (registry : Registry) (row : Text) : Bytes :=
  if IsDirective row then
    match registry.decode row with
    | .ok payload => payload
    | .error _ => []
  else []

def lead (registry : Registry) (rows : List Text) : Bytes :=
  (rows.takeWhile fun row => !IsLabel row).flatMap (bytes registry)

def symbols (registry : Registry) : List Text → List Symbol
  | [] => []
  | row :: rest =>
      if IsLabel row then ⟨name row, lead registry rest⟩ :: symbols registry rest
      else symbols registry rest

def size (registry : Registry) (rows : List Text) : Nat := (rows.flatMap (bytes registry)).length

/-- The rule that a row breaks in a listing for a segment of `old` bytes, after the rows
`earlier`. -/
inductive Breaks (registry : Registry) (old : Nat) (earlier : List Text) : Text → Fault → Prop
  | label {row : Text} : IsLabel row → ¬ Named row →
      Breaks registry old earlier row (.malformedLabel row)
  | orphan {row : Text} : IsDirective row → (∀ r ∈ earlier, ¬ IsLabel r) →
      Breaks registry old earlier row .directiveWithoutSymbol
  | undecodable {row : Text} {fault : Fault} : IsDirective row → (∃ r ∈ earlier, IsLabel r) →
      registry.decode row = .error fault → Breaks registry old earlier row fault
  | overflow {row : Text} {payload : Bytes} : IsDirective row → (∃ r ∈ earlier, IsLabel r) →
      registry.decode row = .ok payload →
      Segment.sizeLimit < old + size registry earlier + payload.length →
      Breaks registry old earlier row .segmentOverflow

def Unbroken (registry : Registry) (old : Nat) (rows : List Text) : Prop :=
  ∀ before row after fault, rows = before ++ row :: after →
    ¬ Breaks registry old before row fault

/-- The row at `index` breaks a rule, and no row before it does. -/
def FirstBreak (registry : Registry) (old : Nat) (rows : List Text) (index : Nat)
    (fault : Fault) : Prop :=
  ∃ before row after, rows = before ++ row :: after ∧ before.length = index ∧
    Unbroken registry old before ∧ Breaks registry old before row fault

/-- The well-formed listings that fit a segment of `old` bytes. -/
structure Accepts (registry : Registry) (old : Nat) (rows : List Text) : Prop where
  labels : ∀ row ∈ rows, IsLabel row → Named row
  directives : ∀ before row after, rows = before ++ row :: after → IsDirective row →
    (∃ r ∈ before, IsLabel r) ∧ ∃ payload, registry.decode row = .ok payload
  fits : old + size registry rows ≤ Segment.sizeLimit

variable {registry : Registry} {old : Nat} {earlier rs : List Text} {row : Text}
variable {fault : Fault} {l l' : Listing}

theorem bytes_of_not_directive (h : ¬ IsDirective row) : bytes registry row = [] := if_neg h

theorem bytes_of_decode {payload : Bytes} (h : IsDirective row)
    (hdec : registry.decode row = .ok payload) : bytes registry row = payload := by
  simp only [bytes, h, if_true, hdec]

theorem size_append (registry : Registry) (a b : List Text) :
    size registry (a ++ b) = size registry a + size registry b := by
  simp only [size, List.flatMap_append, List.length_append]

theorem size_concat (registry : Registry) (rs : List Text) (row : Text) :
    size registry (rs ++ [row]) = size registry rs + (bytes registry row).length := by
  rw [size_append]
  simp [size]

theorem lead_append_of_label (h : ∃ r ∈ rs, IsLabel r) (more : List Text) :
    lead registry (rs ++ more) = lead registry rs := by
  induction rs with
  | nil => simp at h
  | cons first rest ih =>
      by_cases hf : IsLabel first
      · simp [lead, hf]
      · have hrest : ∃ r ∈ rest, IsLabel r := by
          obtain ⟨r, hr, hl⟩ := h
          rcases List.mem_cons.mp hr with rfl | hr
          · exact absurd hl hf
          · exact ⟨r, hr, hl⟩
        have hlead := ih hrest
        simp only [lead] at hlead
        simp [lead, hf, hlead]

theorem lead_append_of_no_label (h : ∀ r ∈ rs, ¬ IsLabel r) (more : List Text) :
    lead registry (rs ++ more) = lead registry rs ++ lead registry more := by
  have hpos : ∀ r ∈ rs, (!decide (IsLabel r)) = true := fun r hr => by simpa using h r hr
  have hself : rs.takeWhile (fun r => !IsLabel r) = rs := by
    rw [← List.append_nil rs, List.takeWhile_append_of_pos (by simpa using hpos),
      List.takeWhile_nil]
  simp only [lead, List.takeWhile_append_of_pos hpos, hself, List.flatMap_append]

theorem symbols_eq_nil_iff : symbols registry rs = [] ↔ ∀ r ∈ rs, ¬ IsLabel r := by
  induction rs with
  | nil => simp [symbols]
  | cons first rest ih => by_cases hf : IsLabel first <;> simp [symbols, hf, ih]

theorem symbols_ne_nil_iff : symbols registry rs ≠ [] ↔ ∃ r ∈ rs, IsLabel r := by
  rw [ne_eq, symbols_eq_nil_iff]
  simp

theorem symbols_append_label (h : IsLabel row) (more : List Text) :
    symbols registry (rs ++ row :: more) =
      symbols registry rs ++ symbols registry (row :: more) := by
  induction rs with
  | nil => rfl
  | cons first rest ih =>
      by_cases hf : IsLabel first
      · have hlead : lead registry (rest ++ row :: more) = lead registry rest := by
          by_cases hr : ∃ r ∈ rest, IsLabel r
          · exact lead_append_of_label hr _
          · rw [lead_append_of_no_label (by simpa using hr)]
            simp [lead, h]
        simp only [List.cons_append, symbols, hf, if_true, hlead, ih]
      · simp only [List.cons_append, symbols, hf, if_false, ih]

/-- `payload` added to the last of some symbols. -/
def addToLast (payload : Bytes) : List Symbol → List Symbol
  | [] => []
  | [s] => [⟨s.name, s.payload ++ payload⟩]
  | s :: t :: rest => s :: addToLast payload (t :: rest)

theorem addToLast_concat (payload : Bytes) (front : List Symbol) (last : Symbol) :
    addToLast payload (front ++ [last]) = front ++ [⟨last.name, last.payload ++ payload⟩] := by
  induction front with
  | nil => rfl
  | cons s rest ih =>
      cases rest with
      | nil => rfl
      | cons t rest => exact congrArg (s :: ·) ih

theorem addToLast_nil (front : List Symbol) : addToLast [] front = front := by
  rcases List.eq_nil_or_concat front with rfl | ⟨init, last, rfl⟩
  · rfl
  · rw [List.concat_eq_append, addToLast_concat, List.append_nil]

/-- A row that is no label gives its bytes to the last symbol. -/
theorem symbols_append_other (h : ¬ IsLabel row) :
    symbols registry (rs ++ [row]) =
      addToLast (bytes registry row) (symbols registry rs) := by
  induction rs with
  | nil => simp [symbols, h, addToLast]
  | cons first rest ih =>
      by_cases hf : IsLabel first
      · simp only [List.cons_append, symbols, hf, if_true, ih]
        by_cases hr : ∃ r ∈ rest, IsLabel r
        · rw [lead_append_of_label hr]
          have hne : symbols registry rest ≠ [] := symbols_ne_nil_iff.mpr hr
          obtain ⟨s, tail, hs⟩ := List.exists_cons_of_ne_nil hne
          simp only [hs, addToLast]
        · have hno : ∀ r ∈ rest, ¬ IsLabel r := by simpa using hr
          rw [lead_append_of_no_label hno, symbols_eq_nil_iff.mpr hno]
          simp [addToLast, lead, h]
      · simp only [List.cons_append, symbols, hf, if_false, ih]

/-- A payload that fits is added to the total without wrapping round. -/
theorem toNat_add_payload {total : UInt32} {payload : Bytes}
    (h : total.toNat + payload.length ≤ Segment.sizeLimit) :
    (total + UInt32.ofNat payload.length).toNat = total.toNat + payload.length := by
  unfold Segment.sizeLimit at h
  simp only [UInt32.toNat_add, UInt32.toNat_ofNat']
  omega

theorem Unbroken.concat (h : Unbroken registry old rs)
    (hrow : ∀ fault, ¬ Breaks registry old rs row fault) :
    Unbroken registry old (rs ++ [row]) := by
  intro before r after fault hsplit
  rcases List.eq_nil_or_concat after with rfl | ⟨init, last, rfl⟩
  · obtain ⟨rfl, hr⟩ := List.append_inj' hsplit rfl
    obtain rfl : row = r := by simpa using hr
    exact hrow fault
  · rw [List.concat_eq_append, ← List.cons_append, ← List.append_assoc] at hsplit
    exact h before r init fault (List.append_inj' hsplit rfl).1

/-- The state of the reader after the rows `earlier`, none of which breaks a rule. -/
structure Reads (registry : Registry) (old : Nat) (earlier : List Text) (l : Listing) : Prop where
  symbols : l.symbols = (symbols registry earlier).reverse
  total : l.total.toNat = old + size registry earlier
  unbroken : Unbroken registry old earlier

theorem Reads.start (registry : Registry) (total : UInt32) :
    Reads registry total.toNat [] ⟨[], total⟩ := by
  refine ⟨rfl, rfl, ?_⟩
  intro before row after fault h
  simp at h

theorem Reads.label_iff (h : Reads registry old earlier l) :
    l.symbols ≠ [] ↔ ∃ r ∈ earlier, IsLabel r := by
  rw [h.symbols, ne_eq, List.reverse_eq_nil_iff]
  exact symbols_ne_nil_iff

theorem Reads.no_label_iff (h : Reads registry old earlier l) :
    l.symbols = [] ↔ ∀ r ∈ earlier, ¬ IsLabel r := by
  rw [h.symbols, List.reverse_eq_nil_iff]
  exact symbols_eq_nil_iff

/-- A fault of the reader is the rule that the row breaks. -/
theorem Reads.breaks (h : Reads registry old earlier l)
    (hstep : Step registry l row (.error fault)) : Breaks registry old earlier row fault := by
  cases hstep with
  | orphan hd hs => exact .orphan hd (h.no_label_iff.mp hs)
  | undecodable hd hs hdec => exact .undecodable hd (h.label_iff.mp hs) hdec
  | overflow hd hs hdec hover =>
      rw [h.total] at hover
      exact .overflow hd (h.label_iff.mp hs) hdec hover
  | unnamed hl hn => exact .label hl hn

theorem Reads.not_breaks (h : Reads registry old earlier l)
    (hstep : Step registry l row (.ok l')) (fault : Fault) :
    ¬ Breaks registry old earlier row fault := by
  intro hb
  cases hstep with
  | blank =>
      cases hb with
      | label hl => exact hl.1 rfl
      | orphan hd | undecodable hd | overflow hd => cases hd
  | payload hd hs hdec hfits =>
      have hne : l.symbols ≠ [] := by simp [hs]
      cases hb with
      | label hl => exact hl.not_directive hd
      | orphan _ hno => exact hne (h.no_label_iff.mpr hno)
      | undecodable _ _ hdec' => simp [hdec] at hdec'
      | overflow _ _ hdec' hover =>
          obtain rfl := Except.ok.inj (hdec.symm.trans hdec')
          rw [h.total] at hfits
          omega
  | symbol hl hn =>
      cases hb with
      | label _ hn' => exact hn' hn
      | orphan hd | undecodable hd | overflow hd => exact hl.not_directive hd

theorem Reads.concat (h : Reads registry old earlier l)
    (hstep : Step registry l row (.ok l')) : Reads registry old (earlier ++ [row]) l' := by
  refine ⟨?_, ?_, h.unbroken.concat (h.not_breaks hstep)⟩
  · cases hstep with
    | blank =>
        rw [symbols_append_other (by simp [IsLabel]), bytes_of_not_directive (by simp [IsDirective]),
          addToLast_nil, h.symbols]
    | @payload row payload newest older hd hs hdec hfits =>
        have hsym : Grammar.symbols registry earlier = older.reverse ++ [newest] := by
          rw [← List.reverse_cons, ← hs, h.symbols, List.reverse_reverse]
        rw [symbols_append_other hd.not_label, bytes_of_decode hd hdec, hsym, addToLast_concat]
        simp
    | symbol hl hn =>
        rw [symbols_append_label hl, h.symbols]
        simp [Grammar.symbols, hl, lead]
  · rw [size_concat]
    cases hstep with
    | blank => simp [bytes_of_not_directive, IsDirective, h.total]
    | payload hd hs hdec hfits =>
        rw [toNat_add_payload hfits, h.total, bytes_of_decode hd hdec, Nat.add_assoc]
    | symbol hl hn => simp [bytes_of_not_directive hl.not_directive, h.total]

/-- Lines read in order give what their rows declare, or name the first row that breaks a rule. -/
theorem Reads.readLines (h : Reads registry old earlier l) (raws : List Text) (number : Nat) :
    (∃ l', Listing.readLines registry number l raws = .ok l' ∧
      Reads registry old (earlier ++ raws.map Text.trim) l') ∨
    ∃ before row after fault, raws.map Text.trim = before ++ row :: after ∧
      Listing.readLines registry number l raws = .error (number + before.length, fault) ∧
      Unbroken registry old (earlier ++ before) ∧
      Breaks registry old (earlier ++ before) row fault := by
  induction raws generalizing earlier l number with
  | nil => exact Or.inl ⟨l, rfl, by simpa using h⟩
  | cons raw rest ih =>
      have hstep := readLine_step registry l raw
      cases hone : l.readLine registry raw with
      | error fault =>
          rw [hone] at hstep
          refine Or.inr ⟨[], Text.trim raw, rest.map Text.trim, fault, rfl, ?_, ?_, ?_⟩
          · simp [Listing.readLines, hone]
          · simpa using h.unbroken
          · simpa using h.breaks hstep
      | ok next =>
          rw [hone] at hstep
          have hread : Listing.readLines registry number l (raw :: rest) =
              Listing.readLines registry (number + 1) next rest := by
            simp only [Listing.readLines, hone]
          rw [hread]
          rcases ih (h.concat hstep) (number + 1) with
            ⟨l', hok, hl'⟩ | ⟨before, row, after, fault, hsplit, herr, hub, hb⟩
          · refine Or.inl ⟨l', hok, ?_⟩
            simpa using hl'
          · refine Or.inr ⟨Text.trim raw :: before, row, after, fault, ?_, ?_, ?_, ?_⟩
            · rw [List.map_cons, hsplit, List.cons_append]
            · rw [herr, List.length_cons, Nat.add_assoc, Nat.add_comm 1]
            · simpa using hub
            · simpa using hb

theorem Breaks.unique {fault' : Fault} (h : Breaks registry old earlier row fault)
    (h' : Breaks registry old earlier row fault') : fault = fault' := by
  cases h with
  | label hl _ =>
      cases h' with
      | label => rfl
      | orphan hd | undecodable hd | overflow hd => exact absurd hd hl.not_directive
  | orphan hd hno =>
      cases h' with
      | label hl => exact absurd hd hl.not_directive
      | orphan => rfl
      | undecodable _ hex | overflow _ hex =>
          obtain ⟨r, hr, hl⟩ := hex
          exact absurd hl (hno r hr)
  | undecodable hd hex hdec =>
      cases h' with
      | label hl => exact absurd hd hl.not_directive
      | orphan _ hno =>
          obtain ⟨r, hr, hl⟩ := hex
          exact absurd hl (hno r hr)
      | undecodable _ _ hdec' => exact Except.error.inj (hdec.symm.trans hdec')
      | overflow _ _ hdec' => simp [hdec] at hdec'
  | overflow hd hex hdec =>
      cases h' with
      | label hl => exact absurd hd hl.not_directive
      | orphan _ hno =>
          obtain ⟨r, hr, hl⟩ := hex
          exact absurd hl (hno r hr)
      | undecodable _ _ hdec' => simp [hdec] at hdec'
      | overflow => rfl

/-- A listing has at most one first faulty row, and this row one fault. -/
theorem FirstBreak.unique {index index' : Nat} {fault' : Fault}
    (h : FirstBreak registry old rs index fault)
    (h' : FirstBreak registry old rs index' fault') : index = index' ∧ fault = fault' := by
  obtain ⟨before, row, after, hsplit, rfl, hub, hb⟩ := h
  obtain ⟨before', row', after', hsplit', rfl, hub', hb'⟩ := h'
  -- If one of the two rows stood before the other, it would break a rule in unbroken rows.
  rcases List.append_eq_append_iff.mp (hsplit.symm.trans hsplit') with
    ⟨mid, hbefore, hafter⟩ | ⟨mid, hbefore, hafter⟩
  · cases mid with
    | nil =>
        obtain ⟨rfl, rfl⟩ := List.cons.inj hafter
        obtain rfl : before' = before := by simpa using hbefore
        exact ⟨rfl, hb.unique hb'⟩
    | cons r mid =>
        obtain ⟨rfl, -⟩ := List.cons.inj hafter
        exact absurd hb (hub' before row mid fault hbefore)
  · cases mid with
    | nil =>
        obtain ⟨rfl, rfl⟩ := List.cons.inj hafter
        obtain rfl : before = before' := by simpa using hbefore
        exact ⟨rfl, hb.unique hb'⟩
    | cons r mid =>
        obtain ⟨rfl, -⟩ := List.cons.inj hafter
        exact absurd hb' (hub before' row' mid fault' hbefore)

theorem Accepts.unbroken (h : Accepts registry old rs) : Unbroken registry old rs := by
  intro before row after fault hsplit hb
  cases hb with
  | label hl hn => exact hn (h.labels row (by simp [hsplit]) hl)
  | orphan hd hno =>
      obtain ⟨⟨r, hr, hl⟩, -⟩ := h.directives before row after hsplit hd
      exact hno r hr hl
  | undecodable hd _ hdec =>
      obtain ⟨-, payload, hok⟩ := h.directives before row after hsplit hd
      simp [hdec] at hok
  | overflow hd _ hdec hover =>
      have hfits := h.fits
      rw [hsplit, List.append_cons, size_append, size_concat, bytes_of_decode hd hdec] at hfits
      omega

theorem Unbroken.accepts (h : Unbroken registry old rs)
    (hfits : old + size registry rs ≤ Segment.sizeLimit) : Accepts registry old rs := by
  refine ⟨?_, ?_, hfits⟩
  · intro row hrow hl
    obtain ⟨before, after, hsplit⟩ := List.append_of_mem hrow
    refine Decidable.byContradiction fun hn => ?_
    exact h before row after _ hsplit (.label hl hn)
  · intro before row after hsplit hd
    by_cases hex : ∃ r ∈ before, IsLabel r
    · refine ⟨hex, ?_⟩
      cases hdec : registry.decode row with
      | error fault => exact absurd (.undecodable hd hex hdec) (h before row after fault hsplit)
      | ok payload => exact ⟨payload, rfl⟩
    · have hno : ∀ r ∈ before, ¬ IsLabel r := by simpa using hex
      exact absurd (.orphan hd hno) (h before row after _ hsplit)

theorem Reads.accepts (h : Reads registry old rs l) : Accepts registry old rs := by
  have hlt := l.total.toNat_lt
  have htotal := h.total
  exact h.unbroken.accepts (by unfold Segment.sizeLimit; omega)

/-- The two outcomes of offering a listing to a segment. -/
theorem append_cases (s : Segment) (registry : Registry) (origin text : Text) :
    (∃ l, s.append registry origin text = .ok ⟨s.symbols ++ l.symbols.reverse, l.total⟩ ∧
      Reads registry s.totalSize.toNat (rows text) l) ∨
    ∃ index fault, s.append registry origin text = .error ⟨origin, index + 1, fault⟩ ∧
      FirstBreak registry s.totalSize.toNat (rows text) index fault := by
  rcases (Reads.start registry s.totalSize).readLines (Text.splitOn '\n' text) 1 with
    ⟨l, hok, hl⟩ | ⟨before, row, after, fault, hsplit, herr, hub, hb⟩
  · refine Or.inl ⟨l, ?_, hl⟩
    simp only [Segment.append, readLines_pieces, hok]
  · refine Or.inr ⟨before.length, fault, ?_, before, row, after, hsplit, rfl, hub, hb⟩
    simp only [Segment.append, readLines_pieces, herr, Nat.add_comm]

theorem append_eq_ok_iff {s s' : Segment} {origin text : Text} :
    s.append registry origin text = .ok s' ↔
      Accepts registry s.totalSize.toNat (rows text) ∧
      s'.symbols = s.symbols ++ symbols registry (rows text) ∧
      s'.totalSize.toNat = s.totalSize.toNat + size registry (rows text) := by
  rcases append_cases s registry origin text with
    ⟨l, hok, hl⟩ | ⟨index, fault, herr, before, row, after, hsplit, -, -, hb⟩
  · rw [hok, Except.ok.injEq]
    constructor
    · rintro rfl
      refine ⟨hl.accepts, ?_, hl.total⟩
      simp only [hl.symbols, List.reverse_reverse]
    · rintro ⟨-, hsymbols, htotal⟩
      rw [hl.symbols, List.reverse_reverse, ← hsymbols,
        UInt32.toNat_inj.mp (hl.total.trans htotal.symm)]
  · constructor
    · intro hok
      simp [herr] at hok
    · rintro ⟨hacc, -⟩
      exact absurd hb (hacc.unbroken before row after fault hsplit)

theorem append_eq_error_iff {s : Segment} {origin text : Text} {e : DataError} :
    s.append registry origin text = .error e ↔
      ∃ index fault, FirstBreak registry s.totalSize.toNat (rows text) index fault ∧
        e = ⟨origin, index + 1, fault⟩ := by
  rcases append_cases s registry origin text with
    ⟨l, hok, hl⟩ | ⟨index, fault, herr, hfirst⟩
  · constructor
    · intro herr
      simp [hok] at herr
    · rintro ⟨index, fault, ⟨before, row, after, hsplit, -, -, hb⟩, -⟩
      exact absurd hb (hl.unbroken before row after fault hsplit)
  · rw [herr, Except.error.injEq]
    constructor
    · rintro rfl
      exact ⟨index, fault, hfirst, rfl⟩
    · rintro ⟨index', fault', hfirst', rfl⟩
      obtain ⟨rfl, rfl⟩ := hfirst.unique hfirst'
      rfl

/-- The reader takes exactly the well-formed listings that fit. Then the segment gets exactly the
declared symbols after its own; otherwise it stays as it was and the error names the first row that
breaks a rule, with the rule. -/
theorem append_follows_grammar (s : Segment) (registry : Registry) (origin text : Text) :
    ((∃ s', s.append registry origin text = .ok s') ↔
      Accepts registry s.totalSize.toNat (rows text)) ∧
    (∀ s', s.append registry origin text = .ok s' ↔
      Accepts registry s.totalSize.toNat (rows text) ∧
      s'.symbols = s.symbols ++ symbols registry (rows text) ∧
      s'.totalSize.toNat = s.totalSize.toNat + size registry (rows text)) ∧
    (∀ e, s.append registry origin text = .error e ↔
      ∃ index fault, FirstBreak registry s.totalSize.toNat (rows text) index fault ∧
        e = ⟨origin, index + 1, fault⟩) ∧
    (∀ e, s.append registry origin text = .error e → s.offer ⟨registry, origin, text⟩ = s) := by
  refine ⟨?_, fun s' => append_eq_ok_iff, fun e => append_eq_error_iff, ?_⟩
  · constructor
    · rintro ⟨s', hok⟩
      exact (append_eq_ok_iff.mp hok).1
    · intro hacc
      rcases append_cases s registry origin text with
        ⟨l, hok, -⟩ | ⟨index, fault, -, before, row, after, hsplit, -, -, hb⟩
      · exact ⟨_, hok⟩
      · exact absurd hb (hacc.unbroken before row after fault hsplit)
  · intro e herr
    simp only [Segment.offer, herr]

end Grammar
end Bytelink
