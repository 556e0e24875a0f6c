import Bytelink.Proofs.Names

/-!
# Printing a segment

A segment is printed as a listing: for every symbol a line with its name and a colon, and a line
with one directive, whose string constant gives each byte as a backslash and the shortest octal
numeral. Reading the printed listing into the empty segment gives the segment back
(`append_printed`): a name looks the same after trimming and ends at its colon, and the digits of an
escape end at the next backslash or at the closing quote.
-/
namespace Bytelink

/-- The shortest octal numeral of a byte behind a backslash. -/
def Constant.escape (byte : UInt8) : Text := '\\' :: Nat.toDigits 8 byte.toNat

def Constant.print (payload : Bytes) : Text := '"' :: (payload.flatMap escape ++ ['"'])

namespace Symbol

def labelLine (s : Symbol) : Text := s.name ++ [':']

def directiveLine (s : Symbol) : Text :=
  '.' :: (['a', 's', 'c', 'i', 'i'] ++ ' ' :: Constant.print s.payload)

/-- A symbol as two lines of a listing, the second with a tab in front. -/
def print (s : Symbol) : Text := s.labelLine ++ '\n' :: ('\t' :: s.directiveLine) ++ ['\n']

end Symbol

def Segment.print (s : Segment) : Text := s.symbols.flatMap Symbol.print

namespace Text

theorem valueIn_toDigits {base : Nat} (hlow : 1 < base) (hhigh : base ≤ 10) (n : Nat) :
    valueIn base (Nat.toDigits base n) = n := by
  have hvalue := Nat.ofDigitChars_toDigits (n := n) hlow hhigh
  rw [Nat.ofDigitChars_eq_foldl] at hvalue
  simpa only [valueIn, digitValue, Nat.mul_comm] using hvalue

theorem isOctalDigit_of_mem_toDigits {n : Nat} {c : Char} (h : c ∈ Nat.toDigits 8 n) :
    isOctalDigit c = true := by
  have hdigit : ∀ d < 8, isOctalDigit (Nat.digitChar d) = true := by decide
  induction n using Nat.strongRecOn with
  | ind n ih =>
      by_cases hn : n < 8
      · rw [Nat.toDigits_of_lt_base hn, List.mem_singleton] at h
        rw [h]
        exact hdigit n hn
      · rw [Nat.toDigits_of_base_le (by decide) (by omega), List.mem_append,
          List.mem_singleton] at h
        rcases h with h | h
        · exact ih (n / 8) (by omega) h
        · rw [h]
          exact hdigit (n % 8) (by omega)

theorem isDigit_of_isOctalDigit {c : Char} (h : isOctalDigit c = true) : isDigit c = true := by
  simp only [isOctalDigit, isDigit, Bool.and_eq_true, decide_eq_true_eq] at h ⊢
  exact ⟨h.1, Char.le_trans h.2 (by decide)⟩

theorem takeWhile_isDigit {digits rest : Text} (h : ∀ c ∈ digits, isDigit c = true)
    (hrest : ∀ c, rest.head? = some c → isDigit c = false) :
    (digits ++ rest).takeWhile isDigit = digits ∧ (digits ++ rest).dropWhile isDigit = rest := by
  rw [List.takeWhile_append_of_pos h, List.dropWhile_append_of_pos h]
  cases rest with
  | nil => simp
  | cons c rest =>
      have hc : ¬ isDigit c = true := by simp [hrest c rfl]
      rw [List.takeWhile_cons_of_neg hc, List.dropWhile_cons_of_neg hc, List.append_nil]
      exact ⟨rfl, rfl⟩

end Text

namespace Constant

theorem decodeContent_of_unit {c : Char} {rest after : Text} {byte : UInt8}
    (h : readUnit c rest = .ok (byte, after)) :
    decodeContent (c :: rest) = (decodeContent after).map (byte :: ·) := by
  rw [decodeContent]
  split
  · rename_i herror
    rw [h] at herror
    cases herror
  · rename_i hok
    rw [h] at hok
    obtain ⟨rfl, rfl⟩ := Prod.mk.inj (Except.ok.inj hok)
    cases decodeContent after <;> rfl

theorem decodeContent_cons {c : Char} {rest after : Text} {byte : UInt8} {bytes : Bytes}
    (hunit : readUnit c rest = .ok (byte, after)) (hrest : decodeContent after = .ok bytes) :
    decodeContent (c :: rest) = .ok (byte :: bytes) := by
  rw [decodeContent_of_unit hunit, hrest]
  rfl

theorem octalByte_toDigits (byte : UInt8) : octalByte (Nat.toDigits 8 byte.toNat) = .ok byte := by
  have hlt := byte.toNat_lt
  have hall : (Nat.toDigits 8 byte.toNat).all Text.isOctalDigit = true :=
    List.all_eq_true.mpr fun _ => Text.isOctalDigit_of_mem_toDigits
  have hvalue : Text.valueIn 8 (Nat.toDigits 8 byte.toNat) = byte.toNat :=
    Text.valueIn_toDigits (by decide) (by decide) _
  have hword : byte.toNat < UInt32.size := Nat.lt_trans hlt (by decide)
  have hbyte : byte.toNat < 0x100 := hlt
  simp only [octalByte, hvalue, hall, hword, hbyte, decide_true, Bool.and_self, if_true,
    UInt8.ofNat_toNat]

/-- The digits of a numeric escape are taken as far as they go. -/
theorem readUnit_digits {digits rest : Text} (hne : digits ≠ [])
    (hdigits : ∀ c ∈ digits, Text.isDigit c = true)
    (hrest : ∀ c, rest.head? = some c → Text.isDigit c = false) :
    readUnit '\\' (digits ++ rest) = (octalByte digits).map (·, rest) := by
  obtain ⟨d, tail, rfl⟩ := List.exists_cons_of_ne_nil hne
  have hd : Text.isDigit d = true := hdigits d List.mem_cons_self
  have hx : d ≠ 'x' := by
    rintro rfl
    exact absurd hd (by decide)
  obtain ⟨htake, hdrop⟩ :=
    Text.takeWhile_isDigit (fun c hc => hdigits c (List.mem_cons_of_mem d hc)) hrest
  simp only [readUnit, if_true, List.cons_append, hx, if_false, hd, htake, hdrop]

/-- An escape is read back as its byte, wherever no digit follows. -/
theorem readUnit_escape (byte : UInt8) {rest : Text}
    (hrest : ∀ c, rest.head? = some c → Text.isDigit c = false) :
    readUnit '\\' (Nat.toDigits 8 byte.toNat ++ rest) = .ok (byte, rest) := by
  have hdigits : ∀ c ∈ Nat.toDigits 8 byte.toNat, Text.isDigit c = true := fun _ hc =>
    Text.isDigit_of_isOctalDigit (Text.isOctalDigit_of_mem_toDigits hc)
  rw [readUnit_digits Nat.toDigits_ne_nil hdigits hrest, octalByte_toDigits]
  rfl

theorem head?_escapes (payload : Bytes) (c : Char)
    (h : (payload.flatMap escape).head? = some c) : Text.isDigit c = false := by
  cases payload with
  | nil => simp at h
  | cons byte payload =>
      obtain rfl : '\\' = c := by simpa [escape] using h
      decide

theorem decodeContent_escapes (payload : Bytes) :
    decodeContent (payload.flatMap escape) = .ok payload := by
  induction payload with
  | nil => rw [List.flatMap_nil, decodeContent]
  | cons byte payload ih =>
      rw [List.flatMap_cons, escape, List.cons_append]
      exact decodeContent_cons (readUnit_escape byte (head?_escapes payload)) ih

theorem content?_quoted (content : Text) : content? ('"' :: (content ++ ['"'])) = some content := by
  simp [content?, Text.stripStart, Text.stripEnd]

theorem decode_print (payload : Bytes) : decode (print payload) = .ok payload := by
  simp only [decode, print, content?_quoted, decodeContent_escapes]

end Constant

namespace Constant

theorem mem_print {payload : Bytes} {c : Char} (h : c ∈ print payload) :
    c = '"' ∨ c = '\\' ∨ Text.isOctalDigit c = true := by
  simp only [print, escape, List.mem_cons, List.mem_append, List.mem_flatMap, List.not_mem_nil,
    or_false] at h
  rcases h with h | ⟨byte, -, h | h⟩ | h
  · exact Or.inl h
  · exact Or.inr (Or.inl h)
  · exact Or.inr (Or.inr (Text.isOctalDigit_of_mem_toDigits h))
  · exact Or.inl h

theorem not_mem_print {payload : Bytes} {c : Char} (hquote : c ≠ '"') (hback : c ≠ '\\')
    (hdigit : Text.isOctalDigit c = false) : c ∉ print payload := by
  intro h
  rcases mem_print h with h | h | h
  · exact hquote h
  · exact hback h
  · rw [h] at hdigit
    exact absurd hdigit (by decide)

theorem getLast?_print (payload : Bytes) : (print payload).getLast? = some '"' := by
  rw [print, ← List.cons_append, List.getLast?_concat]

theorem trim_print (payload : Bytes) : Text.trim (print payload) = print payload := by
  refine Text.trim_eq_self ?_ ?_
  · intro c hc
    obtain rfl : '"' = c := by simpa [print] using hc
    decide
  · intro c hc
    rw [getLast?_print] at hc
    obtain rfl := Option.some.inj hc
    decide

end Constant

namespace Symbol

variable {s : Symbol}

theorem trim_directiveLine (s : Symbol) : Text.trim s.directiveLine = s.directiveLine := by
  refine Text.trim_eq_self ?_ ?_
  · intro c hc
    obtain rfl : '.' = c := by simpa [directiveLine] using hc
    decide
  · intro c hc
    have hlast : s.directiveLine.getLast? = some '"' := by
      rw [directiveLine, ← List.cons_append, List.getLast?_append, List.getLast?_cons,
        Constant.getLast?_print]
      rfl
    obtain rfl := Option.some.inj (hlast.symm.trans hc)
    decide

theorem trim_tab_directiveLine (s : Symbol) :
    Text.trim ('\t' :: s.directiveLine) = s.directiveLine := by
  have htab : Text.trimStart ('\t' :: s.directiveLine) = Text.trimStart s.directiveLine :=
    List.dropWhile_cons_of_pos (by decide)
  rw [Text.trim, htab]
  exact trim_directiveLine s

theorem isDirective_directiveLine (s : Symbol) : Grammar.IsDirective s.directiveLine := rfl

theorem decode_directiveLine (s : Symbol) :
    Registry.standard.decode s.directiveLine = .ok s.payload := by
  have hsplit : Text.splitAtBlank (['a', 's', 'c', 'i', 'i'] ++ ' ' :: Constant.print s.payload) =
      some (['a', 's', 'c', 'i', 'i'], Constant.print s.payload) :=
    rfl
  have hget : Registry.standard.get? ['a', 's', 'c', 'i', 'i'] = some Constant.decode := rfl
  unfold Registry.decode
  simp only [trim_directiveLine]
  simp only [directiveLine, hsplit, hget, Constant.trim_print, Constant.decode_print]

theorem lineFeed_not_mem_directiveLine (s : Symbol) : '\n' ∉ s.directiveLine := by
  have hprint : '\n' ∉ Constant.print s.payload :=
    Constant.not_mem_print (by decide) (by decide) (by decide)
  simp [directiveLine, hprint]

section Label

variable (h : IsName s.name)
include h

theorem trim_labelLine : Text.trim s.labelLine = s.labelLine := by
  obtain ⟨c, rest, hname⟩ := List.exists_cons_of_ne_nil h.ne_nil
  refine Text.trim_eq_self ?_ ?_
  · intro d hd
    have hhead : s.name.head? = some d := by simpa [labelLine, hname] using hd
    rw [← h.trimmed] at hhead
    exact Text.isBlank_of_head?_trim hhead
  · intro d hd
    obtain rfl : ':' = d := by simpa [labelLine] using hd
    decide

theorem isLabel_labelLine : Grammar.IsLabel s.labelLine := by
  obtain ⟨c, rest, hname⟩ := List.exists_cons_of_ne_nil h.ne_nil
  have hperiod := h.no_period
  constructor
  · simp [labelLine]
  · simpa [labelLine, hname] using hperiod

theorem name_labelLine : Grammar.name s.labelLine = s.name := by
  have hlead : s.labelLine.takeWhile (· != ':') = s.name := by
    have hall : ∀ c ∈ s.name, (c != ':') = true := by
      intro c hc
      rw [bne_iff_ne]
      rintro rfl
      exact h.no_colon hc
    rw [labelLine, List.takeWhile_append_of_pos hall]
    simp
  rw [Grammar.name, hlead, h.trimmed]

theorem named_labelLine : Grammar.Named s.labelLine := by
  refine ⟨by simp [labelLine], ?_⟩
  rw [name_labelLine h]
  exact h.ne_nil

theorem rows_print (rest : Text) : Grammar.rows (s.print ++ rest) =
    s.labelLine :: s.directiveLine :: Grammar.rows rest := by
  have hlabel : '\n' ∉ s.labelLine := by
    rw [labelLine, List.mem_append, not_or]
    exact ⟨h.no_lineFeed, by decide⟩
  have hdirective : '\n' ∉ '\t' :: s.directiveLine := by
    rw [List.mem_cons, not_or]
    exact ⟨by decide, s.lineFeed_not_mem_directiveLine⟩
  have hsplit : s.print ++ rest =
      s.labelLine ++ '\n' :: (('\t' :: s.directiveLine) ++ '\n' :: rest) := by
    simp [print]
  rw [Grammar.rows, hsplit, Text.splitOn_append_cons, Text.splitOn_append_cons,
    Text.splitOn_of_not_mem hlabel, Text.splitOn_of_not_mem hdirective]
  simp only [List.cons_append, List.nil_append, List.map_cons, trim_labelLine h,
    trim_tab_directiveLine, Grammar.rows]

end Label

end Symbol

namespace Segment

def printedRows (symbols : List Symbol) : List Text :=
  symbols.flatMap fun s => [s.labelLine, s.directiveLine]

variable {symbols : List Symbol}

theorem rows_printed (h : ∀ s ∈ symbols, IsName s.name) :
    Grammar.rows (symbols.flatMap Symbol.print) = printedRows symbols ++ [[]] := by
  induction symbols with
  | nil => rfl
  | cons s rest ih =>
      rw [List.flatMap_cons, Symbol.rows_print (h s List.mem_cons_self),
        ih fun t ht => h t (List.mem_cons_of_mem s ht)]
      rfl

theorem mem_printedRows {row : Text} (h : row ∈ printedRows symbols) :
    ∃ s ∈ symbols, row = s.labelLine ∨ row = s.directiveLine := by
  obtain ⟨s, hs, hrow⟩ := List.mem_flatMap.mp h
  exact ⟨s, hs, by simpa using hrow⟩

theorem lead_printedRows (h : ∀ s ∈ symbols, IsName s.name) :
    Grammar.lead .standard (printedRows symbols ++ [[]]) = [] := by
  cases symbols with
  | nil => rfl
  | cons s rest =>
      have hl := Symbol.isLabel_labelLine (h s List.mem_cons_self)
      simp [printedRows, Grammar.lead, hl]

theorem lead_directiveLine (s : Symbol) (rows : List Text) :
    Grammar.lead .standard (s.directiveLine :: rows) =
      s.payload ++ Grammar.lead .standard rows := by
  have hd := s.isDirective_directiveLine
  simp [Grammar.lead, hd.not_label, Grammar.bytes_of_decode hd s.decode_directiveLine]

theorem symbols_printedRows (h : ∀ s ∈ symbols, IsName s.name) :
    Grammar.symbols .standard (printedRows symbols ++ [[]]) = symbols := by
  induction symbols with
  | nil => rfl
  | cons s rest ih =>
      have hname := h s List.mem_cons_self
      have hrest : ∀ t ∈ rest, IsName t.name := fun t ht => h t (List.mem_cons_of_mem s ht)
      have hrows : printedRows (s :: rest) ++ [[]] =
          s.labelLine :: s.directiveLine :: (printedRows rest ++ [[]]) := rfl
      rw [hrows, Grammar.symbols, if_pos (Symbol.isLabel_labelLine hname), Grammar.symbols,
        if_neg s.isDirective_directiveLine.not_label, ih hrest, lead_directiveLine,
        lead_printedRows hrest, Symbol.name_labelLine hname, List.append_nil]

theorem size_printedRows (h : ∀ s ∈ symbols, IsName s.name) :
    Grammar.size .standard (printedRows symbols ++ [[]]) = payloadSize symbols := by
  induction symbols with
  | nil => rfl
  | cons s rest ih =>
      have hl := Symbol.isLabel_labelLine (h s List.mem_cons_self)
      have hlabel : Grammar.bytes .standard s.labelLine = [] :=
        Grammar.bytes_of_not_directive hl.not_directive
      have hdirective : Grammar.bytes .standard s.directiveLine = s.payload :=
        Grammar.bytes_of_decode s.isDirective_directiveLine s.decode_directiveLine
      have hsize := ih fun t ht => h t (List.mem_cons_of_mem s ht)
      have hrows : printedRows (s :: rest) ++ [[]] =
          [s.labelLine, s.directiveLine] ++ (printedRows rest ++ [[]]) := rfl
      rw [hrows, Grammar.size_append, hsize]
      simp [Grammar.size, hlabel, hdirective, payloadSize]

theorem accepts_printedRows (h : ∀ s ∈ symbols, IsName s.name)
    (hfits : payloadSize symbols ≤ sizeLimit) :
    Grammar.Accepts .standard 0 (printedRows symbols ++ [[]]) := by
  refine ⟨?_, ?_, ?_⟩
  · intro row hrow hl
    rcases List.mem_append.mp hrow with hrow | hrow
    · obtain ⟨s, hs, rfl | rfl⟩ := mem_printedRows hrow
      · exact Symbol.named_labelLine (h s hs)
      · exact absurd hl s.isDirective_directiveLine.not_label
    · exact absurd (List.mem_singleton.mp hrow) hl.1
  · intro before row after hsplit hd
    have hrow : row ∈ printedRows symbols := by
      have hmem : row ∈ printedRows symbols ++ [[]] := by simp [hsplit]
      rcases List.mem_append.mp hmem with hmem | hmem
      · exact hmem
      · rw [List.mem_singleton.mp hmem] at hd
        exact absurd hd (by decide)
    obtain ⟨s, hs, rfl | rfl⟩ := mem_printedRows hrow
    · exact absurd hd (Symbol.isLabel_labelLine (h s hs)).not_directive
    · refine ⟨?_, s.payload, s.decode_directiveLine⟩
      -- The first row of all is a label row, so it stands before the directive.
      obtain ⟨first, rest, rfl⟩ := List.exists_cons_of_ne_nil (List.ne_nil_of_mem hs)
      have hl := Symbol.isLabel_labelLine (h first List.mem_cons_self)
      cases before with
      | nil =>
          obtain ⟨hfirst, -⟩ := List.cons.inj hsplit
          rw [hfirst] at hl
          exact absurd hl s.isDirective_directiveLine.not_label
      | cons row before =>
          obtain ⟨rfl, -⟩ := List.cons.inj hsplit
          exact ⟨_, List.mem_cons_self, hl⟩
  · rwa [size_printedRows h, Nat.zero_add]

theorem append_printed {s : Segment} (hsized : s.Sized) (hnames : s.WellNamed) (origin : Text) :
    empty.append .standard origin s.print = .ok s := by
  have hname : ∀ symbol ∈ s.symbols, IsName symbol.name := fun symbol hmem =>
    hnames symbol.name (List.mem_map_of_mem hmem)
  have hrows : Grammar.rows s.print = printedRows s.symbols ++ [[]] := rows_printed hname
  refine Grammar.append_eq_ok_iff.mpr ⟨?_, ?_, ?_⟩
  · rw [hrows]
    exact accepts_printedRows hname hsized.payloadSize_le
  · rw [hrows, symbols_printedRows hname]
    rfl
  · rw [hrows, size_printedRows hname, hsized]
    exact (Nat.zero_add _).symm

/-- Every segment that offers can build, whatever their registries, is read back by the standard
registry from its listing; and its names are what names can look like. -/
theorem ofOffers_read_back (offers : List Offer) (origin : Text) :
    empty.append .standard origin (ofOffers offers).print = .ok (ofOffers offers) ∧
      ∀ name ∈ (ofOffers offers).names, name ≠ [] ∧ Text.trim name = name ∧ ':' ∉ name ∧
        '\n' ∉ name ∧ name.head? ≠ some '.' := by
  have hnames := ofOffers_wellNamed offers
  refine ⟨append_printed (ofOffers_sized offers) hnames origin, ?_⟩
  intro name hname
  have h := hnames name hname
  exact ⟨h.ne_nil, h.trimmed, h.no_colon, h.no_lineFeed, h.no_period⟩

end Segment
end Bytelink
