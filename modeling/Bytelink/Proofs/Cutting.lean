import Bytelink.Proofs.LineWise
import Bytelink.Proofs.Spelling

/-!
# Cutting string constants

A content can be cut wherever a spelling ends: what stands before the cut is decoded as if it were
a constant of its own, and then what stands after it, faults included (`decodeContent_append`). The
one place where a spelling does not end with its own last character is a numeric escape before a
digit, since the digits are taken as far as they go.

Two contracts follow. `decode_numeric_escape` says what becomes of a numeric escape behind any
content that is decoded. `decode_cut` says that a directive line of a listing may be replaced by two
lines with the parts of its constant.
-/
namespace Bytelink

namespace Constant

def quote (content : Text) : Text := '"' :: (content ++ ['"'])

def EndsInNumeral (content : Text) : Prop :=
  ∃ units digits, WellSpelled (units ++ [.octal digits]) ∧
    content = spelled (units ++ [.octal digits])

def BeginsWithDigit (content : Text) : Prop :=
  ∃ d, content.head? = some d ∧ Text.isDigit d = true

variable {c : Char} {byte : UInt8} {bytes : Bytes} {fault : Fault} {units : List Spelling}
variable {front back digits rest after : Text}

theorem decode_quote (content : Text) : decode (quote content) = decodeContent content := by
  simp only [decode, quote, content?_quoted]

theorem decodeContent_of_fault (h : readUnit c rest = .error fault) :
    decodeContent (c :: rest) = .error fault := by
  rw [decodeContent]
  split
  · rename_i herror
    exact congrArg Except.error (Except.error.inj (herror.symm.trans h))
  · rename_i hok
    rw [h] at hok
    cases hok

/-- A legal spelling is decoded before anything that may follow it. -/
theorem decodeContent_spelling {unit : Spelling} (hlegal : unit.Legal)
    (hends : unit.EndsBefore back) (hvalue : byte.toNat = unit.value) :
    decodeContent (unit.text ++ back) = (decodeContent back).map (byte :: ·) := by
  obtain ⟨c, rest, htext⟩ := unit.exists_text
  have hunit : readUnit c (rest ++ back) = .ok (byte, back) :=
    readUnit_spelling hlegal hends (by rw [htext, List.cons_append]) hvalue
  rw [htext, List.cons_append]
  exact decodeContent_of_unit hunit

theorem Spelling.EndsBefore.append {unit : Spelling} (h : unit.EndsBefore front) (hne : front ≠ [])
    (back : Text) : unit.EndsBefore (front ++ back) := by
  cases unit with
  | plain | named => trivial
  | octal digits =>
      intro d hd
      apply h d
      rwa [List.head?_append_of_ne_nil _ hne] at hd

theorem spelled_ne_nil (unit : Spelling) (units : List Spelling) :
    spelled (unit :: units) ≠ [] := by
  obtain ⟨c, rest, htext⟩ := unit.exists_text
  simp [spelled_cons, htext]

/-- Spellings are decoded before anything that may follow the last of them. -/
theorem decodeContent_spelled_append (hunits : WellSpelled units)
    (hlast : ∀ unit, units.getLast? = some unit → unit.EndsBefore back)
    (hvalues : bytes.map UInt8.toNat = units.map Spelling.value) :
    decodeContent (spelled units ++ back) = (decodeContent back).map (bytes ++ ·) := by
  induction units generalizing bytes with
  | nil =>
      have hnone : bytes = [] := by simpa using hvalues
      subst hnone
      cases h : decodeContent back <;> simp [spelled, h, Except.map]
  | cons unit units ih =>
      obtain ⟨hlegal, hends, hrest⟩ := hunits
      obtain ⟨byte, others, rfl, hvalue, hothers⟩ := List.map_eq_cons_iff.mp hvalues
      have hends' : unit.EndsBefore (spelled units ++ back) := by
        cases units with
        | nil => exact hlast unit rfl
        | cons next units => exact hends.append (spelled_ne_nil next units) back
      have hlast' : ∀ last, units.getLast? = some last → last.EndsBefore back := by
        intro last h
        apply hlast last
        simp [List.getLast?_cons, h]
      rw [spelled_cons, List.append_assoc, decodeContent_spelling hlegal hends' hvalue,
        ih hrest hlast' hothers]
      cases decodeContent back <;> rfl

/-- A content that is decoded can be taken off, unless the cut goes through a run of digits. -/
theorem decodeContent_append (h : decodeContent front = .ok bytes)
    (hcut : ¬ (EndsInNumeral front ∧ BeginsWithDigit back)) :
    decodeContent (front ++ back) = (decodeContent back).map (bytes ++ ·) := by
  obtain ⟨units, hunits, rfl, hvalues⟩ := decodeContent_eq_ok_iff.mp h
  apply decodeContent_spelled_append hunits _ hvalues
  intro last hlast
  cases last with
  | plain | named => trivial
  | octal digits =>
      intro d hd
      obtain ⟨init, rfl⟩ := List.getLast?_eq_some_iff.mp hlast
      have hno : ¬ BeginsWithDigit back := fun hdigit => hcut ⟨⟨init, digits, hunits, rfl⟩, hdigit⟩
      rw [← Bool.not_eq_true]
      exact fun hdigit => hno ⟨d, hd, hdigit⟩

/-- Decoding fails at the numeric escape that follows `front`: whatever comes after its digits, the
fault is the same. -/
def FailsAtEscape (front digits : Text) (fault : Fault) : Prop :=
  ∀ rest, ¬ BeginsWithDigit rest → decode (quote (front ++ '\\' :: (digits ++ rest))) = .error fault

theorem octal_or_nonoctal {d : Char} (h : Text.isDigit d = true) :
    Text.isOctalDigit d = true ∨ d = '8' ∨ d = '9' := by
  simp only [Text.isDigit, Text.isOctalDigit, Bool.and_eq_true, decide_eq_true_eq,
    Char.le_def, UInt32.le_iff_toNat_le] at h ⊢
  have hzero : '0'.val.toNat = 48 := rfl
  have hseven : '7'.val.toNat = 55 := rfl
  have hnine : '9'.val.toNat = 57 := rfl
  by_cases h8 : d.val.toNat = 56
  · exact Or.inr (Or.inl (Char.ext (UInt32.toNat_inj.mp h8)))
  · by_cases h9 : d.val.toNat = 57
    · exact Or.inr (Or.inr (Char.ext (UInt32.toNat_inj.mp h9)))
    · omega

/-- An escape behind a content that is decoded is decoded by itself. -/
theorem decode_escape (hfront : decode (quote front) = .ok bytes) (hne : digits ≠ [])
    (hdigits : ∀ d ∈ digits, Text.isDigit d = true) (hrest : ¬ BeginsWithDigit rest) :
    decode (quote (front ++ '\\' :: (digits ++ rest))) = (octalByte digits).bind fun byte =>
      (decode (quote rest)).map (bytes ++ byte :: ·) := by
  rw [decode_quote] at hfront
  have hslash : ¬ BeginsWithDigit ('\\' :: (digits ++ rest)) := by
    intro ⟨d, hd, hdigit⟩
    obtain rfl := Option.some.inj hd
    exact absurd hdigit (by decide)
  have hends : ∀ d, rest.head? = some d → Text.isDigit d = false := by
    intro d hd
    rw [← Bool.not_eq_true]
    exact fun hdigit => hrest ⟨d, hd, hdigit⟩
  have hunit := readUnit_digits hne hdigits hends
  rw [decode_quote, decode_quote, decodeContent_append hfront fun h => hslash h.2]
  cases hbyte : octalByte digits with
  | error fault =>
      rw [hbyte] at hunit
      rw [decodeContent_of_fault hunit]
      rfl
  | ok byte =>
      rw [hbyte] at hunit
      rw [decodeContent_of_unit hunit]
      simp only [Except.bind]
      cases decodeContent rest <;> rfl

theorem octalByte_invalid_iff : octalByte digits = .error (.invalidOctalEscape digits) ↔
    (∃ d ∈ digits, Text.isOctalDigit d = false) ∨ UInt32.size ≤ Text.valueIn 8 digits := by
  unfold octalByte
  by_cases hall : digits.all Text.isOctalDigit = true
  · by_cases hword : Text.valueIn 8 digits < UInt32.size
    · simp only [hall, hword, decide_true, Bool.and_self, if_true]
      split <;> simp_all
    · simp [hword, Nat.le_of_not_lt hword]
  · simp only [hall, Bool.false_and, Bool.false_eq_true, if_false, true_iff]
    left
    simpa using hall

/-- An octal numeral with room in a word, but not in a byte. -/
theorem octalByte_outOfRange_iff {value : Nat} :
    octalByte digits = .error (.byteOutOfRange value) ↔
      (∀ d ∈ digits, Text.isOctalDigit d = true) ∧ value = Text.valueIn 8 digits ∧
        0xFF < value ∧ value < UInt32.size := by
  unfold octalByte
  by_cases hall : digits.all Text.isOctalDigit = true
  · have hdigits : ∀ d ∈ digits, Text.isOctalDigit d = true := List.all_eq_true.mp hall
    by_cases hword : Text.valueIn 8 digits < UInt32.size
    · by_cases hbyte : Text.valueIn 8 digits < 0x100
      · simp only [hall, hword, hbyte, decide_true, Bool.and_self, if_true, reduceCtorEq, false_iff]
        rintro ⟨-, rfl, hlarge, -⟩
        omega
      · simp only [hall, hword, hbyte, decide_true, Bool.and_self, if_true, if_false,
          Except.error.injEq, Fault.byteOutOfRange.injEq]
        constructor
        · rintro rfl
          exact ⟨hdigits, rfl, by omega, hword⟩
        · exact fun h => h.2.1.symm
    · simp only [hword, decide_false, Bool.and_false, Bool.false_eq_true, if_false,
        Except.error.injEq, reduceCtorEq, false_iff]
      rintro ⟨-, rfl, -, hroom⟩
      exact hword hroom
  · have hno : ¬ ∀ d ∈ digits, Text.isOctalDigit d = true := fun h => hall (List.all_eq_true.mpr h)
    simp [hall, hno]

theorem failsAtEscape_iff (hfront : decode (quote front) = .ok bytes) (hne : digits ≠ [])
    (hdigits : ∀ d ∈ digits, Text.isDigit d = true) :
    FailsAtEscape front digits fault ↔ octalByte digits = .error fault := by
  constructor
  · intro hfails
    have hnothing : ¬ BeginsWithDigit [] := fun ⟨d, hd, _⟩ => nomatch hd
    have hempty := hfails [] hnothing
    rw [decode_escape hfront hne hdigits hnothing, decode_quote, decodeContent] at hempty
    cases hbyte : octalByte digits with
    | error fault' =>
        rw [hbyte] at hempty
        rw [Except.error.inj hempty]
    | ok byte =>
        rw [hbyte] at hempty
        cases hempty
  · intro hfault rest hrest
    rw [decode_escape hfront hne hdigits hrest, hfault]
    rfl

/-- What becomes of a numeric escape behind a content that is decoded. Decoding fails there for the
digits if one of them is not octal, and also if their value has no room in a word; it fails for the
value if this has room in a word, but not in a byte. Otherwise the value is the next byte and
decoding goes on behind the digits. -/
theorem decode_numeric_escape (hfront : decode (quote front) = .ok bytes) (hne : digits ≠ [])
    (hdigits : ∀ d ∈ digits, Text.isDigit d = true) :
    (FailsAtEscape front digits (.invalidOctalEscape digits) ↔
      (∃ d ∈ digits, d = '8' ∨ d = '9') ∨ UInt32.size ≤ Text.valueIn 8 digits) ∧
    (∀ value, FailsAtEscape front digits (.byteOutOfRange value) ↔
      (∀ d ∈ digits, Text.isOctalDigit d = true) ∧ value = Text.valueIn 8 digits ∧
        0xFF < value ∧ value < UInt32.size) ∧
    ((∀ d ∈ digits, Text.isOctalDigit d = true) → Text.valueIn 8 digits ≤ 0xFF →
      ∃ byte : UInt8, byte.toNat = Text.valueIn 8 digits ∧ ∀ rest, ¬ BeginsWithDigit rest →
        decode (quote (front ++ '\\' :: (digits ++ rest))) =
          (decode (quote rest)).map (bytes ++ byte :: ·)) := by
  have hfails : ∀ fault, FailsAtEscape front digits fault ↔ octalByte digits = .error fault :=
    fun _ => failsAtEscape_iff hfront hne hdigits
  have hnonoctal : (∃ d ∈ digits, Text.isOctalDigit d = false) ↔
      ∃ d ∈ digits, d = '8' ∨ d = '9' := by
    constructor
    · intro ⟨d, hd, hno⟩
      have hor := octal_or_nonoctal (hdigits d hd)
      rw [hno] at hor
      exact ⟨d, hd, hor.resolve_left (by decide)⟩
    · rintro ⟨d, hd, rfl | rfl⟩
      · exact ⟨_, hd, by decide⟩
      · exact ⟨_, hd, by decide⟩
  refine ⟨?_, ?_, ?_⟩
  · rw [hfails, octalByte_invalid_iff, hnonoctal]
  · intro value
    rw [hfails, octalByte_outOfRange_iff]
  · intro hoctal hle
    have hvalue : (UInt8.ofNat (Text.valueIn 8 digits)).toNat = Text.valueIn 8 digits :=
      (ofNat_eq_iff (Nat.lt_succ_of_le hle)).mp rfl
    refine ⟨_, hvalue, fun rest hrest => ?_⟩
    rw [decode_escape hfront hne hdigits hrest, octalByte_eq_ok_iff.mpr ⟨hoctal, hle, hvalue⟩]
    rfl

/-- All digits of the first escape are octal and its value is no byte, but it is refused for its
digits: thirty-three bits are no word. One bit less, and it is refused for its value. -/
theorem escape_of_thirty_three_bits :
    let front : Text := "a"
    let long : Text := "40000000000"
    let short : Text := "37777777777"
    decode (quote front) = .ok [97] ∧
    (long ≠ [] ∧ (∀ d ∈ long, Text.isDigit d = true) ∧
      (∀ d ∈ long, Text.isOctalDigit d = true) ∧ 0xFF < Text.valueIn 8 long ∧
      FailsAtEscape front long (.invalidOctalEscape long) ∧
      ∀ value, ¬ FailsAtEscape front long (.byteOutOfRange value)) ∧
    (short ≠ [] ∧ (∀ d ∈ short, Text.isDigit d = true) ∧
      FailsAtEscape front short (.byteOutOfRange 4294967295)) := by
  intro front long short
  have hfront : decode (quote front) = .ok [97] := by with_unfolding_all rfl
  have hlong : ∀ d ∈ long, Text.isDigit d = true := List.all_eq_true.mp (by decide)
  have hlongOctal : ∀ d ∈ long, Text.isOctalDigit d = true := List.all_eq_true.mp (by decide)
  have hshort : ∀ d ∈ short, Text.isDigit d = true := List.all_eq_true.mp (by decide)
  have hshortOctal : ∀ d ∈ short, Text.isOctalDigit d = true := List.all_eq_true.mp (by decide)
  obtain ⟨hinvalid, hrange, -⟩ := decode_numeric_escape hfront (by decide) hlong
  obtain ⟨-, hrange', -⟩ := decode_numeric_escape hfront (by decide) hshort
  refine ⟨hfront, ⟨by decide, hlong, hlongOctal, by decide, hinvalid.mpr (Or.inr (by decide)), ?_⟩,
    by decide, hshort, (hrange' _).mpr ⟨hshortOctal, by decide⟩⟩
  intro value hfails
  obtain ⟨-, rfl, -, hword⟩ := (hrange value).mp hfails
  exact absurd hword (by decide)

end Constant

namespace Text

theorem trim_blanks_append {gap : Text} (h : ∀ c ∈ gap, isBlank c = true) (t : Text) :
    trim (gap ++ t) = trim t := by
  rw [trim, trimStart, List.dropWhile_append_of_pos h]
  rfl

theorem splitAtBlank_append {name : Text} (hname : name.any isBlank = false) {blank : Char}
    (hblank : isBlank blank = true) (rest : Text) :
    splitAtBlank (name ++ blank :: rest) = some (name, rest) := by
  induction name with
  | nil => simp [splitAtBlank, hblank]
  | cons c name ih =>
      obtain ⟨hc, hrest⟩ := Bool.or_eq_false_iff.mp hname
      simp [splitAtBlank, hc, ih hrest]

theorem exists_pieces_before {before : Text} (h : before = [] ∨ EndsLine before) :
    ∃ pieces, ∀ t, splitOn '\n' (before ++ t) = pieces ++ splitOn '\n' t := by
  rcases h with rfl | h
  · exact ⟨[], fun t => rfl⟩
  · obtain ⟨front, rfl⟩ := endsLine_iff.mp h
    refine ⟨splitOn '\n' front, fun t => ?_⟩
    rw [List.append_assoc, List.singleton_append, splitOn_append_cons]

theorem exists_pieces_after {after : Text} (h : after = [] ∨ after.head? = some '\n') :
    ∃ pieces, ∀ line, '\n' ∉ line → splitOn '\n' (line ++ after) = line :: pieces := by
  rcases h with rfl | h
  · exact ⟨[], fun line hline => by rw [List.append_nil, splitOn_of_not_mem hline]⟩
  · obtain ⟨rest, rfl⟩ := List.head?_eq_some_iff.mp h
    refine ⟨splitOn '\n' rest, fun line hline => ?_⟩
    rw [splitOn_append_cons, splitOn_of_not_mem hline, List.singleton_append]

end Text

/-- A line of a listing that is the `ascii` directive of a string constant. -/
structure IsConstantLine (line content : Text) : Prop where
  lineFeed_not_mem : '\n' ∉ line
  row : ∃ blank gap, Text.isBlank blank = true ∧ (∀ c ∈ gap, Text.isBlank c = true) ∧
    Text.trim line = '.' :: ("ascii" ++ blank :: (gap ++ Constant.quote content))

section

variable {line first second front back content : Text} {bytes : Bytes} {l : Listing}
variable {registry : Registry}

theorem Constant.trim_quote (content : Text) : Text.trim (quote content) = quote content := by
  apply Text.trim_eq_self
  · intro c hc
    obtain rfl : '"' = c := by simpa [quote] using hc
    decide
  · intro c hc
    rw [quote, ← List.cons_append, List.getLast?_concat] at hc
    obtain rfl := Option.some.inj hc
    decide

theorem IsConstantLine.decode_row (h : IsConstantLine line content) :
    Registry.standard.decode (Text.trim line) = Constant.decode (Constant.quote content) := by
  obtain ⟨blank, gap, hblank, hgap, hrow⟩ := h.row
  have hname : ("ascii" : Text).any Text.isBlank = false := by decide
  have hsplit := Text.splitAtBlank_append hname hblank (gap ++ Constant.quote content)
  have hget : Registry.standard.get? "ascii" = some Constant.decode := rfl
  have htrimmed := Text.trim_trim line
  rw [hrow] at htrimmed
  rw [Registry.decode, hrow, htrimmed]
  simp only [hsplit, hget, Text.trim_blanks_append hgap, Constant.trim_quote]

namespace Listing

theorem addPayload_append (l : Listing) (a b : Bytes) : (l.addPayload (a ++ b)).toOption =
    (l.addPayload a).toOption.bind fun next => (next.addPayload b).toOption := by
  unfold addPayload
  cases l.symbols with
  | nil => rfl
  | cons newest earlier =>
      simp only [List.length_append]
      by_cases ha : l.total.toNat + a.length ≤ Segment.sizeLimit
      · have htotal := Grammar.toNat_add_payload ha
        simp only [ha, if_true, Except.toOption, Option.bind_some, htotal]
        by_cases hb : l.total.toNat + a.length + b.length ≤ Segment.sizeLimit
        · have hab : l.total.toNat + (a.length + b.length) ≤ Segment.sizeLimit := by omega
          simp only [hab, hb, if_true, List.append_assoc, UInt32.ofNat_add, UInt32.add_assoc]
        · have hab : ¬ l.total.toNat + (a.length + b.length) ≤ Segment.sizeLimit := by omega
          simp only [hab, hb, if_false]
      · have hab : ¬ l.total.toNat + (a.length + b.length) ≤ Segment.sizeLimit := by omega
        simp only [ha, hab, if_false, Except.toOption, Option.bind_none]

/-- A listing after one more line, unless the line is at fault. -/
def after? (registry : Registry) (l : Listing) (raw : Text) : Option Listing :=
  (l.readLine registry raw).toOption

theorem toOption_readLines (registry : Registry) (number : Nat) (l : Listing) (raws : List Text) :
    (readLines registry number l raws).toOption = raws.foldlM (after? registry) l := by
  induction raws generalizing number l with
  | nil => rfl
  | cons raw rest ih =>
      simp only [readLines, List.foldlM_cons, after?]
      cases l.readLine registry raw with
      | error fault => rfl
      | ok next => exact ih (number + 1) next

/-- A constant is added to the newest symbol, if there is one. -/
theorem after?_constant (h : IsConstantLine first content) : l.after? .standard first =
    (Constant.decode (Constant.quote content)).toOption.bind fun payload =>
      (l.addPayload payload).toOption := by
  obtain ⟨blank, gap, -, -, hrow⟩ := h.row
  have hdecode := h.decode_row
  rw [hrow] at hdecode
  simp only [after?, readLine, hrow, hdecode]
  cases hsymbols : l.symbols with
  | nil =>
      cases Constant.decode (Constant.quote content) <;>
        simp [addPayload, hsymbols, Except.toOption]
  | cons newest earlier => cases Constant.decode (Constant.quote content) <;> simp [Except.toOption]

theorem after?_cut (hline : IsConstantLine line (front ++ back))
    (hfirst : IsConstantLine first front) (hsecond : IsConstantLine second back)
    (hfront : Constant.decode (Constant.quote front) = .ok bytes)
    (hback : Constant.decode (Constant.quote (front ++ back)) =
      (Constant.decode (Constant.quote back)).map (bytes ++ ·)) :
    l.after? .standard line =
      (l.after? .standard first).bind fun next => next.after? .standard second := by
  simp only [after?_constant hline, after?_constant hfirst, after?_constant hsecond, hfront, hback]
  cases Constant.decode (Constant.quote back) with
  | error fault => simp [Except.map, Except.toOption]
  | ok payload => exact l.addPayload_append bytes payload

end Listing

namespace Segment

variable {s : Segment} {origin text other : Text}

theorem toOption_append (s : Segment) (registry : Registry) (origin text : Text) :
    (s.append registry origin text).toOption =
      ((Text.splitOn '\n' text).foldlM (Listing.after? registry) ⟨[], s.totalSize⟩).map
        fun listing => ⟨s.symbols ++ listing.symbols.reverse, listing.total⟩ := by
  rw [← Listing.toOption_readLines registry 1, ← Grammar.readLines_pieces, append]
  cases Listing.readLines registry 1 ⟨[], s.totalSize⟩ (Text.lines text) <;> rfl

theorem offer_eq (s : Segment) (o : Offer) :
    s.offer o = (s.append o.registry o.origin o.text).toOption.getD s := by
  unfold offer
  cases s.append o.registry o.origin o.text <;> rfl

/-- A line with one constant may be replaced by two lines with the parts of the constant. -/
theorem toOption_append_cut (hline : IsConstantLine line (front ++ back))
    (hfirst : IsConstantLine first front) (hsecond : IsConstantLine second back)
    (hfront : Constant.decode (Constant.quote front) = .ok bytes)
    (hback : Constant.decode (Constant.quote (front ++ back)) =
      (Constant.decode (Constant.quote back)).map (bytes ++ ·))
    {before after : Text} (hbefore : before = [] ∨ EndsLine before)
    (hafter : after = [] ∨ after.head? = some '\n') :
    (s.append .standard origin (before ++ (line ++ after))).toOption =
      (s.append .standard origin (before ++ (first ++ '\n' :: (second ++ after)))).toOption := by
  have hcut : ∀ l : Listing, l.after? .standard line =
      (l.after? .standard first).bind fun next => next.after? .standard second :=
    fun l => Listing.after?_cut hline hfirst hsecond hfront hback
  obtain ⟨earlier, hearlier⟩ := Text.exists_pieces_before hbefore
  obtain ⟨later, hlater⟩ := Text.exists_pieces_after hafter
  rw [toOption_append, toOption_append, hearlier, hearlier, Text.splitOn_append_cons,
    Text.splitOn_of_not_mem hfirst.lineFeed_not_mem, hlater _ hline.lineFeed_not_mem,
    hlater _ hsecond.lineFeed_not_mem]
  simp only [List.foldlM_append, List.foldlM_cons, List.singleton_append, hcut,
    Option.bind_eq_bind, Option.bind_assoc]

end Segment

end

namespace Constant

/-- A constant may be cut wherever a content that is decoded ends, but not between a numeric escape
and a digit: its bytes, or its fault, are those of the part behind the cut, with the bytes of the
part before it in front. So a directive line with the constant may be replaced by two lines with
the parts. The listing is taken or refused as before, and the segment is the same. -/
theorem decode_cut {front back : Text} {bytes : Bytes} (hfront : decode (quote front) = .ok bytes)
    (hcut : ¬ (EndsInNumeral front ∧ BeginsWithDigit back)) :
    decode (quote (front ++ back)) = (decode (quote back)).map (bytes ++ ·) ∧
    ∀ (s : Segment) (origin before line first second after : Text),
      IsConstantLine line (front ++ back) → IsConstantLine first front →
      IsConstantLine second back → (before = [] ∨ EndsLine before) →
      (after = [] ∨ after.head? = some '\n') →
      (s.append .standard origin (before ++ (line ++ after))).toOption =
        (s.append .standard origin (before ++ (first ++ '\n' :: (second ++ after)))).toOption ∧
      s.offer ⟨.standard, origin, before ++ (line ++ after)⟩ =
        s.offer ⟨.standard, origin, before ++ (first ++ '\n' :: (second ++ after))⟩ := by
  have hback : decode (quote (front ++ back)) = (decode (quote back)).map (bytes ++ ·) := by
    rw [decode_quote, decode_quote]
    exact decodeContent_append ((decode_quote front).symm.trans hfront) hcut
  refine ⟨hback, ?_⟩
  intro s origin before line first second after hline hfirst hsecond hbefore hafter
  have happend : (s.append .standard origin (before ++ (line ++ after))).toOption =
      (s.append .standard origin (before ++ (first ++ '\n' :: (second ++ after)))).toOption :=
    Segment.toOption_append_cut hline hfirst hsecond hfront hback hbefore hafter
  exact ⟨happend, by rw [Segment.offer_eq, Segment.offer_eq, happend]⟩

/-- A cut behind a numeric escape, before an escape that is no numeral, in the last line of a
listing. -/
theorem cut_behind_numeral :
    let front : Text := "a\\12"
    let back : Text := "\\\"7"
    let line : Text := "\t.ascii \"a\\12\\\"7\""
    let first : Text := ".ascii  \"a\\12\" "
    let second : Text := "\t.ascii\t\"\\\"7\""
    let before : Text := "A:\n"
    decode (quote front) = .ok [97, 10] ∧ ¬ (EndsInNumeral front ∧ BeginsWithDigit back) ∧
    decode (quote (front ++ back)) = (decode (quote back)).map ([97, 10] ++ ·) ∧
    (IsConstantLine line (front ++ back) ∧ IsConstantLine first front ∧
      IsConstantLine second back ∧ EndsLine before) ∧
    Segment.empty.offer ⟨.standard, "a.c", before ++ (line ++ [])⟩ =
      Segment.empty.offer ⟨.standard, "a.c", before ++ (first ++ '\n' :: (second ++ []))⟩ := by
  intro front back line first second before
  have hfront : decode (quote front) = .ok [97, 10] := by with_unfolding_all rfl
  have hcut : ¬ (EndsInNumeral front ∧ BeginsWithDigit back) := by
    rintro ⟨-, d, hd, hdigit⟩
    obtain rfl := Option.some.inj hd
    exact absurd hdigit (by decide)
  have hline : IsConstantLine line (front ++ back) :=
    ⟨by decide, ' ', [], by decide, by simp, by decide +kernel⟩
  have hfirst : IsConstantLine first front :=
    ⟨by decide, ' ', [' '], by decide, List.all_eq_true.mp (by decide), by decide +kernel⟩
  have hsecond : IsConstantLine second back :=
    ⟨by decide, '\t', [], by decide, by simp, by decide +kernel⟩
  have hbefore : EndsLine before := by
    unfold EndsLine
    decide
  obtain ⟨hdecode, hlines⟩ := decode_cut hfront hcut
  exact ⟨hfront, hcut, hdecode, ⟨hline, hfirst, hsecond, hbefore⟩,
    (hlines .empty "a.c" before line first second [] hline hfirst hsecond (Or.inr hbefore)
      (Or.inl rfl)).2⟩

end Constant
end Bytelink
