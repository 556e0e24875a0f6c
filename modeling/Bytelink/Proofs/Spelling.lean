import Bytelink.Proofs.Printing

/-!
# The grammar of string constants

A byte of a string constant has three kinds of spelling: an ASCII character that stands for itself,
a backslash with one of seven marks, and a backslash with octal digits. `WellSpelled` says which
sequences of spellings form a content. It is here that the digits of a numeric escape are taken as
far as they go: no digit may follow them, while any other spelling may stand next to any.

`decode_follows_spelling` is the contract of the decoder: it accepts exactly the quoted contents and
yields the values of their spellings. The reader takes one unit at a time, and a unit is one
spelling with what may follow it (`exists_spelling_of_readUnit`, `readUnit_spelling`); both
directions of the contract follow by going through the units.
-/
namespace Bytelink.Constant

/-- The marks that a backslash gives a meaning to, with the values that they stand for. -/
def namedEscapes : List (Char × Nat) :=
  [('b', 8), ('f', 12), ('n', 10), ('r', 13), ('t', 9), ('"', 34), ('\\', 92)]

/-- A spelling of one byte. -/
inductive Spelling
  | plain (c : Char)
  | named (mark : Char) (value : Nat)
  | octal (digits : Text)
  deriving DecidableEq, Repr

namespace Spelling

/-- The characters of a spelling. -/
def text : Spelling → Text
  | plain c => [c]
  | named mark _ => ['\\', mark]
  | octal digits => '\\' :: digits

/-- The byte that is spelled, as a number. -/
def value : Spelling → Nat
  | plain c => c.toNat
  | named _ value => value
  | octal digits => Text.valueIn 8 digits

/-- The spellings that there are. Zeros in front of an octal numeral do not count. -/
def Legal : Spelling → Prop
  | plain c => c ≠ '\\' ∧ c.toNat < 0x80
  | named mark value => (mark, value) ∈ namedEscapes
  | octal digits =>
      digits ≠ [] ∧ (∀ d ∈ digits, Text.isOctalDigit d = true) ∧ Text.valueIn 8 digits ≤ 0xFF

/-- A spelling ends where `after` begins: a run of digits is taken as far as it goes. -/
def EndsBefore : Spelling → Text → Prop
  | octal _, after => ∀ d, after.head? = some d → Text.isDigit d = false
  | _, _ => True

theorem exists_text (unit : Spelling) : ∃ c rest, unit.text = c :: rest := by
  cases unit with
  | plain c => exact ⟨c, [], rfl⟩
  | named mark _ => exact ⟨'\\', [mark], rfl⟩
  | octal digits => exact ⟨'\\', digits, rfl⟩

end Spelling

/-- The content that some spellings form. -/
def spelled (units : List Spelling) : Text := units.flatMap Spelling.text

def WellSpelled : List Spelling → Prop
  | [] => True
  | unit :: rest => unit.Legal ∧ unit.EndsBefore (spelled rest) ∧ WellSpelled rest

variable {c mark : Char} {byte : UInt8} {digits rest after content operand : Text} {bytes : Bytes}

theorem ofNat_eq_iff {value : Nat} (h : value < 0x100) :
    UInt8.ofNat value = byte ↔ byte.toNat = value := by
  rw [← UInt8.toNat_inj, UInt8.toNat_ofNat_of_lt' h, eq_comm]

theorem charByte_eq_ok_iff : charByte c = .ok byte ↔ c.toNat < 0x80 ∧ byte.toNat = c.toNat := by
  unfold charByte
  split
  · rename_i hascii
    rw [Except.ok.injEq, ofNat_eq_iff (Nat.lt_trans hascii (by decide))]
    exact (and_iff_right hascii).symm
  · rename_i hascii
    simp [hascii]

theorem escapeByte?_eq_some_iff :
    escapeByte? mark = some byte ↔ (mark, byte.toNat) ∈ namedEscapes := by
  unfold escapeByte?
  split <;> simp_all [namedEscapes, ← UInt8.toNat_inj, eq_comm]

theorem octalByte_eq_ok_iff : octalByte digits = .ok byte ↔
    (∀ d ∈ digits, Text.isOctalDigit d = true) ∧ Text.valueIn 8 digits ≤ 0xFF ∧
      byte.toNat = Text.valueIn 8 digits := by
  by_cases hall : ∀ d ∈ digits, Text.isOctalDigit d = true
  · by_cases hvalue : Text.valueIn 8 digits ≤ 0xFF
    · have hword : Text.valueIn 8 digits < UInt32.size := Nat.lt_of_le_of_lt hvalue (by decide)
      have hbyte : Text.valueIn 8 digits < 0x100 := Nat.lt_succ_of_le hvalue
      simp only [octalByte, List.all_eq_true.mpr hall, hword, hbyte, decide_true, Bool.and_self,
        if_true, Except.ok.injEq, ofNat_eq_iff hbyte]
      exact ⟨fun h => ⟨hall, hvalue, h⟩, fun h => h.2.2⟩
    · have hbyte : ¬ Text.valueIn 8 digits < 0x100 := by omega
      simp only [octalByte, hbyte, if_false, hvalue, false_and, and_false, iff_false]
      split <;> simp
  · have hno : digits.all Text.isOctalDigit = false := by simpa using hall
    simp [octalByte, hno, hall]

theorem map_pair_eq_ok_iff {result : Except Fault UInt8} {remainder : Text} :
    result.map (·, remainder) = .ok (byte, after) ↔ result = .ok byte ∧ remainder = after := by
  cases result <;> simp [Except.map]

/-- What is read as a unit is one spelling, and what is left may follow it. -/
theorem exists_spelling_of_readUnit (h : readUnit c rest = .ok (byte, after)) :
    ∃ unit : Spelling, unit.Legal ∧ unit.EndsBefore after ∧ c :: rest = unit.text ++ after ∧
      byte.toNat = unit.value := by
  unfold readUnit at h
  split at h
  · rename_i hback
    subst hback
    split at h
    · cases h
    · rename_i escape tail
      split at h
      · cases h
      · split at h
        · rename_i hdigit
          obtain ⟨hbyte, rfl⟩ := map_pair_eq_ok_iff.mp h
          obtain ⟨hoctal, hle, hvalue⟩ := octalByte_eq_ok_iff.mp hbyte
          refine ⟨.octal (escape :: tail.takeWhile Text.isDigit),
            ⟨List.cons_ne_nil _ _, hoctal, hle⟩, ?_, ?_, hvalue⟩
          · intro d hd
            have hnot := List.head?_dropWhile_not Text.isDigit tail
            rw [hd] at hnot
            simpa using hnot
          · simp [Spelling.text, List.takeWhile_append_dropWhile]
        · split at h
          · rename_i named hnamed
            obtain ⟨rfl, rfl⟩ := Prod.mk.inj (Except.ok.inj h)
            exact ⟨.named escape named.toNat, escapeByte?_eq_some_iff.mp hnamed, trivial, rfl, rfl⟩
          · cases h
  · rename_i hback
    obtain ⟨hbyte, rfl⟩ := map_pair_eq_ok_iff.mp h
    obtain ⟨hascii, hvalue⟩ := charByte_eq_ok_iff.mp hbyte
    exact ⟨.plain c, ⟨hback, hascii⟩, trivial, rfl, hvalue⟩

/-- A spelling is read as a unit before anything that may follow it. -/
theorem readUnit_spelling {unit : Spelling} (hlegal : unit.Legal) (hends : unit.EndsBefore after)
    (htext : c :: rest = unit.text ++ after) (hvalue : byte.toNat = unit.value) :
    readUnit c rest = .ok (byte, after) := by
  cases unit with
  | plain d =>
      simp only [Spelling.text, List.singleton_append, List.cons.injEq] at htext
      obtain ⟨rfl, rfl⟩ := htext
      obtain ⟨hback, hascii⟩ := hlegal
      simp only [readUnit, hback, if_false]
      exact map_pair_eq_ok_iff.mpr ⟨charByte_eq_ok_iff.mpr ⟨hascii, hvalue⟩, rfl⟩
  | named mark value =>
      simp only [Spelling.text, List.cons_append, List.nil_append, List.cons.injEq] at htext
      obtain ⟨rfl, rfl⟩ := htext
      obtain rfl : byte.toNat = value := hvalue
      have hmark : ∀ entry ∈ namedEscapes, entry.1 ≠ 'x' ∧ Text.isDigit entry.1 = false := by
        decide
      obtain ⟨hx, hdigit⟩ := hmark _ hlegal
      have hnamed := escapeByte?_eq_some_iff.mpr hlegal
      simp only [readUnit, if_true, hx, if_false, hdigit, Bool.false_eq_true, hnamed]
  | octal digits =>
      simp only [Spelling.text, List.cons_append, List.cons.injEq] at htext
      obtain ⟨rfl, rfl⟩ := htext
      obtain ⟨hne, hoctal, hle⟩ := hlegal
      have hdigits : ∀ d ∈ digits, Text.isDigit d = true :=
        fun d hd => Text.isDigit_of_isOctalDigit (hoctal d hd)
      rw [readUnit_digits hne hdigits hends]
      exact map_pair_eq_ok_iff.mpr ⟨octalByte_eq_ok_iff.mpr ⟨hoctal, hle, hvalue⟩, rfl⟩

theorem spelled_cons (unit : Spelling) (units : List Spelling) :
    spelled (unit :: units) = unit.text ++ spelled units := List.flatMap_cons

/-- A content is decoded exactly if it is well spelled. -/
theorem decodeContent_eq_ok_iff : decodeContent content = .ok bytes ↔
    ∃ units, WellSpelled units ∧ content = spelled units ∧
      bytes.map UInt8.toNat = units.map Spelling.value := by
  constructor
  · intro h
    fun_induction decodeContent content generalizing bytes with
    | case1 =>
        obtain rfl := Except.ok.inj h
        exact ⟨[], trivial, rfl, rfl⟩
    | case2 => cases h
    | case3 => cases h
    | case4 c rest byte after hunit hshort bytes' hrest ih =>
        obtain rfl := Except.ok.inj h
        obtain ⟨unit, hlegal, hends, htext, hvalue⟩ := exists_spelling_of_readUnit hunit
        obtain ⟨units, hunits, rfl, hvalues⟩ := ih hrest
        refine ⟨unit :: units, ⟨hlegal, hends, hunits⟩, ?_, ?_⟩
        · rw [spelled_cons, htext]
        · rw [List.map_cons, List.map_cons, hvalue, hvalues]
  · rintro ⟨units, hunits, rfl, hvalues⟩
    induction units generalizing bytes with
    | nil =>
        obtain rfl : bytes = [] := by simpa using hvalues
        rw [spelled, List.flatMap_nil, decodeContent]
    | cons unit units ih =>
        obtain ⟨hlegal, hends, hunits⟩ := hunits
        obtain ⟨byte, bytes', rfl, hvalue, hvalues⟩ := List.map_eq_cons_iff.mp hvalues
        obtain ⟨c, rest, htext⟩ := unit.exists_text
        rw [spelled_cons, htext, List.cons_append]
        have hunit : c :: (rest ++ spelled units) = unit.text ++ spelled units := by
          rw [htext, List.cons_append]
        exact decodeContent_cons (readUnit_spelling hlegal hends hunit hvalue) (ih hunits hvalues)

theorem content?_eq_some_iff :
    content? operand = some content ↔ operand = '"' :: (content ++ ['"']) := by
  constructor
  · intro h
    obtain ⟨inner, hstart, hend⟩ := Option.bind_eq_some_iff.mp h
    obtain ⟨reversed, hreversed, rfl⟩ := Option.map_eq_some_iff.mp hend
    have hinner : inner.reverse = '"' :: reversed := Text.stripStart_eq_some_iff.mp hreversed
    rw [Text.stripStart_eq_some_iff.mp hstart, List.singleton_append, ← List.reverse_cons,
      ← hinner, List.reverse_reverse]
  · rintro rfl
    exact content?_quoted content

/-- A constant is decoded exactly if it is a quoted sequence of spellings, and then into the values
of the spellings in their order. -/
theorem decode_follows_spelling (operand : Text) (bytes : Bytes) :
    decode operand = .ok bytes ↔
      ∃ units, WellSpelled units ∧ operand = '"' :: (spelled units ++ ['"']) ∧
        bytes.map UInt8.toNat = units.map Spelling.value := by
  constructor
  · intro h
    cases hcontent : content? operand with
    | none => simp [decode, hcontent] at h
    | some content =>
        simp only [decode, hcontent] at h
        obtain ⟨units, hunits, rfl, hvalues⟩ := decodeContent_eq_ok_iff.mp h
        exact ⟨units, hunits, content?_eq_some_iff.mp hcontent, hvalues⟩
  · rintro ⟨units, hunits, rfl, hvalues⟩
    simp only [decode, content?_quoted]
    exact decodeContent_eq_ok_iff.mpr ⟨units, hunits, rfl, hvalues⟩

/-- Zeros in front, an unescaped quote, and a numeral that ends before a letter. -/
example : (decode "\"\\00001\"\\101b\"").toOption = some [1, 34, 65, 98] := by decide +kernel

end Bytelink.Constant
