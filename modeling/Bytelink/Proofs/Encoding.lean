import Bytelink.Text.Utf8

/-!
# Encoded texts

Encoding and decoding are inverse (`decode?_encode`), and the order of texts by characters is the
order of their encodings by bytes (`encode_lt_of_le`). Both come down to single characters: a
character goes through the decoder byte by byte and leaves no trace but itself, and of two
characters the greater has the greater byte where their encodings differ first.
-/
namespace Bytelink.Utf8

theorem toNat_ofNat_of_lt {n : Nat} (h : n < 256) : (UInt8.ofNat n).toNat = n := by
  rw [UInt8.toNat_ofNat']
  exact Nat.mod_eq_of_lt h

theorem ofNat_lt_iff {n : Nat} (h : n < 256) (b : UInt8) : UInt8.ofNat n < b ↔ n < b.toNat := by
  rw [UInt8.lt_iff_toNat_lt, toNat_ofNat_of_lt h]

theorem ofNat_le_iff {n : Nat} (h : n < 256) (b : UInt8) : UInt8.ofNat n ≤ b ↔ n ≤ b.toNat := by
  rw [UInt8.le_iff_toNat_le, toNat_ofNat_of_lt h]

theorem le_ofNat_iff {n : Nat} (h : n < 256) (b : UInt8) : b ≤ UInt8.ofNat n ↔ b.toNat ≤ n := by
  rw [UInt8.le_iff_toNat_le, toNat_ofNat_of_lt h]

namespace Decoder

variable {ps : List (Option Char)} {begun : Begun} {n : Nat}

theorem first_ascii (h : n < 0x80) :
    first ps (UInt8.ofNat n) = ⟨none, some (Char.ofNat n) :: ps⟩ := by
  have hlt : UInt8.ofNat n < 0x80 := (ofNat_lt_iff (by omega) _).mpr h
  rw [first, if_pos hlt, toNat_ofNat_of_lt (by omega)]

theorem first_begins (hlow : 0x80 ≤ n) (hhigh : n < 256)
    (h : begin? (UInt8.ofNat n) = some begun) : first ps (UInt8.ofNat n) = ⟨some begun, ps⟩ := by
  have hlt : ¬ UInt8.ofNat n < 0x80 := by
    rw [ofNat_lt_iff hhigh]
    exact Nat.not_lt.mpr hlow
  rw [first, if_neg hlt, h]

/-- A byte from the expected range that is not the last one of its character. -/
theorem feed_more (hn : n < 256) (hlow : begun.low.toNat ≤ n) (hhigh : n ≤ begun.high.toNat)
    (hmissing : 1 < begun.missing) : feed ⟨some begun, ps⟩ (UInt8.ofNat n) =
      ⟨some ⟨begun.missing - 1, 0x80, 0xBF, begun.value * 0x40 + n % 0x40⟩, ps⟩ := by
  have hrange : begun.low ≤ UInt8.ofNat n ∧ UInt8.ofNat n ≤ begun.high :=
    ⟨(le_ofNat_iff hn _).mpr hlow, (ofNat_le_iff hn _).mpr hhigh⟩
  simp only [feed, hrange, and_self, if_true, Nat.not_le.mpr hmissing, if_false,
    toNat_ofNat_of_lt hn]

theorem feed_last (hn : n < 256) (hlow : begun.low.toNat ≤ n) (hhigh : n ≤ begun.high.toNat)
    (hmissing : begun.missing = 1) : feed ⟨some begun, ps⟩ (UInt8.ofNat n) =
      ⟨none, some (Char.ofNat (begun.value * 0x40 + n % 0x40)) :: ps⟩ := by
  have hrange : begun.low ≤ UInt8.ofNat n ∧ UInt8.ofNat n ≤ begun.high :=
    ⟨(le_ofNat_iff hn _).mpr hlow, (ofNat_le_iff hn _).mpr hhigh⟩
  simp only [feed, hrange, and_self, if_true, hmissing, Nat.le_refl, toNat_ofNat_of_lt hn]

theorem feed_tail_more (n value missing : Nat) (h : 1 < missing) :
    feed ⟨some ⟨missing, 0x80, 0xBF, value⟩, ps⟩ (UInt8.ofNat (n % 64 + 128)) =
      ⟨some ⟨missing - 1, 0x80, 0xBF, value * 0x40 + (n % 64 + 128) % 0x40⟩, ps⟩ := by
  have hlow : (0x80 : UInt8).toNat = 128 := rfl
  have hhigh : (0xBF : UInt8).toNat = 191 := rfl
  exact feed_more (by omega) (by simp only [hlow]; omega) (by simp only [hhigh]; omega) h

theorem feed_tail_last (n value : Nat) :
    feed ⟨some ⟨1, 0x80, 0xBF, value⟩, ps⟩ (UInt8.ofNat (n % 64 + 128)) =
      ⟨none, some (Char.ofNat (value * 0x40 + (n % 64 + 128) % 0x40)) :: ps⟩ := by
  have hlow : (0x80 : UInt8).toNat = 128 := rfl
  have hhigh : (0xBF : UInt8).toNat = 191 := rfl
  exact feed_last (by omega) (by simp only [hlow]; omega) (by simp only [hhigh]; omega) rfl

theorem begin?_two (hlow : 0xC2 ≤ n) (hhigh : n ≤ 0xDF) :
    begin? (UInt8.ofNat n) = some ⟨1, 0x80, 0xBF, n % 0x20⟩ := by
  simp only [begin?, toNat_ofNat_of_lt (show n < 256 by omega), hlow, hhigh, and_self, if_true]

theorem begin?_three (hlow : 0xE0 ≤ n) (hhigh : n ≤ 0xEF) : begin? (UInt8.ofNat n) =
    some ⟨2, if n = 0xE0 then 0xA0 else 0x80, if n = 0xED then 0x9F else 0xBF, n % 0x10⟩ := by
  have htwo : ¬ (0xC2 ≤ n ∧ n ≤ 0xDF) := by omega
  simp only [begin?, toNat_ofNat_of_lt (show n < 256 by omega), htwo, if_false, hlow, hhigh,
    and_self, if_true]

theorem begin?_four (hlow : 0xF0 ≤ n) (hhigh : n ≤ 0xF4) : begin? (UInt8.ofNat n) =
    some ⟨3, if n = 0xF0 then 0x90 else 0x80, if n = 0xF4 then 0x8F else 0xBF, n % 0x08⟩ := by
  have htwo : ¬ (0xC2 ≤ n ∧ n ≤ 0xDF) := by omega
  have hthree : ¬ (0xE0 ≤ n ∧ n ≤ 0xEF) := by omega
  simp only [begin?, toNat_ofNat_of_lt (show n < 256 by omega), htwo, hthree, if_false, hlow,
    hhigh, and_self, if_true]

end Decoder

theorem toNat_valid (c : Char) :
    c.val.toNat < 0xD800 ∨ 0xDFFF < c.val.toNat ∧ c.val.toNat < 0x110000 := c.valid

section

variable {c : Char} {v : Nat} {ps : List (Option Char)}

theorem foldl_feed_two (hlow : 0x80 ≤ v) (hhigh : v < 0x800) (hc : Char.ofNat v = c) :
    [UInt8.ofNat (v / 64 % 32 + 192), UInt8.ofNat (v % 64 + 128)].foldl Decoder.feed ⟨none, ps⟩ =
      ⟨none, some c :: ps⟩ := by
  have hone : Decoder.feed ⟨none, ps⟩ (UInt8.ofNat (v / 64 % 32 + 192)) =
      ⟨some ⟨1, 0x80, 0xBF, (v / 64 % 32 + 192) % 0x20⟩, ps⟩ :=
    Decoder.first_begins (by omega) (by omega) (Decoder.begin?_two (by omega) (by omega))
  have hvalue : (v / 64 % 32 + 192) % 0x20 * 0x40 + (v % 64 + 128) % 0x40 = v := by omega
  simp only [List.foldl_cons, List.foldl_nil, hone, Decoder.feed_tail_last, hvalue, hc]

/-- Behind the least first byte the second one keeps the encoding from being too long, and behind
the byte `0xED` it keeps the surrogates out. -/
theorem foldl_feed_three (hlow : 0x800 ≤ v) (hhigh : v < 0x10000)
    (hvalid : v < 0xD800 ∨ 0xDFFF < v) (hc : Char.ofNat v = c) :
    [UInt8.ofNat (v / 4096 % 16 + 224), UInt8.ofNat (v / 64 % 64 + 128),
      UInt8.ofNat (v % 64 + 128)].foldl Decoder.feed ⟨none, ps⟩ = ⟨none, some c :: ps⟩ := by
  have hbegin := Decoder.begin?_three (n := v / 4096 % 16 + 224) (by omega) (by omega)
  have hleast : (if v / 4096 % 16 + 224 = 0xE0 then 0xA0 else 0x80 : UInt8).toNat ≤
      v / 64 % 64 + 128 := by
    rw [apply_ite UInt8.toNat, UInt8.toNat_ofNat, UInt8.toNat_ofNat]
    split <;> omega
  have hgreatest : v / 64 % 64 + 128 ≤
      (if v / 4096 % 16 + 224 = 0xED then 0x9F else 0xBF : UInt8).toNat := by
    rw [apply_ite UInt8.toNat, UInt8.toNat_ofNat, UInt8.toNat_ofNat]
    split <;> omega
  generalize (if v / 4096 % 16 + 224 = 0xE0 then 0xA0 else 0x80 : UInt8) = least at *
  generalize (if v / 4096 % 16 + 224 = 0xED then 0x9F else 0xBF : UInt8) = greatest at *
  have hone : Decoder.first ps _ = _ := Decoder.first_begins (by omega) (by omega) hbegin
  have htwo : Decoder.feed ⟨some ⟨2, least, greatest, (v / 4096 % 16 + 224) % 0x10⟩, ps⟩
      (UInt8.ofNat (v / 64 % 64 + 128)) = ⟨some ⟨1, 0x80, 0xBF,
        (v / 4096 % 16 + 224) % 0x10 * 0x40 + (v / 64 % 64 + 128) % 0x40⟩, ps⟩ :=
    Decoder.feed_more (by omega) hleast hgreatest Nat.one_lt_two
  have hvalue : ((v / 4096 % 16 + 224) % 0x10 * 0x40 + (v / 64 % 64 + 128) % 0x40) * 0x40 +
      (v % 64 + 128) % 0x40 = v := by omega
  rw [List.foldl_cons, Decoder.feed, hone, List.foldl_cons, htwo, List.foldl_cons,
    Decoder.feed_tail_last, List.foldl_nil, hvalue, hc]

/-- The second byte keeps the encoding from being too long and the number in range. -/
theorem foldl_feed_four (hlow : 0x10000 ≤ v) (hhigh : v < 0x110000) (hc : Char.ofNat v = c) :
    [UInt8.ofNat (v / 262144 % 8 + 240), UInt8.ofNat (v / 4096 % 64 + 128),
      UInt8.ofNat (v / 64 % 64 + 128), UInt8.ofNat (v % 64 + 128)].foldl Decoder.feed ⟨none, ps⟩ =
      ⟨none, some c :: ps⟩ := by
  have hbegin := Decoder.begin?_four (n := v / 262144 % 8 + 240) (by omega) (by omega)
  have hleast : (if v / 262144 % 8 + 240 = 0xF0 then 0x90 else 0x80 : UInt8).toNat ≤
      v / 4096 % 64 + 128 := by
    rw [apply_ite UInt8.toNat, UInt8.toNat_ofNat, UInt8.toNat_ofNat]
    split <;> omega
  have hgreatest : v / 4096 % 64 + 128 ≤
      (if v / 262144 % 8 + 240 = 0xF4 then 0x8F else 0xBF : UInt8).toNat := by
    rw [apply_ite UInt8.toNat, UInt8.toNat_ofNat, UInt8.toNat_ofNat]
    split <;> omega
  generalize (if v / 262144 % 8 + 240 = 0xF0 then 0x90 else 0x80 : UInt8) = least at *
  generalize (if v / 262144 % 8 + 240 = 0xF4 then 0x8F else 0xBF : UInt8) = greatest at *
  have hone : Decoder.first ps _ = _ := Decoder.first_begins (by omega) (by omega) hbegin
  have htwo : Decoder.feed ⟨some ⟨3, least, greatest, (v / 262144 % 8 + 240) % 0x08⟩, ps⟩
      (UInt8.ofNat (v / 4096 % 64 + 128)) = ⟨some ⟨2, 0x80, 0xBF,
        (v / 262144 % 8 + 240) % 0x08 * 0x40 + (v / 4096 % 64 + 128) % 0x40⟩, ps⟩ :=
    Decoder.feed_more (by omega) hleast hgreatest (show 1 < 3 by decide)
  have hvalue : (((v / 262144 % 8 + 240) % 0x08 * 0x40 + (v / 4096 % 64 + 128) % 0x40) * 0x40
      + (v / 64 % 64 + 128) % 0x40) * 0x40 + (v % 64 + 128) % 0x40 = v := by omega
  rw [List.foldl_cons, Decoder.feed, hone, List.foldl_cons, htwo, List.foldl_cons,
    Decoder.feed_tail_more _ _ 2 Nat.one_lt_two, List.foldl_cons, Decoder.feed_tail_last,
    List.foldl_nil, hvalue, hc]

end

theorem foldl_feed_encodeChar (c : Char) (ps : List (Option Char)) :
    (String.utf8EncodeChar c).foldl Decoder.feed ⟨none, ps⟩ = ⟨none, some c :: ps⟩ := by
  have hvalid := toNat_valid c
  have hself : Char.ofNat c.val.toNat = c := Char.ofNat_toNat c
  unfold String.utf8EncodeChar
  generalize c.val.toNat = v at hvalid hself
  simp only
  split
  · rw [List.foldl_cons, Decoder.feed, Decoder.first_ascii (by omega), List.foldl_nil, hself]
  · split
    · exact foldl_feed_two (by omega) (by omega) hself
    · split
      · exact foldl_feed_three (by omega) (by omega) (by omega) hself
      · exact foldl_feed_four (by omega) (by omega) hself

theorem foldl_feed_encode (t : Text) (ps : List (Option Char)) :
    (encode t).foldl Decoder.feed ⟨none, ps⟩ = ⟨none, (t.map some).reverse ++ ps⟩ := by
  induction t generalizing ps with
  | nil => rfl
  | cons c rest ih =>
      have hcons : encode (c :: rest) = String.utf8EncodeChar c ++ encode rest := rfl
      rw [hcons, List.foldl_append, foldl_feed_encodeChar, ih]
      simp

/-- An encoded text is read back. -/
theorem decode?_encode (t : Text) : decode? (encode t) = some t := by
  have hpieces : pieces (encode t) = t.map some := by
    rw [pieces, Decoder.start, foldl_feed_encode]
    simp [Decoder.finish]
  have hmap : (t.map some).map (·.getD replacement) = t := by
    rw [List.map_map]
    exact List.map_id t
  simp [decode?, hpieces, hmap]

theorem digits (v : Nat) :
    v = v / 262144 * 262144 + v / 4096 % 64 * 4096 + v / 64 % 64 * 64 + v % 64 := by
  have hone := Nat.div_add_mod v 64
  have htwo := Nat.div_add_mod (v / 64) 64
  have hthree := Nat.div_add_mod (v / 4096) 64
  rw [Nat.div_div_eq_div_mul] at htwo hthree
  omega

/-- Of two numbers the greater has the greater digit where they differ first. -/
theorem digits_lt {v w : Nat} (h : v < w) : v / 262144 < w / 262144 ∨
    v / 262144 = w / 262144 ∧ (v / 4096 % 64 < w / 4096 % 64 ∨
      v / 4096 % 64 = w / 4096 % 64 ∧ (v / 64 % 64 < w / 64 % 64 ∨
        v / 64 % 64 = w / 64 % 64 ∧ v % 64 < w % 64)) := by
  have hdigit (n : Nat) : n % 64 < 64 := Nat.mod_lt n (by decide)
  have hv := digits v
  have hw := digits w
  have := hdigit (v / 4096)
  have := hdigit (v / 64)
  have := hdigit v
  have := hdigit (w / 4096)
  have := hdigit (w / 64)
  have := hdigit w
  generalize v / 262144 = v₃ at *
  generalize v / 4096 % 64 = v₂ at *
  generalize v / 64 % 64 = v₁ at *
  generalize v % 64 = v₀ at *
  generalize w / 262144 = w₃ at *
  generalize w / 4096 % 64 = w₂ at *
  generalize w / 64 % 64 = w₁ at *
  generalize w % 64 = w₀ at *
  omega

theorem encodeChar_append_lt {a b : Char} (h : a < b) (s t : Bytes) :
    String.utf8EncodeChar a ++ s < String.utf8EncodeChar b ++ t := by
  have hlt : a.val.toNat < b.val.toNat := h
  have ha := toNat_valid a
  have hb := toNat_valid b
  unfold String.utf8EncodeChar
  generalize a.val.toNat = v at hlt ha
  generalize b.val.toNat = w at hlt hb
  have hdigits := digits_lt hlt
  have hv : v / 262144 % 8 = v / 262144 := Nat.mod_eq_of_lt (by omega)
  have hw : w / 262144 % 8 = w / 262144 := Nat.mod_eq_of_lt (by omega)
  simp only
  -- Encodings of different lengths differ in the first byte, others where their digits do.
  split <;> split <;> (try split) <;> (try split) <;> (try split) <;> (try split) <;>
    simp (disch := omega) only [List.cons_append, List.nil_append, List.cons_lt_cons_iff,
      UInt8.lt_iff_toNat_lt, ← UInt8.toNat_inj, toNat_ofNat_of_lt] <;> omega

theorem append_lt_append (front : Bytes) {s t : Bytes} (h : s < t) : front ++ s < front ++ t := by
  induction front with
  | nil => exact h
  | cons b front ih => exact List.cons_lt_cons_iff.mpr (Or.inr ⟨rfl, ih⟩)

theorem encode_cons (c : Char) (t : Text) :
    encode (c :: t) = String.utf8EncodeChar c ++ encode t := rfl

theorem encodeChar_ne_nil (c : Char) : String.utf8EncodeChar c ≠ [] := by
  unfold String.utf8EncodeChar
  simp only
  split
  · exact List.cons_ne_nil _ _
  · split
    · exact List.cons_ne_nil _ _
    · split <;> exact List.cons_ne_nil _ _

/-- The order of texts is the order of their bytes. -/
theorem encode_lt_of_le {s t : Text} (h : Text.le s t = true) (hne : s ≠ t) :
    encode s < encode t := by
  induction s generalizing t with
  | nil =>
      obtain ⟨c, rest, rfl⟩ := List.exists_cons_of_ne_nil (Ne.symm hne)
      obtain ⟨byte, more, hbytes⟩ := List.exists_cons_of_ne_nil (encodeChar_ne_nil c)
      rw [encode_cons, hbytes]
      exact List.nil_lt_cons byte _
  | cons a s ih =>
      cases t with
      | nil => exact absurd h (by simp [Text.le])
      | cons b t =>
          rw [encode_cons, encode_cons]
          by_cases hab : a = b
          · subst hab
            have hrest : Text.le s t = true := by simpa [Text.le] using h
            exact append_lt_append _ (ih hrest fun hst => hne (hst ▸ rfl))
          · have hlt : a < b := by simpa [Text.le, hab] using h
            exact encodeChar_append_lt hlt _ _

end Bytelink.Utf8
