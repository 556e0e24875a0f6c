import Bytelink.Proofs.Printing
import Bytelink.Proofs.Replacement

/-!
# The seams of an instruction

Substitution puts an instruction in the place of a marker, and later passes look for `symref`, for
`end` and for the placeholder of the class in the result. `Clear` says of such a pattern what makes
the seams safe: it begins nowhere inside an instruction, and of its characters only the first could
be the first of one. So it occurs where it occurs before the instruction or behind it, and nowhere
else (`Clear.occursAt_iff`), and replacing it goes around the instruction
(`Clear.replaceAll_around`).
-/
namespace Bytelink

def Text.OccursAt (pattern t : Text) (place : Nat) : Prop := pattern <+: t.drop place

/-- What is looked for in texts with instructions. -/
def sought : List Text := [markerOpen, markerClose, placeholder]

variable {pattern t front back : Text} {value : Nat}

theorem clear_placeholder : Clear placeholder := by
  refine ⟨?_, by simp [placeholder], by decide⟩
  intro value before after t hsplit hne hprefix
  have hp : 'P' ∉ pushConstant value :=
    not_mem_pushConstant (by decide) (by decide) (by decide) value
  have hmisses : Text.Misses placeholder (pushConstant value) t := Text.misses_of_head_not_mem hp
  exact hmisses before after hsplit hne hprefix

theorem clear_of_sought (h : pattern ∈ sought) : Clear pattern := by
  simp only [sought, List.mem_cons, List.not_mem_nil, or_false] at h
  rcases h with h | h | h
  · exact h ▸ clear_markerOpen
  · exact h ▸ clear_markerClose
  · exact h ▸ clear_placeholder

namespace Clear

/-- An occurrence that begins before an instruction ends before it. -/
theorem prefix_append_iff (hp : Clear pattern) (hne : t ≠ []) (value : Nat) (back : Text) :
    pattern <+: t ++ (pushConstant value ++ back) ↔ pattern <+: t := by
  obtain ⟨d, rest, rfl⟩ := List.exists_cons_of_ne_nil hne
  obtain ⟨e, tail, rfl⟩ := List.exists_cons_of_ne_nil hp.ne_nil
  obtain ⟨c, more, hpush, hc⟩ := pushConstant_head value
  have htail : c ∉ tail := by
    intro hmem
    have hother := hp.tail c hmem
    rcases hc with rfl | rfl
    · exact hother.1 rfl
    · exact hother.2 rfl
  rw [hpush, List.cons_append, List.cons_append, List.cons_prefix_cons, List.cons_prefix_cons,
    Text.prefix_append_cons_iff htail]

theorem occursAt_before (hp : Clear pattern) {place : Nat} (h : place < front.length) (value : Nat)
    (back : Text) : Text.OccursAt pattern (front ++ (pushConstant value ++ back)) place ↔
      Text.OccursAt pattern front place := by
  have hrest : front.drop place ≠ [] := by
    rw [ne_eq, List.drop_eq_nil_iff]
    omega
  rw [Text.OccursAt, List.drop_append_of_le_length (Nat.le_of_lt h), hp.prefix_append_iff hrest]
  rfl

theorem not_occursAt_inside (hp : Clear pattern) {inner : Nat}
    (h : inner < (pushConstant value).length) (front back : Text) : ¬ Text.OccursAt pattern
      (front ++ (pushConstant value ++ back)) (front.length + inner) := by
  have hrest : (pushConstant value).drop inner ≠ [] := by
    rw [ne_eq, List.drop_eq_nil_iff]
    omega
  have hsplit := (List.take_append_drop inner (pushConstant value)).symm
  rw [Text.OccursAt, ← List.drop_drop, List.drop_left,
    List.drop_append_of_le_length (Nat.le_of_lt h)]
  exact hp.outside hsplit hrest

theorem lt_of_occursAt (hp : Clear pattern) {place : Nat} (h : Text.OccursAt pattern t place) :
    place < t.length := by
  by_contra hle
  rw [Text.OccursAt, List.drop_eq_nil_of_le (Nat.le_of_not_lt hle), List.prefix_nil] at h
  exact hp.ne_nil h

/-- A pattern occurs around an instruction where it occurs in front of it and where it occurs behind
it. -/
theorem occursAt_iff (hp : Clear pattern) (front back : Text) (value place : Nat) :
    Text.OccursAt pattern (front ++ (pushConstant value ++ back)) place ↔
      Text.OccursAt pattern front place ∨ ∃ later,
        place = front.length + (pushConstant value).length + later ∧
          Text.OccursAt pattern back later := by
  have hbehind : ∀ later, Text.OccursAt pattern (front ++ (pushConstant value ++ back))
      (front.length + (pushConstant value).length + later) ↔ Text.OccursAt pattern back later := by
    intro later
    rw [Text.OccursAt, ← List.append_assoc, ← List.drop_drop, ← List.length_append, List.drop_left]
    rfl
  constructor
  · intro h
    by_cases hfront : place < front.length
    · exact Or.inl ((hp.occursAt_before hfront value back).mp h)
    · obtain ⟨inner, rfl⟩ := Nat.exists_eq_add_of_le (Nat.le_of_not_lt hfront)
      have hinner : (pushConstant value).length ≤ inner := by
        apply Nat.le_of_not_lt
        intro hlt
        exact hp.not_occursAt_inside hlt front back h
      obtain ⟨later, rfl⟩ := Nat.exists_eq_add_of_le hinner
      rw [← Nat.add_assoc] at h
      exact Or.inr ⟨later, (Nat.add_assoc _ _ _).symm, (hbehind later).mp h⟩
  · intro h
    rcases h with h | ⟨later, rfl, h⟩
    · exact (hp.occursAt_before (hp.lt_of_occursAt h) value back).mpr h
    · exact (hbehind later).mpr h

/-- Whatever a pattern is replaced by, an instruction stays, and what stands before it and behind it
is replaced as if it stood alone. -/
theorem replaceAll_around (hp : Clear pattern) (new front back : Text) (value : Nat) :
    Text.replaceAll pattern new (front ++ (pushConstant value ++ back)) =
      Text.replaceAll pattern new front ++
        (pushConstant value ++ Text.replaceAll pattern new back) := by
  have hmisses : Text.Misses pattern (pushConstant value) back := fun _ _ => hp.outside
  rw [Text.replaceAll_append fun _ _ _ hne => (hp.prefix_append_iff hne value back).mp,
    Text.replaceAll_append_of_misses hmisses]

end Clear

/-- The number behind the opcode of an instruction. -/
def pushedNumber? (t : Text) : Option Nat :=
  Text.natural? ((t.dropWhile (· != ' ')).drop 1)

theorem natural?_decimal (n : Nat) : Text.natural? (Text.decimal n) = some n := by
  have hne : Text.decimal n ≠ [] := Nat.toDigits_ne_nil
  have hall : (Text.decimal n).all Text.isDigit = true := by
    rw [List.all_eq_true]
    intro c hc
    have hsame : Text.isDigit c = c.isDigit := rfl
    rw [hsame, isDigit_of_mem_decimal hc]
  have hvalue : Text.valueIn 10 (Text.decimal n) = n :=
    Text.valueIn_toDigits (by decide) (by decide) n
  simp [Text.natural?, hne, hall, hvalue]

theorem pushedNumber?_pushConstant (value : Nat) :
    pushedNumber? (pushConstant value) = some value := by
  have hnumber : ((pushConstant value).dropWhile (· != ' ')).drop 1 = Text.decimal value := by
    unfold pushConstant
    split
    · simp [List.dropWhile]
    · simp [List.dropWhile]
  rw [pushedNumber?, hnumber, natural?_decimal]

theorem le_immediateLimit_iff : value ≤ immediateLimit ↔ ∃ x : Int16, x.toInt = value := by
  unfold immediateLimit
  constructor
  · intro h
    exact ⟨.ofNat value, Int16.toInt_ofNat_of_lt (by omega)⟩
  · intro h
    obtain ⟨x, hx⟩ := h
    have hlt := x.toInt_lt
    omega

theorem opcode_prefix_iff : ("sipush ".toList <+: pushConstant value ↔ value ≤ immediateLimit) ∧
    ("ldc ".toList <+: pushConstant value ↔ ¬ value ≤ immediateLimit) := by
  by_cases h : value ≤ immediateLimit
  · have hpush : pushConstant value = "sipush ".toList ++ Text.decimal value := by
      rw [pushConstant, if_pos h]
    simp [hpush, h]
  · have hpush : pushConstant value = "ldc ".toList ++ Text.decimal value := by
      rw [pushConstant, if_neg h]
    simp [hpush, h]

/-- An instruction is inert in any surroundings: `symref`, `end` and the placeholder of the class
occur in the whole text where they occur before it and where they occur behind it, so none of them
is completed by it or broken, and replacing them goes around it. Its number is read back from it, so
that two instructions are different, and its opcode is `sipush` for the numbers that fit sixteen
bits with a sign, and else `ldc`. -/
theorem pushConstant_inert :
    (∀ pattern ∈ sought, ∀ (front back : Text) (value : Nat),
      (∀ place, Text.OccursAt pattern (front ++ (pushConstant value ++ back)) place ↔
        Text.OccursAt pattern front place ∨ ∃ later,
          place = front.length + (pushConstant value).length + later ∧
            Text.OccursAt pattern back later) ∧
      ∀ new, Text.replaceAll pattern new (front ++ (pushConstant value ++ back)) =
        Text.replaceAll pattern new front ++
          (pushConstant value ++ Text.replaceAll pattern new back)) ∧
    (∀ value, pushedNumber? (pushConstant value) = some value) ∧
    Function.Injective pushConstant ∧
    ∀ value : Nat, ("sipush ".toList <+: pushConstant value ↔ ∃ x : Int16, x.toInt = value) ∧
      ("ldc ".toList <+: pushConstant value ↔ ¬ ∃ x : Int16, x.toInt = value) := by
  refine ⟨?_, pushedNumber?_pushConstant, ?_, ?_⟩
  · intro pattern hpattern front back value
    have hclear := clear_of_sought hpattern
    exact ⟨hclear.occursAt_iff front back value,
      fun new => hclear.replaceAll_around new front back value⟩
  · intro value other hsame
    have hread := pushedNumber?_pushConstant value
    rw [hsame, pushedNumber?_pushConstant other] at hread
    exact (Option.some.inj hread).symm
  · intro value
    rw [← le_immediateLimit_iff]
    exact opcode_prefix_iff

/-- The halves of a `symref` stay halves when an instruction comes between them, and a placeholder
in front of an instruction is replaced while half a placeholder behind it is not. -/
theorem pushConstant_inert_between_halves :
    (markerOpen ∈ sought ∧ placeholder ∈ sought) ∧
    (∀ value place, ¬ Text.OccursAt markerOpen
      ("sym".toList ++ (pushConstant value ++ "ref".toList)) place) ∧
    ∀ value, Text.replaceAll placeholder "A"
      ("Prog".toList ++ (pushConstant value ++ "og".toList)) =
        "A".toList ++ (pushConstant value ++ "og".toList) := by
  have hopen : markerOpen ∈ sought := by decide
  have hplaceholder : placeholder ∈ sought := by decide
  have hshort : ∀ (t : Text) (place : Nat), t.length < 6 → ¬ Text.OccursAt markerOpen t place := by
    intro t place hlt hoccurs
    have hle := List.IsPrefix.length_le hoccurs
    have hopenLength : markerOpen.length = 6 := rfl
    rw [List.length_drop] at hle
    omega
  refine ⟨⟨hopen, hplaceholder⟩, ?_, ?_⟩
  · intro value place hoccurs
    have hplaces := (pushConstant_inert.1 markerOpen hopen "sym" "ref" value).1 place
    rcases hplaces.mp hoccurs with hfront | ⟨later, -, hback⟩
    · exact hshort _ _ (by decide) hfront
    · exact hshort _ _ (by decide) hback
  · intro value
    exact (pushConstant_inert.1 placeholder hplaceholder "Prog" "og" value).2 "A"

end Bytelink
