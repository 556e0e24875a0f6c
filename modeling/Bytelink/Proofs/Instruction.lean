import Bytelink.Data.Marker

/-!
# The text of an instruction

An instruction that pushes a constant is an opcode, a space and a decimal numeral. It begins with a
letter of its own, ends with a digit and consists of few characters, which is all that is needed to
see that nothing around it can run together with it.
-/
namespace Bytelink

theorem pushConstant_eq (value : Nat) : ∃ opcode ∈ (["sipush ", "ldc "] : List Text),
    pushConstant value = opcode ++ Text.decimal value := by
  unfold pushConstant
  split
  · exact ⟨"sipush ", by simp, rfl⟩
  · exact ⟨"ldc ", by simp, rfl⟩

theorem isDigit_of_mem_decimal {value : Nat} {c : Char} (h : c ∈ Text.decimal value) :
    c.isDigit = true :=
  Nat.isDigit_of_mem_toDigits (by decide) (by decide) h

theorem not_mem_pushConstant {c : Char} (hs : c ∉ ("sipush " : Text)) (hl : c ∉ ("ldc " : Text))
    (hdigit : c.isDigit = false) (value : Nat) : c ∉ pushConstant value := by
  obtain ⟨opcode, hopcode, heq⟩ := pushConstant_eq value
  rw [heq, List.mem_append, not_or]
  constructor
  · simp only [List.mem_cons, List.not_mem_nil, or_false] at hopcode
    rcases hopcode with rfl | rfl
    · exact hs
    · exact hl
  · intro hc
    rw [isDigit_of_mem_decimal hc] at hdigit
    exact Bool.false_ne_true hdigit.symm

theorem pushConstant_head (value : Nat) :
    ∃ c rest, pushConstant value = c :: rest ∧ (c = 's' ∨ c = 'l') := by
  obtain ⟨opcode, hopcode, heq⟩ := pushConstant_eq value
  simp only [List.mem_cons, List.not_mem_nil, or_false] at hopcode
  rcases hopcode with rfl | rfl
  · exact ⟨'s', _, heq, Or.inl rfl⟩
  · exact ⟨'l', _, heq, Or.inr rfl⟩

theorem isDigit_of_pushConstant_concat {value : Nat} {front : Text} {c : Char}
    (h : pushConstant value = front ++ [c]) : c.isDigit = true := by
  obtain ⟨opcode, -, heq⟩ := pushConstant_eq value
  rcases List.eq_nil_or_concat (Text.decimal value) with hnil | ⟨init, last, hlast⟩
  · exact absurd hnil Nat.toDigits_ne_nil
  · have hsplit : front ++ [c] = (opcode ++ init) ++ [last] := by
      rw [← h, heq, hlast, List.concat_eq_append, List.append_assoc]
    obtain rfl : c = last := by simpa using (List.append_inj' hsplit rfl).2
    have hmem : c ∈ Text.decimal value := by simp [hlast]
    exact isDigit_of_mem_decimal hmem

theorem space_mem_pushConstant (value : Nat) : ' ' ∈ pushConstant value := by
  obtain ⟨opcode, hopcode, heq⟩ := pushConstant_eq value
  rw [heq, List.mem_append]
  left
  simp only [List.mem_cons, List.not_mem_nil, or_false] at hopcode
  rcases hopcode with rfl | rfl <;> decide

end Bytelink
