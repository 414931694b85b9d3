import ByteMachine.Proofs.Source.Literal
import ByteMachine.Proofs.Traversal

/-!
# The values of operands

When an operand is a byte, a register or an address, and which one: one statement for each form.

* `register_eq_ok_iff`, `byte_eq_ok_iff`, `address_eq_ok_iff`.

A text in the form of a number is an address only by its value, and any other text only by the table of
labels; in both cases the value is at most the largest address.
-/

namespace ByteMachine.Source

theorem register_eq_ok_iff {token : String} {r : Register} :
    register token = .ok r ↔ Register.ofName? token = some r := by
  unfold register
  split
  · simp [*]
  · simp [*]

theorem byte_eq_ok_iff {token : String} {b : UInt8} :
    byte token = .ok b ↔ ∃ n, numeral? token.toList = some n ∧ n ≤ 0xFF ∧ b = UInt8.ofNat n := by
  unfold byte
  rw [bind_eq_ok_iff]
  constructor
  · rintro ⟨value, hn, h⟩
    cases value with
    | none => cases h
    | some n =>
      obtain ⟨hv, hle⟩ := number_eq_ok_some_iff.mp hn
      exact ⟨n, hv, hle, (Except.ok.inj h).symm⟩
  · rintro ⟨n, hv, hle, rfl⟩
    exact ⟨some n, number_eq_ok_some_iff.mpr ⟨hv, hle⟩, rfl⟩

theorem address_eq_ok_iff {token : String} {labels : Labels} {a : UInt16} :
    address token labels = .ok a ↔
      ∃ n, (numeral? token.toList = some n ∨
          numeral? token.toList = none ∧ labels.address? token = some n) ∧
        n ≤ addressMax.toNat ∧ a = UInt16.ofNat n := by
  unfold address
  rw [bind_eq_ok_iff]
  constructor
  · rintro ⟨value, hn, h⟩
    cases value with
    | some n =>
      obtain ⟨hv, hle⟩ := number_eq_ok_some_iff.mp hn
      exact ⟨n, .inl hv, hle, (Except.ok.inj h).symm⟩
    | none =>
      have noNumber := number_eq_ok_none_iff.mp hn
      dsimp only at h
      split at h
      · cases h
      · rename_i n hl
        split at h
        · rename_i hle
          exact ⟨n, .inr ⟨noNumber, hl⟩, hle, (Except.ok.inj h).symm⟩
        · cases h
  · rintro ⟨n, hv | ⟨noNumber, hl⟩, hle, rfl⟩
    · exact ⟨some n, number_eq_ok_some_iff.mpr ⟨hv, hle⟩, rfl⟩
    · refine ⟨none, number_eq_ok_none_iff.mpr noNumber, ?_⟩
      dsimp only
      rw [hl]
      exact if_pos hle

end ByteMachine.Source
