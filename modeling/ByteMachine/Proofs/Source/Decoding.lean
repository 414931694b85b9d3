import ByteMachine.Proofs.Instruction.RoundTrip
import ByteMachine.Proofs.Source.Arguments

/-!
# Encoded lines are decoded

The encoder goes from the word of a line to an instruction and packs it; the decoder starts from the
packed word. They meet in the same instruction (`decode_of_encode`): the readers of operands let no
number pass that the word has no room for (`address_le_of_areRead`), so nothing is cut off.
-/

namespace ByteMachine.Source

theorem address_le {labels : Labels} {token : String} {a : UInt16} (h : address token labels = .ok a) :
    a.toNat ≤ addressMax.toNat := by
  obtain ⟨n, -, hle, rfl⟩ := address_eq_ok_iff.mp h
  rwa [UInt16.toNat_ofNat_of_lt' (Nat.lt_of_le_of_lt hle (by decide))]

theorem address_le_of_areRead {labels : Labels} {args : List String} {i : Instruction} {a : UInt16}
    (h : AreRead labels i.mnemonic.signature args i.operands) (ha : i.address? = some a) :
    a.toNat ≤ addressMax.toNat := by
  cases i with
  | locate b | jump b | jumpIf b | call b =>
    obtain ⟨token, rest, -, read, -⟩ := areRead_cons_iff.mp h
    obtain ⟨c, hc, same⟩ := isRead_address_iff.mp read
    obtain rfl := Option.some.inj ha
    rw [same]
    exact address_le hc
  | _ => cases ha

/-- **What is encoded is decoded**: the two bytes of a line that is no data hold the instruction that has
the word of the line as its mnemonic, and the values of the line's arguments as its operands. -/
theorem decode_of_encode {labels : Labels} {t : Statement} {bytes : List UInt8} (hd : t.op ≠ ".DATA")
    (h : encode labels t = .ok bytes) :
    ∃ low high i, bytes = [low, high] ∧ Instruction.ofWord? (Word.ofBytes low high) = some i ∧
      i.mnemonic.name = t.op ∧ i.toBytes = bytes ∧
      AreRead labels i.mnemonic.signature t.args i.operands := by
  have directive : t.op.toList ≠ dataDirective := fun he => hd (String.toList_inj.mp he)
  obtain ⟨i, hname, read, rfl⟩ := (encode_eq_ok_iff directive).mp h
  refine ⟨i.toWord.toUInt8, (i.toWord >>> 8).toUInt8, i, i.toBytes_eq, ?_, hname, rfl, read⟩
  rw [Word.ofBytes_toBytes]
  exact Instruction.ofWord?_toWord_of_le fun a ha => address_le_of_areRead read ha

/-- A jump to the last cell, which a label names. -/
theorem decode_of_encode_last :
    encode [("end", 0xFFF)] ⟨"BHOPP", ["end"]⟩ = .ok [0xF9, 0xFF] ∧
      ∃ i : Instruction, Instruction.ofWord? 0xFFF9 = some i ∧ i.mnemonic.name = "BHOPP" ∧
        AreRead [("end", 0xFFF)] i.mnemonic.signature ["end"] i.operands := by
  have h : encode [("end", 0xFFF)] ⟨"BHOPP", ["end"]⟩ = .ok [0xF9, 0xFF] := by decide +kernel
  obtain ⟨low, high, i, bytes, word, name, -, read⟩ := decode_of_encode (by decide) h
  obtain ⟨rfl, rfl⟩ : 0xF9 = low ∧ 0xFF = high := by simpa using bytes
  exact ⟨h, i, word, name, read⟩

end ByteMachine.Source
