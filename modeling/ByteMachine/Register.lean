import ByteMachine.Text.Numeral

/-!
# Registers

The machine has sixteen registers of eight bits, written `r0` to `r15`. Registers `r0` and `r1` hold
the low byte and the high nibble of the pointer for loads and stores.

A register is read from the letter `r` and a decimal index below sixteen, with leading zeros allowed,
however many: the index is compared as a number without a bound.

Main statements: `ofName?_name`, `ofName?_eq_some_iff`.
-/

namespace ByteMachine

/-- One of the sixteen registers, by its index. -/
abbrev Register := Fin 16

namespace Register

/-- The low byte of the pointer. -/
def pointerLow : Register := 0

/-- The high nibble of the pointer. -/
def pointerHigh : Register := 1

/-- The register that the low four bits of a byte select. -/
def ofNibble (b : UInt8) : Register := ⟨b.toNat % 16, Nat.mod_lt _ (by decide)⟩

/-- The register with the given index, and `r0` when there is none. -/
def ofIndex (n : Nat) : Register := if h : n < 16 then ⟨n, h⟩ else 0

/-- The index as a byte. -/
def toByte (r : Register) : UInt8 := UInt8.ofNat r.val

theorem ofNibble_eq_iff {b : UInt8} {r : Register} : ofNibble b = r ↔ r.val = b.toNat % 16 := by
  rw [Fin.ext_iff, ofNibble, eq_comm]

theorem ofNibble_toByte (r : Register) : ofNibble r.toByte = r := by
  revert r
  decide

/-- The letter `r` and the index. -/
def name (r : Register) : String := "r" ++ Text.decimal r.val

/-- The register of a name: the letter `r` and a decimal index below sixteen. -/
def ofName? (s : String) : Option Register :=
  match s.toList with
  | 'r' :: ds => (Text.read? 10 ds).bind fun n => if h : n < 16 then some ⟨n, h⟩ else none
  | _ => none

theorem ofName?_name (r : Register) : ofName? r.name = some r := by
  revert r
  decide +kernel

/-- A name is `r` and a number, which is the index. -/
theorem ofName?_eq_some_iff {s : String} {r : Register} :
    ofName? s = some r ↔ ∃ ds, s.toList = 'r' :: ds ∧ Text.read? 10 ds = some r.val := by
  unfold ofName?
  split
  · rename_i ds hds
    simp only [hds, List.cons.injEq, true_and, Option.bind_eq_some_iff]
    constructor
    · rintro ⟨n, hn, h⟩
      split at h
      · obtain rfl := Option.some.inj h
        exact ⟨ds, rfl, hn⟩
      · cases h
    · rintro ⟨ds', rfl, hn⟩
      exact ⟨r.val, hn, dif_pos r.isLt⟩
  · rename_i hno
    constructor
    · intro h
      cases h
    · rintro ⟨ds, hds, -⟩
      exact absurd hds (hno ds)

end Register

end ByteMachine
