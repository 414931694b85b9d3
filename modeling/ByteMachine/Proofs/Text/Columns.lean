import ByteMachine.Proofs.Text.Digits

/-!
# Columns of a width

A text that is filled up to the width of a column can be read off the column again, a word if it holds no
space (`toList_alignLeft_inj`), a number however many digits it has (`toList_hexPadded_inj`): zeros before
a number do not change its value (`read?_replicate_zero_append`).
-/

namespace ByteMachine.Text

theorem eq_of_read {α β : Type} {write : α → β} {read : β → Option α}
    (h : ∀ a, read (write a) = some a) {a b : α} (same : write a = write b) : a = b := by
  have back := h a
  rw [same, h b] at back
  exact (Option.some.inj back).symm

/-! ### Words -/

theorem toList_alignLeft (width : Nat) (s : String) :
    (alignLeft width s).toList = s.toList ++ List.replicate (width - s.toList.length) ' ' := by
  rw [alignLeft, String.toList_ofList, List.rightpad]

theorem length_alignLeft {width : Nat} {s : String} (h : s.toList.length ≤ width) :
    (alignLeft width s).toList.length = width := by
  rw [toList_alignLeft, List.length_append, List.length_replicate, Nat.add_sub_cancel' h]

theorem takeWhile_alignLeft (width : Nat) {s : String} (h : ' ' ∉ s.toList) :
    (alignLeft width s).toList.takeWhile (· != ' ') = s.toList := by
  have word : ∀ c ∈ s.toList, (c != ' ') = true := by
    intro c hc
    exact bne_iff_ne.mpr fun he => h (he ▸ hc)
  rw [toList_alignLeft, List.takeWhile_append_of_pos word, List.takeWhile_replicate]
  simp

theorem toList_alignLeft_inj {width : Nat} {s t : String} (hs : ' ' ∉ s.toList) (ht : ' ' ∉ t.toList)
    (h : (alignLeft width s).toList = (alignLeft width t).toList) : s = t := by
  have word := takeWhile_alignLeft width hs
  rw [h, takeWhile_alignLeft width ht] at word
  exact String.toList_inj.mp word.symm

/-! ### Numbers -/

theorem value_replicate_zero_append (base k : Nat) (ds : List Nat) :
    value base (List.replicate k 0 ++ ds) = value base ds := by
  induction k with
  | zero => rfl
  | succ k ih => simpa [List.replicate_succ, value] using ih

theorem read?_replicate_zero_append (k : Nat) {cs : List Char} {n : Nat} (h : read? 16 cs = some n) :
    read? 16 (List.replicate k '0' ++ cs) = some n := by
  obtain ⟨⟨hne, digits⟩, rfl⟩ := read?_sixteen_eq_some_iff.mp h
  have some_digit : List.replicate k '0' ++ cs ≠ [] := List.append_ne_nil_of_right_ne_nil _ hne
  refine read?_sixteen_eq_some_iff.mpr ⟨⟨some_digit, fun c hc => ?_⟩, ?_⟩
  · rcases List.mem_append.mp hc with hc | hc
    · rw [List.eq_of_mem_replicate hc]
      decide
    · exact digits c hc
  · have zero : digitValue '0' = 0 := by decide
    rw [List.map_append, List.map_replicate, zero, value_replicate_zero_append]

theorem read?_hexPadded (width n : Nat) : read? 16 (hexPadded width n).toList = some n := by
  rw [hexPadded, alignRight, hex, String.toList_ofList, String.toList_ofList, List.leftpad]
  exact read?_replicate_zero_append _ (read?_numeral (by decide) (by decide) n)

theorem toList_hexPadded_inj {width m n : Nat}
    (h : (hexPadded width m).toList = (hexPadded width n).toList) : m = n :=
  eq_of_read (read?_hexPadded width) h

end ByteMachine.Text
