import ByteMachine.Machine.Run

/-!
# What the loader accepts

An image is too large, or it has no tag, or it is loaded: these are the three cases, and the size is
looked at first. Of an image that is loaded, the memory has the bytes behind the tag and then zeros. Zeros
at the end of an image therefore make no difference (`EqualUpToZeros`), neither to the memory
(`memoryOf_eq_iff`) nor to anything that a run of the image answers.

Main statement: `load_exact`.
-/

namespace ByteMachine

/-- The byte strings are the same, but for zeros at the end. -/
def EqualUpToZeros (a b : List UInt8) : Prop :=
  ∃ m n, a ++ List.replicate m 0 = b ++ List.replicate n 0

theorem getD_append_zeros (a : List UInt8) (m k : Nat) :
    (a ++ List.replicate m 0)[k]?.getD 0 = a[k]?.getD 0 := by
  rcases Nat.lt_or_ge k a.length with hk | hk
  · rw [List.getElem?_append_left hk]
  · rw [List.getElem?_append_right hk, List.getElem?_eq_none hk, List.getElem?_replicate]
    split
    · rfl
    · rfl

/-- Byte strings are the same but for zeros at the end if they are read as the same bytes, where zeros are
read behind the end. -/
theorem equalUpToZeros_iff {a b : List UInt8} :
    EqualUpToZeros a b ↔ ∀ k : Nat, a[k]?.getD 0 = b[k]?.getD 0 := by
  constructor
  · rintro ⟨m, n, same⟩ k
    rw [← getD_append_zeros a m, same, getD_append_zeros]
  · intro same
    -- both are filled up to the length of the longer one
    refine ⟨b.length - a.length, a.length - b.length, List.ext_getElem ?_ fun k hk hk' => ?_⟩
    · simp only [List.length_append, List.length_replicate]
      omega
    · have cell := same k
      rw [← getD_append_zeros a (b.length - a.length), ← getD_append_zeros b (a.length - b.length),
        List.getElem?_eq_getElem hk, List.getElem?_eq_getElem hk'] at cell
      exact cell

namespace Image

theorem memoryOf_eq_iff {a b : List UInt8} (ha : a.length ≤ memorySize) (hb : b.length ≤ memorySize) :
    memoryOf a = memoryOf b ↔ EqualUpToZeros a b := by
  rw [equalUpToZeros_iff]
  constructor
  · intro same k
    rcases Nat.lt_or_ge k memorySize with hk | hk
    · rw [← getElem_memoryOf a k hk, same, getElem_memoryOf]
    · rw [List.getElem?_eq_none (Nat.le_trans ha hk), List.getElem?_eq_none (Nat.le_trans hb hk)]
  · intro same
    refine Vector.ext fun k hk => ?_
    rw [getElem_memoryOf, getElem_memoryOf, same]

variable {image : List UInt8} {memory : Memory}

theorem load_eq_unsupported_iff :
    load image = .error .unsupported ↔ image.length ≤ memorySize ∧ ¬tag <+: image := by
  rw [← List.isPrefixOf_iff_prefix, load]
  by_cases large : memorySize < image.length
  · simp [large, Nat.not_le.mpr large]
  · simp [large, Nat.not_lt.mp large]

theorem load_eq_ok_iff :
    load image = .ok memory ↔
      image.length ≤ memorySize ∧ tag <+: image ∧ memoryOf (payload image) = memory := by
  rw [← List.isPrefixOf_iff_prefix, load]
  by_cases large : memorySize < image.length
  · simp [large, Nat.not_le.mpr large]
  · by_cases tagged : tag.isPrefixOf image = true
    · simp [large, tagged, Nat.not_lt.mp large]
    · simp [large, tagged]

theorem memoryOf_payload_eq_iff :
    memoryOf (payload image) = memory ↔
      ∀ (k : Nat) (_ : k < memorySize), memory[k] = image[7 + k]?.getD 0 := by
  have cell (k : Nat) (hk : k < memorySize) : (memoryOf (payload image))[k] = image[7 + k]?.getD 0 := by
    rw [getElem_memoryOf, payload, List.getElem?_drop]
    rfl
  constructor
  · rintro rfl
    exact cell
  · intro cells
    exact Vector.ext fun k hk => (cell k hk).trans (cells k hk).symm

theorem length_payload_le (h : image.length ≤ memorySize) : (payload image).length ≤ memorySize := by
  rw [payload, List.length_drop]
  omega

end Image

namespace Run

theorem step_ofMemory (memory : Memory) (input : Array UInt8) :
    (ofMemory memory input 1).step.2 = .ok ⟨{ State.ofMemory memory with ticks := 1 }, false⟩ := by
  rw [step_of_ready rfl]
  rfl

/-- Runs answer the same on all inputs and budgets if they are of the same memory. -/
theorem results_eq_iff {memory memory' : Memory} :
    memory = memory' ↔ ∀ (input : Array UInt8) (budget : UInt64) (n : Nat),
      ((ofMemory memory input budget).after n).step.2 =
        ((ofMemory memory' input budget).after n).step.2 := by
  constructor
  · rintro rfl input budget n
    rfl
  · intro same
    have first := same #[] 1 0
    rw [after, after, step_ofMemory, step_ofMemory] at first
    exact congrArg (fun snapshot => snapshot.state.memory) (Except.ok.inj first)

end Run

namespace Image

/-- **The loader accepts the images and nothing else.** A byte string that is longer than the memory is
too large, whatever it starts with. Any other is unsupported unless it starts with the tag. If it does, it
is loaded: the cells have the bytes behind the tag, and zeros where there are no more. Two images that are
loaded make the same memory exactly if the bytes behind the tag are the same but for zeros at the end, and
exactly then their runs answer the same, on every input and every budget. -/
theorem load_exact :
    (∀ (image : List UInt8) (n : Nat),
      load image = .error (.tooLarge n) ↔ 4096 < image.length ∧ n = image.length) ∧
    (∀ image : List UInt8,
      load image = .error .unsupported ↔ image.length ≤ 4096 ∧ ¬tag <+: image) ∧
    (∀ (image : List UInt8) (memory : Memory), load image = .ok memory ↔
      image.length ≤ 4096 ∧ tag <+: image ∧
        ∀ (k : Nat) (_ : k < memorySize), memory[k] = image[7 + k]?.getD 0) ∧
    ∀ (image image' : List UInt8) (memory memory' : Memory),
      load image = .ok memory → load image' = .ok memory' →
        (memory = memory' ↔ EqualUpToZeros (image.drop 7) (image'.drop 7)) ∧
        (EqualUpToZeros (image.drop 7) (image'.drop 7) ↔
          ∀ (input : Array UInt8) (budget : UInt64),
            ∃ r r', Run.ofImage image input budget = .ok r ∧ Run.ofImage image' input budget = .ok r' ∧
              ∀ n, (r.after n).step.2 = (r'.after n).step.2) := by
  refine ⟨fun image n => load_eq_tooLarge_iff, fun image => load_eq_unsupported_iff, ?_, ?_⟩
  · intro image memory
    rw [load_eq_ok_iff, memoryOf_payload_eq_iff]
    rfl
  · intro image image' memory memory' hm hm'
    have same : memory = memory' ↔ EqualUpToZeros (image.drop 7) (image'.drop 7) := by
      obtain ⟨fits, -, rfl⟩ := load_eq_ok_iff.mp hm
      obtain ⟨fits', -, rfl⟩ := load_eq_ok_iff.mp hm'
      exact memoryOf_eq_iff (length_payload_le fits) (length_payload_le fits')
    refine ⟨same, ?_⟩
    rw [← same, Run.results_eq_iff]
    constructor
    · intro results input budget
      exact ⟨_, _, Run.ofImage_eq_ok hm input budget, Run.ofImage_eq_ok hm' input budget,
        results input budget⟩
    · intro runs input budget
      obtain ⟨r, r', hr, hr', results⟩ := runs input budget
      obtain rfl := Run.eq_ofMemory hm hr
      obtain rfl := Run.eq_ofMemory hm' hr'
      exact results

/-- Two zeros behind a program of one byte make no difference. -/
theorem load_exact_zeros :
    (∃ memory, load (ofPayload [0x0C]) = .ok memory ∧ load (ofPayload [0x0C, 0, 0]) = .ok memory) ∧
      ∃ r r', Run.ofImage (ofPayload [0x0C]) #[] 9 = .ok r ∧
        Run.ofImage (ofPayload [0x0C, 0, 0]) #[] 9 = .ok r' ∧
          ∀ n, (r.after n).step.2 = (r'.after n).step.2 := by
  have short : load (ofPayload [0x0C]) = .ok (memoryOf [0x0C]) := load_eq_ok (by decide)
  have long : load (ofPayload [0x0C, 0, 0]) = .ok (memoryOf [0x0C, 0, 0]) := load_eq_ok (by decide)
  have zeros : EqualUpToZeros ((ofPayload [0x0C]).drop 7) ((ofPayload [0x0C, 0, 0]).drop 7) :=
    ⟨2, 0, rfl⟩
  obtain ⟨memory, results⟩ := load_exact.2.2.2 _ _ _ _ short long
  have same := memory.mpr zeros
  rw [← same] at long
  exact ⟨⟨_, short, long⟩, results.mp zeros #[] 9⟩

end Image

end ByteMachine
