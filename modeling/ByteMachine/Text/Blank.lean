/-!
# Blank characters

The characters with the Unicode property White_Space: the ASCII blanks, the next-line control, and
the spaces and separators of the general-punctuation and ideographic blocks. `trim` cuts them from
both ends of a text and `squeeze` deletes them everywhere.

Main statements: `isBlank_of_isWhitespace` (the class holds the blanks of ASCII), `trim_eq_nil_iff`
(only an all-blank text trims to nothing), `squeeze_eq_self` and `isBlank_of_mem_squeeze`.
-/

namespace ByteMachine.Text

/-- The property White_Space of a code point. -/
def isBlank (c : Char) : Bool :=
  (0x09 ≤ c.toNat && c.toNat ≤ 0x0D) || c.toNat == 0x20 || c.toNat == 0x85 || c.toNat == 0xA0 ||
    c.toNat == 0x1680 || (0x2000 ≤ c.toNat && c.toNat ≤ 0x200A) || c.toNat == 0x2028 ||
    c.toNat == 0x2029 || c.toNat == 0x202F || c.toNat == 0x205F || c.toNat == 0x3000

/-- A character that stands in a word. -/
def isSolid (c : Char) : Bool := !isBlank c

theorem isBlank_of_isWhitespace {c : Char} (h : c.isWhitespace = true) : isBlank c = true := by
  simp only [Char.isWhitespace, Bool.or_eq_true, decide_eq_true_eq] at h
  rcases h with ((h | h) | h) | h <;> subst h <;> decide

/-! ### Blanks at the ends -/

/-- The text without the blanks that it starts with. -/
def trimLeft (cs : List Char) : List Char := cs.dropWhile isBlank

/-- The text without the blanks that it ends with. -/
def trimRight (cs : List Char) : List Char := (cs.reverse.dropWhile isBlank).reverse

/-- The text without the blanks at its two ends. -/
def trim (cs : List Char) : List Char := trimRight (trimLeft cs)

theorem dropWhile_eq_nil_iff {p : Char → Bool} {cs : List Char} :
    cs.dropWhile p = [] ↔ ∀ c ∈ cs, p c = true := by
  induction cs with
  | nil => simp
  | cons c cs ih => by_cases h : p c = true <;> simp [h, ih]

theorem trimLeft_eq_nil_iff {cs : List Char} : trimLeft cs = [] ↔ ∀ c ∈ cs, isBlank c = true :=
  dropWhile_eq_nil_iff

theorem trimRight_eq_nil_iff {cs : List Char} : trimRight cs = [] ↔ ∀ c ∈ cs, isBlank c = true := by
  rw [trimRight, List.reverse_eq_nil_iff, dropWhile_eq_nil_iff]
  exact ⟨fun h c hc => h c (List.mem_reverse.mpr hc), fun h c hc => h c (List.mem_reverse.mp hc)⟩

/-- What `trimLeft` leaves starts with no blank. -/
theorem isBlank_of_trimLeft_eq_cons {c : Char} {cs rest : List Char} (h : trimLeft cs = c :: rest) :
    isBlank c = false := by
  induction cs with
  | nil => simp [trimLeft] at h
  | cons d ds ih =>
    by_cases hd : isBlank d = true
    · exact ih (by simpa [trimLeft, hd] using h)
    · simp only [trimLeft, List.dropWhile_cons, hd, Bool.false_eq_true, if_false, List.cons.injEq] at h
      simpa [h.1] using hd

theorem trim_eq_nil_iff {cs : List Char} : trim cs = [] ↔ ∀ c ∈ cs, isBlank c = true := by
  rw [trim, trimRight_eq_nil_iff]
  constructor
  · intro h
    cases hl : trimLeft cs with
    | nil => exact trimLeft_eq_nil_iff.mp hl
    | cons c rest =>
      have hc := isBlank_of_trimLeft_eq_cons hl
      simp [h c (by simp [hl])] at hc
  · intro h
    simp [trimLeft_eq_nil_iff.mpr h]

/-! ### Blanks anywhere -/

/-- The text without its blanks. -/
def squeeze (cs : List Char) : List Char := cs.filter isSolid

theorem squeeze_append (cs ds : List Char) : squeeze (cs ++ ds) = squeeze cs ++ squeeze ds :=
  List.filter_append ..

theorem isBlank_of_mem_squeeze {c : Char} {cs : List Char} (h : c ∈ squeeze cs) :
    isBlank c = false := by
  simpa [isSolid] using (List.mem_filter.mp h).2

/-- A text without blanks is left as it is. -/
theorem squeeze_eq_self {cs : List Char} (h : ∀ c ∈ cs, isBlank c = false) : squeeze cs = cs :=
  List.filter_eq_self.mpr fun c hc => by simp [isSolid, h c hc]

end ByteMachine.Text
