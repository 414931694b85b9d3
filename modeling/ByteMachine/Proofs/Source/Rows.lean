import ByteMachine.Proofs.Source.Entries
import ByteMachine.Source.Listing

/-!
# The rows of a listing

A listing goes through the lines of a text and, beside them, through the entries of a source map, and takes
an entry when it is the turn of its line. Which row gets which entry is `attach`; the rows are made from it
(`getElem?_rows`). An entry that stands before one of an earlier line would hold up all that follow. The
lines of a program's entries increase with their addresses (`pairwise_sourceMap`), so this does not happen,
for whatever text the listing is made.

* `getElem?_attach_eq_some_iff`: where the lines of the entries increase, each row has the entry of its line.
* `listing_of_any_image`: the listing of any text, with any bytes for the image of the program.
-/

namespace ByteMachine.Source

open Text

namespace Listing

/-- An entry of a source map, with the key of the entry behind it. -/
structure Entry where
  start : Nat
  line : PlacedLine
  next : Option Nat
  deriving DecidableEq, Repr

/-- The bytes of the entry. -/
def Entry.bytes (payload : List UInt8) (e : Entry) : List UInt8 := entryBytes payload e.start e.next

/-- The offset up to which the entry has bytes: the next key, or the end of the payload. -/
def Entry.stop (payload : List UInt8) (e : Entry) : Nat := min (e.next.getD payload.length) payload.length

/-- The entry stands in the map, before the key that it has as the next one. -/
def Entry.IsIn (e : Entry) (m : SourceMap) : Prop :=
  ∃ before after, m = before ++ (e.start, e.line) :: after ∧ e.next = after.head?.map Prod.fst

/-- The entries that the rows of some lines get, from the given line on. -/
def attach (line : Nat) : Nat → SourceMap → List (Option Entry)
  | 0, _ => []
  | count + 1, [] => none :: attach (line + 1) count []
  | count + 1, (start, p) :: rest =>
    if p.line = line then some ⟨start, p, rest.head?.map Prod.fst⟩ :: attach (line + 1) count rest
    else none :: attach (line + 1) count ((start, p) :: rest)

/-- The row of a line and its entry. -/
def row (payload : List UInt8) (line : Nat) (raw : List Char) : Option Entry → String
  | none => plainRow line raw
  | some e => entryRow line raw e.start (e.bytes payload)

/-! ### Bytes of entries -/

theorem Entry.stop_le (payload : List UInt8) (e : Entry) : e.stop payload ≤ payload.length :=
  Nat.min_le_right _ _

theorem Entry.slice?_eq_some {payload : List UInt8} {e : Entry} (h : e.start ≤ e.stop payload) :
    slice? payload e.start (e.stop payload) = some (e.bytes payload) := by
  have slice := Source.slice?_eq_some h (e.stop_le payload)
  have taken : e.bytes payload = (slice? payload e.start (e.stop payload)).getD [] := rfl
  rw [taken, slice, Option.getD_some]

theorem Entry.bytes_eq_nil {payload : List UInt8} {e : Entry} (h : e.stop payload < e.start) :
    e.bytes payload = [] :=
  congrArg (·.getD []) (slice?_eq_none h)

theorem Entry.bytes_eq (payload : List UInt8) (e : Entry) :
    e.bytes payload = (payload.take (e.stop payload)).drop e.start := by
  rcases Nat.lt_or_ge (e.stop payload) e.start with h | h
  · have none : ((payload.take (e.stop payload)).drop e.start).length = 0 := by
      rw [List.length_drop, List.length_take]
      omega
    rw [e.bytes_eq_nil h, List.eq_nil_of_length_eq_zero none]
  · have slice := Entry.slice?_eq_some h
    rw [Source.slice?_eq_some h (e.stop_le payload)] at slice
    exact (Option.some.inj slice).symm

/-- The end of the payload cuts an entry off by itself. -/
theorem Entry.bytes_eq_take (payload : List UInt8) (e : Entry) :
    e.bytes payload = (payload.take (e.next.getD payload.length)).drop e.start := by
  rw [e.bytes_eq, Entry.stop, ← List.take_eq_take_min]

theorem Entry.getElem?_bytes (payload : List UInt8) (e : Entry) (i : Nat) :
    (e.bytes payload)[i]? = if e.start + i < e.stop payload then payload[e.start + i]? else none := by
  rw [e.bytes_eq, List.getElem?_drop, List.getElem?_take]

/-! ### Rows and their entries -/

theorem length_attach (line count : Nat) (m : SourceMap) : (attach line count m).length = count := by
  fun_induction attach line count m with
  | case1 => rfl
  | case2 _ _ ih => rw [List.length_cons, ih]
  | case3 _ _ _ _ ih => rw [List.length_cons, ih]
  | case4 _ _ _ _ _ _ ih => rw [List.length_cons, ih]

/-- **Each row is made from its line and the entry that it gets.** -/
theorem getElem?_rows (payload : List UInt8) (line : Nat) (raws : List (List Char)) (m : SourceMap)
    (k : Nat) : (rows payload line raws m)[k]? = raws[k]?.bind fun raw =>
      (attach line raws.length m)[k]?.map (row payload (line + k) raw) := by
  induction raws generalizing line m k with
  | nil => simp [rows]
  | cons raw rest ih =>
    have shift (k : Nat) : line + 1 + k = line + (k + 1) := by omega
    cases m with
    | nil =>
      cases k with
      | zero => simp [rows, attach, row]
      | succ k => simp [rows, attach, ih, shift]
    | cons pair entries =>
      obtain ⟨start, p⟩ := pair
      rw [rows, List.length_cons, attach]
      split
      · cases k with
        | zero => simp [row, Entry.bytes]
        | succ k => simp [ih, shift]
      · cases k with
        | zero => simp [row]
        | succ k => simp [ih, shift]

theorem getElem?_rows_zero {payload : List UInt8} {raws : List (List Char)} {m : SourceMap} {k : Nat}
    {raw : List Char} (hk : raws[k]? = some raw) {e : Option Entry}
    (he : (attach 0 raws.length m)[k]? = some e) :
    (rows payload 0 raws m)[k]? = some (row payload k raw e) := by
  rw [getElem?_rows, hk, Option.bind_some, he, Option.map_some, Nat.zero_add]

theorem Entry.isIn_cons_iff {e : Entry} {start : Nat} {p : PlacedLine} {rest : SourceMap} :
    e.IsIn ((start, p) :: rest) ↔ e = ⟨start, p, rest.head?.map Prod.fst⟩ ∨ e.IsIn rest := by
  constructor
  · rintro ⟨_ | ⟨pair, before⟩, after, split, next⟩
    · obtain ⟨first, rfl⟩ := List.cons.inj split
      obtain ⟨rfl, rfl⟩ := Prod.mk.inj first
      exact .inl (by rw [← next])
    · obtain ⟨rfl, rfl⟩ := List.cons.inj split
      exact .inr ⟨before, after, rfl, next⟩
  · rintro (rfl | ⟨before, after, rfl, next⟩)
    · exact ⟨[], rest, rfl, rfl⟩
    · exact ⟨(start, p) :: before, after, rfl, next⟩

theorem Entry.IsIn.mem {e : Entry} {m : SourceMap} (h : e.IsIn m) : (e.start, e.line) ∈ m := by
  obtain ⟨before, after, rfl, -⟩ := h
  exact List.mem_append_right before List.mem_cons_self

theorem Entry.exists_isIn {m : SourceMap} {start : Nat} {p : PlacedLine} (h : (start, p) ∈ m) :
    ∃ next, Entry.IsIn ⟨start, p, next⟩ m := by
  obtain ⟨before, after, rfl⟩ := List.append_of_mem h
  exact ⟨_, before, after, rfl, rfl⟩

/-- The keys increase, so an entry ends where it starts or behind that, unless the payload is too short. -/
theorem Entry.IsIn.start_le_stop {e : Entry} {m : SourceMap} (h : e.IsIn m) (hm : m.Sorted)
    {payload : List UInt8} (within : e.start ≤ payload.length) : e.start ≤ e.stop payload := by
  obtain ⟨before, after, rfl, next⟩ := h
  refine Nat.le_min.mpr ⟨?_, within⟩
  rw [next]
  cases after with
  | nil => exact within
  | cons f after =>
    have ordered := (List.pairwise_append.mp hm).2.1
    exact Nat.le_of_lt ((List.pairwise_cons.mp ordered).1 f List.mem_cons_self)

/-- The lines of the entries increase. -/
def LinesIncrease (m : SourceMap) : Prop := m.Pairwise fun e f => e.2.line < f.2.line

theorem LinesIncrease.behind {line start : Nat} {p : PlacedLine} {rest : SourceMap}
    (h : LinesIncrease ((start, p) :: rest)) (here : p.line = line) :
    ∀ e ∈ rest, line + 1 ≤ e.2.line := by
  subst here
  exact (List.pairwise_cons.mp h).1

theorem LinesIncrease.ahead {line start : Nat} {p : PlacedLine} {rest : SourceMap}
    (h : LinesIncrease ((start, p) :: rest)) (hle : line ≤ p.line) (waits : p.line ≠ line) :
    ∀ e ∈ (start, p) :: rest, line + 1 ≤ e.2.line := by
  have first : line + 1 ≤ p.line := by omega
  rw [List.forall_mem_cons]
  exact ⟨first, fun e he => first.trans (Nat.le_of_lt ((List.pairwise_cons.mp h).1 e he))⟩

/-- **Each row has the entry of its line**, where the lines of the entries increase. -/
theorem getElem?_attach_eq_some_iff {line count : Nat} {m : SourceMap} (h : LinesIncrease m)
    (hle : ∀ e ∈ m, line ≤ e.2.line) {k : Nat} {e : Entry} :
    (attach line count m)[k]? = some (some e) ↔ e.IsIn m ∧ e.line.line = line + k ∧ k < count := by
  induction count generalizing line m k with
  | zero => simp [attach]
  | succ count ih =>
    have shift (k : Nat) : line + 1 + k = line + (k + 1) := by omega
    cases m with
    | nil =>
      have none : ¬e.IsIn [] := fun hin => List.not_mem_nil hin.mem
      cases k with
      | zero => simp [attach, none]
      | succ k =>
        rw [attach, List.getElem?_cons_succ, ih List.Pairwise.nil (by simp)]
        simp [none]
    | cons pair rest =>
      obtain ⟨start, p⟩ := pair
      obtain ⟨-, tail⟩ := List.pairwise_cons.mp h
      have first : line ≤ p.line := hle _ List.mem_cons_self
      rw [attach]
      split
      · rename_i here
        have later := h.behind here
        cases k with
        | zero =>
          rw [List.getElem?_cons_zero, Option.some.injEq, Option.some.injEq, Entry.isIn_cons_iff]
          constructor
          · rintro rfl
            exact ⟨.inl rfl, here, Nat.succ_pos count⟩
          · rintro ⟨rfl | hin, hline, -⟩
            · rfl
            · have := later _ hin.mem
              dsimp only at this
              omega
        | succ k =>
          rw [List.getElem?_cons_succ, ih tail later, Entry.isIn_cons_iff, shift, Nat.succ_lt_succ_iff]
          refine and_congr_left fun ⟨hline, _⟩ => ?_
          have other : e ≠ ⟨start, p, rest.head?.map Prod.fst⟩ := by
            rintro rfl
            dsimp only at hline
            omega
          exact (or_iff_right other).symm
      · rename_i waits
        have later := h.ahead first waits
        cases k with
        | zero =>
          rw [List.getElem?_cons_zero, Option.some.injEq]
          refine iff_of_false (by simp) fun ⟨hin, hline, _⟩ => ?_
          have := later _ hin.mem
          dsimp only at this
          omega
        | succ k =>
          rw [List.getElem?_cons_succ, ih h later, shift, Nat.succ_lt_succ_iff]

end Listing

/-! ### The entries of programs -/

theorem kept_sublist (ps : List PlacedLine) : (kept ps).Sublist ps := by
  rcases List.eq_nil_or_concat' ps with rfl | ⟨init, last, rfl⟩
  · exact List.Sublist.refl _
  · rw [kept_concat]
    exact List.filter_sublist.append (List.Sublist.refl _)

theorem pairwise_sourceMap {source : String} {layout : Layout}
    (hl : Layout.ofSource source = .ok layout) :
    Listing.LinesIncrease (SourceMap.ofPlaced layout.placed) := by
  rw [Listing.LinesIncrease, (isContiguous_placed hl).ofPlaced_eq, List.pairwise_map]
  exact (pairwise_placed hl).sublist (kept_sublist layout.placed)

theorem getElem?_attach_ofPlaced_iff {source : String} {layout : Layout}
    (hl : Layout.ofSource source = .ok layout) {count k : Nat} {e : Listing.Entry} :
    (Listing.attach 0 count (SourceMap.ofPlaced layout.placed))[k]? = some (some e) ↔
      e.IsIn (SourceMap.ofPlaced layout.placed) ∧ e.line.line = k ∧ k < count := by
  rw [Listing.getElem?_attach_eq_some_iff (pairwise_sourceMap hl) fun _ _ => Nat.zero_le _,
    Nat.zero_add]

/-! ### The texts of rows -/

/-- The row of a line with an entry: its address, four of its bytes at most with a mark for more, and the line
with a note behind it. -/
def codeRow (k : Nat) (raw : List Char) (address : Nat) (bytes : List UInt8) (note : String) : String :=
  "[" ++ styled [.green] (hexPadded 3 address) ++ "] " ++
    alignLeft 11 (String.intercalate " " ((bytes.take 4).map fun b => hexPadded 2 b.toNat)) ++
    (if 4 < bytes.length then "+" else " ") ++ "| " ++ decimalPadded 4 (k + 1) ++ ": " ++
    String.ofList (trim raw) ++ " " ++ note

/-- The row of a line without an entry. -/
def textRow (k : Nat) (text : String) : String :=
  String.ofList (List.replicate 19 ' ') ++ "| " ++ decimalPadded 4 (k + 1) ++ ": " ++ text

/-- What is noted behind a line of the given bytes: their instruction, if the line is an instruction and they
are two bytes, with a mark if they are none. -/
inductive Remarked (raw : List Char) : List UInt8 → String → Prop
  | instruction {low high : UInt8} {i : Instruction} (kind : LineKind.ofLine raw = .instruction)
    (decoded : Instruction.ofWord? (Word.ofBytes low high) = some i) :
    Remarked raw [low, high] i.disassemble
  | unknown {low high : UInt8} (kind : LineKind.ofLine raw = .instruction)
    (undecoded : Instruction.ofWord? (Word.ofBytes low high) = none) :
    Remarked raw [low, high] (styled [.red, .bold] "??")
  | nothing {bytes : List UInt8} (other : LineKind.ofLine raw ≠ .instruction ∨ bytes.length ≠ 2) :
    Remarked raw bytes ""

theorem remarked_disassembly (raw : List Char) (bytes : List UInt8) :
    Remarked raw bytes (Listing.disassembly (LineKind.ofLine raw) bytes) := by
  unfold Listing.disassembly
  split
  · rename_i low high kind
    cases hi : Instruction.ofWord? (Word.ofBytes low high) with
    | some i => exact .instruction kind hi
    | none => exact .unknown kind hi
  · rename_i other
    refine .nothing ?_
    by_contra both
    obtain ⟨kind, two⟩ := not_or.mp both
    obtain ⟨low, high, rfl⟩ := List.length_eq_two.mp (not_not.mp two)
    exact other low high (not_not.mp kind) rfl

/-- The text that is shown of a line of the given kind without an entry. -/
def plainText (raw : List Char) : LineKind → String
  | .label _ => styled [.green] (String.ofList (trim raw))
  | _ => String.ofList (trim raw)

theorem entryRow_eq (k : Nat) (raw : List Char) (address : Nat) (bytes : List UInt8) :
    Listing.entryRow k raw address bytes =
      codeRow k raw address bytes (Listing.disassembly (LineKind.ofLine raw) bytes) :=
  rfl

theorem plainRow_eq (k : Nat) (raw : List Char) :
    Listing.plainRow k raw = textRow k (plainText raw (LineKind.ofLine raw)) :=
  rfl

/-! ### Listings -/

/-- What the listing of a text is made from, whatever the program. -/
structure Listed (path source : String) (program : Program) (attached : List (Option Listing.Entry))
    (rows : List String) : Prop where
  /-- The slice behind the tag is in range, so there is a listing. -/
  listing?_eq : listing? path source program = some (Listing.header path :: (rows ++ [Listing.footer]))
  length_listing : (listing path source program).length = (lines source.toList).length + 2
  length_rows : rows.length = (lines source.toList).length
  length_attached : attached.length = (lines source.toList).length
  /-- An entry is attached to the row of its line, if there is such a line, and to no other row. -/
  attached_iff : ∀ k e, attached[k]? = some (some e) ↔
    e.IsIn program.sourceMap ∧ e.line.line = k ∧ k < (lines source.toList).length
  /-- A row with an entry shows the address and the bytes of the entry beside its line. -/
  entry_row : ∀ k raw e, (lines source.toList)[k]? = some raw → attached[k]? = some (some e) →
    ∃ note, Remarked raw (e.bytes (Image.payload program.image)) note ∧
      rows[k]? = some (codeRow k raw e.start (e.bytes (Image.payload program.image)) note)
  /-- A row without an entry shows its line. -/
  plain_row : ∀ k raw, (lines source.toList)[k]? = some raw → attached[k]? = some none →
    rows[k]? = some (textRow k (plainText raw (LineKind.ofLine raw)))
  /-- The slice of an entry is in range unless the entry starts behind the payload. -/
  slice?_eq : ∀ e : Listing.Entry, e.IsIn program.sourceMap →
    e.start ≤ (Image.payload program.image).length →
      slice? (Image.payload program.image) e.start (e.stop (Image.payload program.image)) =
        some (e.bytes (Image.payload program.image))
  /-- The bytes of an entry are those of the payload from its key up to the next key or the end. -/
  getElem?_bytes : ∀ (e : Listing.Entry) (i : Nat), (e.bytes (Image.payload program.image))[i]? =
    if e.start + i < min (e.next.getD (Image.payload program.image).length)
        (Image.payload program.image).length then
      (Image.payload program.image)[e.start + i]? else none
  bytes_eq_nil : ∀ e : Listing.Entry, (Image.payload program.image).length < e.start →
    e.bytes (Image.payload program.image) = []

/-- **The listing of any text, beside any bytes**: a program that has been assembled from another text, and
whose image has been replaced, is listed row by row, each entry on the row of its line. -/
theorem listing_of_any_image {other : String} {program : Program} (h : assemble other = .ok program)
    (path source : String) (image : List UInt8) :
    ∃ attached rows, Listed path source { program with image := image } attached rows := by
  obtain ⟨layout, bytes, hl, -, rfl⟩ := assemble_eq_ok_iff.mp h
  have sorted : (SourceMap.ofPlaced layout.placed).Sorted := SourceMap.sorted_ofPairs _
  refine ⟨Listing.attach 0 (lines source.toList).length (SourceMap.ofPlaced layout.placed),
    Listing.rows (Image.payload image) 0 (lines source.toList) (SourceMap.ofPlaced layout.placed), ?_⟩
  exact
    { listing?_eq := listing?_eq_some path source _
      length_listing := length_listing path source _
      length_rows := Listing.length_rows ..
      length_attached := Listing.length_attach ..
      attached_iff := fun _ _ => getElem?_attach_ofPlaced_iff hl
      entry_row := by
        intro k raw e hk he
        refine ⟨_, remarked_disassembly raw _, ?_⟩
        rw [Listing.getElem?_rows_zero hk he, ← entryRow_eq]
        rfl
      plain_row := by
        intro k raw hk he
        rw [Listing.getElem?_rows_zero hk he, ← plainRow_eq]
        rfl
      slice?_eq := fun _ hin within => Listing.Entry.slice?_eq_some (hin.start_le_stop sorted within)
      getElem?_bytes := Listing.Entry.getElem?_bytes _
      bytes_eq_nil := fun e behind =>
        Listing.Entry.bytes_eq_nil (Nat.lt_of_le_of_lt (e.stop_le _) behind) }

theorem Listed.of_listing? {path source : String} {program : Program}
    {attached : List (Option Listing.Entry)} {rows texts : List String}
    (h : Listed path source program attached rows) (ht : listing? path source program =
      some (Listing.header path :: (texts ++ [Listing.footer]))) :
    Listed path source program attached texts := by
  have same := h.listing?_eq
  rw [ht, Option.some.injEq, List.cons.injEq] at same
  rwa [List.append_cancel_right same.2]

/-- A program of two instructions and a byte. -/
def threeLines : Program :=
  ⟨Image.tag ++ [0x0C, 0x00, 0x0C, 0x00, 0x01],
    [(0, ⟨0, 0, "NOPE"⟩), (2, ⟨1, 2, "NOPE"⟩), (4, ⟨2, 4, ".DATA 1"⟩)], []⟩

/-- The program beside another text, with an image of three bytes, which cut the second entry off and end
before the third, and with an image that is shorter than the tag. -/
theorem listing_of_any_image_short :
    assemble "NOPE\nNOPE\n.DATA 1" = .ok threeLines ∧
      (∃ attached, Listed "a" "NOPE\n\n.DATA 7\nx:"
        { threeLines with image := Image.ofPayload [0x0C, 0x00, 0xFF] } attached
        ["[\x1b[32m000\x1b[39m] 0C 00       |    1: NOPE \x1b[31mNOPE   \x1b[34m         \x1b[39m",
          "[\x1b[32m002\x1b[39m] FF          |    2:  ",
          "[\x1b[32m004\x1b[39m]             |    3: .DATA 7 ",
          "                   |    4: \x1b[32mx:\x1b[39m"]) ∧
      ∃ attached, Listed "a" "NOPE" { threeLines with image := [0x2E] } attached
        ["[\x1b[32m000\x1b[39m]             |    1: NOPE "] := by
  have h : assemble "NOPE\nNOPE\n.DATA 1" = .ok threeLines := by decide +kernel
  refine ⟨h, ?_, ?_⟩
  · obtain ⟨attached, rows, listed⟩ :=
      listing_of_any_image h "a" "NOPE\n\n.DATA 7\nx:" (Image.ofPayload [0x0C, 0x00, 0xFF])
    exact ⟨attached, listed.of_listing? (by decide +kernel)⟩
  · obtain ⟨attached, rows, listed⟩ := listing_of_any_image h "a" "NOPE" [0x2E]
    exact ⟨attached, listed.of_listing? (by decide +kernel)⟩

end ByteMachine.Source
