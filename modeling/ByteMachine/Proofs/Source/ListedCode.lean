import ByteMachine.Proofs.Instruction.Disassembly
import ByteMachine.Proofs.Source.Decoding
import ByteMachine.Proofs.Source.Parts
import ByteMachine.Proofs.Source.Rows

/-!
# Listings show the code of their lines

The listing of a program beside its own source text: the bytes of an entry reach up to the next key, and
since a line that the source map has lost stands for no bytes, they are the bytes of the entry's line.

* `flatMap_attach`: what the rows show, put together, is the payload from the first key on.
* `IsContiguous.next_kept`, `Layout.Emits.bytes_of_isIn`: an entry has the bytes that its line emits.
* `disassembly_of_encode`: the bytes of an instruction line are shown as the instruction that is encoded.
* `listing_of_assemble`: the listing of a program, row by row.
-/

namespace ByteMachine

namespace Source

open Text

/-! ### All bytes -/

namespace Listing

/-- The bytes that a row shows a part of. -/
def shownBytes (payload : List UInt8) : Option Entry → List UInt8
  | none => []
  | some e => e.bytes payload

/-- **The rows show all bytes** from the first key on, in order. -/
theorem flatMap_attach (payload : List UInt8) {line count : Nat} {m : SourceMap} (hm : m.Sorted)
    (h : LinesIncrease m) (hle : ∀ e ∈ m, line ≤ e.2.line) (hlt : ∀ e ∈ m, e.2.line < line + count) :
    (attach line count m).flatMap (shownBytes payload) =
      (m.head?.map fun e => payload.drop e.1).getD [] := by
  induction count generalizing line m with
  | zero =>
    cases m with
    | nil => rfl
    | cons e rest =>
      have := hle e List.mem_cons_self
      have := hlt e List.mem_cons_self
      omega
  | succ count ih =>
    have within : ∀ e ∈ m, e.2.line < line + 1 + count := by
      intro e he
      have := hlt e he
      omega
    cases m with
    | nil => exact ih List.Pairwise.nil List.Pairwise.nil (by simp) (by simp)
    | cons pair rest =>
      obtain ⟨start, p⟩ := pair
      obtain ⟨keys, sorted⟩ := List.pairwise_cons.mp hm
      obtain ⟨-, tail⟩ := List.pairwise_cons.mp h
      rw [attach]
      split
      · rename_i here
        rw [List.flatMap_cons,
          ih sorted tail (h.behind here) fun e he => within e (List.mem_cons_of_mem _ he)]
        cases rest with
        | nil => simp [shownBytes, Entry.bytes_eq_take]
        | cons next rest =>
          -- the bytes up to the next key, and those behind it
          have ordered : start ≤ next.1 := Nat.le_of_lt (keys next List.mem_cons_self)
          have cut := List.take_append_drop (next.1 - start) (payload.drop start)
          rw [List.drop_drop, Nat.add_sub_cancel' ordered, ← List.drop_take] at cut
          rw [shownBytes, Entry.bytes_eq_take]
          exact cut
      · rename_i waits
        rw [List.flatMap_cons, ih hm h (h.ahead (hle _ List.mem_cons_self) waits) within]
        rfl

end Listing

/-! ### The bytes of a line -/

theorem IsContiguous.next_kept {address : Nat} {ps before after : List PlacedLine} {p : PlacedLine}
    (h : IsContiguous address ps) (hk : kept ps = before ++ p :: after) :
    (after.head?.map PlacedLine.address).getD (address + totalSize ps) = p.address + p.size := by
  induction ps generalizing address before with
  | nil => simp [kept] at hk
  | cons q ps ih =>
    obtain ⟨ha, h⟩ := h
    rw [totalSize, ← Nat.add_assoc]
    cases ps with
    | nil =>
      obtain ⟨rfl, here⟩ | ⟨before, rfl, later⟩ := List.cons_eq_append_iff.mp hk
      · obtain ⟨rfl, rfl⟩ := List.cons.inj here
        simp [totalSize, ha]
      · simp at later
    | cons r rest =>
      rw [kept_cons_cons] at hk
      split at hk
      · exact ih h hk
      · obtain ⟨rfl, here⟩ | ⟨before, rfl, later⟩ := List.cons_eq_append_iff.mp hk
        · obtain ⟨rfl, rfl⟩ := List.cons.inj here
          obtain ⟨first, others, hfirst, start⟩ := h.exists_kept_eq_cons (List.cons_ne_nil r rest)
          rw [hfirst]
          simp [start, ha]
        · exact ih h later

section
variable {source : String} {layout : Layout} {parts : List Part}
  (hl : Layout.ofSource source = .ok layout) (hp : layout.Emits parts)
include hl hp

theorem take_drop_emitted {part : Part} (hpart : part ∈ parts) :
    ((emitted parts).take (part.origin.address + part.origin.size)).drop part.origin.address =
      part.bytes := by
  obtain ⟨before, after, rfl⟩ := List.append_of_mem hpart
  rw [← length_bytes hl hp hpart, address_eq hl hp, emitted_append, emitted_cons,
    List.take_length_add_append, List.take_left, List.drop_left]

/-- **An entry has the bytes of its line.** -/
theorem bytes_of_isIn {e : Listing.Entry} (h : e.IsIn (SourceMap.ofPlaced layout.placed)) :
    ∃ part ∈ parts, part.origin = e.line ∧ e.start = e.line.address ∧
      e.bytes (emitted parts) = part.bytes := by
  have contiguous := isContiguous_placed hl
  obtain ⟨before, after, split, next⟩ := h
  rw [contiguous.ofPlaced_eq, List.map_eq_append_iff] at split
  obtain ⟨before, others, hkept, rfl, split⟩ := split
  obtain ⟨p, after, rfl, entry, rfl⟩ := List.map_eq_cons_iff.mp split
  obtain ⟨start, line⟩ := Prod.mk.inj entry
  have origin : p ∈ parts.map Part.origin := by
    rw [hp.origins]
    exact (mem_kept_iff.mp (hkept ▸ List.mem_append_right _ List.mem_cons_self)).1
  obtain ⟨part, hpart, rfl⟩ := List.mem_map.mp origin
  refine ⟨part, hpart, line, by rw [← start, line], ?_⟩
  have length : (emitted parts).length = 0 + totalSize layout.placed := by
    rw [length_emitted fun _ => length_bytes hl hp, hp.origins, Nat.zero_add]
  have stop : e.next.getD (emitted parts).length = part.origin.address + part.origin.size := by
    rw [length, ← contiguous.next_kept hkept, next, List.head?_map, Option.map_map]
    rfl
  rw [e.bytes_eq_take, stop, ← start]
  exact take_drop_emitted hl hp hpart

theorem flatMap_attach_emitted : (Listing.attach 0 (lines source.toList).length
    (SourceMap.ofPlaced layout.placed)).flatMap (Listing.shownBytes (emitted parts)) =
      emitted parts := by
  have contiguous := isContiguous_placed hl
  have within : ∀ e ∈ SourceMap.ofPlaced layout.placed,
      e.2.line < 0 + (lines source.toList).length := by
    rintro ⟨a, p⟩ he
    have placed := (mem_kept_iff.mp ((mem_ofPlaced_iff contiguous).mp he).1).1
    obtain ⟨k, raw, hk, -, rfl⟩ := (mem_placed_iff hl).mp placed
    obtain ⟨inside, -⟩ := List.getElem?_eq_some_iff.mp hk
    rwa [Nat.zero_add]
  have sorted : (SourceMap.ofPlaced layout.placed).Sorted := SourceMap.sorted_ofPairs _
  rw [Listing.flatMap_attach _ sorted (pairwise_sourceMap hl) (fun _ _ => Nat.zero_le _) within,
    contiguous.ofPlaced_eq, List.head?_map]
  by_cases empty : layout.placed = []
  · have none : parts = [] := by rw [← List.map_eq_nil_iff (f := Part.origin), hp.origins, empty]
    rw [empty, none]
    rfl
  · obtain ⟨q, qs, hkept, start⟩ := contiguous.exists_kept_eq_cons empty
    rw [hkept]
    simp [start]

end

/-! ### The disassembly of a line -/

/-- What a listing notes behind a line that has bytes: the instruction that the line is encoded as, and
nothing behind data. -/
inductive Noted (labels : Labels) (raw : List Char) (bytes : List UInt8) : String → Prop
  | instruction {m : Mnemonic} {i : Instruction} (kind : LineKind.ofLine raw = .instruction)
    (mnemonic : Mnemonic.ofName? (Statement.ofLine raw).op = some m)
    (encoded : instruction labels m (Statement.ofLine raw).args = .ok i) (bytes_eq : bytes = i.toBytes) :
    Noted labels raw bytes i.disassemble
  | data (kind : LineKind.ofLine raw = .data) : Noted labels raw bytes ""

theorem Noted.ne_unknown {labels : Labels} {raw : List Char} {bytes : List UInt8} {note : String}
    (h : Noted labels raw bytes note) : note ≠ styled [.red, .bold] "??" := by
  cases h with
  | instruction => exact Instruction.disassemble_ne_styled _ _
  | data => decide +kernel

/-- **The bytes of a line are read as its instruction.** -/
theorem disassembly_of_encode {labels : Labels} {raw : List Char} {bytes : List UInt8}
    (kind : LineKind.ofLine raw = .data ∨ LineKind.ofLine raw = .instruction)
    (h : encode labels (Statement.ofLine raw) = .ok bytes) :
    Noted labels raw bytes (Listing.disassembly (LineKind.ofLine raw) bytes) := by
  rcases kind with kind | kind
  · rw [kind]
    exact .data kind
  · have directive := op_of_encode_instruction kind h
    cases hm : Mnemonic.ofName? (Statement.ofLine raw).op with
    | none =>
      rw [encode_of_unknown directive hm] at h
      cases h
    | some m =>
      rw [encode_of_mnemonic directive hm] at h
      obtain ⟨i, hi, rfl⟩ := map_eq_ok_iff.mp h
      obtain ⟨rfl, read⟩ := instruction_eq_ok_iff.mp hi
      have decoded : Instruction.ofWord? i.toWord = some i :=
        Instruction.ofWord?_toWord_of_le fun a ha => address_le_of_areRead read ha
      have note : Listing.disassembly .instruction i.toBytes = i.disassemble := by
        rw [Instruction.toBytes_eq, Listing.disassembly, Word.ofBytes_toBytes, decoded]
      rw [kind, note]
      exact .instruction kind hm hi rfl

/-! ### Listings of programs -/

/-- The text that is shown of a line without an entry, which is no instruction. -/
inductive Plain (raw : List Char) : String → Prop
  | idle (kind : LineKind.ofLine raw = .blank ∨ LineKind.ofLine raw = .comment) :
    Plain raw (String.ofList (trim raw))
  | label {name : String} (kind : LineKind.ofLine raw = .label name) :
    Plain raw (styled [.green] (String.ofList (trim raw)))
  | data (kind : LineKind.ofLine raw = .data) (none : (Statement.ofLine raw).args = []) :
    Plain raw (String.ofList (trim raw))

/-- What the listing of a program shows, row by row, and the bytes of each row. -/
structure ListsCode (path source : String) (program : Program) (rows : List String)
    (runs : List (List UInt8)) : Prop where
  listing_eq : listing path source program = Listing.header path :: rows ++ [Listing.footer]
  length_rows : rows.length = (lines source.toList).length
  length_runs : runs.length = (lines source.toList).length
  /-- The bytes of all rows are the payload. -/
  flatten_runs : runs.flatten = Image.payload program.image
  /-- The row of a line with an entry shows the bytes that the line is encoded to. -/
  entry_row : ∀ k raw address p, (lines source.toList)[k]? = some raw →
    (address, p) ∈ program.sourceMap → p.line = k →
      ∃ bytes note, encode program.labels (Statement.ofLine raw) = .ok bytes ∧
        Noted program.labels raw bytes note ∧ note ≠ styled [.red, .bold] "??" ∧
          runs[k]? = some bytes ∧ rows[k]? = some (codeRow k raw address bytes note)
  /-- Every other row shows the text of its line alone. -/
  plain_row : ∀ k raw, (lines source.toList)[k]? = some raw →
    (∀ e ∈ program.sourceMap, e.2.line ≠ k) →
      ∃ text, Plain raw text ∧ runs[k]? = some [] ∧ rows[k]? = some (textRow k text)

/-- A line without an entry is no instruction, and stands for no bytes if it is data. -/
theorem exists_plain {source : String} {layout : Layout} (hl : Layout.ofSource source = .ok layout)
    {k : Nat} {raw : List Char} (hk : (lines source.toList)[k]? = some raw)
    (none : ∀ e ∈ SourceMap.ofPlaced layout.placed, e.2.line ≠ k) :
    ∃ text, Plain raw text ∧ Listing.plainRow k raw = textRow k text := by
  have small (kind : LineKind.ofLine raw = .data ∨ LineKind.ofLine raw = .instruction) :
      PlacedLine.size ⟨k, totalSize (place 0 0 ((lines source.toList).take k)),
        String.ofList (trim raw)⟩ = 0 := by
    by_contra sized
    have placed := (mem_placed_iff hl).mpr ⟨k, raw, hk, kind, rfl⟩
    have entry := (mem_ofPlaced_iff (isContiguous_placed hl)).mpr
      ⟨mem_kept_iff.mpr ⟨placed, .inl sized⟩, rfl⟩
    exact none _ entry rfl
  unfold PlacedLine.size at small
  rw [PlacedLine.kind_of_text rfl, PlacedLine.statement_of_text rfl] at small
  refine ⟨_, ?_, plainRow_eq k raw⟩
  cases kind : LineKind.ofLine raw with
  | blank => exact .idle (.inl kind)
  | comment => exact .idle (.inr kind)
  | label name => exact .label kind
  | data => exact .data kind (by simpa [kind] using small)
  | instruction => simp [kind] at small

/-- **The listing of a program shows its code**: each row the bytes that its line is encoded to, and all
rows together the payload. -/
theorem listing_of_assemble {source : String} {program : Program} (h : assemble source = .ok program)
    (path : String) : ∃ rows runs, ListsCode path source program rows runs := by
  obtain ⟨layout, parts, hl, hp, rfl⟩ := assemble_eq_ok_iff_emits.mp h
  have payload : Image.payload (Image.ofPayload (emitted parts)) = emitted parts :=
    Image.payload_ofPayload _
  let shown := (Listing.attach 0 (lines source.toList).length
    (SourceMap.ofPlaced layout.placed)).map (Listing.shownBytes (emitted parts))
  exact ⟨Listing.rows (emitted parts) 0 (lines source.toList) (SourceMap.ofPlaced layout.placed), shown,
    { listing_eq := by
        rw [listing_eq, payload]
        rfl
      length_rows := Listing.length_rows ..
      length_runs := by rw [List.length_map, Listing.length_attach]
      flatten_runs := by
        rw [← List.flatMap_def, flatMap_attach_emitted hl hp]
        exact payload.symm
      entry_row := by
        rintro k raw address p hk entry rfl
        obtain ⟨next, hin⟩ := Listing.Entry.exists_isIn entry
        obtain ⟨inside, -⟩ := List.getElem?_eq_some_iff.mp hk
        have he := (getElem?_attach_ofPlaced_iff hl).mpr ⟨hin, rfl, inside⟩
        obtain ⟨part, hpart, origin, -, bytes⟩ := bytes_of_isIn hl hp hin
        obtain ⟨raw', hraw', text, kind⟩ := exists_raw hl hp hpart
        have encoded := hp.encoded part hpart
        rw [origin] at hraw'
        obtain rfl := Option.some.inj (hraw'.symm.trans hk)
        rw [PlacedLine.kind_of_text text] at kind
        rw [PlacedLine.statement_of_text text] at encoded
        have noted := disassembly_of_encode kind encoded
        refine ⟨part.bytes, _, encoded, noted, noted.ne_unknown, ?_, ?_⟩
        · rw [List.getElem?_map, he, Option.map_some, Listing.shownBytes, bytes]
        · rw [Listing.getElem?_rows_zero hk he, Listing.row, bytes, entryRow_eq]
      plain_row := by
        intro k raw hk none
        obtain ⟨inside, -⟩ := List.getElem?_eq_some_iff.mp hk
        obtain ⟨e, he⟩ : ∃ e, (Listing.attach 0 (lines source.toList).length
            (SourceMap.ofPlaced layout.placed))[k]? = some e :=
          ⟨_, List.getElem?_eq_getElem (by rwa [Listing.length_attach])⟩
        obtain _ | e := e
        · obtain ⟨text, plain, same⟩ := exists_plain hl hk none
          refine ⟨text, plain, by rw [List.getElem?_map, he]; rfl, ?_⟩
          rw [Listing.getElem?_rows_zero hk he, Listing.row, same]
        · obtain ⟨hin, line, -⟩ := (getElem?_attach_ofPlaced_iff hl).mp he
          exact absurd line (none _ hin.mem) }⟩

/-- A source text of five bytes, a data line that the source map loses, and a jump over them. -/
def jumpOver : String := ".DATA 1, 2, 3, 4, 5\n.DATA\nend:\n HOPP end"

/-- The listing of `jumpOver`: the lost line has a row without bytes, and holds no other row up. -/
theorem listing_of_assemble_jump :
    ∃ program rows runs, assemble jumpOver = .ok program ∧ ListsCode "a" jumpOver program rows runs ∧
      runs.flatten = [1, 2, 3, 4, 5, 0x58, 0x00] ∧ runs[3]? = some [0x58, 0x00] ∧
      rows = ["[\x1b[32m000\x1b[39m] 01 02 03 04+|    1: .DATA 1, 2, 3, 4, 5 ",
        "                   |    2: .DATA",
        "                   |    3: \x1b[32mend:\x1b[39m",
        "[\x1b[32m005\x1b[39m] 58 00       |    4: HOPP end \x1b[31mHOPP   \x1b[33m0x005\x1b[39m"] := by
  have h : assemble jumpOver = .ok ⟨Image.tag ++ [1, 2, 3, 4, 5, 0x58, 0x00],
      [(0, ⟨0, 0, ".DATA 1, 2, 3, 4, 5"⟩), (5, ⟨3, 5, "HOPP end"⟩)], [("end", 5)]⟩ := by
    decide +kernel
  obtain ⟨rows, runs, lists⟩ := listing_of_assemble h "a"
  have line : (lines jumpOver.toList)[3]? = some " HOPP end".toList := by decide +kernel
  have jump : encode [("end", 5)] (Statement.ofLine " HOPP end".toList) = .ok [0x58, 0x00] := by
    decide +kernel
  obtain ⟨bytes, note, encoded, -, -, run, -⟩ := lists.entry_row 3 _ 5 ⟨3, 5, "HOPP end"⟩ line
    (by simp) rfl
  obtain rfl := Except.ok.inj (encoded.symm.trans jump)
  refine ⟨_, rows, runs, h, lists, lists.flatten_runs, run, ?_⟩
  have between := congrArg (fun texts => texts.tail.dropLast) lists.listing_eq
  rw [List.cons_append, List.tail_cons, List.dropLast_concat] at between
  rw [← between]
  decide +kernel

end Source

end ByteMachine
