import ByteMachine.Proofs.Source.Operand
import ByteMachine.Proofs.Source.Reading
import ByteMachine.Proofs.Traversal
import ByteMachine.Source.Encode

/-!
# The number of bytes of a line

The kind of a line says how many bytes are kept free for it, its statement which bytes it gets. Both
agree on every line that can be encoded: an instruction line gets two bytes, and never as data
(`length_of_encode_instruction`), and a data line gets one byte for each argument
(`length_of_encode_data`). From the statement alone, a line with the word of an instruction is an
instruction line (`kind_of_isOperation`), and one with the directive is data if it can be encoded
(`kind_of_directive`).
-/

namespace ByteMachine.Source

open Text

/-! ### The two kinds of lines with bytes -/

theorem isData_of_ofLine {raw : List Char} (h : LineKind.ofLine raw = .data) :
    isData (trim (code raw)) = true := by
  rcases LineKind.ofLine_cases raw with hk | hk | hk
  · rw [hk] at h
    cases h
  · rw [hk] at h
    cases h
  · rw [hk, LineKind.ofCode] at h
    split at h
    · cases h
    · split at h
      · assumption
      · cases h

theorem not_isData_of_ofLine {raw : List Char} (h : LineKind.ofLine raw = .instruction) :
    isData (trim (code raw)) = false := by
  rcases LineKind.ofLine_cases raw with hk | hk | hk
  · rw [hk] at h
    cases h
  · rw [hk] at h
    cases h
  · rw [hk, LineKind.ofCode] at h
    split at h
    · cases h
    · split at h
      · cases h
      · rename_i hd
        simpa using hd

theorem op_of_data {raw : List Char} (h : LineKind.ofLine raw = .data) :
    (Statement.ofLine raw).op.toList = dataDirective := by
  rw [Statement.ofLine, String.toList_ofList]
  exact op_of_isData (isData_of_ofLine h)

/-- A word that starts neither data nor a label. -/
structure IsOperation (op : String) : Prop where
  ne_nil : op.toList ≠ []
  solid : ∀ c ∈ op.toList, isBlank c = false ∧ c ≠ ';'
  no_colon : ':' ∉ op.toList
  ne_directive : op.toList ≠ dataDirective

theorem isOperation_name (m : Mnemonic) : IsOperation m.name := by
  have all : ∀ m ∈ Mnemonic.all, m.name.toList ≠ [] ∧ m.name.toList ≠ dataDirective ∧
      (m.name.toList.all fun c => isSolid c && c != ';' && c != ':') = true := by
    decide +kernel
  obtain ⟨ne_nil, ne_directive, chars⟩ := all m m.mem_all
  have each : ∀ c ∈ m.name.toList, (isBlank c = false ∧ c ≠ ';') ∧ c ≠ ':' := by
    intro c hc
    simpa [isSolid] using List.all_eq_true.mp chars c hc
  exact ⟨ne_nil, fun c hc => (each c hc).1, fun hc => (each _ hc).2 rfl, ne_directive⟩

theorem kind_of_isOperation {raw : List Char} (h : IsOperation (Statement.ofLine raw).op) :
    LineKind.ofLine raw = .instruction := by
  have hop : (Statement.ofLine raw).op.toList = (trim (code raw)).takeWhile isSolid :=
    String.toList_ofList
  have hcode : trim (code raw) ≠ [] := by
    intro hnil
    rw [hnil] at hop
    exact h.ne_nil hop
  rw [LineKind.ofLine_of_code hcode, LineKind.ofCode]
  split
  · -- a label has no blank, so its colon would be part of the operation
    rename_i name hname
    obtain ⟨htext, -, hchars⟩ := labelName?_eq_some_iff.mp hname
    have solid : ∀ c ∈ name ++ [':'], isBlank c = false := by
      intro c hc
      rcases List.mem_append.mp hc with hc | hc
      · exact isBlank_of_isNameChar (hchars c hc)
      · obtain rfl := List.mem_singleton.mp hc
        decide
    rw [htext, (takeWhile_isSolid_eq_self solid).1] at hop
    exact absurd (hop ▸ List.mem_append_right _ (List.mem_singleton.mpr rfl)) h.no_colon
  · rw [if_neg]
    intro hdata
    exact h.ne_directive (hop.trans (op_of_isData hdata))

/-! ### Lines that are encoded -/

theorem encode_of_directive {labels : Labels} {t : Statement} (h : t.op.toList = dataDirective) :
    encode labels t = t.args.mapM byte := by
  rw [encode, if_pos h]

theorem length_of_mapM_byte {args : List String} {bytes : List UInt8}
    (h : args.mapM byte = .ok bytes) : bytes.length = args.length :=
  (mapM_eq_ok_iff.mp h).length_eq.symm

theorem isDataChar_of_mapM_byte {args : List String} {bytes : List UInt8}
    (h : args.mapM byte = .ok bytes) {arg : String} (ha : arg ∈ args) :
    ∀ c ∈ arg.toList, isDataChar c = true := by
  have each := mapM_eq_ok_iff.mp h
  clear h
  induction each with
  | nil => simp at ha
  | cons hb _ ih =>
    rcases List.mem_cons.mp ha with rfl | ha
    · obtain ⟨n, hn, -⟩ := byte_eq_ok_iff.mp hb
      exact isDataChar_of_numeral? hn
    · exact ih ha

/-- An instruction line with the directive as its operation cannot be encoded: the character that keeps
it from being data stands in an argument, which is then no byte. -/
theorem op_of_encode_instruction {labels : Labels} {raw : List Char} {bytes : List UInt8}
    (hk : LineKind.ofLine raw = .instruction)
    (h : encode labels (Statement.ofLine raw) = .ok bytes) :
    (Statement.ofLine raw).op.toList ≠ dataDirective := by
  intro hop
  rw [encode_of_directive hop] at h
  have hop' : (trim (code raw)).takeWhile isSolid = dataDirective := by
    rwa [Statement.ofLine, String.toList_ofList] at hop
  obtain ⟨c, hc, hdata⟩ := exists_not_isDataChar (not_isData_of_ofLine hk) hop'
  have hblank : isBlank c = false := by
    simp only [isDataChar, Bool.or_eq_false_iff] at hdata
    exact hdata.2
  have hcomma : c ≠ ',' := by
    rintro rfl
    exact absurd hdata (by decide)
  obtain ⟨arg, harg, hmem⟩ := Statement.exists_mem_arguments hc hblank hcomma
  have read := isDataChar_of_mapM_byte h (List.mem_map_of_mem harg) c
  rw [String.toList_ofList, hdata] at read
  exact Bool.noConfusion (read hmem)

theorem length_of_encode_instruction {labels : Labels} {raw : List Char} {bytes : List UInt8}
    (hk : LineKind.ofLine raw = .instruction)
    (h : encode labels (Statement.ofLine raw) = .ok bytes) : bytes.length = 2 := by
  rw [encode, if_neg (op_of_encode_instruction hk h)] at h
  split at h
  · cases h
  · obtain ⟨i, -, rfl⟩ := map_eq_ok_iff.mp h
    exact Instruction.length_toBytes i

theorem length_of_encode_data {labels : Labels} {raw : List Char} {bytes : List UInt8}
    (hk : LineKind.ofLine raw = .data) (h : encode labels (Statement.ofLine raw) = .ok bytes) :
    bytes.length = (Statement.ofLine raw).args.length := by
  rw [encode_of_directive (op_of_data hk)] at h
  exact length_of_mapM_byte h

theorem kind_of_directive {labels : Labels} {raw : List Char} {bytes : List UInt8}
    (hop : (Statement.ofLine raw).op.toList = dataDirective)
    (h : encode labels (Statement.ofLine raw) = .ok bytes) : LineKind.ofLine raw = .data := by
  have hop' : (trim (code raw)).takeWhile isSolid = dataDirective := by
    rwa [Statement.ofLine, String.toList_ofList] at hop
  have split : trim (code raw) = dataDirective ++ (trim (code raw)).dropWhile isSolid := by
    rw [← hop', List.takeWhile_append_dropWhile]
  have hk : LineKind.ofLine raw = .ofCode (trim (code raw)) := by
    refine LineKind.ofLine_of_code fun hnil => ?_
    rw [hnil] at hop'
    cases hop'
  -- the name of a label has no dot
  have noLabel : labelName? (trim (code raw)) = none := by
    refine Option.eq_none_iff_forall_ne_some.mpr fun name hname => ?_
    obtain ⟨htext, hne, hchars⟩ := labelName?_eq_some_iff.mp hname
    obtain ⟨first, rest, rfl⟩ := List.exists_cons_of_ne_nil hne
    rw [split, dataDirective, List.cons_append, List.cons_append] at htext
    obtain rfl := (List.cons.inj htext).1
    exact absurd (hchars '.' List.mem_cons_self) (by decide)
  rw [hk, LineKind.ofCode, noLabel]
  dsimp only
  split
  · rfl
  · rename_i hdata
    refine absurd hop (op_of_encode_instruction ?_ h)
    rw [hk, LineKind.ofCode, noLabel]
    exact if_neg hdata

end ByteMachine.Source
