import Bop.Json.RoundTrip
import Bop.Plugin.Informix.Restore

/-!
# The Dump Round Trip

What a restore inserts when it reads a dump that was written from a result. A
cell passes through three encodings: the members of its document, of which
those that hold nothing are left out, the text of the document, and what
`cellToParam` makes of the members that are there.

The text loses nothing of a valid string. What the first step leaves out and
the third puts back agree for nulls, for every text and for every type, because
an absent text is the empty text and an absent type is type zero. They disagree
for one cell: bytes of length zero are left out, and a cell with neither text
nor bytes is an empty text.

## Main definitions

* `Cell.Sound`, `Cell.isEmptyBytes`: The cells a result holds.
* `paramOf`: The parameter that says what a cell says.
* `readBack`: The parameter a cell comes back as.
* `RoundTrips`: A restore inserts what was dumped.

## Theorems

* `readBack_eq_iff`: Which cells come back as they were.
* `restore_writeDump`: What a restore of a dump inserts.
* `dump_round_trip_iff`: Which results round trip.
* `not_round_trips`: One that does not.
-/

namespace Bop

namespace Informix

open Prog Json

/-! ### Cells -/

/-- A cell that is null, a valid text, or bytes. -/
def Cell.Sound (c : Cell) : Prop :=
  c.isNull = true ∨ (∃ cs : List Char, c.value = some (.text (Utf8.encode cs))) ∨
    ∃ b, c.value = some (.bytes b)

/-- A cell that holds bytes, but none. -/
def Cell.isEmptyBytes (c : Cell) : Prop := c.isNull = false ∧ c.value = some (.bytes [])

/-- The parameter that says what a cell says. A null says nothing else. -/
def paramOf (c : Cell) : Param := ⟨c.isNull, c.sqlType, if c.isNull then none else c.value⟩

/-- What is left of a byte slice that `omitempty` drops when it is empty. -/
def keptBytes (s : Option (GoSlice UInt8)) : Option (GoSlice UInt8) :=
  if (GoSlice.toList s).isEmpty then none else some ⟨GoSlice.toList s, []⟩

/-- What of a cell of a dump is left when its document is read. -/
def DumpCell.reread (c : DumpCell) : DumpCell := { c with bytesValue := keptBytes c.bytesValue }

/-- The parameter a cell comes back as. -/
def readBack (c : Cell) : Param := cellToParam (cellToDump c).reread

/-- Every cell comes back as it was, except for bytes of length zero. -/
theorem readBack_eq_iff (c : Cell) (hc : c.Sound) : readBack c = paramOf c ↔ ¬ c.isEmptyBytes := by
  rcases c with ⟨isNull, sqlType, value⟩
  cases isNull with
  | true =>
      refine ⟨fun _ hempty => ?_, fun _ => rfl⟩
      cases hempty.1
  | false =>
      rcases hc with hnull | ⟨cs, rfl⟩ | ⟨b, rfl⟩
      · cases hnull
      · refine ⟨fun _ hempty => ?_, fun _ => rfl⟩
        cases hempty.2
      · cases b with
        | nil =>
            constructor
            · intro h
              have hvalue := congrArg Param.value h
              cases hvalue
            · exact fun h => absurd ⟨rfl, rfl⟩ h
        | cons b bs =>
            refine ⟨fun _ hempty => ?_, fun _ => rfl⟩
            cases hempty.2

/-! ### Documents -/

section Decode

variable {α β : Type}

/-- The elements of an array that was written element by element. -/
theorem mapM_map_eq_some (dec : Json → Option β) (f : α → Json) (g : α → β) (as : List α)
    (h : ∀ a ∈ as, dec (f a) = some (g a)) : (as.map f).mapM dec = some (as.map g) := by
  induction as with
  | nil => rfl
  | cons a as ih =>
      rcases List.forall_mem_cons.mp h with ⟨ha, has⟩
      rw [List.map_cons, List.mapM_cons, ha, ih has]
      rfl

/-- A slice that was written element by element. -/
theorem decodeSlice_sliceJson (dec : Json → β → Option β) (zero : β) (f : α → Json) (g : α → β)
    (as stale : List α) (h : ∀ a ∈ as, dec (sanitize (f a)) zero = some (g a)) :
    decodeSlice dec zero (sanitize (sliceJson f (some ⟨as, stale⟩))) none =
      some (some ⟨as.map g, []⟩) := by
  rw [sliceJson, sanitize, sanitizeElements_eq, List.map_map]
  exact decodeSlice_fresh dec zero _ _ (mapM_map_eq_some _ _ g as h)

/-- A member that may be left out, and the members after it. -/
theorem decodeObject_omitEmpty (member : Bytes → Json → β → Option β) (empty : Bool)
    (name : Bytes) (v : Json) (ms : List (Bytes × Json)) (old : β)
    (hname : Utf8.sanitize name = name) :
    decodeObject member (sanitize (.obj (omitEmpty empty name v ++ ms))) old =
      (if empty then some old else member name (sanitize v) old).bind
        (decodeObject member (sanitize (.obj ms))) := by
  rw [sanitize, sanitizeMembers_append]
  cases empty with
  | true => rfl
  | false =>
      have hone : sanitizeMembers (omitEmpty false name v) = [(name, sanitize v)] := by
        change [(Utf8.sanitize name, sanitize v)] = _
        rw [hname]
      rw [hone]
      rfl

end Decode

section Members

variable (v : Json) (old : DumpCell)

theorem member_isNull : DumpCell.member "is_null" v old =
    (decodeBool v old.isNull).map (fun x => { old with isNull := x }) :=
  if_pos (by decide)

theorem member_sqlType : DumpCell.member "sql_type" v old =
    (decodeInt32 v old.sqlType).map (fun x => { old with sqlType := x }) := by
  rw [DumpCell.member, if_neg (by decide), if_pos (by decide)]

theorem member_textValue : DumpCell.member "text_value" v old =
    (decodePointer v old.textValue).map (fun x => { old with textValue := x }) := by
  rw [DumpCell.member, if_neg (by decide), if_neg (by decide), if_pos (by decide)]

theorem member_bytesValue : DumpCell.member "bytes_value" v old =
    (decodeByteSlice v old.bytesValue).map (fun x => { old with bytesValue := x }) := by
  rw [DumpCell.member, if_neg (by decide), if_neg (by decide), if_neg (by decide),
    if_pos (by decide)]

end Members

/-- An integer of 32 bits is read back. -/
theorem decodeInt32_int (i old : Int32) :
    decodeInt32 (sanitize (Json.int i.toInt)) old = some i := by
  have hbounds : (-2147483648 : Int) ≤ i.toInt ∧ i.toInt ≤ 2147483647 := by
    have h₁ := i.le_toInt
    have h₂ := i.toInt_lt
    omega
  simp only [decodeInt32, Json.int, sanitize, decodeInt, toInt_ofInt, if_pos hbounds,
    Option.map_some, Int32.ofInt_toInt]

/-- Bytes are read back from their Base64. -/
theorem decodeByteSlice_encode (b : Bytes) (old : Option (GoSlice UInt8)) :
    decodeByteSlice (sanitize (.str (Base64.encode b))) old = some (some ⟨b, []⟩) := by
  simp only [sanitize, Utf8.sanitize_ascii _ (Base64.encode_ascii b), decodeByteSlice,
    Base64.decode_encode, Option.map_some]

/-- A cell's document is read as the cell, its empty bytes forgotten. -/
theorem decode_cell (c : DumpCell) (htext : ∀ t, c.textValue = some t → Utf8.sanitize t = t) :
    DumpCell.decode (sanitize c.toJson) .zero = some c.reread := by
  rcases c with ⟨isNull, sqlType, textValue, bytesValue⟩
  -- The members are read from left to right, each into its own field.
  have hnull : (if decide (isNull = false) then some DumpCell.zero
      else DumpCell.member "is_null" (sanitize (.bool isNull)) .zero) =
        some { DumpCell.zero with isNull := isNull } := by
    cases isNull with
    | false => rfl
    | true => rw [if_neg (by decide), member_isNull]; rfl
  have htype : ∀ old : DumpCell, old.sqlType = 0 → (if decide (sqlType = 0) then some old
      else DumpCell.member "sql_type" (sanitize (Json.int sqlType.toInt)) old) =
        some { old with sqlType := sqlType } := by
    intro old hold
    by_cases h : sqlType = 0
    · rw [if_pos (decide_eq_true h), h, ← hold]
    · rw [if_neg (by simpa using h), member_sqlType, decodeInt32_int]
      rfl
  have htextValue : ∀ old : DumpCell, old.textValue = none → (if textValue.isNone then some old
      else DumpCell.member "text_value" (sanitize (.str (textValue.getD []))) old) =
        some { old with textValue := textValue } := by
    intro old hold
    cases textValue with
    | none => rw [if_pos (Option.isNone_none), ← hold]
    | some t =>
        rw [if_neg (Option.isNone_some ▸ Bool.false_ne_true), member_textValue, Option.getD_some,
          sanitize, htext t rfl]
        rfl
  have hbytes : ∀ old : DumpCell, old.bytesValue = none →
      (if (GoSlice.toList bytesValue).isEmpty then some old
      else DumpCell.member "bytes_value"
        (sanitize (.str (Base64.encode (GoSlice.toList bytesValue)))) old) =
        some { old with bytesValue := keptBytes bytesValue } := by
    intro old hold
    unfold keptBytes
    split
    · rw [← hold]
    · rw [member_bytesValue, decodeByteSlice_encode]
      rfl
  rw [DumpCell.toJson, DumpCell.decode, List.append_assoc, List.append_assoc,
    decodeObject_omitEmpty _ _ _ _ _ _ (by decide), hnull, Option.bind_some,
    decodeObject_omitEmpty _ _ _ _ _ _ (by decide), htype _ rfl, Option.bind_some,
    decodeObject_omitEmpty _ _ _ _ _ _ (by decide), htextValue _ rfl, Option.bind_some,
    ← List.append_nil (omitEmpty _ "bytes_value" _),
    decodeObject_omitEmpty _ _ _ _ _ _ (by decide), hbytes _ rfl, Option.bind_some]
  rfl

/-- A row's document is read as its cells. -/
theorem decode_row (cells : List DumpCell)
    (htext : ∀ c ∈ cells, ∀ t, c.textValue = some t → Utf8.sanitize t = t) :
    DumpRow.decode (sanitize (DumpRow.toJson ⟨some ⟨cells, []⟩⟩)) .zero =
      some ⟨some ⟨cells.map DumpCell.reread, []⟩⟩ := by
  have hcells := decodeSlice_sliceJson DumpCell.decode .zero DumpCell.toJson DumpCell.reread cells
    [] (fun c hc => decode_cell c (htext c hc))
  have hname : Utf8.sanitize "cells" = "cells" := by decide
  have hfield : isField "cells" "cells" = true := by decide
  rw [DumpRow.toJson, sanitize, sanitizeMembers, sanitizeMembers, hname]
  simp only [DumpRow.decode, decodeObject, List.foldlM_cons, List.foldlM_nil, hfield, if_true,
    DumpRow.zero, hcells, Option.map_some, Option.bind_eq_bind, Option.bind_some, Option.pure_def]

/-- A header's document is read as the header, the names of its columns
    sanitized. -/
theorem decode_header (table : Bytes) (columns : List DumpColumn)
    (htable : Utf8.sanitize table = table) :
    DumpHeader.decode (sanitize (DumpHeader.toJson ⟨table, some ⟨columns, []⟩⟩)) .zero =
      some ⟨table, some ⟨columns.map (fun c => ⟨Utf8.sanitize c.name⟩), []⟩⟩ := by
  have hcolumn : ∀ c : DumpColumn, DumpColumn.decode (sanitize c.toJson) .zero =
      some ⟨Utf8.sanitize c.name⟩ := by
    intro c
    have hname : Utf8.sanitize "name" = "name" := by decide
    have hfield : isField "name" "name" = true := by decide
    rw [DumpColumn.toJson, sanitize, sanitizeMembers, sanitizeMembers, hname, sanitize]
    simp only [DumpColumn.decode, decodeObject, List.foldlM_cons, List.foldlM_nil, hfield, if_true,
      decodeString, Option.map_some, Option.bind_eq_bind, Option.bind_some, Option.pure_def]
  have hcolumns := decodeSlice_sliceJson DumpColumn.decode .zero DumpColumn.toJson _ columns
    [] (fun c _ => hcolumn c)
  have hnames : Utf8.sanitize "table" = "table" ∧ Utf8.sanitize "columns" = "columns" := by decide
  have hfields : isField "table" "table" = true ∧ isField "table" "columns" = false ∧
      isField "columns" "columns" = true := by decide
  rw [DumpHeader.toJson, sanitize, sanitizeMembers, sanitizeMembers, sanitizeMembers, hnames.1,
    hnames.2, sanitize, htable]
  simp only [DumpHeader.decode, decodeObject, List.foldlM_cons, List.foldlM_nil, hfields.1,
    hfields.2.1, hfields.2.2, if_true, if_false, Bool.false_eq_true, decodeString, DumpHeader.zero,
    hcolumns, Option.map_some, Option.bind_eq_bind, Option.bind_some, Option.pure_def]

/-! ### Lines -/

theorem depth_cell (c : DumpCell) : depth c.toJson ≤ 1 := by
  have homit : ∀ (empty : Bool) (name : Bytes) (v : Json), depth v = 0 →
      ∀ m ∈ omitEmpty empty name v, depth m.2 ≤ 0 := by
    intro empty name v hv m hm
    unfold omitEmpty at hm
    split at hm
    · exact absurd hm List.not_mem_nil
    · rw [List.mem_singleton.mp hm, hv]
  rw [DumpCell.toJson, depth]
  refine Nat.succ_le_succ (depthMembers_le 0 _ fun m hm => ?_)
  simp only [List.mem_append] at hm
  rcases hm with ((hm | hm) | hm) | hm
  · exact homit _ _ _ (by simp only [depth]) m hm
  · exact homit _ _ _ (by simp only [Json.int, depth]) m hm
  · exact homit _ _ _ (by simp only [depth]) m hm
  · exact homit _ _ _ (by simp only [depth]) m hm

/-- An array in an object is as deep as its deepest element, and two more. -/
theorem depth_slice {α : Type} (f : α → Json) (n : Nat) (hf : ∀ a, depth (f a) ≤ n)
    (s : Option (GoSlice α)) : depth (sliceJson f s) ≤ n + 1 := by
  cases s with
  | none =>
      simp only [sliceJson, depth, Nat.zero_le]
  | some s =>
      rw [sliceJson, depth]
      refine Nat.succ_le_succ (depthElements_le n _ fun x hx => ?_)
      rcases List.mem_map.mp hx with ⟨a, _, rfl⟩
      exact hf a

theorem depth_row (r : DumpRow) : depth r.toJson ≤ maxNestingDepth := by
  have hcells := depth_slice DumpCell.toJson 1 depth_cell r.cells
  have hmembers : depthMembers [("cells", sliceJson DumpCell.toJson r.cells)] ≤ 2 :=
    depthMembers_le 2 _ fun m hm => by rw [List.mem_singleton.mp hm]; exact hcells
  rw [DumpRow.toJson, depth, maxNestingDepth]
  omega

theorem depth_header (h : DumpHeader) : depth h.toJson ≤ maxNestingDepth := by
  have hcolumn : ∀ c : DumpColumn, depth c.toJson ≤ 1 := by
    intro c
    rw [DumpColumn.toJson, depth]
    refine Nat.succ_le_succ (depthMembers_le 0 _ fun m hm => ?_)
    rw [List.mem_singleton.mp hm]
    simp only [depth, Nat.le_refl]
  have hcolumns := depth_slice DumpColumn.toJson 1 hcolumn h.columns
  have hmembers : depthMembers
      [("table", .str h.table), ("columns", sliceJson DumpColumn.toJson h.columns)] ≤ 2 := by
    refine depthMembers_le 2 _ fun m hm => ?_
    rcases List.mem_cons.mp hm with rfl | hm
    · simp only [depth, Nat.zero_le]
    · rw [List.mem_singleton.mp hm]
      exact hcolumns
  rw [DumpHeader.toJson, depth, maxNestingDepth]
  omega

/-- A cell that holds a valid text puts a valid text into the dump. -/
theorem text_sound (c : Cell) (hc : c.Sound) (t : Bytes)
    (ht : (cellToDump c).textValue = some t) : Utf8.sanitize t = t := by
  unfold cellToDump at ht
  rcases hc with hnull | ⟨cs, hvalue⟩ | ⟨b, hvalue⟩
  · rw [if_pos hnull] at ht
    cases ht
  · split at ht
    · cases ht
    · simp only [hvalue, Option.some.injEq] at ht
      rw [← ht, Utf8.sanitize_encode]
  · split at ht
    · cases ht
    · simp only [hvalue, reduceCtorEq] at ht

/-- The line of a row is read as the parameters its cells come back as. -/
theorem parseRow_rowOf (n : Nat) (row : List Cell) (hlen : row.length = n)
    (hsound : ∀ c ∈ row, c.Sound) :
    parseRow n (rowOf row).toJson.render = some (row.map readBack) := by
  have hdecode : decodeRow (rowOf row).toJson.render =
      some ⟨some ⟨(row.map cellToDump).map DumpCell.reread, []⟩⟩ := by
    rw [decodeRow, parse_render _ (depth_row _), Option.bind_eq_bind, Option.bind_some, rowOf]
    refine decode_row _ fun c hc t ht => ?_
    rcases List.mem_map.mp hc with ⟨cell, hcell, rfl⟩
    exact text_sound cell (hsound cell hcell) t ht
  simp only [parseRow, hdecode, GoSlice.toList, List.length_map, hlen, ne_eq, not_true_eq_false,
    if_false, List.map_map]
  rfl

theorem parseRows_rowOf (n : Nat) (rows : List (List Cell))
    (hlens : ∀ row ∈ rows, row.length = n) (hsound : ∀ row ∈ rows, ∀ c ∈ row, c.Sound) :
    parseRows n (rows.map (fun row => (rowOf row).toJson.render)) =
      some (rows.map (fun row => row.map readBack)) := by
  induction rows with
  | nil => rfl
  | cons row rows ih =>
      rcases List.forall_mem_cons.mp hlens with ⟨hlen, hlens⟩
      rcases List.forall_mem_cons.mp hsound with ⟨hrow, hsound⟩
      rw [List.map_cons, parseRows_cons, parseRow_rowOf n row hlen hrow, ih hlens hsound]
      rfl

theorem ascii_of_identStart (b : UInt8) (h : identStart b = true) : b < 128 := by
  simp only [identStart, Bool.decide_or, Bool.decide_and, Bool.or_eq_true, Bool.and_eq_true,
    decide_eq_true_eq, UInt8.le_iff_toNat_le] at h
  rw [UInt8.lt_iff_toNat_lt]
  rcases h with ⟨_, h⟩ | ⟨_, h⟩ | rfl
  · exact Nat.lt_of_le_of_lt h (by decide)
  · exact Nat.lt_of_le_of_lt h (by decide)
  · decide

theorem ascii_of_identPart (b : UInt8) (h : identPart b = true) : b < 128 := by
  simp only [identPart, Bool.decide_or, Bool.decide_and, Bool.decide_eq_true, Bool.or_eq_true,
    Bool.and_eq_true, decide_eq_true_eq, UInt8.le_iff_toNat_le] at h
  rcases h with h | ⟨_, h⟩
  · exact ascii_of_identStart b h
  · rw [UInt8.lt_iff_toNat_lt]
    exact Nat.lt_of_le_of_lt h (by decide)

/-- A table name is ASCII text. -/
theorem ascii_of_validTableName (s : Bytes) (h : validTableName s = true) : ∀ b ∈ s, b < 128 := by
  intro b hb
  rcases (identPart_of_validTableName s h).2 b hb with hpart | rfl
  · exact ascii_of_identPart b hpart
  · decide

theorem sanitize_validTableName (s : Bytes) (h : validTableName s = true) :
    Utf8.sanitize s = s := Utf8.sanitize_ascii s (ascii_of_validTableName s h)

section File

variable (table : Bytes) (result : QueryResult) (htable : validTableName table = true)
  (hcolumns : result.columns ≠ [])
  (hlens : ∀ row ∈ result.rows, row.length = result.columns.length)
  (hsound : ∀ row ∈ result.rows, ∀ c ∈ row, c.Sound)
  (hsize : ∀ line ∈ dumpLines table result, line.length < maxDumpLineSize)

/-- The lines of a dump hold no control characters. -/
theorem dumpLines_plain : ∀ line ∈ dumpLines table result, ∀ b ∈ line, ¬ b < 32 := by
  intro line hline
  rcases List.mem_cons.mp hline with rfl | hline
  · exact render_plain _
  · rcases List.mem_map.mp hline with ⟨row, _, rfl⟩
    exact render_plain _

include hsize in
/-- The scanner delivers the lines of a dump. -/
theorem scanDump_dumpLines :
    scanDump ⟨unlines (dumpLines table result), none⟩ = ⟨dumpLines table result, none⟩ := by
  have hplain := dumpLines_plain table result
  refine scanLines_unlines _ _ (fun line hline hnl => ?_) (fun line hline hcr => ?_) hsize
  · exact hplain line hline _ hnl (by decide)
  · exact hplain line hline _ hcr (by decide)

/-- The header of a dump as it is read. -/
def rereadHeader : DumpHeader :=
  ⟨table, some ⟨result.columns.map (fun col => ⟨Utf8.sanitize col.name⟩), []⟩⟩

include htable hcolumns hlens hsound hsize in
/-- A dump opens, and its rows are what the cells come back as. -/
theorem openDump_dumpLines :
    ∃ d, openDump ⟨unlines (dumpLines table result), none⟩ = .ok d ∧
      d.params = some (result.rows.map (fun row => row.map readBack)) := by
  -- The header is read back, and it names a table and columns.
  have hheader : decodeHeader (headerOf table result).toJson.render =
      some (rereadHeader table result) := by
    rw [decodeHeader, parse_render _ (depth_header _), Option.bind_eq_bind, Option.bind_some,
      headerOf, decode_header table _ (sanitize_validTableName table htable), List.map_map]
    rfl
  have hnamed : (rereadHeader table result).table ≠ [] := by
    intro hnil
    rw [show table = [] from hnil] at htable
    exact absurd htable (by decide)
  have hdeclared : GoSlice.toList (rereadHeader table result).columns ≠ [] :=
    fun hnil => hcolumns (List.map_eq_nil_iff.mp hnil)
  have hne := not_or.mpr ⟨hnamed, hdeclared⟩
  refine ⟨⟨rereadHeader table result, result.rows.map (fun row => (rowOf row).toJson.render), none,
    htable, hdeclared⟩, ?_, ?_⟩
  · have hvalid : validTableName (rereadHeader table result).table = true := htable
    rw [openDump, scanDump_dumpLines table result hsize]
    simp only [dumpLines, hheader, dif_neg hne, dif_pos hvalid]
  · simp only [Dump.params, if_true, Dump.columnCount]
    refine parseRows_rowOf _ _ (fun row hrow => ?_) hsound
    rw [hlens row hrow]
    exact (List.length_map _).symm

/-- The rows a restore inserted. -/
def inserts (tr : AgentTrace) : List (List Param) :=
  tr.filterMap (fun e => match e.1 with
    | .executeQuery _ _ params => some params
    | _ => none)

/-- A session in which every call succeeds, and that is no test, inserts what
    the dump says. -/
theorem inserts_session (cfg : Config) (d : Dump) (rows : List (List Param))
    (hparams : d.params = some rows) (tr : AgentTrace) (r : Except Bytes Unit)
    (h : Session cfg d false tr r) (hok : AllOk tr) : inserts tr = rows := by
  -- Where every call succeeded the session went on to its commit.
  cases h with
  | refused err msg x => exact absurd (hok _ List.mem_cons_self) Bool.false_ne_true
  | notBegun connID err msg x y =>
      exact absurd (hok _ (List.mem_cons_of_mem _ List.mem_cons_self)) Bool.false_ne_true
  | rolledBack connID rows' ins x y z _ _ _ hr =>
      exfalso
      rcases hr with ⟨_, htest⟩ | ⟨_, hnot⟩
      · cases htest
      · refine hnot ⟨by rw [hparams]; rfl, fun e he => hok e ?_⟩
        exact List.mem_append_left _ (List.mem_cons_of_mem _ (List.mem_cons_of_mem _ he))
  | committed connID rows' ins x y z _ hins hparams' =>
      rw [hparams, Option.some.injEq] at hparams'
      subst hparams'
      have hmap : inserts ins = rows := by
        have hfst : inserts ins = (ins.map Sigma.fst).filterMap (fun c => match c with
            | .executeQuery _ _ params => some params
            | _ => none) := by
          rw [List.filterMap_map]
          rfl
        rw [hfst, hins, List.filterMap_map]
        exact List.filterMap_some
      change inserts (ins ++ _) = rows
      rw [inserts, List.filterMap_append]
      change inserts ins ++ [] = rows
      rw [List.append_nil, hmap]

/-- A dump can be written. -/
theorem exists_writeDump (path : Bytes) :
    ∃ trw, Runs (writeDump path table result) trw (.ok ()) := by
  have hrows : ∀ rows, (exec accept (writeRows path rows) ()).1 = .ok () := by
    intro rows
    induction rows with
    | nil => rfl
    | cons row rows ih => exact ih
  have hwritten : (exec accept (writeDump path table result) ()).1 = .ok () := hrows result.rows
  rcases runs_accept (writeDump path table result) with ⟨trw, hwrite, _⟩
  exact ⟨trw, hwritten ▸ hwrite⟩

/-- A restore of a dump inserts, row by row, the parameters that say what the
    cells of the result say, if the restore is no test and every call succeeds. -/
def RoundTrips : Prop :=
  ∀ (cfg : Config) (a : Artifact) (path : Bytes) (trw tr : PluginTrace) (r : Except Bytes Unit),
    Runs (writeDump path table result) trw (.ok ()) →
    isRestoreTest a = false →
    Runs (restore cfg a) (⟨.openFile a.path, .ok ⟨written trw, none⟩⟩ :: tr) r →
    (∀ e ∈ tr, succeeded e = true) →
    inserts (agentTrace tr) = result.rows.map (fun row => row.map paramOf)

include htable hcolumns hlens hsound hsize in
/-- What a restore of a dump inserts. -/
theorem restore_writeDump (cfg : Config) (a : Artifact) (path : Bytes) (trw tr : PluginTrace)
    (r : Except Bytes Unit) (hwrite : Runs (writeDump path table result) trw (.ok ()))
    (htest : isRestoreTest a = false)
    (hrestore : Runs (restore cfg a) (⟨.openFile a.path, .ok ⟨written trw, none⟩⟩ :: tr) r)
    (hok : ∀ e ∈ tr, succeeded e = true) :
    inserts (agentTrace tr) = result.rows.map (fun row => row.map readBack) := by
  rw [writeDump_runs path table result trw hwrite, restore_opened] at hrestore
  rcases openDump_dumpLines table result htable hcolumns hlens hsound hsize with ⟨d, hd, hparams⟩
  have hall := allOk_of_succeeded tr hok
  rcases restoreFrom_session cfg a _ tr r hrestore with
    ⟨_, _, hnone | ⟨e, he, hfail⟩⟩ | ⟨d', hd', hsession⟩
  · rw [hd] at hnone
    cases hnone
  · rw [hok e he] at hfail
    cases hfail
  · rw [hd] at hd'
    cases hd'
    rw [htest] at hsession
    exact inserts_session cfg d _ hparams _ r hsession hall

include htable hcolumns hlens hsound hsize in
/-- A result round trips when every cell comes back as it was. -/
theorem roundTrips_iff_readBack :
    RoundTrips table result ↔ ∀ row ∈ result.rows, ∀ c ∈ row, readBack c = paramOf c := by
  have hcells : (∀ row ∈ result.rows, ∀ c ∈ row, readBack c = paramOf c) ↔
      result.rows.map (fun row => row.map readBack) =
        result.rows.map (fun row => row.map paramOf) := by
    rw [List.map_inj_left]
    exact forall₂_congr fun row _ => List.map_inj_left.symm
  rw [hcells]
  constructor
  · intro h
    rcases exists_writeDump table result [] with ⟨trw, hwrite⟩
    let cfg : Config := ⟨[], 0, [], [], [], [], []⟩
    let a : Artifact := ⟨[], [], [], [], 0, [], false, 0⟩
    rcases runs_accept (restoreFrom cfg a ⟨written trw, none⟩) with ⟨tr, hfrom, hok⟩
    have hrestore := (restore_opened cfg a ⟨written trw, none⟩ tr _).mpr hfrom
    have htest : isRestoreTest a = false := by decide
    rw [← restore_writeDump table result htable hcolumns hlens hsound hsize cfg a [] trw tr _
      hwrite htest hrestore hok]
    exact h cfg a [] trw tr _ hwrite htest hrestore hok
  · intro h cfg a path trw tr r hwrite htest hrestore hok
    rw [restore_writeDump table result htable hcolumns hlens hsound hsize cfg a path trw tr r
      hwrite htest hrestore hok, h]

/-- Which results round trip: those without bytes of length zero. -/
theorem dump_round_trip_iff (htable : validTableName table = true) (hcolumns : result.columns ≠ [])
    (hlens : ∀ row ∈ result.rows, row.length = result.columns.length)
    (hsound : ∀ row ∈ result.rows, ∀ c ∈ row, c.Sound)
    (hsize : ∀ line ∈ dumpLines table result, line.length < maxDumpLineSize) :
    RoundTrips table result ↔ ∀ row ∈ result.rows, ∀ c ∈ row, ¬ c.isEmptyBytes := by
  rw [roundTrips_iff_readBack table result htable hcolumns hlens hsound hsize]
  exact forall₂_congr fun row hrow => forall₂_congr fun c hc =>
    readBack_eq_iff c (hsound row hrow c hc)

end File

/-- A result with a null, an empty text and bytes. -/
def lobResult : QueryResult :=
  ⟨[⟨"id"⟩, ⟨"note"⟩, ⟨"image"⟩],
    [[⟨true, 2, none⟩, ⟨false, 0, some (.text [])⟩, ⟨false, 11, some (.bytes [0, 255])⟩]]⟩

/-- It round trips. -/
theorem dump_round_trip_lob : RoundTrips "stores.lobs" lobResult := by
  refine (dump_round_trip_iff "stores.lobs" lobResult (by decide) (List.cons_ne_nil _ _)
    (by decide) ?_ (by decide)).mpr ?_
  · intro row hrow c hc
    rw [List.mem_singleton.mp hrow] at hc
    simp only [List.mem_cons, List.not_mem_nil, or_false] at hc
    rcases hc with rfl | rfl | rfl
    · exact Or.inl rfl
    · exact Or.inr (Or.inl ⟨[], rfl⟩)
    · exact Or.inr (Or.inr ⟨_, rfl⟩)
  · intro row hrow c hc
    rw [List.mem_singleton.mp hrow] at hc
    simp only [List.mem_cons, List.not_mem_nil, or_false] at hc
    rcases hc with rfl | rfl | rfl <;> rintro ⟨_, hvalue⟩ <;> cases hvalue

/-- A result with bytes of length zero. -/
def emptyLobResult : QueryResult := ⟨[⟨"image"⟩], [[⟨false, 11, some (.bytes [])⟩]]⟩

/-- It comes back as an empty text. -/
theorem not_round_trips : ¬ ∀ (table : Bytes) (result : QueryResult),
    validTableName table = true → result.columns ≠ [] →
    (∀ row ∈ result.rows, row.length = result.columns.length) →
    (∀ row ∈ result.rows, ∀ c ∈ row, c.Sound) →
    (∀ line ∈ dumpLines table result, line.length < maxDumpLineSize) →
    RoundTrips table result := by
  intro hall
  have hsound : ∀ row ∈ emptyLobResult.rows, ∀ c ∈ row, c.Sound := by
    intro row hrow c hc
    rw [List.mem_singleton.mp hrow, List.mem_singleton] at hc
    rw [hc]
    exact Or.inr (Or.inr ⟨_, rfl⟩)
  have hsize : ∀ line ∈ dumpLines "lobs" emptyLobResult, line.length < maxDumpLineSize := by decide
  have hround := hall "lobs" emptyLobResult (by decide) (List.cons_ne_nil _ _) (by decide) hsound
    hsize
  rw [roundTrips_iff_readBack "lobs" emptyLobResult (by decide) (List.cons_ne_nil _ _) (by decide)
    hsound hsize] at hround
  have hcell := hround _ List.mem_cons_self _ List.mem_cons_self
  exact absurd hcell (by decide)

end Informix

end Bop
