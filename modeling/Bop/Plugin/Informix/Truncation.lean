import Bop.Json.Prefix
import Bop.Plugin.Informix.Protocol
import Bop.Plugin.Informix.RoundTrip

/-!
# Truncated Dumps

A dump has no trailer, and its header does not say how many rows follow. When
its end is cut off inside a line, what is left of that line is no document, and
a restore that comes to it rolls back. When it is cut off between two lines,
what is left is a dump of its own: nothing tells it from one that was written of
fewer rows. Then it is restored as complete, if the result can be restored at
all.

## Main definitions

* `Caught`: An artifact that is refused, or whose restore fails without a
  commit.
* `ReadsWhole`: What is left of a dump is a dump that can be restored.

## Theorems

* `caught_iff`: Which artifacts are caught.
* `parse_cut`: What is left of a line is no document.
* `wellFormed_prefix_iff`: What is left of a dump is well formed if it reads
  whole.
* `truncation_caught_iff`: Which truncated dumps are caught.
* `not_truncation_caught`: One that is not.
-/

namespace Bop

namespace Informix

open Prog Json

/-- The artifact is refused when it is verified, or every restore of it fails and
    does not even ask for a commit. -/
def Caught (cfg : Config) (a : Artifact) (file : FileContent) : Prop :=
  (∀ tr r, Runs (verify a) (⟨.openFile a.path, .ok file⟩ :: tr) r → r.isOk = false) ∨
    ∀ tr r, Runs (restore cfg a) (⟨.openFile a.path, .ok file⟩ :: tr) r →
      r.isOk = false ∧ ¬ CommitAttempted (agentTrace tr)

/-- What is left of a dump ends with a line that is whole, with or without its
    newline, and can be restored: the table has a valid name, the result has
    columns, the rows that are left have a cell for each of them, and their lines
    fit the buffer. -/
def ReadsWhole (table : Bytes) (result : QueryResult) (p : Bytes) : Prop :=
  ∃ k, splitLines p = (dumpLines table result).take (k + 1) ∧
    validTableName table = true ∧ result.columns ≠ [] ∧
    (∀ row ∈ result.rows.take k, row.length = result.columns.length) ∧
    ∀ line ∈ splitLines p, line.length < maxDumpLineSize

/-! ### Artifacts that are caught -/

/-- What an artifact that opens consists of. -/
theorem openDump_ok (file : FileContent) (d : Dump) (h : openDump file = .ok d) :
    ∃ line, scanDump file = ⟨line :: d.rows, d.err⟩ ∧ decodeHeader line = some d.header := by
  unfold openDump at h
  dsimp only at h
  split at h
  · split at h <;> cases h
  · next line rows hlines =>
      split at h
      · cases h
      · next header hheader =>
          split at h
          · cases h
          · split at h
            · cases h
              exact ⟨line, by rw [← hlines], hheader⟩
            · cases h

/-- The header of an artifact that opens has both its parts. -/
theorem header_present (d : Dump) :
    ¬ (d.header.table = [] ∨ GoSlice.toList d.header.columns = []) := by
  rintro (htable | hcolumns)
  · have hnamed := d.named
    rw [htable] at hnamed
    exact absurd hnamed (by decide)
  · exact d.declared hcolumns

/-- An artifact that opens is not refused. -/
theorem verify_of_openDump (a : Artifact) (file : FileContent) (d : Dump)
    (h : openDump file = .ok d) :
    Runs (verify a) [⟨.openFile a.path, .ok file⟩] (.ok ()) := by
  rcases openDump_ok file d h with ⟨line, hscan, hheader⟩
  refine (runs_call_iff _ _ _ _).mpr ⟨.ok file, [], rfl, ?_⟩
  simp only [Prog.bind, hscan, hheader, if_neg (header_present d)]
  exact Runs.ret _

/-- Which artifacts are well formed, by their lines. -/
theorem wellFormed_iff (file : FileContent) : WellFormed file ↔
    ∃ line rows header, scanDump file = ⟨line :: rows, none⟩ ∧ decodeHeader line = some header ∧
      validTableName header.table = true ∧ GoSlice.toList header.columns ≠ [] ∧
      (parseRows (GoSlice.toList header.columns).length rows).isSome = true := by
  constructor
  · rintro ⟨d, hd, hparams⟩
    rcases openDump_ok file d hd with ⟨line, hscan, hheader⟩
    by_cases herr : d.err = none
    · rw [Dump.params, if_pos herr] at hparams
      rw [herr] at hscan
      exact ⟨line, d.rows, d.header, hscan, hheader, d.named, d.declared, hparams⟩
    · rw [Dump.params, if_neg herr] at hparams
      cases hparams
  · rintro ⟨line, rows, header, hscan, hheader, hnamed, hdeclared, hparams⟩
    let d : Dump := ⟨header, rows, none, hnamed, hdeclared⟩
    refine ⟨d, ?_, hparams⟩
    have hpresent : ¬ (header.table = [] ∨ GoSlice.toList header.columns = []) := header_present d
    rw [openDump]
    simp only [hscan, hheader, dif_neg hpresent, dif_pos hnamed, d]

/-- A session that is no test succeeds when its dump can be read to its end and
    every call does. -/
theorem isOk_session (cfg : Config) (d : Dump) (tr : AgentTrace) (r : Except Bytes Unit)
    (h : Session cfg d false tr r) (hparams : d.params.isSome = true) (hok : AllOk tr) :
    r.isOk = true := by
  cases h with
  | refused err msg x => exact absurd (hok _ List.mem_cons_self) Bool.false_ne_true
  | notBegun connID err msg x y =>
      exact absurd (hok _ (List.mem_cons_of_mem _ List.mem_cons_self)) Bool.false_ne_true
  | rolledBack connID rows ins x y z _ _ _ hr =>
      exfalso
      rcases hr with ⟨_, htest⟩ | ⟨_, hnot⟩
      · cases htest
      · refine hnot ⟨hparams, fun e he => hok e ?_⟩
        exact List.mem_append_left _ (List.mem_cons_of_mem _ (List.mem_cons_of_mem _ he))
  | committed connID rows ins x y z _ _ _ _ _ hr =>
      rw [hr]
      exact hok _ (List.mem_append_right _ List.mem_cons_self)

/-- The artifacts that are caught are those that are not well formed. -/
theorem caught_iff (cfg : Config) (a : Artifact) (file : FileContent)
    (htest : isRestoreTest a = false) : Caught cfg a file ↔ ¬ WellFormed file := by
  constructor
  · rintro hcaught ⟨d, hd, hparams⟩
    rcases hcaught with hverify | hrestore
    · cases hverify _ _ (verify_of_openDump a file d hd)
    · -- Every call of the restore can succeed, and then it does.
      rcases runs_accept (restoreFrom cfg a file) with ⟨tr, hfrom, hok⟩
      have hall := allOk_of_succeeded tr hok
      rcases restoreFrom_session cfg a file tr _ hfrom with
        ⟨_, _, hclosed | ⟨e, he, hfail⟩⟩ | ⟨d', hd', hsession⟩
      · rw [hd] at hclosed
        cases hclosed
      · rw [hok e he] at hfail
        cases hfail
      · rw [hd] at hd'
        cases hd'
        rw [htest] at hsession
        have hfail := (hrestore tr _ ((restore_opened cfg a file tr _).mpr hfrom)).1
        rw [isOk_session cfg d _ _ hsession hparams hall] at hfail
        cases hfail
  · intro hwell
    refine Or.inr fun tr r hr => ?_
    -- Without a well-formed dump nothing is committed, so the restore cannot have succeeded.
    have hnone : ¬ CommitAttempted (agentTrace tr) := fun hcommit =>
      hwell ((commit_restore cfg a file tr r hr).mp hcommit).2.1
    refine ⟨?_, hnone⟩
    cases r with
    | error err => rfl
    | ok u =>
        rcases committed_restore cfg a file tr hr htest with ⟨connID, hmem⟩
        exact absurd ⟨connID, List.mem_map_of_mem hmem⟩ hnone

/-! ### Lines of any text -/

/-- A cell as its document says it: the stray bytes of its text are replaced. -/
def DumpCell.rendered (c : DumpCell) : DumpCell :=
  { c with textValue := c.textValue.map Utf8.sanitize }

theorem sanitize_rendered (c : DumpCell) : sanitize c.rendered.toJson = sanitize c.toJson := by
  rcases c with ⟨isNull, sqlType, textValue, bytesValue⟩
  cases textValue with
  | none => rfl
  | some t =>
      simp only [DumpCell.toJson, DumpCell.rendered, Option.map_some, Option.getD_some,
        Option.isNone_some, sanitize, sanitizeMembers_append, omitEmpty, Bool.false_eq_true,
        if_false, sanitizeMembers, Utf8.sanitize_idem]
      rfl

/-- The document of a row reads as a row of as many cells. -/
theorem decodeRow_rowOf (row : List Cell) :
    ∃ cells, decodeRow (rowOf row).toJson.render = some ⟨some ⟨cells, []⟩⟩ ∧
      cells.length = row.length := by
  let cells := (row.map cellToDump).map DumpCell.rendered
  have hsame : sanitize (rowOf row).toJson = sanitize (DumpRow.toJson ⟨some ⟨cells, []⟩⟩) := by
    have hcell : sanitize ∘ DumpCell.toJson ∘ DumpCell.rendered ∘ cellToDump =
        sanitize ∘ DumpCell.toJson ∘ cellToDump := funext fun c => sanitize_rendered (cellToDump c)
    simp only [rowOf, DumpRow.toJson, sliceJson, sanitize, sanitizeMembers, sanitizeElements_eq,
      List.map_map, cells, hcell]
  have htext : ∀ c ∈ cells, ∀ t, c.textValue = some t → Utf8.sanitize t = t := by
    intro c hc t ht
    rcases List.mem_map.mp hc with ⟨c', _, rfl⟩
    rcases Option.map_eq_some_iff.mp ht with ⟨t', _, rfl⟩
    exact Utf8.sanitize_idem t'
  refine ⟨cells.map DumpCell.reread, ?_, by simp only [cells, List.length_map]⟩
  rw [decodeRow, parse_render _ (depth_row _), Option.bind_eq_bind, Option.bind_some, hsame]
  exact decode_row cells htext

/-- The line of a row is read if the row has the declared number of cells. -/
theorem parseRow_isSome_iff (n : Nat) (row : List Cell) :
    (parseRow n (rowOf row).toJson.render).isSome = true ↔ row.length = n := by
  rcases decodeRow_rowOf row with ⟨cells, hdecode, hlen⟩
  simp only [parseRow, hdecode, GoSlice.toList, hlen]
  by_cases h : row.length = n
  · rw [if_neg (not_not.mpr h)]
    exact iff_of_true rfl h
  · rw [if_pos h]
    exact iff_of_false Bool.false_ne_true h

/-- The first line of a dump is read as the header it says. -/
theorem decodeHeader_headerOf (table : Bytes) (result : QueryResult) :
    decodeHeader (headerOf table result).toJson.render =
      some (rereadHeader (Utf8.sanitize table) result) := by
  have hsame : sanitize (headerOf table result).toJson =
      sanitize (headerOf (Utf8.sanitize table) result).toJson := by
    simp only [headerOf, DumpHeader.toJson, sanitize, sanitizeMembers, Utf8.sanitize_idem]
  rw [decodeHeader, parse_render _ (depth_header _), Option.bind_eq_bind, Option.bind_some, hsame,
    headerOf, decode_header _ _ (Utf8.sanitize_idem table), List.map_map]
  rfl

/-- A table has a valid name if its document says a valid name. -/
theorem validTableName_sanitize (table : Bytes) :
    validTableName (Utf8.sanitize table) = true ↔ validTableName table = true := by
  constructor
  · intro h
    rw [← Utf8.sanitize_eq_of_ascii table (ascii_of_validTableName _ h)]
    exact h
  · intro h
    rw [sanitize_validTableName table h]
    exact h

/-- All rows are read if each is. -/
theorem parseRows_isSome_iff (n : Nat) (lines : List Bytes) :
    (parseRows n lines).isSome = true ↔ ∀ line ∈ lines, (parseRow n line).isSome = true := by
  induction lines with
  | nil => exact iff_of_true rfl fun _ hmem => absurd hmem List.not_mem_nil
  | cons line rest ih =>
      rw [parseRows_cons, List.forall_mem_cons, ← ih]
      cases parseRow n line with
      | none => exact iff_of_false Bool.false_ne_true fun h => Bool.false_ne_true h.1
      | some params => rw [Option.bind_some, Option.isSome_map]; simp only [Option.isSome_some,
          true_and]

/-! ### What is left of a dump -/

section Cut

variable (table : Bytes) (result : QueryResult)

/-- What is left of a line is no document. -/
theorem parse_cut (line q : Bytes) (hline : line ∈ dumpLines table result) (hq : q <+: line)
    (hne : q ≠ line) : parse q = none := by
  rcases List.mem_cons.mp hline with rfl | hrow
  · exact parse_prefix_obj _ (depth_header (headerOf table result)) q hq hne
  · rcases List.mem_map.mp hrow with ⟨row, _, rfl⟩
    exact parse_prefix_obj _ (depth_row (rowOf row)) q hq hne

variable (p : Bytes) (hcut : p <+: unlines (dumpLines table result))

include hcut in
/-- What is left of a dump consists of whole lines, and perhaps of a last one
    that is no document. -/
theorem splitLines_cut :
    ∃ k, splitLines p = (dumpLines table result).take k ∨
      ∃ q, parse q = none ∧ (∀ b ∈ q, ¬ b < 32) ∧
        splitLines p = (dumpLines table result).take k ++ [q] := by
  have hplain := dumpLines_plain table result
  rcases splitLines_prefix _ (fun line hline hnl => hplain line hline _ hnl (by decide)) p hcut with
    ⟨k, hk | ⟨line, q, hget, hq, hne, hk⟩⟩
  · exact ⟨k, Or.inl hk⟩
  · have hline := List.mem_of_getElem? hget
    refine ⟨k, Or.inr ⟨q, parse_cut table result line q hline hq hne, ?_, hk⟩⟩
    exact fun b hb => hplain line hline b (hq.subset hb)

include hcut in
/-- The scanner delivers what is left without an error if it fits the buffer. -/
theorem scanDump_cut (lines : List Bytes) : scanDump ⟨p, none⟩ = ⟨lines, none⟩ ↔
    splitLines p = lines ∧ ∀ line ∈ splitLines p, line.length < maxDumpLineSize := by
  have hcr : ∀ line ∈ splitLines p, (13 : UInt8) ∉ line := by
    intro line hline hmem
    have hwhole : ∀ k, line ∈ (dumpLines table result).take k → False := fun k hk =>
      dumpLines_plain table result line (List.mem_of_mem_take hk) _ hmem (by decide)
    rcases splitLines_cut table result p hcut with ⟨k, hk | ⟨q, _, hq, hk⟩⟩
    · exact hwhole k (hk ▸ hline)
    · rw [hk] at hline
      rcases List.mem_append.mp hline with hline | hline
      · exact hwhole k hline
      · rw [List.mem_singleton.mp hline] at hmem
        exact hq _ hmem (by decide)
  constructor
  · intro hscan
    have hfits := fits_of_deliver maxDumpLineSize none (splitLines p) (congrArg Scan.err hscan)
    have hlines := congrArg Scan.lines hscan
    rw [scanDump, scanLines, deliver_of_fits _ _ _ hfits, map_dropCR _ hcr] at hlines
    exact ⟨hlines, hfits⟩
  · rintro ⟨rfl, hfits⟩
    rw [scanDump, scanLines, deliver_of_fits _ _ _ hfits, map_dropCR _ hcr]

/-- The lines of the first rows are read if these rows have the declared number of
    cells. -/
theorem parseRows_take (n k : Nat) :
    (parseRows n ((result.rows.map (fun row => (rowOf row).toJson.render)).take k)).isSome = true ↔
      ∀ row ∈ result.rows.take k, row.length = n := by
  rw [parseRows_isSome_iff, ← List.map_take, List.forall_mem_map]
  exact forall₂_congr fun row _ => parseRow_isSome_iff n row

include hcut in
/-- What is left of a dump is well formed if it reads whole. -/
theorem wellFormed_prefix_iff : WellFormed ⟨p, none⟩ ↔ ReadsWhole table result p := by
  have hheader := decodeHeader_headerOf table result
  have hcount : (GoSlice.toList (rereadHeader (Utf8.sanitize table) result).columns).length =
      result.columns.length := List.length_map _
  rw [wellFormed_iff]
  constructor
  · rintro ⟨line, rows, header, hscan, hline, hnamed, hdeclared, hrows⟩
    rcases (scanDump_cut table result p hcut _).mp hscan with ⟨hlines, hfits⟩
    rcases splitLines_cut table result p hcut with ⟨k, hk | ⟨q, hq, _, hk⟩⟩
    · cases k with
      | zero =>
          rw [hlines] at hk
          cases hk
      | succ k =>
          -- The first line is the header, and the others are the first rows.
          have hsame := hlines.symm.trans hk
          rw [dumpLines, List.take_succ_cons, List.cons.injEq] at hsame
          rcases hsame with ⟨rfl, rfl⟩
          rw [hheader, Option.some.injEq] at hline
          subst hline
          rw [hcount, parseRows_take] at hrows
          refine ⟨k, hk, (validTableName_sanitize table).mp hnamed, ?_, hrows, hfits⟩
          rintro hnil
          rw [rereadHeader, hnil] at hdeclared
          exact hdeclared rfl
    · exfalso
      have hsame := hlines.symm.trans hk
      cases k with
      | zero =>
          -- The header itself is cut off.
          rcases List.cons.inj hsame with ⟨rfl, _⟩
          rw [decodeHeader, hq] at hline
          cases hline
      | succ k =>
          rcases List.cons.inj hsame with ⟨_, rfl⟩
          have hlast := (parseRows_isSome_iff _ _).mp hrows q
            (List.mem_append_right _ (List.mem_singleton_self q))
          rw [parseRow, decodeRow, hq] at hlast
          cases hlast
  · rintro ⟨k, hk, hnamed, hcolumns, hlens, hfits⟩
    have hlines := hk.trans (List.take_succ_cons)
    refine ⟨_, _, rereadHeader (Utf8.sanitize table) result,
      (scanDump_cut table result p hcut _).mpr ⟨hlines, hfits⟩, hheader,
      (validTableName_sanitize table).mpr hnamed, ?_, ?_⟩
    · exact fun hnil => hcolumns (List.map_eq_nil_iff.mp hnil)
    · rw [hcount, parseRows_take]
      exact hlens

end Cut

/-- A dump whose end was cut off is caught exactly if what is left does not read
    whole. -/
theorem truncation_caught_iff (cfg : Config) (a : Artifact) (table path : Bytes)
    (result : QueryResult) (trw : PluginTrace) (p : Bytes) (htest : isRestoreTest a = false)
    (hwrite : Runs (writeDump path table result) trw (.ok ())) (hcut : p <+: written trw) :
    Caught cfg a ⟨p, none⟩ ↔ ¬ ReadsWhole table result p := by
  rw [writeDump_runs path table result trw hwrite] at hcut
  rw [caught_iff cfg a _ htest, wellFormed_prefix_iff table result p hcut]

/-- A result with two rows. -/
def twoOrders : QueryResult :=
  ⟨[⟨"id"⟩], [[⟨false, 2, some (.text "7")⟩], [⟨false, 2, some (.text "8")⟩]]⟩

/-- Its dump up to the middle of the second row is caught. -/
theorem truncation_caught_row : ∃ trw, Runs (writeDump [] "orders" twoOrders) trw (.ok ()) ∧
    Caught ordersConfig ordersArtifact
      ⟨unlines ((dumpLines "orders" twoOrders).take 2) ++ ordersLine.take 20, none⟩ := by
  rcases exists_writeDump "orders" twoOrders [] with ⟨trw, hwrite⟩
  refine ⟨trw, hwrite, (truncation_caught_iff ordersConfig ordersArtifact "orders" [] twoOrders trw
    _ (by decide) hwrite ?_).mpr ?_⟩
  · rw [writeDump_runs [] "orders" twoOrders trw hwrite]
    decide
  · rintro ⟨k, hlines, _⟩
    have hmem : ordersLine.take 20 ∈ (dumpLines "orders" twoOrders).take (k + 1) := by
      rw [← hlines]
      decide
    exact absurd (List.mem_of_mem_take hmem) (by decide)

/-- Its dump up to the end of the first row is restored as complete. -/
theorem not_truncation_caught : ¬ ∀ (cfg : Config) (a : Artifact) (table path : Bytes)
    (result : QueryResult) (trw : PluginTrace) (p : Bytes), isRestoreTest a = false →
    result.rows ≠ [] → Runs (writeDump path table result) trw (.ok ()) → p <+: written trw →
    -- More is missing than the last newline.
    p.length + 1 < (written trw).length → Caught cfg a ⟨p, none⟩ := by
  intro hall
  rcases exists_writeDump "orders" twoOrders [] with ⟨trw, hwrite⟩
  have hwritten := writeDump_runs [] "orders" twoOrders trw hwrite
  have hcut : unlines ((dumpLines "orders" twoOrders).take 2) <+:
      unlines (dumpLines "orders" twoOrders) := by decide
  have hcaught := hall ordersConfig ordersArtifact "orders" [] twoOrders trw
    (unlines ((dumpLines "orders" twoOrders).take 2)) (by decide) (List.cons_ne_nil _ _) hwrite
    (hwritten ▸ hcut) (by rw [hwritten]; decide +kernel)
  rw [caught_iff _ _ _ (by decide), wellFormed_prefix_iff "orders" twoOrders _ hcut] at hcaught
  exact hcaught ⟨1, by decide, by decide, List.cons_ne_nil _ _, by decide, by decide⟩

end Informix

end Bop
