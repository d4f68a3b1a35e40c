import Bop.Json.Decode
import Bop.Plugin.Informix.Agent

/-!
# The Dump Format

A dump is a file of JSON documents, one on each line: a header that names the
table and its columns, and then one document for each row. A cell is written as
four optional members, and the encoder leaves out each one that holds the zero
value of its type, or nothing.

What is read back need not be what was written, and `cellToParam` decides what
a cell means: null if it says so, bytes if there are any, and text otherwise.

## Main definitions

* `DumpHeader`, `DumpCell`, `DumpRow`: The documents.
* `cellToDump`, `cellToParam`: A cell on its way into a dump and out of it.
* `writeDump`: Writing a result.
* `dumpLines`: The lines that are written.
* `decodeHeader`, `decodeRow`: Reading a line.

## Theorems

* `writeDump_runs`: What a dump that was written holds.
-/

namespace Bop

namespace Informix

open Prog Json

/-- `maxDumpLineSize`: 64 MB. -/
def maxDumpLineSize : Nat := 64 * 1024 * 1024

structure DumpColumn where
  name : Bytes
  deriving DecidableEq

/-- The first line of a dump. -/
structure DumpHeader where
  table : Bytes
  columns : Option (GoSlice DumpColumn)
  deriving DecidableEq

/-- A cell in a dump. -/
structure DumpCell where
  isNull : Bool
  sqlType : Int32
  textValue : Option Bytes
  bytesValue : Option (GoSlice UInt8)
  deriving DecidableEq

/-- Every line after the first. -/
structure DumpRow where
  cells : Option (GoSlice DumpCell)
  deriving DecidableEq

/-- The zero values. -/
def DumpColumn.zero : DumpColumn := ⟨[]⟩

def DumpHeader.zero : DumpHeader := ⟨[], none⟩

def DumpCell.zero : DumpCell := ⟨false, 0, none, none⟩

def DumpRow.zero : DumpRow := ⟨none⟩

/-- A cell as it goes into a dump. One without a value is written as null. -/
def cellToDump (cell : Cell) : DumpCell :=
  if cell.isNull then ⟨true, cell.sqlType, none, none⟩
  else match cell.value with
    | some (.text text) => ⟨false, cell.sqlType, some text, none⟩
    | some (.bytes b) => ⟨false, cell.sqlType, none, some ⟨b, []⟩⟩
    | none => ⟨true, cell.sqlType, none, none⟩

/-- A cell of a dump as a parameter. -/
def cellToParam (cell : DumpCell) : Param :=
  if cell.isNull then ⟨true, cell.sqlType, none⟩
  else match cell.bytesValue with
    | some b => ⟨false, cell.sqlType, some (.bytes b.elems)⟩
    | none => ⟨false, cell.sqlType, some (.text (cell.textValue.getD []))⟩

/-! ### Writing -/

/-- A member that `omitempty` leaves out. -/
def omitEmpty (empty : Bool) (name : Bytes) (v : Json) : List (Bytes × Json) :=
  if empty then [] else [(name, v)]

/-- A slice as a document. A nil one is `null`. -/
def sliceJson {α : Type} (f : α → Json) : Option (GoSlice α) → Json
  | none => .null
  | some s => .arr (s.elems.map f)

def DumpColumn.toJson (c : DumpColumn) : Json := .obj [("name", .str c.name)]

def DumpHeader.toJson (h : DumpHeader) : Json :=
  .obj [("table", .str h.table), ("columns", sliceJson DumpColumn.toJson h.columns)]

def DumpCell.toJson (c : DumpCell) : Json :=
  .obj (omitEmpty (c.isNull = false) "is_null" (.bool c.isNull) ++
    omitEmpty (c.sqlType = 0) "sql_type" (Json.int c.sqlType.toInt) ++
    omitEmpty (c.textValue.isNone) "text_value" (.str (c.textValue.getD [])) ++
    omitEmpty ((GoSlice.toList c.bytesValue).isEmpty) "bytes_value"
      (.str (Base64.encode (GoSlice.toList c.bytesValue))))

def DumpRow.toJson (r : DumpRow) : Json := .obj [("cells", sliceJson DumpCell.toJson r.cells)]

/-- `Encoder.Encode`: a document on a line of its own. -/
def encodeLine (path : Bytes) (v : Json) : Proc (Except Bytes Unit) :=
  op (PluginOp.write path (v.render ++ [10]))

/-- The header of a result. -/
def headerOf (table : Bytes) (result : QueryResult) : DumpHeader :=
  ⟨table, some ⟨result.columns.map (fun col => ⟨col.name⟩), []⟩⟩

/-- The document of a row. -/
def rowOf (row : List Cell) : DumpRow := ⟨some ⟨row.map cellToDump, []⟩⟩

/-- The loop of `writeDump` over the rows. -/
def writeRows (path : Bytes) : List (List Cell) → Proc (Except Bytes Unit)
  | [] => return .ok ()
  | row :: rows => check (encodeLine path (rowOf row).toJson)
      (fun err => ("write row: " : Bytes) ++ err) fun _ => writeRows path rows

/-- `writeDump`. -/
def writeDump (path table : Bytes) (result : QueryResult) : Proc (Except Bytes Unit) :=
  check (encodeLine path (headerOf table result).toJson)
    (fun err => ("write header: " : Bytes) ++ err) fun _ => writeRows path result.rows

/-- The lines of a dump. -/
def dumpLines (table : Bytes) (result : QueryResult) : List Bytes :=
  (headerOf table result).toJson.render :: result.rows.map (fun row => (rowOf row).toJson.render)

/-- Everything that was written, in order. -/
def written (tr : PluginTrace) : Bytes :=
  tr.flatMap (fun
    | ⟨.write _ data, _⟩ => data
    | _ => [])

/-! ### Reading -/

/-- The integers of 32 bits. -/
def decodeInt32 (v : Json) (old : Int32) : Option Int32 :=
  (decodeInt (-2147483648) 2147483647 v old.toInt).map Int32.ofInt

def DumpColumn.decode : Json → DumpColumn → Option DumpColumn :=
  decodeObject fun key v old =>
    if isField "name" key then (decodeString v old.name).map (fun x => { old with name := x })
    else some old

def DumpHeader.decode : Json → DumpHeader → Option DumpHeader :=
  decodeObject fun key v old =>
    if isField "table" key then (decodeString v old.table).map (fun x => { old with table := x })
    else if isField "columns" key then
      (decodeSlice DumpColumn.decode .zero v old.columns).map (fun x => { old with columns := x })
    else some old

/-- A member of a cell's document. -/
def DumpCell.member (key : Bytes) (v : Json) (old : DumpCell) : Option DumpCell :=
  if isField "is_null" key then (decodeBool v old.isNull).map (fun x => { old with isNull := x })
  else if isField "sql_type" key then
    (decodeInt32 v old.sqlType).map (fun x => { old with sqlType := x })
  else if isField "text_value" key then
    (decodePointer v old.textValue).map (fun x => { old with textValue := x })
  else if isField "bytes_value" key then
    (decodeByteSlice v old.bytesValue).map (fun x => { old with bytesValue := x })
  else some old

def DumpCell.decode : Json → DumpCell → Option DumpCell := decodeObject DumpCell.member

def DumpRow.decode : Json → DumpRow → Option DumpRow :=
  decodeObject fun key v old =>
    if isField "cells" key then
      (decodeSlice DumpCell.decode .zero v old.cells).map (fun x => { old with cells := x })
    else some old

/-- `json.Unmarshal` of the first line. -/
def decodeHeader (line : Bytes) : Option DumpHeader := do
  let v ← parse line
  DumpHeader.decode v .zero

/-- `json.Unmarshal` of another line. -/
def decodeRow (line : Bytes) : Option DumpRow := do
  let v ← parse line
  DumpRow.decode v .zero

/-! ### What was written -/

theorem written_cons_write (path data : Bytes) (x : Except Bytes Unit) (tr : PluginTrace) :
    written (⟨.write path data, x⟩ :: tr) = data ++ written tr := rfl

/-- A line that was written, and what came after. -/
theorem encodeLine_runs {α : Type} (path : Bytes) (v : Json) (wrap : Bytes → Bytes)
    (k : Unit → Proc (Except Bytes α)) (tr : PluginTrace) (a : α)
    (h : Runs (check (encodeLine path v) wrap k) tr (.ok a)) :
    ∃ tr', Runs (k ()) tr' (.ok a) ∧ written tr = v.render ++ 10 :: written tr' := by
  rcases (runs_call_iff _ _ _ _).mp h with ⟨x, tr', rfl, hr⟩
  cases x with
  | error err =>
      rcases (runs_ret_iff _ _ _).mp hr with ⟨_, hret⟩
      cases hret
  | ok u =>
      refine ⟨tr', hr, ?_⟩
      rw [written_cons_write, List.append_assoc, List.singleton_append]

theorem writeRows_runs (path : Bytes) (rows : List (List Cell)) (tr : PluginTrace)
    (h : Runs (writeRows path rows) tr (.ok ())) :
    written tr = unlines (rows.map (fun row => (rowOf row).toJson.render)) := by
  induction rows generalizing tr with
  | nil =>
      rcases (runs_ret_iff _ _ _).mp h with ⟨rfl, _⟩
      rfl
  | cons row rows ih =>
      rcases encodeLine_runs path _ _ _ tr () h with ⟨tr', hr, hwritten⟩
      rw [hwritten, ih tr' hr, List.map_cons, unlines_cons]

/-- A dump that was written holds its lines. -/
theorem writeDump_runs (path table : Bytes) (result : QueryResult) (tr : PluginTrace)
    (h : Runs (writeDump path table result) tr (.ok ())) :
    written tr = unlines (dumpLines table result) := by
  rcases encodeLine_runs path _ _ _ tr () h with ⟨tr', hr, hwritten⟩
  rw [hwritten, writeRows_runs path result.rows tr' hr, dumpLines, unlines_cons]

end Informix

end Bop
