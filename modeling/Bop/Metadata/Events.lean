import Bop.Json.Decode
import Bop.Json.Dynamic
import Bop.Json.RoundTrip
import Bop.Metadata.Store
import Bop.Text.Timestamp
import Mathlib.Data.List.Dedup
import Mathlib.Data.List.Perm.Basic
import Mathlib.Data.List.Sort

/-!
# The Events Table

Every published event becomes a row. The payload is stored as a JSON object and
the moment as the text the database driver makes of a time, so that rows are
pruned and ordered by comparing texts. These are in the order of the times, and
the payload comes back as the map it was, apart from bytes that are not UTF-8.

## Main definitions

* `marshalFields`, `unmarshalFields`: A payload and its column.
* `storedFields`, `stored`: What a recorded event is read back as.
* `TimeDriver`: What the driver makes of a time.
* `recordEvent`, `pruneEventsOlderThan`, `ListsPage`: The statements on the table.
* `table`: The rows after events were recorded.
* `SameEvent`: Two events with the same payload as a map.

## Theorems

* `unmarshal_marshalFields`: What is read back of a payload.
* `sameEvent_stored`: A payload in UTF-8 is read back as the same map.
* `prune_table`, `listsPage_table`: The statements in terms of events.
* `events_follow_time`: Pruning and listing follow time.
* `listsPage_storeSem`: A listing is one that the store may answer.
-/

namespace Bop

/-! ### Payloads -/

/-- The keys of a map in the order in which `encoding/json` writes them. -/
def fieldKeys (fields : List (Bytes × Bytes)) : List Bytes :=
  (fields.map Prod.fst).dedup.insertionSort (· ≤ ·)

/-- The value under a key that is there. -/
def fieldValue (fields : List (Bytes × Bytes)) (key : Bytes) : Bytes :=
  (fields.lookup key).getD []

/-- `json.Marshal` of a `map[string]string`. A map without entries stands for a nil
    one, which is what an event without a payload has. -/
def marshalFields (fields : List (Bytes × Bytes)) : Bytes :=
  if fields = [] then Json.render .null
  else Json.render (.obj ((fieldKeys fields).map fun key => (key, .str (fieldValue fields key))))

/-- An entry of a map is set. -/
def setField (fields : List (Bytes × Bytes)) (key value : Bytes) : List (Bytes × Bytes) :=
  (key, value) :: fields.filter (fun kv => kv.1 ≠ key)

/-- Decoding into a nil `map[string]string`. -/
def decodeFields : Json → Option (List (Bytes × Bytes))
  | .null => some []
  | .obj ms => ms.foldlM (fun fields m => (Json.decodeString m.2 []).map (setField fields m.1)) []
  | _ => none

/-- `json.Unmarshal` into a nil `map[string]string`. -/
def unmarshalFields (data : Bytes) : Option (List (Bytes × Bytes)) :=
  (Json.parse data).bind decodeFields

/-- What is read back of a payload. -/
def storedFields (fields : List (Bytes × Bytes)) : List (Bytes × Bytes) :=
  (fieldKeys fields).foldl
    (fun acc key => setField acc (Utf8.sanitize key) (Utf8.sanitize (fieldValue fields key))) []

theorem mem_fieldKeys (fields : List (Bytes × Bytes)) (key : Bytes) :
    key ∈ fieldKeys fields ↔ ∃ value, (key, value) ∈ fields := by
  rw [fieldKeys, List.mem_insertionSort, List.mem_dedup, List.mem_map]
  constructor
  · rintro ⟨⟨key, value⟩, hmem, rfl⟩
    exact ⟨value, hmem⟩
  · rintro ⟨value, hmem⟩
    exact ⟨(key, value), hmem, rfl⟩

/-- Decoding the members of a written map sets one entry after the other. -/
theorem foldlM_members (keys : List Bytes) (value : Bytes → Bytes) (acc : List (Bytes × Bytes)) :
    (Json.sanitizeMembers (keys.map fun key => (key, .str (value key)))).foldlM
        (fun fields m => (Json.decodeString m.2 []).map (setField fields m.1)) acc =
      some (keys.foldl (fun fields key =>
        setField fields (Utf8.sanitize key) (Utf8.sanitize (value key))) acc) := by
  induction keys generalizing acc with
  | nil => rfl
  | cons key keys ih =>
      rw [List.map_cons, Json.sanitizeMembers, List.foldlM_cons, List.foldl_cons]
      exact ih _

/-- What is read back of a payload's column. -/
theorem unmarshal_marshalFields (fields : List (Bytes × Bytes)) :
    unmarshalFields (marshalFields fields) = some (storedFields fields) := by
  unfold unmarshalFields marshalFields
  by_cases hnil : fields = []
  · subst hnil
    rw [if_pos rfl, Json.parse_render _ (Nat.zero_le _)]
    rfl
  · rw [if_neg hnil, Json.parse_render]
    · exact foldlM_members (fieldKeys fields) (fieldValue fields) []
    · -- The object holds strings only.
      have hdepth := Json.depthMembers_le 0
        ((fieldKeys fields).map fun key => (key, Json.str (fieldValue fields key))) (by
          intro m hm
          rcases List.mem_map.mp hm with ⟨key, _, rfl⟩
          exact Nat.le_refl 0)
      exact (Nat.succ_le_succ hdepth).trans (by decide)

theorem lookup_setField (fields : List (Bytes × Bytes)) (key value k : Bytes) :
    (setField fields key value).lookup k = if k = key then some value else fields.lookup k := by
  unfold setField
  rw [List.lookup_cons]
  by_cases hk : k = key
  · rw [if_pos hk, beq_iff_eq.mpr hk]
  · rw [if_neg hk, beq_eq_false_iff_ne.mpr hk]
    -- Under another key nothing is filtered out.
    induction fields with
    | nil => rfl
    | cons kv fields ih =>
        rw [List.filter_cons, List.lookup_cons]
        by_cases hkey : kv.1 = key
        · rw [if_neg (by simp only [hkey, ne_eq, not_true, decide_false, Bool.false_eq_true,
            not_false_eq_true]), beq_eq_false_iff_ne.mpr (by rw [hkey]; exact hk)]
          exact ih
        · rw [if_pos (decide_eq_true hkey), List.lookup_cons]
          cases k == kv.1 with
          | true => rfl
          | false => exact ih

/-- A map after some entries were set, each to a value of its key. -/
theorem lookup_foldl_setField (keys : List Bytes) (value : Bytes → Bytes)
    (acc : List (Bytes × Bytes)) (k : Bytes) :
    (keys.foldl (fun fields key => setField fields key (value key)) acc).lookup k =
      if k ∈ keys then some (value k) else acc.lookup k := by
  induction keys generalizing acc with
  | nil => rw [List.foldl_nil, if_neg List.not_mem_nil]
  | cons key keys ih =>
      rw [List.foldl_cons, ih, lookup_setField]
      by_cases hmem : k ∈ keys
      · rw [if_pos hmem, if_pos (List.mem_cons_of_mem key hmem)]
      · rw [if_neg hmem]
        by_cases hk : k = key
        · rw [if_pos hk, if_pos (List.mem_cons.mpr (Or.inl hk)), hk]
        · rw [if_neg hk, if_neg (fun h => (List.mem_cons.mp h).elim hk hmem)]

/-- Every key and every value of a payload is UTF-8. -/
def Utf8Fields (fields : List (Bytes × Bytes)) : Prop :=
  ∀ kv ∈ fields, Utf8.sanitize kv.1 = kv.1 ∧ Utf8.sanitize kv.2 = kv.2

/-- A payload in UTF-8 is read back as the same map. -/
theorem lookup_storedFields (fields : List (Bytes × Bytes)) (h : Utf8Fields fields) (k : Bytes) :
    (storedFields fields).lookup k = fields.lookup k := by
  -- Every key and every value is valid text, which is stored as it is.
  have hvalue : ∀ key ∈ fieldKeys fields, ∃ value, fields.lookup key = some value ∧
      Utf8.sanitize key = key ∧ Utf8.sanitize value = value := by
    intro key hkey
    rcases (mem_fieldKeys fields key).mp hkey with ⟨value, hmem⟩
    cases hlookup : fields.lookup key with
    | none =>
        have hno := List.lookup_eq_none_iff.mp hlookup _ hmem
        rw [bne_self_eq_false] at hno
        cases hno
    | some found =>
        rcases List.lookup_eq_some_iff.mp hlookup with ⟨before, after, rfl, _⟩
        have hfound := h (key, found) (List.mem_append_right _ List.mem_cons_self)
        exact ⟨found, rfl, hfound.1, hfound.2⟩
  -- So each key is set once to its own value.
  have hplain : storedFields fields =
      (fieldKeys fields).foldl (fun acc key => setField acc key (fieldValue fields key)) [] := by
    unfold storedFields
    refine List.foldl_ext _ _ _ fun acc key hkey => ?_
    rcases hvalue key hkey with ⟨value, hlookup, hk, hv⟩
    rw [fieldValue, hlookup, Option.getD_some, hk, hv]
  rw [hplain, lookup_foldl_setField]
  by_cases hk : k ∈ fieldKeys fields
  · rcases hvalue k hk with ⟨value, hlookup, _⟩
    rw [if_pos hk, fieldValue, hlookup, Option.getD_some]
  · rw [if_neg hk, List.lookup_nil]
    refine (List.lookup_eq_none_iff.mpr fun kv hkv => ?_).symm
    rw [bne_iff_ne]
    rintro rfl
    exact hk ((mem_fieldKeys fields kv.1).mpr ⟨kv.2, hkv⟩)

/-! ### The table -/

/-- What the database driver makes of a time: the text it stores, and the time it
    reads back. -/
structure TimeDriver where
  write : Time → Bytes
  read : Bytes → Option Time
  write_eq : ∀ t, Calendric t → write t = timeText t
  read_write : ∀ t, Calendric t → read (write t) = some t

/-- A row of `events`, without its number. -/
structure EventRow where
  type : EventType
  jobID : Bytes
  host : Bytes
  plugin : Bytes
  resource : Bytes
  fields : Bytes
  timestamp : Bytes
  deriving DecidableEq

variable (d : TimeDriver)

/-- The row that an event becomes. -/
def eventRow (e : Event) : EventRow where
  type := e.type
  jobID := e.jobID
  host := e.host
  plugin := e.plugin
  resource := e.resource
  fields := marshalFields e.fields
  timestamp := d.write e.timestamp

/-- `RecordEvent`. -/
def recordEvent (rows : List EventRow) (e : Event) : List EventRow := rows ++ [eventRow d e]

/-- `PruneEventsOlderThan`: the count it returns and the rows it leaves. -/
def pruneEventsOlderThan (cutoff : Time) (rows : List EventRow) : Nat × List EventRow :=
  (rows.countP (fun r => r.timestamp < d.write cutoff),
    rows.filter (fun r => ¬ r.timestamp < d.write cutoff))

/-- The conditions of `ListEventsPage` on a row. -/
def EventFilter.selects (f : EventFilter) (jobID host : Bytes) : Bool :=
  (f.jobID = [] ∨ jobID = f.jobID) ∧ (f.host = [] ∨ host = f.host)

/-- The limit of `ListEventsPage`, if it is one. -/
def EventFilter.limited {α : Type} (f : EventFilter) (rows : List α) : List α :=
  if f.limit > 0 then rows.take f.limit.toNat else rows

/-- Reading one row. -/
def scanEvent (r : EventRow) : Except Bytes Event := match d.read r.timestamp with
  | none => .error "metadata: scan event"
  | some timestamp => match unmarshalFields r.fields with
    | none => .error ("metadata: unmarshal event fields: " ++ Json.decodeError)
    | some fields => .ok ⟨r.type, r.jobID, r.host, r.plugin, r.resource, fields, timestamp⟩

/-- `ListEventsPage`: the selected rows by descending text, of which the database
    may order equal ones as it likes. -/
def ListsPage (f : EventFilter) (rows : List EventRow) (out : Except Bytes (List Event)) : Prop :=
  ∃ ordered, ordered.Perm (rows.filter (fun r => f.selects r.jobID r.host)) ∧
    ordered.Pairwise (fun a b => b.timestamp ≤ a.timestamp) ∧
    out = (f.limited ordered).mapM (scanEvent d)

/-- The rows after events were recorded. -/
def table (events : List Event) : List EventRow := events.foldl (recordEvent d) []

/-- What a recorded event is read back as. -/
def stored (e : Event) : Event := { e with fields := storedFields e.fields }

/-- Two events that differ at most in how their payload is written down as a map. -/
def SameEvent (a b : Event) : Prop :=
  { a with fields := [] } = { b with fields := [] } ∧
    ∀ key, a.fields.lookup key = b.fields.lookup key

theorem table_eq (events : List Event) : table d events = events.map (eventRow d) := by
  have hfrom : ∀ rows, events.foldl (recordEvent d) rows = rows ++ events.map (eventRow d) := by
    induction events with
    | nil => exact fun rows => (List.append_nil rows).symm
    | cons e events ih =>
        intro rows
        rw [List.foldl_cons, ih, recordEvent, List.map_cons, List.append_assoc,
          List.singleton_append]
  exact hfrom []

/-- A row comes back as its event. -/
theorem scanEvent_eventRow (e : Event) (h : Calendric e.timestamp) :
    scanEvent d (eventRow d e) = .ok (stored e) := by
  unfold scanEvent eventRow
  simp only [d.read_write e.timestamp h, unmarshal_marshalFields]
  rfl

/-- A payload in UTF-8 is read back as the same map. -/
theorem sameEvent_stored (e : Event) (h : Utf8Fields e.fields) : SameEvent (stored e) e :=
  ⟨rfl, lookup_storedFields e.fields h⟩

/-- The texts of two rows are in the order of their times. -/
theorem write_lt_iff (t u : Time) (ht : Calendric t) (hu : Calendric u) :
    d.write t < d.write u ↔ t < u := by
  rw [d.write_eq t ht, d.write_eq u hu, timeText_lt_iff t u ht hu]

/-- The rows that are pruned are those of the earlier events. -/
theorem prune_table (events : List Event) (cutoff : Time)
    (hevents : ∀ e ∈ events, Calendric e.timestamp) (hcutoff : Calendric cutoff) :
    pruneEventsOlderThan d cutoff (table d events) =
      ((events.filter (fun e => e.timestamp < cutoff)).length,
        table d (events.filter (fun e => ¬ e.timestamp < cutoff))) := by
  unfold pruneEventsOlderThan
  rw [table_eq, table_eq, List.countP_map, List.filter_map, List.countP_eq_length_filter]
  have hcompare : ∀ e ∈ events, (d.write e.timestamp < d.write cutoff) = (e.timestamp < cutoff) :=
    fun e he => propext (write_lt_iff d _ _ (hevents e he) hcutoff)
  refine Prod.ext ?_ ?_
  · refine congrArg List.length (List.filter_congr fun e he => ?_)
    simp only [Function.comp_def, eventRow, hcompare e he]
  · refine congrArg (List.map (eventRow d)) (List.filter_congr fun e he => ?_)
    simp only [Function.comp_def, eventRow, hcompare e he]

theorem limited_map {α β : Type} (f : EventFilter) (g : α → β) (xs : List α) :
    f.limited (xs.map g) = (f.limited xs).map g := by
  unfold EventFilter.limited
  split
  · exact (List.map_take).symm
  · rfl

theorem mem_limited {α : Type} (f : EventFilter) (xs : List α) (x : α) (h : x ∈ f.limited xs) :
    x ∈ xs := by
  unfold EventFilter.limited at h
  split at h
  · exact List.mem_of_mem_take h
  · exact h

/-- Reading rows of events gives the events. -/
theorem mapM_scanEvent (events : List Event) (h : ∀ e ∈ events, Calendric e.timestamp) :
    (events.map (eventRow d)).mapM (scanEvent d) = .ok (events.map stored) := by
  induction events with
  | nil => rfl
  | cons e events ih =>
      rw [List.map_cons, List.mapM_cons, scanEvent_eventRow d e (h e List.mem_cons_self),
        ih fun e' he' => h e' (List.mem_cons_of_mem e he')]
      rfl

/-- A listing is the selected events by descending time, each as it is read
    back. -/
theorem listsPage_table (events : List Event) (f : EventFilter)
    (hevents : ∀ e ∈ events, Calendric e.timestamp) (out : Except Bytes (List Event))
    (h : ListsPage d f (table d events) out) :
    ∃ all, all.Perm (events.filter (fun e => f.selects e.jobID e.host)) ∧
      all.Pairwise (fun a b => b.timestamp ≤ a.timestamp) ∧
      out = .ok ((f.limited all).map stored) := by
  rcases h with ⟨ordered, hperm, hsorted, hout⟩
  rw [table_eq, List.filter_map] at hperm
  -- The rows are the rows of some order of the selected events.
  have hrows : List.Forall₂ (fun r e => r = eventRow d e)
      ((events.filter (fun e => f.selects e.jobID e.host)).map (eventRow d))
      (events.filter (fun e => f.selects e.jobID e.host)) :=
    List.forall₂_map_left_iff.mpr (List.forall₂_same.mpr fun _ _ => rfl)
  rcases List.perm_comp_forall₂ hperm hrows with ⟨all, hall, hpermAll⟩
  have hordered : ordered = all.map (eventRow d) := by
    rw [← List.forall₂_eq_eq_eq, List.forall₂_map_right_iff]
    exact hall
  have hcalendric : ∀ e ∈ all, Calendric e.timestamp := fun e he =>
    hevents e (List.mem_filter.mp (hpermAll.mem_iff.mp he)).1
  refine ⟨all, hpermAll, ?_, ?_⟩
  · rw [hordered, List.pairwise_map] at hsorted
    refine hsorted.imp_of_mem fun {a b} ha hb hle => ?_
    by_contra hnot
    exact hle ((write_lt_iff d _ _ (hcalendric a ha) (hcalendric b hb)).mpr (Int.not_le.mp hnot))
  · rw [hout, hordered, limited_map]
    exact mapM_scanEvent d _ fun e he => hcalendric e (mem_limited f all e he)

/-- Every table can be listed. -/
theorem exists_listsPage (f : EventFilter) (rows : List EventRow) :
    ∃ out, ListsPage d f rows out := by
  let later := fun a b : EventRow => b.timestamp ≤ a.timestamp
  have : Std.Total later := ⟨fun a b => List.le_total b.timestamp a.timestamp⟩
  have : IsTrans EventRow later := ⟨fun _ _ _ hab hbc => List.le_trans hbc hab⟩
  exact ⟨_, _, List.perm_insertionSort later _, List.pairwise_insertionSort later _, rfl⟩

/-- Pruning deletes the events before the cutoff and counts them, and a listing is
    the matching events with the latest first, cut to the limit. An event comes
    back the same if its payload is UTF-8. -/
theorem events_follow_time (events : List Event) (cutoff : Time) (f : EventFilter)
    (hevents : ∀ e ∈ events, Calendric e.timestamp) (hcutoff : Calendric cutoff) :
    pruneEventsOlderThan d cutoff (table d events) =
        ((events.filter (fun e => e.timestamp < cutoff)).length,
          table d (events.filter (fun e => ¬ e.timestamp < cutoff))) ∧
      (∃ out, ListsPage d f (table d events) out) ∧
      (∀ out, ListsPage d f (table d events) out →
        ∃ all, all.Perm (events.filter (fun e => f.selects e.jobID e.host)) ∧
          all.Pairwise (fun a b => b.timestamp ≤ a.timestamp) ∧
          out = .ok ((f.limited all).map stored)) ∧
      ∀ e ∈ events, Utf8Fields e.fields → SameEvent (stored e) e :=
  ⟨prune_table d events cutoff hevents hcutoff, exists_listsPage d f _,
    listsPage_table d events f hevents, fun e _ he => sameEvent_stored e he⟩

/-- A listing is one that the store may answer when it holds the events as they
    are read back. -/
theorem listsPage_storeSem (events : List Event) (f : EventFilter)
    (hevents : ∀ e ∈ events, Calendric e.timestamp) (out : Except Bytes (List Event))
    (h : ListsPage d f (table d events) out) (s : Store) (hs : s.events = events.map stored) :
    StoreSem s (.listEventsPage f) out s := by
  rcases listsPage_table d events f hevents out h with ⟨all, hperm, hsorted, rfl⟩
  refine ⟨rfl, all.map stored, ?_, ?_, ?_⟩
  · rw [Store.eventsMatching, hs, List.filter_map]
    exact hperm.map stored
  · rw [List.pairwise_map]
    exact hsorted
  · rw [← limited_map]
    rfl

/-! ### A database -/

/-- The driver that stores the text of a time and finds the time of a text. -/
noncomputable def sqliteDriver : TimeDriver where
  write := timeText
  read text := by
    classical
    exact if h : ∃ t, Calendric t ∧ timeText t = text then some h.choose else none
  write_eq := fun _ _ => rfl
  read_write := by
    intro t ht
    have hfound : ∃ u, Calendric u ∧ timeText u = timeText t := ⟨t, ht, rfl⟩
    rw [dif_pos hfound]
    exact congrArg some (timeText_inj _ _ hfound.choose_spec.1 ht hfound.choose_spec.2)

/-- An event of a host at a time, with a payload. -/
def hostEvent (fields : List (Bytes × Bytes)) (timestamp : Time) : Event :=
  ⟨.backupFailed, "job", "web", "files", [], fields, timestamp⟩

/-- A quarter of a second before the end of one, and four milliseconds later. -/
theorem events_follow_time_fractions :
    (pruneEventsOlderThan sqliteDriver 1767225625752000000
      (table sqliteDriver [hostEvent [] 1767225625750000000,
        hostEvent [] 1767225625754000000])).1 = 1 := by
  rw [(events_follow_time sqliteDriver [hostEvent [] 1767225625750000000,
    hostEvent [] 1767225625754000000] 1767225625752000000 ⟨[], [], 0⟩ (by decide) (by decide)).1]
  rfl

/-- A payload with a byte that is not UTF-8, as in the output of a command. -/
def strayEvent : Event := hostEvent [("error", [0xFF])] 1767225625750000000

/-- It is not listed as it was recorded. -/
theorem not_listed_same :
    ¬ ∀ (d : TimeDriver) (events : List Event) (f : EventFilter) (out : Except Bytes (List Event)),
      (∀ e ∈ events, Calendric e.timestamp) → ListsPage d f (table d events) out →
      ∃ all page, all.Perm (events.filter (fun e => f.selects e.jobID e.host)) ∧
        all.Pairwise (fun a b => b.timestamp ≤ a.timestamp) ∧ out = .ok page ∧
        List.Forall₂ SameEvent page (f.limited all) := by
  intro h
  have hevents : ∀ e ∈ [strayEvent], Calendric e.timestamp := by decide
  have hfilter : [strayEvent].filter (fun e => EventFilter.selects ⟨[], [], 0⟩ e.jobID e.host) =
      [strayEvent] := by decide
  rcases exists_listsPage sqliteDriver ⟨[], [], 0⟩ (table sqliteDriver [strayEvent]) with
    ⟨out, hout⟩
  rcases h _ _ _ out hevents hout with ⟨all, page, hperm, _, hpage, hsame⟩
  rcases listsPage_table _ _ _ hevents out hout with ⟨all', hperm', _, hstored⟩
  rw [hfilter, List.perm_singleton] at hperm hperm'
  subst hperm hperm'
  rw [hpage] at hstored
  cases hstored
  -- The one event of the page has another text under the key.
  have hevent := (List.forall₂_cons.mp hsame).1.2 "error"
  revert hevent
  decide +kernel

end Bop
