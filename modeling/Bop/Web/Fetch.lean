import Bop.Text.Target

/-!
# What a Browser Sends

A page names what it wants by a reference that begins with a slash, and the
browser makes the target of a request of it: it drops the fragment, resolves
the segments that are dots, and encodes what neither path nor query may hold.
Redirects are followed, twenty of them at most.

An encoder for components keeps the dot and escapes the slash. So a component
stays one segment, and only two of them are resolved away.

## Main definitions

* `encodeURIComponent`: What a component of a reference is written as.
* `searchParams`: `URLSearchParams.toString`.
* `locate`: The target of a reference.
* `follow`: What a server is finally asked.

## Theorems

* `locate_descent`: The target of a reference in segments.
* `no_dots_of_unescape`: What is read as something else is no dot.
* `resolve_of_no_dots`: Without them nothing is resolved.
* `follow_settled`: What stays as it is arrives in its segments.
* `follow_cleaned`: Empty segments are redirected away.
-/

namespace Bop

namespace Web

open Url Paths

/-- What `encodeURIComponent` leaves as it is. -/
def componentKept (c : UInt8) : Bool := isAlnum c || c ∈ ("-_.!~*'()" : Bytes)

/-- `encodeURIComponent`. -/
def encodeURIComponent (s : Bytes) : Bytes := percentEncode componentKept s

/-- What a form leaves as it is. -/
def formKept (c : UInt8) : Bool := isAlnum c || c ∈ ("*-._" : Bytes)

/-- A name or a value of a form. A blank is written as a plus sign. -/
def formEncode (s : Bytes) : Bytes :=
  s.flatMap fun c => if c = 32 then [43] else percentEncode formKept [c]

/-- `URLSearchParams.toString`. -/
def searchParams (ps : List (Bytes × Bytes)) : Bytes :=
  join "&" (ps.map fun p => formEncode p.1 ++ 61 :: formEncode p.2)

/-- What a path may hold: the complement of the path percent-encode set. -/
def pathKept (c : UInt8) : Bool := 32 < c && c < 127 && c ∉ ("\"#<>?^`\x7b\x7d" : Bytes)

/-- What a query may hold: the complement of the special-query percent-encode set. -/
def queryKept (c : UInt8) : Bool := 32 < c && c < 127 && c ∉ ("\"#<>'" : Bytes)

/-- A segment that leads nowhere. -/
def singleDot (seg : Bytes) : Bool := seg ∈ ([".", "%2e", "%2E"] : List Bytes)

/-- A segment that leads up. -/
def doubleDot (seg : Bytes) : Bool :=
  seg ∈ (["..", ".%2e", ".%2E", "%2e.", "%2E.", "%2e%2e", "%2e%2E", "%2E%2e", "%2E%2E"] :
    List Bytes)

/-- The path of a reference's segments, behind what is there already. Dots at the
    end leave an empty segment. -/
def resolve (done : List Bytes) : List Bytes → List Bytes
  | [] => done
  | [seg] =>
      if doubleDot seg then done.dropLast ++ [[]]
      else if singleDot seg then done ++ [[]]
      else done ++ [seg]
  | seg :: rest =>
      if doubleDot seg then resolve done.dropLast rest
      else if singleDot seg then resolve done rest
      else resolve (done ++ [seg]) rest

/-- The target of a reference that begins with one slash. -/
def locate (reference : Bytes) : Bytes :=
  let text := ((reference.dropWhile (· ≤ 32)).rdropWhile (· ≤ 32)).filter
    (fun b => b ∉ ([9, 10, 13] : Bytes))
  let text := (cut 35 text).1
  let segs := (cut 63 text).1.tail.splitOnP (fun b => b = 47 || b = 92)
  withQuery (descent (resolve [] (segs.map (percentEncode pathKept))))
    (if 63 ∈ text then some (percentEncode queryKept (cut 63 text).2) else none)

/-- What a server is finally asked, after so many redirects at most. -/
def follow : Nat → Bytes → Option (List Bytes × List (Bytes × Bytes))
  | n, target => match receive target with
    | .refused => none
    | .request path query => some (path, query)
    | .redirect location => match n with
      | 0 => none
      | n + 1 => follow n (locate location)

theorem follow_request (n : Nat) (target : Bytes) (path : List Bytes)
    (query : List (Bytes × Bytes)) (h : receive target = .request path query) :
    follow n target = some (path, query) := by
  rw [follow.eq_def]
  dsimp only
  rw [h]

theorem follow_redirect (n : Nat) (target location : Bytes)
    (h : receive target = .redirect location) :
    follow (n + 1) target = follow n (locate location) := by
  rw [follow.eq_def]
  dsimp only
  rw [h]

/-! ### References -/

/-- A byte that a segment of a reference may hold. -/
def SegmentByte (b : UInt8) : Prop := pathKept b = true ∧ b ≠ 47 ∧ b ≠ 92

/-- A byte that a query of a reference may hold. -/
def QueryByte (b : UInt8) : Prop := 32 < b ∧ b ≠ 35

theorem pathKept_visible (b : UInt8) (h : pathKept b = true) :
    32 < b ∧ b ≠ 35 ∧ b ≠ 63 := by
  simp only [pathKept, Bool.and_eq_true, decide_eq_true_eq] at h
  refine ⟨h.1.1, ?_, ?_⟩ <;>
  · rintro rfl
    exact absurd h.2 (by decide)

/-- The target of a reference in segments. -/
theorem locate_descent (segs : List Bytes) (query : Option Bytes) (hne : segs ≠ [])
    (h : ∀ e ∈ segs, ∀ b ∈ e, SegmentByte b) (hquery : ∀ b ∈ query.getD [], QueryByte b) :
    locate (withQuery (descent segs) query) =
      withQuery (descent (resolve [] segs)) (query.map (percentEncode queryKept)) := by
  have hpath : ∀ b ∈ descent segs, 32 < b ∧ b ≠ 35 ∧ b ≠ 63 := by
    intro b hb
    rcases List.mem_flatMap.mp hb with ⟨e, he, hb⟩
    rcases List.mem_cons.mp hb with rfl | hb
    · decide
    · exact pathKept_visible b (h e he b hb).1
  have htext : ∀ b ∈ withQuery (descent segs) query, 32 < b ∧ b ≠ 35 := by
    intro b hb
    cases query with
    | none => exact ⟨(hpath b hb).1, (hpath b hb).2.1⟩
    | some query =>
        rcases List.mem_append.mp hb with hb | hb
        · exact ⟨(hpath b hb).1, (hpath b hb).2.1⟩
        · rcases List.mem_cons.mp hb with rfl | hb
          · decide
          · exact hquery b hb
  -- Nothing is stripped, and there is no fragment.
  have hdrop : (withQuery (descent segs) query).dropWhile (· ≤ 32) =
      withQuery (descent segs) query :=
    List.dropWhile_eq_self_iff.mpr fun hlen hle =>
      absurd (htext _ (List.getElem_mem hlen)).1 (UInt8.not_lt.mpr (of_decide_eq_true hle))
  have hrdrop : (withQuery (descent segs) query).rdropWhile (· ≤ 32) =
      withQuery (descent segs) query :=
    List.rdropWhile_eq_self_iff.mpr fun hl hle =>
      absurd (htext _ (List.getLast_mem hl)).1 (UInt8.not_lt.mpr (of_decide_eq_true hle))
  have hfilter : (withQuery (descent segs) query).filter (fun b => b ∉ ([9, 10, 13] : Bytes)) =
      withQuery (descent segs) query := by
    refine List.filter_eq_self.mpr fun b hb => decide_eq_true fun hmem => ?_
    have hlt := (htext b hb).1
    simp only [List.mem_cons, List.not_mem_nil, or_false] at hmem
    rcases hmem with rfl | rfl | rfl <;> exact absurd hlt (by decide)
  have hfragment : cut 35 (withQuery (descent segs) query) =
      (withQuery (descent segs) query, []) := cut_all 35 _ fun hmem => (htext 35 hmem).2 rfl
  have hmark : (63 : UInt8) ∉ descent segs := fun hmem => (hpath 63 hmem).2.2 rfl
  have hsplit : (descent segs).tail.splitOnP (fun b => b = 47 || b = 92) = segs := by
    refine splitOnP_descent _ rfl segs hne fun e he b hb => ?_
    have hbyte := h e he b hb
    simp only [Bool.or_eq_false_iff, decide_eq_false_iff_not]
    exact hbyte.2
  have hencode : segs.map (percentEncode pathKept) = segs :=
    (List.map_congr_left fun e he => percentEncode_of_kept e fun b hb => (h e he b hb).1).trans
      (List.map_id segs)
  unfold locate
  rw [hdrop, hrdrop, hfilter]
  dsimp only
  rw [hfragment]
  cases query with
  | none =>
      rw [withQuery, cut_all 63 _ hmark, hsplit, hencode, if_neg hmark]
      rfl
  | some query =>
      rw [withQuery, cut_eq 63 _ _ hmark, hsplit, hencode,
        if_pos (List.mem_append_right _ List.mem_cons_self)]
      rfl

/-! ### Components -/

/-- What a written component consists of. -/
def ComponentByte (b : UInt8) : Prop := componentKept b = true ∨ EscapeByte b

/-- A written component may stand in a path, on either side. -/
theorem componentByte (b : UInt8) (h : ComponentByte b) :
    SegmentByte b ∧ QueryByte b ∧ validEncoded [b] .path = true := by
  unfold ComponentByte EscapeByte at h
  unfold SegmentByte QueryByte
  revert b
  exact forall_byte (by decide +kernel)

theorem encodeURIComponent_bytes (s : Bytes) : ∀ b ∈ encodeURIComponent s, ComponentByte b :=
  fun b hb => (mem_percentEncode s b hb).imp_left And.right

/-- A component is read back. -/
theorem unescape_component (s : Bytes) : unescape .path (encodeURIComponent s) = some s :=
  unescape_percentEncode .path ⟨by decide, by decide⟩ (by decide) (fun h => by cases h) s

theorem encodeURIComponent_eq_iff (s t : Bytes) (ht : ∀ b ∈ t, componentKept b = true) :
    encodeURIComponent s = t ↔ s = t := by
  have hself : encodeURIComponent t = t := percentEncode_of_kept t ht
  constructor
  · intro h
    rw [← hself] at h
    exact (percentEncode_inj (by decide) s t).mp h
  · rintro rfl
    exact hself

/-- What is taken for a dot is read as one. -/
theorem unescape_of_singleDot (seg : Bytes) (h : singleDot seg = true) :
    unescape .path seg = some ("." : Bytes) := by
  have hdots : ∀ seg ∈ ([".", "%2e", "%2E"] : List Bytes),
      unescape .path seg = some ("." : Bytes) := by decide
  exact hdots seg (of_decide_eq_true h)

theorem unescape_of_doubleDot (seg : Bytes) (h : doubleDot seg = true) :
    unescape .path seg = some (".." : Bytes) := by
  have hdots : ∀ seg ∈ (["..", ".%2e", ".%2E", "%2e.", "%2E.", "%2e%2e", "%2e%2E", "%2E%2e",
      "%2E%2E"] : List Bytes), unescape .path seg = some (".." : Bytes) := by decide
  exact hdots seg (of_decide_eq_true h)

/-- What is read as something else is not. -/
theorem no_dots_of_unescape (seg name : Bytes) (h : unescape .path seg = some name)
    (hdot : name ≠ ".") (hup : name ≠ "..") : doubleDot seg = false ∧ singleDot seg = false := by
  rw [Bool.eq_false_iff, Bool.eq_false_iff]
  constructor
  · intro hdouble
    rw [unescape_of_doubleDot seg hdouble] at h
    exact hup (Option.some.inj h).symm
  · intro hsingle
    rw [unescape_of_singleDot seg hsingle] at h
    exact hdot (Option.some.inj h).symm

/-- Where no segment is dots, nothing is resolved. -/
theorem resolve_of_no_dots (done segs : List Bytes)
    (h : ∀ e ∈ segs, doubleDot e = false ∧ singleDot e = false) :
    resolve done segs = done ++ segs := by
  induction segs generalizing done with
  | nil => exact (List.append_nil done).symm
  | cons e segs ih =>
      rcases h e List.mem_cons_self with ⟨hdouble, hsingle⟩
      have hrest := ih (done ++ [e]) fun e' he' => h e' (List.mem_cons_of_mem e he')
      cases segs with
      | nil => rw [resolve, hdouble, hsingle]; rfl
      | cons e' segs =>
          rw [resolve, hdouble, hsingle, if_neg Bool.noConfusion, if_neg Bool.noConfusion, hrest,
            List.append_assoc, List.singleton_append]
          exact List.cons_ne_nil e' segs

/-- A component of a reference may stand in a path as it is. -/
theorem encoded_component (s : Bytes) (hdot : s ≠ ".") (hup : s ≠ "..") :
    Encoded (encodeURIComponent s) := by
  have hbytes := encodeURIComponent_bytes s
  refine ⟨?_, ?_, by rw [unescape_component]; rfl⟩
  · by_cases hs : s = []
    · exact Or.inl (by rw [hs]; rfl)
    · refine Or.inr ⟨?_, fun hmem => (componentByte 47 (hbytes 47 hmem)).1.2.1 rfl, ?_, ?_⟩
      · rw [Ne, encodeURIComponent_eq_iff s [] fun b hb => absurd hb List.not_mem_nil]
        exact hs
      · rw [Ne, encodeURIComponent_eq_iff s "." (by decide +kernel)]
        exact hdot
      · rw [Ne, encodeURIComponent_eq_iff s ".." (by decide +kernel)]
        exact hup
  · exact all_valid _ fun b hb => (componentByte b (hbytes b hb)).2.2

/-- The router reads a component back, unless it is a slash. -/
theorem decodeSegment_component (s : Bytes) :
    decodeSegment (encodeURIComponent s) = if s = "/" then [] else s := by
  rw [decodeSegment, unescape_component]
  rfl

/-! ### Queries -/

/-- What a query may hold and what a form is written with, byte for byte. -/
theorem query_byte (b : UInt8) :
    (queryKept b = true → QueryByte b ∧ Printable b) ∧
      (EscapeByte b → queryKept b = true ∧ ¬ QueryMark b) ∧
      (b = 43 ∨ formKept b = true → queryKept b = true ∧ ¬ QueryMark b) := by
  unfold EscapeByte QueryByte Printable QueryMark
  revert b
  exact forall_byte (by decide +kernel)

/-- What a query may hold, a request line may. -/
theorem queryKept_printable (b : UInt8) (h : queryKept b = true ∨ EscapeByte b) :
    Printable b :=
  ((query_byte b).1 (h.elim id fun hescape => ((query_byte b).2.1 hescape).1)).2

/-- And so may a reference. -/
theorem queryKept_written (b : UInt8) (h : queryKept b = true) : QueryByte b :=
  ((query_byte b).1 h).1

/-- A component as it is sent in a query. -/
def sentComponent (s : Bytes) : Bytes := percentEncode queryKept (encodeURIComponent s)

theorem sentComponent_eq (s : Bytes) :
    sentComponent s = percentEncode (fun b => componentKept b && queryKept b) s :=
  percentEncode_percentEncode queryKept (fun b h => ((query_byte b).2.1 h).1) s

theorem unescape_sentComponent (s : Bytes) :
    unescape .queryComponent (sentComponent s) = some s := by
  rw [sentComponent_eq]
  exact unescape_percentEncode _ ⟨by decide, by decide⟩ (by decide)
    (fun _ => by decide) s

theorem sentComponent_marks (s : Bytes) : ∀ b ∈ sentComponent s, ¬ QueryMark b := by
  intro b hb hmark
  rw [sentComponent_eq] at hb
  have hkept := (mem_percentEncode s b hb).imp_left And.right
  rcases hmark with rfl | rfl | rfl <;>
  · rcases hkept with hkept | hescape
    · exact absurd hkept (by decide)
    · exact absurd hescape (by unfold EscapeByte; decide)

/-- What a form is written as, byte for byte. -/
theorem formEncode_cons (c : UInt8) (s : Bytes) :
    formEncode (c :: s) = (if c = 32 then [43] else percentEncode formKept [c]) ++ formEncode s :=
  List.flatMap_cons

theorem unescape_formEncode (s : Bytes) : unescape .queryComponent (formEncode s) = some s := by
  induction s with
  | nil => exact unescape.eq_1 _
  | cons c s ih =>
      rw [formEncode_cons]
      by_cases hc : c = 32
      · rw [if_pos hc, List.singleton_append, unescape.eq_def]
        simp only [ih, hc]
        rfl
      · have hread : unescape .queryComponent (percentEncode formKept [c]) = some [c] :=
          unescape_percentEncode .queryComponent ⟨by decide, by decide⟩ (by decide)
            (fun _ => by decide) [c]
        rw [if_neg hc, unescape_append _ _ _ _ hread, ih]
        rfl

/-- What a written form consists of. -/
theorem formEncode_bytes (s : Bytes) : ∀ b ∈ formEncode s,
    queryKept b = true ∧ ¬ QueryMark b := by
  intro b hb
  rcases List.mem_flatMap.mp hb with ⟨c, -, hb⟩
  split at hb
  · exact (query_byte b).2.2 (Or.inl (List.mem_singleton.mp hb))
  · rcases mem_percentEncode [c] b hb with hkept | hescape
    · exact (query_byte b).2.2 (Or.inr hkept.2)
    · exact (query_byte b).2.1 hescape

/-- A form is sent as it is written. -/
theorem searchParams_kept (ps : List (Bytes × Bytes)) :
    ∀ b ∈ searchParams ps, queryKept b = true := by
  have hpair : ∀ p : Bytes × Bytes, ∀ b ∈ formEncode p.1 ++ 61 :: formEncode p.2,
      queryKept b = true := by
    intro p b hb
    rcases List.mem_append.mp hb with hb | hb
    · exact (formEncode_bytes _ b hb).1
    · rcases List.mem_cons.mp hb with rfl | hb
      · decide
      · exact (formEncode_bytes _ b hb).1
  induction ps with
  | nil => exact fun b hb => absurd hb List.not_mem_nil
  | cons p ps ih =>
      cases ps with
      | nil => exact hpair p
      | cons p' ps =>
          intro b hb
          rw [searchParams, List.map_cons, List.map_cons, join_cons_cons] at hb
          rcases List.mem_append.mp hb with hb | hb
          · rcases List.mem_append.mp hb with hb | hb
            · exact hpair p b hb
            · rw [List.mem_singleton.mp hb]
              decide
          · exact ih b hb

theorem parseQuery_searchParams (ps : List (Bytes × Bytes)) :
    parseQuery (percentEncode queryKept (searchParams ps)) = ps := by
  rw [percentEncode_of_kept _ (searchParams_kept ps)]
  exact parseQuery_pairs formEncode unescape_formEncode
    (fun s b hb => (formEncode_bytes s b hb).2) ps

/-- Components that are empty are so before they are encoded. -/
theorem filter_components (names : List Bytes) :
    (names.map encodeURIComponent).filter (· ≠ []) =
      (names.filter (· ≠ [])).map encodeURIComponent := by
  rw [List.filter_map]
  refine congrArg (List.map encodeURIComponent) (List.filter_congr fun name _ => ?_)
  have hiff := encodeURIComponent_eq_iff name [] fun b hb => absurd hb List.not_mem_nil
  exact decide_eq_decide.mpr (not_congr hiff)

/-- One parameter of a reference is read back. -/
theorem parseQuery_component (key value : Bytes) (hkey : sentComponent key = key)
    (hkept : ∀ b ∈ key ++ [61], queryKept b = true) :
    parseQuery (percentEncode queryKept (key ++ 61 :: encodeURIComponent value)) =
      [(key, value)] := by
  have hsent : percentEncode queryKept (key ++ 61 :: encodeURIComponent value) =
      join "&" ([(key, value)].map fun p => sentComponent p.1 ++ 61 :: sentComponent p.2) := by
    change _ = sentComponent key ++ 61 :: sentComponent value
    rw [hkey, List.append_cons, percentEncode_append, percentEncode_of_kept _ hkept,
      ← sentComponent, List.append_assoc, List.singleton_append]
  rw [hsent]
  exact parseQuery_pairs sentComponent unescape_sentComponent sentComponent_marks [(key, value)]

theorem sent_printable (query : Option Bytes) :
    ∀ b ∈ (query.map (percentEncode queryKept)).getD [], Printable b := by
  cases query with
  | none => exact fun b hb => absurd hb List.not_mem_nil
  | some query =>
      exact fun b hb => queryKept_printable b ((mem_percentEncode query b hb).imp_left And.right)

/-! ### Segments that stay -/

/-- A segment that neither the browser nor the router changes. -/
structure Settled (seg : Bytes) : Prop where
  bytes : ∀ b ∈ seg, SegmentByte b
  encoded : Encoded seg
  proper : Proper seg
  no_dots : doubleDot seg = false ∧ singleDot seg = false

/-- A component is one, unless it is empty or dots. -/
theorem settled_component (s : Bytes) (hempty : s ≠ []) (hdot : s ≠ ".") (hup : s ≠ "..") :
    Settled (encodeURIComponent s) := by
  have hencoded := encoded_component s hdot hup
  refine ⟨fun b hb => (componentByte b (encodeURIComponent_bytes s b hb)).1, hencoded,
    hencoded.plain.resolve_left fun heq => hempty ?_,
    no_dots_of_unescape _ s (unescape_component s) hdot hup⟩
  exact (encodeURIComponent_eq_iff s [] fun b hb => absurd hb List.not_mem_nil).mp heq

/-- Escaped once more, it is read as the component. -/
theorem unescape_escape (s : Bytes) :
    unescape .path (escape .path (encodeURIComponent s)) = some (encodeURIComponent s) := by
  rw [escape_path]
  exact unescape_percentEncode .path ⟨by decide, by decide⟩ (by decide)
    (fun h => by cases h) _

theorem decodeSegment_escape (s : Bytes) :
    decodeSegment (escape .path (encodeURIComponent s)) = encodeURIComponent s := by
  have hslash : encodeURIComponent s ≠ "/" := by
    intro heq
    have hmem : (47 : UInt8) ∈ encodeURIComponent s := heq ▸ List.mem_singleton_self 47
    exact (componentByte 47 (encodeURIComponent_bytes s 47 hmem)).1.2.1 rfl
  rw [decodeSegment, unescape_escape]
  exact if_neg hslash

/-- Escaped once more, it is one still. -/
theorem settled_escape (s : Bytes) (hempty : s ≠ []) (hdot : s ≠ ".") (hup : s ≠ "..") :
    Settled (escape .path (encodeURIComponent s)) := by
  have hproper := (settled_component s hempty hdot hup).proper
  have hread := unescape_escape s
  have hbytes : ∀ b ∈ escape .path (encodeURIComponent s), ComponentByte b := by
    intro b hb
    rw [escape_path] at hb
    rcases mem_percentEncode _ b hb with ⟨hb, -⟩ | hescape
    · exact encodeURIComponent_bytes s b hb
    · exact Or.inr hescape
  -- What it is read as is no text that is its own reading.
  have hne : ∀ t : Bytes, unescape .path t = some t → encodeURIComponent s ≠ t →
      escape .path (encodeURIComponent s) ≠ t := by
    intro t ht hneq heq
    rw [heq, ht] at hread
    exact hneq (Option.some.inj hread).symm
  have hname : Proper (escape .path (encodeURIComponent s)) :=
    ⟨hne [] rfl hproper.1, fun hmem => (componentByte 47 (hbytes 47 hmem)).1.2.1 rfl,
      hne "." rfl hproper.2.2.1, hne ".." rfl hproper.2.2.2⟩
  refine ⟨fun b hb => (componentByte b (hbytes b hb)).1, ⟨Or.inr hname, ?_, by rw [hread]; rfl⟩,
    hname, no_dots_of_unescape _ _ hread hproper.2.2.1 hproper.2.2.2⟩
  exact all_valid _ fun b hb => (componentByte b (hbytes b hb)).2.2

/-- Such segments arrive, each decoded. -/
theorem follow_settled (n : Nat) (segs : List Bytes) (query : Option Bytes) (hne : segs ≠ [])
    (h : ∀ e ∈ segs, Settled e) (hquery : ∀ b ∈ query.getD [], QueryByte b) :
    follow n (locate (withQuery (descent segs) query)) =
      some (segs.map decodeSegment,
        parseQuery ((query.map (percentEncode queryKept)).getD [])) := by
  have hlocate := locate_descent segs query hne (fun e he => (h e he).bytes) hquery
  rw [resolve_of_no_dots [] segs fun e he => (h e he).no_dots, List.nil_append] at hlocate
  rw [hlocate]
  exact follow_request _ _ _ _ (receive_clean segs _ hne (fun e he => (h e he).encoded)
    (sent_printable query) (cleanPath_names segs (fun e he => (h e he).proper) hne))

/-- What the router matches of a name. -/
def routed (name : Bytes) : Bytes := if name = "/" then [] else name

theorem encoded_components (names : List Bytes) (h : ∀ name ∈ names, name ≠ "." ∧ name ≠ "..") :
    ∀ e ∈ names.map encodeURIComponent, Encoded e := by
  intro e he
  rcases List.mem_map.mp he with ⟨name, hname, rfl⟩
  exact encoded_component name (h name hname).1 (h name hname).2

/-- Names that are neither empty nor dots arrive. -/
theorem follow_direct (n : Nat) (names : List Bytes) (hne : names ≠ [])
    (h : ∀ name ∈ names, name ≠ [] ∧ name ≠ "." ∧ name ≠ "..") :
    follow n (descent (names.map encodeURIComponent)) = some (names.map routed, parseQuery []) := by
  have hproper : ∀ e ∈ names.map encodeURIComponent, Proper e := by
    intro e he
    rcases List.mem_map.mp he with ⟨name, hname, rfl⟩
    rcases h name hname with ⟨hempty, hdot, hup⟩
    exact (settled_component name hempty hdot hup).proper
  have hne' : names.map encodeURIComponent ≠ [] := fun heq => hne (List.map_eq_nil_iff.mp heq)
  have hrouted : (names.map encodeURIComponent).map decodeSegment = names.map routed := by
    rw [List.map_map]
    exact List.map_congr_left fun name _ => decodeSegment_component name
  rw [← hrouted]
  exact follow_request _ _ _ _ (receive_clean _ none hne'
    (encoded_components names fun name hname => (h name hname).2)
    (fun b hb => absurd hb List.not_mem_nil) (cleanPath_names _ hproper hne'))

/-- Where some are empty, the others arrive after a redirect, as they were written. -/
theorem follow_cleaned (n : Nat) (front : List Bytes) (last : Bytes)
    (h : ∀ name ∈ front ++ [last], name ≠ "." ∧ name ≠ "..") (hempty : [] ∈ front)
    (hlast : last ≠ []) :
    follow (n + 1) (descent ((front ++ [last]).map encodeURIComponent)) =
      some (((front ++ [last]).filter (· ≠ [])).map encodeURIComponent, parseQuery []) := by
  have hencoded := encoded_components _ h
  have hne : (front ++ [last]).map encodeURIComponent ≠ [] := by
    rw [List.map_append]
    exact List.concat_ne_nil _ _
  have hplain : ∀ e ∈ front.map encodeURIComponent, Plain e := fun e he =>
    (hencoded e (by rw [List.map_append]; exact List.mem_append_left _ he)).plain
  have hproper : Proper (encodeURIComponent last) := by
    rcases h last (List.mem_append_right _ (List.mem_singleton_self last)) with ⟨hdot, hup⟩
    exact (settled_component last hlast hdot hup).proper
  have hdirty := cleanPath_empty _ _ hplain hproper (List.mem_map_of_mem hempty)
  have hclean := cleanPath_descent _ _ hplain hproper
  have hrest : (front.map encodeURIComponent).filter (· ≠ []) ++ [encodeURIComponent last] =
      ((front ++ [last]).filter (· ≠ [])).map encodeURIComponent := by
    rw [filter_components, List.filter_append, List.map_append, List.filter_cons,
      if_pos (decide_eq_true hlast)]
    rfl
  rw [hrest] at hclean
  -- What the router redirects to are the other names, escaped once more.
  generalize hothers : (front ++ [last]).filter (· ≠ []) = others at hclean ⊢
  have hothers' : others ≠ [] := by
    rw [← hothers, List.filter_append, List.filter_cons, if_pos (decide_eq_true hlast)]
    exact List.concat_ne_nil _ _
  have hrooted : (descent (others.map encodeURIComponent)).head? = some 47 := by
    cases others with
    | nil => exact absurd rfl hothers'
    | cons e others => rfl
  have hsettled : ∀ e ∈ (others.map encodeURIComponent).map (escape .path), Settled e := by
    intro e he
    rcases List.mem_map.mp he with ⟨e', he', rfl⟩
    rcases List.mem_map.mp he' with ⟨name, hname, rfl⟩
    rw [← hothers] at hname
    rcases List.mem_filter.mp hname with ⟨hname, hnonempty⟩
    exact settled_escape name (of_decide_eq_true hnonempty) (h name hname).1 (h name hname).2
  have hlocation : escape .path (descent (others.map encodeURIComponent)) =
      descent ((others.map encodeURIComponent).map (escape .path)) := by
    rw [escape_path, percentEncode_descent _ (by decide)]
    exact congrArg descent (List.map_congr_left fun e _ => (escape_path e).symm)
  have hdecode : ((others.map encodeURIComponent).map (escape .path)).map decodeSegment =
      others.map encodeURIComponent := by
    rw [List.map_map, List.map_map]
    exact List.map_congr_left fun name _ => decodeSegment_escape name
  have hredirect := receive_redirect _ none hne hencoded (fun b hb => absurd hb List.not_mem_nil)
    (by rw [List.map_append]; exact hdirty) (by rw [List.map_append]; exact hclean ▸ hrooted)
  rw [List.map_append] at hredirect ⊢
  rw [List.map_singleton, hclean, hlocation] at hredirect
  refine (follow_redirect n _ _ hredirect).trans ((follow_settled n _ none
    (fun heq => hothers' ?_) hsettled fun b hb => absurd hb List.not_mem_nil).trans ?_)
  · exact List.map_eq_nil_iff.mp (List.map_eq_nil_iff.mp heq)
  · rw [hdecode]
    rfl

end Web

end Bop
