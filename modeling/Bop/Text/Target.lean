import Bop.Text.Path
import Bop.Text.Percent

/-!
# Request Targets

How `net/http` of Go takes the target of a request apart: `net/url` cuts the
query off and decodes the path, keeping how it was encoded, and the router looks
at the path as it was encoded. A path that is not clean is redirected to the clean
one. One that is clean is matched segment by segment, each decoded on its own, so
that an encoded slash does not separate anything.

The router treats a segment that is nothing but a slash as the end of a path
that ends with one. Both are an empty segment here.

## Main definitions

* `parseRequestURI`: The target as a URL.
* `parseQuery`: The parameters of a query.
* `cleanPath`: The path a router looks for.
* `segments`: The segments it matches.
* `Received`, `receive`: What becomes of a target.

## Theorems

* `parseQuery_pairs`: Encoded parameters are read back.
* `cleanPath_descent`, `cleanPath_names`: What is clean.
* `receive_clean`: A clean path is matched by its segments.
* `receive_redirect`: One that is not is redirected.
-/

namespace Bop

namespace Url

open Paths

/-- `ParseRequestURI` of a target that begins with a slash. -/
def parseRequestURI (target : Bytes) : Option URL :=
  if target.any (fun b => b < 32 ∨ b = 127) = true ∨ target.head? ≠ some 47 then none
  else
    let (path, forceQuery, rawQuery) := splitQuery target
    (decodePart .path path).map fun path =>
      ⟨[], [], none, [], path, false, forceQuery, rawQuery, ([], [])⟩

/-- One parameter of a query. What cannot be decoded is dropped. -/
def parseParam (param : Bytes) : Option (Bytes × Bytes) :=
  if param = [] ∨ (59 : UInt8) ∈ param then none
  else do
    let key ← unescape .queryComponent (cut 61 param).1
    let value ← unescape .queryComponent (cut 61 param).2
    return (key, value)

/-- `Query`, as the parameters in order. -/
def parseQuery (query : Bytes) : List (Bytes × Bytes) := (query.splitOn 38).filterMap parseParam

/-- `cleanPath`. -/
def cleanPath (p : Bytes) : Bytes :=
  let rooted := if p.head? = some 47 then p else 47 :: p
  if rooted.getLast? = some 47 ∧ clean rooted ≠ "/" then clean rooted ++ "/" else clean rooted

/-- A segment decoded. What cannot be decoded is matched as it is, and a slash
    alone as the end of the path. -/
def decodeSegment (seg : Bytes) : Bytes :=
  let decoded := (unescape .path seg).getD seg
  if decoded = "/" then [] else decoded

/-- The segments of a path. -/
def segments (p : Bytes) : List Bytes := (p.tail.splitOn 47).map decodeSegment

/-- What becomes of a target before any handler runs. -/
inductive Received
  | refused
  | redirect (location : Bytes)
  | request (path : List Bytes) (query : List (Bytes × Bytes))

/-- What a server with a router makes of a target. -/
def receive (target : Bytes) : Received :=
  match parseRequestURI target with
  | none => .refused
  | some u =>
      let path := encodePart .path u.path
      if cleanPath path = path then .request (segments path) (parseQuery u.rawQuery)
      else .redirect
        (URL.string ⟨[], [], none, [], (cleanPath path, []), false, false, u.rawQuery, ([], [])⟩)

/-! ### Queries -/

theorem cut_eq (c : UInt8) (a b : Bytes) (h : c ∉ a) : cut c (a ++ c :: b) = (a, b) := by
  have hall : ∀ x ∈ a, decide (x ≠ c) = true := fun x hx => decide_eq_true fun heq => h (heq ▸ hx)
  have hstop : decide (c ≠ c) = false := decide_eq_false (fun h => h rfl)
  unfold cut
  rw [List.takeWhile_append_of_pos hall, List.dropWhile_append_of_pos hall,
    List.takeWhile_cons_of_neg (by rw [hstop]; exact Bool.false_ne_true),
    List.dropWhile_cons_of_neg (by rw [hstop]; exact Bool.false_ne_true), List.append_nil,
    List.tail_cons]

theorem cut_all (c : UInt8) (a : Bytes) (h : c ∉ a) : cut c a = (a, []) := by
  have hall : ∀ x ∈ a, decide (x ≠ c) = true := fun x hx => decide_eq_true fun heq => h (heq ▸ hx)
  have hdrop : a.dropWhile (· ≠ c) = [] := List.dropWhile_eq_nil_iff.mpr hall
  unfold cut
  rw [hdrop, List.takeWhile_eq_self_iff.mpr hall, List.tail_nil]

/-- The bytes that separate parameters. -/
def QueryMark (b : UInt8) : Prop := b = 38 ∨ b = 59 ∨ b = 61

section Pairs

variable (raw : Bytes → Bytes) (hread : ∀ s, unescape .queryComponent (raw s) = some s)
  (hmarks : ∀ s, ∀ b ∈ raw s, ¬ QueryMark b)

include hread hmarks

theorem parseParam_pair (key value : Bytes) :
    parseParam (raw key ++ 61 :: raw value) = some (key, value) := by
  have hcut : cut 61 (raw key ++ 61 :: raw value) = (raw key, raw value) :=
    cut_eq 61 _ _ fun h => hmarks key 61 h (Or.inr (Or.inr rfl))
  have hcond : ¬ (raw key ++ 61 :: raw value = [] ∨
      (59 : UInt8) ∈ raw key ++ 61 :: raw value) := by
    rintro (h | h)
    · exact List.append_ne_nil_of_right_ne_nil _ (List.cons_ne_nil _ _) h
    · rcases List.mem_append.mp h with h | h
      · exact hmarks key 59 h (Or.inr (Or.inl rfl))
      · rcases List.mem_cons.mp h with h | h
        · exact absurd h (by decide)
        · exact hmarks value 59 h (Or.inr (Or.inl rfl))
  rw [parseParam, if_neg hcond, hcut, hread, hread]
  rfl

/-- Parameters that are encoded one by one are read back. -/
theorem parseQuery_pairs (ps : List (Bytes × Bytes)) :
    parseQuery (join "&" (ps.map fun p => raw p.1 ++ 61 :: raw p.2)) = ps := by
  have hfree : ∀ p : Bytes × Bytes, (38 : UInt8) ∉ raw p.1 ++ 61 :: raw p.2 := by
    intro p h
    rcases List.mem_append.mp h with h | h
    · exact hmarks _ 38 h (Or.inl rfl)
    · rcases List.mem_cons.mp h with h | h
      · exact absurd h (by decide)
      · exact hmarks _ 38 h (Or.inl rfl)
  induction ps with
  | nil => rfl
  | cons p rest ih =>
      have hparam := parseParam_pair raw hread hmarks p.1 p.2
      cases rest with
      | nil =>
          rw [List.map_singleton, join, parseQuery, List.splitOn_eq_singleton (hfree p),
            List.filterMap_cons_some hparam]
          rfl
      | cons p' rest =>
          have hjoin : join "&" ((p :: p' :: rest).map fun p => raw p.1 ++ 61 :: raw p.2) =
              (raw p.1 ++ 61 :: raw p.2) ++ 38 ::
                join "&" ((p' :: rest).map fun p => raw p.1 ++ 61 :: raw p.2) := by
            rw [List.map_cons, List.map_cons, join_cons_cons, List.append_assoc]
            rfl
          rw [hjoin, parseQuery, List.splitOn_append_cons_self_of_not_mem (hfree p),
            List.filterMap_cons_some hparam, ← parseQuery, ih]

end Pairs

/-! ### Paths -/

/-- The elements of segments one behind the other are those that are not empty. -/
theorem elems_segments (dir : Bytes) (segs : List Bytes) (h : ∀ e ∈ segs, (47 : UInt8) ∉ e) :
    elems (dir ++ descent segs) = elems dir ++ segs.filter (· ≠ []) := by
  induction segs generalizing dir with
  | nil => rw [descent, List.flatMap_nil, List.append_nil, List.filter_nil, List.append_nil]
  | cons e segs ih =>
      have hstep := ih (dir ++ 47 :: e) fun e' he' => h e' (List.mem_cons_of_mem e he')
      rw [descent_cons, ← List.append_assoc, hstep, elems_append,
        elems_name e (h e List.mem_cons_self), List.append_assoc, List.filter_cons]
      by_cases he : e = []
      · rw [if_pos he, if_neg (by rw [he]; decide), List.nil_append]
      · rw [if_neg he, if_pos (decide_eq_true he), List.singleton_append]

/-- A segment that is empty or a name. -/
def Plain (seg : Bytes) : Prop := seg = [] ∨ Proper seg

theorem Plain.no_slash {seg : Bytes} (h : Plain seg) : (47 : UInt8) ∉ seg := by
  rcases h with rfl | h
  · exact List.not_mem_nil
  · exact h.2.1

/-- Segments clean to those that are not empty. -/
theorem clean_descent (segs : List Bytes) (h : ∀ e ∈ segs, Plain e)
    (hne : segs.filter (· ≠ []) ≠ []) :
    clean (descent segs) = descent (segs.filter (· ≠ [])) := by
  have hnames : ∀ e ∈ segs.filter (· ≠ []), Proper e := by
    intro e he
    rcases List.mem_filter.mp he with ⟨hmem, hnonempty⟩
    exact (h e hmem).resolve_left (of_decide_eq_true hnonempty)
  have hrooted : (descent segs).head? = some 47 := by
    cases segs with
    | nil => exact absurd rfl hne
    | cons e segs => rfl
  have helems := elems_segments [] segs fun e he => (h e he).no_slash
  rw [List.nil_append] at helems
  rw [clean_rooted _ hrooted, helems]
  change "/" ++ join "/" (walk (segs.filter (· ≠ []))).down = _
  rw [walk_names _ hnames, slash_join _ hne]

theorem descent_append (segs segs' : List Bytes) :
    descent (segs ++ segs') = descent segs ++ descent segs' := List.flatMap_append

/-- What a path that does not end with a slash cleans to. -/
theorem cleanPath_descent (segs : List Bytes) (last : Bytes) (h : ∀ e ∈ segs, Plain e)
    (hlast : Proper last) :
    cleanPath (descent (segs ++ [last])) = descent (segs.filter (· ≠ []) ++ [last]) := by
  have hfilter : (segs ++ [last]).filter (· ≠ []) = segs.filter (· ≠ []) ++ [last] := by
    rw [List.filter_append, List.filter_cons, if_pos (decide_eq_true hlast.1), List.filter_nil]
  have hclean : clean (descent (segs ++ [last])) = descent (segs.filter (· ≠ []) ++ [last]) := by
    rw [← hfilter]
    refine clean_descent _ (fun e he => ?_) (by rw [hfilter]; exact List.concat_ne_nil _ _)
    rcases List.mem_append.mp he with he | he
    · exact h e he
    · exact Or.inr (List.mem_singleton.mp he ▸ hlast)
  have hrooted : (descent (segs ++ [last])).head? = some 47 := by
    cases segs <;> rfl
  have hend : (descent (segs ++ [last])).getLast? ≠ some 47 := by
    have hsplit : descent (segs ++ [last]) = (descent segs ++ [47]) ++ last := by
      rw [descent_append, descent_cons, List.append_assoc]
      exact congrArg (descent segs ++ ·) (List.append_nil _)
    rw [hsplit, List.getLast?_append_of_ne_nil _ hlast.1]
    exact fun hslash => hlast.2.1 (List.mem_of_getLast? hslash)
  rw [cleanPath]
  simp only [hrooted, if_pos]
  rw [if_neg fun hcond => hend hcond.1, hclean]

/-- Names are clean. -/
theorem cleanPath_names (names : List Bytes) (h : ∀ e ∈ names, Proper e) (hne : names ≠ []) :
    cleanPath (descent names) = descent names := by
  rcases List.eq_nil_or_concat' names with rfl | ⟨front, last, rfl⟩
  · exact absurd rfl hne
  · have hfilter : front.filter (· ≠ []) = front :=
      List.filter_eq_self.mpr fun e he => decide_eq_true (h e (List.mem_append_left _ he)).1
    have hclean := cleanPath_descent front last
      (fun e he => Or.inr (h e (List.mem_append_left _ he)))
      (h last (List.mem_append_right _ (List.mem_singleton_self last)))
    rwa [hfilter] at hclean

/-! ### Targets -/

/-- A segment that is written as a path may hold it. -/
structure Encoded (seg : Bytes) : Prop where
  plain : Plain seg
  valid : validEncoded seg .path = true
  reads : (unescape .path seg).isSome

/-- A path with a query behind it, if there is one. -/
def withQuery (path : Bytes) : Option Bytes → Bytes
  | none => path
  | some query => path ++ 63 :: query

/-- A byte that ends no target. -/
def Printable (b : UInt8) : Prop := ¬ (b < 32 ∨ b = 127)

/-- What a path may hold is printed, and is no question mark. -/
theorem valid_byte (b : UInt8) (h : validEncoded [b] .path = true) : Printable b ∧ b ≠ 63 := by
  unfold Printable
  revert b
  exact forall_byte (by decide +kernel)

/-- A path is valid when its bytes are. -/
theorem all_valid (s : Bytes) (h : ∀ b ∈ s, validEncoded [b] .path = true) :
    validEncoded s .path = true := by
  refine List.all_eq_true.mpr fun b hb => ?_
  have hb := h b hb
  rwa [validEncoded, List.all_cons, List.all_nil, Bool.and_true] at hb

theorem valid_mem (s : Bytes) (h : validEncoded s .path = true) (b : UInt8) (hb : b ∈ s) :
    validEncoded [b] .path = true := by
  have hone := List.all_eq_true.mp h b hb
  rw [validEncoded, List.all_cons, hone, Bool.true_and, List.all_nil]

/-- Segments one behind the other are written as a path may hold them. -/
theorem encoded_descent (segs : List Bytes) (h : ∀ e ∈ segs, Encoded e) :
    validEncoded (descent segs) .path = true ∧ (unescape .path (descent segs)).isSome := by
  induction segs with
  | nil => exact ⟨rfl, rfl⟩
  | cons e segs ih =>
      have he := h e List.mem_cons_self
      rcases ih fun e' he' => h e' (List.mem_cons_of_mem e he') with ⟨hvalid, hreads⟩
      rcases Option.isSome_iff_exists.mp hreads with ⟨t, ht⟩
      rcases Option.isSome_iff_exists.mp he.reads with ⟨t', ht'⟩
      rw [descent_cons]
      constructor
      · have hsplit : validEncoded (47 :: e ++ descent segs) .path =
            (validEncoded (47 :: e) .path && validEncoded (descent segs) .path) :=
          List.all_append
        have hcons : validEncoded (47 :: e) .path = validEncoded e .path := Bool.true_and _
        rw [hsplit, hcons, he.valid, hvalid]
        rfl
      · rw [List.cons_append, unescape_byte .path ⟨by decide, by decide⟩ 47 _ (by decide)
          (fun h => by cases h), unescape_append .path e t' _ ht', ht]
        rfl

/-- The query of a target is what is behind the path. -/
theorem splitQuery_withQuery (path : Bytes) (query : Option Bytes) (h : (63 : UInt8) ∉ path) :
    ∃ force, splitQuery (withQuery path query) = (path, force, query.getD []) := by
  cases query with
  | none =>
      have hlast : ¬ (path.getLast? = some 63 ∧ path.count 63 = 1) :=
        fun hmark => h (List.mem_of_getLast? hmark.1)
      refine ⟨false, ?_⟩
      rw [withQuery, splitQuery, if_neg hlast, cut_all 63 path h]
      rfl
  | some query =>
      by_cases hq : query = []
      · have hlast : (path ++ [63]).getLast? = some 63 ∧ (path ++ [63]).count 63 = 1 := by
          rw [List.getLast?_concat, List.count_append, List.count_eq_zero_of_not_mem h]
          exact ⟨rfl, rfl⟩
        refine ⟨true, ?_⟩
        rw [hq, withQuery, splitQuery, if_pos hlast, List.dropLast_concat]
        rfl
      · have hlast : ¬ ((path ++ 63 :: query).getLast? = some 63 ∧
            (path ++ 63 :: query).count 63 = 1) := by
          rintro ⟨hlast, hcount⟩
          rw [List.count_append, List.count_eq_zero_of_not_mem h, List.count_cons_self,
            Nat.zero_add, Nat.add_eq_right, List.count_eq_zero] at hcount
          rw [List.getLast?_append_of_ne_nil _ (List.cons_ne_nil _ _),
            List.getLast?_cons_of_ne_nil hq] at hlast
          exact hcount (List.mem_of_getLast? hlast)
        refine ⟨false, ?_⟩
        rw [withQuery, splitQuery, if_neg hlast, cut_eq 63 path query h]
        rfl

/-- A path that is rooted is read as it was encoded. -/
theorem encodePart_decodePart (p : Bytes) (part : Bytes × Bytes) (hrooted : p.head? = some 47)
    (hvalid : validEncoded p .path = true) (h : decodePart .path p = some part) :
    encodePart .path part = p := by
  rcases Option.map_eq_some_iff.mp h with ⟨decoded, hdecoded, rfl⟩
  by_cases heq : p = escape .path decoded
  · have hstar : ¬ (Encoding.path = .path ∧ decoded = "*") := by
      rintro ⟨-, rfl⟩
      rw [heq] at hrooted
      cases hrooted
    rw [if_pos heq, encodePart, if_neg fun h => h.1 rfl, if_neg hstar, heq]
  · have hne : p ≠ [] := by
      rintro rfl
      cases hrooted
    rw [if_neg heq, encodePart, if_pos ⟨hne, hvalid, hdecoded⟩]

/-- A target of encoded segments, as its parts. -/
theorem parseRequestURI_withQuery (segs : List Bytes) (query : Option Bytes) (hne : segs ≠ [])
    (h : ∀ e ∈ segs, Encoded e) (hquery : ∀ b ∈ query.getD [], Printable b) :
    ∃ u, parseRequestURI (withQuery (descent segs) query) = some u ∧
      encodePart .path u.path = descent segs ∧ u.rawQuery = query.getD [] := by
  rcases encoded_descent segs h with ⟨hvalid, hreads⟩
  have hbytes : ∀ b ∈ descent segs, Printable b ∧ b ≠ 63 :=
    fun b hb => valid_byte b (valid_mem _ hvalid b hb)
  have hrooted : (descent segs).head? = some 47 := by
    cases segs with
    | nil => exact absurd rfl hne
    | cons e segs => rfl
  have hgood : ¬ ((withQuery (descent segs) query).any (fun b => b < 32 ∨ b = 127) = true ∨
      (withQuery (descent segs) query).head? ≠ some 47) := by
    rintro (hany | hhead)
    · rcases List.any_eq_true.mp hany with ⟨b, hb, hcontrol⟩
      have hprintable : Printable b := by
        cases query with
        | none => exact (hbytes b hb).1
        | some query =>
            rcases List.mem_append.mp hb with hb | hb
            · exact (hbytes b hb).1
            · rcases List.mem_cons.mp hb with rfl | hb
              · unfold Printable
                decide
              · exact hquery b hb
      exact hprintable (of_decide_eq_true hcontrol)
    · cases query with
      | none => exact hhead hrooted
      | some query => exact hhead (by rw [withQuery, List.head?_append, hrooted]; rfl)
  rcases splitQuery_withQuery (descent segs) query fun hmem => (hbytes 63 hmem).2 rfl with
    ⟨force, hsplit⟩
  rcases Option.isSome_iff_exists.mp hreads with ⟨decoded, hdecoded⟩
  have hpart : decodePart .path (descent segs) = some
      (decoded, if descent segs = escape .path decoded then [] else descent segs) := by
    rw [decodePart, hdecoded, Option.map_some]
  refine ⟨⟨[], [], none, [], _, false, force, query.getD [], ([], [])⟩, ?_,
    encodePart_decodePart (descent segs) _ hrooted hvalid hpart, rfl⟩
  rw [parseRequestURI, if_neg hgood, hsplit]
  dsimp only
  rw [hpart, Option.map_some]

/-- Segments one behind the other are taken apart again. -/
theorem splitOnP_descent (p : UInt8 → Bool) (hp : p 47 = true) (segs : List Bytes)
    (hne : segs ≠ []) (h : ∀ e ∈ segs, ∀ b ∈ e, p b = false) :
    (descent segs).tail.splitOnP p = segs := by
  induction segs with
  | nil => exact absurd rfl hne
  | cons e segs ih =>
      have he := h e List.mem_cons_self
      cases segs with
      | nil =>
          rw [descent, List.flatMap_singleton, List.tail_cons, List.splitOnP_eq_singleton he]
      | cons e' segs =>
          have hrest := ih (List.cons_ne_nil _ _) fun x hx => h x (List.mem_cons_of_mem e hx)
          rw [descent_cons, List.cons_append, List.tail_cons, descent_cons, List.cons_append,
            List.splitOnP_append_cons_of_forall_mem he 47 hp]
          exact congrArg (e :: ·) hrest

/-- The segments of a path are read back one by one. -/
theorem segments_descent (segs : List Bytes) (hne : segs ≠ []) (h : ∀ e ∈ segs, (47 : UInt8) ∉ e) :
    segments (descent segs) = segs.map decodeSegment := by
  rw [segments, List.splitOn_eq_splitOnP, splitOnP_descent (· == 47) rfl segs hne]
  exact fun e he b hb => beq_eq_false_iff_ne.mpr fun heq => h e he (heq ▸ hb)

/-- An encoder that keeps slashes encodes segment by segment. -/
theorem percentEncode_descent (keep : UInt8 → Bool) (h : keep 47 = true) (segs : List Bytes) :
    percentEncode keep (descent segs) = descent (segs.map (percentEncode keep)) := by
  induction segs with
  | nil => rfl
  | cons e segs ih =>
      rw [descent_cons, percentEncode_append, ih, percentEncode_cons, if_pos h, List.map_cons,
        descent_cons, List.singleton_append]

/-- A rooted path and its query, printed. -/
theorem string_path (p q : Bytes) (hrooted : p.head? = some 47) :
    URL.string ⟨[], [], none, [], (p, []), false, false, q, ([], [])⟩ =
      withQuery (escape .path p) (if q = [] then none else some q) := by
  rcases List.head?_eq_some_iff.mp hrooted with ⟨rest, rfl⟩
  have hescape : escape .path (47 :: rest) = 47 :: escape .path rest := rfl
  have hpath : encodePart .path (47 :: rest, []) = escape .path (47 :: rest) := by
    have hstar : ¬ (Encoding.path = .path ∧ 47 :: rest = "*") := fun h => by cases h.2
    rw [encodePart, if_neg fun h => h.1 rfl, if_neg hstar]
  have hfront : URL.front ⟨[], [], none, [], (47 :: rest, []), false, false, q, ([], [])⟩ =
      escape .path (47 :: rest) := by
    unfold URL.front
    dsimp only
    rw [hpath, hescape]
    rfl
  rw [URL.string, hfront]
  by_cases hq : q = []
  · rw [hq]
    exact List.append_nil _ ▸ List.append_nil _
  · rw [if_neg hq, URL.query, if_pos (Or.inr hq)]
    exact List.append_nil _

/-- A path with an empty segment in it is not clean. -/
theorem cleanPath_empty (segs : List Bytes) (last : Bytes) (h : ∀ e ∈ segs, Plain e)
    (hlast : Proper last) (hempty : [] ∈ segs) :
    cleanPath (descent (segs ++ [last])) ≠ descent (segs ++ [last]) := by
  have hsplit : ∀ segs' : List Bytes, (∀ e ∈ segs', Plain e) →
      (descent (segs' ++ [last])).tail.splitOnP (· == 47) = segs' ++ [last] := by
    intro segs' h'
    refine splitOnP_descent (· == 47) rfl _ (List.concat_ne_nil _ _) fun e he b hb => ?_
    have hplain : Plain e := (List.mem_append.mp he).elim (h' e)
      fun he => Or.inr (List.mem_singleton.mp he ▸ hlast)
    refine beq_eq_false_iff_ne.mpr ?_
    rintro rfl
    exact hplain.no_slash hb
  intro hclean
  rw [cleanPath_descent segs last h hlast] at hclean
  -- The same path would have other segments.
  have heq := congrArg (fun p : Bytes => p.tail.splitOnP (· == 47)) hclean
  rw [hsplit _ fun e he => h e (List.mem_of_mem_filter he), hsplit segs h] at heq
  rw [← List.append_cancel_right heq] at hempty
  exact absurd rfl (of_decide_eq_true (List.mem_filter.mp hempty).2)

section Received

variable (segs : List Bytes) (query : Option Bytes) (hne : segs ≠ [])
  (h : ∀ e ∈ segs, Encoded e) (hquery : ∀ b ∈ query.getD [], Printable b)

include hne h hquery

/-- A clean path is matched by its segments. -/
theorem receive_clean (hclean : cleanPath (descent segs) = descent segs) :
    receive (withQuery (descent segs) query) =
      .request (segs.map decodeSegment) (parseQuery (query.getD [])) := by
  rcases parseRequestURI_withQuery segs query hne h hquery with ⟨u, hu, hpath, hraw⟩
  rw [receive, hu]
  dsimp only
  rw [hpath, if_pos hclean, hraw, segments_descent segs hne fun e he => (h e he).plain.no_slash]

/-- One that is not is redirected to the clean path. -/
theorem receive_redirect (hclean : cleanPath (descent segs) ≠ descent segs)
    (hrooted : (cleanPath (descent segs)).head? = some 47) :
    receive (withQuery (descent segs) query) = .redirect
      (withQuery (escape .path (cleanPath (descent segs)))
        (if query.getD [] = [] then none else some (query.getD []))) := by
  rcases parseRequestURI_withQuery segs query hne h hquery with ⟨u, hu, hpath, hraw⟩
  rw [receive, hu]
  dsimp only
  rw [hpath, if_neg hclean, hraw, string_path _ _ hrooted]

end Received

end Url

end Bop
