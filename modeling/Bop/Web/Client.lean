import Bop.Api.WriteScope
import Bop.Json.Stringify
import Bop.Web.Fetch

/-!
# The Console's Calls

What the console asks of the API and what the API is asked. Every call is written
as a reference with its arguments encoded, the browser makes a target of it, and
the router takes the target apart and decodes what stands for a wildcard.

Names that are empty, dots or a single slash do not come through a path. They are
resolved away, cleaned away or taken for the end of the path, and what is left
matches no route at all. Every other name arrives as it was given.

## Main definitions

* `Call`: A call of `api`.
* `Call.url`, `Call.method`, `Call.body`: What is fetched for it.
* `Call.request`: What it means.
* `Call.delivered`: What arrives.
* `Carried`: A name that comes through a path.

## Theorems

* `follow_carried`: Names that are carried arrive.
* `call_delivered`: So does every call whose names are, and no other.
-/

namespace Bop

namespace Web

open Url Paths Api

/-! ### Calls -/

/-- A call of `api`. Nothing stands for an argument that is not given. A limit is a
    number up to `2 ^ 53`, which `String` writes out in its digits. -/
inductive Call
  | listHosts
  | listJobs (status : Bytes)
  | getJob (id : Bytes)
  | listSnapshots (host : Bytes)
  | listEvents (jobId host : Bytes) (limit : Nat)
  | triggerBackup (host plugin : Bytes)
  | getPluginConfig (host plugin : Bytes)
  | setPluginConfig (host plugin cfg : Bytes)

/-- The parameters `listEvents` sets. -/
def eventParams (jobId host : Bytes) (limit : Nat) : List (Bytes × Bytes) :=
  let given (key value : Bytes) := if value = [] then [] else [(key, value)]
  given "job_id" jobId ++ given "host" host ++
    given "limit" (if limit = 0 then [] else itoaNat limit)

/-- Where the configuration of a plugin is. -/
def configUrl (host plugin : Bytes) : Bytes :=
  "/v1/hosts/" ++ encodeURIComponent host ++ "/plugins/" ++ encodeURIComponent plugin ++ "/config"

namespace Call

/-- The reference that is fetched. -/
def url : Call → Bytes
  | .listHosts => "/v1/hosts"
  | .listJobs status =>
      let qs : Bytes := if status = [] then [] else "?status=" ++ encodeURIComponent status
      "/v1/jobs" ++ qs
  | .getJob id => "/v1/jobs/" ++ encodeURIComponent id
  | .listSnapshots host => "/v1/snapshots?host=" ++ encodeURIComponent host
  | .listEvents jobId host limit =>
      let qs := searchParams (eventParams jobId host limit)
      let query : Bytes := if qs = [] then [] else "?" ++ qs
      "/v1/events" ++ query
  | .triggerBackup _ _ => "/v1/backups"
  | .getPluginConfig host plugin => configUrl host plugin
  | .setPluginConfig host plugin _ => configUrl host plugin

def method : Call → Bytes
  | .triggerBackup _ _ => "POST"
  | .setPluginConfig _ _ _ => "PUT"
  | _ => "GET"

/-- The body that is sent. A configuration is given as its text. -/
def body : Call → Bytes
  | .triggerBackup host plugin =>
      "\x7b\"host\":" ++ Json.stringify host ++ ",\"plugin\":" ++ Json.stringify plugin ++ "\x7d"
  | .setPluginConfig _ _ cfg => cfg
  | _ => []

/-! ### What they mean -/

/-- The path of a call, its names as they were given. -/
def path : Call → List Bytes
  | .listHosts => ["v1", "hosts"]
  | .listJobs _ => ["v1", "jobs"]
  | .getJob id => ["v1", "jobs", id]
  | .listSnapshots _ => ["v1", "snapshots"]
  | .listEvents _ _ _ => ["v1", "events"]
  | .triggerBackup _ _ => ["v1", "backups"]
  | .getPluginConfig host plugin => ["v1", "hosts", host, "plugins", plugin, "config"]
  | .setPluginConfig host plugin _ => ["v1", "hosts", host, "plugins", plugin, "config"]

/-- Its parameters. -/
def params : Call → List (Bytes × Bytes)
  | .listJobs status => if status = [] then [] else [("status", status)]
  | .listSnapshots host => [("host", host)]
  | .listEvents jobId host limit => eventParams jobId host limit
  | _ => []

/-- The names that are a part of the path. -/
def names : Call → List Bytes
  | .getJob id => [id]
  | .getPluginConfig host plugin => [host, plugin]
  | .setPluginConfig host plugin _ => [host, plugin]
  | _ => []

/-- The request a call means. -/
def request (c : Call) (header : List (Bytes × Bytes)) : Request :=
  ⟨c.method, c.path, c.params, header, ⟨c.body, none⟩⟩

/-- What the server is finally asked. -/
def delivered (c : Call) (header : List (Bytes × Bytes)) : Option Request :=
  (follow 20 (locate c.url)).map fun r => ⟨c.method, r.1, r.2, header, ⟨c.body, none⟩⟩

variable {S D Digest : Type}

/-- The handler a call is for, with the arguments it is given. -/
def handler (s : Api.Server S D Digest) (c : Call) (req : Request) : Proc S (Response D) :=
  match c with
  | .listHosts => return Api.listHosts s.ctl.inventory
  | .listJobs _ => Api.listJobs req
  | .getJob id => Api.getJob id
  | .listSnapshots _ => Api.listSnapshots req
  | .listEvents _ _ _ => Api.listEvents req
  | .triggerBackup _ _ => Api.triggerBackup s.ctl req.body
  | .getPluginConfig host plugin => Api.getPluginConfig s.dtos host plugin
  | .setPluginConfig host plugin _ => Api.setPluginConfig s.dtos host plugin req

/-- The tokens that may. -/
def hashes (s : Api.Server S D Digest) : Call → List Digest
  | .triggerBackup _ _ => s.writeHashes
  | .setPluginConfig _ _ _ => s.writeHashes
  | _ => s.readHashes

end Call

/-- A name that comes through a path. -/
def Carried (name : Bytes) : Prop := name ∉ (["", ".", "..", "/"] : List Bytes)

/-! ### References -/

/-- The query of a call as it is written. -/
def Call.queryText : Call → Option Bytes
  | .listJobs status => if status = [] then none else some ("status=" ++ encodeURIComponent status)
  | .listSnapshots host => some ("host=" ++ encodeURIComponent host)
  | .listEvents jobId host limit =>
      let qs := searchParams (eventParams jobId host limit)
      if qs = [] then none else some qs
  | _ => none

/-- A reference is its names, encoded one by one, and its query. -/
theorem url_eq (c : Call) :
    c.url = withQuery (descent (c.path.map encodeURIComponent)) c.queryText := by
  have hconfig : ∀ host plugin, configUrl host plugin =
      descent ((["v1", "hosts", host, "plugins", plugin, "config"] : List Bytes).map
        encodeURIComponent) := by
    intro host plugin
    simp only [configUrl, List.append_assoc]
    rfl
  cases c with
  | listHosts => rfl
  | listJobs status =>
      change ("/v1/jobs" : Bytes) ++ (if status = [] then ([] : Bytes) else _) =
        withQuery _ (if status = [] then none else some _)
      split <;> rfl
  | getJob id =>
      change _ = ("/v1/jobs" : Bytes) ++ (47 :: encodeURIComponent id ++ [])
      rw [List.append_nil]
      rfl
  | listSnapshots host => rfl
  | listEvents jobId host limit =>
      change ("/v1/events" : Bytes) ++
        (if searchParams (eventParams jobId host limit) = [] then ([] : Bytes) else _) =
        withQuery _ (if searchParams (eventParams jobId host limit) = [] then none else some _)
      split <;> rfl
  | triggerBackup host plugin => rfl
  | getPluginConfig host plugin => exact hconfig host plugin
  | setPluginConfig host plugin cfg => exact hconfig host plugin

/-! ### Names that are carried -/

/-- Names that are carried arrive. -/
theorem follow_carried (n : Nat) (names : List Bytes) (query : Option Bytes) (hne : names ≠ [])
    (h : ∀ name ∈ names, Carried name) (hquery : ∀ b ∈ query.getD [], QueryByte b) :
    follow n (locate (withQuery (descent (names.map encodeURIComponent)) query)) =
      some (names, parseQuery ((query.map (percentEncode queryKept)).getD [])) := by
  have hcarried : ∀ name ∈ names, name ≠ [] ∧ name ≠ "." ∧ name ≠ ".." ∧ name ≠ "/" := by
    intro name hname
    have hnot := h name hname
    simp only [Carried, List.mem_cons, List.not_mem_nil, or_false, not_or] at hnot
    exact hnot
  have hdecode : (names.map encodeURIComponent).map decodeSegment = names := by
    rw [List.map_map]
    refine (List.map_congr_left fun name hname => ?_).trans (List.map_id names)
    rw [Function.comp_apply, decodeSegment_component, if_neg (hcarried name hname).2.2.2]
    rfl
  rw [follow_settled n _ query (fun heq => hne (List.map_eq_nil_iff.mp heq)) ?_ hquery, hdecode]
  intro e he
  rcases List.mem_map.mp he with ⟨name, hname, rfl⟩
  rcases hcarried name hname with ⟨hempty, hdot, hup, -⟩
  exact settled_component name hempty hdot hup

/-- The query of a call may be written as it is. -/
theorem queryText_bytes (c : Call) : ∀ b ∈ c.queryText.getD [], QueryByte b := by
  have hcomponent : ∀ (key value : Bytes), (∀ b ∈ key, QueryByte b) →
      ∀ b ∈ key ++ encodeURIComponent value, QueryByte b := by
    intro key value hkey b hb
    rcases List.mem_append.mp hb with hb | hb
    · exact hkey b hb
    · exact (componentByte b (encodeURIComponent_bytes value b hb)).2.1
  have hnone : ∀ b ∈ ([] : Bytes), QueryByte b := fun b hb => absurd hb List.not_mem_nil
  cases c with
  | listJobs status =>
      change ∀ b ∈ (if status = [] then none else some _ : Option Bytes).getD [], QueryByte b
      split
      · exact hnone
      · exact hcomponent "status=" status (by unfold QueryByte; decide +kernel)
  | listSnapshots host => exact hcomponent "host=" host (by unfold QueryByte; decide +kernel)
  | listEvents jobId host limit =>
      change ∀ b ∈ (if searchParams (eventParams jobId host limit) = [] then none
        else some _ : Option Bytes).getD [], QueryByte b
      split
      · exact hnone
      · exact fun b hb => queryKept_written b (searchParams_kept _ b hb)
  | _ => exact hnone

/-- The parameters of a call arrive. -/
theorem parseQuery_queryText (c : Call) :
    parseQuery ((c.queryText.map (percentEncode queryKept)).getD []) = c.params := by
  have hnone : parseQuery [] = [] := rfl
  cases c with
  | listJobs status =>
      change parseQuery (((if status = [] then none else some _ : Option Bytes).map _).getD []) =
        if status = [] then [] else _
      split
      · exact hnone
      · exact parseQuery_component "status" status (by decide +kernel) (by decide +kernel)
  | listSnapshots host =>
      exact parseQuery_component "host" host (by decide +kernel) (by decide +kernel)
  | listEvents jobId host limit =>
      have hparams := parseQuery_searchParams (eventParams jobId host limit)
      change parseQuery (((if searchParams (eventParams jobId host limit) = [] then none
        else some _ : Option Bytes).map _).getD []) = eventParams jobId host limit
      split
      · next hempty =>
          rw [hempty] at hparams
          exact hparams
      · exact hparams
  | _ => exact hnone

/-- What is in a path beside the names is carried. -/
theorem path_names (c : Call) : ∀ name ∈ c.path, name ∈ c.names ∨ Carried name := by
  have hfixed : ∀ name ∈ (["v1", "hosts", "jobs", "snapshots", "events", "backups", "plugins",
      "config"] : List Bytes), Carried name := by
    unfold Carried
    decide
  intro name hname
  by_cases hmem : name ∈ c.names
  · exact Or.inl hmem
  · refine Or.inr (hfixed name ?_)
    cases c <;> simp_all [Call.path, Call.names] <;> tauto

/-- A call whose names are carried arrives as it is meant. -/
theorem delivered_carried (c : Call) (header : List (Bytes × Bytes))
    (h : ∀ name ∈ c.names, Carried name) : c.delivered header = some (c.request header) := by
  have hne : c.path ≠ [] := by cases c <;> exact List.cons_ne_nil _ _
  have hfollow := follow_carried 20 c.path c.queryText hne
    (fun name hname => (path_names c name hname).elim (h name) id) (queryText_bytes c)
  rw [Call.delivered, url_eq, hfollow, parseQuery_queryText]
  rfl

/-! ### Names that are not -/

/-- The patterns of the routes. -/
def patterns : List (List Seg) :=
  [[.lit "v1", .lit "hosts"], [.lit "v1", .lit "jobs"], [.lit "v1", .lit "jobs", .wild],
    [.lit "v1", .lit "snapshots"], [.lit "v1", .lit "events"], [.lit "v1", .lit "backups"],
    [.lit "v1", .lit "hosts", .wild, .lit "plugins", .wild, .lit "config"],
    [.lit "v1", .lit "hosts", .wild, .lit "plugins", .wild, .lit "config"]]

/-- A path that no route matches. -/
def Unrouted (path : List Bytes) : Prop := ∀ pat ∈ patterns, matchPath pat path = none

instance (path : List Bytes) : Decidable (Unrouted path) :=
  inferInstanceAs (Decidable (∀ pat ∈ patterns, matchPath pat path = none))

section Routes

variable {S D Digest : Type} (s : Api.Server S D Digest)

theorem table_patterns : s.table.map Entry.pattern = patterns := rfl

/-- Whatever the method. -/
theorem route_unrouted (req : Request) (h : Unrouted req.path) : s.route req = none := by
  refine List.findSome?_eq_none_iff.mpr fun e he => ?_
  have hpat : e.pattern ∈ patterns := by
    rw [← table_patterns s]
    exact List.mem_map_of_mem he
  rw [Entry.matches]
  split
  · rw [h e.pattern hpat]
    rfl
  · rfl

/-- A request that a call means is served by the handler it is for. -/
theorem serve_request [DecidableEq Digest] (c : Call) (header : List (Bytes × Bytes))
    (h : ∀ name ∈ c.names, name ≠ []) :
    s.serve (c.request header) = authMiddleware s.sha256 (c.hashes s)
      (c.handler s (c.request header)) (c.request header) := by
  have hroute : ∃ e vs, s.route (c.request header) = some (e, vs) ∧ e.hashes = c.hashes s ∧
      e.handler (c.request header) vs = c.handler s (c.request header) := by
    cases c with
    | getJob id =>
        have hid := h id (List.mem_singleton_self id)
        refine ⟨⟨"GET", [.lit "v1", .lit "jobs", .wild], s.readHashes,
          fun _ vs => Api.getJob (vs.getD 0 [])⟩, [id], ?_, rfl, rfl⟩
        simp [Server.route, Server.table, Entry.matches, matchMethod, matchPath, Call.request,
          Call.method, Call.path, hid]
    | getPluginConfig host plugin =>
        have hhost := h host List.mem_cons_self
        have hplugin := h plugin (List.mem_cons_of_mem _ (List.mem_singleton_self plugin))
        refine ⟨⟨"GET", [.lit "v1", .lit "hosts", .wild, .lit "plugins", .wild, .lit "config"],
          s.readHashes, fun _ vs => Api.getPluginConfig s.dtos (vs.getD 0 []) (vs.getD 1 [])⟩,
          [host, plugin], ?_, rfl, rfl⟩
        simp [Server.route, Server.table, Entry.matches, matchMethod, matchPath, Call.request,
          Call.method, Call.path, hhost, hplugin]
    | setPluginConfig host plugin cfg =>
        have hhost := h host List.mem_cons_self
        have hplugin := h plugin (List.mem_cons_of_mem _ (List.mem_singleton_self plugin))
        refine ⟨⟨"PUT", [.lit "v1", .lit "hosts", .wild, .lit "plugins", .wild, .lit "config"],
          s.writeHashes,
          fun req vs => Api.setPluginConfig s.dtos (vs.getD 0 []) (vs.getD 1 []) req⟩,
          [host, plugin], ?_, rfl, rfl⟩
        have hget : ¬ (("GET" : Bytes) = "PUT") := by decide
        have hpost : ¬ (("POST" : Bytes) = "PUT") := by decide
        have hhead : ¬ (("PUT" : Bytes) = "HEAD") := by decide
        simp [Server.route, Server.table, Entry.matches, matchMethod, matchPath, Call.request,
          Call.method, Call.path, hhost, hplugin, hget, hpost, hhead]
    | _ => exact ⟨_, _, rfl, rfl, rfl⟩
  rcases hroute with ⟨e, vs, hroute, hhashes, hhandler⟩
  rw [Server.serve, hroute]
  dsimp only
  rw [hhashes, hhandler]

end Routes

/-- Names that lead to no route, matched as they are or, where some are empty,
    after a redirect to the others. -/
structure Stray (names : List Bytes) : Prop where
  last : ∃ front, names = front ++ [("config" : Bytes)]
  no_dots : ∀ name ∈ names, name ≠ "." ∧ name ≠ ".."
  direct : Unrouted (names.map routed)
  redirected : [] ∈ names → Unrouted ((names.filter (· ≠ [])).map encodeURIComponent)

/-- Once they are resolved, such names lead nowhere. -/
theorem follow_stray (n : Nat) (names : List Bytes) (h : Stray names) :
    ∃ path query, follow (n + 1) (descent (names.map encodeURIComponent)) = some (path, query) ∧
      Unrouted path := by
  rcases h.last with ⟨front, rfl⟩
  by_cases hempty : [] ∈ front ++ [("config" : Bytes)]
  · have hfront : [] ∈ front := (List.mem_append.mp hempty).resolve_right fun h => by
      cases List.mem_singleton.mp h
    exact ⟨_, _, follow_cleaned n front "config" h.no_dots hfront (by decide),
      h.redirected hempty⟩
  · refine ⟨_, _, follow_direct (n + 1) _ (List.concat_ne_nil _ _) fun name hname =>
      ⟨fun heq => hempty (heq ▸ hname), h.no_dots name hname⟩, ?_⟩
    exact h.direct

/-- A pattern matches paths of its own length. -/
theorem length_of_matchPath (pat : List Seg) (path vs : List Bytes)
    (h : matchPath pat path = some vs) : pat.length = path.length := by
  induction pat generalizing path vs with
  | nil =>
      cases path with
      | nil => rfl
      | cons seg path => cases h
  | cons p pat ih =>
      cases path with
      | nil => cases p <;> cases h
      | cons seg path =>
          have hrest : ∃ vs', matchPath pat path = some vs' := by
            cases p with
            | lit lit =>
                rw [matchPath] at h
                split at h
                · exact ⟨vs, h⟩
                · cases h
            | wild =>
                rw [matchPath] at h
                split at h
                · cases h
                · rcases Option.map_eq_some_iff.mp h with ⟨vs', hvs', -⟩
                  exact ⟨vs', hvs'⟩
          rcases hrest with ⟨vs', hvs'⟩
          rw [List.length_cons, List.length_cons, ih path vs' hvs']

/-- No route is this long. -/
theorem unrouted_of_length (path : List Bytes) (h : path.length = 4 ∨ path.length = 5) :
    Unrouted path := by
  intro pat hpat
  cases hmatch : matchPath pat path with
  | none => rfl
  | some vs =>
      have hlen := length_of_matchPath pat path vs hmatch
      have hlens : ∀ pat ∈ patterns, pat.length ≠ 4 ∧ pat.length ≠ 5 := by decide
      rcases h with h | h
      · exact absurd (hlen.trans h) (hlens pat hpat).1
      · exact absurd (hlen.trans h) (hlens pat hpat).2

/-- Names of which all but one are fixed, and none are left where dots were. -/
theorem stray_around (before after : List Bytes) (name : Bytes)
    (hfixed : ∀ x ∈ before ++ after ++ [("config" : Bytes)], x ≠ [] ∧ x ≠ "." ∧ x ≠ "..")
    (hlen : (before ++ after).length = 2 ∨ (before ++ after).length = 3)
    (hrest : Unrouted ((before ++ after ++ [("config" : Bytes)]).map encodeURIComponent))
    (hname : name ≠ "." ∧ name ≠ "..") :
    Stray (before ++ name :: (after ++ [("config" : Bytes)])) := by
  have hmem : ∀ x ∈ before ++ name :: (after ++ [("config" : Bytes)]),
      x = name ∨ x ∈ before ++ after ++ [("config" : Bytes)] := by
    intro x hx
    simp only [List.mem_append, List.mem_cons] at hx ⊢
    tauto
  refine ⟨⟨before ++ name :: after, by rw [List.append_assoc, List.cons_append]⟩,
    fun x hx => ?_, ?_, fun hempty => ?_⟩
  · rcases hmem x hx with rfl | hx
    · exact hname
    · exact (hfixed x hx).2
  · refine unrouted_of_length _ ?_
    simp only [List.length_map, List.length_append, List.length_cons, List.length_nil] at hlen ⊢
    omega
  · have hnil : name = [] := by
      rcases hmem [] hempty with hname | hx
      · exact hname.symm
      · exact absurd rfl (hfixed [] hx).1
    have hfilter : (before ++ name :: (after ++ [("config" : Bytes)])).filter (· ≠ []) =
        before ++ after ++ [("config" : Bytes)] := by
      have hkept : (before ++ (after ++ [("config" : Bytes)])).filter (· ≠ []) =
          before ++ (after ++ [("config" : Bytes)]) := by
        refine List.filter_eq_self.mpr fun x hx => decide_eq_true (hfixed x ?_).1
        rwa [List.append_assoc]
      rw [List.filter_append, List.filter_cons, hnil, if_neg (by decide), ← List.filter_append,
        hkept, List.append_assoc]
    rw [hfilter]
    exact hrest

/-- Names of which none is dots and one is empty or a slash. -/
theorem stray_unresolved (host plugin : Bytes) (hhost : host ≠ "." ∧ host ≠ "..")
    (hplugin : plugin ≠ "." ∧ plugin ≠ "..") (h : ¬ (Carried host ∧ Carried plugin)) :
    Stray (["v1", "hosts", host, "plugins", plugin, "config"] : List Bytes) := by
  have hempty : ∀ name : Bytes, name ≠ "." ∧ name ≠ ".." → ¬ Carried name → routed name = [] := by
    intro name hdots hnot
    unfold Carried at hnot
    simp only [not_not, List.mem_cons, List.not_mem_nil, or_false] at hnot
    rcases hnot with rfl | hdot | hup | rfl
    · rfl
    · exact absurd hdot hdots.1
    · exact absurd hup hdots.2
    · rfl
  refine ⟨⟨["v1", "hosts", host, "plugins", plugin], rfl⟩, fun name hname => ?_, ?_,
    fun hnil => ?_⟩
  · have hfixed : ∀ x ∈ (["v1", "hosts", "plugins", "config"] : List Bytes),
        x ≠ "." ∧ x ≠ ".." := by
      decide
    simp only [List.mem_cons, List.not_mem_nil, or_false] at hname hfixed
    rcases hname with rfl | rfl | rfl | rfl | rfl | rfl
    · exact hfixed _ (Or.inl rfl)
    · exact hfixed _ (Or.inr (Or.inl rfl))
    · exact hhost
    · exact hfixed _ (Or.inr (Or.inr (Or.inl rfl)))
    · exact hplugin
    · exact hfixed _ (Or.inr (Or.inr (Or.inr rfl)))
  · -- A wildcard does not match the end of a path.
    rcases not_and_or.mp h with h | h
    · simp [Unrouted, patterns, matchPath, hempty host hhost h]
    · simp [Unrouted, patterns, matchPath, hempty plugin hplugin h]
  · have hone : host = [] ∨ plugin = [] := by
      simp only [List.mem_cons, List.not_mem_nil, or_false] at hnil
      rcases hnil with h | h | h | h | h | h
      · exact absurd h (by decide)
      · exact absurd h (by decide)
      · exact Or.inl h.symm
      · exact absurd h (by decide)
      · exact Or.inr h.symm
      · exact absurd h (by decide)
    rcases hone with rfl | rfl
    · cases plugin with
      | nil => decide
      | cons b rest => exact unrouted_of_length _ (Or.inr rfl)
    · cases host with
      | nil => decide
      | cons b rest => exact unrouted_of_length _ (Or.inr rfl)

/-- The path of a configuration, where a name is not carried. -/
theorem stray_config (host plugin : Bytes) (h : ¬ (Carried host ∧ Carried plugin)) :
    ∃ names : List Bytes, Stray names ∧
      resolve [] ((["v1", "hosts", host, "plugins", plugin, "config"] : List Bytes).map
        encodeURIComponent) = names.map encodeURIComponent := by
  have hcases : ∀ name : Bytes, name = ".." ∨ name = "." ∨ ((name ≠ "." ∧ name ≠ "..") ∧
      doubleDot (encodeURIComponent name) = false ∧
      singleDot (encodeURIComponent name) = false) := by
    intro name
    by_cases hup : name = ".."
    · exact Or.inl hup
    · by_cases hdot : name = "."
      · exact Or.inr (Or.inl hdot)
      · exact Or.inr (Or.inr ⟨⟨hdot, hup⟩,
          no_dots_of_unescape _ name (unescape_component name) hdot hup⟩)
  -- By what the browser resolves: each name leads up, nowhere, or stays.
  rcases hcases host with rfl | rfl | ⟨hhost, hhost₂, hhost₁⟩
  · rcases hcases plugin with rfl | rfl | ⟨hplugin, hplugin₂, hplugin₁⟩
    · exact ⟨["v1", "config"], ⟨⟨["v1"], rfl⟩, by decide, by decide,
        fun h => absurd h (by decide)⟩, by decide⟩
    · exact ⟨["v1", "plugins", "config"], ⟨⟨["v1", "plugins"], rfl⟩, by decide,
        by decide, fun h => absurd h (by decide)⟩, by decide⟩
    · refine ⟨_, stray_around ["v1", "plugins"] [] plugin (by decide) (by decide)
        (by decide) hplugin, ?_⟩
      simp only [List.map, resolve, hplugin₂, hplugin₁]
      rfl
  · rcases hcases plugin with rfl | rfl | ⟨hplugin, hplugin₂, hplugin₁⟩
    · exact ⟨["v1", "hosts", "config"], ⟨⟨["v1", "hosts"], rfl⟩, by decide,
        by decide, fun h => absurd h (by decide)⟩, by decide⟩
    · exact ⟨["v1", "hosts", "plugins", "config"], ⟨⟨["v1", "hosts", "plugins"], rfl⟩,
        by decide, by decide, fun h => absurd h (by decide)⟩,
        by decide⟩
    · refine ⟨_, stray_around ["v1", "hosts", "plugins"] [] plugin (by decide) (by decide)
        (by decide) hplugin, ?_⟩
      simp only [List.map, resolve, hplugin₂, hplugin₁]
      rfl
  · rcases hcases plugin with rfl | rfl | ⟨hplugin, hplugin₂, hplugin₁⟩
    · refine ⟨_, stray_around ["v1", "hosts"] [] host (by decide) (by decide)
        (by decide) hhost, ?_⟩
      simp only [List.map, resolve, hhost₂, hhost₁]
      rfl
    · refine ⟨_, stray_around ["v1", "hosts"] ["plugins"] host (by decide) (by decide)
        (by decide) hhost, ?_⟩
      simp only [List.map, resolve, hhost₂, hhost₁]
      rfl
    · refine ⟨_, stray_unresolved host plugin hhost hplugin h, ?_⟩
      simp only [List.map, resolve, hhost₂, hhost₁, hplugin₂, hplugin₁]
      rfl

/-- A call with a name that is not carried leads nowhere. -/
theorem delivered_stray (c : Call) (h : ∃ name ∈ c.names, ¬ Carried name) :
    ∃ path query, follow 20 (locate c.url) = some (path, query) ∧ Unrouted path := by
  have hconfig : ∀ host plugin, (∃ name ∈ ([host, plugin] : List Bytes), ¬ Carried name) →
      ∃ path query, follow 20 (locate (configUrl host plugin)) = some (path, query) ∧
        Unrouted path := by
    intro host plugin hname
    have hnot : ¬ (Carried host ∧ Carried plugin) := by
      rcases hname with ⟨name, hmem, hname⟩
      rcases List.mem_cons.mp hmem with rfl | hmem
      · exact fun hboth => hname hboth.1
      · exact fun hboth => hname (List.mem_singleton.mp hmem ▸ hboth.2)
    rcases stray_config host plugin hnot with ⟨names, hstray, hresolve⟩
    have hurl : configUrl host plugin = _ := url_eq (.getPluginConfig host plugin)
    have hlocate := locate_descent
      ((["v1", "hosts", host, "plugins", plugin, "config"] : List Bytes).map encodeURIComponent)
      none (List.cons_ne_nil _ _) (fun e he b hb => ?_) fun b hb => absurd hb List.not_mem_nil
    · rw [hresolve] at hlocate
      rw [hurl]
      exact hlocate ▸ follow_stray 19 names hstray
    · rcases List.mem_map.mp he with ⟨name, -, rfl⟩
      exact (componentByte b (encodeURIComponent_bytes name b hb)).1
  cases c with
  | getJob id =>
      rcases h with ⟨name, hmem, hname⟩
      rw [List.mem_singleton.mp hmem, Carried, not_not] at hname
      simp only [List.mem_cons, List.not_mem_nil, or_false] at hname
      rcases hname with rfl | rfl | rfl | rfl
      · exact ⟨["v1", "jobs", []], [], by decide, by decide⟩
      · exact ⟨["v1", "jobs", []], [], by decide, by decide⟩
      · exact ⟨["v1", []], [], by decide, by decide⟩
      · exact ⟨["v1", "jobs", []], [], by decide, by decide⟩
  | getPluginConfig host plugin => exact hconfig host plugin h
  | setPluginConfig host plugin cfg => exact hconfig host plugin h
  | _ =>
      rcases h with ⟨name, hmem, -⟩
      exact absurd hmem List.not_mem_nil

/-! ### Bodies -/

/-- A request to back up is decoded to the host and the plugin it names. -/
theorem decode_triggerBackup (host plugin : Bytes) (hhost : Utf8.sanitize host = host)
    (hplugin : Utf8.sanitize plugin = plugin) :
    TriggerBackupRequest.decode ⟨(Call.triggerBackup host plugin).body, none⟩ =
      some ⟨host, plugin⟩ := by
  have hrun : Json.run Json.start (Call.triggerBackup host plugin).body =
      .top (.obj [("host", .str host), ("plugin", .str plugin)]) := by
    have hfirst : Json.run (.run [.member [] "host"] (.value false)) (Json.stringify host) =
        .run [.obj [("host", .str host)]] .after := by
      rw [Json.run_stringify _ _ host rfl fun _ => Json.Mode.noConfusion, Json.closeString,
        Json.unquote_stringify host hhost]
      · rfl
      · intro done st h
        cases h
    have hsecond : Json.run (.run [.member [("host", .str host)] "plugin"] (.value false))
        (Json.stringify plugin) =
        .run [.obj [("host", .str host), ("plugin", .str plugin)]] .after := by
      rw [Json.run_stringify _ _ plugin rfl fun _ => Json.Mode.noConfusion, Json.closeString,
        Json.unquote_stringify plugin hplugin]
      · rfl
      · intro done st h
        cases h
    have hopen : Json.run Json.start ("\x7b\"host\":" : Bytes) =
        .run [.member [] "host"] (.value false) := rfl
    have hcomma : Json.run (.run [.obj [("host", .str host)]] .after) (",\"plugin\":" : Bytes) =
        .run [.member [("host", .str host)] "plugin"] (.value false) := rfl
    change Json.run _ ("\x7b\"host\":" ++ Json.stringify host ++ ",\"plugin\":" ++
      Json.stringify plugin ++ "\x7d") = _
    rw [Json.run_append, Json.run_append, Json.run_append, Json.run_append, hopen, hfirst, hcomma,
      hsecond]
    rfl
  rw [TriggerBackupRequest.decode, Json.parseFirst, Json.runFirst_of_run _ _ _ hrun]
  rfl

/-- The identifier of a job is carried. -/
theorem carried_newJob (host plugin : Bytes) (policy : Policy) (unixNano queuedAt : Time) :
    Carried (newJob host plugin policy unixNano queuedAt).id := by
  have hdash : (45 : UInt8) ∈ (newJob host plugin policy unixNano queuedAt).id := by
    change 45 ∈ host ++ "-" ++ plugin ++ "-" ++ itoa unixNano
    simp only [List.append_assoc]
    exact List.mem_append_right _ List.mem_cons_self
  have hnone : ∀ name ∈ (["", ".", "..", "/"] : List Bytes), (45 : UInt8) ∉ name := by decide
  exact fun hmem => hnone _ hmem hdash

/-- A call of which every name is carried arrives as it was meant, and its handler
    is the one that is run, behind the tokens that may. One with a name that is not
    reaches no route, whatever the method a redirect leaves it. What a request to
    back up names is what its handler decodes, and whatever job is made for it can
    be asked for. -/
theorem call_delivered {S D Digest : Type} [DecidableEq Digest] (s : Api.Server S D Digest)
    (c : Call) (header : List (Bytes × Bytes)) :
    ((∀ name ∈ c.names, Carried name) →
      c.delivered header = some (c.request header) ∧
      s.serve (c.request header) = authMiddleware s.sha256 (c.hashes s)
        (c.handler s (c.request header)) (c.request header)) ∧
    ((∃ name ∈ c.names, ¬ Carried name) →
      ∃ req, c.delivered header = some req ∧
        ∀ method, s.route { req with method := method } = none) ∧
    (∀ host plugin, c = .triggerBackup host plugin → Utf8.sanitize host = host →
      Utf8.sanitize plugin = plugin →
      TriggerBackupRequest.decode (c.request header).body = some ⟨host, plugin⟩) ∧
    ∀ host plugin policy unixNano queuedAt,
      c = .getJob (newJob host plugin policy unixNano queuedAt).id →
      c.delivered header = some (c.request header) := by
  refine ⟨fun h => ⟨delivered_carried c header h, ?_⟩, fun h => ?_, ?_, ?_⟩
  · refine serve_request s c header fun name hname heq => h name hname ?_
    rw [heq]
    exact List.mem_cons_self
  · rcases delivered_stray c h with ⟨path, query, hfollow, hunrouted⟩
    refine ⟨⟨c.method, path, query, header, ⟨c.body, none⟩⟩, ?_, fun method => ?_⟩
    · rw [Call.delivered, hfollow]
      rfl
    · exact route_unrouted s _ hunrouted
  · rintro host plugin rfl hhost hplugin
    exact decode_triggerBackup host plugin hhost hplugin
  · rintro host plugin policy unixNano queuedAt rfl
    refine delivered_carried _ header fun name hname => ?_
    rw [List.mem_singleton.mp hname]
    exact carried_newJob host plugin policy unixNano queuedAt

/-- A job is found by its identifier, and no plugin is configured above its host. -/
theorem call_delivered_files :
    (Call.getJob "web-files-9").delivered [] = some ((Call.getJob "web-files-9").request []) ∧
    ∃ req, (Call.getPluginConfig "web" "..").delivered [] = some req ∧
      ∀ method, filesApi.route { req with method := method } = none :=
  ⟨((call_delivered filesApi (.getJob "web-files-9") []).1 (by unfold Carried; decide)).1,
    (call_delivered filesApi (.getPluginConfig "web" "..") []).2.1
      ⟨"..", by decide, by unfold Carried; decide⟩⟩

end Web

end Bop
