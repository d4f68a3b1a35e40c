import Bop.Api.Server
import Bop.Daemon
import Mathlib.Data.Set.Function

/-!
# Write Scope

What a token can do. A request that carries no write token changes nothing:
either the middleware refuses it before its handler runs, or its route is one
of the reading ones, whose handlers only make statements that read. A request
to a route that carries neither kind of token is refused, and the refusal is
the same whatever the server holds.

The argument goes through the route table. Every entry is guarded by one of
the two lists, and the ones guarded by the read list are exactly the reading
routes (`table_scope`).

## Main definitions

* `Carries`: The token a request presents.
* `Involved`: The tokens a hash must tell apart.

## Theorems

* `bearer_eq_some_iff`: The token the middleware extracts.
* `table_scope`: A route reads and accepts both lists, or accepts write tokens.
* `serve_readOnly`: A request without a write token only reads.
* `write_scope`: What a token can do.
-/

namespace Bop

namespace Api

open Prog

/-- The request presents the token. -/
def Carries (req : Request) (token : Bytes) : Prop :=
  first req.header "Authorization" = "Bearer " ++ token

/-- The middleware extracts the token a request presents, unless it is empty. -/
theorem bearer_eq_some_iff (req : Request) (token : Bytes) :
    req.bearer = some token ↔ token ≠ [] ∧ Carries req token := by
  unfold Request.bearer cutPrefix Carries
  by_cases hpre : (Bytes.ofString "Bearer ").isPrefixOf (first req.header "Authorization") = true
  · rcases List.isPrefixOf_iff_prefix.mp hpre with ⟨rest, hrest⟩
    rw [← hrest]
    simp only [List.isPrefixOf_iff_prefix.mpr (List.prefix_append _ rest), if_true,
      List.drop_left, List.append_cancel_left_eq]
    split
    · next h =>
        subst h
        simp only [reduceCtorEq, ne_eq, false_iff, not_and]
        exact fun hne heq => hne heq.symm
    · next h =>
        simp only [Option.some.injEq]
        constructor
        · rintro rfl
          exact ⟨h, rfl⟩
        · exact fun h => h.2
  · rw [if_neg hpre]
    simp only [reduceCtorEq, false_iff, not_and]
    intro _ heq
    exact hpre (List.isPrefixOf_iff_prefix.mpr ⟨token, heq.symm⟩)

section Handlers

variable {S D : Type}

/-- The program only makes calls that read. -/
abbrev ReadsOnly (p : Proc S (Response D)) : Prop := Calls (fun o => o.readsOnly = true) p

/-- One statement that reads, and an answer made of its result. -/
theorem readsOnly_store (ctx : Ctx) (o : StoreOp) (ho : o.readsOnly = true)
    (k : StoreAns o → Proc S (Response D)) (hk : ∀ x, ReadsOnly (k x)) :
    ReadsOnly (store ctx o >>= k) := ⟨ho, hk⟩

theorem readsOnly_listJobs (req : Request) : ReadsOnly (listJobs req : Proc S (Response D)) := by
  simp only [listJobs]
  split
  · exact readsOnly_store _ _ rfl _ (fun _ => trivial)
  · split
    · trivial
    · exact readsOnly_store _ _ rfl _ (fun _ => trivial)

theorem readsOnly_getJob (id : Bytes) : ReadsOnly (getJob id : Proc S (Response D)) := by
  refine readsOnly_store _ _ rfl _ (fun x => ?_)
  split <;> trivial

theorem readsOnly_listSnapshots (req : Request) :
    ReadsOnly (listSnapshots req : Proc S (Response D)) := by
  simp only [listSnapshots]
  split
  · trivial
  · refine readsOnly_store _ _ rfl _ (fun x => ?_)
    split <;> trivial

theorem readsOnly_listEvents (req : Request) :
    ReadsOnly (listEvents req : Proc S (Response D)) := by
  unfold listEvents
  split
  · trivial
  · refine readsOnly_store _ _ rfl _ (fun x => ?_)
    split <;> trivial

theorem readsOnly_getPluginConfig (dtos : Bytes → Option (ConfigDTO D))
    (host pluginName : Bytes) :
    ReadsOnly (getPluginConfig dtos host pluginName : Proc S (Response D)) := by
  unfold getPluginConfig
  split
  · trivial
  · refine readsOnly_store _ _ rfl _ (fun x => ?_)
    split
    · trivial
    · trivial
    · split <;> trivial

end Handlers

variable {S D Digest : Type}

/-- Every route either reads and accepts both lists, or accepts write tokens. -/
theorem table_scope (s : Server S D Digest) (e : Entry S D Digest) (he : e ∈ s.table) :
    (e.method = "GET" ∧ e.hashes = s.readHashes ∧ ∀ req vs, ReadsOnly (e.handler req vs)) ∨
      (e.method ≠ "GET" ∧ e.hashes = s.writeHashes) := by
  have hpost : ("POST" : Bytes) ≠ "GET" := by decide
  have hput : ("PUT" : Bytes) ≠ "GET" := by decide
  simp only [Server.table, List.mem_cons, List.not_mem_nil, or_false] at he
  rcases he with rfl | rfl | rfl | rfl | rfl | rfl | rfl | rfl
  · exact Or.inl ⟨rfl, rfl, fun _ _ => trivial⟩
  · exact Or.inl ⟨rfl, rfl, fun req _ => readsOnly_listJobs req⟩
  · exact Or.inl ⟨rfl, rfl, fun _ vs => readsOnly_getJob _⟩
  · exact Or.inl ⟨rfl, rfl, fun req _ => readsOnly_listSnapshots req⟩
  · exact Or.inl ⟨rfl, rfl, fun req _ => readsOnly_listEvents req⟩
  · exact Or.inr ⟨hpost, rfl⟩
  · exact Or.inl ⟨rfl, rfl, fun _ _ => readsOnly_getPluginConfig _ _ _⟩
  · exact Or.inr ⟨hput, rfl⟩

theorem mem_table_of_route (s : Server S D Digest) (req : Request) (e : Entry S D Digest)
    (vs : List Bytes) (h : s.route req = some (e, vs)) : e ∈ s.table := by
  rcases List.exists_of_findSome?_eq_some h with ⟨e', he', hmatch⟩
  rw [Option.map_eq_some_iff] at hmatch
  rcases hmatch with ⟨_, _, heq⟩
  cases heq
  exact he'

/-- Whether a request has a route depends on the request alone. -/
theorem route_isSome (s s' : Server S D Digest) (req : Request) :
    (s.route req).isSome = (s'.route req).isSome := by
  have hany : ∀ t : Server S D Digest, (t.route req).isSome = true ↔
      ∃ p ∈ t.table.map (fun e => (e.method, e.pattern)),
        (if matchMethod p.1 req.method then matchPath p.2 req.path else none).isSome := by
    intro t
    rw [Server.route, List.findSome?_isSome_iff]
    simp only [Option.isSome_map, Entry.matches, List.mem_map, exists_exists_and_eq_and]
  rw [Bool.eq_iff_iff, hany s, hany s']
  rfl

/-- The tokens a hash must tell apart: the configured ones and the ones the
    requests present. -/
def Involved (s : Server S D Digest) (reqs : List Request) : Set Bytes :=
  {t | t ∈ s.readTokens ∨ t ∈ s.writeTokens ∨ ∃ req ∈ reqs, req.bearer = some t}

/-- Among the tokens involved, a hash is accepted exactly when its token is. -/
theorem hash_mem_iff (s : Server S D Digest) (reqs : List Request)
    (hinj : Set.InjOn s.sha256 (Involved s reqs)) (req : Request) (hreq : req ∈ reqs)
    (token : Bytes) (hb : req.bearer = some token) (tokens : List Bytes)
    (htokens : ∀ t ∈ tokens, t ∈ s.readTokens ∨ t ∈ s.writeTokens) :
    s.sha256 token ∈ tokens.map s.sha256 ↔ token ∈ tokens := by
  constructor
  · intro h
    rcases List.mem_map.mp h with ⟨t, ht, heq⟩
    have hinvolved : t ∈ Involved s reqs := by
      rcases htokens t ht with h | h
      · exact Or.inl h
      · exact Or.inr (Or.inl h)
    rw [← hinj hinvolved (Or.inr (Or.inr ⟨req, hreq, hb⟩)) heq]
    exact ht
  · exact List.mem_map_of_mem

variable [DecidableEq Digest]

/-- A request without a write token only reads. -/
theorem serve_readOnly (s : Server S D Digest) (reqs : List Request)
    (hinj : Set.InjOn s.sha256 (Involved s reqs)) (req : Request) (hreq : req ∈ reqs)
    (hw : ∀ t ∈ s.writeTokens, ¬ Carries req t) : ReadsOnly (s.serve req) := by
  unfold Server.serve
  cases hroute : s.route req with
  | none => trivial
  | some ev =>
      rcases ev with ⟨e, vs⟩
      simp only
      -- A route that reads only reads whoever asks. Any other wants a write token.
      rcases table_scope s e (mem_table_of_route s req e vs hroute) with
        ⟨_, _, hreads⟩ | ⟨_, hhashes⟩
      · unfold authMiddleware
        split
        · trivial
        · split
          · exact hreads req vs
          · trivial
      · have hrefused : ∀ token, req.bearer = some token → s.sha256 token ∉ e.hashes := by
          intro token hb
          rw [hhashes, Server.writeHashes,
            hash_mem_iff s reqs hinj req hreq token hb _ (fun t ht => Or.inr ht)]
          exact fun hmem => hw token hmem ((bearer_eq_some_iff req token).mp hb).2
        rw [auth_refused s.sha256 e.hashes req hrefused]
        trivial

/-- Requests without a write token only read, one after the other. -/
theorem serveAll_readOnly (s : Server S D Digest) (reqs rest : List Request)
    (hinj : Set.InjOn s.sha256 (Involved s reqs)) (hrest : ∀ req ∈ rest, req ∈ reqs)
    (hw : ∀ req ∈ rest, ∀ t ∈ s.writeTokens, ¬ Carries req t) :
    Calls (fun o => o.readsOnly = true) (s.serveAll rest) := by
  induction rest with
  | nil => trivial
  | cons req rest ih =>
      have hfirst := serve_readOnly s reqs hinj req (hrest req List.mem_cons_self)
        (hw req List.mem_cons_self)
      refine calls_bind _ _ _ hfirst fun resp => ?_
      refine calls_bind _ _ _ (ih (fun r hr => hrest r (List.mem_cons_of_mem req hr))
        (fun r hr => hw r (List.mem_cons_of_mem req hr))) fun resps => trivial

/-- A request without either kind of token is refused by every server with the
    same lists. -/
theorem serve_unauthorized (s s' : Server S D Digest) (req : Request)
    (hsha : s'.sha256 = s.sha256) (hr : s'.readTokens = s.readTokens)
    (hw : s'.writeTokens = s.writeTokens) (hroute : (s.route req).isSome)
    (hnone : ∀ t, req.bearer = some t → ¬ (t ∈ s.readTokens ∨ t ∈ s.writeTokens))
    (hread : ∀ t, req.bearer = some t →
      (s.sha256 t ∈ s.readHashes ↔ t ∈ s.readTokens ∨ t ∈ s.writeTokens))
    (hwrite : ∀ t, req.bearer = some t → (s.sha256 t ∈ s.writeHashes ↔ t ∈ s.writeTokens)) :
    s'.serve req = return unauthorized req := by
  rw [route_isSome s s' req] at hroute
  rcases Option.isSome_iff_exists.mp hroute with ⟨⟨e, vs⟩, hev⟩
  simp only [Server.serve, hev]
  refine auth_refused _ _ req (fun t hb => ?_) _
  have hreadEq : s'.readHashes = s.readHashes := by
    simp only [Server.readHashes, hsha, hr, hw]
  have hwriteEq : s'.writeHashes = s.writeHashes := by
    simp only [Server.writeHashes, hsha, hw]
  rw [hsha]
  rcases table_scope s' e (mem_table_of_route s' req e vs hev) with ⟨_, hh, _⟩ | ⟨_, hh⟩
  · rw [hh, hreadEq, hread t hb]
    exact hnone t hb
  · rw [hh, hwriteEq, hwrite t hb]
    exact fun hmem => hnone t hb (Or.inr hmem)

/-- What a token can do. For a server whose lists the loaders produced and a
    sequence of requests whose tokens the hash tells apart: without a write
    token the sequence leaves the tables and the queue as they were; a request
    to a route with neither kind of token is answered 401 by every server with
    these lists, whatever else it holds; a write token reaches every handler;
    and a read token reaches exactly the handlers registered for GET. -/
theorem write_scope (env : Env) (cfg : APIConfig) (s : Server S D Digest)
    (hread : loadTokens env cfg = .ok s.readTokens)
    (hwrite : loadWriteTokens env cfg = .ok s.writeTokens) (reqs : List Request)
    (hinj : Set.InjOn s.sha256 (Involved s reqs)) :
    ((∀ req ∈ reqs, ∀ t ∈ s.writeTokens, ¬ Carries req t) →
      ∀ (tr : Trace (Op S) Ans) (resps : List (Response D)) (w w' : Shared),
        Runs (s.serveAll reqs) tr resps → Steps SharedSem w tr w' → w' = w) ∧
    (∀ req ∈ reqs, (s.route req).isSome →
      (∀ t, t ∈ s.readTokens ∨ t ∈ s.writeTokens → ¬ Carries req t) →
      ∃ resp : Response D, resp.status = 401 ∧
        ∀ s' : Server S D Digest, s'.sha256 = s.sha256 → s'.readTokens = s.readTokens →
          s'.writeTokens = s.writeTokens → s'.serve req = return resp) ∧
    (∀ req ∈ reqs, ∀ e vs, s.route req = some (e, vs) → ∀ t ∈ s.writeTokens, Carries req t →
      s.serve req = e.handler req vs) ∧
    (∀ req ∈ reqs, ∀ e vs, s.route req = some (e, vs) → ∀ t ∈ s.readTokens,
      t ∉ s.writeTokens → Carries req t →
      (e.method = "GET" → s.serve req = e.handler req vs) ∧
      (e.method ≠ "GET" → ∃ resp : Response D, resp.status = 401 ∧
        s.serve req = return resp)) := by
  -- A token is accepted for its hash, and no two of these tokens have the same.
  have hreadHash : ∀ req ∈ reqs, ∀ t, req.bearer = some t →
      (s.sha256 t ∈ s.readHashes ↔ t ∈ s.readTokens ∨ t ∈ s.writeTokens) := by
    intro req hreq t hb
    rw [Server.readHashes, hash_mem_iff s reqs hinj req hreq t hb _
      (fun t ht => List.mem_append.mp ht), List.mem_append]
  have hwriteHash : ∀ req ∈ reqs, ∀ t, req.bearer = some t →
      (s.sha256 t ∈ s.writeHashes ↔ t ∈ s.writeTokens) := by
    intro req hreq t hb
    rw [Server.writeHashes, hash_mem_iff s reqs hinj req hreq t hb _ (fun t ht => Or.inr ht)]
  refine ⟨?_, ?_, ?_, ?_⟩
  · intro hw tr resps w w' hruns hsteps
    exact steps_of_calls SharedSem _ (fun w o x w' ho h => shared_of_readsOnly w w' o x ho h) _
      (serveAll_readOnly s reqs reqs hinj (fun _ h => h) hw) tr resps hruns w w' hsteps
  · intro req hreq hroute hnone
    refine ⟨unauthorized req, unauthorized_status req, fun s' hsha hr hw => ?_⟩
    exact serve_unauthorized s s' req hsha hr hw hroute
      (fun t hb hmem => hnone t hmem ((bearer_eq_some_iff req t).mp hb).2)
      (hreadHash req hreq) (hwriteHash req hreq)
  · intro req hreq e vs hroute t ht hcarries
    have hb : req.bearer = some t :=
      (bearer_eq_some_iff req t).mpr ⟨loadWriteTokens_ne_nil env cfg _ hwrite t ht, hcarries⟩
    simp only [Server.serve, hroute]
    rcases table_scope s e (mem_table_of_route s req e vs hroute) with ⟨_, hh, _⟩ | ⟨_, hh⟩
    · exact auth_passed _ _ _ t hb (hh ▸ (hreadHash req hreq t hb).mpr (Or.inr ht)) _
    · exact auth_passed _ _ _ t hb (hh ▸ (hwriteHash req hreq t hb).mpr ht) _
  · intro req hreq e vs hroute t ht hnot hcarries
    have hb : req.bearer = some t :=
      (bearer_eq_some_iff req t).mpr ⟨loadTokens_ne_nil env cfg _ hread t ht, hcarries⟩
    simp only [Server.serve, hroute]
    rcases table_scope s e (mem_table_of_route s req e vs hroute) with
      ⟨hget, hh, _⟩ | ⟨hget, hh⟩
    · refine ⟨fun _ => ?_, fun hne => absurd hget hne⟩
      exact auth_passed _ _ _ t hb (hh ▸ (hreadHash req hreq t hb).mpr (Or.inl ht)) _
    · refine ⟨fun h => absurd h hget, fun _ => ?_⟩
      have hrefused : ∀ token, req.bearer = some token → s.sha256 token ∉ e.hashes := by
        intro token hb'
        rw [hb] at hb'
        cases hb'
        rw [hh, hwriteHash req hreq t hb]
        exact hnot
      exact ⟨unauthorized req, unauthorized_status req, auth_refused _ _ req hrefused _⟩

/-- A server with one token of each kind. -/
def filesApi : Server Unit Unit Bytes where
  sha256 := id
  readTokens := ["reader"]
  writeTokens := ["writer"]
  ctl := filesController
  dtos := fun _ => none
  ui := none

/-- A request to back up, with the reading token. -/
def readerBackup : Request where
  method := "POST"
  path := ["v1", "backups"]
  query := []
  header := [("Authorization", "Bearer reader")]
  body := ⟨[], none⟩

/-- The reading token does not trigger a backup. -/
theorem write_scope_reader : ∃ resp : Response Unit, resp.status = 401 ∧
    filesApi.serve readerBackup = return resp := by
  let env : Env := ⟨fun name => if name = "BOP_READ" then "reader" else "writer",
    fun _ => .error "no such file"⟩
  have hscope := write_scope env ⟨[], "BOP_READ", [], "BOP_WRITE"⟩ filesApi rfl rfl [readerBackup]
    (Set.injOn_id _)
  exact (hscope.2.2.2 readerBackup List.mem_cons_self _ [] rfl "reader" List.mem_cons_self
    (by decide) rfl).2 (by decide)

end Api

end Bop
