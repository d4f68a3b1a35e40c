import Bop.Effect.Transaction
import Bop.Plugin.Informix.Restore

/-!
# The Restore Protocol

What a restore does to the server, whatever the artifact holds and whatever
fails. It asks the agent for one of five sequences of calls, it attempts to
commit exactly when it has inserted everything the artifact says and is not a
test, and the statements it sends cannot be made to be anything but insertions
into a plain table.

A server that supports transactions is then left with all rows of the artifact
or with none. Which calls fail does not matter, nor does whether a call that
fails took effect.

## Main definitions

* `CallShape`: The sequences of calls.
* `InsertText`: The form of a statement.
* `request`: What a call is to a transactional server.

## Theorems

* `insertText_insertSQL`: The statement of a restore has the form.
* `restore_protocol`: What a restore does.
* `commit_needs_begin`: Without a transaction there is nothing to commit.
-/

namespace Bop

namespace Informix

open Prog Json Txn

/-- An insertion of one row on a connection. -/
def IsInsert (connID : Bytes) (c : AgentCall) : Prop :=
  ∃ sql params, c = .executeQuery connID sql params

/-- The sequences of calls a restore makes. -/
inductive CallShape : AgentTrace → Prop
  | none : CallShape []
  | refused (req : ConnectRequest) (err : Bytes) (x : Except Bytes Unit) :
      CallShape [⟨.connect req, .error err⟩, ⟨.close, x⟩]
  | notBegun (req : ConnectRequest) (connID err : Bytes) (x y : Except Bytes Unit) :
      CallShape [⟨.connect req, .ok connID⟩, ⟨.beginTransaction connID, .error err⟩,
        ⟨.disconnect connID, x⟩, ⟨.close, y⟩]
  | rolledBack (req : ConnectRequest) (connID : Bytes) (ins : AgentTrace)
      (x y z : Except Bytes Unit) (hins : ∀ e ∈ ins, IsInsert connID e.1) :
      CallShape (⟨.connect req, .ok connID⟩ :: ⟨.beginTransaction connID, .ok ()⟩ :: ins ++
        [⟨.rollbackTransaction connID, x⟩, ⟨.disconnect connID, y⟩, ⟨.close, z⟩])
  | committed (req : ConnectRequest) (connID : Bytes) (ins : AgentTrace)
      (x y z : Except Bytes Unit) (hins : ∀ e ∈ ins, IsInsert connID e.1) :
      CallShape (⟨.connect req, .ok connID⟩ :: ⟨.beginTransaction connID, .ok ()⟩ :: ins ++
        [⟨.commitTransaction connID, x⟩, ⟨.disconnect connID, y⟩, ⟨.close, z⟩])

/-- A commit was attempted. -/
def CommitAttempted (tr : AgentTrace) : Prop :=
  ∃ connID, .commitTransaction connID ∈ tr.map Sigma.fst

/-- A commit succeeded. -/
def Committed (tr : AgentTrace) : Prop :=
  ∃ connID, (⟨.commitTransaction connID, .ok ()⟩ : Prog.Event AgentCall AgentAns) ∈ tr

/-- A transaction was begun. -/
def Begun (tr : AgentTrace) : Prop :=
  ∃ connID, (⟨.beginTransaction connID, .ok ()⟩ : Prog.Event AgentCall AgentAns) ∈ tr

/-- No insertion failed. -/
def InsertsOk (tr : AgentTrace) : Prop :=
  ∀ e ∈ tr, ∀ connID, IsInsert connID e.1 → e.2.isOk = true

/-- The header is valid, and every line after it has the declared cells. -/
def WellFormed (file : FileContent) : Prop := ∃ d, openDump file = .ok d ∧ d.params.isSome

/-- `insert into ident[.ident] values (?,...,?)` with `n` placeholders. -/
def InsertText (n : Nat) (sql : Bytes) : Prop :=
  ∃ table : Bytes, (isIdent table = true ∨ ∃ owner name, table = owner ++ 46 :: name ∧
      isIdent owner = true ∧ isIdent name = true) ∧
    sql = "insert into " ++ table ++ " values (" ++ join "," (List.replicate n "?") ++ ")"

/-- What a call is to a server that supports transactions. Only statements of
    the session's transaction are pending, and leaving the connection gives
    them up. -/
def request (e : Prog.Event AgentCall AgentAns) : Request (Bytes × List Param) × Bool :=
  (match e.1 with
    | .beginTransaction _ => .start
    | .executeQuery _ sql params => .execute (sql, params)
    | .commitTransaction _ => .commit
    | .connect _ | .rollbackTransaction _ | .disconnect _ | .close => .discard,
   e.2.isOk)

/-! ### The statement -/

theorem repeatBytes_join (n : Nat) :
    repeatBytes "?," (n + 1) = join "," (List.replicate (n + 1) "?") ++ "," := by
  induction n with
  | zero => rfl
  | succ n ih =>
      have hcons : repeatBytes "?," (n + 1 + 1) = "?," ++ repeatBytes "?," (n + 1) := rfl
      have hjoin : join "," (List.replicate (n + 1 + 1) "?") =
          "?," ++ join "," (List.replicate (n + 1) "?") := rfl
      rw [hcons, ih, hjoin, List.append_assoc]

/-- The placeholders are joined by commas. -/
theorem trimSuffix_repeatBytes (n : Nat) :
    trimSuffix (repeatBytes "?," n) "," = join "," (List.replicate n "?") := by
  cases n with
  | zero => rfl
  | succ n =>
      have hsuffix : hasSuffix (join "," (List.replicate (n + 1) "?") ++ ",") "," = true :=
        List.isSuffixOf_iff_suffix.mpr (List.suffix_append _ _)
      rw [repeatBytes_join, trimSuffix, if_pos hsuffix, List.length_append, Nat.add_sub_cancel,
        List.take_left]

/-- The statement of a restore has the form. -/
theorem insertText_insertSQL (d : Dump) : InsertText d.columnCount d.insertSQL := by
  refine ⟨d.header.table, (validTableName_iff _).mp d.named, ?_⟩
  rw [Dump.insertSQL, trimSuffix_repeatBytes]

/-! ### The calls of a session -/

section Session

variable {cfg : Config} {d : Dump} {test : Bool} {tr : AgentTrace} {r : Except Bytes Unit}

/-- Every insertion is one of the rows. -/
theorem mem_inserts (connID sql : Bytes) (rows : List (List Param)) (ins : AgentTrace)
    (h : Inserts connID sql rows ins) (e : Prog.Event AgentCall AgentAns) (he : e ∈ ins) :
    ∃ params ∈ rows, e.1 = .executeQuery connID sql params := by
  have hmem : e.1 ∈ ins.map Sigma.fst := List.mem_map_of_mem he
  rw [h] at hmem
  rcases List.mem_map.mp hmem with ⟨params, hparams, heq⟩
  exact ⟨params, hparams, heq.symm⟩

theorem isInsert_inserts (connID sql : Bytes) (rows : List (List Param)) (ins : AgentTrace)
    (h : Inserts connID sql rows ins) : ∀ e ∈ ins, IsInsert connID e.1 := by
  intro e he
  rcases mem_inserts connID sql rows ins h e he with ⟨params, _, heq⟩
  exact ⟨sql, params, heq⟩

theorem callShape_session (h : Session cfg d test tr r) : CallShape tr := by
  cases h with
  | refused err _ x => exact CallShape.refused _ err x
  | notBegun connID err _ x y => exact CallShape.notBegun _ connID err x y
  | rolledBack connID rows ins x y z _ hins =>
      exact CallShape.rolledBack _ connID ins x y z (isInsert_inserts _ _ _ _ hins)
  | committed connID rows ins x y z _ hins =>
      exact CallShape.committed _ connID ins x y z (isInsert_inserts _ _ _ _ hins)

/-- The calls of a session that began a transaction. -/
theorem calls_begun (connID sql : Bytes) (rows : List (List Param)) (ins after : AgentTrace)
    (hins : Inserts connID sql rows ins) (first second : Prog.Event AgentCall AgentAns) :
    (first :: second :: ins ++ after).map Sigma.fst =
      first.1 :: second.1 :: rows.map (fun params => AgentCall.executeQuery connID sql params) ++
        after.map Sigma.fst := by
  rw [List.map_append, List.map_cons, List.map_cons, hins]

/-- A commit is attempted when the transaction holds all the artifact says. -/
theorem commit_session (h : Session cfg d test tr r) :
    CommitAttempted tr ↔ Begun tr ∧ d.params.isSome ∧ InsertsOk tr ∧ test = false := by
  cases h with
  | refused err _ x =>
      constructor
      · rintro ⟨connID, hmem⟩
        simp only [List.map_cons, List.map_nil, List.mem_cons, List.not_mem_nil, reduceCtorEq,
          or_self] at hmem
      · rintro ⟨⟨connID, hmem⟩, _⟩
        have := List.mem_map_of_mem (f := Sigma.fst) hmem
        simp only [List.map_cons, List.map_nil, List.mem_cons, List.not_mem_nil, reduceCtorEq,
          or_self] at this
  | notBegun connID err _ x y =>
      constructor
      · rintro ⟨connID', hmem⟩
        simp only [List.map_cons, List.map_nil, List.mem_cons, List.not_mem_nil, reduceCtorEq,
          or_self] at hmem
      · rintro ⟨⟨connID', hmem⟩, _⟩
        simp only [List.mem_cons, List.not_mem_nil, Sigma.mk.injEq, reduceCtorEq, false_and,
          or_false, false_or, AgentCall.beginTransaction.injEq] at hmem
        rcases hmem with ⟨rfl, heq⟩
        cases heq
  | rolledBack connID rows ins x y z _ hins _ hr =>
      constructor
      · rintro ⟨connID', hmem⟩
        rw [calls_begun _ _ _ _ _ hins] at hmem
        simp only [List.map_cons, List.map_nil, List.mem_append, List.mem_cons, List.mem_map,
          List.not_mem_nil, reduceCtorEq, and_false, exists_false, or_self] at hmem
      · rintro ⟨_, hparams, hok, htest⟩
        exfalso
        rcases hr with ⟨_, htest'⟩ | ⟨_, hnot⟩
        · rw [htest] at htest'
          cases htest'
        · refine hnot ⟨hparams, fun e he => hok e ?_ connID (isInsert_inserts _ _ _ _ hins e he)⟩
          exact List.mem_append_left _ (List.mem_cons_of_mem _ (List.mem_cons_of_mem _ he))
  | committed connID rows ins x y z _ hins hparams hok htest =>
      constructor
      · intro _
        refine ⟨⟨connID, ?_⟩, by rw [hparams]; rfl, ?_, htest⟩
        · exact List.mem_append_left _ (List.mem_cons_of_mem _ List.mem_cons_self)
        · rintro e he connID' ⟨sql, params, heq⟩
          -- Only the rows are insertions.
          rcases List.mem_append.mp he with he | he
          · rcases List.mem_cons.mp he with rfl | he
            · cases heq
            · rcases List.mem_cons.mp he with rfl | he
              · cases heq
              · exact hok e he
          · simp only [List.mem_cons, List.not_mem_nil, or_false] at he
            rcases he with rfl | rfl | rfl <;> cases heq
      · intro _
        refine ⟨connID, ?_⟩
        rw [calls_begun _ _ _ _ _ hins]
        exact List.mem_append_right _ List.mem_cons_self

/-- Every statement of a session is the artifact's, for a row of the declared
    length. -/
theorem statement_session (h : Session cfg d test tr r) (connID sql : Bytes)
    (params : List Param) (hmem : .executeQuery connID sql params ∈ tr.map Sigma.fst) :
    sql = d.insertSQL ∧ params.length = d.columnCount := by
  have hparsed : ∀ rows, d.params = some rows → ∀ params ∈ rows, params.length = d.columnCount := by
    intro rows hrows
    unfold Dump.params at hrows
    split at hrows
    · exact parseRows_length _ _ _ hrows
    · cases hrows
  cases h with
  | refused | notBegun =>
      simp only [List.map_cons, List.map_nil, List.mem_cons, List.not_mem_nil, reduceCtorEq,
        or_self] at hmem
  | rolledBack connID' rows ins x y z _ hins hlens =>
      rw [calls_begun _ _ _ _ _ hins] at hmem
      simp only [List.map_cons, List.map_nil, List.mem_append, List.mem_cons, List.mem_map,
        List.not_mem_nil, reduceCtorEq, or_false, false_or, AgentCall.executeQuery.injEq] at hmem
      rcases hmem with ⟨_, hrow, _, rfl, rfl⟩
      exact ⟨rfl, hlens _ hrow⟩
  | committed connID' rows ins x y z _ hins hparams =>
      rw [calls_begun _ _ _ _ _ hins] at hmem
      simp only [List.map_cons, List.map_nil, List.mem_append, List.mem_cons, List.mem_map,
        List.not_mem_nil, reduceCtorEq, or_false, false_or, AgentCall.executeQuery.injEq] at hmem
      rcases hmem with ⟨_, hrow, _, rfl, rfl⟩
      exact ⟨rfl, hparsed rows hparams _ hrow⟩

/-- A session that is no test succeeds only by committing. -/
theorem committed_session (h : Session cfg d test tr r) (htest : test = false)
    (hr : r.isOk = true) : Committed tr := by
  cases h with
  | refused | notBegun => cases hr
  | rolledBack _ _ _ _ _ _ _ _ _ hcase =>
      rcases hcase with ⟨_, htest'⟩ | ⟨hfail, _⟩
      · rw [htest] at htest'
        cases htest'
      · rw [hr] at hfail
        cases hfail
  | committed connID rows ins x y z _ _ _ _ _ hx =>
      rw [hr] at hx
      cases x with
      | error err => cases hx
      | ok u => exact ⟨connID, List.mem_append_right _ List.mem_cons_self⟩

/-- The statements of the rows. -/
def Dump.statements (d : Dump) (rows : List (List Param)) : List (Bytes × List Param) :=
  rows.map (fun params => (d.insertSQL, params))

/-- Up to its last three calls a session that began a transaction only collects
    statements, and it collects all rows if no insertion fails. -/
theorem served_begun (connID : Bytes) (req : ConnectRequest) (rows : List (List Param))
    (ins after : AgentTrace) (hins : Inserts connID d.insertSQL rows ins)
    (w w' : TxState (Bytes × List Param))
    (h : Served w ((⟨.connect req, .ok connID⟩ :: ⟨.beginTransaction connID, .ok ()⟩ :: ins ++
      after).map request) w') :
    ∃ w₁, w₁.committed = w.committed ∧ (AllOk ins → w₁.pending = some (d.statements rows)) ∧
      Served w₁ (after.map request) w' := by
  rw [List.map_append, List.map_cons, List.map_cons, List.cons_append, List.cons_append] at h
  have hconnected := (served_cons _ _ _ _ h).resolve_right fun hlost => by cases hlost.1
  have hbegun := (served_cons _ _ _ _ hconnected).resolve_right fun hlost => by cases hlost.1
  rcases (served_append _ _ _ _).mp hbegun with ⟨w₁, hserved, hafter⟩
  -- The calls in between are the inserts, each of them a statement.
  have hqs : (ins.map request).map Prod.fst = (d.statements rows).map Request.execute := by
    have hfst : ins.map (fun e => (request e).1) =
        (ins.map Sigma.fst).map (fun c => match c with
          | .executeQuery _ sql params => Request.execute (sql, params)
          | _ => .discard) := by
      rw [List.map_map]
      refine List.map_congr_left fun e he => ?_
      rcases mem_inserts _ _ _ _ hins e he with ⟨params, _, heq⟩
      simp only [request, Function.comp, heq]
    rw [List.map_map, Dump.statements, List.map_map]
    change ins.map (fun e => (request e).1) = _
    rw [hfst, hins, List.map_map]
    rfl
  rcases served_execute _ _ hqs _ w₁ [] rfl hserved with ⟨hcommitted, hall⟩
  refine ⟨w₁, hcommitted, fun hok => ?_, hafter⟩
  refine hall fun q hq => ?_
  rcases List.mem_map.mp hq with ⟨e, he, rfl⟩
  exact hok e he

/-- A server is left with all rows or with none. -/
theorem served_session (h : Session cfg d test tr r) (w w' : TxState (Bytes × List Param))
    (hs : Served w (tr.map request) w') :
    w'.committed = w.committed ∨
      ∃ rows, d.params = some rows ∧ w'.committed = w.committed ++ d.statements rows := by
  cases h with
  | refused err _ x =>
      -- Without a transaction there is nothing to commit.
      refine Or.inl (served_idle _ (fun q hq => ?_) w w' hs)
      simp only [List.map_cons, List.map_nil, List.mem_cons, List.not_mem_nil, or_false] at hq
      rcases hq with rfl | rfl <;> exact Or.inr rfl
  | notBegun connID err _ x y =>
      refine Or.inl (served_idle _ (fun q hq => ?_) w w' hs)
      simp only [List.map_cons, List.map_nil, List.mem_cons, List.not_mem_nil, or_false] at hq
      rcases hq with rfl | rfl | rfl | rfl
      · exact Or.inr rfl
      · exact Or.inl rfl
      · exact Or.inr rfl
      · exact Or.inr rfl
  | rolledBack connID rows ins x y z _ hins =>
      rcases served_begun _ _ _ _ _ hins w w' hs with ⟨w₁, hcommitted, _, hafter⟩
      left
      rw [← hcommitted]
      refine served_idle _ (fun q hq => ?_) w₁ w' hafter
      simp only [List.map_cons, List.map_nil, List.mem_cons, List.not_mem_nil, or_false] at hq
      rcases hq with rfl | rfl | rfl <;> exact Or.inr rfl
  | committed connID rows ins x y z _ hins hparams hok =>
      rcases served_begun _ _ _ _ _ hins w w' hs with ⟨w₁, hcommitted, hpending, hafter⟩
      have hidle : ∀ q ∈ [request ⟨.disconnect connID, y⟩, request ⟨.close, z⟩],
          q.1 = Request.start ∨ q.1 = Request.discard := by
        intro q hq
        simp only [List.mem_cons, List.not_mem_nil, or_false] at hq
        rcases hq with rfl | rfl <;> exact Or.inr rfl
      -- A commit that is lost leaves the inserts uncommitted.
      rcases served_cons _ _ _ _ hafter with htook | ⟨_, hlost⟩
      · refine Or.inr ⟨rows, hparams, ?_⟩
        rw [served_idle _ hidle _ w' htook]
        change w₁.committed ++ w₁.pending.getD [] = _
        rw [hcommitted, hpending hok, Option.getD_some]
      · left
        rw [served_idle _ hidle _ w' hlost, hcommitted]

end Session

/-! ### A restore -/

/-- A restore attempts to commit exactly when a transaction was begun, the artifact is
    well formed, no insertion failed and it is no test. -/
theorem commit_restore (cfg : Config) (a : Artifact) (file : FileContent) (tr : PluginTrace)
    (r : Except Bytes Unit)
    (h : Runs (restore cfg a) (⟨.openFile a.path, .ok file⟩ :: tr) r) :
    CommitAttempted (agentTrace tr) ↔
      Begun (agentTrace tr) ∧ WellFormed file ∧ InsertsOk (agentTrace tr) ∧
        isRestoreTest a = false := by
  rw [restore_opened] at h
  rcases restoreFrom_session cfg a file tr r h with ⟨hnone, _, _⟩ | ⟨d, hd, hsession⟩
  · rw [hnone]
    constructor
    · rintro ⟨_, hmem⟩
      cases hmem
    · rintro ⟨⟨_, hmem⟩, _⟩
      cases hmem
  · -- The dump that was opened is the one whose rows decide.
    have hwell : WellFormed file ↔ d.params.isSome = true := by
      constructor
      · rintro ⟨d', hd', hparams⟩
        rw [hd] at hd'
        cases hd'
        exact hparams
      · exact fun hparams => ⟨d, hd, hparams⟩
    rw [hwell]
    exact commit_session hsession

/-- It succeeds without being a test only if the commit did. -/
theorem committed_restore (cfg : Config) (a : Artifact) (file : FileContent) (tr : PluginTrace)
    (h : Runs (restore cfg a) (⟨.openFile a.path, .ok file⟩ :: tr) (.ok ()))
    (htest : isRestoreTest a = false) : Committed (agentTrace tr) := by
  rw [restore_opened] at h
  rcases restoreFrom_session cfg a file tr _ h with ⟨_, hfail, _⟩ | ⟨d, _, hsession⟩
  · cases hfail
  · exact committed_session hsession htest rfl

/-- What a restore from an artifact does. It asks for one of five sequences of
    calls. It attempts to commit exactly when a transaction was begun, the
    artifact is well formed, no insertion failed and it is no test. Every
    statement is an insertion with a placeholder for each declared column. It
    succeeds without being a test only if the commit did, and a transactional
    server is left with all rows or with none. -/
theorem restore_protocol (cfg : Config) (a : Artifact) (file : FileContent) (tr : PluginTrace)
    (r : Except Bytes Unit)
    (h : Runs (restore cfg a) (⟨.openFile a.path, .ok file⟩ :: tr) r) :
    CallShape (agentTrace tr) ∧
    (CommitAttempted (agentTrace tr) ↔
      Begun (agentTrace tr) ∧ WellFormed file ∧ InsertsOk (agentTrace tr) ∧
        isRestoreTest a = false) ∧
    (∀ connID sql params, .executeQuery connID sql params ∈ (agentTrace tr).map Sigma.fst →
      ∃ d, openDump file = .ok d ∧ params.length = d.columnCount ∧
        InsertText params.length sql) ∧
    (r = .ok () → isRestoreTest a = false → Committed (agentTrace tr)) ∧
    ∀ w w', Served w ((agentTrace tr).map request) w' →
      w'.committed = w.committed ∨ ∃ d rows, openDump file = .ok d ∧ d.params = some rows ∧
        w'.committed = w.committed ++ d.statements rows := by
  have hcommit := commit_restore cfg a file tr r h
  have hcommitted : r = .ok () → isRestoreTest a = false → Committed (agentTrace tr) := by
    rintro rfl htest
    exact committed_restore cfg a file tr h htest
  rw [restore_opened] at h
  -- Either the agent was never called, or the calls are those of a session.
  rcases restoreFrom_session cfg a file tr r h with ⟨hnone, _, _⟩ | ⟨d, hd, hsession⟩
  · refine ⟨?_, hcommit, ?_, hcommitted, ?_⟩
    · rw [hnone]
      exact CallShape.none
    · intro _ _ _ hmem
      rw [hnone] at hmem
      cases hmem
    · intro w w' hs
      rw [hnone] at hs
      cases hs
      exact Or.inl rfl
  · refine ⟨callShape_session hsession, hcommit, ?_, hcommitted, ?_⟩
    · intro connID sql params hmem
      rcases statement_session hsession connID sql params hmem with ⟨rfl, hlen⟩
      refine ⟨d, hd, hlen, ?_⟩
      rw [hlen]
      exact insertText_insertSQL d
    · intro w w' hs
      rcases served_session hsession w w' hs with hsame | ⟨rows, hrows, hall⟩
      · exact Or.inl hsame
      · exact Or.inr ⟨d, rows, hd, hrows, hall⟩

/-- The configuration and the artifact of the examples. -/
def ordersConfig : Config :=
  ⟨"ifx.example", 9088, "bop", "secret", "informix", "stores", "/usr/bin/ifx-agent"⟩

def ordersArtifact : Artifact := ⟨"orders", "web", "informix", "/tmp/orders", 0, [], false, 0⟩

/-- An artifact of a table with one row. -/
def ordersLine : Bytes := "\x7b\"cells\":[\x7b\"sql_type\":2,\"text_value\":\"7\"\x7d]\x7d"

def ordersHeader : Bytes :=
  "\x7b\"table\":\"orders\",\"columns\":[\x7b\"name\":\"id\"\x7d]\x7d"

def ordersDump : FileContent := ⟨unlines [ordersHeader, ordersLine], none⟩

/-- A restore that succeeds has committed. -/
theorem restore_protocol_orders : ∃ tr, Runs (restore ordersConfig ordersArtifact)
      (⟨.openFile ordersArtifact.path, .ok ordersDump⟩ :: tr) (.ok ()) ∧
    CallShape (agentTrace tr) ∧ Committed (agentTrace tr) := by
  have hresult : (exec accept (restoreFrom ordersConfig ordersArtifact ordersDump) ()).1 = .ok () :=
    rfl
  rcases runs_accept (restoreFrom ordersConfig ordersArtifact ordersDump) with ⟨tr, hfrom, _⟩
  rw [hresult] at hfrom
  have hr := (restore_opened ordersConfig ordersArtifact ordersDump tr _).mpr hfrom
  have hprotocol := restore_protocol ordersConfig ordersArtifact ordersDump tr (.ok ()) hr
  exact ⟨tr, hr, hprotocol.1, hprotocol.2.2.2.1 rfl (by decide)⟩

/-- An artifact of a table without rows, and a restore of it whose agent cannot
    connect. -/
def emptyDump : FileContent := ⟨unlines [ordersHeader], none⟩

def refusedTrace : PluginTrace :=
  [⟨.dial ordersConfig.agentPath, .ok ()⟩,
    ⟨.agent (.connect ordersConfig.request), .error "connection refused"⟩,
    ⟨.agent .close, .ok ()⟩]

/-- Without a transaction there is nothing to commit: an artifact that is well
    formed, no insertion that failed and no test are not enough. -/
theorem commit_needs_begin : ¬ ∀ (cfg : Config) (a : Artifact) (file : FileContent)
    (tr : PluginTrace) (r : Except Bytes Unit),
    Runs (restore cfg a) (⟨.openFile a.path, .ok file⟩ :: tr) r →
    (CommitAttempted (agentTrace tr) ↔
      WellFormed file ∧ InsertsOk (agentTrace tr) ∧ isRestoreTest a = false) := by
  intro hall
  have hparams : (match openDump emptyDump with
      | .ok d => d.params.isSome
      | .error _ => false) = true := by decide
  split at hparams
  · next d hd =>
      -- The agent refuses to begin, and no insert is made, let alone a failing one.
      have hrun : ∃ r, Runs (restoreFrom ordersConfig ordersArtifact emptyDump) refusedTrace r := by
        rw [restoreFrom, hd]
        exact ⟨_, Runs.call _ _ _ _ _ (Runs.call _ _ _ _ _ (Runs.call _ _ _ _ _ (Runs.ret _)))⟩
      rcases hrun with ⟨r, hrun⟩
      have hinserts : InsertsOk (agentTrace refusedTrace) := by
        rintro e he connID ⟨sql, params, heq⟩
        have hmem : e.1 ∈ (agentTrace refusedTrace).map Sigma.fst := List.mem_map_of_mem he
        rw [heq] at hmem
        rcases List.mem_cons.mp hmem with hfalse | hmem
        · cases hfalse
        · cases List.mem_singleton.mp hmem
      have hcommit := (hall _ _ _ _ r ((restore_opened _ _ _ _ _).mpr hrun)).mpr
        ⟨⟨d, hd, hparams⟩, hinserts, by decide⟩
      rcases hcommit with ⟨connID, hmem⟩
      rcases List.mem_cons.mp hmem with hfalse | hmem
      · cases hfalse
      · cases List.mem_singleton.mp hmem
  · cases hparams

end Informix

end Bop
