import Bop.Json.FloatValue
import Bop.Plugin.Informix.Agent
import Bop.Plugin.Informix.Settings

/-!
# The Port of an Informix Server

A port comes out of the settings as an integer, a text or a float, becomes an
`int`, and is sent to the agent with 32 bits. The first conversion cuts a
fraction off and the second one wraps around. Nothing between them looks at the
value, except that zero counts as missing, so the port that is dialled is the
one that was configured exactly when that is an integer of 32 bits.

## Main definitions

* `portNumber`: The number a setting gives.
* `Dials`: The port of every request the plugin sends when it connects.

## Theorems

* `parseConfig_port`: The port of an accepted configuration.
* `toInt_of_portNumber`: A number that is a 64-bit integer is read as it is.
* `dials_iff`: What is dialled is the port in 32 bits.
* `dials_portNumber_iff`: When the configured port is the one that is dialled.
-/

namespace Bop

namespace Informix

open Prog

/-- The number a setting gives: an integer, the value of a float, or the number
    a text spells. -/
def portNumber : Dyn → Option ℚ
  | .int n => some n
  | .float n => some n.value
  | .str s => (atoi s).map (fun n : Int => (n : ℚ))
  | _ => none

/-- Whenever the plugin connects, the request it sends has this port. -/
def Dials (cfg : Config) (port : Int) : Prop :=
  ∀ tr r, Runs (connect cfg) tr r →
    ∀ req x, (⟨.agent (.connect req), x⟩ : Prog.Event PluginOp PluginAns) ∈ tr →
      req.port.toInt = port

/-- The port of an accepted configuration is what `toInt` makes of the setting,
    and it is not zero. -/
theorem parseConfig_port (getenv : Bytes → Bytes) (cfg : Option PluginConfig)
    (parsed : ParsedConfig) (h : parseConfig getenv cfg = .ok parsed) :
    ∃ raw, cfg.bind (·.config) = some raw ∧ toInt (setting raw "port") = .ok parsed.port ∧
      parsed.port ≠ 0 := by
  cases hraw : cfg.bind (·.config) with
  | none =>
      unfold parseConfig at h
      rw [hraw] at h
      cases h
  | some raw =>
      have hsettings : parseConfig getenv (some ⟨some raw⟩) = .ok parsed := by
        rw [← h, parseConfig, parseConfig, hraw]
        rfl
      rcases (parseConfig_ok_iff getenv raw parsed).mp hsettings with ⟨port, tables, haccepted, rfl⟩
      exact ⟨raw, rfl, haccepted.portRead, haccepted.portNonzero⟩

/-- A number that is a 64-bit integer is read as it is. -/
theorem toInt_of_portNumber (v : Dyn) (p port : Int) (hv : portNumber v = some (p : ℚ))
    (hport : toInt v = .ok port) (hlow : -(2 ^ 63) ≤ p) (hhigh : p < 2 ^ 63) : port = p := by
  cases v with
  | int n =>
      cases hport
      exact_mod_cast Option.some.inj hv
  | float n =>
      cases hport
      exact Json.toInt64_of_value n p (Option.some.inj hv) hlow hhigh
  | str s =>
      rw [portNumber, Option.map_eq_some_iff] at hv
      -- A text spells the number that `Atoi` reads.
      rcases hv with ⟨n, hn, hcast⟩
      rw [toInt, hn] at hport
      cases hport
      exact_mod_cast hcast
  | _ => cases hv

/-- The calls of a connecting plugin ask for its own request only. -/
theorem request_of_connect (cfg : Config) (tr : PluginTrace) (r : Except Bytes Bytes)
    (h : Runs (connect cfg) tr r) (req : ConnectRequest) (x : AgentAns (.connect req))
    (hmem : (⟨.agent (.connect req), x⟩ : Prog.Event PluginOp PluginAns) ∈ tr) :
    req = cfg.request := by
  -- The call is one of those made to the agent.
  have hasked : (⟨.connect req, x⟩ : Prog.Event AgentCall AgentAns) ∈ agentTrace tr :=
    List.mem_filterMap.mpr ⟨_, hmem, rfl⟩
  rcases connect_runs cfg tr r h with ⟨msg, err, -, rfl⟩ | ⟨msg, err, y, -, htr⟩ |
    ⟨connID, -, htr⟩
  · -- The agent was not dialled.
    cases List.mem_singleton.mp hmem
  · rw [htr] at hasked
    -- The request was refused, and the connection is closed behind it.
    rcases List.mem_cons.mp hasked with heq | hasked
    · cases heq
      rfl
    · cases List.mem_singleton.mp hasked
  · rw [htr] at hasked
    cases List.mem_singleton.mp hasked
    rfl

/-- What is dialled is the port in 32 bits. -/
theorem dials_iff (cfg : Config) (port : Int) :
    Dials cfg port ↔ (Int32.ofInt cfg.port).toInt = port := by
  constructor
  · intro h
    -- There is a run that gets as far as sending the request.
    rcases runs_accept (connect cfg) with ⟨tr, hrun, hok⟩
    rcases connect_runs cfg tr _ hrun with ⟨msg, err, -, htr⟩ | ⟨msg, err, x, -, htr⟩ |
      ⟨connID, -, htr⟩
    · -- An agent that can be dialled was dialled.
      have hfail := hok ⟨.dial cfg.agentPath, .error err⟩ (htr ▸ List.mem_cons_self)
      cases hfail
    · have hmem : (⟨.connect cfg.request, .error err⟩ : Prog.Event AgentCall AgentAns) ∈
          agentTrace tr := htr ▸ List.mem_cons_self
      rcases List.mem_filterMap.mp hmem with ⟨⟨o, y⟩, he, heq⟩
      cases o with
      | agent c =>
          cases heq
          cases hok _ he
      | _ => cases heq
    · have hmem : (⟨.connect cfg.request, .ok connID⟩ : Prog.Event AgentCall AgentAns) ∈
          agentTrace tr := htr ▸ List.mem_cons_self
      rcases List.mem_filterMap.mp hmem with ⟨⟨o, y⟩, he, heq⟩
      cases o with
      | agent c =>
          cases heq
          exact h tr _ hrun _ _ he
      | _ => cases heq
  · intro h tr r hrun req x hmem
    rw [request_of_connect cfg tr r hrun req x hmem]
    exact h

/-- The number given for the port of an accepted configuration is an integer,
    and the one that is dialled, exactly when it is an integer of 32 bits. -/
theorem dials_portNumber_iff (getenv : Bytes → Bytes) (raw : List (Bytes × Dyn))
    (parsed : ParsedConfig) (h : parseConfig getenv (some ⟨some raw⟩) = .ok parsed) :
    (∃ p : Int, portNumber (setting raw "port") = some (p : ℚ) ∧ Dials parsed.toConfig p) ↔
      ∃ p : Int, portNumber (setting raw "port") = some (p : ℚ) ∧ -(2 ^ 31) ≤ p ∧ p < 2 ^ 31 := by
  rcases parseConfig_port getenv _ parsed h with ⟨raw', hraw, hport, -⟩
  cases hraw
  constructor
  · rintro ⟨p, hp, hdials⟩
    -- A port that is dialled has 32 bits.
    rw [dials_iff] at hdials
    exact ⟨p, hp, hdials ▸ Int32.le_toInt _, hdials ▸ Int32.toInt_lt _⟩
  · rintro ⟨p, hp, hlow, hhigh⟩
    -- And one of 32 bits is not cut on the way there.
    have heq : parsed.port = p :=
      toInt_of_portNumber _ p parsed.port hp hport (by omega) (by omega)
    refine ⟨p, hp, (dials_iff _ p).mpr ?_⟩
    rw [heq]
    exact Int32.toInt_ofInt_of_le hlow hhigh

/-! ### A port beyond 32 bits -/

/-- The settings of a server, with a port. -/
def serverSettings (port : Dyn) : List (Bytes × Dyn) :=
  [("host", .str "db1"), ("port", port), ("username", .str "informix"),
    ("password_env", .str "IFX_PASSWORD"), ("server_name", .str "ol_db1"),
    ("database", .str "stores"), ("tables", .list [.str "orders"]),
    ("agent_path", .str "/usr/lib/bop/ifx-agent")]

/-- What they are parsed to. -/
def serverConfig (port : Int) : ParsedConfig where
  host := "db1"
  port := port
  username := "informix"
  password := "secret"
  serverName := "ol_db1"
  database := "stores"
  agentPath := "/usr/lib/bop/ifx-agent"
  passwordEnv := "IFX_PASSWORD"
  tables := ["orders"]

/-- A port that came as a JSON number is dialled. -/
theorem dials_json :
    ∃ p : Int, portNumber (setting (serverSettings (.float (Json.Number.ofInt 9088))) "port") =
        some (p : ℚ) ∧ Dials (serverConfig 9088).toConfig p :=
  (dials_portNumber_iff (fun _ => "secret") (serverSettings (.float (Json.Number.ofInt 9088)))
    (serverConfig 9088) (by rfl)).mpr ⟨9088, by decide +kernel, by decide, by decide⟩

/-- The configuration is accepted, and another port is dialled than the one it
    gives. -/
theorem dials_wrapped :
    parseConfig (fun _ => "secret") (some ⟨some (serverSettings (.int 4294976384))⟩) =
        .ok (serverConfig 4294976384) ∧
      portNumber (setting (serverSettings (.int 4294976384)) "port") =
        some ((4294976384 : Int) : ℚ) ∧
      Dials (serverConfig 4294976384).toConfig 9088 ∧
      ¬ ∃ p : Int, portNumber (setting (serverSettings (.int 4294976384)) "port") =
          some (p : ℚ) ∧ Dials (serverConfig 4294976384).toConfig p := by
  have hdials : Dials (serverConfig 4294976384).toConfig 9088 := (dials_iff _ _).mpr (by decide)
  refine ⟨rfl, rfl, hdials, ?_⟩
  rintro ⟨p, hp, hdials'⟩
  -- No other integer is the number that was given.
  have hgiven : (4294976384 : ℚ) = (p : ℚ) := Option.some.inj hp
  have hp' : p = 4294976384 := by exact_mod_cast hgiven.symm
  rw [dials_iff, hp'] at hdials'
  exact absurd hdials' (by decide)

end Informix

end Bop
