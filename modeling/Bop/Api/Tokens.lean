import Bop.Text.Lines
import Bop.Text.Utf8

/-!
# Bearer Tokens

Where the API's tokens come from: an environment variable that holds one, or
a file with one on each line. The read list is required. The write list is
not, and without one nobody may write.

Whichever way a token comes in, it is never empty (`loadTokens_ne_nil`,
`loadWriteTokens_ne_nil`). The middleware relies on nothing else.

## Main definitions

* `APIConfig`: The section of the configuration.
* `Env`: Environment variables and files.
* `loadTokenFile`: The tokens of a file.
* `loadTokens`, `loadWriteTokens`: The two lists.

## Theorems

* `loadTokens_ne_nil`: No read token is empty.
* `loadWriteTokens_ne_nil`: No write token is empty.
-/

namespace Bop

namespace Api

/-- The part of `config.APIConfig` that names the tokens. -/
structure APIConfig where
  tokensFile : Bytes
  tokenEnv : Bytes
  writeTokensFile : Bytes
  writeTokenEnv : Bytes

/-- The environment a process starts in. An unset variable reads as empty. -/
structure Env where
  getenv : Bytes → Bytes
  openFile : Bytes → Except Bytes FileContent

/-- The lines of a token file that are tokens. -/
def tokenLines (lines : List Bytes) : List Bytes :=
  (lines.map Utf8.trimSpace).filter (fun line => line ≠ [] ∧ line.head? ≠ some 35)

/-- `loadTokenFile`. -/
def loadTokenFile (env : Env) (path fieldName : Bytes) : Except Bytes (List Bytes) :=
  match env.openFile path with
  | .error err => .error ("api: open " ++ fieldName ++ ": " ++ err)
  | .ok f =>
      let scan := scanLines maxScanTokenSize f.data f.readErr
      match scan.err with
      | some err => .error ("api: read " ++ fieldName ++ ": " ++ err)
      | none =>
          let tokens := tokenLines scan.lines
          if tokens = [] then
            .error ("api: " ++ fieldName ++ " " ++ quoteGo path ++ " contains no tokens")
          else .ok tokens

/-- A token from an environment variable. -/
def loadTokenEnv (env : Env) (name fieldName : Bytes) : Except Bytes (List Bytes) :=
  if env.getenv name = [] then
    .error ("api: environment variable " ++ quoteGo name ++ " (" ++ fieldName ++
      ") is not set")
  else .ok [env.getenv name]

/-- `LoadTokens`. -/
def loadTokens (env : Env) (cfg : APIConfig) : Except Bytes (List Bytes) :=
  if cfg.tokenEnv ≠ [] then loadTokenEnv env cfg.tokenEnv "token_env"
  else loadTokenFile env cfg.tokensFile "tokens_file"

/-- `LoadWriteTokens`. Neither field set means that there are none. -/
def loadWriteTokens (env : Env) (cfg : APIConfig) : Except Bytes (List Bytes) :=
  if cfg.writeTokenEnv = [] ∧ cfg.writeTokensFile = [] then .ok []
  else if cfg.writeTokenEnv ≠ [] then loadTokenEnv env cfg.writeTokenEnv "write_token_env"
  else loadTokenFile env cfg.writeTokensFile "write_tokens_file"

theorem tokenLines_ne_nil (lines : List Bytes) (t : Bytes) (h : t ∈ tokenLines lines) :
    t ≠ [] := by
  have := (List.mem_filter.mp h).2
  exact (of_decide_eq_true this).1

theorem loadTokenFile_ne_nil (env : Env) (path fieldName : Bytes) (tokens : List Bytes)
    (h : loadTokenFile env path fieldName = .ok tokens) : ∀ t ∈ tokens, t ≠ [] := by
  unfold loadTokenFile at h
  split at h
  · cases h
  · simp only at h
    split at h
    · cases h
    · split at h
      · cases h
      · cases h
        exact fun t ht => tokenLines_ne_nil _ t ht

theorem loadTokenEnv_ne_nil (env : Env) (name fieldName : Bytes) (tokens : List Bytes)
    (h : loadTokenEnv env name fieldName = .ok tokens) : ∀ t ∈ tokens, t ≠ [] := by
  unfold loadTokenEnv at h
  split at h
  · cases h
  · next hne =>
      cases h
      intro t ht
      rw [List.mem_singleton] at ht
      rw [ht]
      exact hne

/-- No read token is empty. -/
theorem loadTokens_ne_nil (env : Env) (cfg : APIConfig) (tokens : List Bytes)
    (h : loadTokens env cfg = .ok tokens) : ∀ t ∈ tokens, t ≠ [] := by
  unfold loadTokens at h
  split at h
  · exact loadTokenEnv_ne_nil _ _ _ _ h
  · exact loadTokenFile_ne_nil _ _ _ _ h

/-- No write token is empty. -/
theorem loadWriteTokens_ne_nil (env : Env) (cfg : APIConfig) (tokens : List Bytes)
    (h : loadWriteTokens env cfg = .ok tokens) : ∀ t ∈ tokens, t ≠ [] := by
  unfold loadWriteTokens at h
  split at h
  · cases h
    exact fun t ht => absurd ht List.not_mem_nil
  · split at h
    · exact loadTokenEnv_ne_nil _ _ _ _ h
    · exact loadTokenFile_ne_nil _ _ _ _ h

end Api

end Bop
