import CodexQueueBot.Go.NetURL

/-!
# Targets and runner results

The records that the scheduler shares with the configuration and with the Codex runner:
`config.Target`, `codex.Result`, and `codex.TargetHost`, the host shown for a target.
-/

set_option autoImplicit false
set_option relaxedAutoImplicit false

namespace CodexQueueBot

/-- `config.Target`. -/
structure Target where
  id : Int
  sortOrder : Int
  name : String
  apiBaseURL : String
  apiKey : String
  apiKeyEnv : String
  model : String
  wireAPI : String
  configOverrides : List String
  deriving DecidableEq, Repr

/-- The zero value of `config.Target`, which a Go map returns for a missing key. -/
def Target.zero : Target where
  id := 0
  sortOrder := 0
  name := ""
  apiBaseURL := ""
  apiKey := ""
  apiKeyEnv := ""
  model := ""
  wireAPI := ""
  configOverrides := []

/-- `codex.ExitCodeUnavailable`. -/
def exitCodeUnavailable : Int := -1

/-- `codex.Result`, with the duration in nanoseconds. -/
structure Result where
  success : Bool
  response : String
  processOutput : String
  exitCode : Int
  error : String
  duration : Int
  deriving DecidableEq, Repr

/-- `codex.TargetHost`: the host of the base URL, or the base URL itself when it does not parse. -/
def targetHost [Go.NetURL] (target : Target) : String :=
  match Go.NetURL.parse target.apiBaseURL with
  | some url => url.host
  | none => target.apiBaseURL

end CodexQueueBot
