import Bop.Plugin.Cleanup
import Bop.Plugin.Filesystem.Archive
import Bop.Plugin.Filesystem.Scratch
import Bop.Effect.Monitor
import Bop.Effect.Handler
import Bop.Api.WriteScope
import Bop.Api.StoredConfig
import Bop.Api.TriggerCheck
import Bop.System.TwoProcesses
import Bop.System.Recovery
import Bop.System.Agreement
import Bop.System.Emission
import Bop.Cli.Restore
import Bop.Storage.Presence
import Bop.Storage.Policy
import Bop.Storage.Retrieve
import Bop.Plugin.Informix.Protocol
import Bop.Plugin.Informix.RoundTrip
import Bop.Plugin.Informix.Truncation
import Bop.Controller.Calls
import Bop.Json.Decode
import Bop.Json.Prefix
import Bop.Controller.EventTrace
import Bop.Controller.Isolation
import Bop.Controller.TempFiles
import Bop.Inventory
import Bop.Metadata.Events
import Bop.Queue
import Bop.Json.RoundTrip
import Bop.Text.Base64
import Bop.Json.Scan
import Bop.Plugin.Mariadb.Argv
import Bop.Plugin.Mariadb.Verify
import Bop.Plugin.Sql.Ownership
import Bop.Plugin.Sql.Replay
import Bop.Metadata.JobId
import Bop.Metadata.Dsn
import Bop.Plugin.Informix.Port
import Bop.Plugin.Logs.Discovery
import Bop.Storage.Summary
import Bop.Api.ConfigEcho
import Bop.Web.JobOrder
import Bop.Web.PluginForm
import Bop.Web.UseApi
import Bop.Web.Activity
import Bop.Sshexec
import Bop.System.Metrics
import Bop.System.Integrity
import Bop.Controller.AgentLifetime
import Bop.System.Shutdown
import Bop.System.Durable
import Bop.Web.Client
import Bop.System.Order
import Bop.Web.Seal
import Bop.Deploy.Unattended
import Bop.Json.Shortest
import Bop.Storage.Reading
