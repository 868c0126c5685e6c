import WasmHot.Core.RollbackHistory
import WasmHot.Core.MigrationHistory
import WasmHot.Core.MigrationUndo
import WasmHot.Core.FailedMigrations
import WasmHot.Core.OutputDelta
import WasmHot.Plugin.HostContext
import WasmHot.Plugin.ExecuteWindows
import WasmHot.Plugin.Handles
import WasmHot.Actor.Mailbox
import WasmHot.Actor.TickOrder
import WasmHot.Actor.Delivery
import WasmHot.Actor.InvokeModule
import WasmHot.Actor.InvokeFrame
import WasmHot.Actor.CurrentModule
import WasmHot.Actor.FreshObjects
import WasmHot.Gateway.SerialWriter
import WasmHot.Gateway.DrainOrder
import WasmHot.Gateway.Session
import WasmHot.Gateway.ReadLoop
import WasmHot.Concurrent.SharedWorld
import WasmHot.Concurrent.DestroyedObjects
import WasmHot.Concurrent.Incarnations
import WasmHot.Concurrent.SchemaVersions
import WasmHot.Concurrent.StorageCalls
import WasmHot.Concurrent.HotReloadAll
import WasmHot.Concurrent.ReloadOutcomes
import WasmHot.Concurrent.DisjointMigrations
import WasmHot.Concurrent.LockOrder
import WasmHot.Concurrent.EntryLifetimes
import WasmHot.Concurrent.SharedInvocations
import WasmHot.Core.SchemaManager
import WasmHot.Concurrent.GetCallbacks
import WasmHot.Core.LogFailures
import WasmHot.Concurrent.ServerLifetimes
import WasmHot.Actor.RoomActor
import WasmHot.Core.LogLimits
import WasmHot.Gateway.Dispatch
import WasmHot.Actor.TickLoop
import WasmHot.Concurrent.PluginUse
import WasmHot.Concurrent.RegistryCalls
import WasmHot.Gateway.SessionLifetimes
