import RoundRobin.Clock.Counter
import RoundRobin.Clock.Delay
import RoundRobin.Clock.Duration
import RoundRobin.Config
import RoundRobin.Cpu.Context
import RoundRobin.Cpu.Daif
import RoundRobin.Cpu.Flag
import RoundRobin.Cpu.Level
import RoundRobin.Error
import RoundRobin.Fault
import RoundRobin.Kernel.Assembly
import RoundRobin.Kernel.Basic
import RoundRobin.Kernel.BringUp
import RoundRobin.Kernel.Call
import RoundRobin.Kernel.Dispatch
import RoundRobin.Kernel.Event
import RoundRobin.Kernel.Hooks
import RoundRobin.Kernel.Query
import RoundRobin.Kernel.Spawn
import RoundRobin.Kernel.Switch
import RoundRobin.Kernel.Tables
import RoundRobin.Kernel.Timer
import RoundRobin.Kernel.Trampoline
import RoundRobin.Kernel.Wait
import RoundRobin.Page.Basic
import RoundRobin.Page.Pool
import RoundRobin.Ready
import RoundRobin.Scenario.Answer
import RoundRobin.Scenario.Run
import RoundRobin.Scenario.Step
import RoundRobin.Session.Basic
import RoundRobin.Session.Clock
import RoundRobin.Session.Cpus
import RoundRobin.Session.Pages
import RoundRobin.Session.Queues
import RoundRobin.Sleep
import RoundRobin.Stats
import RoundRobin.Text.Invisible
import RoundRobin.Text.Quoted
import RoundRobin.Thread.Basic
import RoundRobin.Thread.Id
import RoundRobin.Thread.Name
import RoundRobin.Thread.Table
import RoundRobin.Word
import RoundRobin.Proofs.Kernel.Able
import RoundRobin.Proofs.Kernel.Accounts
import RoundRobin.Proofs.Kernel.Act
import RoundRobin.Proofs.Kernel.Alike
import RoundRobin.Proofs.Kernel.Coherent
import RoundRobin.Proofs.Kernel.Core
import RoundRobin.Proofs.Kernel.Effect
import RoundRobin.Proofs.Kernel.Fenced
import RoundRobin.Proofs.Kernel.History
import RoundRobin.Proofs.Kernel.Returns
import RoundRobin.Proofs.Kernel.Run
import RoundRobin.Proofs.Kernel.Slice
import RoundRobin.Proofs.Tables.Decision
import RoundRobin.Proofs.Tables.Frame
import RoundRobin.Proofs.Tables.Leave
import RoundRobin.Proofs.Tables.Ledger
import RoundRobin.Proofs.Tables.Pages
import RoundRobin.Proofs.Tables.Progress
import RoundRobin.Proofs.Tables.Ready
import RoundRobin.Proofs.Tables.Reclaim
import RoundRobin.Proofs.Tables.Sound
import RoundRobin.Proofs.Tables.Stripped
import RoundRobin.Proofs.Tables.Tick
import RoundRobin.Proofs.Thread.Table
import RoundRobin.Proofs.Advisory
import RoundRobin.Proofs.BoundedWaiting
import RoundRobin.Proofs.Calibration
import RoundRobin.Proofs.CallerChecks
import RoundRobin.Proofs.Conservation
import RoundRobin.Proofs.Consistency
import RoundRobin.Proofs.IdleThread
import RoundRobin.Proofs.InsideHandler
import RoundRobin.Proofs.Reclamation
import RoundRobin.Proofs.Registry
import RoundRobin.Proofs.RegistryContents
import RoundRobin.Proofs.Sleeping
import RoundRobin.Proofs.WakeOrder
import RoundRobin.Proofs.StatusChanges
import RoundRobin.Proofs.WakeUps
import RoundRobin.Proofs.Kernel.Levels
import RoundRobin.Proofs.LevelDiscipline
import RoundRobin.Proofs.Kernel.Trace
import RoundRobin.Proofs.Kernel.Told
import RoundRobin.Proofs.DispatchTrace
import RoundRobin.Proofs.Kernel.Handler
import RoundRobin.Proofs.TickAttribution
import RoundRobin.Proofs.Tables.Scene
import RoundRobin.Proofs.Registrations
import RoundRobin.Proofs.InterruptStep
import RoundRobin.Proofs.Tables.Line
import RoundRobin.Proofs.ExactRoundRobin
import RoundRobin.Proofs.Tables.Traffic
import RoundRobin.Proofs.Kernel.NotFull
import RoundRobin.Proofs.ReservedCapacity
import RoundRobin.Proofs.PageAccounting
import RoundRobin.Proofs.Kernel.Spawning
import RoundRobin.Proofs.BringUp
import RoundRobin.Proofs.Creation
import RoundRobin.Proofs.IdleLoop
import RoundRobin.Proofs.PageContents
import RoundRobin.Proofs.Building
import RoundRobin.Proofs.Kernel.Durable
import RoundRobin.Proofs.Tables.Begun
import RoundRobin.Proofs.Kernel.Course
import RoundRobin.Proofs.Entries
import RoundRobin.Proofs.SleepWrappers
import RoundRobin.Proofs.Conversions
import RoundRobin.Proofs.RationalWaits
import RoundRobin.Proofs.Thread.Name
import RoundRobin.Proofs.Inquiry
import RoundRobin.Proofs.CalibrationRegisters
import RoundRobin.Proofs.CalibrationSearch
import RoundRobin.Proofs.DurationAlgebra
import RoundRobin.Proofs.InterruptMasks
