import Hwemu.Lib.Bitmap
import Hwemu.Lib.Run
import Hwemu.Lib.Except
import Hwemu.Lib.Journal
import Hwemu.Consts
import Hwemu.KernelUtils
import Hwemu.Pair
import Hwemu.TimeText
import Hwemu.PairText
import Hwemu.PairBounds
import Hwemu.PairGrammar
import Hwemu.TimeOverflow
import Hwemu.Store
import Hwemu.Sysfs
import Hwemu.Ioctl
import Hwemu.StoreInvariant
import Hwemu.StoreSteps
import Hwemu.Operations
import Hwemu.MissingDevice
import Hwemu.PairMap
import Hwemu.ReadBack
import Hwemu.Lib.Periodic
import Hwemu.Async
import Hwemu.TimerRuns
import Hwemu.Schedule
import Hwemu.Periods
import Hwemu.Lib.Chunked
import Hwemu.RespBuffer
import Hwemu.I2c
import Hwemu.Spi
import Hwemu.SpiQueue
import Hwemu.Lib.Registers
import Hwemu.Smbus
import Hwemu.ReadBuffers
import Hwemu.Lib.Machine
import Hwemu.I2cReuse
import Hwemu.Lib.Registry
import Hwemu.Drivers
import Hwemu.DriverTables
import Hwemu.PrivateTables
import Hwemu.AddPair
import Hwemu.Lib.Keyed
import Hwemu.Lib.Ledger
import Hwemu.Accounts
import Hwemu.IoctlFailures
import Hwemu.Lib.Threads
import Hwemu.Show
import Hwemu.Readers
import Hwemu.Locking
import Hwemu.I2cRemoval
import Hwemu.Handlers
import Hwemu.SysfsLock
import Hwemu.HwectlWrite
import Hwemu.HwectlTimer
import Hwemu.ConfigRounds
import Hwemu.TableRuns
import Hwemu.Lib.Staged
import Hwemu.ModuleLoad
import Hwemu.ModuleRuns
import Hwemu.LoadSteps
import Hwemu.Teardown
import Hwemu.LoadPhases
import Hwemu.TickSafety
import Hwemu.Devids
import Hwemu.FailedAdditions
import Hwemu.Uninstall
import Hwemu.IniText
import Hwemu.LoadedBytes
import Hwemu.RandomIni
import Hwemu.Lib.Ring
import Hwemu.LinkedStore
import Hwemu.LinkedView
import Hwemu.LinkedOps
import Hwemu.LinkedRuns
import Hwemu.Emulator
import Hwemu.Bench
import Hwemu.DriverMemory
import Hwemu.BenchView
import Hwemu.BenchOps
import Hwemu.BenchCalls
import Hwemu.BenchTicks
import Hwemu.BenchRuns
import Hwemu.BenchTaught
import Hwemu.BenchQueries
import Hwemu.EmulatorConfig
import Hwemu.Configured
import Hwemu.SpiTest
import Hwemu.BenchAnswers
import Hwemu.SpiTestRuns
