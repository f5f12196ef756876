import Ossim.Timer.Lockstep
import Ossim.Timer.Deadlock
import Ossim.Scheduler.RunningList
import Ossim.Scheduler.Killall
import Ossim.Os.Exclusive
import Ossim.Os.Shutdown
import Ossim.Os.TimeSlice
import Ossim.Os.Accounting
import Ossim.Os.Arrival
import Ossim.Os.KillByName
import Ossim.Os.Format
import Ossim.Os.Printed
import Ossim.Os.ReadConfig
import Ossim.Os.Termination
import Ossim.Os.Response
import Ossim.Os.Chart
import Ossim.Os.LogText
import Ossim.System.Machine
import Ossim.System.Simulation
import Ossim.System.Transparency
import Ossim.System.Report
import Ossim.System.Main
import Ossim.System.Locking
import Ossim.Memory.Defined
import Ossim.Memory.Frames
import Ossim.Memory.Isolation
import Ossim.Memory.Eviction
import Ossim.Memory.Refinement
import Ossim.Memory.Regions
import Ossim.Memory.Backing
import Ossim.Memory.Coverage
import Ossim.Memory.Layout
import Ossim.Memory.Leftovers
import Ossim.Memory.Retention
import Ossim.Memory.Bounds
import Ossim.Memory.PageList
import Ossim.Memory.RegionList
import Ossim.Memory.SwapIn
import Ossim.Memory.Overlap
import Ossim.Memory.SymbolTable
import Ossim.Memory.Sizes
import Ossim.Memory.Refusal
import Ossim.Memory.Sequential
import Ossim.Memory.FrameList
import Ossim.Memory.Release
import Ossim.Memory.Width
import Ossim.Memory.InitMm
import Ossim.Memory.NameLoop
import Ossim.Memory.PteRoles
import Ossim.Memory.PageCopy
import Ossim.Memory.VmaLookup
