import YosStm32.Lib.Run
import YosStm32.Lib.Cyclic
import YosStm32.Kernel.Task
import YosStm32.Kernel.Scheduler
import YosStm32.Kernel.Invariant
import YosStm32.Kernel.Delay
import YosStm32.Kernel.RoundRobin
import YosStm32.Lib.Threads
import YosStm32.Mutex.Exclusion
import YosStm32.Lib.Refinement
import YosStm32.Lib.Ring
import YosStm32.RingBuf.Fifo
import YosStm32.Cmdline.MakeArgs
import YosStm32.Cmdline.Tokens
import YosStm32.Kernel.PendSv
import YosStm32.Kernel.Contexts
import YosStm32.Iic.Transactions
import YosStm32.Timer.Slot
import YosStm32.Timer.OneShot
import YosStm32.Timer.Callbacks
import YosStm32.Serial.Receive
import YosStm32.BasicIo.BasicIo
import YosStm32.Cmdline.Shell
import YosStm32.Cmdline.Session
import YosStm32.Kernel.TaskInfo
import YosStm32.Kernel.LifeCycle
import YosStm32.Kernel.TaskLife
import YosStm32.Kernel.Start
import YosStm32.Kernel.Creation
import YosStm32.Kernel.Stacks
import YosStm32.Kernel.StackUsage
import YosStm32.Kernel.Sleep
import YosStm32.Kernel.ShellEntry
import YosStm32.Timer.CreateSteps
import YosStm32.Timer.Concurrent
import YosStm32.Kernel.CreateSteps
import YosStm32.Kernel.ConcurrentCreate
import YosStm32.Timer.Periodic
import YosStm32.Timer.Ids
import YosStm32.Timer.Restarting
import YosStm32.BasicIo.Port
import YosStm32.Serial.CanRead
import YosStm32.BasicIo.Lines
import YosStm32.BasicIo.Write
import YosStm32.Cmdline.Rendering
import YosStm32.Cmdline.Print
import YosStm32.Lib.Infix
import YosStm32.Cmdline.Echo
import YosStm32.Oled.Fonts
import YosStm32.Oled.Puts
import YosStm32.Oled.Glyphs
import YosStm32.Oled.Uptime
import YosStm32.BasicIo.Bounds
import YosStm32.Cmdline.Bounds
import YosStm32.Lib.Crc
import YosStm32.Aht20.SensorTask
import YosStm32.Main.Tasks
import YosStm32.Main.SerialShell
import YosStm32.Iic.Scheduled
import YosStm32.Main.System
import YosStm32.Main.Console
