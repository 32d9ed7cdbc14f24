import BlinkDriver.CharDev.ReadThrough
import BlinkDriver.Lib.Interleaving
import BlinkDriver.CharDev.BlinkRate
import BlinkDriver.CharDev.Bounds
import BlinkDriver.CharDev.Cell
import BlinkDriver.CharDev.KernBuf
import BlinkDriver.CharDev.Register
import BlinkDriver.CharDev.Registration
import BlinkDriver.Hw3.Life
import BlinkDriver.Hw4.Walk
import BlinkDriver.Hw5.Blink
import BlinkDriver.Hw5.Delay
import BlinkDriver.Hw5.Regions
import BlinkDriver.Hw5.Serial
import BlinkDriver.Hw6.Binding
import BlinkDriver.Hw6.DmaSafety
import BlinkDriver.Hw6.Drain
import BlinkDriver.Hw6.Enable
import BlinkDriver.Hw6.LedRace
import BlinkDriver.Hw6.Lifecycle
import BlinkDriver.Hw6.Monitored
import BlinkDriver.Hw6.ReadCall
import BlinkDriver.Hw6.Rest
import BlinkDriver.LedMon.Start
