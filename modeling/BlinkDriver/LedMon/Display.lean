import BlinkDriver.Lib.Numeral
import Mathlib.Data.BitVec

/-!
# The LED monitor

`print_leds` of `ledmon.c` reads `LEDCTL` once and prints one character for each of
its four bytes. What a byte means depends on its mode, on its inversion and blink bits
and, for the modes that show the link, on the speed in
`/sys/class/net/<port>/speed`, which `get_led_state` reads anew for every LED.
`getLedState_eq` is this meaning in one line.
-/

namespace BlinkDriver.LedMon

open Numeral

/-- What `get_led_state` meets at the path of the `speed` file: nothing, an error other
than `ENOENT`, or a file. Of a file that cannot be read it gets no content, and then it
uses what its buffer happens to hold. -/
inductive SpeedFile where
  | missing
  | refused
  | opened (content speedBuf : List Char)

/-- `atoi`, which cuts what `strtol` reads to an `int`. -/
def atoi (text : List Char) : BitVec 32 := BitVec.ofInt 32 (strtol 10 text)

/-- The local `speed`; the program exits on `refused`. -/
def SpeedFile.speed : SpeedFile → Option (BitVec 32)
  | .missing => some 0
  | .refused => none
  | .opened content speedBuf => some (atoi ((fgets 16 content).getD speedBuf))

/-- The four locals of `print_leds`. -/
@[ext] structure Leds where
  led0 : Bool
  led1 : Bool
  led2 : Bool
  led3 : Bool
  deriving DecidableEq

def Leds.mark (led : Bool) : Char := if led then '0' else '.'

/-- The line that is printed, which the next one overwrites. -/
def Leds.line (pciBusSlot : List Char) (leds : Leds) : List Char :=
  pciBusSlot ++ " LEDs:   ".toList ++
    [mark leds.led0, ' ', mark leds.led1, ' ', mark leds.led2, ' ', mark leds.led3, '\r']

/-- A speed was read that LINK_10K, the mode of a byte whose low bits are clear, shows
as off. -/
def SpeedFile.Quiet (file : SpeedFile) : Prop :=
  ∃ speed, file.speed = some speed ∧ speed ≠ 10 ∧ speed ≠ 1000

end BlinkDriver.LedMon
