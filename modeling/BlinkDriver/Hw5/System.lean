import BlinkDriver.CharDev.BlinkRate
import BlinkDriver.Lib.Timer

/-!
# The blinking driver: module, device, timer and callers

`HW5/hw5.c` from `insmod` to `rmmod`. The parties are the module loader, the PCI
core, which binds the one device to the driver and takes it away again, any
number of processes that open, read and write the device file, and the timer
with its callback. A statement is one atomic step; a program point is named
after the statement it executes next.

The kernel's own rules are the guards of `step`: a module is not unloaded while a
file is open or a call is under way, `pci_unregister_driver` removes the device
first if it is bound, probe and remove exclude each other, and the callback does
not run twice at once.

`Step` lists what one step can do, in the order of the source; every proof about
the driver goes through it.
-/

namespace BlinkDriver.Hw5

open CharDev

/-- What `myPci.hw_addr` holds: nothing, a live mapping of the device's
registers, or the address of one that is gone. -/
inductive HwAddr where
  | null
  | mapped
  | unmapped
  deriving DecidableEq

/-- The module's globals and the device's `LEDCTL`. The timer remembers the
milliseconds it was last armed with. -/
structure Globals where
  rate : Rate
  led : BitVec 64
  openTracker : BitVec 32
  ledInitialVal : BitVec 64
  hwAddr : HwAddr
  timer : Timer (BitVec 32)
  ledctl : BitVec 32
  deriving DecidableEq

/-- `(blink_rate * 1000) / 2` as `msecs_to_jiffies` receives it. -/
def halfPeriod (blinkRate : BitVec 32) : BitVec 32 := (blinkRate * 1000).sdiv 2

/-- `mod_timer(&my_timer, jiffies + msecs_to_jiffies((blink_rate * 1000) / 2))`. -/
def Globals.modTimer (g : Globals) : Globals :=
  { g with timer := g.timer.modify (halfPeriod g.rate.blinkRate) }

/-! ## The driver's functions -/

/-- Program points of `my_callback`. -/
inductive CallbackPc where
  | toggle
  | writeLed
  | arm
  | finish
  deriving DecidableEq

/-- The next statement of `my_callback`. A store through an address that is not
mapped does not reach the device. -/
def myCallback (g : Globals) : CallbackPc → Globals × Option CallbackPc
  | .toggle => ({ g with led := g.led ^^^ 0x80 }, some .writeLed)
  | .writeLed =>
      ({ g with ledctl := if g.hwAddr = .mapped then g.led.setWidth 32 else g.ledctl }, some .arm)
  | .arm => (g.modTimer, some .finish)
  | .finish => (g, none)

/-- Program points of `example5_open`. The first statement, which assigns
`blink_rate` to `syscall_val`, is two accesses. -/
inductive OpenPc where
  | stage (pc : CharDev.OpenPc)
  | clearLed
  | testTracker
  | setup
  | arm
  | setTracker
  | returned
  deriving DecidableEq

/-- The next statement of `example5_open`. -/
def example5Open (g : Globals) : OpenPc → Option (Globals × OpenPc)
  | .stage pc => (CharDev.Hw5.example5Open g.rate pc).map fun next =>
      ({ g with rate := next.1 }, if next.2 = .returned then .clearLed else .stage next.2)
  | .clearLed => some ({ g with led := 0 }, .testTracker)
  | .testTracker => some (g, if g.openTracker = 0 then .setup else .returned)
  | .setup => some ({ g with timer := g.timer.setup }, .arm)
  | .arm => some (g.modTimer, .setTracker)
  | .setTracker => some ({ g with openTracker := 1 }, .returned)
  | .returned => none

/-- Program points of `example5_read`. -/
inductive ReadPc where
  | checkOffset
  | checkBuf
  | copy
  | returned
  deriving DecidableEq

/-- A read call: its arguments, its return value and what it copied to the user. -/
structure Read where
  null : Bool
  len : Nat
  offset : Nat
  pc : ReadPc
  ret : Int
  delivered : Option (BitVec 32)
  deriving DecidableEq

/-- A call that has just entered the function. -/
def Read.entered (null : Bool) (len offset : Nat) : Read where
  null := null
  len := len
  offset := offset
  pc := .checkOffset
  ret := 0
  delivered := none

/-- The next statement of `example5_read`. -/
def example5Read (ok : Bool) (g : Globals) (k : Read) : Option Read :=
  match k.pc with
  | .checkOffset =>
      if k.offset ≥ 4 then some { k with ret := 0, pc := .returned }
      else some { k with pc := .checkBuf }
  | .checkBuf =>
      if k.null then some { k with ret := -einval, pc := .returned }
      else some { k with pc := .copy }
  | .copy =>
      if ok then
        some { k with
          delivered := some g.rate.blinkRate, ret := 4, offset := k.offset + k.len
          pc := .returned }
      else some { k with ret := -efault, pc := .returned }
  | .returned => none

/-- Program points of `pci_blinkDriver_probe`. -/
inductive ProbePc where
  | request
  | map
  | readLed
  | unmap
  | release
  deriving DecidableEq

/-- Program points of `pci_blinkDriver_remove`. -/
inductive RemovePc where
  | unmap
  | release
  deriving DecidableEq

/-- What the PCI core is doing with the device. -/
inductive Pci where
  | unbound
  | probing (pc : ProbePc)
  | bound
  | removing (pc : RemovePc)
  deriving DecidableEq

/-- The next statement of `pci_blinkDriver_probe`. A failure to map stores `NULL`
in `hw_addr`, and a failure to request leaves it alone. -/
def probe (ok : Bool) (g : Globals) : ProbePc → Globals × Pci
  | .request => (g, .probing (if ok then .map else .release))
  | .map =>
      if ok then ({ g with hwAddr := .mapped }, .probing .readLed)
      else ({ g with hwAddr := .null }, .probing .unmap)
  | .readLed => ({ g with ledInitialVal := g.ledctl.setWidth 64 }, .bound)
  | .unmap => (g, .probing .release)
  | .release => (g, .unbound)

/-- The next statement of `pci_blinkDriver_remove`. -/
def remove (g : Globals) : RemovePc → Globals × Pci
  | .unmap => ({ g with hwAddr := .unmapped }, .removing .release)
  | .release => (g, .unbound)

/-! ## The system -/

/-- A call on the device file. After an open has returned the file stays open
until it is closed. -/
inductive Call where
  | opening (pc : OpenPc)
  | closed
  | reading (k : Read)
  | writing (k : Write RatePc)
  deriving DecidableEq

/-- What a process asks for. -/
inductive Request where
  | openFile
  | read (null : Bool) (len offset : Nat)
  | write (buf : UserBuffer)
  deriving DecidableEq

def Request.call : Request → Call
  | .openFile => .opening (.stage .loadRate)
  | .read null len offset => .reading (.entered null len offset)
  | .write buf => .writing (.entered RatePc buf)

/-- The call no longer keeps the module from being unloaded. -/
def Call.done : Call → Bool
  | .opening _ => false
  | .closed => true
  | .reading k => decide (k.pc = .returned)
  | .writing k => decide (k.pc = .returned)

/-- The next statement of a call. -/
def Call.move (ok : Bool) (g : Globals) : Call → Option (Globals × Call)
  | .opening pc => (example5Open g pc).map fun next => (next.1, .opening next.2)
  | .closed => none
  | .reading k => (example5Read ok g k).map fun next => (g, .reading next)
  | .writing k => (CharDev.Hw5.example5Write ok g.rate k).map fun next =>
      ({ g with rate := next.1 }, .writing next.2)

/-- Program points of `example5_exit`. What follows `pci_unregister_driver` does
not concern the timer or the device. -/
inductive ExitPc where
  | delTimer
  | unregister
  | cleanup
  deriving DecidableEq

inductive Phase where
  | unloaded
  | live
  | exiting (pc : ExitPc)
  deriving DecidableEq

/-- The PCI driver is registered. -/
def Phase.registered : Phase → Bool
  | .unloaded | .exiting .cleanup => false
  | .live | .exiting .delTimer | .exiting .unregister => true

/-- The globals, what the module loader and the PCI core are doing, the callback
if it is running, and the calls since the module was loaded. -/
structure State where
  g : Globals
  phase : Phase
  pci : Pci
  callback : Option CallbackPc
  calls : List Call
  deriving DecidableEq

/-- The globals of a module that has just been loaded with the given parameter.
The registers and the queue of timers are not the module's. -/
def Globals.loaded (g : Globals) (blinkRate : BitVec 32) : Globals where
  rate := ⟨0, blinkRate⟩
  led := 0
  openTracker := 0
  ledInitialVal := 0
  hwAddr := .null
  timer := g.timer.renew
  ledctl := g.ledctl

/-- The module has never been loaded. -/
def State.off (ledctl : BitVec 32) : State where
  g :=
    { rate := ⟨0, 0⟩, led := 0, openTracker := 0, ledInitialVal := 0, hwAddr := .null
      timer := .blank, ledctl }
  phase := .unloaded
  pci := .unbound
  callback := none
  calls := []

/-- The module is loaded with a parameter, which may be stored to later; the PCI
core starts a probe, makes its next statement, unbinds the device, or makes the
next statement of the removal; a process begins a call, makes its next statement,
or closes a file; an entry of the timer expires; the callback makes its next
statement; the module is asked to exit, and makes the next statement of that. -/
inductive Label where
  | load (blinkRate : BitVec 32)
  | setParam (blinkRate : BitVec 32)
  | probe
  | probeStep (ok : Bool)
  | unbind
  | removeStep
  | start (request : Request)
  | move (i : Nat) (ok : Bool)
  | close (i : Nat)
  | expire (entry : Timer.Entry)
  | callbackStep
  | exit
  | exitStep
  deriving DecidableEq

def step (s : State) : Label → Option State
  | .load blinkRate =>
      if s.phase = .unloaded then
        some { s with g := s.g.loaded blinkRate, phase := .live, calls := [] }
      else none
  | .setParam blinkRate =>
      if s.phase = .live then
        some { s with g := { s.g with rate := { s.g.rate with blinkRate } } }
      else none
  | .probe =>
      if s.phase.registered ∧ s.pci = .unbound then some { s with pci := .probing .request }
      else none
  | .probeStep ok =>
      match s.pci with
      | .probing pc => some { s with g := (probe ok s.g pc).1, pci := (probe ok s.g pc).2 }
      | _ => none
  | .unbind =>
      if s.phase.registered ∧ s.pci = .bound then some { s with pci := .removing .unmap }
      else none
  | .removeStep =>
      match s.pci with
      | .removing pc => some { s with g := (remove s.g pc).1, pci := (remove s.g pc).2 }
      | _ => none
  | .start request =>
      if s.phase = .live then some { s with calls := s.calls ++ [request.call] } else none
  | .move i ok =>
      (s.calls[i]?).bind fun c =>
        (c.move ok s.g).map fun next => { s with g := next.1, calls := s.calls.set i next.2 }
  | .close i =>
      if s.calls[i]? = some (.opening .returned) then
        some { s with calls := s.calls.set i .closed }
      else none
  | .expire entry =>
      if s.callback = none then
        (s.g.timer.fire entry).map fun timer =>
          { s with g := { s.g with timer }, callback := some .toggle }
      else none
  | .callbackStep =>
      s.callback.map fun pc =>
        { s with g := (myCallback s.g pc).1, callback := (myCallback s.g pc).2 }
  | .exit =>
      if s.phase = .live ∧ s.calls.all Call.done then some { s with phase := .exiting .delTimer }
      else none
  | .exitStep =>
      match s.phase with
      | .exiting .delTimer =>
          some { s with g := { s.g with timer := s.g.timer.delete }, phase := .exiting .unregister }
      | .exiting .unregister =>
          match s.pci with
          | .bound => some { s with pci := .removing .unmap }
          | .unbound => some { s with phase := .exiting .cleanup }
          | _ => none
      | .exiting .cleanup => some { s with phase := .unloaded }
      | _ => none

/-! ## What one step can do -/

/-- The statements of `example5_open`. -/
inductive OpenStep (g : Globals) : OpenPc → Globals → OpenPc → Prop
  | stage {pc : CharDev.OpenPc} {rate : Rate} {next : OpenPc}
      (after : next = .clearLed ∨ ∃ pc', next = .stage pc') :
      OpenStep g (.stage pc) { g with rate } next
  | clearLed : OpenStep g .clearLed { g with led := 0 } .testTracker
  | first (untracked : g.openTracker = 0) : OpenStep g .testTracker g .setup
  | later (tracked : g.openTracker ≠ 0) : OpenStep g .testTracker g .returned
  | setup : OpenStep g .setup { g with timer := g.timer.setup } .arm
  | arm : OpenStep g .arm g.modTimer .setTracker
  | setTracker : OpenStep g .setTracker { g with openTracker := 1 } .returned

theorem OpenStep.of_example5Open {g g' : Globals} {pc pc' : OpenPc}
    (moved : example5Open g pc = some (g', pc')) : OpenStep g pc g' pc' := by
  cases pc with
  | stage pc =>
      obtain ⟨next, -, same⟩ := Option.map_eq_some_iff.mp moved
      cases same
      refine .stage ?_
      split
      · exact Or.inl rfl
      · exact Or.inr ⟨_, rfl⟩
  | clearLed => cases moved; exact .clearLed
  | testTracker =>
      simp only [example5Open] at moved
      split at moved
      · rename_i untracked
        cases moved
        exact .first untracked
      · rename_i tracked
        cases moved
        exact .later tracked
  | setup => cases moved; exact .setup
  | arm => cases moved; exact .arm
  | setTracker => cases moved; exact .setTracker
  | returned => cases moved

/-- The statements of a call: those of an open, those of a read, which change no
global, and those of a write, which change the two that `Rate` holds. -/
inductive CallStep (g : Globals) : Call → Globals → Call → Prop
  | opening {pc pc' : OpenPc} {g' : Globals} (statement : OpenStep g pc g' pc') :
      CallStep g (.opening pc) g' (.opening pc')
  | reading {k k' : Read} (pc : k.pc ≠ .returned) : CallStep g (.reading k) g (.reading k')
  | writing {ok : Bool} {k k' : Write RatePc} {rate : Rate} (pc : k.pc ≠ .returned)
      (statement : CharDev.Hw5.example5Write ok g.rate k = some (rate, k')) :
      CallStep g (.writing k) { g with rate } (.writing k')

theorem CallStep.of_move {ok : Bool} {g g' : Globals} {c c' : Call}
    (moved : c.move ok g = some (g', c')) : CallStep g c g' c' := by
  cases c with
  | opening pc =>
      obtain ⟨⟨g₁, pc'⟩, opened, same⟩ := Option.map_eq_some_iff.mp moved
      cases same
      exact .opening (.of_example5Open opened)
  | closed => cases moved
  | reading k =>
      obtain ⟨k', read, same⟩ := Option.map_eq_some_iff.mp moved
      cases same
      refine .reading fun pc => ?_
      rw [example5Read, pc] at read
      cases read
  | writing k =>
      obtain ⟨⟨rate, k'⟩, written, same⟩ := Option.map_eq_some_iff.mp moved
      cases same
      refine .writing (fun pc => ?_) written
      rw [CharDev.Hw5.example5Write, exampleWrite, pc] at written
      cases written

/-- A call that is done makes no statement. -/
theorem CallStep.not_done {g g' : Globals} {c c' : Call} (statement : CallStep g c g' c') :
    c.done = false := by
  cases statement with
  | opening => rfl
  | reading pc => exact decide_eq_false pc
  | writing pc => exact decide_eq_false pc

/-- The statements of `example5_exit`. -/
inductive ExitStep (s : State) : State → Prop
  | delTimer (phase : s.phase = .exiting .delTimer) :
      ExitStep s { s with
        g := { s.g with timer := s.g.timer.delete }, phase := .exiting .unregister }
  | remove (phase : s.phase = .exiting .unregister) (pci : s.pci = .bound) :
      ExitStep s { s with pci := .removing .unmap }
  | unregister (phase : s.phase = .exiting .unregister) (pci : s.pci = .unbound) :
      ExitStep s { s with phase := .exiting .cleanup }
  | cleanup (phase : s.phase = .exiting .cleanup) : ExitStep s { s with phase := .unloaded }

/-- The moves of the whole system. -/
inductive Step (s : State) : Label → State → Prop
  | load {blinkRate : BitVec 32} (phase : s.phase = .unloaded) :
      Step s (.load blinkRate) { s with g := s.g.loaded blinkRate, phase := .live, calls := [] }
  | setParam {blinkRate : BitVec 32} (phase : s.phase = .live) :
      Step s (.setParam blinkRate)
        { s with g := { s.g with rate := { s.g.rate with blinkRate } } }
  | probe (registered : s.phase.registered) (pci : s.pci = .unbound) :
      Step s .probe { s with pci := .probing .request }
  | probeStep {ok : Bool} {pc : ProbePc} (pci : s.pci = .probing pc) :
      Step s (.probeStep ok) { s with g := (probe ok s.g pc).1, pci := (probe ok s.g pc).2 }
  | unbind (registered : s.phase.registered) (pci : s.pci = .bound) :
      Step s .unbind { s with pci := .removing .unmap }
  | removeStep {pc : RemovePc} (pci : s.pci = .removing pc) :
      Step s .removeStep { s with g := (remove s.g pc).1, pci := (remove s.g pc).2 }
  | start {request : Request} (phase : s.phase = .live) :
      Step s (.start request) { s with calls := s.calls ++ [request.call] }
  | move {i : Nat} {ok : Bool} {g' : Globals} {c c' : Call} (slot : s.calls[i]? = some c)
      (statement : CallStep s.g c g' c') :
      Step s (.move i ok) { s with g := g', calls := s.calls.set i c' }
  | close {i : Nat} (slot : s.calls[i]? = some (.opening .returned)) :
      Step s (.close i) { s with calls := s.calls.set i .closed }
  | expire {entry : Timer.Entry} {timer : Timer (BitVec 32)} (rest : s.callback = none)
      (fired : s.g.timer.fire entry = some timer) :
      Step s (.expire entry) { s with g := { s.g with timer }, callback := some .toggle }
  | callback {pc : CallbackPc} (running : s.callback = some pc) :
      Step s .callbackStep { s with
        g := (myCallback s.g pc).1, callback := (myCallback s.g pc).2 }
  | exit (phase : s.phase = .live) (done : s.calls.all Call.done) :
      Step s .exit { s with phase := .exiting .delTimer }
  | exitStep {t : State} (statement : ExitStep s t) : Step s .exitStep t

/-- A guarded step was taken past its guard. -/
theorem taken {p : Prop} [Decidable p] {o : Option State} {t : State}
    (moved : (if p then o else none) = some t) : p ∧ o = some t := by
  split at moved
  · rename_i guard
    exact ⟨guard, moved⟩
  · cases moved

theorem Step.of_step {s t : State} {l : Label} (moved : step s l = some t) : Step s l t := by
  cases l with
  | load blinkRate =>
      obtain ⟨phase, same⟩ := taken moved
      cases same
      exact .load phase
  | setParam blinkRate =>
      obtain ⟨phase, same⟩ := taken moved
      cases same
      exact .setParam phase
  | probe =>
      obtain ⟨⟨registered, pci⟩, same⟩ := taken moved
      cases same
      exact .probe registered pci
  | probeStep ok =>
      simp only [step] at moved
      split at moved
      · rename_i pci
        cases moved
        exact .probeStep pci
      · cases moved
  | unbind =>
      obtain ⟨⟨registered, pci⟩, same⟩ := taken moved
      cases same
      exact .unbind registered pci
  | removeStep =>
      simp only [step] at moved
      split at moved
      · rename_i pci
        cases moved
        exact .removeStep pci
      · cases moved
  | start request =>
      obtain ⟨phase, same⟩ := taken moved
      cases same
      exact .start phase
  | move i ok =>
      obtain ⟨c, slot, rest⟩ := Option.bind_eq_some_iff.mp moved
      obtain ⟨⟨g', c'⟩, made, rfl⟩ := Option.map_eq_some_iff.mp rest
      exact .move slot (.of_move made)
  | close i =>
      obtain ⟨slot, same⟩ := taken moved
      cases same
      exact .close slot
  | expire entry =>
      obtain ⟨rest, fires⟩ := taken moved
      obtain ⟨timer, fired, rfl⟩ := Option.map_eq_some_iff.mp fires
      exact .expire rest fired
  | callbackStep =>
      obtain ⟨pc, running, rfl⟩ := Option.map_eq_some_iff.mp moved
      exact .callback running
  | exit =>
      obtain ⟨⟨phase, done⟩, same⟩ := taken moved
      cases same
      exact .exit phase done
  | exitStep =>
      simp only [step] at moved
      split at moved
      · rename_i phase
        cases moved
        exact .exitStep (.delTimer phase)
      · rename_i phase
        split at moved
        · rename_i pci
          cases moved
          exact .exitStep (.remove phase pci)
        · rename_i pci
          cases moved
          exact .exitStep (.unregister phase pci)
        · cases moved
      · rename_i phase
        cases moved
        exact .exitStep (.cleanup phase)
      · cases moved

end BlinkDriver.Hw5
