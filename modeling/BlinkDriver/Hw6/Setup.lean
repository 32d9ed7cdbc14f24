import BlinkDriver.Lib.Ledger
import BlinkDriver.Hw6.Registers

/-!
# Setting the device up and tearing it down

`pci_blinkDriver_probe` with `make_DMA`, and `pci_blinkDriver_remove` with
`dma_freeUp`, as lists of the calls, register accesses and stores they are made
of, in the order of the source. `Op.exec` is one of them: what it does to the
driver's global pointers, to the ring record and to the ledger of resources. It
has no result where the source dereferences a null pointer. A call that can fail
does so when its outcome is `none`; only two failures are looked at by the
source, and they continue at a label (`Op.exit`).
-/

namespace BlinkDriver.Hw6

/-- A device the driver may be bound to. -/
abbrev PciDev := Nat

/-- What a probe acquires. -/
inductive Resource where
  | enabled
  | regions
  | mapping
  | testWq
  | rxRing
  | bufferInfo
  | coherent
  | buffer (i : Fin 16)
  | dmaMap (i : Fin 16)
  | irq
  deriving DecidableEq

/-- `struct e1000_rx_buffer`: whether `rxbuf.data` is set, and the handle. -/
structure RxBuffer where
  data : Bool
  dma : BitVec 64
  deriving DecidableEq

/-- `struct e1000_rx_ring`. `filled` counts the descriptors that `make_DMA` has
set up, until `dma_freeUp` releases the first of them. -/
structure RxRing where
  dma : BitVec 64
  size : Nat
  count : Nat
  bufferInfo : Option (Fin 16 → RxBuffer)
  rxDE : Bool
  filled : Nat

/-- A zeroed record. -/
def RxRing.zero : RxRing := ⟨0, 0, 0, none, false, 0⟩

/-- The driver's global pointers, by the device whose probe set them, the ring
record each device's probe allocated last, and the ledger. -/
structure World where
  hwAddr : Option PciDev
  testWq : Option PciDev
  rxRing : Option PciDev
  ring : PciDev → RxRing
  ledger : Ledger (PciDev × Resource)

/-- A driver that was just loaded. -/
def World.boot : World := ⟨none, none, none, fun _ => .zero, .empty⟩

namespace World

variable (w : World)

def acquire (d : PciDev) (r : Resource) : World := { w with ledger := w.ledger.acquire (d, r) }

def release (d : PciDev) (r : Resource) : World := { w with ledger := w.ledger.release (d, r) }

/-- A release that matches nothing the driver was given. -/
def stray : World := { w with ledger := { w.ledger with stray := w.ledger.stray + 1 } }

/-- Store into the ring record that `mydev.rx_ring` points to. -/
def setRing (d : PciDev) (ring : RxRing) : World :=
  { w with ring := Function.update w.ring d ring }

end World

/-- The operations, under the names of what they call. -/
inductive Op where
  | pciEnableDevice
  | pciDisableDevice
  | pciRequestSelectedRegions
  | pciReleaseSelectedRegions
  | ioremap
  | iounmap
  | readl (r : Reg)
  | writel (v : U32) (r : Reg)
  | kmallocTestWq
  | initWork
  | kzallocRxRing
  | setCount
  | kcallocBufferInfo
  | dmaAllocCoherent
  | writelRdbah
  | writelRdbal
  | writelRdlen
  | kzallocBuffer (i : Fin 16)
  | dmaMapSingle (i : Fin 16)
  | setBufferAddr (i : Fin 16)
  | writelCtrl
  | requestIrq
  | freeIrq
  | dmaUnmapSingle (i : Fin 16)
  | kfreeData (i : Fin 16)
  | dmaFreeCoherent
  | kfreeBufferInfo
  deriving DecidableEq

/-! ## The functions -/

/-- The label `unregister_selected_regions` of `pci_blinkDriver_probe`. -/
def unregisterSelectedRegions : List Op := [.pciReleaseSelectedRegions]

/-- The label `unregister_ioremap`, which runs into the other one. -/
def unregisterIoremap : List Op := .iounmap :: unregisterSelectedRegions

/-- One turn of the loop in `make_DMA`. -/
def setUpDescriptor (i : Fin 16) : List Op :=
  [.kzallocBuffer i, .dmaMapSingle i, .setBufferAddr i]

/-- `make_DMA`. The two accesses of `CTRL` at its end are one operation. -/
def makeDMA : List Op :=
  [.kzallocRxRing, .setCount, .writel 0xFFFFFFFF .imc, .writel 0x04000000 .ctrl,
    .writel 0xFFFFFFFF .imc, .kcallocBufferInfo, .dmaAllocCoherent, .writelRdbah, .writelRdbal,
    .writelRdlen, .writel 0 .rdh0, .writel 0xF .rdt0] ++
  (List.finRange 16).flatMap setUpDescriptor ++
  [.writelCtrl, .writel 0x1A .rctl, .requestIrq, .writel 0x10 .ims]

/-- `pci_blinkDriver_probe`. -/
def pciBlinkDriverProbe : List Op :=
  [.pciEnableDevice, .pciRequestSelectedRegions, .ioremap, .readl .ledctl,
    .writel 0x800000 .ledctl, .kmallocTestWq, .initWork] ++ makeDMA

/-- One turn of the loop in `dma_freeUp`; only the first call is under its
`if`. -/
def freeDescriptor (i : Fin 16) : List Op := [.dmaUnmapSingle i, .kfreeData i]

/-- `dma_freeUp`. -/
def dmaFreeUp : List Op :=
  (List.finRange 16).flatMap freeDescriptor ++ [.dmaFreeCoherent, .kfreeBufferInfo]

/-- `pci_blinkDriver_remove`. -/
def pciBlinkDriverRemove : List Op :=
  [.freeIrq, .pciDisableDevice] ++ dmaFreeUp ++ [.iounmap, .pciReleaseSelectedRegions]

/-! ## One operation -/

/-- The calls that can fail. `pci_enable_device` is taken to succeed. -/
def Op.fallible : Op → Bool
  | .pciRequestSelectedRegions | .ioremap | .kmallocTestWq | .kzallocRxRing | .kcallocBufferInfo
  | .dmaAllocCoherent | .kzallocBuffer _ | .dmaMapSingle _ | .requestIrq => true
  | _ => false

/-- Where the probe continues when the operation fails, if it looks. -/
def Op.exit : Op → Option (List Op)
  | .pciRequestSelectedRegions => some unregisterSelectedRegions
  | .ioremap => some unregisterIoremap
  | _ => none

/-- Update the buffer information of slot `i`, if there is such an array. -/
def RxRing.setBuffer (ring : RxRing) (i : Fin 16) (f : RxBuffer → RxBuffer) : Option RxRing :=
  ring.bufferInfo.map fun info =>
    { ring with bufferInfo := some (Function.update info i (f (info i))) }

/-- One operation for device `pdev` with the given outcome: the pointer or handle
a call returns, or `none` where it fails. -/
def Op.exec (pdev : PciDev) (outcome : Option (BitVec 64)) (op : Op) (w : World) : Option World :=
  match op with
  | .pciEnableDevice => some (w.acquire pdev .enabled)
  | .pciDisableDevice => some (w.release pdev .enabled)
  | .pciRequestSelectedRegions =>
      if outcome.isSome then some (w.acquire pdev .regions) else some w
  | .pciReleaseSelectedRegions => some (w.release pdev .regions)
  | .ioremap =>
      if outcome.isSome then some { w.acquire pdev .mapping with hwAddr := some pdev }
      else some { w with hwAddr := none }
  | .iounmap =>
      match w.hwAddr with
      | some d => some (w.release d .mapping)
      | none => some w
  | .readl _ | .writel _ _ | .writelCtrl => w.hwAddr.map fun _ => w
  | .kmallocTestWq =>
      if outcome.isSome then some { w.acquire pdev .testWq with testWq := some pdev }
      else some { w with testWq := none }
  | .initWork => w.testWq.map fun _ => w
  | .kzallocRxRing =>
      if outcome.isSome then
        some { (w.acquire pdev .rxRing).setRing pdev .zero with rxRing := some pdev }
      else some { w with rxRing := none }
  | .setCount =>
      w.rxRing.map fun d => w.setRing d { w.ring d with count := 16, size := 16 * 16 }
  | .kcallocBufferInfo =>
      w.rxRing.map fun d =>
        if outcome.isSome then
          (w.acquire pdev .bufferInfo).setRing d
            { w.ring d with bufferInfo := some fun _ => ⟨false, 0⟩ }
        else w.setRing d { w.ring d with bufferInfo := none }
  | .dmaAllocCoherent =>
      w.rxRing.map fun d =>
        match outcome with
        | some handle =>
            (w.acquire pdev .coherent).setRing d { w.ring d with rxDE := true, dma := handle }
        | none => w.setRing d { w.ring d with rxDE := false }
  | .writelRdbah | .writelRdbal | .writelRdlen => w.rxRing.bind fun _ => w.hwAddr.map fun _ => w
  | .kzallocBuffer i =>
      w.rxRing.bind fun d =>
        ((w.ring d).setBuffer i fun b => { b with data := outcome.isSome }).map fun ring =>
          if outcome.isSome then (w.acquire pdev (.buffer i)).setRing d ring else w.setRing d ring
  | .dmaMapSingle i =>
      w.rxRing.bind fun d =>
        ((w.ring d).setBuffer i fun b => { b with dma := outcome.getD 0 }).map fun ring =>
          if outcome.isSome then (w.acquire pdev (.dmaMap i)).setRing d ring else w.setRing d ring
  | .setBufferAddr i =>
      w.rxRing.bind fun d =>
        if (w.ring d).rxDE then some (w.setRing d { w.ring d with filled := i.val + 1 }) else none
  | .requestIrq => if outcome.isSome then some (w.acquire pdev .irq) else some w
  | .freeIrq => if w.rxRing = some pdev then some (w.release pdev .irq) else some w.stray
  | .dmaUnmapSingle i =>
      w.rxRing.bind fun d =>
        (w.ring d).bufferInfo.map fun info =>
          let w := w.setRing d { w.ring d with filled := 0 }
          if (info i).dma = 0 then w else w.release d (.dmaMap i)
  | .kfreeData i =>
      w.rxRing.bind fun d =>
        (w.ring d).bufferInfo.map fun info =>
          let w := w.setRing d { w.ring d with filled := 0 }
          if (info i).data then w.release d (.buffer i) else w
  | .dmaFreeCoherent =>
      w.rxRing.map fun d =>
        if (w.ring d).rxDE then
          (w.release d .coherent).setRing d { w.ring d with rxDE := false, filled := 0 }
        else w
  | .kfreeBufferInfo =>
      w.rxRing.map fun d =>
        let freed := if (w.ring d).bufferInfo.isSome then w.release d .bufferInfo else w
        freed.setRing d { w.ring d with bufferInfo := none, filled := 0 }

/-- A straight run through a list of operations. -/
def execute (pdev : PciDev) (outcome : Op → Option (BitVec 64)) : List Op → World → Option World
  | [], w => some w
  | op :: rest, w => (op.exec pdev (outcome op) w).bind (execute pdev outcome rest)

/-- A run of a function: a failure with a label ends at the label and returns -1,
otherwise the function returns 0. -/
def call (pdev : PciDev) (outcome : Op → Option (BitVec 64)) :
    List Op → World → Option (World × Int)
  | [], w => some (w, 0)
  | op :: rest, w =>
      (op.exec pdev (outcome op) w).bind fun w =>
        match if (outcome op).isSome then none else op.exit with
        | some label => (execute pdev outcome label w).map fun w => (w, -1)
        | none => call pdev outcome rest w

end BlinkDriver.Hw6
