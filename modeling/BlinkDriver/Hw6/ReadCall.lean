import BlinkDriver.CharDev.Calls
import BlinkDriver.Hw6.Ring
import BlinkDriver.Lib.Snapshot
import Mathlib.Data.Int.ConditionallyCompleteOrder

/-!
# Reading the head and the tail

`example5_read` of HW6 beside the running ring. It reads `RDH` and, some time
later, `RDT`, packs the two into one `int`, and `HW6/user.c` takes them apart
again. What the user sees is the head at one moment and the tail at a later one;
`read_pair_held` says when the ring had both at the same time.
-/

namespace BlinkDriver.Hw6

open CharDev LittleEndian Transition

/-! ## The user program -/

/-- The `int` in the user's buffer after a read. -/
def userInt (r : ReadResult) : U32 := BitVec.ofNat 32 (ofBytes r.bytes)

/-- What `user.c` prints as the head: `v >> 8`, for a signed `v`. -/
def userHead (v : U32) : U32 := v.sshiftRight 8

/-- What `user.c` prints as the tail: `v & 0x000000FF`. -/
def userTail (v : U32) : U32 := v &&& 0x000000FF

theorem toNat_pack {head tail : U32} (headFits : head.toNat < 2 ^ 23)
    (tailFits : tail.toNat < 2 ^ 8) : (pack head tail).toNat = head.toNat * 2 ^ 8 + tail.toNat := by
  have shifted : (head <<< 8).toNat = head.toNat <<< 8 := by
    rw [BitVec.toNat_shiftLeft, Nat.shiftLeft_eq]
    exact Nat.mod_eq_of_lt (by omega)
  rw [pack, BitVec.toNat_or, shifted, ← Nat.shiftLeft_add_eq_or_of_lt tailFits, Nat.shiftLeft_eq]

/-- Unpacking inverts packing, for a head below 2^23 and a tail below 2^8. -/
theorem unpack_pack {head tail : U32} (headFits : head.toNat < 2 ^ 23)
    (tailFits : tail.toNat < 2 ^ 8) :
    userHead (pack head tail) = head ∧ userTail (pack head tail) = tail := by
  have packed := toNat_pack headFits tailFits
  have positive : (pack head tail).msb = false := by
    rw [BitVec.msb_eq_false_iff_two_mul_lt, packed]
    omega
  constructor
  · apply BitVec.eq_of_toNat_eq
    rw [userHead, BitVec.sshiftRight_eq_of_msb_false positive, BitVec.toNat_ushiftRight, packed,
      Nat.shiftRight_eq_div_pow]
    omega
  · apply BitVec.eq_of_toNat_eq
    have mask : (0x000000FF : U32).toNat = 2 ^ 8 - 1 := rfl
    rw [userTail, BitVec.toNat_and, packed, mask, Nat.and_two_pow_sub_one_eq_mod]
    omega

/-- The user gets the packed `int` back out of the four bytes. -/
theorem userInt_done (v : U32) (offset : Nat) : userInt ⟨4, offset, toBytes 4 v.toNat⟩ = v := by
  have every : (toBytes 4 v.toNat).take (4 : Int).toNat = toBytes 4 v.toNat :=
    List.take_of_length_le (by rw [length_toBytes]; exact le_rfl)
  rw [userInt, ReadResult.bytes, every, ofBytes_toBytes_of_lt (by omega)]
  exact BitVec.ofNat_toNat ..

/-! ## The call -/

/-- Program points of `example5_read`. -/
inductive ReadPc where
  | check
  | readHead
  | readTail (head : U32)
  | copyToUser (head tail : U32)
  | returned (r : ReadResult)
  deriving DecidableEq

/-- The next access of `example5_read`. -/
def example5Read (a : ReadArgs) (offset : Nat) (regs : Regs) : ReadPc → Option (ReadPc × Regs)
  | .check =>
      if offset ≥ 4 then some (.returned ⟨0, offset, []⟩, regs)
      else if a.null then some (.returned ⟨-einval, offset, []⟩, regs)
      else some (.readHead, regs)
  | .readHead =>
      let (head, regs) := readl .rdh0 regs
      some (.readTail head, regs)
  | .readTail head =>
      let (tail, regs) := readl .rdt0 regs
      some (.copyToUser head tail, regs)
  | .copyToUser head tail =>
      let stored := (toBytes 4 (pack head tail).toNat).take a.reach
      if a.reach < 4 then some (.returned ⟨-efault, offset, stored⟩, regs)
      else some (.returned ⟨4, offset + a.len, stored⟩, regs)
  | .returned _ => none

/-- The ring moves, or the call makes its next access. -/
inductive Move where
  | ring (l : Label)
  | access

/-- A call and the ring, from the beginning of the call to its return. -/
def callStep (a : ReadArgs) (offset : Nat) (s : State × ReadPc) : Move → Option (State × ReadPc)
  | .ring l =>
      match s.2 with
      | .returned _ => none
      | pc => (step s.1 l).map fun t => (t, pc)
  | .access =>
      (example5Read a offset s.1.regs s.2).map fun (pc, regs) => ({ s.1 with regs }, pc)

section Call

variable {a : ReadArgs} {offset : Nat}

/-- A call that nobody interrupts is the read of `mydev_fops`. -/
theorem read_alone (s : State) (rate : Rate) :
    ∃ n, exec (callStep a offset) (s, .check) (List.replicate n .access) =
      some (s, .returned (readCall mydevFops.fetch a offset ⟨s.regs, rate⟩).2) := by
  rcases Nat.lt_or_ge offset 4 with before | atEnd
  · cases null : a.null with
    | true =>
        refine ⟨1, ?_⟩
        rw [readCall_null before null]
        simp [exec, callStep, example5Read, not_le.mpr before, null]
    | false =>
        refine ⟨4, ?_⟩
        rcases Nat.lt_or_ge a.reach 4 with faults | whole
        · rw [readCall_fault before null faults]
          simp [exec, callStep, example5Read, not_le.mpr before, null, readl, faults, mydevFops]
        · rw [readCall_done before null whole]
          have every : ∀ v : U32, (toBytes 4 v.toNat).take a.reach = toBytes 4 v.toNat := fun v =>
            List.take_of_length_le (by rw [length_toBytes]; exact whole)
          simp [exec, callStep, example5Read, not_le.mpr before, null, readl, not_lt.mpr whole,
            every, mydevFops]
  · refine ⟨1, ?_⟩
    rw [readCall_atEnd atEnd]
    simp [exec, callStep, example5Read, atEnd]

/-- The accesses of `example5_read`. -/
inductive Access (a : ReadArgs) (offset : Nat) (regs : Regs) : ReadPc → ReadPc → Prop
  | error {r : ReadResult} (failed : r.ret ≠ 4) : Access a offset regs .check (.returned r)
  | check : Access a offset regs .check .readHead
  | readHead : Access a offset regs .readHead (.readTail regs.rdh0)
  | readTail {head : U32} : Access a offset regs (.readTail head) (.copyToUser head regs.rdt0)
  | fault {head tail : U32} {r : ReadResult} (failed : r.ret ≠ 4) :
      Access a offset regs (.copyToUser head tail) (.returned r)
  | done {head tail : U32} {r : ReadResult} (packed : userInt r = pack head tail) :
      Access a offset regs (.copyToUser head tail) (.returned r)

theorem Access.of_callStep {s t : State × ReadPc} (moved : callStep a offset s .access = some t) :
    t.1 = s.1 ∧ Access a offset s.1.regs s.2 t.2 := by
  obtain ⟨⟨pc, regs⟩, next, rfl⟩ := Option.map_eq_some_iff.mp moved
  cases at_ : s.2 with
  | check =>
      simp only [example5Read, at_] at next
      split at next
      · cases next
        exact ⟨rfl, .error (by decide : (0 : Int) ≠ 4)⟩
      · split at next
        · cases next
          exact ⟨rfl, .error (by decide : -einval ≠ 4)⟩
        · cases next
          exact ⟨rfl, .check⟩
  | readHead =>
      simp only [example5Read, at_, readl] at next
      cases next
      exact ⟨rfl, .readHead⟩
  | readTail head =>
      simp only [example5Read, at_, readl] at next
      cases next
      exact ⟨rfl, .readTail⟩
  | copyToUser head tail =>
      simp only [example5Read, at_] at next
      split at next
      · cases next
        exact ⟨rfl, .fault (by decide : -efault ≠ 4)⟩
      · rename_i whole
        cases next
        have every : (toBytes 4 (pack head tail).toNat).take a.reach =
            toBytes 4 (pack head tail).toNat :=
          List.take_of_length_le (by rw [length_toBytes]; exact not_lt.mp whole)
        exact ⟨rfl, .done (by rw [every, userInt_done])⟩
  | returned r =>
      rw [at_] at next
      cases next

/-- A move of the ring leaves the call where it is. -/
theorem ring_of_callStep {s t : State × ReadPc} {l : Label}
    (moved : callStep a offset s (.ring l) = some t) :
    step s.1 l = some t.1 ∧ t.2 = s.2 ∧ ∀ r, s.2 ≠ .returned r := by
  simp only [callStep] at moved
  split at moved
  · cases moved
  · rename_i open_
    obtain ⟨next, edge, rfl⟩ := Option.map_eq_some_iff.mp moved
    exact ⟨edge, rfl, open_⟩

/-! ## What a call has read -/

/-- The worker is about to write the tail. -/
def WorkPc.writesTail : WorkPc → Bool
  | .writeTail _ => true
  | _ => false

/-- The device completes a descriptor. -/
def Receives (_ : State × ReadPc) : Move → Bool
  | .ring (.receive _) => true
  | _ => false

/-- `thread_function` writes the tail. -/
def WritesTail (s : State × ReadPc) : Move → Bool
  | .ring .workStep => s.1.work.writesTail
  | _ => false

/-- The call has read the head and not yet the tail. -/
def MidRead (s : State × ReadPc) : Bool :=
  match s.2 with
  | .readTail _ => true
  | _ => false

/-- A step that is not a move of the ring between the two reads. -/
def Aside (p : (State × ReadPc) × Move) : Prop := MidRead p.1 = true → p.2 = .access

/-- The call has read the head: where, and how it came there and on to `s`. -/
def HeadRead (a : ReadArgs) (offset : Nat) (start : State × ReadPc)
    (trace : List ((State × ReadPc) × Move)) (s : State) (head : U32) : Prop :=
  ∃ front t mid, trace = front ++ mid ∧ head = t.regs.rdh0 ∧
    ((t, .readHead), .access) ∈ front ∧
    Run (callStep a offset) start front (t, .readTail head) ∧
    Run (callStep a offset) (t, .readTail head) mid (s, .readTail head) ∧
    (∀ p ∈ front, Aside p) ∧ ∀ p ∈ mid, MidRead p.1 = true

/-- The call has read the head and the tail. -/
def BothRead (a : ReadArgs) (offset : Nat) (start : State × ReadPc)
    (trace : List ((State × ReadPc) × Move)) (s : State × ReadPc) (head tail : U32) : Prop :=
  ∃ front t back, trace = front ++ back ∧ HeadRead a offset start front t head ∧
    tail = t.regs.rdt0 ∧ ((t, .readTail head), .access) ∈ back ∧
    Run (callStep a offset) (t, .readTail head) back s ∧ ∀ p ∈ back, Aside p

/-- What the call has read at each of its program points. -/
def Stage (a : ReadArgs) (offset : Nat) (start : State × ReadPc)
    (trace : List ((State × ReadPc) × Move)) (s : State × ReadPc) : Prop :=
  match s.2 with
  | .check | .readHead => ∀ p ∈ trace, Aside p
  | .readTail head => HeadRead a offset start trace s.1 head
  | .copyToUser head tail => BothRead a offset start trace s head tail
  | .returned r => r.ret = 4 → ∃ head tail, BothRead a offset start trace s head tail ∧
      userInt r = pack head tail

variable {start : State × ReadPc} {trace : List ((State × ReadPc) × Move)}

theorem forall_mem_snoc {P : (State × ReadPc) × Move → Prop} {p : (State × ReadPc) × Move}
    (all : ∀ q ∈ trace, P q) (last : P p) : ∀ q ∈ trace ++ [p], P q :=
  List.forall_mem_append.mpr ⟨all, List.forall_mem_singleton.mpr last⟩

theorem HeadRead.snoc {s t : State} {head : U32} {l : Label}
    (read : HeadRead a offset start trace s head)
    (edge : callStep a offset (s, .readTail head) (.ring l) = some (t, .readTail head)) :
    HeadRead a offset start (trace ++ [((s, .readTail head), .ring l)]) t head := by
  obtain ⟨front, u, mid, rfl, value, there, before, between, aside, inside⟩ := read
  exact ⟨front, u, mid ++ [((s, .readTail head), .ring l)], List.append_assoc .., value, there,
    before, between.snoc edge, aside, forall_mem_snoc inside rfl⟩

theorem BothRead.snoc {s t : State × ReadPc} {m : Move} {head tail : U32}
    (read : BothRead a offset start trace s head tail) (edge : callStep a offset s m = some t)
    (last : Aside (s, m)) : BothRead a offset start (trace ++ [(s, m)]) t head tail := by
  obtain ⟨front, u, back, rfl, first, value, there, after, aside⟩ := read
  exact ⟨front, u, back ++ [(s, m)], List.append_assoc .., first, value,
    List.mem_append_left _ there, after.snoc edge, forall_mem_snoc aside last⟩

theorem Stage.snoc {s t : State × ReadPc} {m : Move} (run : Run (callStep a offset) start trace s)
    (stage : Stage a offset start trace s) (edge : callStep a offset s m = some t) :
    Stage a offset start (trace ++ [(s, m)]) t := by
  obtain ⟨s, pc⟩ := s
  obtain ⟨t, pc'⟩ := t
  cases m with
  | ring l =>
      obtain ⟨-, same, running⟩ := ring_of_callStep edge
      cases same
      cases pc with
      | check | readHead => exact forall_mem_snoc stage nofun
      | readTail head => exact HeadRead.snoc stage edge
      | copyToUser head tail => exact BothRead.snoc stage edge nofun
      | returned r => exact (running r rfl).elim
  | access =>
      have last : ∀ s : State × ReadPc, Aside (s, .access) := fun _ _ => rfl
      obtain ⟨same, access⟩ := Access.of_callStep edge
      cases same
      cases access with
      | error failed | fault failed => exact fun four => (failed four).elim
      | check => exact forall_mem_snoc stage (last _)
      | readHead =>
          exact ⟨_, s, [], (List.append_nil _).symm, rfl, by simp, run.snoc edge, .refl,
            forall_mem_snoc stage (last _), List.forall_mem_nil _⟩
      | readTail =>
          exact ⟨trace, s, _, rfl, stage, rfl, by simp, Run.single edge,
            List.forall_mem_singleton.mpr (last _)⟩
      | done packed => exact fun _ => ⟨_, _, BothRead.snoc stage edge (last _), packed⟩

theorem stage_of_run {s : State} {t : State × ReadPc}
    (call : Run (callStep a offset) (s, .check) trace t) :
    Stage a offset (s, .check) trace t := by
  induction call with
  | refl => exact List.forall_mem_nil _
  | snoc run edge ih => exact ih.snoc run edge

/-! ## The pair -/

/-- Between the two reads of the call no tail is written after the device has
completed a descriptor. -/
def TailsFirst (trace : List ((State × ReadPc) × Move)) : Prop :=
  NoneAfter (fun s m => MidRead s ∧ Receives s m) (fun s m => MidRead s ∧ WritesTail s m) trace

instance (trace : List ((State × ReadPc) × Move)) : Decidable (TailsFirst trace) :=
  inferInstanceAs (Decidable (NoneAfter _ _ trace))

theorem rdh0_of_workStep {s t : State} (access : WorkStep s t) : t.regs.rdh0 = s.regs.rdh0 := by
  cases access <;> rfl

theorem rdt0_of_workStep {s t : State} (access : WorkStep s t)
    (keeps : s.work.writesTail = false) : t.regs.rdt0 = s.regs.rdt0 := by
  cases access with
  | writeTail pc =>
      rw [pc] at keeps
      cases keeps
  | _ => rfl

theorem regs_of_irqStep {s t : State} (access : IrqStep s t) :
    t.regs.rdh0 = s.regs.rdh0 ∧ t.regs.rdt0 = s.regs.rdt0 := by
  cases access <;> exact ⟨rfl, rfl⟩

theorem rdh0_of_step {s t : State} {l : Label} (moved : Step s l t)
    (keeps : ∀ contents, l ≠ .receive contents) : t.regs.rdh0 = s.regs.rdh0 := by
  cases moved with
  | receive => exact (keeps _ rfl).elim
  | irq access => exact (regs_of_irqStep access).1
  | work access => exact rdh0_of_workStep access
  | _ => rfl

theorem rdt0_of_step {s t : State} {l : Label} (moved : Step s l t)
    (keeps : l = .workStep → s.work.writesTail = false) : t.regs.rdt0 = s.regs.rdt0 := by
  cases moved with
  | receive => exact Regs.receive_rdt0 _
  | irq access => exact (regs_of_irqStep access).2
  | work access => exact rdt0_of_workStep access (keeps rfl)
  | _ => rfl

/-- Only the device moves the head, and only the worker the tail. -/
theorem separate_callStep :
    Separate (callStep a offset) (fun s => s.1.regs.rdh0) (fun s => s.1.regs.rdt0)
      (fun s m => Receives s m) (fun s m => WritesTail s m) where
  left s m t edge keeps := by
    cases m with
    | ring l =>
        refine rdh0_of_step (.of_step (ring_of_callStep edge).1) ?_
        rintro contents rfl
        exact keeps rfl
    | access => rw [(Access.of_callStep edge).1]
  right s m t edge keeps := by
    cases m with
    | ring l =>
        refine rdt0_of_step (.of_step (ring_of_callStep edge).1) ?_
        rintro rfl
        exact Bool.eq_false_of_not_eq_true keeps
    | access => rw [(Access.of_callStep edge).1]
  apart s m receives writes := by
    cases m with
    | access => cases receives
    | ring l =>
        cases l with
        | receive contents => cases writes
        | _ => cases receives

/-! ## Counting around the ring -/

/-- How many descriptors `thread_function` has given back. -/
def State.returned (s : State) : Int := s.processed.length - s.work.inGap.toNat

theorem returned_of_workStep {s t : State} (access : WorkStep s t) :
    t.returned = s.returned + s.work.writesTail.toNat := by
  cases access with
  | sleep pc | readLedOff pc | writeLedOff pc | readTail pc | readHead pc | done pc | readData pc
  | readStatus pc | readLength pc | logHead pc | logTail pc | writeTail pc | readLed pc
  | writeLed pc => simp [State.returned, WorkPc.inGap, WorkPc.writesTail, pc]

theorem completed_of_workStep {s t : State} (access : WorkStep s t) :
    t.completed = s.completed := by
  cases access <;> rfl

theorem counts_of_irqStep {s t : State} (access : IrqStep s t) :
    t.completed = s.completed ∧ t.returned = s.returned := by
  cases access <;> exact ⟨rfl, rfl⟩

/-- What a move of the ring does to the two counts. -/
theorem counts_of_callStep {s t : State × ReadPc} {m : Move}
    (edge : callStep a offset s m = some t) :
    t.1.completed.length = s.1.completed.length + (Receives s m).toNat ∧
      t.1.returned = s.1.returned + (WritesTail s m).toNat := by
  obtain ⟨s, pc⟩ := s
  obtain ⟨t, pc'⟩ := t
  cases m with
  | access =>
      cases (Access.of_callStep edge).1
      exact ⟨rfl, (add_zero _).symm⟩
  | ring l =>
      have moved := (ring_of_callStep edge).1
      cases Step.of_step moved with
      | receive => exact ⟨List.length_append, (add_zero _).symm⟩
      | irq access =>
          obtain ⟨completed, returned⟩ := counts_of_irqStep access
          exact ⟨congrArg List.length completed, returned.trans (add_zero _).symm⟩
      | work access =>
          exact ⟨congrArg List.length (completed_of_workStep access), returned_of_workStep access⟩
      | dispatch _ rest =>
          have idle : s.work = .idle := rest
          exact ⟨rfl, by simp [State.returned, WorkPc.inGap, idle, WritesTail]⟩
      | _ => exact ⟨rfl, (add_zero _).symm⟩

theorem advances_completed :
    Advances (callStep a offset) (fun s => s.1.completed.length) (fun s m => Receives s m) where
  le s m t edge := by
    rw [(counts_of_callStep edge).1]
    exact Nat.le_add_right ..
  lt s m t edge receives := by
    rw [(counts_of_callStep edge).1, receives]
    exact Nat.lt_succ_self _

theorem advances_returned :
    Advances (callStep a offset) (fun s => s.1.returned) (fun s m => WritesTail s m) where
  le s m t edge := by
    rw [(counts_of_callStep edge).2]
    exact Int.le_add_of_nonneg_right (Int.natCast_nonneg _)
  lt s m t edge writes := by
    rw [(counts_of_callStep edge).2, writes]
    exact Int.lt_succ _

namespace RingInv

variable {s t : State} {w w' : HandoverRing.Window 16}

theorem returned_eq (inv : RingInv s w) : s.returned = w.consumed := by
  rw [State.returned, inv.length_processed]
  push_cast
  omega

/-- Within 16 completions the head tells how many there were. -/
theorem completed_eq (inv : RingInv s w) (inv' : RingInv t w') (same : t.regs.rdh0 = s.regs.rdh0)
    {lo : Nat} (sNear : lo ≤ s.completed.length ∧ s.completed.length < lo + 16)
    (tNear : lo ≤ t.completed.length ∧ t.completed.length < lo + 16) :
    t.completed.length = s.completed.length := by
  have heads : w'.produced % 16 = w.produced % 16 :=
    inv'.head.symm.trans ((congrArg BitVec.toNat same).trans inv.head)
  rw [inv.holds.length] at sNear ⊢
  rw [inv'.holds.length] at tNear ⊢
  omega

/-- Within 16 descriptors given back the tail tells how many there were. -/
theorem returned_eq_of_tail (inv : RingInv s w) (inv' : RingInv t w')
    (same : t.regs.rdt0 = s.regs.rdt0) {lo : Int}
    (sNear : lo ≤ s.returned ∧ s.returned < lo + 16)
    (tNear : lo ≤ t.returned ∧ t.returned < lo + 16) : t.returned = s.returned := by
  have tails : (w'.consumed + 15) % 16 = (w.consumed + 15) % 16 :=
    inv'.tail.symm.trans ((congrArg BitVec.toNat same).trans inv.tail)
  rw [inv.returned_eq] at sNear ⊢
  rw [inv'.returned_eq] at tNear ⊢
  omega

end RingInv

theorem ringInv_of_callStep {s t : State × ReadPc} {m : Move}
    (inv : ∃ w, RingInv s.1 w) (edge : callStep a offset s m = some t) : ∃ w, RingInv t.1 w := by
  obtain ⟨w, inv⟩ := inv
  cases m with
  | ring l =>
      obtain ⟨w', -, inv'⟩ := inv.step (.of_step (ring_of_callStep edge).1)
      exact ⟨w', inv'⟩
  | access =>
      rw [(Access.of_callStep edge).1]
      exact ⟨w, inv⟩

theorem ringInv_of_call {t : State × ReadPc} (inv : ∃ w, RingInv start.1 w)
    (call : Run (callStep a offset) start trace t) : ∀ u ∈ visited trace t, ∃ w, RingInv u.1 w :=
  call.invariant_visited (fun _ _ _ inv _ edge => ringInv_of_callStep inv edge) call.meets_true inv

/-- The ring had the pair that the user decodes at some moment of the call. -/
def PairHeld (trace : List ((State × ReadPc) × Move)) (t : State × ReadPc) (v : U32) : Prop :=
  ∃ u ∈ visited trace t, userHead v = u.1.regs.rdh0 ∧ userTail v = u.1.regs.rdt0

/-- The head that the user decodes was there at the first read of the call, and the
tail at the second. -/
structure PairRead (trace : List ((State × ReadPc) × Move)) (v : U32) : Prop where
  head : ∃ p ∈ trace, p.1.2 = .readHead ∧ p.2 = .access ∧ userHead v = p.1.1.regs.rdh0
  tail : ∃ p ∈ trace, p.1.2 = .readTail (userHead v) ∧ p.2 = .access ∧
    userTail v = p.1.1.regs.rdt0

/-- Neither register has come around: fewer than 16 descriptors were completed and
fewer than 16 given back. -/
structure Short (s t : State) : Prop where
  completed : t.completed.length < s.completed.length + 16
  returned : t.returned < s.returned + 16

/-- Only what happens between the reads counts. -/
theorem tailsFirst_iff {front mid back : List ((State × ReadPc) × Move)}
    (before : ∀ p ∈ front, Aside p) (inside : ∀ p ∈ mid, MidRead p.1 = true)
    (after : ∀ p ∈ back, Aside p) :
    TailsFirst (front ++ mid ++ back) ↔
      NoneAfter (fun s m => Receives s m) (fun s m => WritesTail s m) mid := by
  have noReceive : ∀ p : (State × ReadPc) × Move, Aside p →
      ¬ (MidRead p.1 = true ∧ Receives p.1 p.2 = true) := by
    rintro ⟨s, m⟩ aside ⟨between, receives⟩
    cases aside between
    cases receives
  have noTail : ∀ p : (State × ReadPc) × Move, Aside p →
      ¬ (MidRead p.1 = true ∧ WritesTail p.1 p.2 = true) := by
    rintro ⟨s, m⟩ aside ⟨between, writes⟩
    cases aside between
    cases writes
  constructor
  · intro order
    refine (List.pairwise_append.mp (List.pairwise_append.mp order).1).2.1.imp_of_mem ?_
    intro p q pMember qMember apart receives writes
    exact apart ⟨inside p pMember, receives⟩ ⟨inside q qMember, writes⟩
  · intro order
    refine List.pairwise_append.mpr ⟨List.pairwise_append.mpr ⟨?_, ?_, ?_⟩, ?_, ?_⟩
    · exact List.pairwise_of_forall_mem_list fun p member _ _ receives =>
        (noReceive p (before p member) receives).elim
    · exact order.imp fun apart receives writes => apart receives.2 writes.2
    · exact fun p member _ _ receives => (noReceive p (before p member) receives).elim
    · exact List.pairwise_of_forall_mem_list fun p member _ _ receives =>
        (noReceive p (after p member) receives).elim
    · exact fun _ _ q member _ => noTail q (after q member)

/-- **The pair that the user decodes** is the head at the first read of the call and
the tail at the second. The ring had both at one moment of the call if no tail was
written between the reads after the device had completed a descriptor; and only
then, unless a register has come around meanwhile. -/
theorem read_pair_held {s₀ s t : State} {past : List (State × Label)} {r : ReadResult}
    (ready : RingSetUp s₀) (earlier : Run step s₀ past s)
    (call : Run (callStep a offset) (s, .check) trace (t, .returned r)) (done : r.ret = 4) :
    PairRead trace (userInt r) ∧
      (TailsFirst trace → PairHeld trace (t, .returned r) (userInt r)) ∧
      (Short s t → PairHeld trace (t, .returned r) (userInt r) → TailsFirst trace) := by
  obtain ⟨head, tail, ⟨_, u₂, back, rfl, ⟨front, u₁, mid, rfl, first, readsHead, before, between,
    asideBefore, inside⟩, second, readsTail, after, asideAfter⟩, packed⟩ := stage_of_run call done
  have passed : ∀ u, u ∈ visited (front ++ mid ++ back) (t, .returned r) ↔
      (u ∈ visited front (u₁, .readTail head) ∨ u ∈ visited mid (u₂, .readTail head)) ∨
        u ∈ visited back (t, .returned r) := fun u => by
    rw [after.mem_visited_append, between.mem_visited_append]
  have at₁ := (passed _).mpr (Or.inl (Or.inl (mem_visited_end front (u₁, .readTail head))))
  have at₂ := (passed _).mpr (Or.inl (Or.inr (mem_visited_end mid (u₂, .readTail head))))
  have rings := ringInv_of_call (ready.inv_of_run earlier) call
  obtain ⟨w₁, inv₁⟩ := rings _ at₁
  obtain ⟨w₂, inv₂⟩ := rings _ at₂
  have headFits : head.toNat < 2 ^ 23 := by
    rw [first, inv₁.head]
    exact w₁.head_lt.trans (by decide)
  have tailFits : tail.toNat < 2 ^ 8 := by
    rw [second, inv₂.tail]
    exact w₂.tail_lt.trans (by decide)
  obtain ⟨sameHead, sameTail⟩ := unpack_pack headFits tailFits
  rw [packed, PairHeld, sameHead, sameTail, tailsFirst_iff asideBefore inside asideAfter]
  refine ⟨⟨⟨((u₁, .readHead), .access), ?_, rfl, rfl, sameHead.trans first⟩,
    ⟨((u₂, .readTail head), .access), ?_, ?_, rfl, sameTail.trans second⟩⟩, ?_, ?_⟩
  · exact List.mem_append_left _ (List.mem_append_left _ readsHead)
  · exact List.mem_append_right _ readsTail
  · rw [sameHead]
  · intro order
    obtain ⟨u, there, headThere, tailThere⟩ := between.snapshot separate_callStep order
    exact ⟨u, (passed u).mpr (Or.inl (Or.inr there)), first.trans headThere.symm,
      second.trans tailThere.symm⟩
  · rintro short ⟨u, there, headThere, tailThere⟩
    obtain ⟨w, inv⟩ := rings u there
    have completed := fun v there => advances_completed.le_visited call (u := v) there
    have returned := fun v there => advances_returned.le_visited call (u := v) there
    refine Run.noneAfter_of_snapshot advances_completed advances_returned before between after
      (or_assoc.mp ((passed u).mp there)) ?_ ?_
    · exact inv₁.completed_eq inv (headThere.symm.trans first)
        ⟨(completed _ at₁).1, (completed _ at₁).2.trans_lt short.completed⟩
        ⟨(completed u there).1, (completed u there).2.trans_lt short.completed⟩
    · exact inv₂.returned_eq_of_tail inv (tailThere.symm.trans second)
        ⟨(returned _ at₂).1, (returned _ at₂).2.trans_lt short.returned⟩
        ⟨(returned u there).1, (returned u there).2.trans_lt short.returned⟩

end Call

instance (trace : List ((State × ReadPc) × Move)) (t : State × ReadPc) (v : U32) :
    Decidable (PairHeld trace t v) :=
  inferInstanceAs (Decidable (∃ u ∈ visited trace t, _))

/-- The read of `user.c`, which asks for ten bytes. -/
def userRead : ReadArgs := ⟨false, 10, 4096, by decide⟩

/-- A packet arrives between the reads. -/
theorem read_pair_held_receive :
    ∃ t trace, Run (callStep userRead 0) (.afterProbe, .check) trace
        (t, .returned ⟨4, 10, [0x0F, 0, 0, 0]⟩) ∧
      PairHeld trace (t, .returned ⟨4, 10, [0x0F, 0, 0, 0]⟩) 0x000F := by
  obtain ⟨⟨t, pc⟩, trace, run, returned, order⟩ := Run.of_traced_any (callStep userRead 0)
    (.afterProbe, .check) [.access, .access, .ring (.receive .blank), .access, .access]
    (fun r => r.2.2 = .returned ⟨4, 10, [0x0F, 0, 0, 0]⟩ ∧ TailsFirst r.1) (by decide +kernel)
  cases returned
  exact ⟨t, trace, run, (read_pair_held ⟨rfl, rfl, rfl, rfl, rfl⟩ .refl run rfl).2.1 order⟩

/-- The head is read as 7; then a packet arrives and the worker writes the tail 0,
which is read next. The ring never had the head 7 together with the tail 0. -/
theorem pair_never_held :
    ∃ t trace r, Run (callStep userRead 0) (.afterProbe, .check) trace (t, .returned r) ∧
      r.ret = 4 ∧ userHead (userInt r) = 7 ∧ userTail (userInt r) = 0 ∧
      ¬ PairHeld trace (t, .returned r) (userInt r) := by
  obtain ⟨⟨t, pc⟩, trace, run, returned, never⟩ := Run.of_traced_any (callStep userRead 0)
    (.afterProbe, .check)
    (List.replicate 7 (.ring (.receive .blank)) ++ .ring .interrupt ::
      List.replicate 8 (.ring .irqStep) ++ .ring .dispatch :: List.replicate 10 (.ring .workStep) ++
      [.access, .access, .ring (.receive .blank), .ring .workStep, .access, .access])
    (fun r => r.2.2 = .returned ⟨4, 10, [0, 7, 0, 0]⟩ ∧ ¬ PairHeld r.1 r.2 0x0700)
    (by decide +kernel)
  cases returned
  exact ⟨t, trace, _, run, rfl, by decide, by decide, never⟩

end BlinkDriver.Hw6
