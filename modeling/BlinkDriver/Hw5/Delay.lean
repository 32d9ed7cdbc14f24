import BlinkDriver.Hw5.Sequential

/-!
# The delay of the timer

`mod_timer` is given half of `blink_rate` seconds in milliseconds, computed as
`(blink_rate * 1000) / 2` in 32 bits. A rate of zero gives no delay at all, a
negative one and one of 2147484 or more something else: the first two come in
through the parameter or a write, the last also passes the tests of a write.

`delays_exact_iff` says that the rate in force is the `int` accepted last, and
that in a run every delay is exact if and only if that `int` lies between 1 and
2147483 whenever the timer is armed.
-/

namespace BlinkDriver.Hw5

open CharDev Transition

/-- What `mod_timer` is given in a step that arms the timer. -/
def delayGiven (g : Globals) : Event → Option (BitVec 32)
  | .openFile => if g.openTracker = 0 then (openCall g).timer.armed else none
  | .expire => (callbackCall g).timer.armed
  | _ => none

/-- The `int` accepted last: the parameter, what has been stored to it since, or
the `int` of the last write that succeeded. -/
def accepted (_ : Globals) (e : Event) (rate : BitVec 32) : BitVec 32 :=
  match e with
  | .setParam blinkRate => blinkRate
  | .write a =>
      if a.buf.null = false ∧ a.memory = true ∧ a.buf.len ≤ a.reach ∧
          0 ≤ (readInt (copyFromUser (List.replicate 4 0) a.image)).toInt then
        readInt (copyFromUser (List.replicate 4 0) a.image)
      else rate
  | _ => rate

/-- The product does not overflow, its half is not negative before it is
converted, and the delay is 500 milliseconds for each second, and not zero. -/
structure Exact (rate delay : BitVec 32) : Prop where
  product : -2 ^ 31 ≤ rate.toInt * 1000 ∧ rate.toInt * 1000 < 2 ^ 31
  nonneg : 0 ≤ delay.toInt
  exact : (delay.toNat : Int) = 500 * rate.toInt
  positive : 0 < delay.toNat

/-- The rates whose half-period fits. -/
def InRange (rate : BitVec 32) : Prop := 1 ≤ rate.toInt ∧ rate.toInt ≤ 2147483

/-! ## The computation -/

theorem toInt_halfPeriod {rate : BitVec 32} (inRange : InRange rate) :
    (halfPeriod rate).toInt = 500 * rate.toInt := by
  obtain ⟨low, high⟩ := inRange
  have thousand : (1000 : BitVec 32).toInt = 1000 := by decide
  have two : (2 : BitVec 32).toInt = 2 := by decide
  have product : (rate * 1000).toInt = rate.toInt * 1000 := by
    rw [BitVec.toInt_mul, thousand]
    exact Int.bmod_eq_of_le (by omega) (by omega)
  rw [halfPeriod, BitVec.toInt_sdiv, product, two, Int.tdiv_eq_ediv_of_nonneg (by omega)]
  have half : rate.toInt * 1000 / 2 = 500 * rate.toInt := by omega
  rw [half]
  exact Int.bmod_eq_of_le (by omega) (by omega)

/-- The half-period is exact for the rates in range and no others. -/
theorem exact_halfPeriod_iff (rate : BitVec 32) : Exact rate (halfPeriod rate) ↔ InRange rate := by
  constructor
  · rintro ⟨product, -, exact, positive⟩
    exact ⟨by omega, by omega⟩
  · intro inRange
    have value := toInt_halfPeriod inRange
    obtain ⟨low, high⟩ := inRange
    have unsigned := BitVec.toInt_eq_toNat_cond (halfPeriod rate)
    have bound := (halfPeriod rate).isLt
    have whole : ((halfPeriod rate).toNat : Int) = 500 * rate.toInt := by
      split at unsigned <;> omega
    exact ⟨⟨by omega, by omega⟩, by omega, whole, by omega⟩

/-! ## The rate in force -/

/-- A write commits its `int` exactly if it is accepted. -/
theorem writeCall_blinkRate (a : WriteArgs) (g : Globals) :
    (writeCall mydevFops.accept a g).1.rate.blinkRate = accepted g (.write a) g.rate.blinkRate := by
  rw [writeCall_fst]
  simp only [accepted, writeCall]
  generalize readInt (copyFromUser (List.replicate 4 0) a.image) = v
  by_cases null : a.buf.null = true
  · simp [null]
  by_cases memory : a.memory = true
  · by_cases faults : a.reach < a.buf.len
    · simp [null, memory, faults, not_le.mpr faults]
    · have whole : a.buf.len ≤ a.reach := not_lt.mp faults
      by_cases negative : v.toInt < 0
      · simp [null, memory, faults, Rate.accept_eq, negative, not_le.mpr negative]
      · simp [null, memory, faults, whole, Rate.accept_eq, negative, not_lt.mp negative]
  · simp [null, memory]

/-- `blink_rate` changes by an acceptance only. -/
theorem callStep_blinkRate {g g' : Globals} {e : Event} (edge : callStep g e = some g') :
    g'.rate.blinkRate = accepted g e g.rate.blinkRate := by
  cases e with
  | setParam blinkRate => cases edge; rfl
  | openFile =>
      cases edge
      unfold openCall
      dsimp only
      split <;> rfl
  | read a offset =>
      cases edge
      rw [readCall_fst]
      rfl
  | write a =>
      cases edge
      exact writeCall_blinkRate a g
  | expire =>
      obtain ⟨timer, -, rfl⟩ := Option.map_eq_some_iff.mp edge
      rfl

/-- The timer is armed with the half-period of the rate in force. -/
theorem delayGiven_eq {g : Globals} {e : Event} {delay : BitVec 32}
    (given : delayGiven g e = some delay) : delay = halfPeriod g.rate.blinkRate := by
  cases e with
  | openFile =>
      simp only [delayGiven, openCall] at given
      split at given
      · cases given
        rfl
      · cases given
  | expire => cases given; rfl
  | _ => cases given

/-! ## Whole runs -/

/-- The system together with the `int` accepted last. -/
def ratedStep : Globals × BitVec 32 → Event → Option (Globals × BitVec 32) :=
  observe accepted callStep

/-- Every delay is exact for the `int` accepted last. -/
def DelaysExact (trace : List ((Globals × BitVec 32) × Event)) : Prop :=
  Meets (fun s e => ∀ delay ∈ delayGiven s.1 e, Exact s.2 delay) trace

/-- Whenever the timer is armed, the `int` accepted last is in range. -/
def RatesInRange (trace : List ((Globals × BitVec 32) × Event)) : Prop :=
  Meets (fun s e => (delayGiven s.1 e).isSome → InRange s.2) trace

/-- The `int` accepted last is the rate in force. -/
def InForce (s : Globals × BitVec 32) : Prop := s.1.rate.blinkRate = s.2

section Runs

variable {ledctl blinkRate : BitVec 32} {hwAddr : HwAddr} {u : Globals × BitVec 32}
  {trace : List ((Globals × BitVec 32) × Event)}

theorem InForce.step {s t : Globals × BitVec 32} {e : Event} (inForce : InForce s)
    (edge : ratedStep s e = some t) : InForce t := by
  obtain ⟨g, made, rfl⟩ := Option.map_eq_some_iff.mp edge
  have changed := callStep_blinkRate made
  rw [inForce] at changed
  exact changed

theorem inForce_of_run (run : Run ratedStep (.started ledctl blinkRate hwAddr, blinkRate) trace u) :
    ∀ s ∈ visited trace u, InForce s :=
  run.invariant_visited (fun _ _ _ inForce _ edge => InForce.step inForce edge) run.meets_true rfl

/-- With the rate in force, a step's delay is exact if the rate is in range. -/
theorem InForce.exact_iff {s : Globals × BitVec 32} {e : Event} (inForce : InForce s) :
    (∀ delay ∈ delayGiven s.1 e, Exact s.2 delay) ↔
      ((delayGiven s.1 e).isSome → InRange s.2) := by
  have value : ∀ delay ∈ delayGiven s.1 e, delay = halfPeriod s.2 := by
    intro delay given
    rw [← inForce]
    exact delayGiven_eq given
  constructor
  · intro exact arms
    obtain ⟨delay, given⟩ := Option.isSome_iff_exists.mp arms
    have whole := exact delay given
    rw [value delay given] at whole
    exact (exact_halfPeriod_iff s.2).mp whole
  · intro inRange delay given
    rw [value delay given]
    exact (exact_halfPeriod_iff s.2).mpr (inRange (Option.isSome_iff_exists.mpr ⟨delay, given⟩))

theorem delaysExact_iff
    (run : Run ratedStep (.started ledctl blinkRate hwAddr, blinkRate) trace u) :
    DelaysExact trace ↔ RatesInRange trace :=
  run.meets_iff (fun _ _ inForce => inForce.exact_iff)
    (fun _ _ _ inForce _ edge => InForce.step inForce edge) rfl

/-- **The delay is exact from 1 to 2147483.** In every run over stores to the
parameter, opens, reads, writes and expiries, the rate in force is the `int`
accepted last; and every `mod_timer` is given exactly 500 milliseconds for each
second of it, computed without an overflow and not zero, if and only if that
`int` lies between 1 and 2147483 whenever the timer is armed. -/
theorem delays_exact_iff
    (run : Run ratedStep (.started ledctl blinkRate hwAddr, blinkRate) trace u) :
    InForce u ∧ (DelaysExact trace ↔ RatesInRange trace) :=
  ⟨inForce_of_run run u (mem_visited_end trace u), delaysExact_iff run⟩

end Runs

instance (rate : BitVec 32) : Decidable (InRange rate) := inferInstanceAs (Decidable (_ ∧ _))

instance (trace : List ((Globals × BitVec 32) × Event)) : Decidable (RatesInRange trace) :=
  inferInstanceAs (Decidable (Meets _ trace))

/-- A write of the given four bytes that succeeds. -/
def written (bytes : List LittleEndian.Byte) (bounded : bytes.length < 2 ^ 31) : Event :=
  .write ⟨⟨bytes, false, bounded⟩, true, 4⟩

/-- The timer is armed with rates of 2 and, after a write, 5. -/
theorem delays_exact_after_write :
    ∃ u trace, Run ratedStep (.started 0 2 .mapped, 2) trace u ∧
      u.1.timer.armed = some 2500 ∧ DelaysExact trace := by
  obtain ⟨u, trace, run, armed, inRange⟩ := Run.of_traced_any ratedStep (.started 0 2 .mapped, 2)
    [.openFile, .expire, written [5, 0, 0, 0] (by decide), .expire]
    (fun r => r.2.1.timer.armed = some 2500 ∧ RatesInRange r.1) (by decide +kernel)
  exact ⟨u, trace, run, armed, (delays_exact_iff run).2.mpr inRange⟩

/-- A rate out of range when the timer is armed. -/
theorem delay_wrong {rate delay : BitVec 32} (events : List Event)
    (checked : (traced ratedStep (.started 0 rate .mapped, rate) events).any
      (fun r => decide (¬ RatesInRange r.1 ∧ r.2.1.timer.armed = some delay)) = true) :
    ∃ u trace, Run ratedStep (.started 0 rate .mapped, rate) trace u ∧ ¬ DelaysExact trace ∧
      u.1.timer.armed = some delay := by
  obtain ⟨u, trace, run, outside, armed⟩ := Run.of_traced_any ratedStep _ events _ checked
  exact ⟨u, trace, run, fun exact => outside ((delaysExact_iff run).mp exact), armed⟩

/-- The delay is wrong for a parameter of -1, for a 0 that a write has committed,
and for a 2147484 that has passed the tests of a write. -/
theorem delays_wrong :
    (∃ u trace, Run ratedStep (.started 0 (-1) .mapped, -1) trace u ∧
      ¬ DelaysExact trace ∧ u.1.timer.armed = some (-500)) ∧
    (∃ u trace, Run ratedStep (.started 0 2 .mapped, 2) trace u ∧
      ¬ DelaysExact trace ∧ u.1.timer.armed = some 0) ∧
    ∃ u trace, Run ratedStep (.started 0 2 .mapped, 2) trace u ∧
      ¬ DelaysExact trace ∧ u.1.timer.armed = some (-1073741648) :=
  ⟨delay_wrong [.openFile] (by decide +kernel),
    delay_wrong [written [0, 0, 0, 0] (by decide), .openFile] (by decide +kernel),
    delay_wrong [written [0x9C, 0xC4, 0x20, 0] (by decide), .openFile] (by decide +kernel)⟩

end BlinkDriver.Hw5
