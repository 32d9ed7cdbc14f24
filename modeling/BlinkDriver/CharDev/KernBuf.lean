import BlinkDriver.Hw6.ReadCall

/-!
# The kernel buffer of a write

`example5_write` of HW3, HW5 and HW6 allocates a buffer and frees it on every way
out but one: the branch that returns -1 for a value beyond 2^32 does not.
`Staging.Confined` says that a write whose globals are in range never takes that
branch and leaves them in range, `WriteCalls.managed` carries this through every
interleaving of opens, reads and writes, and `never_leaks` states it for the three
modules.
-/

namespace BlinkDriver.CharDev

open Transition Interleaving

/-- Between the least `int` and the greatest `unsigned int`. -/
def Within (v : Int) : Prop := -2 ^ 31 ≤ v ∧ v ≤ 2 ^ 32 - 1

theorem Within.signExtend (v : BitVec 32) : Within (v.signExtend 64).toInt := by
  have value : (v.signExtend 64).toInt = v.toInt := BitVec.toInt_signExtend_of_le (by decide)
  have fits := v.toInt_lt
  have least := v.le_toInt
  rw [Within, value]
  omega

theorem Within.setWidth (v : BitVec 32) : Within (v.setWidth 64).toInt := by
  have value : (v.setWidth 64).toInt = v.toNat := by
    rw [BitVec.toInt_eq_toNat_of_lt, BitVec.toNat_setWidth_of_le (by decide)]
    rw [BitVec.toNat_setWidth_of_le (by decide)]
    omega
  have fits := v.isLt
  rw [Within, value]
  omega

theorem Within.toInt (v : BitVec 32) : Within v.toInt := by
  have fits := v.toInt_lt
  have least := v.le_toInt
  rw [Within]
  omega

theorem Within.zero : Within (0 : BitVec 64).toInt := ⟨by decide, by decide⟩

/-- The first test of the overflow branch fails. -/
theorem Within.not_low {v : Int} (within : Within v) : ¬ v < -4294967296 := by
  have least := within.1
  omega

/-- The second test of the overflow branch fails. -/
theorem Within.not_high {v : Int} (within : Within v) : ¬ v > 4294967296 := by
  have greatest := within.2
  omega

/-! ## One write call -/

variable {δ τ : Type}

/-- The call has a buffer at this program point. -/
def WritePc.holds : WritePc τ → Bool
  | .checkBuf | .alloc | .returned => false
  | .copy | .body _ | .load | .store _ | .memOut => true

/-- How many accesses a call has to go at most, if `rank` counts those of the body. -/
def WritePc.toGo (rank : τ → Nat) (first : τ) : WritePc τ → Nat
  | .checkBuf => rank first + 7
  | .alloc => rank first + 6
  | .copy => rank first + 5
  | .body p => rank p + 4
  | .load => 3
  | .store _ => 2
  | .memOut => 1
  | .returned => 0

/-- From globals in range, and with the loaded values in range that the program
points of the body carry, no access of the body leaves the call without freeing the
buffer, nor the globals or a loaded value out of range. -/
structure Staging.Confined (d : Staging δ τ) (InRange : δ → Prop) (Fits : τ → Prop)
    (rank : τ → Nat) : Prop where
  first : Fits d.first
  globals : ∀ p g k, InRange g → Fits p → InRange (d.body p g k).1
  handOn : ∀ v g, InRange g → InRange (d.handOn v g)
  obtained : ∀ p g k, (d.body p g k).2.obtained = k.obtained
  freed : ∀ p g k, (d.body p g k).2.freed = k.freed
  next : ∀ p g k, InRange g → Fits p →
    (d.body p g k).2.pc = .memOut ∨ (d.body p g k).2.pc = .load ∨
      ∃ p', (d.body p g k).2.pc = .body p' ∧ Fits p' ∧ rank p' < rank p

/-- The call has the buffer it has obtained until it frees it, once. -/
structure Managed (Fits : τ → Prop) (k : Write τ) : Prop where
  running : k.pc ≠ .returned → k.obtained = k.pc.holds ∧ k.freed = 0
  returned : k.pc = .returned → k.freed = k.obtained.toNat
  fits : ∀ p, k.pc = .body p → Fits p

variable {d : Staging δ τ} {InRange : δ → Prop} {Fits : τ → Prop} {rank : τ → Nat}

theorem Managed.entered (buf : UserBuffer) : Managed Fits (.entered τ buf) :=
  ⟨fun _ => ⟨rfl, rfl⟩, nofun, nofun⟩

/-- A call that has moved on and has not yet returned. -/
theorem Managed.under {k : Write τ} (obtained : k.obtained = k.pc.holds) (freed : k.freed = 0)
    (under : k.pc ≠ .returned) (fits : ∀ p, k.pc = .body p → Fits p) : Managed Fits k :=
  ⟨fun _ => ⟨obtained, freed⟩, fun pc => (under pc).elim, fits⟩

/-- One access keeps the globals in range and the buffer in hand. -/
theorem Managed.step (confined : d.Confined InRange Fits rank) {g g' : δ} {k k' : Write τ}
    (inRange : InRange g) (managed : Managed Fits k) (access : WriteStep d g k g' k') :
    InRange g' ∧ Managed Fits k' := by
  have before : ∀ {pc : WritePc τ}, k.pc = pc → pc ≠ .returned →
      k.obtained = pc.holds ∧ k.freed = 0 :=
    fun same other => same ▸ managed.running (same ▸ other)
  cases access with
  | badBuf pc | noMemory pc =>
      obtain ⟨obtained, freed⟩ := before pc nofun
      refine ⟨inRange, nofun, fun _ => ?_, nofun⟩
      change k.freed = k.obtained.toNat
      rw [freed, obtained]
      rfl
  | goodBuf pc | fault pc | load pc =>
      obtain ⟨obtained, freed⟩ := before pc nofun
      exact ⟨inRange, .under obtained freed nofun nofun⟩
  | alloc pc => exact ⟨inRange, .under rfl (before pc nofun).2 nofun nofun⟩
  | copy pc =>
      obtain ⟨obtained, freed⟩ := before pc nofun
      refine ⟨inRange, .under obtained freed nofun fun p same => ?_⟩
      cases same
      exact confined.first
  | @body p pc =>
      have fits := managed.fits p pc
      obtain ⟨obtained, freed⟩ := before pc nofun
      refine ⟨confined.globals p g k inRange fits, ?_⟩
      have kept := (confined.obtained p g k).trans obtained
      have unfreed := (confined.freed p g k).trans freed
      rcases confined.next p g k inRange fits with target | target | ⟨p', target, fits', -⟩
      · exact .under (by rw [kept, target]; rfl) unfreed (by simp [target]) (by simp [target])
      · exact .under (by rw [kept, target]; rfl) unfreed (by simp [target]) (by simp [target])
      · refine .under (by rw [kept, target]; rfl) unfreed (by simp [target]) fun q same => ?_
        cases target.symm.trans same
        exact fits'
  | store pc =>
      obtain ⟨obtained, freed⟩ := before pc nofun
      exact ⟨confined.handOn _ g inRange, .under obtained freed nofun nofun⟩
  | free pc =>
      obtain ⟨obtained, freed⟩ := before pc nofun
      refine ⟨inRange, nofun, fun _ => ?_, nofun⟩
      change k.freed + 1 = k.obtained.toNat
      rw [freed, obtained]
      rfl

/-- A call that has not returned can make its next access, whether that succeeds or
not, and comes nearer to its return. -/
theorem Managed.proceeds (confined : d.Confined InRange Fits rank) {g : δ} {k : Write τ}
    (inRange : InRange g) (managed : Managed Fits k) (under : k.pc ≠ .returned) (ok : Bool) :
    ∃ g' k', exampleWrite d ok g k = some (g', k') ∧
      k'.pc.toGo rank d.first < k.pc.toGo rank d.first := by
  cases pc : k.pc with
  | checkBuf =>
      rw [exampleWrite, pc]
      dsimp only
      split
      · exact ⟨_, _, rfl, Nat.succ_pos _⟩
      · exact ⟨_, _, rfl, Nat.lt_succ_self _⟩
  | alloc =>
      rw [exampleWrite, pc]
      cases ok with
      | true => exact ⟨_, _, rfl, Nat.lt_succ_self _⟩
      | false => exact ⟨_, _, rfl, Nat.succ_pos _⟩
  | copy =>
      rw [exampleWrite, pc]
      cases ok with
      | true => exact ⟨_, _, rfl, Nat.lt_succ_self _⟩
      | false => exact ⟨_, _, rfl, Nat.succ_lt_succ (Nat.succ_pos _)⟩
  | body p =>
      rw [exampleWrite, pc]
      refine ⟨_, _, rfl, ?_⟩
      rcases confined.next p g k inRange (managed.fits p pc) with
        target | target | ⟨p', target, -, less⟩
      · rw [target]
        exact Nat.succ_lt_succ (Nat.succ_pos _)
      · rw [target]
        exact Nat.lt_of_lt_of_le (Nat.lt_succ_self 3) (Nat.le_add_left ..)
      · rw [target]
        exact Nat.add_lt_add_right less 4
  | load | store v | memOut =>
      rw [exampleWrite, pc]
      exact ⟨_, _, rfl, Nat.lt_succ_self _⟩
  | returned => exact (under pc).elim

/-! ## Programs with write calls on a part of their globals -/

variable {γ κ α ε : Type} {p : Program γ κ α Bool ε}

/-- The write calls of a program, which act on the part `view` of the globals. No
other call becomes one. -/
structure WriteCalls (p : Program γ κ α Bool ε) (d : Staging δ τ) where
  view : γ → δ
  put : γ → δ → γ
  call : Write τ → κ
  view_put : ∀ g x, view (put g x) = x
  call_inj : ∀ k k', call k = call k' → k = k'
  start : ∀ arg k, p.start arg = call k → ∃ buf, k = .entered τ buf
  move_call : ∀ ok g k, p.move ok g (call k) =
    (exampleWrite d ok (view g) k).map fun next => (put g next.1, call next.2)
  move_other : ∀ ok g c g' c', (∀ k, c ≠ call k) → p.move ok g c = some (g', c') →
    ∀ k, c' ≠ call k

/-- Neither the other calls nor the surroundings take the globals out of range. -/
structure WriteCalls.Spares (w : WriteCalls p d) (InRange : δ → Prop) : Prop where
  others : ∀ ok g c g' c', (∀ k, c ≠ w.call k) → p.move ok g c = some (g', c') →
    InRange (w.view g) → InRange (w.view g')
  env : ∀ e g, InRange (w.view g) → InRange (w.view (p.env e g))

/-- A write is given at most four bytes, as many as its buffer has room for. -/
def WriteCalls.Short (w : WriteCalls p d) (arg : α) : Prop :=
  ∀ k, p.start arg = w.call k → k.buf.len ≤ 4

/-- A write call has freed the buffer it obtained exactly once when it returns, and
nothing if it obtained none; it is not about to leave by the branch that forgets the
buffer; and it can go on until it returns. -/
structure Tidy (w : WriteCalls p d) (rank : τ → Nat) (g : γ) (k : Write τ) : Prop where
  obtained : k.obtained = true → k.pc = .returned → k.freed = 1
  nothing : k.obtained = false → k.freed = 0
  once : k.freed ≤ 1
  overflow : ∀ point, k.pc = .body point → (d.body point (w.view g) k).2.pc ≠ .returned
  proceeds : k.pc ≠ .returned → ∀ ok, ∃ g' k', p.move ok g (w.call k) = some (g', w.call k') ∧
    k'.pc.toGo rank d.first < k.pc.toGo rank d.first

/-- In every run of opens, reads and writes of up to four bytes the globals stay in
range, and no write call leaks its buffer. -/
def NeverLeaks (w : WriteCalls p d) (InRange : δ → Prop) (rank : τ → Nat) (g : γ) : Prop :=
  ∀ t trace, Run (p.limit w.Short).step (.idle g) trace t →
    InRange (w.view t.globals) ∧ ∀ i k, t.calls i = some (w.call k) → Tidy w rank t.globals k

namespace WriteCalls

/-- What holds of the globals and of the write calls however the calls interleave. -/
theorem managed (w : WriteCalls p d) (confined : d.Confined InRange Fits rank)
    (spares : w.Spares InRange) {g : γ} (first : InRange (w.view g)) {t : State γ κ}
    {trace : List (State γ κ × Label α Bool ε)} (run : Run p.step (.idle g) trace t) :
    Program.Keeps (fun g => InRange (w.view g))
      (fun c => ∀ k, c = w.call k → Managed Fits k) t := by
  refine Program.invariant ?_ ?_ spares.env run run.meets_true (.idle first)
  · intro arg k started
    obtain ⟨buf, rfl⟩ := w.start arg k started
    exact .entered buf
  · intro s i ok c g' c' _ _ inRange managed moved
    by_cases writing : ∃ k, c = w.call k
    · obtain ⟨k, rfl⟩ := writing
      rw [w.move_call] at moved
      obtain ⟨⟨x, k'⟩, access, same⟩ := Option.map_eq_some_iff.mp moved
      cases same
      obtain ⟨globals, kept⟩ :=
        (managed k rfl).step confined inRange (.of_exampleWrite access)
      refine ⟨by rw [w.view_put]; exact globals, fun k₁ same => ?_⟩
      rw [← w.call_inj _ _ same]
      exact kept
    · have other : ∀ k, c ≠ w.call k := fun k same => writing ⟨k, same⟩
      refine ⟨spares.others ok s.globals c g' c' other moved inRange, fun k same => ?_⟩
      exact (w.move_other ok s.globals c g' c' other moved k same).elim

/-- A managed call is a tidy one. -/
theorem tidy (w : WriteCalls p d) (confined : d.Confined InRange Fits rank) {g : γ}
    (inRange : InRange (w.view g)) {k : Write τ} (managed : Managed Fits k) :
    Tidy w rank g k where
  obtained had pc := by rw [managed.returned pc, had]; rfl
  nothing none := by
    by_cases pc : k.pc = .returned
    · rw [managed.returned pc, none]
      rfl
    · exact (managed.running pc).2
  once := by
    by_cases pc : k.pc = .returned
    · rw [managed.returned pc]
      exact Bool.toNat_le _
    · rw [(managed.running pc).2]
      exact Nat.zero_le _
  overflow point pc returned := by
    rcases confined.next point (w.view g) k inRange (managed.fits point pc) with
      target | target | ⟨_, target, -⟩
    · cases target.symm.trans returned
    · cases target.symm.trans returned
    · cases target.symm.trans returned
  proceeds under ok := by
    obtain ⟨x, k', access, nearer⟩ := managed.proceeds confined inRange under ok
    exact ⟨w.put g x, k', by rw [w.move_call, access]; rfl, nearer⟩

theorem neverLeaks (w : WriteCalls p d) (confined : d.Confined InRange Fits rank)
    (spares : w.Spares InRange) {g : γ} (first : InRange (w.view g)) :
    NeverLeaks w InRange rank g := by
  intro t trace run
  obtain ⟨_, run⟩ := Program.run_of_limit run
  have kept := w.managed confined spares first run
  exact ⟨kept.globals, fun i k slot => w.tidy confined kept.globals (kept.calls i _ slot k rfl)⟩

end WriteCalls

end BlinkDriver.CharDev

/-! ## HW3 -/

namespace BlinkDriver.Hw3

open CharDev

/-- What any call stores in the two globals. -/
structure Led.InRange (g : Led) : Prop where
  syscallVal : Within g.syscallVal.toInt
  ledCurrentVal : Within g.ledCurrentVal.toInt

/-- The value that is on its way from `led_current_val` to `syscall_val`. -/
def LedPc.Fits : LedPc → Prop
  | .storeVal v => Within v.toInt
  | .assign | .loadVal | .testLow | .testHigh => True

/-- How many accesses come before the last test. -/
def LedPc.rank : LedPc → Nat
  | .assign => 4
  | .loadVal => 3
  | .storeVal _ => 2
  | .testLow => 1
  | .testHigh => 0

/-- No access of the body obtains or frees a buffer. -/
theorem checkLed_buffer (pc : LedPc) (g : Led) (k : Write LedPc) :
    (checkLed pc g k).2.obtained = k.obtained ∧ (checkLed pc g k).2.freed = k.freed := by
  cases pc with
  | assign | loadVal | storeVal v => exact ⟨rfl, rfl⟩
  | testLow | testHigh =>
      rw [checkLed]
      split <;> exact ⟨rfl, rfl⟩

theorem ledStaging_confined : ledStaging.Confined Led.InRange LedPc.Fits LedPc.rank where
  first := trivial
  globals pc g k inRange fits := by
    cases pc with
    | assign => exact ⟨inRange.syscallVal, .signExtend _⟩
    | loadVal => exact inRange
    | storeVal v => exact ⟨fits, inRange.ledCurrentVal⟩
    | testLow | testHigh =>
        simp only [ledStaging, checkLed]
        split <;> exact inRange
  handOn v g inRange := ⟨inRange.syscallVal, inRange.ledCurrentVal⟩
  obtained pc g k := (checkLed_buffer pc g k).1
  freed pc g k := (checkLed_buffer pc g k).2
  next pc g k inRange fits := by
    have low := inRange.syscallVal.not_low
    have high := inRange.syscallVal.not_high
    cases pc with
    | assign => exact Or.inr (Or.inr ⟨.loadVal, rfl, trivial, Nat.lt_succ_self _⟩)
    | loadVal =>
        have fits := inRange.ledCurrentVal
        exact Or.inr (Or.inr ⟨.storeVal g.ledCurrentVal, rfl, fits, Nat.lt_succ_self _⟩)
    | storeVal v => exact Or.inr (Or.inr ⟨.testLow, rfl, trivial, Nat.lt_succ_self _⟩)
    | testLow =>
        have target : (checkLed .testLow g k).2.pc = .body .testHigh := by rw [checkLed, if_neg low]
        exact Or.inr (Or.inr ⟨.testHigh, target, trivial, Nat.lt_succ_self _⟩)
    | testHigh =>
        have target : (checkLed .testHigh g k).2.pc = .load := by rw [checkLed, if_neg high]
        exact Or.inr (Or.inl target)

/-- The write calls of HW3. -/
def writeCalls : WriteCalls program ledStaging where
  view := id
  put _ g := g
  call := .writing
  view_put _ _ := rfl
  call_inj _ _ same := Call.writing.inj same
  start request k started := by
    cases request with
    | write buf => exact ⟨buf, (Call.writing.inj started).symm⟩
    | _ => cases started
  move_call _ _ _ := rfl
  move_other ok g c g' c' other moved k same := by
    cases c with
    | writing k => exact other k rfl
    | opening returned | reading k =>
        obtain ⟨_, -, made⟩ := Option.map_eq_some_iff.mp moved
        rw [same] at made
        cases made

theorem example5Open_inRange {g g' : Led} {returned returned' : Bool} (inRange : g.InRange)
    (moved : example5Open g returned = some (g', returned')) : g'.InRange := by
  cases returned with
  | true => cases moved
  | false =>
      cases moved
      have forty : Within (40 : BitVec 64).toInt := ⟨by decide, by decide⟩
      exact ⟨forty, inRange.ledCurrentVal⟩

theorem example5Read_inRange {ok : Bool} {g g' : Led} {k k' : Read} (inRange : g.InRange)
    (moved : example5Read ok g k = some (g', k')) : g'.InRange := by
  unfold example5Read at moved
  split at moved
  case h_1 | h_2 | h_5 => split at moved <;> cases moved <;> exact inRange
  case h_3 => cases moved; exact inRange
  case h_4 v pc =>
      cases moved
      exact ⟨inRange.syscallVal, .setWidth v⟩
  case h_6 => cases moved

theorem writeCalls_spares : writeCalls.Spares Led.InRange where
  others ok g c g' c' other moved inRange := by
    cases c with
    | writing k => exact (other k rfl).elim
    | opening returned =>
        obtain ⟨_, opened, same⟩ := Option.map_eq_some_iff.mp moved
        cases same
        exact example5Open_inRange inRange opened
    | reading k =>
        obtain ⟨_, read, same⟩ := Option.map_eq_some_iff.mp moved
        cases same
        exact example5Read_inRange inRange read
  env _ _ inRange := ⟨inRange.syscallVal, inRange.ledCurrentVal⟩

end BlinkDriver.Hw3

/-! ## HW5 and HW6 -/

namespace BlinkDriver.CharDev

/-- What any call stores in the two globals. -/
structure Rate.InRange (g : Rate) : Prop where
  syscallVal : Within g.syscallVal.toInt
  blinkRate : Within g.blinkRate.toInt

/-- How many accesses come before the last test. -/
def RatePc.rank : RatePc → Nat
  | .assign => 3
  | .testLow => 2
  | .testHigh => 1
  | .testSign => 0

theorem checkRate_buffer (pc : RatePc) (g : Rate) (k : Write RatePc) :
    (checkRate pc g k).2.obtained = k.obtained ∧ (checkRate pc g k).2.freed = k.freed := by
  cases pc with
  | assign => exact ⟨rfl, rfl⟩
  | testLow | testHigh | testSign =>
      rw [checkRate]
      split <;> exact ⟨rfl, rfl⟩

theorem rateStaging_confined :
    rateStaging.Confined Rate.InRange (fun _ => True) RatePc.rank where
  first := trivial
  globals pc g k inRange _ := by
    cases pc with
    | assign => exact ⟨.signExtend _, inRange.blinkRate⟩
    | testLow | testHigh | testSign =>
        simp only [rateStaging, checkRate]
        split <;> exact inRange
  handOn v g inRange := ⟨inRange.syscallVal, .toInt v⟩
  obtained pc g k := (checkRate_buffer pc g k).1
  freed pc g k := (checkRate_buffer pc g k).2
  next pc g k inRange _ := by
    have low := inRange.syscallVal.not_low
    have high := inRange.syscallVal.not_high
    cases pc with
    | assign => exact Or.inr (Or.inr ⟨.testLow, rfl, trivial, Nat.lt_succ_self _⟩)
    | testLow =>
        have target : (checkRate .testLow g k).2.pc = .body .testHigh := by
          rw [checkRate, if_neg low]
        exact Or.inr (Or.inr ⟨.testHigh, target, trivial, Nat.lt_succ_self _⟩)
    | testHigh =>
        have target : (checkRate .testHigh g k).2.pc = .body .testSign := by
          rw [checkRate, if_neg high]
        exact Or.inr (Or.inr ⟨.testSign, target, trivial, Nat.lt_succ_self _⟩)
    | testSign =>
        simp only [rateStaging, checkRate]
        split
        · exact Or.inl rfl
        · exact Or.inr (Or.inl rfl)

end BlinkDriver.CharDev

namespace BlinkDriver.Hw5

open CharDev Interleaving

/-- The calls of HW5. Everything but `syscall_val` may be changed by others: the rest
of the module and stores to the parameter. -/
def program : Program Globals Call Request Bool Globals where
  start := Request.call
  move ok g c := c.move ok g
  env e g := { e with rate := { e.rate with syscallVal := g.rate.syscallVal } }

/-- The write calls of HW5. -/
def writeCalls : WriteCalls program rateStaging where
  view := Globals.rate
  put g rate := { g with rate }
  call := .writing
  view_put _ _ := rfl
  call_inj _ _ same := Call.writing.inj same
  start request k started := by
    cases request with
    | write buf => exact ⟨buf, (Call.writing.inj started).symm⟩
    | _ => cases started
  move_call _ _ _ := rfl
  move_other ok g c g' c' other moved k same := by
    cases c with
    | writing k => exact other k rfl
    | closed => cases moved
    | opening pc | reading k =>
        obtain ⟨_, -, made⟩ := Option.map_eq_some_iff.mp moved
        rw [same] at made
        cases made

theorem stage_inRange {g g' : Rate} {pc pc' : CharDev.OpenPc} (inRange : g.InRange)
    (moved : CharDev.Hw5.example5Open g pc = some (g', pc')) : g'.InRange := by
  cases pc with
  | loadRate => cases moved; exact inRange
  | storeVal v =>
      cases moved
      exact ⟨.signExtend v, inRange.blinkRate⟩
  | returned => cases moved

theorem example5Open_inRange {g g' : Globals} {pc pc' : OpenPc} (inRange : g.rate.InRange)
    (moved : example5Open g pc = some (g', pc')) : g'.rate.InRange := by
  cases pc with
  | stage pc =>
      obtain ⟨_, staged, same⟩ := Option.map_eq_some_iff.mp moved
      cases same
      exact stage_inRange inRange staged
  | clearLed | testTracker | setup | arm | setTracker => cases moved; exact inRange
  | returned => cases moved

theorem writeCalls_spares : writeCalls.Spares Rate.InRange where
  others ok g c g' c' other moved inRange := by
    cases c with
    | writing k => exact (other k rfl).elim
    | closed => cases moved
    | opening pc =>
        obtain ⟨_, opened, same⟩ := Option.map_eq_some_iff.mp moved
        cases same
        exact example5Open_inRange inRange opened
    | reading k =>
        obtain ⟨_, -, same⟩ := Option.map_eq_some_iff.mp moved
        cases same
        exact inRange
  env e _ inRange := ⟨inRange.syscallVal, .toInt e.rate.blinkRate⟩

end BlinkDriver.Hw5

namespace BlinkDriver.Hw6

open CharDev Interleaving

/-- A call of HW6 on the device file. An open accesses nothing. -/
inductive FileCall where
  | opening
  | reading (a : ReadArgs) (offset : Nat) (pc : ReadPc)
  | writing (k : Write RatePc)
  deriving DecidableEq

/-- What a process asks for. -/
inductive FileRequest where
  | openFile
  | read (a : ReadArgs) (offset : Nat)
  | write (buf : UserBuffer)

/-- The calls of HW6. Everything but `syscall_val` may be changed by others: the
registers by the device and the rest of the module, and the parameter by a store. -/
def program : Program FileGlobals FileCall FileRequest Bool FileGlobals where
  start
    | .openFile => .opening
    | .read a offset => .reading a offset .check
    | .write buf => .writing (.entered RatePc buf)
  move ok g
    | .opening => none
    | .reading a offset pc => (example5Read a offset g.regs pc).map fun next =>
        ({ g with regs := next.2 }, .reading a offset next.1)
    | .writing k => (CharDev.Hw6.example5Write ok g.rate k).map fun next =>
        ({ g with rate := next.1 }, .writing next.2)
  env e g := { e with rate := { e.rate with syscallVal := g.rate.syscallVal } }

/-- The write calls of HW6. -/
def writeCalls : WriteCalls program rateStaging where
  view := FileGlobals.rate
  put g rate := { g with rate }
  call := .writing
  view_put _ _ := rfl
  call_inj _ _ same := FileCall.writing.inj same
  start request k started := by
    cases request with
    | write buf => exact ⟨buf, (FileCall.writing.inj started).symm⟩
    | _ => cases started
  move_call _ _ _ := rfl
  move_other ok g c g' c' other moved k same := by
    cases c with
    | writing k => exact other k rfl
    | opening => cases moved
    | reading a offset pc =>
        obtain ⟨_, -, made⟩ := Option.map_eq_some_iff.mp moved
        rw [same] at made
        cases made

theorem writeCalls_spares : writeCalls.Spares Rate.InRange where
  others ok g c g' c' other moved inRange := by
    cases c with
    | writing k => exact (other k rfl).elim
    | opening => cases moved
    | reading a offset pc =>
        obtain ⟨_, -, same⟩ := Option.map_eq_some_iff.mp moved
        cases same
        exact inRange
  env e _ inRange := ⟨inRange.syscallVal, .toInt e.rate.blinkRate⟩

end BlinkDriver.Hw6

namespace BlinkDriver.CharDev

/-- A fresh `syscall_val` is in range, whatever the parameter is. -/
theorem Rate.inRange_zero (blinkRate : BitVec 32) : Rate.InRange ⟨0, blinkRate⟩ where
  syscallVal := .zero
  blinkRate := .toInt blinkRate

/-- **No write leaks its buffer**, in HW3, HW5 and HW6, however opens, reads and
writes interleave, with any contents of `LEDCTL` and any parameter: what is stored in
the globals stays between the least `int` and the greatest `unsigned int`, so that
the branch that returns -1 without `kfree` is not reached. -/
theorem never_leaks (ledctl blinkRate : BitVec 32) (g : Hw5.Globals) (regs : Hw6.Regs) :
    NeverLeaks Hw3.writeCalls Hw3.Led.InRange Hw3.LedPc.rank ⟨0, 0, ledctl⟩ ∧
      NeverLeaks Hw5.writeCalls Rate.InRange RatePc.rank (g.loaded blinkRate) ∧
      NeverLeaks Hw6.writeCalls Rate.InRange RatePc.rank ⟨regs, 0, blinkRate⟩ :=
  ⟨Hw3.writeCalls.neverLeaks Hw3.ledStaging_confined Hw3.writeCalls_spares
      ⟨.zero, .zero⟩,
    Hw5.writeCalls.neverLeaks rateStaging_confined Hw5.writeCalls_spares
      (Rate.inRange_zero blinkRate),
    Hw6.writeCalls.neverLeaks rateStaging_confined Hw6.writeCalls_spares
      (Rate.inRange_zero blinkRate)⟩

end BlinkDriver.CharDev
