import BlinkDriver.CharDev.Cell
import BlinkDriver.CharDev.Register
import BlinkDriver.Hw5.Blink
import BlinkDriver.Hw5.Delay

/-!
# The statements of HW5 as whole calls

`callStep` takes the calls and the callback of HW5 one after another, `step` statement
by statement. A run of statements is explained by a run of whole calls if the two agree
in what users and the timer see of `blink_rate`, in their order, and in what
`my_callback` stores in `LEDCTL`.

A write takes effect with its store into `blink_rate`, a read with its copy, the
callback with its `mod_timer` and an open with its store into `mydev.LED`, with two
exceptions. The opens that come before the first `mod_timer` take effect with it, and
those that come between the store of the callback into `LEDCTL` and its `mod_timer`
take effect right after it. `Explains` is this relation between the two systems, and
`serializes` says that there is such a run of whole calls whenever the statements keep
`Apart`. They may get in each other's way otherwise: `blink_swallowed` is a run that
nothing explains.
-/

namespace BlinkDriver.Hw5

open CharDev Transition

/-! ## What is seen of a run -/

/-- What becomes of `blink_rate`: it is stored to from outside, a write commits its
`int` or a read delivers it, or the timer is armed with what follows from it. -/
inductive Seen where
  | param (rate : BitVec 32)
  | commit (rate : BitVec 32)
  | deliver (rate : BitVec 32)
  | delay (msecs : BitVec 32)
  deriving DecidableEq

/-- In the next statement of a call. -/
def Call.seen (ok : Bool) (g : Globals) : Call → Option Seen
  | .opening .arm => some (.delay (halfPeriod g.rate.blinkRate))
  | .reading k => if k.pc = .copy ∧ ok = true then some (.deliver g.rate.blinkRate) else none
  | .writing k =>
      match k.pc with
      | .store v => some (.commit (v.setWidth 32))
      | _ => none
  | _ => none

/-- In a step of the statements. -/
def State.seen (s : State) : Label → Option Seen
  | .setParam rate => some (.param rate)
  | .move i ok => (s.calls[i]?).bind (Call.seen ok s.g)
  | .callbackStep =>
      if s.callback = some .arm then some (.delay (halfPeriod s.g.rate.blinkRate)) else none
  | _ => none

/-- In a whole call. -/
def Event.seen (g : Globals) : Event → Option Seen
  | .setParam rate => some (.param rate)
  | .read a offset =>
      let r := (readCall mydevFops.fetch a offset g).2
      if r.ret = 4 then some (.deliver (readInt r.bytes)) else none
  | .write a =>
      if (writeCall mydevFops.accept a g).2.ret < 0 then none else some (.commit a.int)
  | e => (delayGiven g e).map .delay

/-- What `my_callback` stores in `LEDCTL` in a step. -/
def State.ledStored (s : State) : Label → Option (BitVec 32)
  | .callbackStep => if s.callback = some .writeLed then some (s.g.led.setWidth 32) else none
  | _ => none

theorem State.seen_move {s : State} {i : Nat} {c : Call} (ok : Bool)
    (slot : s.calls[i]? = some c) : s.seen (.move i ok) = c.seen ok s.g := by
  have shown : s.seen (.move i ok) = (s.calls[i]?).bind (Call.seen ok s.g) := rfl
  rw [shown, slot, Option.bind_some]

theorem State.seen_callbackStep (s : State) : s.seen .callbackStep =
    if s.callback = some .arm then some (.delay (halfPeriod s.g.rate.blinkRate)) else none :=
  rfl

theorem State.ledStored_callbackStep (s : State) : s.ledStored .callbackStep =
    if s.callback = some .writeLed then some (s.g.led.setWidth 32) else none :=
  rfl

/-- What is seen in a run of the statements, oldest first. -/
def seen (trace : List (State × Label)) : List Seen := trace.filterMap fun p => p.1.seen p.2

def ledStores (trace : List (State × Label)) : List (BitVec 32) :=
  trace.filterMap fun p => p.1.ledStored p.2

/-- What is seen in a run of whole calls, oldest first. -/
def seenOfCalls (trace : List (Globals × Event)) : List Seen :=
  trace.filterMap fun p => p.2.seen p.1

/-- The opens of a run of whole calls. -/
def opens (trace : List (Globals × Event)) : Nat := trace.countP fun p => decide (p.2 = .openFile)

/-! ## Statements that keep apart -/

/-- A write that moves finds its own value where it loads `syscall_val`. -/
def FindsOwnValue (s : State) : Label → Prop
  | .move i _ => ∀ k, s.calls[i]? = some (.writing k) → FindsOwn s.g.rate k
  | _ => True

/-- No open clears a lit `mydev.LED` between the callback's toggle and its store into
`LEDCTL`. -/
def ClearsAside (s : State) : Label → Prop
  | .move i _ => s.calls[i]? = some (.opening .clearLed) → s.callback = some .writeLed →
      s.g.led = 0
  | _ => True

/-- The statements of different calls do not get in each other's way, and the module
stays loaded. -/
structure Apart (s : State) (l : Label) : Prop where
  starts : StartsAlone s l
  stays : Stays s l
  own : FindsOwnValue s l
  clears : ClearsAside s l

/-! ## Runs of whole calls -/

/-- From `g` whole calls lead to `g'`; in these something is seen, stored in `LEDCTL`,
and opened. -/
def Leads (g g' : Globals) (seen : List Seen) (leds : List (BitVec 32)) (count : Nat) : Prop :=
  ∃ calls, Run callStep g calls g' ∧ seenOfCalls calls = seen ∧ ledWrites calls = leds ∧
    opens calls = count

namespace Leads

variable {g g' g'' : Globals} {front back : List Seen} {leds leds' : List (BitVec 32)} {m n : Nat}

theorem refl (g : Globals) : Leads g g [] [] 0 := ⟨[], .refl, rfl, rfl, rfl⟩

theorem trans (first : Leads g g' front leds m) (second : Leads g' g'' back leds' n) :
    Leads g g'' (front ++ back) (leds ++ leds') (m + n) := by
  rcases first with ⟨calls, run, rfl, rfl, rfl⟩
  rcases second with ⟨calls', run', rfl, rfl, rfl⟩
  exact ⟨calls ++ calls', run.trans run', List.filterMap_append, List.filterMap_append,
    List.countP_append⟩

/-- One call. -/
theorem call {e : Event} (edge : callStep g e = some g') :
    Leads g g' (e.seen g).toList (ledWrite g e).toList (if e = .openFile then 1 else 0) := by
  refine ⟨[(g, e)], .single edge, ?_, ?_, ?_⟩
  · rw [seenOfCalls, List.filterMap_cons]
    cases e.seen g <;> rfl
  · rw [ledWrites, List.filterMap_cons]
    cases ledWrite g e <;> rfl
  · by_cases opening : e = .openFile
    · simp [opens, opening]
    · simp [opens, opening]

end Leads

/-- A store to the parameter. -/
theorem leads_setParam (g : Globals) (rate : BitVec 32) :
    Leads g { g with rate := { g.rate with blinkRate := rate } } [.param rate] [] 0 :=
  .call (e := .setParam rate) rfl

/-- The kernel cuts what it is asked for to a page less than 2^31 bytes. -/
def Read.args (k : Read) : ReadArgs :=
  ⟨k.null, min k.len 0x7FFFF000, 4, (Nat.min_le_right ..).trans_lt (by decide)⟩

/-- A read that delivers. -/
theorem leads_read {k : Read} (g : Globals) (before : k.offset < 4) (valid : k.null = false) :
    Leads g g [.deliver g.rate.blinkRate] [] 0 := by
  have done : readCall mydevFops.fetch k.args k.offset g =
      (g, ⟨4, k.offset + k.args.len, LittleEndian.toBytes 4 g.rate.blinkRate.toNat⟩) :=
    readCall_done before valid le_rfl
  have edge : callStep g (.read k.args k.offset) = some g := by
    rw [callStep, readCall_fst]
  have bytes : (readCall mydevFops.fetch k.args k.offset g).2.bytes =
      LittleEndian.toBytes 4 g.rate.blinkRate.toNat := by
    rw [done]
    exact List.take_of_length_le (LittleEndian.length_toBytes 4 _).le
  have ret : (readCall mydevFops.fetch k.args k.offset g).2.ret = 4 := by rw [done]
  have shown : Event.seen g (.read k.args k.offset) = some (.deliver g.rate.blinkRate) := by
    simp only [Event.seen, ret, if_true, bytes, readInt_toBytes]
  have leads := Leads.call edge
  rwa [shown] at leads

/-- A write that commits. -/
theorem leads_write {buf : UserBuffer} (g : Globals) (valid : buf.null = false)
    (good : NonNeg buf.int) :
    ∃ g', Leads g g' [.commit buf.int] [] 0 ∧ g'.rate.blinkRate = buf.int ∧ g'.led = g.led ∧
      g'.timer = g.timer ∧ g'.openTracker = g.openTracker := by
  let a : WriteArgs := ⟨buf, true, buf.len⟩
  have int : a.int = buf.int := by
    rw [WriteArgs.int, WriteArgs.image_of_le le_rfl, UserBuffer.int]
  have accepted : mydevFops.accept a.int g =
      ({ g with rate := ⟨buf.int.signExtend 64, buf.int⟩ }, none) := by
    simp only [mydevFops, int, Rate.accept_eq, if_neg (not_lt.mpr good)]
  have done : writeCall mydevFops.accept a g =
      ({ g with rate := ⟨buf.int.signExtend 64, buf.int⟩ }, ⟨a.buf.len, 4, a.image⟩) := by
    rw [writeCall_done valid rfl le_rfl, accepted]
    rfl
  have edge : callStep g (.write a) =
      some { g with rate := ⟨buf.int.signExtend 64, buf.int⟩ } := by
    rw [callStep, done]
  have shown : Event.seen g (.write a) = some (.commit buf.int) := by
    have success : ¬ ((a.buf.len : Nat) : Int) < 0 := by omega
    simp only [Event.seen, done, if_neg success, int]
  have leads := Leads.call edge
  rw [shown] at leads
  exact ⟨_, leads, rfl, rfl, rfl, rfl⟩

/-- The two agree in all that an open that starts nothing leaves alone and that matters
to later calls. -/
structure LedAside (g g' : Globals) : Prop where
  rate : g'.rate.blinkRate = g.rate.blinkRate
  timer : g'.timer = g.timer
  tracker : g'.openTracker = g.openTracker

/-- An open that starts nothing. -/
theorem leads_again {g : Globals} (tracked : g.openTracker ≠ 0) :
    Leads g (openCall g) [] [] 1 ∧ LedAside g (openCall g) := by
  have leads := Leads.call (g := g) (e := .openFile) rfl
  simp only [Event.seen, delayGiven, if_neg tracked] at leads
  refine ⟨leads, ?_⟩
  rw [openCall]
  dsimp only
  rw [if_neg tracked]
  exact ⟨rfl, rfl, rfl⟩

/-- Opens that start nothing. -/
theorem leads_opens {g : Globals} (tracked : g.openTracker ≠ 0) (n : Nat) :
    ∃ g', Leads g g' [] [] n ∧ LedAside g g' ∧ g'.led = if 0 < n then 0 else g.led := by
  induction n with
  | zero => exact ⟨g, .refl g, ⟨rfl, rfl, rfl⟩, rfl⟩
  | succ n ih =>
      rcases ih with ⟨g', leads, same, -⟩
      have tracked' : g'.openTracker ≠ 0 := same.tracker ▸ tracked
      rcases leads_again tracked' with ⟨last, same'⟩
      refine ⟨_, leads.trans last, ?_, ?_⟩
      · exact ⟨same'.rate.trans same.rate, same'.timer.trans same.timer,
          same'.tracker.trans same.tracker⟩
      · rw [openCall_led, if_pos n.succ_pos]

/-- The open that starts the chain of callbacks, and others after it. -/
theorem leads_first {g : Globals} (untracked : g.openTracker = 0) (n : Nat) :
    ∃ g', Leads g g' [.delay (halfPeriod g.rate.blinkRate)] [] (n + 1) ∧
      g'.rate.blinkRate = g.rate.blinkRate ∧ g'.led = 0 ∧ g'.openTracker ≠ 0 ∧
      g'.timer.armed = some (halfPeriod g.rate.blinkRate) := by
  have opened : openCall g =
      { ({ g with
            rate := { g.rate with syscallVal := g.rate.blinkRate.signExtend 64 }, led := 0
            timer := g.timer.setup } : Globals).modTimer with openTracker := 1 } := by
    rw [openCall]
    dsimp only
    rw [if_pos untracked]
  have armed : (openCall g).timer.armed = some (halfPeriod g.rate.blinkRate) := by
    rw [opened]
    rfl
  have first := Leads.call (g := g) (e := .openFile) rfl
  simp only [Event.seen, delayGiven, if_pos untracked, armed] at first
  have tracked : (openCall g).openTracker ≠ 0 := by
    rw [opened]
    exact (by decide : (1 : BitVec 32) ≠ 0)
  rcases leads_opens tracked n with ⟨g', others, same, led⟩
  refine ⟨g', ?_, ?_, ?_, same.tracker ▸ tracked, ?_⟩
  · rw [Nat.add_comm]
    exact first.trans others
  · rw [same.rate, opened]
    rfl
  · rw [led, openCall_led, ite_self]
  · rw [same.timer, armed]

/-- An expiry, and opens right after it. -/
theorem leads_expire {g : Globals} (armed : g.timer.armed.isSome) (tracked : g.openTracker ≠ 0)
    (n : Nat) :
    ∃ g', Leads g g' [.delay (halfPeriod g.rate.blinkRate)] [(g.led ^^^ 0x80).setWidth 32] n ∧
      g'.rate.blinkRate = g.rate.blinkRate ∧ g'.openTracker ≠ 0 ∧
      g'.timer.armed = some (halfPeriod g.rate.blinkRate) ∧
      g'.led = if 0 < n then 0 else g.led ^^^ 0x80 := by
  have fired : g.timer.fire .current = some { g.timer with armed := none } := if_pos armed
  have edge : callStep g .expire =
      some (callbackCall { g with timer := { g.timer with armed := none } }) := by
    rw [callStep, fired]
    rfl
  have first := Leads.call edge
  have tracked' :
      (callbackCall { g with timer := { g.timer with armed := none } }).openTracker ≠ 0 := tracked
  rcases leads_opens tracked' n with ⟨g', others, same, led⟩
  refine ⟨g', ?_, same.rate, same.tracker ▸ tracked', ?_, led⟩
  · have leads := first.trans others
    rwa [if_neg (by decide : Event.expire ≠ .openFile), Nat.zero_add] at leads
  · rw [same.timer]
    rfl

/-! ## Calls under way -/

/-- What the checks and loads of a call that is under way have found. -/
def Call.Due : Call → Prop
  | .reading k =>
      (k.pc = .checkBuf → k.offset < 4) ∧ (k.pc = .copy → k.offset < 4 ∧ k.null = false)
  | .writing k =>
      Whole rateStaging k ∧ Sound NonNeg k ∧
        (k.pc ≠ .checkBuf → k.pc ≠ .returned → k.buf.null = false)
  | _ => True

theorem Call.Due.entered (request : Request) : request.call.Due := by
  cases request with
  | openFile => trivial
  | read null len offset => exact ⟨nofun, nofun⟩
  | write buf =>
      refine ⟨.entered rateStaging buf, .entered buf, fun first => ?_⟩
      exact (first rfl).elim

theorem valid_of_write {ok : Bool} {g g' : Rate} {k k' : Write RatePc}
    (whole : Whole rateStaging k)
    (valid : k.pc ≠ .checkBuf → k.pc ≠ .returned → k.buf.null = false)
    (written : exampleWrite rateStaging ok g k = some (g', k')) (going : k'.pc ≠ .returned) :
    k'.buf.null = false := by
  by_cases first : k.pc = .checkBuf
  · unfold exampleWrite at written
    rw [first] at written
    dsimp only at written
    split at written
    · cases written
      exact (going rfl).elim
    · rename_i present
      cases written
      exact Bool.eq_false_of_not_eq_true present
  · have before : k.pc ≠ .returned := by
      intro last
      rw [exampleWrite, last] at written
      cases written
    have same : k'.buf = k.buf := by
      cases WriteStep.of_exampleWrite written with
      | body pc => exact (whole.onward rateStaging_lawful pc).buf
      | _ => rfl
    rw [same]
    exact valid first before

theorem Call.Due.move {ok : Bool} {g g' : Globals} {c c' : Call} (due : c.Due)
    (own : ∀ k, c = .writing k → FindsOwn g.rate k) (made : c.move ok g = some (g', c')) :
    c'.Due := by
  cases c with
  | opening pc =>
      rcases Option.map_eq_some_iff.mp made with ⟨next, -, same⟩
      cases same
      trivial
  | closed => cases made
  | reading k =>
      rcases Option.map_eq_some_iff.mp made with ⟨k', read, same⟩
      cases same
      unfold example5Read at read
      split at read
      case h_1 pc =>
          split at read
          · cases read
            exact ⟨nofun, nofun⟩
          · rename_i before
            cases read
            exact ⟨fun _ => not_le.mp before, nofun⟩
      case h_2 pc =>
          split at read
          · cases read
            exact ⟨nofun, nofun⟩
          · rename_i present
            cases read
            exact ⟨nofun, fun _ => ⟨due.1 pc, Bool.eq_false_of_not_eq_true present⟩⟩
      case h_3 pc => split at read <;> cases read <;> exact ⟨nofun, nofun⟩
      case h_4 => cases read
  | writing k =>
      rcases Option.map_eq_some_iff.mp made with ⟨next, written, same⟩
      cases same
      rcases due with ⟨whole, sound, valid⟩
      rcases sound_of_findsOwn whole sound (own k rfl) (.of_exampleWrite written) with
        ⟨whole', sound'⟩
      exact ⟨whole', sound', fun _ going => valid_of_write whole valid written going⟩

/-! ## How the two systems stand -/

/-- An open that has stored to `mydev.LED`. -/
def Call.cleared : Call → Bool
  | .opening (.stage _) | .opening .clearLed | .reading _ | .writing _ => false
  | .opening _ | .closed => true

/-- How many there are. -/
def State.cleared (s : State) : Nat := s.calls.countP Call.cleared

theorem countP_cleared_set {calls : List Call} {i : Nat} {c d : Call}
    (slot : calls[i]? = some c) :
    (calls.set i d).countP Call.cleared + c.cleared.toNat =
      calls.countP Call.cleared + d.cleared.toNat := by
  rcases List.getElem?_eq_some_iff.mp slot with ⟨inside, same⟩
  have count := List.countP_set (p := Call.cleared) (a := d) inside
  rw [same] at count
  cases before : c.cleared with
  | false =>
      rw [before] at count
      cases after : d.cleared <;> simp [after] at count ⊢ <;> omega
  | true =>
      have positive : 0 < calls.countP Call.cleared :=
        List.countP_pos_iff.mpr ⟨c, List.mem_of_getElem? slot, before⟩
      rw [before] at count
      cases after : d.cleared <;> simp [after] at count ⊢ <;> omega

/-- Once the chain of callbacks has been started: which opens have taken effect, where
`mydev.LED` and the timer are, and what the whole calls are yet to store in `LEDCTL`. -/
def Abreast (s : State) (g : Globals) (count : Nat) (owed : List (BitVec 32)) :
    Option CallbackPc → Prop
  | none | some .finish =>
      owed = [] ∧ count = s.cleared ∧ s.g.led = g.led ∧ s.g.timer.armed = g.timer.armed
  | some .toggle => owed = [] ∧ count = s.cleared ∧ s.g.led = g.led
  | some .writeLed =>
      owed = [] ∧ count ≤ s.cleared ∧ s.g.led = g.led ^^^ 0x80 ∧
        (count < s.cleared → s.g.led = 0)
  | some .arm =>
      owed = [(g.led ^^^ 0x80).setWidth 32] ∧ count ≤ s.cleared ∧
        s.g.led = if count < s.cleared then 0 else g.led ^^^ 0x80

/-- Whole calls have led to `g`, with so many opens: the chain has not been started, or
the two are abreast. -/
inductive Explains (s : State) (g : Globals) (count : Nat) (owed : List (BitVec 32)) : Prop
  | before (quiet : s.g.timer.Quiet) (rest : s.callback = none) (dark : s.g.led = 0)
      (untracked : g.openTracker = 0) (unarmed : g.timer.armed = none) (off : g.led = 0)
      (unopened : count = 0) (even : owed = [])
  | beating (stale : s.g.timer.stale = 0) (tracked : g.openTracker ≠ 0)
      (armed : g.timer.armed.isSome) (abreast : Abreast s g count owed s.callback)

section Explains

variable {s t : State} {g g' : Globals} {count : Nat} {owed : List (BitVec 32)}

theorem Explains.keep (explains : Explains s g count owed) (timer : t.g.timer = s.g.timer)
    (led : t.g.led = s.g.led) (callback : t.callback = s.callback)
    (cleared : t.cleared = s.cleared) (timer' : g'.timer = g.timer) (led' : g'.led = g.led)
    (tracker' : g'.openTracker = g.openTracker) : Explains t g' count owed := by
  cases explains with
  | before quiet rest dark untracked unarmed off unopened even =>
      refine .before ?_ (callback.trans rest) (led.trans dark) (tracker'.trans untracked) ?_
        (led'.trans off) unopened even
      · rw [timer]
        exact quiet
      · rw [timer']
        exact unarmed
  | beating stale tracked armed abreast =>
      refine .beating ?_ (tracker' ▸ tracked) (timer' ▸ armed) ?_
      · rw [timer]
        exact stale
      · rw [callback]
        unfold Abreast at abreast ⊢
        rw [timer, led, cleared, timer', led']
        exact abreast

/-! ## One step -/

/-- Whole calls from `g` answer a step of the statements. -/
def Answered (s : State) (l : Label) (t : State) (g : Globals) (count : Nat)
    (owed : List (BitVec 32)) : Prop :=
  ∃ g' n leds owed', Leads g g' (s.seen l).toList leds n ∧
    owed ++ (s.ledStored l).toList = leds ++ owed' ∧
    g'.rate.blinkRate = t.g.rate.blinkRate ∧ Explains t g' (count + n) owed'

/-- A step that needs no answer. -/
theorem Explains.silent {l : Label} (explains : Explains t g count owed)
    (unseen : s.seen l = none) (unstored : s.ledStored l = none)
    (rate : g.rate.blinkRate = t.g.rate.blinkRate) : Answered s l t g count owed := by
  refine ⟨g, 0, [], owed, ?_, ?_, rate, explains⟩
  · rw [unseen]
    exact .refl g
  · rw [unstored]
    exact List.append_nil owed

/-- The chain has been started if its timer is on. -/
theorem Explains.expire {entry : Timer.Entry} (explains : Explains s g count owed)
    (rest : s.callback = none) (fired : s.g.timer.fire entry = some t.g.timer)
    (led : t.g.led = s.g.led) (callback : t.callback = some .toggle)
    (calls : t.calls = s.calls) : Explains t g count owed := by
  cases explains with
  | before quiet =>
      rw [quiet.fire entry] at fired
      cases fired
  | beating stale tracked armed abreast =>
      rw [rest] at abreast
      rcases abreast with ⟨even, all, led', -⟩
      rcases Timer.fire_cases fired with ⟨-, -, timer⟩ | ⟨-, pending, -⟩
      · refine .beating ?_ tracked armed ?_
        · rw [timer]
          exact stale
        · rw [callback]
          refine ⟨even, ?_, led.trans led'⟩
          rw [all, State.cleared, State.cleared, calls]
      · exact (pending stale).elim

/-- The callback takes effect with its `mod_timer`, and with it the opens since its
store. -/
theorem Explains.callback {pc : CallbackPc} (explains : Explains s g count owed)
    (rate : g.rate.blinkRate = s.g.rate.blinkRate) (running : s.callback = some pc)
    (globals : t.g = (myCallback s.g pc).1) (next : t.callback = (myCallback s.g pc).2)
    (calls : t.calls = s.calls) : Answered s .callbackStep t g count owed := by
  have cleared : t.cleared = s.cleared := congrArg (List.countP Call.cleared) calls
  cases explains with
  | before _ rest => cases running.symm.trans rest
  | beating stale tracked armed abreast =>
      rw [running] at abreast
      cases pc with
      | toggle =>
          rcases abreast with ⟨even, all, led⟩
          have unseen : s.seen .callbackStep = none := by
            rw [s.seen_callbackStep, running, if_neg (by decide)]
          have unstored : s.ledStored .callbackStep = none := by
            rw [s.ledStored_callbackStep, running, if_neg (by decide)]
          have explains : Explains t g count owed := by
            refine .beating (globals ▸ stale) tracked armed ?_
            rw [next]
            refine ⟨even, ?_, ?_, fun fewer => ?_⟩
            · rw [cleared, all]
            · rw [globals, ← led]
              rfl
            · rw [cleared] at fewer
              exact absurd all fewer.ne
          exact explains.silent unseen unstored (globals ▸ rate)
      | writeLed =>
          rcases abreast with ⟨even, most, led, none⟩
          have same : t.g.led = s.g.led := by rw [globals]; rfl
          refine ⟨g, 0, [], [(g.led ^^^ 0x80).setWidth 32], ?_, ?_, globals ▸ rate,
            .beating (globals ▸ stale) tracked armed ?_⟩
          · rw [s.seen_callbackStep, running, if_neg (by decide)]
            exact .refl g
          · rw [s.ledStored_callbackStep, if_pos running, even, led]
            rfl
          · rw [next]
            refine ⟨rfl, ?_, ?_⟩
            · rw [cleared]
              exact most
            · rw [same, cleared, Nat.add_zero]
              split
              · rename_i fewer
                exact none fewer
              · exact led
      | arm =>
          rcases abreast with ⟨due, most, led⟩
          rcases leads_expire armed tracked (s.cleared - count) with
            ⟨g', leads, rate', tracked', armed', led'⟩
          have same : t.g.led = s.g.led := by rw [globals]; rfl
          refine ⟨g', s.cleared - count, [(g.led ^^^ 0x80).setWidth 32], [], ?_, ?_, ?_,
            .beating (globals ▸ stale) tracked' (by rw [armed']; rfl) ?_⟩
          · rw [s.seen_callbackStep, if_pos running, ← rate]
            exact leads
          · rw [s.ledStored_callbackStep, running, if_neg (by decide), due]
            rfl
          · rw [globals]
            exact rate'.trans rate
          · rw [next]
            refine ⟨rfl, ?_, ?_, ?_⟩
            · rw [cleared]
              exact Nat.add_sub_cancel' most
            · rw [same, led, led']
              exact if_congr Nat.sub_pos_iff_lt.symm rfl rfl
            · rw [armed', rate, globals]
              rfl
      | finish =>
          have unseen : s.seen .callbackStep = none := by
            rw [s.seen_callbackStep, running, if_neg (by decide)]
          have unstored : s.ledStored .callbackStep = none := by
            rw [s.ledStored_callbackStep, running, if_neg (by decide)]
          have explains : Explains t g count owed := by
            refine .beating (globals ▸ stale) tracked armed ?_
            rw [next]
            rcases abreast with ⟨even, all, led, timer⟩
            refine ⟨even, ?_, ?_, ?_⟩
            · rw [cleared, all]
            · rw [globals, ← led]
              rfl
            · rw [globals, ← timer]
              rfl
          exact explains.silent unseen unstored (globals ▸ rate)

/-- An open takes effect with its store into `mydev.LED`, unless the callback is between
its store and its `mod_timer` or the chain has not been started. -/
theorem Explains.clearLed {l : Label} (explains : Explains s g count owed)
    (rate : g.rate.blinkRate = s.g.rate.blinkRate)
    (aside : s.callback = some .writeLed → s.g.led = 0) (unseen : s.seen l = none)
    (unstored : s.ledStored l = none) (globals : t.g = { s.g with led := 0 })
    (callback : t.callback = s.callback) (cleared : t.cleared = s.cleared + 1) :
    Answered s l t g count owed := by
  cases explains with
  | before quiet rest dark untracked unarmed off unopened even =>
      have explains : Explains t g count owed :=
        .before (globals ▸ quiet) (callback.trans rest) (by rw [globals]) untracked unarmed off
          unopened even
      exact explains.silent unseen unstored (globals ▸ rate)
  | beating stale tracked armed abreast =>
      rcases leads_again tracked with ⟨leads, same⟩
      have led : t.g.led = 0 := by rw [globals]
      have now (even : owed = [])
          (abreast : Abreast t (openCall g) (count + 1) [] s.callback) :
          Answered s l t g count owed := by
        refine ⟨openCall g, 1, [], [], ?_, ?_, ?_,
          .beating (globals ▸ stale) (same.tracker ▸ tracked) (same.timer ▸ armed) ?_⟩
        · rw [unseen]
          exact leads
        · rw [unstored, even]
          rfl
        · rw [globals]
          exact same.rate.trans rate
        · rw [callback]
          exact abreast
      have later (abreast : Abreast t g count owed s.callback) :
          Answered s l t g count owed := by
        have explains : Explains t g count owed := by
          refine .beating (globals ▸ stale) tracked armed ?_
          rw [callback]
          exact abreast
        exact explains.silent unseen unstored (globals ▸ rate)
      match running : s.callback with
      | none | some .finish =>
          rw [running] at abreast now
          rcases abreast with ⟨even, all, -, timer⟩
          refine now even ⟨rfl, ?_, led.trans (openCall_led g).symm, ?_⟩
          · rw [cleared, all]
          · rw [globals, same.timer]
            exact timer
      | some .toggle =>
          rw [running] at abreast now
          rcases abreast with ⟨even, all, -⟩
          refine now even ⟨rfl, ?_, led.trans (openCall_led g).symm⟩
          rw [cleared, all]
      | some .writeLed =>
          rw [running] at abreast later
          rcases abreast with ⟨even, most, toggled, -⟩
          refine later ⟨even, ?_, ?_, fun _ => led⟩
          · rw [cleared]
            exact Nat.le_succ_of_le most
          · rw [led, ← toggled, aside running]
      | some .arm =>
          rw [running] at abreast later
          rcases abreast with ⟨due, most, -⟩
          refine later ⟨due, ?_, ?_⟩
          · rw [cleared]
            exact Nat.le_succ_of_le most
          · rw [cleared, if_pos (Nat.lt_succ_of_le most), led]

/-- The first `mod_timer`, with which all opens so far take effect. -/
theorem Explains.arm {l : Label} (explains : Explains s g count owed)
    (rate : g.rate.blinkRate = s.g.rate.blinkRate) (timer : s.g.timer = Timer.blank.setup)
    (rest : s.callback = none) (positive : 0 < s.cleared)
    (shown : s.seen l = some (.delay (halfPeriod s.g.rate.blinkRate)))
    (unstored : s.ledStored l = none) (globals : t.g = s.g.modTimer)
    (callback : t.callback = s.callback) (cleared : t.cleared = s.cleared) :
    Answered s l t g count owed := by
  cases explains with
  | before quiet _ dark untracked unarmed off unopened even =>
      rcases leads_first untracked (s.cleared - 1) with ⟨g', leads, rate', led', tracked', armed'⟩
      have all : s.cleared - 1 + 1 = s.cleared := Nat.sub_add_cancel positive
      refine ⟨g', s.cleared, [], [], ?_, ?_, ?_, .beating ?_ tracked' (by rw [armed']; rfl) ?_⟩
      · rw [shown, ← rate]
        exact all ▸ leads
      · rw [unstored, even]
        rfl
      · rw [globals]
        exact rate'.trans rate
      · rw [globals]
        exact quiet.2
      · rw [callback, rest]
        refine ⟨rfl, ?_, ?_, ?_⟩
        · rw [cleared, unopened, Nat.zero_add]
        · rw [globals, led']
          exact dark
        · rw [armed', rate, globals]
          rfl
  | beating _ _ armed abreast =>
      rw [rest] at abreast
      rcases abreast with ⟨-, -, -, same⟩
      rw [← same, timer] at armed
      cases armed

theorem State.cleared_set {g₁ : Globals} {i : Nat} {c d : Call} (slot : s.calls[i]? = some c)
    (same : d.cleared = c.cleared) :
    State.cleared { s with g := g₁, calls := s.calls.set i d } = s.cleared := by
  have count := countP_cleared_set (d := d) slot
  rw [same] at count
  exact Nat.add_right_cancel count

/-- A statement of an open. -/
theorem Explains.opening {i : Nat} {ok : Bool} {g₁ : Globals} {pc pc' : OpenPc}
    (explains : Explains s g count owed) (stage : Stage s)
    (rate : g.rate.blinkRate = s.g.rate.blinkRate) (clears : ClearsAside s (.move i ok))
    (slot : s.calls[i]? = some (.opening pc)) (opened : example5Open s.g pc = some (g₁, pc')) :
    Answered s (.move i ok) { s with g := g₁, calls := s.calls.set i (.opening pc') } g count
      owed := by
  have kept : g₁.rate.blinkRate = s.g.rate.blinkRate := example5Open_blinkRate opened
  have shown := State.seen_move ok slot
  -- what the statements do that neither clear `mydev.LED` nor touch the timer
  have aside (unseen : s.seen (.move i ok) = none) (timer : g₁.timer = s.g.timer)
      (led : g₁.led = s.g.led)
      (same : (Call.opening pc').cleared = (Call.opening pc).cleared) :
      Answered s (.move i ok) { s with g := g₁, calls := s.calls.set i (.opening pc') } g count
        owed :=
    Explains.silent (t := { s with g := g₁, calls := s.calls.set i (.opening pc') })
      (explains.keep timer led rfl (State.cleared_set slot same) rfl rfl rfl) unseen rfl
      (rate.trans kept.symm)
  cases pc with
  | stage pc =>
      rcases Option.map_eq_some_iff.mp opened with ⟨next, -, same⟩
      cases same
      refine aside shown rfl rfl ?_
      split <;> rfl
  | clearLed =>
      cases opened
      exact explains.clearLed rate (clears slot) shown rfl rfl rfl (countP_cleared_set slot)
  | testTracker =>
      simp only [example5Open] at opened
      split at opened <;> cases opened <;> exact aside shown rfl rfl rfl
  | setup =>
      rcases stage.of_starting slot rfl with ⟨-, ⟨timer, rest⟩, -⟩
      cases opened
      cases explains with
      | before quiet _ dark untracked unarmed off unopened even =>
          refine Explains.silent (.before quiet.setup rest dark untracked unarmed off unopened even)
            shown rfl rate
      | beating _ _ armed abreast =>
          rw [rest] at abreast
          rcases abreast with ⟨-, -, -, same⟩
          rw [← same, timer] at armed
          cases armed
  | arm =>
      rcases stage.of_starting slot rfl with ⟨-, ⟨timer, rest⟩, -⟩
      cases opened
      have positive : 0 < s.cleared :=
        List.countP_pos_iff.mpr ⟨_, List.mem_of_getElem? slot, rfl⟩
      exact explains.arm rate timer rest positive shown rfl rfl rfl (State.cleared_set slot rfl)
  | setTracker =>
      cases opened
      exact aside shown rfl rfl rfl
  | returned => cases opened

/-- A statement of a call. -/
theorem Explains.move {i : Nat} {ok : Bool} {g₁ : Globals} {c c' : Call}
    (explains : Explains s g count owed) (stage : Stage s)
    (rate : g.rate.blinkRate = s.g.rate.blinkRate) (due : c.Due)
    (clears : ClearsAside s (.move i ok)) (slot : s.calls[i]? = some c)
    (made : c.move ok s.g = some (g₁, c')) :
    Answered s (.move i ok) { s with g := g₁, calls := s.calls.set i c' } g count owed := by
  have shown := State.seen_move ok slot
  cases c with
  | opening pc =>
      rcases Option.map_eq_some_iff.mp made with ⟨⟨g₂, pc'⟩, opened, same⟩
      cases same
      exact explains.opening stage rate clears slot opened
  | closed => cases made
  | reading k =>
      rcases Option.map_eq_some_iff.mp made with ⟨k', read, same⟩
      cases same
      have next := explains.keep (t := { s with calls := s.calls.set i (.reading k') }) rfl rfl rfl
        (State.cleared_set slot rfl) rfl rfl rfl
      by_cases delivers : k.pc = .copy ∧ ok = true
      · rcases due.2 delivers.1 with ⟨before, valid⟩
        refine ⟨g, 0, [], owed, ?_, List.append_nil owed, rate, next⟩
        rw [shown, Call.seen, if_pos delivers, ← rate]
        exact leads_read g before valid
      · refine next.silent ?_ rfl rate
        rw [shown, Call.seen, if_neg delivers]
  | writing k =>
      rcases Option.map_eq_some_iff.mp made with ⟨⟨rate₁, k'⟩, written, same⟩
      cases same
      rcases due with ⟨-, sound, valid⟩
      have cleared : State.cleared { s with
          g := { s.g with rate := rate₁ }, calls := s.calls.set i (.writing k') } = s.cleared :=
        State.cleared_set slot rfl
      cases pc : k.pc with
      | store v =>
          rcases sound.store v pc with ⟨good, own⟩
          rw [CharDev.Hw5.example5Write, exampleWrite, pc] at written
          cases written
          have checked : k.pc ≠ .checkBuf := fun same => by cases pc.symm.trans same
          have going : k.pc ≠ .returned := fun same => by cases pc.symm.trans same
          rcases leads_write g (valid checked going) good with
            ⟨g', leads, rate', led', timer', tracker'⟩
          refine ⟨g', 0, [], owed, ?_, List.append_nil owed, ?_,
            explains.keep rfl rfl rfl cleared timer' led' tracker'⟩
          · rw [shown, Call.seen, pc]
            change Leads g g' [.commit (v.setWidth 32)] [] 0
            rw [own]
            exact leads
          · rw [rate', ← own]
            rfl
      | checkBuf | alloc | copy | body | load | memOut | returned =>
          have access : WriteStep rateStaging s.g.rate k rate₁ k' := .of_exampleWrite written
          have kept : rate₁.blinkRate = s.g.rate.blinkRate := by
            cases access with
            | body => exact checkRate_blinkRate ..
            | store store =>
                rw [pc] at store
                cases store
            | _ => rfl
          refine Explains.silent (explains.keep rfl rfl rfl cleared rfl rfl rfl) ?_ rfl
            (rate.trans kept.symm)
          rw [shown, Call.seen, pc]

theorem probe_led (ok : Bool) (g : Globals) (pc : ProbePc) :
    (probe ok g pc).1.led = g.led ∧ (probe ok g pc).1.rate = g.rate := by
  cases pc with
  | map => cases ok <;> exact ⟨rfl, rfl⟩
  | _ => exact ⟨rfl, rfl⟩

theorem remove_led (g : Globals) (pc : RemovePc) :
    (remove g pc).1.led = g.led ∧ (remove g pc).1.rate = g.rate := by
  cases pc <;> exact ⟨rfl, rfl⟩

/-- A step that keeps apart is answered. -/
theorem Explains.step {l : Label} (explains : Explains s g count owed) (chain : ChainInv s)
    (rate : g.rate.blinkRate = s.g.rate.blinkRate) (due : ∀ c ∈ s.calls, c.Due)
    (apart : Apart s l) (moved : step s l = some t) : Answered s l t g count owed := by
  cases l with
  | move i ok =>
      rcases Option.bind_eq_some_iff.mp moved with ⟨c, slot, rest⟩
      rcases Option.map_eq_some_iff.mp rest with ⟨⟨g₁, c'⟩, made, rfl⟩
      exact explains.move chain.stage rate (due c (List.mem_of_getElem? slot)) apart.clears slot
        made
  | load =>
      cases Step.of_step moved with
      | load phase => exact absurd (chain.live.symm.trans phase) nofun
  | setParam blinkRate =>
      cases Step.of_step moved with
      | setParam =>
          exact ⟨_, 0, [], owed, leads_setParam g blinkRate, List.append_nil owed, rfl,
            explains.keep rfl rfl rfl rfl rfl rfl rfl⟩
  | probe =>
      cases Step.of_step moved
      have explains := explains.keep (t := { s with pci := .probing .request })
        rfl rfl rfl rfl rfl rfl rfl
      refine explains.silent ?_ ?_ rate <;> rfl
  | unbind =>
      cases Step.of_step moved
      have explains := explains.keep (t := { s with pci := .removing .unmap })
        rfl rfl rfl rfl rfl rfl rfl
      refine explains.silent ?_ ?_ rate <;> rfl
  | probeStep ok =>
      cases Step.of_step moved with
      | @probeStep _ pc =>
          rcases probe_led ok s.g pc with ⟨led, same⟩
          have explains := explains.keep (t := { s with
            g := (probe ok s.g pc).1, pci := (probe ok s.g pc).2 })
            (probe_timer ok s.g pc) led rfl rfl rfl rfl rfl
          refine explains.silent ?_ ?_ (same ▸ rate) <;> rfl
  | removeStep =>
      cases Step.of_step moved with
      | @removeStep pc =>
          rcases remove_led s.g pc with ⟨led, same⟩
          have explains := explains.keep (t := { s with
            g := (remove s.g pc).1, pci := (remove s.g pc).2 })
            (remove_timer s.g pc) led rfl rfl rfl rfl rfl
          refine explains.silent ?_ ?_ (same ▸ rate) <;> rfl
  | start request =>
      cases Step.of_step moved with
      | start =>
          have count : State.cleared { s with calls := s.calls ++ [request.call] } =
              s.cleared := by
            cases request <;> exact List.countP_append
          have explains := explains.keep (t := { s with calls := s.calls ++ [request.call] })
            rfl rfl rfl count rfl rfl rfl
          refine explains.silent ?_ ?_ rate <;> rfl
  | close i =>
      cases Step.of_step moved with
      | close slot =>
          have count : State.cleared { s with calls := s.calls.set i .closed } = s.cleared :=
            State.cleared_set slot rfl
          have explains := explains.keep (t := { s with calls := s.calls.set i .closed })
            rfl rfl rfl count rfl rfl rfl
          refine explains.silent ?_ ?_ rate <;> rfl
  | expire entry =>
      cases Step.of_step moved with
      | @expire _ timer rest fired =>
          have explains := explains.expire (t := { s with
            g := { s.g with timer }, callback := some .toggle }) rest fired rfl rfl rfl
          refine explains.silent ?_ ?_ rate <;> rfl
  | callbackStep =>
      cases Step.of_step moved with
      | callback running => exact explains.callback rate running rfl rfl rfl
  | exit => exact (apart.stays rfl).elim
  | exitStep =>
      cases Step.of_step moved with
      | exitStep statement =>
          cases statement with
          | delTimer phase | remove phase | unregister phase | cleanup phase =>
              cases chain.live.symm.trans phase

theorem due_of_step {l : Label} (due : ∀ c ∈ s.calls, c.Due) (own : FindsOwnValue s l)
    (moved : step s l = some t) : ∀ c ∈ t.calls, c.Due := by
  cases l with
  | move i ok =>
      rcases Option.bind_eq_some_iff.mp moved with ⟨c, slot, rest⟩
      rcases Option.map_eq_some_iff.mp rest with ⟨⟨g₁, c'⟩, made, rfl⟩
      intro d member
      rcases List.mem_or_eq_of_mem_set member with kept | rfl
      · exact due d kept
      · exact (due c (List.mem_of_getElem? slot)).move (fun k same => own k (same ▸ slot)) made
  | load =>
      cases Step.of_step moved
      exact nofun
  | start request =>
      cases Step.of_step moved
      intro d member
      rcases List.mem_append.mp member with before | new
      · exact due d before
      · cases List.mem_singleton.mp new
        exact .entered request
  | close i =>
      cases Step.of_step moved
      intro d member
      rcases List.mem_or_eq_of_mem_set member with kept | rfl
      · exact due d kept
      · trivial
  | exitStep =>
      cases Step.of_step moved with
      | exitStep statement => cases statement <;> exact due
  | _ =>
      cases Step.of_step moved
      exact due

end Explains

/-! ## Whole runs -/

section Runs

variable {ledctl blinkRate : BitVec 32} {t : State} {trace : List (State × Label)}

theorem explained_of_run (run : Run step (.loaded ledctl blinkRate) trace t)
    (apart : Meets Apart trace) :
    ChainInv t ∧ (∀ c ∈ t.calls, c.Due) ∧ ∃ g count leds owed,
      Leads (.started ledctl blinkRate .null) g (seen trace) leds count ∧
      ledStores trace = leds ++ owed ∧ g.rate.blinkRate = t.g.rate.blinkRate ∧
      Explains t g count owed := by
  induction run with
  | refl =>
      exact ⟨chainInv_loaded ledctl blinkRate, nofun, _, 0, [], [], .refl _, rfl, rfl,
        .before ⟨rfl, rfl⟩ rfl rfl rfl rfl rfl rfl rfl⟩
  | @snoc trace s t l _ edge ih =>
      rcases meets_append.mp apart with ⟨front, last⟩
      have keeps := meets_singleton.mp last
      rcases ih front with ⟨chain, due, g, count, leds, owed, first, stored, rate, explains⟩
      rcases explains.step chain rate due keeps edge with
        ⟨g', n, more, owed', second, stored', rate', explains'⟩
      refine ⟨chain.step keeps.starts keeps.stays (.of_step edge),
        due_of_step due keeps.own edge, g', count + n, leds ++ more, owed', ?_, ?_, rate',
        explains'⟩
      · have shown : seen (trace ++ [(s, l)]) = seen trace ++ (s.seen l).toList := by
          rw [seen, List.filterMap_append, List.filterMap_cons]
          cases s.seen l <;> rfl
        rw [shown]
        exact first.trans second
      · have shown : ledStores (trace ++ [(s, l)]) = ledStores trace ++ (s.ledStored l).toList := by
          rw [ledStores, List.filterMap_append, List.filterMap_cons]
          cases s.ledStored l <;> rfl
        rw [shown, stored, List.append_assoc, stored', List.append_assoc]

/-- **HW5 is serializable.** However the statements of any number of opens, reads and
writes interleave with those of the callback, with stores to the parameter and with what
becomes of the PCI device, as long as they keep `Apart` there are whole calls that give
the same values of `blink_rate` in the same order to users, to the parameter and to the
timer. What these store in `LEDCTL` is what `my_callback` has stored, but for what a
callback under way may have ahead of them. Between callbacks there is no such
difference, `mydev.LED` and the timer are the same in both, and no open that has
returned is missing. -/
theorem serializes (run : Run step (.loaded ledctl blinkRate) trace t)
    (apart : Meets Apart trace) :
    ∃ g calls, Run callStep (.started ledctl blinkRate .null) calls g ∧
      seenOfCalls calls = seen trace ∧ ledWrites calls <+: ledStores trace ∧
      opens calls ≤ t.cleared ∧ g.rate.blinkRate = t.g.rate.blinkRate ∧
      (t.callback = none → ledWrites calls = ledStores trace ∧ g.led = t.g.led ∧
        g.timer.armed = t.g.timer.armed ∧ t.calls.countP Call.hasOpened ≤ opens calls) := by
  rcases explained_of_run run apart with
    ⟨chain, -, g, count, leds, owed, ⟨calls, whole, shown, rfl, rfl⟩, stored, rate, explains⟩
  have returned : t.calls.countP Call.hasOpened ≤ t.cleared := by
    apply List.countP_mono_left
    intro c _ opened
    cases c with
    | opening pc => cases pc <;> first | rfl | cases opened
    | closed => rfl
    | reading | writing => cases opened
  refine ⟨g, calls, whole, shown, ⟨owed, stored.symm⟩, ?_, rate, fun rest => ?_⟩
  · cases explains with
    | before _ _ _ _ _ _ unopened => exact unopened ▸ Nat.zero_le _
    | beating _ _ _ abreast =>
        match running : t.callback with
        | none | some .finish | some .toggle | some .writeLed | some .arm =>
            rw [running] at abreast
            first | exact abreast.2.1.le | exact abreast.2.1
  · cases explains with
    | before quiet _ dark _ unarmed off unopened even =>
        refine ⟨?_, off.trans dark.symm, unarmed.trans quiet.1.symm, ?_⟩
        · rw [stored, even, List.append_nil]
        · have none : t.calls.countP Call.hasOpened = 0 := by
            apply List.countP_eq_zero.mpr
            intro c member opened
            cases chain.stage with
            | untouched _ _ unopened | starting _ _ _ unopened =>
                exact absurd ((unopened c member).symm.trans opened) nofun
            | beating _ _ beating =>
                rcases beating.alive with armed | ⟨pc, running, -⟩
                · rw [quiet.1] at armed
                  cases armed
                · cases running.symm.trans rest
          rw [none]
          exact Nat.zero_le _
    | beating _ _ _ abreast =>
        rw [rest] at abreast
        rcases abreast with ⟨even, all, led, timer⟩
        refine ⟨?_, led.symm, timer.symm, all ▸ returned⟩
        rw [stored, even, List.append_nil]

end Runs

instance (s : State) : ∀ l, Decidable (FindsOwnValue s l)
  | .move i ok =>
      match slot : s.calls[i]? with
      | some (.writing k) =>
          decidable_of_iff (FindsOwn s.g.rate k)
            ⟨fun own _ same => by cases slot.symm.trans same; exact own, fun own => own k slot⟩
      | none | some (.opening _) | some .closed | some (.reading _) =>
          .isTrue fun _ same => by cases slot.symm.trans same
  | .load _ | .setParam _ | .probe | .probeStep _ | .unbind | .removeStep | .start _ | .close _
  | .expire _ | .callbackStep | .exit | .exitStep => .isTrue trivial

instance (s : State) : ∀ l, Decidable (ClearsAside s l)
  | .move i _ =>
      inferInstanceAs (Decidable (s.calls[i]? = some (.opening .clearLed) →
        s.callback = some .writeLed → s.g.led = 0))
  | .load _ | .setParam _ | .probe | .probeStep _ | .unbind | .removeStep | .start _ | .close _
  | .expire _ | .callbackStep | .exit | .exitStep => .isTrue trivial

instance (s : State) (l : Label) : Decidable (Apart s l) :=
  decidable_of_iff (StartsAlone s l ∧ Stays s l ∧ FindsOwnValue s l ∧ ClearsAside s l)
    ⟨fun ⟨starts, stays, own, clears⟩ => ⟨starts, stays, own, clears⟩,
      fun apart => ⟨apart.starts, apart.stays, apart.own, apart.clears⟩⟩

/-- Two opens overlap before the timer is armed, and a third one comes between the
store of the callback and its `mod_timer`. -/
theorem serializes_three_opens :
    ∃ t trace g calls, Run step (.loaded 0 2) trace t ∧
      Run callStep (.started 0 2 .null) calls g ∧ opens calls = 3 ∧ ledWrites calls = [0x80] ∧
      seenOfCalls calls = [.delay 1000, .delay 1000] := by
  rcases Run.of_traced_any (restrict Apart step) (.loaded 0 2)
    (.start .openFile :: List.replicate 3 (.move 0 true) ++
      .start .openFile :: List.replicate 3 (.move 1 true) ++
      List.replicate 4 (.move 0 true) ++ [.move 1 true, .expire .current, .callbackStep,
      .callbackStep, .start .openFile] ++ List.replicate 4 (.move 2 true) ++
      [.callbackStep, .callbackStep])
    (fun r => r.2.callback = none ∧ r.2.cleared = 3 ∧ r.2.calls.countP Call.hasOpened = 3 ∧
      ledStores r.1 = [0x80] ∧ seen r.1 = [.delay 1000, .delay 1000])
    (by decide +kernel) with ⟨t, trace, run, rest, cleared, returned, stored, shown⟩
  rcases run.of_restrict with ⟨run, apart⟩
  rcases serializes run apart with ⟨g, calls, whole, same, -, most, -, quiet⟩
  rcases quiet rest with ⟨leds, -, -, least⟩
  rw [cleared] at most
  rw [returned] at least
  exact ⟨t, trace, g, calls, run, whole, most.antisymm least, leds.trans stored,
    same.trans shown⟩

/-- Whole calls store `0x80` first. -/
theorem ledWrites_head {ledctl blinkRate : BitVec 32} {hwAddr : HwAddr} {g : Globals}
    {calls : List (Globals × Event)}
    (run : Run callStep (.started ledctl blinkRate hwAddr) calls g) :
    (ledWrites calls = [] ∧ g.led = 0) ∨ (ledWrites calls).head? = some 0x80 := by
  induction run with
  | refl => exact .inl ⟨rfl, rfl⟩
  | @snoc calls g g' e _ edge ih =>
      by_cases expires : e = .expire
      · right
        subst expires
        rw [ledWrites_snoc_expire rfl, callbackCall_led]
        rcases ih with ⟨none, dark⟩ | first
        · rw [none, dark]
          rfl
        · rw [List.head?_append, first, Option.some_or]
      · rw [ledWrites_snoc_other expires]
        rcases ih with ⟨none, dark⟩ | first
        · refine .inl ⟨none, ?_⟩
          by_cases opens : e = .openFile
          · subst opens
            cases edge
            exact openCall_led g
          · exact (callStep_led edge opens expires).trans dark
        · exact .inr first

/-- An open clears `mydev.LED` between the callback's toggle and its store, and the LED
is not lit. No whole calls store that, although the statements keep all else of
`Apart`. -/
theorem blink_swallowed :
    ∃ t trace, Run step (.loaded 0 2) trace t ∧
      Meets (fun s l => StartsAlone s l ∧ Stays s l ∧ FindsOwnValue s l) trace ∧
      t.callback = none ∧ ledStores trace = [0] ∧
      ∀ calls g, Run callStep (.started 0 2 .null) calls g → ledWrites calls ≠ [0] := by
  rcases Run.of_traced_any
    (restrict (fun s l => StartsAlone s l ∧ Stays s l ∧ FindsOwnValue s l) step) (.loaded 0 2)
    (.start .openFile :: List.replicate 7 (.move 0 true) ++
      [.expire .current, .callbackStep, .start .openFile] ++
      List.replicate 4 (.move 1 true) ++ List.replicate 3 .callbackStep)
    (fun r => r.2.callback = none ∧ ledStores r.1 = [0]) (by decide +kernel) with
    ⟨t, trace, run, rest, stored⟩
  rcases run.of_restrict with ⟨run, others⟩
  refine ⟨t, trace, run, others, rest, stored, fun calls g whole same => ?_⟩
  rcases ledWrites_head whole with ⟨none, -⟩ | first
  · cases none.symm.trans same
  · rw [same] at first
    exact absurd first (by decide)

end BlinkDriver.Hw5
