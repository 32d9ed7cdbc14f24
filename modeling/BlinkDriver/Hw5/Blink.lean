import BlinkDriver.Hw5.Sequential
import Mathlib.Data.List.Chain

/-!
# Whether the LED blinks

`my_callback` writes the value of `mydev.LED` with bit 7 toggled, and every open
sets `mydev.LED` to zero without a write of `LEDCTL`. An open that comes while
the bit is set makes the next callback write the bit once more.

`alternates_iff` says that consecutive writes of `my_callback` differ in bit 7
exactly if no expiry comes after such an open.
-/

namespace BlinkDriver.Hw5

open CharDev Transition

/-- Bit 7 of `LEDCTL`, which lights LED 0. -/
def Lit {w : Nat} (v : BitVec w) : Bool := v.getLsbD 7

/-- What `my_callback` writes in a step, if it runs. -/
def ledWrite (g : Globals) : Event → Option (BitVec 32)
  | .expire => some ((callbackCall g).led.setWidth 32)
  | _ => none

/-- What `my_callback` has written, oldest first. -/
def ledWrites (trace : List (Globals × Event)) : List (BitVec 32) :=
  trace.filterMap fun p => ledWrite p.1 p.2

/-- Consecutive writes of `my_callback` differ in bit 7. -/
def Alternates (trace : List (Globals × Event)) : Prop :=
  (ledWrites trace).IsChain fun v w => Lit v ≠ Lit w

/-- An open that finds bit 7 of `mydev.LED` set. -/
def ClearsLit (p : Globals × Event) : Prop := p.2 = .openFile ∧ Lit p.1.led = true

/-- No expiry comes after an open that finds bit 7 of `mydev.LED` set. -/
def NoLateExpiry (trace : List (Globals × Event)) : Prop :=
  ∀ front p back, trace = front ++ p :: back → ClearsLit p → ∀ q ∈ back, q.2 ≠ .expire

/-! ## One event -/

theorem lit_setWidth (v : BitVec 64) : Lit (v.setWidth 32) = Lit v := by
  simp [Lit]

theorem lit_toggle (v : BitVec 64) : Lit (v ^^^ 0x80) = !Lit v := by
  have bit : (0x80 : BitVec 64).getLsbD 7 = true := by decide
  rw [Lit, BitVec.getLsbD_xor, bit, Bool.xor_true]
  rfl

theorem callbackCall_led (g : Globals) : (callbackCall g).led = g.led ^^^ 0x80 := rfl

theorem openCall_led (g : Globals) : (openCall g).led = 0 := by
  unfold openCall
  dsimp only
  split <;> rfl

/-- Only an open and an expiry touch `mydev.LED`. -/
theorem callStep_led {g g' : Globals} {e : Event} (edge : callStep g e = some g')
    (noOpen : e ≠ .openFile) (noExpiry : e ≠ .expire) : g'.led = g.led := by
  cases e with
  | setParam blinkRate => cases edge; rfl
  | openFile => exact (noOpen rfl).elim
  | read a offset =>
      cases edge
      rw [readCall_fst]
  | write a =>
      cases edge
      rw [writeCall_fst]
  | expire => exact (noExpiry rfl).elim

theorem callStep_expire_led {g g' : Globals} (edge : callStep g .expire = some g') :
    g'.led = g.led ^^^ 0x80 := by
  obtain ⟨timer, -, rfl⟩ := Option.map_eq_some_iff.mp edge
  rfl

/-! ## One event more -/

section Snoc

variable {trace : List (Globals × Event)} {q : Globals × Event}

theorem ledWrites_snoc_other (other : q.2 ≠ .expire) :
    ledWrites (trace ++ [q]) = ledWrites trace := by
  obtain ⟨g, e⟩ := q
  have none : ledWrite g e = none := by
    cases e with
    | expire => exact (other rfl).elim
    | _ => rfl
  simp [ledWrites, none]

theorem ledWrites_snoc_expire (expires : q.2 = .expire) :
    ledWrites (trace ++ [q]) = ledWrites trace ++ [(callbackCall q.1).led.setWidth 32] := by
  simp [ledWrites, expires, ledWrite]

theorem noLateExpiry_snoc : NoLateExpiry (trace ++ [q]) ↔
    NoLateExpiry trace ∧ (q.2 = .expire → ∀ p ∈ trace, ¬ ClearsLit p) := by
  constructor
  · intro late
    constructor
    · intro front p back split clears r member
      refine late front p (back ++ [q]) ?_ clears r (List.mem_append_left _ member)
      rw [split, List.append_assoc, List.cons_append]
    · intro expires p member clears
      obtain ⟨front, back, split⟩ := List.append_of_mem member
      refine late front p (back ++ [q]) ?_ clears q ?_ expires
      · rw [split, List.append_assoc, List.cons_append]
      · exact List.mem_append_right _ (List.mem_singleton_self q)
  · rintro ⟨late, last⟩ front p back split clears r member
    rcases List.eq_nil_or_concat back with rfl | ⟨rest, z, rfl⟩
    · exact absurd member List.not_mem_nil
    · rw [List.concat_eq_append, ← List.cons_append, ← List.append_assoc] at split
      obtain ⟨before, same⟩ := List.append_inj' split rfl
      cases same
      rw [List.concat_eq_append, List.mem_append, List.mem_singleton] at member
      rcases member with early | rfl
      · exact late front p rest before clears r early
      · intro expires
        refine last expires p ?_ clears
        rw [before]
        exact List.mem_append_right _ (List.mem_cons_self ..)

end Snoc

/-! ## Whole runs -/

/-- Bit 7 of the last write; it is clear at first. -/
def lastLit (trace : List (Globals × Event)) : Bool :=
  ((ledWrites trace).getLast?.map Lit).getD false

/-- As long as no expiry comes late, bit 7 of `mydev.LED` is that of the last
write, or an open has cleared it since. -/
def Shadows (trace : List (Globals × Event)) (g : Globals) : Prop :=
  ((∀ p ∈ trace, ¬ ClearsLit p) ∧ Lit g.led = lastLit trace) ∨
    ((∃ p ∈ trace, ClearsLit p) ∧ Lit g.led = false ∧ lastLit trace = true)

theorem lastLit_snoc_expire {trace : List (Globals × Event)} (g : Globals) :
    lastLit (trace ++ [(g, .expire)]) = !Lit g.led := by
  rw [lastLit, ledWrites_snoc_expire rfl, List.getLast?_concat]
  exact (lit_setWidth _).trans (lit_toggle g.led)

section Runs

variable {ledctl blinkRate : BitVec 32} {hwAddr : HwAddr} {g : Globals}
  {trace : List (Globals × Event)}

theorem Shadows.snoc {g' : Globals} {e : Event} (shadows : Shadows trace g)
    (edge : callStep g e = some g') (onTime : e = .expire → ∀ p ∈ trace, ¬ ClearsLit p) :
    Shadows (trace ++ [(g, e)]) g' := by
  simp only [Shadows, List.mem_append, List.mem_singleton, or_imp, forall_and, forall_eq]
  by_cases expires : e = .expire
  · subst expires
    refine Or.inl ⟨⟨onTime rfl, fun clears => by cases clears.1⟩, ?_⟩
    rw [callStep_expire_led edge, lit_toggle, lastLit_snoc_expire]
  · have same : lastLit (trace ++ [(g, e)]) = lastLit trace := by
      rw [lastLit, ledWrites_snoc_other expires, lastLit]
    rw [same]
    by_cases opens : e = .openFile
    · subst opens
      cases edge
      have dark : Lit (openCall g).led = false := by
        rw [openCall_led]
        rfl
      rcases shadows with ⟨early, agree⟩ | ⟨⟨p, member, clears⟩, -, last⟩
      · cases lit : Lit g.led with
        | true => exact Or.inr ⟨⟨_, Or.inr rfl, rfl, lit⟩, dark, agree.symm.trans lit⟩
        | false =>
            refine Or.inl ⟨⟨early, fun clears => ?_⟩, ?_⟩
            · exact absurd (lit.symm.trans clears.2) nofun
            · rw [dark, ← agree, lit]
      · exact Or.inr ⟨⟨p, Or.inl member, clears⟩, dark, last⟩
    · rw [callStep_led edge opens expires]
      rcases shadows with ⟨early, agree⟩ | ⟨⟨p, member, clears⟩, dark, last⟩
      · exact Or.inl ⟨⟨early, fun clears => opens clears.1⟩, agree⟩
      · exact Or.inr ⟨⟨p, Or.inl member, clears⟩, dark, last⟩

theorem shadows_of_run (run : Run callStep (.started ledctl blinkRate hwAddr) trace g)
    (late : NoLateExpiry trace) : Shadows trace g := by
  induction run with
  | refl =>
      have dark : Lit (0 : BitVec 64) = false := by decide
      exact Or.inl ⟨fun p member => absurd member List.not_mem_nil, dark⟩
  | snoc _ edge ih =>
      obtain ⟨before, last⟩ := noLateExpiry_snoc.mp late
      exact (ih before).snoc edge last

/-- One more write, if none came late so far. -/
theorem Shadows.next_iff (shadows : Shadows trace g) :
    (∀ v ∈ (ledWrites trace).getLast?, Lit v ≠ !Lit g.led) ↔ ∀ p ∈ trace, ¬ ClearsLit p := by
  rcases shadows with ⟨early, agree⟩ | ⟨⟨p, member, clears⟩, dark, last⟩
  · refine ⟨fun _ => early, fun _ v written => ?_⟩
    rw [lastLit, written] at agree
    simp [agree]
  · refine ⟨fun differs => ?_, fun early => (early p member clears).elim⟩
    rw [lastLit] at last
    cases written : (ledWrites trace).getLast? with
    | none =>
        rw [written] at last
        cases last
    | some v =>
        rw [written] at last
        refine absurd ?_ (differs v written)
        rw [dark]
        exact last

/-- **The LED blinks as long as no open clears its shadow.** In every run of any
length over opens, reads, writes, stores to the parameter and expiries, the
writes of `LEDCTL` by `my_callback` alternate in bit 7 exactly if no expiry comes
after an open that finds bit 7 of `mydev.LED` set. -/
theorem alternates_iff (run : Run callStep (.started ledctl blinkRate hwAddr) trace g) :
    Alternates trace ↔ NoLateExpiry trace := by
  induction run with
  | refl => exact ⟨fun _ _ _ _ split => by simp at split, fun _ => .nil⟩
  | @snoc trace a b e before edge ih =>
      rw [noLateExpiry_snoc]
      by_cases expires : e = .expire
      · subst expires
        rw [Alternates, ledWrites_snoc_expire rfl, List.isChain_append]
        constructor
        · rintro ⟨chain, -, differs⟩
          have late := ih.mp chain
          refine ⟨late, fun _ => (shadows_of_run before late).next_iff.mp fun v written => ?_⟩
          have differ := differs v written _ rfl
          rwa [lit_setWidth, callbackCall_led, lit_toggle] at differ
        · rintro ⟨late, early⟩
          refine ⟨ih.mpr late, .singleton _, fun v written w same => ?_⟩
          cases same
          rw [lit_setWidth, callbackCall_led, lit_toggle]
          exact (shadows_of_run before late).next_iff.mpr (early rfl) v written
      · rw [Alternates, ledWrites_snoc_other expires]
        exact ⟨fun chain => ⟨ih.mp chain, fun same => (expires same).elim⟩,
          fun both => ih.mpr both.1⟩

end Runs

/-- An open, two expiries, another open and another expiry: no expiry is late. -/
theorem alternates_when_dark :
    ∃ g trace, Run callStep (.started 0 2 .mapped) trace g ∧ g.ledctl = 0x80 ∧
      NoLateExpiry trace := by
  obtain ⟨g, trace, run, lit, written⟩ := Run.of_traced_any callStep (.started 0 2 .mapped)
    [.openFile, .expire, .expire, .openFile, .expire]
    (fun r => r.2.ledctl = 0x80 ∧ ledWrites r.1 = [0x80, 0, 0x80]) (by decide +kernel)
  have alternates : Alternates trace := by
    rw [Alternates, written]
    decide
  exact ⟨g, trace, run, lit, (alternates_iff run).mp alternates⟩

/-- An open between two expiries: the callback writes `0x80` twice. -/
theorem led_written_twice :
    ∃ g trace, Run callStep (.started 0 2 .mapped) trace g ∧ ¬ Alternates trace := by
  obtain ⟨g, trace, run, written⟩ := Run.of_traced_any callStep (.started 0 2 .mapped)
    [.openFile, .expire, .openFile, .expire] (fun r => ledWrites r.1 = [0x80, 0x80])
    (by decide +kernel)
  refine ⟨g, trace, run, ?_⟩
  rw [Alternates, written]
  decide

end BlinkDriver.Hw5
