import BlinkDriver.Lib.Numeral
import Mathlib.Data.List.Infix

/-!
# Starting the LED monitor

`main` of `ledmon.c` up to `open_dev`: it checks its arguments and what `ip` and
`lspci` print, and maps the device's registers at the address that a third command
prints. That address is read into ten bytes. `maps_bar_iff` says for which devices
the address mapped is the one printed: those below 64 GiB.
-/

namespace BlinkDriver.LedMon

open Numeral

/-- What `getopt` returns. -/
inductive Opt where
  | loop
  | slot (optarg : List Char)
  | version
  | unknown

/-- What `main` finds: its user, its arguments, and the output of a command, none if
`popen` fails. -/
structure Env where
  uid : Nat
  args : Bool
  options : List Opt
  port : Option (List Char)
  popen : List Char → Option (List Char)

/-- The globals and locals that the options set. -/
structure Options where
  pciBusSlot : Option (List Char)
  readloop : Bool

/-- What is passed to `open_dev`, and what the loop is run with. -/
structure Start where
  baseAddr : Int
  pciBusSlot : List Char
  readloop : Bool
  deriving DecidableEq

/-- `exit(1)` unless the condition holds. -/
def ensure (condition : Bool) : Except Int Unit := if condition then .ok () else .error 1

/-- The output of a command; `exit(1)` if it cannot be run. -/
def Env.output (env : Env) (command : List Char) : Except Int (List Char) :=
  match env.popen command with
  | some out => .ok out
  | none => .error 1

/-- `snprintf` into the 128 bytes of `buf`. -/
def snprintf (text : List Char) : List Char := text.take 127

def linkCommand (portname : List Char) : List Char :=
  snprintf ("ip -br link show ".toList ++ portname)

def entryCommand (slot : List Char) : List Char := snprintf ("lspci -s ".toList ++ slot)

def barCommand (slot : List Char) : List Char :=
  snprintf ("lspci -s ".toList ++ slot ++
    " -v | awk '/Memory at/ \x7b print $3 \x7d' | head -1".toList)

/-- One turn of the loop over the options. -/
def option (options : Options) : Opt → Except Int Options
  | .loop => .ok { options with readloop := true }
  | .slot optarg => .ok { options with pciBusSlot := some optarg }
  | .version => .error 0
  | .unknown => .error 1

/-- The check of the port. A command without output leaves the command in `buf`. -/
def checkPort (env : Env) : Except Int Unit :=
  match env.port with
  | none => .ok ()
  | some portname => do
      let out ← env.output (linkCommand portname)
      let buf := (fgets 128 out).getD (linkCommand portname)
      ensure (portname.isPrefixOf buf)

/-- `main` up to `open_dev`; an error is an exit code. -/
def main (env : Env) : Except Int Start := do
  ensure (env.uid = 0)
  ensure env.args
  let options ← env.options.foldlM option ⟨none, false⟩
  checkPort env
  match options.pciBusSlot with
  | none => .error 1
  | some slot =>
      let entry ← env.output (entryCommand slot)
      let pciEntry := (fgets 128 entry).getD []
      let len := pciEntry.length
      ensure (len > 1)
      ensure ("Ethernet controller".toList <:+: pciEntry ∧ "Intel".toList <:+: pciEntry)
      let bar ← env.output (barCommand slot)
      let addrStr := (fgets 10 bar).getD []
      let baseAddr := strtol 16 addrStr
      -- `len` is still that of `pci_entry`
      ensure (len > 1)
      return ⟨baseAddr, slot, options.readloop⟩

/-! ## What a start has gone through -/

theorem ok_of_bind {α β : Type} {first : Except Int α} {rest : α → Except Int β} {b : β}
    (done : (do rest (← first)) = .ok b) : ∃ a, first = .ok a ∧ rest a = .ok b := by
  rcases first with code | a
  · cases done
  · exact ⟨a, rfl, done⟩

theorem ensure_ok {condition : Bool} {u : Unit} (done : ensure condition = .ok u) :
    condition = true := by
  unfold ensure at done
  split at done
  · assumption
  · cases done

theorem output_ok {env : Env} {command out : List Char} (done : env.output command = .ok out) :
    env.popen command = some out := by
  unfold Env.output at done
  split at done
  · cases done
    assumption
  · cases done

/-- What is mapped is what the third command prints, cut to nine characters, for a
device whose line in the list says that it is an Intel Ethernet controller. -/
theorem main_ok {env : Env} {start : Start} (done : main env = .ok start) :
    ∃ entry bar, env.uid = 0 ∧ env.popen (entryCommand start.pciBusSlot) = some entry ∧
      "Ethernet controller".toList <:+: (fgets 128 entry).getD [] ∧
      "Intel".toList <:+: (fgets 128 entry).getD [] ∧
      env.popen (barCommand start.pciBusSlot) = some bar ∧
      start.baseAddr = strtol 16 ((fgets 10 bar).getD []) := by
  rcases ok_of_bind done with ⟨_, root, done⟩
  rcases ok_of_bind done with ⟨_, _, done⟩
  rcases ok_of_bind done with ⟨options, _, done⟩
  rcases ok_of_bind done with ⟨_, _, done⟩
  cases given : options.pciBusSlot with
  | none =>
      rw [given] at done
      cases done
  | some slot =>
      rw [given] at done
      rcases ok_of_bind done with ⟨entry, listed, done⟩
      rcases ok_of_bind done with ⟨_, _, done⟩
      rcases ok_of_bind done with ⟨_, right, done⟩
      rcases ok_of_bind done with ⟨bar, printed, done⟩
      rcases ok_of_bind done with ⟨_, _, done⟩
      cases done
      rcases of_decide_eq_true (ensure_ok right) with ⟨ethernet, intel⟩
      exact ⟨entry, bar, of_decide_eq_true (ensure_ok root), output_ok listed, ethernet, intel,
        output_ok printed, rfl⟩

/-- A line is not the end of the file. -/
theorem fgets_line (size : Nat) (text : List Char) :
    (fgets size (text ++ ['\n'])).getD [] = line (size - 1) (text ++ ['\n']) := by
  unfold fgets
  split
  · rename_i empty
    simp at empty
  · rfl

/-- **Which address is mapped.** If the command prints the address `a` in hexadecimal,
with leading zeros up to at most nine digits, the monitor maps `a` exactly if `a` is
below `2 ^ 36`. -/
theorem maps_bar_iff {env : Env} {start : Start} (done : main env = .ok start) {a w : Nat}
    (width : w ≤ 9)
    (printed : env.popen (barCommand start.pciBusSlot) = some (numeral 16 w a ++ ['\n'])) :
    start.baseAddr = a ↔ a < 2 ^ 36 := by
  rcases main_ok done with ⟨entry, bar, -, -, -, -, output, base⟩
  rw [printed] at output
  cases output
  rw [base, fgets_line, strtol_line_numeral (by decide) (by decide) (by decide), Nat.cast_inj]
  have digits := lt_length_digits_iff (b := 16) (n := a) (by decide) 9
  have length := length_numeral (b := 16) (w := w) (n := a)
  constructor
  · intro same
    by_contra large
    have long : 9 < (Nat.digits 16 a).length := digits.mpr (by omega)
    have cut : 0 < (numeral 16 w a).length - (10 - 1) := by omega
    have smaller : a / 16 ^ ((numeral 16 w a).length - (10 - 1)) < a :=
      Nat.div_lt_self (by omega) (Nat.one_lt_pow cut.ne' (by decide))
    omega
  · intro small
    have short : ¬ 9 < (Nat.digits 16 a).length := fun long => by
      have big := digits.mp long
      omega
    have whole : (numeral 16 w a).length - (10 - 1) = 0 := by omega
    rw [whole, pow_zero, Nat.div_one]

/-- An 82540EM in slot 02:01.0 with its registers at `f2200000`. -/
theorem maps_bar_82540em :
    ∃ env start, main env = .ok start ∧ start.baseAddr = (0xf2200000 : Nat) := by
  let slot := "02:01.0".toList
  let entry := "02:01.0 Ethernet controller: Intel Corporation 82540EM\n".toList
  let popen := fun command : List Char =>
    if command = entryCommand slot then some entry
    else if command = barCommand slot then some (numeral 16 8 0xf2200000 ++ ['\n'])
    else none
  have done : main ⟨0, true, [.slot slot], none, popen⟩ =
      .ok ⟨0xf2200000, slot, false⟩ := by
    decide +kernel
  exact ⟨_, _, done, (maps_bar_iff done (w := 8) (by decide)
    (by decide +kernel)).mpr (by decide)⟩

end BlinkDriver.LedMon
