import BengalTiger.Input
import BengalTiger.Lib.RingBuffer

set_option autoImplicit false

/-!
# The input rings

The events, the characters and the keycodes of `kernel/keyboard.c` and the bytes of
`kernel/serial.c` wait in four ring buffers of 256 slots, whose indices are advanced with a mask.
Each is a queue of capacity 255, and the lists with which the driver is modelled are what the
rings of the keyboard hold.

Two of the four functions that take an element have no result for an empty ring apart from the
elements: `input_poll_event` returns `KEY_NONE` and `keyboard_getchar_nonblock` a NUL. A NUL byte on
the serial line is pushed to both rings and then taken for an empty ring.

## Main definitions

* `Input.ringPush`, `Input.ringPop` — the code that the rings share.
* `Input.eventPush`, `Input.bufferPush`, `Input.keycodePush`,
  `Input.serialRxPush` — the pushes; `Input.pollEvent`,
  `Input.keyboardGetcharNonblock`, `Input.keyboardGetKeycode`,
  `Input.serialPopRxChar` — the pops.
* `Input.IsQueue` — what the callers of a ring see is a queue of capacity 255.

## Main results

* `Input.Rings.queues_push` — the lists of the driver are what the rings hold.
* `Input.rings_are_queues` — the four rings are queues, if no NUL is pushed.
* `Input.nul_taken_for_empty` — a NUL byte is taken for an empty ring.
-/

namespace BengalTiger.Input

open List

variable {α : Type} {size : ℕ}

/-! ## The code -/

/-- `(uint16_t)((i + 1) & (SIZE - 1))`. -/
def nextIndex (size i : ℕ) : ℕ := u16 ((i + 1) &&& (size - 1))

lemma nextIndex_lt {i : ℕ} (h : i < size) : nextIndex size i < size := by
  have hmask : (i + 1) &&& (size - 1) ≤ size - 1 := Nat.and_le_right
  have hmod : nextIndex size i ≤ (i + 1) &&& (size - 1) := Nat.mod_le _ _
  omega

/-- A push to a ring. -/
def ringPush (r : RingBuffer α size) (x : α) : RingBuffer α size :=
  if nextIndex size r.head ≠ r.tail then
    ⟨Function.update r.slots r.head x, nextIndex size r.head, r.tail, nextIndex_lt r.head_lt,
      r.tail_lt⟩
  else r

/-- A pop from a ring; `none` when it is empty. -/
def ringPop (r : RingBuffer α size) : Option α × RingBuffer α size :=
  if r.head = r.tail then (none, r)
  else (some (r.slots r.tail),
    ⟨r.slots, r.head, nextIndex size r.tail, r.head_lt, nextIndex_lt r.tail_lt⟩)

/-- `SERIAL_RX_RING_SIZE`. -/
def serialRxRingSize : ℕ := 256

lemma kbBufferSize_eq : kbBufferSize = 256 := rfl

lemma serialRxRingSize_eq : serialRxRingSize = 256 := rfl

/-- A ring of the keyboard driver. -/
abbrev KbRing (α : Type) := RingBuffer α kbBufferSize

/-- The ring of the serial driver. -/
abbrev SerialRing := RingBuffer UInt8 serialRxRingSize

/-- `event_push`. -/
def eventPush (r : KbRing ℤ) (ev : ℤ) : KbRing ℤ := ringPush r ev

/-- `buffer_push`. -/
def bufferPush (r : KbRing UInt8) (ch : UInt8) : KbRing UInt8 := ringPush r ch

/-- `keycode_push`. -/
def keycodePush (r : KbRing Keycode) (key : Keycode) : KbRing Keycode := ringPush r key

/-- `serial_rx_push`. -/
def serialRxPush (r : SerialRing) (c : UInt8) : SerialRing := ringPush r c

/-- `KEY_NONE`. -/
def keyNone : ℤ := 0

/-- The pop of `input_poll_event`. -/
def pollEvent (r : KbRing ℤ) : ℤ × KbRing ℤ := ((ringPop r).1.getD keyNone, (ringPop r).2)

/-- The pop of `keyboard_getchar_nonblock`. -/
def keyboardGetcharNonblock (r : KbRing UInt8) : UInt8 × KbRing UInt8 :=
  ((ringPop r).1.getD 0, (ringPop r).2)

/-- `keyboard_get_keycode`; `none` for the result 0. -/
def keyboardGetKeycode (r : KbRing Keycode) : Option Keycode × KbRing Keycode := ringPop r

/-- The pop of `serial_pop_rx_char`; `none` for the result 0. -/
def serialPopRxChar (r : SerialRing) : Option UInt8 × SerialRing := ringPop r

/-! ## The rings hold queues -/

/-- The mask is a reduction modulo 256. -/
lemma nextIndex_eq {i : ℕ} (h : i < 256) : nextIndex 256 i = RingBuffer.around 256 (i + 1) := by
  have hmask : (i + 1) &&& (256 - 1) = (i + 1) % 256 := Nat.and_two_pow_sub_one_eq_mod (i + 1) 8
  have hmod := RingBuffer.mod_eq_around (n := 256) (i := i + 1) (by omega)
  unfold nextIndex u16
  omega

lemma ringPush_eq (hsize : size = 256) (r : RingBuffer α size) (x : α) :
    ringPush r x = r.push x := by
  subst hsize
  have hnext := nextIndex_eq r.head_lt
  unfold ringPush RingBuffer.push
  simp only [hnext, ne_eq, ite_not]

lemma ringPop_eq (hsize : size = 256) (r : RingBuffer α size) : ringPop r = r.pop := by
  subst hsize
  have hnext := nextIndex_eq r.tail_lt
  unfold ringPop RingBuffer.pop
  simp only [hnext]

/-- The three rings of the keyboard driver. -/
structure Rings where
  keys : KbRing UInt8
  keycodes : KbRing Keycode
  events : KbRing ℤ

/-- A call of one of the three pushes. -/
def Rings.push (rs : Rings) : Push → Rings
  | .key ch => { rs with keys := bufferPush rs.keys ch }
  | .keycode kc => { rs with keycodes := keycodePush rs.keycodes kc }
  | .event ev => { rs with events := eventPush rs.events ev }

/-- What the rings hold. -/
def Rings.queues (rs : Rings) : Queues := ⟨rs.keys.items, rs.keycodes.items, rs.events.items⟩

lemma items_ringPush (r : KbRing α) (x : α) : (ringPush r x).items = enqueue r.items x := by
  have hroom : r.items.length + 1 < kbBufferSize ↔ r.items.length < kbBufferSize - 1 := by omega
  rw [ringPush_eq kbBufferSize_eq, RingBuffer.items_push, enqueue, Fifo.push]
  simp only [hroom]

/-- **The lists of the driver are what the rings hold.** -/
theorem Rings.queues_push (rs : Rings) (p : Push) : (rs.push p).queues = rs.queues.push p := by
  cases p with
  | key ch => exact congrArg (Queues.mk · _ _) (items_ringPush rs.keys ch)
  | keycode kc => exact congrArg (Queues.mk _ · _) (items_ringPush rs.keycodes kc)
  | event ev => exact congrArg (Queues.mk _ _ ·) (items_ringPush rs.events ev)

/-! ## What the callers see -/

/-- A ring as its callers see it: what a pop reports, `none` for an empty ring. -/
def seen {β : Type} (push : RingBuffer α size → α → RingBuffer α size)
    (pop : RingBuffer α size → β × RingBuffer α size) (report : β → Option α)
    (r : RingBuffer α size) : Fifo.Op α → RingBuffer α size × List (Option α)
  | .push x => (push r x, [])
  | .pop => ((pop r).2, [report (pop r).1])

/-- A result that is an element, unless it is the one for an empty ring. -/
def orEmpty [DecidableEq α] (empty v : α) : Option α := if v = empty then none else some v

/-- `event_push` and the pop of `input_poll_event`. -/
def eventRing : KbRing ℤ → Fifo.Op ℤ → KbRing ℤ × List (Option ℤ) :=
  seen eventPush pollEvent (orEmpty keyNone)

/-- `buffer_push` and `keyboard_getchar_nonblock`. -/
def keyRing : KbRing UInt8 → Fifo.Op UInt8 → KbRing UInt8 × List (Option UInt8) :=
  seen bufferPush keyboardGetcharNonblock (orEmpty 0)

/-- `keycode_push` and `keyboard_get_keycode`. -/
def keycodeRing : KbRing Keycode → Fifo.Op Keycode → KbRing Keycode × List (Option Keycode) :=
  seen keycodePush keyboardGetKeycode id

/-- `serial_rx_push` and `serial_pop_rx_char`. -/
def serialRing : SerialRing → Fifo.Op UInt8 → SerialRing × List (Option UInt8) :=
  seen serialRxPush serialPopRxChar id

/-- **What the callers see is a queue of capacity 255**: in the run of some pushes and pops the
pops report what those of the queue return, and the ring holds what the queue holds. So the elements
that were pushed while fewer than 255 were held have come out in order, but for those still held. -/
structure IsQueue (ring : RingBuffer α size → Fifo.Op α → RingBuffer α size × List (Option α))
    (r : RingBuffer α size) (ops : List (Fifo.Op α)) : Prop where
  reports : (Mealy.run ring r ops).2 = (Fifo.run 255 [] ops).2
  holds : (Mealy.run ring r ops).1.items = (Fifo.run 255 [] ops).1
  conserves : Fifo.accepted 255 [] ops =
    (Mealy.run ring r ops).2.reduceOption ++ (Mealy.run ring r ops).1.items

/-- The reports are those of a queue, seen through a map. -/
lemma run_seen {β : Type} (hsize : size = 256) {pop : RingBuffer α size → β × RingBuffer α size}
    {report : β → Option α} (f : Option α → Option α)
    (hpop : ∀ r, report (pop r).1 = f (ringPop r).1 ∧ (pop r).2 = (ringPop r).2)
    {r : RingBuffer α size} (hr : r.head = r.tail) (ops : List (Fifo.Op α)) :
    (Mealy.run (seen ringPush pop report) r ops).2 = (Fifo.run 255 [] ops).2.map f ∧
      (Mealy.run (seen ringPush pop report) r ops).1.items = (Fifo.run 255 [] ops).1 := by
  have hstep : ∀ (r : RingBuffer α size) op, seen ringPush pop report r op =
      ((RingBuffer.step r op).1, (RingBuffer.step r op).2.map f) := by
    intro r op
    cases op with
    | push x => exact congrArg (·, []) (ringPush_eq hsize r x)
    | pop =>
      obtain ⟨hreport, hnext⟩ := hpop r
      simp only [seen, RingBuffer.step, map_cons, map_nil, hreport, hnext, ringPop_eq hsize]
  have hrun := RingBuffer.run_eq r ops
  rw [RingBuffer.items_eq_nil hr, Prod.ext_iff] at hrun
  subst hsize
  rw [Mealy.run_of_map f hstep]
  exact ⟨congrArg (List.map f) hrun.2, hrun.1⟩

/-- What a queue returns was pushed. -/
lemma mem_pushed {cap : ℕ} {ops : List (Fifo.Op α)} {x : α}
    (h : some x ∈ (Fifo.run cap [] ops).2) : .push x ∈ ops := by
  have haccepted : x ∈ Fifo.accepted cap [] ops := by
    have heq := Fifo.accepted_eq cap [] ops
    rw [nil_append] at heq
    rw [heq]
    exact mem_append_left _ (reduceOption_mem_iff.2 h)
  have hall : ∀ (ops : List (Fifo.Op α)) (q : List α), x ∈ Fifo.accepted cap q ops →
      .push x ∈ ops := by
    intro ops
    induction ops with
    | nil => exact fun q hx => absurd hx not_mem_nil
    | cons op ops ih =>
      intro q hx
      cases op with
      | push y =>
        rw [Fifo.accepted, mem_append] at hx
        rcases hx with hx | hx
        · split_ifs at hx
          · rw [mem_singleton.1 hx]
            exact mem_cons_self
          · exact absurd hx not_mem_nil
        · exact mem_cons_of_mem _ (ih _ hx)
      | pop => exact mem_cons_of_mem _ (ih _ hx)
  exact hall ops [] haccepted

/-- A ring is a queue, if its callers can tell the elements that are pushed from an empty ring. -/
lemma isQueue_of_seen {β : Type} (hsize : size = 256)
    {pop : RingBuffer α size → β × RingBuffer α size} {report : β → Option α}
    (f : Option α → Option α)
    (hpop : ∀ r, report (pop r).1 = f (ringPop r).1 ∧ (pop r).2 = (ringPop r).2)
    {r : RingBuffer α size} (hr : r.head = r.tail) {ops : List (Fifo.Op α)} (hnone : f none = none)
    (hsome : ∀ x, .push x ∈ ops → f (some x) = some x) :
    IsQueue (seen ringPush pop report) r ops := by
  obtain ⟨hreports, hholds⟩ := run_seen hsize f hpop hr ops
  have hmap : (Fifo.run 255 [] ops).2.map f = (Fifo.run 255 [] ops).2 := by
    refine (map_congr_left fun o ho => ?_).trans (map_id _)
    cases o with
    | none => exact hnone
    | some x => exact hsome x (mem_pushed ho)
  rw [hmap] at hreports
  refine ⟨hreports, hholds, ?_⟩
  have hconserves := Fifo.accepted_eq 255 [] ops
  rw [nil_append] at hconserves
  rw [hreports, hholds, hconserves]

/-- An element is told from an empty ring, unless it is the result for one. -/
lemma orEmpty_of_push [DecidableEq α] {empty : α} {ops : List (Fifo.Op α)}
    (hops : .push empty ∉ ops) (x : α) (hx : .push x ∈ ops) :
    orEmpty empty ((some x).getD empty) = some x := by
  have hne : x ≠ empty := by
    rintro rfl
    exact hops hx
  exact if_neg hne

/-- **The input rings are queues of capacity 255** for every sequence of pushes and pops, those of
the events and characters if no NUL is pushed to them. -/
theorem rings_are_queues {events : KbRing ℤ} {keys : KbRing UInt8} {keycodes : KbRing Keycode}
    {rx : SerialRing} (hevents : events.head = events.tail) (hkeys : keys.head = keys.tail)
    (hkeycodes : keycodes.head = keycodes.tail) (hrx : rx.head = rx.tail) :
    (∀ ops, .push keyNone ∉ ops → IsQueue eventRing events ops) ∧
      (∀ ops, .push 0 ∉ ops → IsQueue keyRing keys ops) ∧
      (∀ ops, IsQueue keycodeRing keycodes ops) ∧ ∀ ops, IsQueue serialRing rx ops := by
  refine ⟨fun ops hops => ?_, fun ops hops => ?_, fun ops => ?_, fun ops => ?_⟩
  · refine isQueue_of_seen kbBufferSize_eq (fun o => orEmpty keyNone (o.getD keyNone))
      (fun r => ?_) hevents rfl (orEmpty_of_push hops)
    exact ⟨rfl, rfl⟩
  · refine isQueue_of_seen kbBufferSize_eq (fun o => orEmpty 0 (o.getD 0)) (fun r => ?_) hkeys rfl
      (orEmpty_of_push hops)
    exact ⟨rfl, rfl⟩
  · refine isQueue_of_seen kbBufferSize_eq id (fun r => ?_) hkeycodes rfl fun _ _ => rfl
    exact ⟨rfl, rfl⟩
  · refine isQueue_of_seen serialRxRingSize_eq id (fun r => ?_) hrx rfl fun _ _ => rfl
    exact ⟨rfl, rfl⟩

/-- A ring after its initialisation. -/
def initRing (x : α) : RingBuffer α 256 :=
  ⟨fun _ => x, 0, 0, Nat.zero_lt_succ 255, Nat.zero_lt_succ 255⟩

/-- A keycode for the rings below. -/
def someKeycode : Keycode := ⟨65, 30, ⟨false, false, false, false, true, false⟩⟩

/-- The pushes and pops of a burst: 256 elements, the last of which finds the ring full, are pushed
and read, one pop more than there are; then two elements go around the end of the array. -/
def burst (f : ℕ → α) : List (Fifo.Op α) :=
  (List.range 256).map (fun i => .push (f i)) ++ List.replicate 256 .pop ++
    [.push (f 256), .push (f 257), .pop, .pop]

/-- A burst in all four rings, and what comes out of one of them. -/
theorem rings_are_queues_burst :
    (Mealy.run keyRing (initRing 0) (burst fun i => UInt8.ofNat (i % 100 + 1))).2 =
      (List.range 255).map (fun i => some (UInt8.ofNat (i % 100 + 1))) ++ [none, some 57, some 58] ∧
      IsQueue eventRing (initRing 0) (burst fun i => (i + 1 : ℕ)) ∧
      IsQueue keyRing (initRing 0) (burst fun i => UInt8.ofNat (i % 100 + 1)) ∧
      IsQueue keycodeRing (initRing someKeycode) (burst fun _ => someKeycode) ∧
      IsQueue serialRing (initRing 0) (burst UInt8.ofNat) := by
  obtain ⟨hevents, hkeys, hkeycodes, hrx⟩ :=
    @rings_are_queues (initRing 0) (initRing 0) (initRing someKeycode) (initRing 0) rfl rfl rfl rfl
  have hnul : .push 0 ∉ burst fun i => UInt8.ofNat (i % 100 + 1) := by
    decide +kernel
  have hnone : .push keyNone ∉ burst fun i => ((i + 1 : ℕ) : ℤ) := by
    decide +kernel
  refine ⟨?_, hevents _ hnone, hkeys _ hnul, hkeycodes _, hrx _⟩
  rw [(hkeys _ hnul).reports]
  decide +kernel

/-- **A NUL byte on the serial line is taken for an empty ring.** It is pushed to the rings of
the characters and of the events, and then a pop reports an empty ring although two elements are
held. -/
theorem nul_taken_for_empty :
    (ansiStep ⟨.ground, 0⟩ 0).2 = [.key 0, .event 0] ∧
      (Mealy.run eventRing (initRing 0) [.push 0, .push 65]).1.items = [0, 65] ∧
      (Mealy.run eventRing (initRing 0) [.push 0, .push 65, .pop, .pop]).2 = [none, some 65] ∧
      (Mealy.run keyRing (initRing 0) [.push 0, .push 65]).1.items = [0, 65] ∧
      (Mealy.run keyRing (initRing 0) [.push 0, .push 65, .pop, .pop]).2 = [none, some 65] ∧
      ¬IsQueue eventRing (initRing 0) [.push 0, .push 65, .pop, .pop] ∧
      ¬IsQueue keyRing (initRing 0) [.push 0, .push 65, .pop, .pop] := by
  refine ⟨rfl, by decide, by decide, by decide, by decide, fun h => ?_, fun h => ?_⟩
  · exact absurd h.reports (by decide)
  · exact absurd h.reports (by decide)

end BengalTiger.Input
