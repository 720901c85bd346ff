import BengalTiger.CString
import BengalTiger.Keyboard
import BengalTiger.Lib.Mealy

set_option autoImplicit false

/-!
# The input driver

`kernel/keyboard.c` turns the scancodes of the keyboard and the bytes of the serial line into
events. Both end up in the same queues of 255 places, where a push to a full queue is lost. The
keyboard is interpreted by `keyboard_handler`, one call for every byte from the controller; the
bytes of the serial line by the small parser of terminal escape sequences in `pump_serial_events`.

The parser is a machine whose outputs are the pushes that the code makes, so that what a part of the
stream produces can be said without regard to the room in the queues.

## Main definitions

* `Input.Driver` — the state of the driver.
* `Input.Driver.keyboardHandler`, `Input.Driver.pumpSerialEvents` — the
  code.
* `Input.Consumed` — a control sequence gives at most one event, that of its key.
* `Input.calls`, `Input.Tracks` — the calls for a sequence of keys, and that
  the flags show which modifier keys are held.

## Main results

* `Input.consumed_iff` — which control sequences are consumed whole.
* `Input.tracks_iff` — when the flags follow the keys.
-/

namespace BengalTiger.Input

open Function List

/-! ## The queues -/

/-- `keyboard_modifiers_t`. -/
structure Modifiers where
  shift : Bool
  ctrl : Bool
  alt : Bool
  caps : Bool
  num : Bool
  scroll : Bool
  deriving DecidableEq

/-- `keycode_t`. -/
structure Keycode where
  ascii : UInt8
  scancode : UInt8
  mods : Modifiers

/-- The three ring buffers; a ring of `KB_BUFFER_SIZE` slots holds one entry less. -/
structure Queues where
  keys : List UInt8
  keycodes : List Keycode
  events : List ℤ

/-- `KB_BUFFER_SIZE`. -/
def kbBufferSize : ℕ := 256

/-- A push to a ring buffer, which is lost when the ring is full. -/
def enqueue {α : Type} (q : List α) (x : α) : List α :=
  if q.length + 1 < kbBufferSize then q ++ [x] else q

/-- A call of `buffer_push`, `keycode_push` or `event_push`. -/
inductive Push where
  | key (ch : UInt8)
  | keycode (kc : Keycode)
  | event (ev : ℤ)

/-- What a push does. -/
def Queues.push (q : Queues) : Push → Queues
  | .key ch => { q with keys := enqueue q.keys ch }
  | .keycode kc => { q with keycodes := enqueue q.keycodes kc }
  | .event ev => { q with events := enqueue q.events ev }

/-! ## The parser of the serial line -/

/-- The values of `ansi_state`. -/
inductive AnsiState where
  | ground
  | escape
  | bracket
  deriving DecidableEq

/-- `ansi_state` and `ansi_param`. -/
structure Ansi where
  state : AnsiState
  param : UInt8
  deriving DecidableEq

/-- A character that is typed: carriage return and DEL are replaced. -/
def typed (c : UInt8) : List Push :=
  let c := if c = 13 then 10 else c
  let c := if c = 0x7F then 8 else c
  [.key c, .event c.toNat]

/-- The key of a sequence that ends in a tilde, by the last digit before it. -/
def tildeKey (param : UInt8) : Option ℤ :=
  if param = 0x31 ∨ param = 0x37 then some keyHome
  else if param = 0x33 then some keyDelete
  else if param = 0x34 ∨ param = 0x38 then some keyEnd
  else if param = 0x35 then some keyPgUp
  else if param = 0x36 then some keyPgDn
  else none

/-- The key of a sequence that ends in another byte. -/
def letterKey (c : UInt8) : Option ℤ :=
  if c = 0x41 then some keyUp
  else if c = 0x42 then some keyDown
  else if c = 0x43 then some keyRight
  else if c = 0x44 then some keyLeft
  else if c = 0x48 then some keyHome
  else if c = 0x46 then some keyEnd
  else none

/-- The pushes for a key. -/
def pressed (key : Option ℤ) : List Push := key.toList.map .event

/-- The body of the loop of `pump_serial_events`. -/
def ansiStep (a : Ansi) (c : UInt8) : Ansi × List Push :=
  match a.state with
  | .ground => if c = 27 then ({ a with state := .escape }, []) else (a, typed c)
  | .escape =>
    if c = 0x5B ∨ c = 0x4F then (⟨.bracket, 0⟩, [])
    else ({ a with state := .ground }, .event 27 :: typed c)
  | .bracket =>
    if 0x30 ≤ c ∧ c ≤ 0x39 then ({ a with param := c }, [])
    else if c = 0x7E then ({ a with state := .ground }, pressed (tildeKey a.param))
    else ({ a with state := .ground }, pressed (letterKey c))

/-! ## The driver -/

/-- The state of the driver. -/
structure Driver where
  mods : Modifiers
  queues : Queues
  e0Prefix : Bool
  ansi : Ansi

/-- `scancode_lower`; the entries behind the list are zero. -/
def scancodeLower : List UInt8 :=
  [0, 27] ++ ascii "1234567890-=".toList ++ [8, 9] ++ ascii "qwertyuiop[]".toList ++ [10, 0] ++
    ascii "asdfghjkl;'`".toList ++ [0] ++ ascii "\\zxcvbnm,./".toList ++ [0] ++ ascii "*".toList ++
    [0] ++ ascii " ".toList ++ List.replicate 13 0 ++ ascii "789-456+1230.".toList

/-- `scancode_upper`. -/
def scancodeUpper : List UInt8 :=
  [0, 27] ++ ascii "!@#$%^&*()_+".toList ++ [8, 9] ++ ascii "QWERTYUIOP\x7b\x7d".toList ++
    [10, 0] ++ ascii "ASDFGHJKL:\"~".toList ++ [0] ++ ascii "|ZXCVBNM<>?".toList ++ [0] ++
    ascii "*".toList ++ [0] ++ ascii " ".toList ++ List.replicate 13 0 ++
    ascii "789-456+1230.".toList

/-- `scancode_to_ascii`. -/
def scancodeToAscii (mods : Modifiers) (scancode : UInt8) : UInt8 :=
  if scancode ≥ 128 then 0
  else
    let useUpper := if mods.shift then !mods.caps else mods.caps
    let lower := scancodeLower.getD scancode.toNat 0
    let upper := scancodeUpper.getD scancode.toNat 0
    if 0x61 ≤ lower ∧ lower ≤ 0x7A then
      if mods.ctrl then lower &&& 0x1F else if useUpper then upper else lower
    else if mods.shift then upper else lower

/-- The keys for moving about, which share their scancodes with the keypad. -/
def navigationKey (key : UInt8) : Option ℤ :=
  if key = 0x48 then some keyUp
  else if key = 0x50 then some keyDown
  else if key = 0x4B then some keyLeft
  else if key = 0x4D then some keyRight
  else if key = 0x47 then some keyHome
  else if key = 0x4F then some keyEnd
  else if key = 0x53 then some keyDelete
  else if key = 0x49 then some keyPgUp
  else if key = 0x51 then some keyPgDn
  else none

/-- The pushes of `keyboard_handler` for a key that was pressed and is no modifier. -/
def keyPushes (mods : Modifiers) (isExt : Bool) (key : UInt8) : List Push :=
  if isExt then
    if key = 0x1C then [.key 10, .event 10]
    else if key = 0x35 then [.key 0x2F, .event 0x2F]
    else pressed (navigationKey key)
  else if mods.num = false ∧ navigationKey key ≠ none then pressed (navigationKey key)
  else if key = 0x3B then [.event keyF1]
  else if key = 0x3C then [.event keyF2]
  else if 0x3D ≤ key ∧ key ≤ 0x44 then []
  else if key = 0x57 ∨ key = 0x58 then []
  else
    let ch := scancodeToAscii mods key
    if ch ≠ 0 then [.key ch, .keycode ⟨ch, key, mods⟩, .event ch.toNat] else []

namespace Driver

variable (d : Driver)

/-- `keyboard_init`. -/
def keyboardInit : Driver where
  mods := ⟨false, false, false, false, true, false⟩
  queues := ⟨[], [], []⟩
  e0Prefix := false
  ansi := { d.ansi with state := .ground }

/-- `keyboard_handler` with the byte that it reads from the controller. -/
def keyboardHandler (scancode : UInt8) : Driver :=
  if scancode = 0xE0 then { d with e0Prefix := true }
  else
    let isExt := d.e0Prefix
    let d := { d with e0Prefix := false }
    let released : Bool := scancode &&& 0x80 != 0
    let key := scancode &&& 0x7F
    if key = 0x2A ∨ key = 0x36 then { d with mods.shift := !released }
    else if key = 0x1D then { d with mods.ctrl := !released }
    else if key = 0x38 then { d with mods.alt := !released }
    else if key = 0x3A then if released then d else { d with mods.caps := !d.mods.caps }
    else if key = 0x45 then if released then d else { d with mods.num := !d.mods.num }
    else if key = 0x46 then if released then d else { d with mods.scroll := !d.mods.scroll }
    else if released then d
    else { d with queues := (keyPushes d.mods isExt key).foldl Queues.push d.queues }

/-- A round of the loop of `pump_serial_events`. -/
def pumpByte (c : UInt8) : Driver :=
  { d with
    ansi := (ansiStep d.ansi c).1
    queues := (ansiStep d.ansi c).2.foldl Queues.push d.queues }

/-- `pump_serial_events` with the bytes that are waiting. -/
def pumpSerialEvents (rx : List UInt8) : Driver := rx.foldl pumpByte d

end Driver

/-! ## Escape sequences -/

/-- The parser on a part of the stream: its state afterwards and the pushes. -/
abbrev parse (a : Ansi) (bytes : List UInt8) : Ansi × List Push := Mealy.run ansiStep a bytes

/-- **The loop of the code runs the parser** and makes its pushes. -/
theorem Driver.pumpSerialEvents_eq (d : Driver) (rx : List UInt8) :
    d.pumpSerialEvents rx =
      { d with
        ansi := (parse d.ansi rx).1
        queues := (parse d.ansi rx).2.foldl Queues.push d.queues } := by
  induction rx generalizing d with
  | nil => rfl
  | cons c rx ih =>
    have hstep : d.pumpSerialEvents (c :: rx) = (d.pumpByte c).pumpSerialEvents rx := rfl
    rw [hstep, ih]
    simp only [parse, Mealy.run_cons, foldl_append]
    rfl

/-- The codes of the special keys. -/
def specialKeys : List ℤ :=
  [keyUp, keyDown, keyLeft, keyRight, keyHome, keyEnd, keyDelete, keyPgUp, keyPgDn, keyF1, keyF2]

/-- The bytes of a control sequence. -/
def controlSequence (params : List UInt8) (final : UInt8) : List UInt8 :=
  27 :: 0x5B :: (params ++ [final])

/-- The last digit of a parameter string. -/
def lastDigit (params : List UInt8) : Option UInt8 :=
  (params.filter fun c => 0x30 ≤ c ∧ c ≤ 0x39).getLast?

/-- **A control sequence is consumed whole**, in the state that the bytes before it leave: it makes
at most one push, which is the event of a special key, not that of the last digit of a longer
parameter string, and leaves the parser on the ground. -/
structure Consumed (a : Ansi) (params : List UInt8) (final : UInt8) : Prop where
  atMostOne : (parse a (controlSequence params final)).2.length ≤ 1
  special : ∀ p ∈ (parse a (controlSequence params final)).2, ∃ ev ∈ specialKeys, p = .event ev
  notLastDigit : final = 0x7E → 1 < params.length → ∀ c ∈ lastDigit params, ∀ ev ∈ tildeKey c,
    .event ev ∉ (parse a (controlSequence params final)).2
  ground : (parse a (controlSequence params final)).1.state = .ground

variable {a : Ansi} {params : List UInt8} {final c param : UInt8}

/-- A sequence that types a character is not consumed. -/
lemma not_consumed_of_key (h : ∃ ch, .key ch ∈ (parse a (controlSequence params final)).2) :
    ¬Consumed a params final := by
  intro hcons
  obtain ⟨ch, hch⟩ := h
  obtain ⟨ev, -, hev⟩ := hcons.special _ hch
  cases hev

lemma exists_key_mem_typed (c : UInt8) : ∃ ch, Push.key ch ∈ typed c := ⟨_, mem_cons_self⟩

/-- On the ground every byte but ESC is typed. -/
lemma exists_key_of_ground (param : UInt8) (hc : c ≠ 27) (bytes : List UInt8) :
    ∃ ch, Push.key ch ∈ (parse ⟨.ground, param⟩ (c :: bytes)).2 := by
  obtain ⟨ch, hch⟩ := exists_key_mem_typed c
  refine ⟨ch, ?_⟩
  rw [parse, Mealy.run_cons]
  refine mem_append_left _ ?_
  simp only [ansiStep, if_neg hc]
  exact hch

/-- On the ground a control sequence is opened. -/
lemma parse_controlSequence (a : UInt8) : parse ⟨.ground, a⟩ (controlSequence params final) =
    parse ⟨.bracket, 0⟩ (params ++ [final]) := by
  have hescape : ansiStep ⟨.ground, a⟩ 27 = (⟨.escape, a⟩, []) := rfl
  have hbracket : ansiStep ⟨.escape, a⟩ 0x5B = (⟨.bracket, 0⟩, []) := rfl
  rw [parse, controlSequence, Mealy.run_cons_of_silent hescape, Mealy.run_cons_of_silent hbracket]

/-- Behind the bracket digits are stored one after the other.

**Proof sketch.** Induction on the digits with the stored digit generalised. -/
lemma parse_digits {ds : List UInt8} (h : ∀ c ∈ ds, 0x30 ≤ c ∧ c ≤ 0x39) (bytes : List UInt8) :
    parse ⟨.bracket, param⟩ (ds ++ bytes) = parse ⟨.bracket, ds.getLast?.getD param⟩ bytes := by
  induction ds generalizing param with
  | nil => rfl
  | cons c ds ih =>
    have hc := h c mem_cons_self
    have hstep : ansiStep ⟨.bracket, param⟩ c = (⟨.bracket, c⟩, []) := by
      simp only [ansiStep, if_pos hc]
    rw [cons_append, parse, Mealy.run_cons_of_silent hstep, getLast?_cons, Option.getD_some]
    exact ih fun x hx => h x (mem_cons_of_mem _ hx)

lemma length_pressed (key : Option ℤ) : (pressed key).length ≤ 1 := by
  cases key with
  | none => exact Nat.zero_le _
  | some ev => exact le_rfl

lemma event_mem_pressed {key : Option ℤ} {ev : ℤ} : .event ev ∈ pressed key ↔ ev ∈ key := by
  cases key with
  | none => simp [pressed]
  | some k => simp [pressed, eq_comm]

lemma mem_pressed {key : Option ℤ} {p : Push} (h : p ∈ pressed key) :
    ∃ ev ∈ key, p = .event ev := by
  cases key with
  | none => simp [pressed] at h
  | some k => exact ⟨k, rfl, by simpa [pressed] using h⟩

lemma tildeKey_special {ev : ℤ} (h : ev ∈ tildeKey c) : ev ∈ specialKeys := by
  unfold tildeKey at h
  split_ifs at h <;> first | (cases h; decide) | cases h

lemma letterKey_special {ev : ℤ} (h : ev ∈ letterKey c) : ev ∈ specialKeys := by
  unfold letterKey at h
  split_ifs at h <;> first | (cases h; decide) | cases h

/-- No key ends in a parameter byte. -/
lemma letterKey_of_le (h : c ≤ 0x3F) : letterKey c = none := by
  have hne : ∀ k : UInt8, 0x40 ≤ k → c ≠ k := by
    rintro k hk rfl
    exact absurd (UInt8.le_trans hk h) (by decide)
  simp only [letterKey, hne 0x41 (by decide), hne 0x42 (by decide), hne 0x43 (by decide),
    hne 0x44 (by decide), hne 0x48 (by decide), hne 0x46 (by decide), if_false]

/-- The digits without a key. -/
lemma tildeKey_eq_none_iff (h : 0x30 ≤ c ∧ c ≤ 0x39) :
    tildeKey c = none ↔ c = 0x30 ∨ c = 0x32 ∨ c = 0x39 := by
  have hlow := UInt8.le_iff_toNat_le.1 h.1
  have hhigh := UInt8.le_iff_toNat_le.1 h.2
  obtain ⟨n, hn, rfl⟩ : ∃ n < 10, c = UInt8.ofNat (48 + n) := by
    refine ⟨c.toNat - 48, ?_, ?_⟩
    · have : (0x39 : UInt8).toNat = 57 := rfl
      omega
    · have : (0x30 : UInt8).toNat = 48 := rfl
      rw [show 48 + (c.toNat - 48) = c.toNat by omega, UInt8.ofNat_toNat]
  clear h hlow hhigh
  revert n
  decide

/-- A final byte ends a sequence of digits. -/
lemma parse_final (hfinal : 0x40 ≤ final) : parse ⟨.bracket, param⟩ [final] =
    (⟨.ground, param⟩, pressed (if final = 0x7E then tildeKey param else letterKey final)) := by
  have hdigit : ¬(0x30 ≤ final ∧ final ≤ 0x39) := fun h =>
    absurd (UInt8.le_trans hfinal h.2) (by decide)
  rw [parse, Mealy.run_cons, Mealy.run_nil, append_nil]
  by_cases htilde : final = 0x7E
  · simp only [ansiStep, if_neg hdigit, if_pos htilde]
  · simp only [ansiStep, if_neg hdigit, if_neg htilde]

/-- A sequence whose parameters are digits. -/
lemma consumed_iff_of_digits (hparams : ∀ c ∈ params, 0x30 ≤ c ∧ c ≤ 0x39) (hfinal : 0x40 ≤ final) :
    Consumed ⟨.ground, param⟩ params final ↔ (final = 0x7E → 1 < params.length →
      ∀ c ∈ params.getLast?, c = 0x30 ∨ c = 0x32 ∨ c = 0x39) := by
  -- only the last digit is kept
  have hparse : parse ⟨.ground, param⟩ (controlSequence params final) =
      (⟨.ground, params.getLast?.getD 0⟩,
        pressed (if final = 0x7E then tildeKey (params.getLast?.getD 0) else letterKey final)) := by
    rw [parse_controlSequence, parse_digits hparams, parse_final hfinal]
  have hlast : lastDigit params = params.getLast? := by
    rw [lastDigit, filter_eq_self.2 fun c hc => decide_eq_true (hparams c hc)]
  have hdigit : ∀ c ∈ params.getLast?, 0x30 ≤ c ∧ c ≤ 0x39 := fun c hc =>
    hparams c (mem_of_getLast? hc)
  constructor
  · intro h htilde hlen c hc
    rw [← tildeKey_eq_none_iff (hdigit c hc)]
    have hnot := h.notLastDigit htilde hlen c (hlast ▸ hc)
    rw [hparse, if_pos htilde, Option.mem_def.1 hc, Option.getD_some] at hnot
    exact Option.eq_none_iff_forall_not_mem.2 fun ev hev => hnot ev hev (event_mem_pressed.2 hev)
  · intro h
    refine ⟨?_, ?_, ?_, ?_⟩
    · rw [hparse]
      exact length_pressed _
    · rw [hparse]
      intro p hp
      obtain ⟨ev, hev, rfl⟩ := mem_pressed hp
      refine ⟨ev, ?_, rfl⟩
      split_ifs at hev
      · exact tildeKey_special hev
      · exact letterKey_special hev
    · intro htilde hlen c hc ev hev
      rw [hlast] at hc
      rw [(tildeKey_eq_none_iff (hdigit c hc)).2 (h htilde hlen c hc)] at hev
      cases hev
    · rw [hparse]

/-- The byte behind the digits of a parameter string that is no string of digits. -/
lemma exists_separator (hparams : ∀ c ∈ params, 0x30 ≤ c ∧ c ≤ 0x3F) (h : ¬∀ c ∈ params, c ≤ 0x39) :
    ∃ ds c rest, params = ds ++ c :: rest ∧ (∀ x ∈ ds, 0x30 ≤ x ∧ x ≤ 0x39) ∧ ¬c ≤ 0x39 := by
  induction params with
  | nil => exact absurd (forall_mem_nil _) h
  | cons c params ih =>
    by_cases hc : c ≤ 0x39
    · have hrest : ¬∀ x ∈ params, x ≤ 0x39 := fun hall => h (forall_mem_cons.2 ⟨hc, hall⟩)
      obtain ⟨ds, x, rest, rfl, hds, hx⟩ :=
        ih (fun x hx => hparams x (mem_cons_of_mem _ hx)) hrest
      refine ⟨c :: ds, x, rest, rfl, forall_mem_cons.2 ⟨⟨?_, hc⟩, hds⟩, hx⟩
      exact (hparams c mem_cons_self).1
    · exact ⟨[], c, params, rfl, forall_mem_nil _, hc⟩

/-- A sequence with another parameter byte ends early, and its last byte is typed. -/
lemma not_consumed_of_separator (hparams : ∀ c ∈ params, 0x30 ≤ c ∧ c ≤ 0x3F)
    (hfinal : 0x40 ≤ final) (h : ¬∀ c ∈ params, c ≤ 0x39) :
    ¬Consumed ⟨.ground, param⟩ params final := by
  obtain ⟨ds, c, rest, rfl, hds, hc⟩ := exists_separator hparams h
  have hle := (hparams c (by simp)).2
  have hstep : ∀ p : UInt8, ansiStep ⟨.bracket, p⟩ c = (⟨.ground, p⟩, []) := by
    intro p
    have htilde : c ≠ 0x7E := by
      rintro rfl
      exact absurd hle (by decide)
    simp only [ansiStep, if_neg fun hd : 0x30 ≤ c ∧ c ≤ 0x39 => hc hd.2, if_neg htilde,
      letterKey_of_le hle]
    rfl
  -- what follows the separator is read on the ground, and holds no ESC
  obtain ⟨x, bytes, hx⟩ : ∃ x bytes, rest ++ [final] = x :: bytes :=
    exists_cons_of_ne_nil (by simp)
  have hne : x ≠ 27 := by
    have hmem : x ∈ rest ++ [final] := hx ▸ mem_cons_self
    rintro rfl
    rcases mem_append.1 hmem with hr | hr
    · exact absurd (hparams 27 (by simp [hr])).1 (by decide)
    · rw [← mem_singleton.1 hr] at hfinal
      exact absurd hfinal (by decide)
  refine not_consumed_of_key ?_
  rw [parse_controlSequence, append_assoc, parse_digits hds, cons_append, parse,
    Mealy.run_cons_of_silent (hstep _), hx]
  exact exists_key_of_ground _ hne bytes

/-- A sequence that begins inside another one types a character. -/
lemma not_consumed_of_inside (h : a.state ≠ .ground) : ¬Consumed a params final := by
  obtain ⟨state, param⟩ := a
  cases state with
  | ground => exact absurd rfl h
  | escape =>
    -- the ESC is typed after the one that waits
    refine not_consumed_of_key ⟨27, ?_⟩
    rw [parse, controlSequence, Mealy.run_cons]
    exact mem_append_left _ (by simp [ansiStep, typed])
  | bracket =>
    -- the ESC ends the sequence that waits, and the bracket is typed
    have hescape : ansiStep ⟨.bracket, param⟩ 27 = (⟨.ground, param⟩, []) := rfl
    refine not_consumed_of_key ?_
    rw [parse, controlSequence, Mealy.run_cons_of_silent hescape]
    exact exists_key_of_ground param (by decide) (params ++ [final])

/-- **Which control sequences are consumed whole.** In every stream, after the bytes `before`: the
parser has to be on the ground, every parameter byte has to be a digit, and where the sequence ends
in a tilde and has more than one digit, the last digit has to be one without a key.

**Proof sketch.** Behind the bracket the digits only replace each other, and the final byte pushes
the key of the last digit or its own. Any other parameter byte ends the sequence, after which the
final byte is typed; inside another sequence the ESC or the bracket is typed. -/
theorem consumed_iff (a : Ansi) (before params : List UInt8) (final : UInt8)
    (hparams : ∀ c ∈ params, 0x30 ≤ c ∧ c ≤ 0x3F) (hfinal : 0x40 ≤ final ∧ final ≤ 0x7E) :
    Consumed (parse a before).1 params final ↔
      (parse a before).1.state = .ground ∧ (∀ c ∈ params, c ≤ 0x39) ∧
        (final = 0x7E → 1 < params.length →
          ∀ c ∈ params.getLast?, c = 0x30 ∨ c = 0x32 ∨ c = 0x39) := by
  obtain ⟨state, param⟩ := (parse a before).1
  by_cases hground : state = .ground
  · subst hground
    by_cases hdigits : ∀ c ∈ params, c ≤ 0x39
    · rw [consumed_iff_of_digits (fun c hc => ⟨(hparams c hc).1, hdigits c hc⟩) hfinal.1]
      exact ⟨fun h => ⟨rfl, hdigits, h⟩, fun h => h.2.2⟩
    · exact ⟨fun h => absurd h (not_consumed_of_separator hparams hfinal.1 hdigits),
        fun h => absurd h.2.1 hdigits⟩
  · exact ⟨fun h => absurd h (not_consumed_of_inside hground), fun h => absurd h.1 hground⟩

/-- The sequence of Ctrl and an arrow types its last two bytes, and that of F5 is taken for
Page Up. -/
theorem ctrl_arrow_and_f5_not_consumed :
    ¬Consumed ⟨.ground, 0⟩ (ascii "1;5".toList) 0x41 ∧
      ¬Consumed ⟨.ground, 0⟩ (ascii "15".toList) 0x7E := by
  constructor
  · intro h
    exact absurd h.atMostOne (by decide)
  · intro h
    have hpush : (parse ⟨.ground, 0⟩ (controlSequence (ascii "15".toList) 0x7E)).2 =
        [.event keyPgUp] := rfl
    exact h.notLastDigit rfl (by decide) 0x35 rfl keyPgUp rfl (hpush ▸ mem_cons_self)

/-- Page Up after a typed line. -/
theorem page_up_consumed :
    Consumed (parse ⟨.ground, 0⟩ (ascii "ls".toList ++ [13])).1 (ascii "5".toList) 0x7E :=
  (consumed_iff ⟨.ground, 0⟩ (ascii "ls".toList ++ [13]) (ascii "5".toList) 0x7E
    (forall_mem_singleton.2 (by decide)) (by decide)).2
    ⟨by decide, forall_mem_singleton.2 (by decide), fun _ h => absurd h (by decide)⟩

/-! ## The keys that are held -/

/-- A key of the keyboard: its code, and whether the code comes behind the prefix byte. -/
structure Key where
  ext : Bool
  code : UInt8
  code_lt : code < 0x80
  deriving DecidableEq

/-- A key goes down or up. -/
structure KeyEvent where
  key : Key
  released : Bool

/-- The byte of a key after the prefix. -/
def KeyEvent.scancode (e : KeyEvent) : UInt8 :=
  if e.released then e.key.code ||| 0x80 else e.key.code

/-- The kinds of modifier keys with a flag that is held. -/
inductive Kind where
  | shift
  | ctrl
  | alt
  deriving DecidableEq

namespace Kind

/-- The flag of a kind. -/
def flag (mods : Modifiers) : Kind → Bool
  | shift => mods.shift
  | ctrl => mods.ctrl
  | alt => mods.alt

/-- The codes that change the flag. -/
def codes : Kind → List UInt8
  | shift => [0x2A, 0x36]
  | ctrl => [0x1D]
  | alt => [0x38]

lemma shift_codes_lt : (0x2A : UInt8) < 0x80 ∧ (0x36 : UInt8) < 0x80 := by decide

lemma ctrl_alt_codes_lt : (0x1D : UInt8) < 0x80 ∧ (0x38 : UInt8) < 0x80 := by decide

/-- The keys of a kind, left and right. -/
def keys : Kind → List Key
  | shift => [⟨false, 0x2A, shift_codes_lt.1⟩, ⟨false, 0x36, shift_codes_lt.2⟩]
  | ctrl => [⟨false, 0x1D, ctrl_alt_codes_lt.1⟩, ⟨true, 0x1D, ctrl_alt_codes_lt.1⟩]
  | alt => [⟨false, 0x38, ctrl_alt_codes_lt.2⟩, ⟨true, 0x38, ctrl_alt_codes_lt.2⟩]

lemma code_mem_codes {kind : Kind} {k : Key} (h : k ∈ kind.keys) : k.code ∈ kind.codes := by
  cases kind <;>
  · simp only [keys, mem_cons, not_mem_nil, or_false] at h
    rcases h with rfl | rfl <;> decide

end Kind

/-- The keys that are held. -/
abbrev Held := Key → Bool

/-- The keys that are held after an event. -/
def Held.after (held : Held) (e : KeyEvent) : Held := update held e.key (!e.released)

/-- The states after every call of `keyboard_handler` for a sequence of keys, with the keys that are
held then. A key with a prefix takes two calls. -/
def calls (d : Driver) (held : Held) : List KeyEvent → List (Driver × Held)
  | [] => []
  | e :: es =>
    if e.key.ext then
      let d₁ := d.keyboardHandler 0xE0
      let d₂ := d₁.keyboardHandler e.scancode
      (d₁, held) :: (d₂, held.after e) :: calls d₂ (held.after e) es
    else
      let d₁ := d.keyboardHandler e.scancode
      (d₁, held.after e) :: calls d₁ (held.after e) es

/-- **The flags show the keys that are held**: a flag is set when a key of its kind is down. -/
def Tracks (x : Driver × Held) : Prop := ∀ kind : Kind, kind.flag x.1.mods = kind.keys.any x.2

/-- An event after which the flags can still be right: a key goes up while no other key of its kind
is down, and a code that sets the flag without being a key of the kind comes only while one is. -/
def Harmless (held : Held) (e : KeyEvent) : Prop := ∀ kind : Kind, e.key.code ∈ kind.codes →
  if e.released then ∀ k ∈ kind.keys, k ≠ e.key → held k = false
  else e.key ∈ kind.keys ∨ kind.keys.any held = true

/-- Every event of a sequence is harmless where it happens. -/
def Steady : Held → List KeyEvent → Prop
  | _, [] => True
  | held, e :: es => Harmless held e ∧ Steady (held.after e) es

variable {d : Driver} {held : Held} {e : KeyEvent}

/-- The two parts of a scancode. -/
lemma scancode_parts (e : KeyEvent) :
    e.scancode &&& 0x7F = e.key.code ∧ (e.scancode &&& 0x80 != 0) = e.released := by
  have hall : ∀ n < 128,
      (UInt8.ofNat n &&& 0x7F = UInt8.ofNat n ∧ (UInt8.ofNat n &&& 0x80 != 0) = false) ∧
      (UInt8.ofNat n ||| 0x80) &&& 0x7F = UInt8.ofNat n ∧
        ((UInt8.ofNat n ||| 0x80) &&& 0x80 != 0) = true := by
    decide +kernel
  have hcode := hall e.key.code.toNat (UInt8.lt_iff_toNat_lt.1 e.key.code_lt)
  rw [UInt8.ofNat_toNat] at hcode
  unfold KeyEvent.scancode
  cases e.released with
  | true => exact hcode.2
  | false => exact hcode.1

/-- **What a call does to the flags**: the codes of a kind set its flag, the others leave it.

**Proof sketch.** The prefix byte changes no flag, and the byte `0xE0` has the code `0x60`, which is
of no kind. Else the three kinds are looked at in turn; the other branches of the code leave the
three flags alone. -/
lemma flag_keyboardHandler (d : Driver) (scancode : UInt8) (kind : Kind) :
    kind.flag (d.keyboardHandler scancode).mods =
      if scancode &&& 0x7F ∈ kind.codes then !(scancode &&& 0x80 != 0) else kind.flag d.mods := by
  by_cases hprefix : scancode = 0xE0
  · subst hprefix
    cases kind <;> rfl
  · unfold Driver.keyboardHandler
    rw [if_neg hprefix]
    dsimp only
    generalize scancode &&& 0x7F = key
    generalize (scancode &&& 0x80 != 0) = released
    by_cases hshift : key = 0x2A ∨ key = 0x36
    · rw [if_pos hshift]
      rcases hshift with rfl | rfl
      · cases kind <;> rfl
      · cases kind <;> rfl
    rw [if_neg hshift]
    by_cases hctrl : key = 0x1D
    · subst hctrl
      cases kind <;> rfl
    rw [if_neg hctrl]
    by_cases halt : key = 0x38
    · subst halt
      cases kind <;> rfl
    rw [if_neg halt]
    have hcodes : key ∉ kind.codes := by
      rw [not_or] at hshift
      cases kind <;> simp [Kind.codes, hshift, hctrl, halt]
    rw [if_neg hcodes]
    split_ifs <;> cases kind <;> rfl

lemma flag_keyboardHandler_scancode (d : Driver) (e : KeyEvent) (kind : Kind) :
    kind.flag (d.keyboardHandler e.scancode).mods =
      if e.key.code ∈ kind.codes then !e.released else kind.flag d.mods := by
  rw [flag_keyboardHandler, (scancode_parts e).1, (scancode_parts e).2]

/-- The prefix byte changes neither the flags nor the keys. -/
lemma Tracks.e0 (h : Tracks (d, held)) : Tracks (d.keyboardHandler 0xE0, held) := by
  intro kind
  rw [flag_keyboardHandler, if_neg (by cases kind <;> decide)]
  exact h kind

/-- The keys of a kind after a key went up. -/
lemma any_after_release (ks : List Key) (h : e.released = true) :
    ks.any (held.after e) = false ↔ ∀ k ∈ ks, k ≠ e.key → held k = false := by
  simp only [any_eq_false, Held.after, h, Bool.not_true, Bool.not_eq_true]
  refine forall₂_congr fun k _ => ?_
  by_cases hk : k = e.key
  · rw [hk, update_self]
    exact ⟨fun _ hne => absurd rfl hne, fun _ => rfl⟩
  · rw [update_of_ne hk]
    exact ⟨fun hf _ => hf, fun hf => hf hk⟩

/-- The keys of a kind after a key went down. -/
lemma any_after_press (ks : List Key) (h : e.released = false) :
    ks.any (held.after e) = true ↔ e.key ∈ ks ∨ ks.any held = true := by
  simp only [any_eq_true, Held.after, h, Bool.not_false]
  constructor
  · rintro ⟨k, hk, hup⟩
    by_cases hkey : k = e.key
    · exact .inl (hkey ▸ hk)
    · rw [update_of_ne hkey] at hup
      exact .inr ⟨k, hk, hup⟩
  · rintro (hk | ⟨k, hk, hheld⟩)
    · exact ⟨e.key, hk, update_self ..⟩
    · refine ⟨k, hk, ?_⟩
      by_cases hkey : k = e.key
      · rw [hkey, update_self]
      · rw [update_of_ne hkey, hheld]

/-- A key of another kind. -/
lemma any_after_of_not_mem {kind : Kind} (h : e.key.code ∉ kind.codes) :
    kind.keys.any (held.after e) = kind.keys.any held := by
  rw [Bool.eq_iff_iff, any_eq_true, any_eq_true]
  refine exists_congr fun k => and_congr_right fun hk => ?_
  have hne : k ≠ e.key := by
    rintro rfl
    exact h (Kind.code_mem_codes hk)
  rw [Held.after, update_of_ne hne]

/-- **One key**: where the flags are right they stay right when the event is harmless, and only
then. -/
lemma tracks_after_iff (h : Tracks (d, held)) :
    Tracks (d.keyboardHandler e.scancode, held.after e) ↔ Harmless held e := by
  refine forall_congr' fun kind => ?_
  rw [flag_keyboardHandler_scancode]
  by_cases hcode : e.key.code ∈ kind.codes
  · rw [if_pos hcode]
    cases hrel : e.released with
    | true =>
      rw [← any_after_release kind.keys hrel]
      exact ⟨fun hf _ => hf.symm, fun hf => (hf hcode).symm⟩
    | false =>
      rw [← any_after_press kind.keys hrel]
      exact ⟨fun hf _ => hf.symm, fun hf => (hf hcode).symm⟩
  · rw [if_neg hcode, any_after_of_not_mem hcode]
    exact ⟨fun _ hc => absurd hc hcode, fun _ => h kind⟩

/-- **A sequence of keys** from a state in which the flags are right.

**Proof sketch.** Induction on the events. The call for the prefix is no matter; after the call for
the code the flags are right exactly when the event is harmless, and then the rest follows. -/
lemma forall_calls_tracks_iff (h : Tracks (d, held)) (es : List KeyEvent) :
    (∀ x ∈ calls d held es, Tracks x) ↔ Steady held es := by
  induction es generalizing d held with
  | nil => exact ⟨fun _ => trivial, fun _ => forall_mem_nil _⟩
  | cons e es ih =>
    have hrest : ∀ d : Driver, Tracks (d, held) →
        ((∀ x ∈ (d.keyboardHandler e.scancode, held.after e) ::
          calls (d.keyboardHandler e.scancode) (held.after e) es, Tracks x) ↔
            Steady held (e :: es)) := by
      intro d h
      rw [forall_mem_cons, tracks_after_iff h, Steady]
      refine and_congr_right fun hharmless => ih ?_
      exact (tracks_after_iff h).2 hharmless
    unfold calls
    split_ifs with hext
    · rw [forall_mem_cons, hrest _ h.e0]
      exact and_iff_right h.e0
    · exact hrest d h

/-- **When the flags follow the keys.** From `keyboard_init` on, with no key held, the flags are
right after every call exactly when every event is harmless: whenever a modifier key goes up, the
other key of its kind is not held, and no prefixed code of a Shift key makes the flag wrong. -/
theorem tracks_iff (d : Driver) (es : List KeyEvent) :
    (∀ x ∈ calls d.keyboardInit (fun _ => false) es, Tracks x) ↔ Steady (fun _ => false) es := by
  refine forall_calls_tracks_iff (fun kind => ?_) es
  cases kind <;> rfl

/-- The driver before its first use. -/
def untouched : Driver where
  mods := ⟨false, false, false, false, true, false⟩
  queues := ⟨[], [], []⟩
  e0Prefix := false
  ansi := ⟨.ground, 0⟩

/-- The left Shift key, which is held while the right one is pressed and let go. -/
def leftShift : Key := ⟨false, 0x2A, Kind.shift_codes_lt.1⟩

/-- The right Shift key. -/
def rightShift : Key := ⟨false, 0x36, Kind.shift_codes_lt.2⟩

/-- When one of two Shift keys goes up, the flag is cleared although the other is held. -/
theorem shift_lost_while_held :
    ¬∀ x ∈ calls untouched.keyboardInit (fun _ => false)
      [⟨leftShift, false⟩, ⟨rightShift, false⟩, ⟨rightShift, true⟩], Tracks x := by
  intro h
  have hlast := h _ (mem_cons_of_mem _ (mem_cons_of_mem _ mem_cons_self)) .shift
  exact absurd hlast (by decide)

/-- Both Shift keys one after the other. -/
theorem shift_keys_in_turn_tracked :
    ∀ x ∈ calls untouched.keyboardInit (fun _ => false)
      [⟨leftShift, false⟩, ⟨leftShift, true⟩, ⟨rightShift, false⟩, ⟨rightShift, true⟩], Tracks x :=
  (tracks_iff untouched _).2
    ⟨fun kind => by cases kind <;> decide, fun kind => by cases kind <;> decide,
      fun kind => by cases kind <;> decide, fun kind => by cases kind <;> decide, trivial⟩

end BengalTiger.Input
