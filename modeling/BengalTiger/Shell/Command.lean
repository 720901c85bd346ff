import BengalTiger.Lib.History
import BengalTiger.Shell.CalcParse
import BengalTiger.Shell.Line

set_option autoImplicit false

/-!
# Command lines

What `shell_execute_line` of `kernel/shell.c` does with a line before it runs the command: a number
with an exclamation mark stands for a line of the history, and the line is cut into a verb and its
arguments. A line is pushed to the history before it is executed. `split_two_args` cuts the
arguments of the commands that take two.

## Main definitions

* `Shell.kAtoi` — `k_atoi`.
* `Shell.commandOf`, `Shell.shellExecuteLine`, `Shell.enterLine` — the command that is executed.
* `Shell.splitTwoArgs` — `split_two_args`.
* `Shell.Replays`, `Shell.SplitsTokens` — what they are for.

## Main results

* `Shell.replays_iff` — when a number of the listing stands for the line shown with it.
* `Shell.splitsTokens_iff` — when the two arguments are cut between tokens.
-/

namespace BengalTiger.Shell

open Calc Fat List

/-! ## The code -/

/-- A loop that copies characters up to a stop character, with room for `room` of them: what was
copied and the text from where it stopped. -/
def copyUntil (stop : UInt8 → Bool) : ℕ → List UInt8 → List UInt8 × List UInt8
  | 0, s => ([], s)
  | _ + 1, [] => ([], [])
  | room + 1, c :: s =>
    if stop c then ([], c :: s) else (c :: (copyUntil stop room s).1, (copyUntil stop room s).2)

/-- `k_atoi`; `none` where `val` overflows. -/
def kAtoi (s : List UInt8) : Option ℤ :=
  let s := s.dropWhile isBlank
  let sign : ℤ := if s.headD 0 = '-'.toUInt8 then -1 else 1
  let s := if s.headD 0 = '-'.toUInt8 ∨ s.headD 0 = '+'.toUInt8 then s.tail else s
  match numLoop decDigit decStep s 0 0 with
  | .ok (val, _, _) => some (val * sign)
  | .error _ => none

/-- A command: the verb in lower case and the arguments. -/
structure Command where
  verb : List UInt8
  args : List UInt8
  deriving DecidableEq

/-- The loops that cut a line into the verb, of at most 31 characters, and the arguments. -/
def commandOf (p : List UInt8) : Command :=
  let verb := copyUntil isBlank 31 p
  ⟨verb.1.map toLowerCh, verb.2.dropWhile isBlank⟩

/-- What `shell_execute_line` comes to before it runs a command: nothing, the message that an event
is not found, or a command, after the line of the history that it stands for was printed;
`undefined` where `k_atoi` overflows. -/
inductive Outcome where
  | nothing
  | notFound
  | undefined
  | execute (shown : Option (List UInt8)) (command : Command)
  deriving DecidableEq

/-- The text begins with an exclamation mark and a digit other than 0. -/
def isEvent (p : List UInt8) : Bool :=
  p.headD 0 = '!'.toUInt8 ∧ '1'.toUInt8 ≤ p.tail.headD 0 ∧ p.tail.headD 0 ≤ '9'.toUInt8

/-- `shell_execute_line` up to the choice of the command by its verb. A line of the history is not
searched for blanks, a comment or an event again. -/
def shellExecuteLine (history : List (List UInt8)) (line : List UInt8) : Outcome :=
  let p := line.dropWhile isBlank
  if p = [] ∨ p.headD 0 = '#'.toUInt8 then .nothing
  else if isEvent p then
    match kAtoi p.tail with
    | none => .undefined
    | some val =>
      if 0 ≤ val - 1 ∧ val - 1 < history.length then
        .execute (some (history.getD (val - 1).toNat []))
          (commandOf (history.getD (val - 1).toNat []))
      else .notFound
  else .execute none (commandOf p)

/-- A line is entered: the history and what is executed. -/
def enterLine (history : List (List UInt8)) (line : List UInt8) : List (List UInt8) × Outcome :=
  (historyPush history line, shellExecuteLine (historyPush history line) line)

/-- The two texts that `split_two_args` stores, and where the second one begins in `args`. -/
structure Split where
  a1 : List UInt8
  a2 : List UInt8
  start : ℕ

/-- `split_two_args`. -/
def splitTwoArgs (args : List UInt8) (max1 max2 : ℕ) : Split :=
  let first := copyUntil (· = blank) (max1 - 1) (args.dropWhile (· = blank))
  let rest := first.2.dropWhile (· = blank)
  { a1 := first.1
    a2 := (copyUntil (fun _ => false) (max2 - 1) rest).1
    start := args.length - rest.length }

/-! ## The replay of a line -/

/-- The history after lines were entered. -/
def historyOf (lines : List (List UInt8)) : List (List UInt8) := lines.foldl historyPush []

/-- What the command `history` lists when it is entered after some lines. -/
def listing (lines : List (List UInt8)) : List (List UInt8) :=
  historyOf (lines ++ [ascii "history".toList])

/-- The command that is executed. -/
def Outcome.command : Outcome → Option Command
  | .execute _ cmd => some cmd
  | _ => none

/-- The line that is printed. -/
def Outcome.shown : Outcome → Option (List UInt8)
  | .execute shown _ => shown
  | _ => none

/-- The history and the outcome when a number is entered after the listing. -/
def replay (lines : List (List UInt8)) (number : List UInt8) : List (List UInt8) × Outcome :=
  enterLine (listing lines) ('!'.toUInt8 :: number)

/-- **The history replays what it lists.** It holds the last lines, with consecutive repetitions
merged. A number that is entered after the listing stands for the line shown with it: the line is
printed, and the command is the one that the line itself stands for. A number that is not listed is
not found. -/
structure Replays (lines : List (List UInt8)) (number : List UInt8) : Prop where
  holds : historyOf lines = (lines.destutter (· ≠ ·)).rtake historyMax
  executes : ∀ line, (listing lines)[decValue number - 1]? = some line →
    ∃ cmd, (shellExecuteLine (replay lines number).1 line).command = some cmd ∧
      (replay lines number).2 = .execute (some line) cmd
  notFound : (listing lines)[decValue number - 1]? = none → (replay lines number).2 = .notFound

/-- **A line that is read again as it stands**: behind its blanks there is text that is not a
comment. When this is an event, then the line of the history with that number is the same command;
otherwise there are no blanks before it. -/
def ReadsAgain (history : List (List UInt8)) (line : List UInt8) : Prop :=
  line.dropWhile isBlank ≠ [] ∧ (line.dropWhile isBlank).headD 0 ≠ '#'.toUInt8 ∧
    if isEvent (line.dropWhile isBlank) then
      ∃ val other, kAtoi (line.dropWhile isBlank).tail = some val ∧ 0 ≤ val - 1 ∧
        history[(val - 1).toNat]? = some other ∧ commandOf other = commandOf line
    else isBlank (line.headD 0) = false

/-- A number: digits, the first of which is not zero. -/
structure IsNumber (number : List UInt8) : Prop where
  digits : ∀ ch ∈ number, (decDigit ch).isSome
  first : '1'.toUInt8 ≤ number.headD 0 ∧ number.headD 0 ≤ '9'.toUInt8

variable {number : List UInt8}

lemma historyPush_of_ne_nil {line : List UInt8} (h : line ≠ []) (history : List (List UInt8)) :
    historyPush history line = History.push historyMax history line := by
  rw [historyPush, if_neg h, History.push]

lemma historyOf_eq {lines : List (List UInt8)} (h : ∀ line ∈ lines, line ≠ []) :
    historyOf lines = lines.foldl (History.push historyMax) [] :=
  foldl_ext _ _ _ fun history line hline => historyPush_of_ne_nil (h line hline) history

/-- A number does not begin with a blank or a sign. -/
lemma IsNumber.head (h : IsNumber number) : ∃ c cs, number = c :: cs ∧ isBlank c = false ∧
    c ≠ '-'.toUInt8 ∧ c ≠ '+'.toUInt8 := by
  cases number with
  | nil => exact absurd h.first.1 (by decide)
  | cons c cs =>
    have hlow : '1'.toUInt8 ≤ c := h.first.1
    have hne : ∀ x : UInt8, ¬ '1'.toUInt8 ≤ x → c ≠ x := by
      rintro x hx rfl
      exact hx hlow
    refine ⟨c, cs, rfl, ?_, hne _ (by decide), hne _ (by decide)⟩
    rw [isBlank, decide_eq_false_iff_not, not_or]
    exact ⟨hne _ (by decide), hne _ (by decide)⟩

/-- A number is at least one. -/
lemma IsNumber.pos (h : IsNumber number) : 1 ≤ decValue number := by
  obtain ⟨c, cs, rfl, -⟩ := h.head
  have hfirst : '1'.toUInt8 ≤ c ∧ c ≤ '9'.toUInt8 := h.first
  have hlow := UInt8.le_iff_toNat_le.1 hfirst.1
  have hone : ('1'.toUInt8).toNat = 49 := by decide
  have hzero : ('0'.toUInt8).toNat = 48 := by decide
  have hle : '0'.toUInt8 ≤ c := UInt8.le_iff_toNat_le.2 (by omega)
  have hdigit : decDigit c = some (c - '0'.toUInt8).toNat := if_pos ⟨hle, hfirst.2⟩
  have hval := UInt8.toNat_sub_of_le _ _ hle
  have hgrow := Numeral.le_value 10 (fun ch => (decDigit ch).getD 0) (by norm_num)
    (0 * 10 + (decDigit c).getD 0) cs
  rw [hdigit, Option.getD_some, hval] at hgrow
  rw [decValue, Numeral.value_cons, hdigit, Option.getD_some, hval]
  omega

/-- `k_atoi` reads a number, unless it is too large. -/
lemma kAtoi_number (h : IsNumber number) : kAtoi number =
    if decValue number ≤ 2147483647 then some (decValue number : ℤ) else none := by
  obtain ⟨c, cs, hcons, hblank, hminus, hplus⟩ := h.head
  have hdrop : number.dropWhile isBlank = number := by
    rw [hcons, dropWhile_cons_of_neg (by simp [hblank])]
  have hhead : number.headD 0 = c := by rw [hcons, headD_cons]
  have hloop : numLoop decDigit decStep number 0 0 =
      if decValue number ≤ 2147483647 then .ok (decValue number, number.length, [])
      else .error .overflow := numLoop_digits false h.digits
  unfold kAtoi
  simp only [hdrop, hhead, if_neg hminus, if_neg (not_or.2 ⟨hminus, hplus⟩), hloop]
  split_ifs
  · exact congrArg some (mul_one _)
  · rfl

/-- The replay of a number: the entry of the history with that number. -/
lemma shellExecuteLine_number (h : IsNumber number) (history : List (List UInt8)) :
    shellExecuteLine history ('!'.toUInt8 :: number) =
      if decValue number ≤ 2147483647 then
        (history[decValue number - 1]?).elim .notFound fun line =>
          .execute (some line) (commandOf line)
      else .undefined := by
  have hpos := h.pos
  have hdrop : ('!'.toUInt8 :: number).dropWhile isBlank = '!'.toUInt8 :: number :=
    dropWhile_cons_of_neg (by decide)
  have hevent : isEvent ('!'.toUInt8 :: number) = true := decide_eq_true ⟨rfl, h.first⟩
  unfold shellExecuteLine
  simp only [hdrop, headD_cons, tail_cons, kAtoi_number h, hevent]
  rw [if_neg (not_or.2 ⟨cons_ne_nil _ _, by decide⟩), if_pos trivial]
  by_cases hmax : decValue number ≤ 2147483647
  · rw [if_pos hmax, if_pos hmax]
    dsimp only
    have hidx : ((decValue number : ℤ) - 1).toNat = decValue number - 1 := by omega
    by_cases hlt : decValue number - 1 < history.length
    · rw [if_pos (by omega), hidx, getD_eq_getElem?_getD, getElem?_eq_getElem hlt,
        Option.getD_some, Option.elim_some]
    · rw [if_neg (by omega), getElem?_eq_none (by omega), Option.elim_none]
  · rw [if_neg hmax, if_neg hmax]

/-- The command of a text that begins with a blank has no verb, and no other has none. -/
lemma verb_eq_nil_iff {p : List UInt8} (hp : p ≠ []) :
    (commandOf p).verb = [] ↔ isBlank (p.headD 0) = true := by
  cases p with
  | nil => exact absurd rfl hp
  | cons ch p =>
    rw [commandOf, map_eq_nil_iff, copyUntil, headD_cons]
    split_ifs with h
    · exact iff_of_true rfl h
    · exact iff_of_false (by simp) h

/-- A line whose command is the one that is found when it is looked up in the history. -/
lemma readsAgain_iff (history : List (List UInt8)) (line : List UInt8) :
    (shellExecuteLine history line).command = some (commandOf line) ↔ ReadsAgain history line := by
  unfold shellExecuteLine ReadsAgain
  dsimp only
  by_cases hnone : line.dropWhile isBlank = [] ∨ (line.dropWhile isBlank).headD 0 = '#'.toUInt8
  · rw [if_pos hnone]
    exact iff_of_false (by simp [Outcome.command]) fun h => hnone.elim h.1 h.2.1
  rw [if_neg hnone]
  rw [not_or] at hnone
  rw [and_iff_right hnone.1, and_iff_right hnone.2]
  by_cases hevent : isEvent (line.dropWhile isBlank) = true
  · rw [if_pos hevent, if_pos hevent]
    cases hval : kAtoi (line.dropWhile isBlank).tail with
    | none => exact iff_of_false (by simp [Outcome.command]) (by simp)
    | some val =>
      dsimp only
      by_cases hlt : 0 ≤ val - 1 ∧ val - 1 < history.length
      · have hget : history[(val - 1).toNat]? = some (history.getD (val - 1).toNat []) := by
          rw [getD_eq_getElem?_getD, getElem?_eq_getElem (by omega), Option.getD_some]
        rw [if_pos hlt, Outcome.command, Option.some.injEq]
        constructor
        · intro h
          exact ⟨val, _, rfl, hlt.1, hget, h⟩
        · rintro ⟨val', other, hval', -, hother, h⟩
          cases hval'
          rw [hget] at hother
          cases hother
          exact h
      · rw [if_neg hlt]
        refine iff_of_false (by simp [Outcome.command]) ?_
        rintro ⟨val', other, hval', hpos, hother, -⟩
        cases hval'
        have := (List.getElem?_eq_some_iff.1 hother).1
        omega
  · rw [if_neg hevent, if_neg hevent, Outcome.command, Option.some.injEq]
    cases line with
    | nil => exact absurd rfl hnone.1
    | cons ch line =>
      rw [headD_cons]
      by_cases hblank : isBlank ch = true
      · refine iff_of_false (fun h => ?_) (by simp [hblank])
        -- the text behind the blanks has a verb
        have hverb := (verb_eq_nil_iff (cons_ne_nil ch line)).2 hblank
        rw [← h, verb_eq_nil_iff hnone.1] at hverb
        have hhead := head_dropWhile_not isBlank hnone.1
        obtain ⟨ch', rest, hrest⟩ := exists_cons_of_ne_nil hnone.1
        simp only [hrest, head_cons] at hhead
        rw [hrest, headD_cons, hhead] at hverb
        exact Bool.false_ne_true hverb
      · exact iff_of_true (by rw [dropWhile_cons_of_neg hblank]) (by simpa using hblank)

lemma listing_eq {lines : List (List UInt8)} (h : ∀ line ∈ lines, line ≠ []) : listing lines =
    (lines ++ [ascii "history".toList]).foldl (History.push historyMax) [] := by
  refine historyOf_eq fun line hline => ?_
  rcases mem_append.1 hline with hmem | hmem
  · exact h line hmem
  · rw [mem_singleton.1 hmem]
    decide

/-- The listing ends with the line that asked for it. -/
lemma getLast?_listing {lines : List (List UInt8)} (h : ∀ line ∈ lines, line ≠ []) :
    (listing lines).getLast? = some (ascii "history".toList) := by
  rw [listing_eq h, foldl_concat, History.getLast?_push]

/-- The outcome of a replay: the entry of the history with that number. -/
lemma replay_snd (hnumber : IsNumber number) (lines : List (List UInt8)) :
    (replay lines number).2 = if decValue number ≤ 2147483647 then
      ((replay lines number).1[decValue number - 1]?).elim .notFound fun line =>
        .execute (some line) (commandOf line) else .undefined :=
  shellExecuteLine_number hnumber _

/-- The numbers whose entry is still the listed one when the line with the number is pushed: the
listing ends with the word `history`, so that line is a new entry. -/
lemma getElem?_replay_eq_iff {lines : List (List UInt8)} (hlines : ∀ line ∈ lines, line ≠ [])
    (hnumber : IsNumber number) :
    (replay lines number).1[decValue number - 1]? = (listing lines)[decValue number - 1]? ↔
      if (listing lines).length < historyMax then decValue number ≠ (listing lines).length + 1
      else historyMax < decValue number := by
  have hcap : 0 < historyMax := by decide
  have hpos := hnumber.pos
  have hlast := getLast?_listing hlines
  have hne : listing lines ≠ [] := fun hnil => by rw [hnil] at hlast; cases hlast
  have hlen : (listing lines).length ≤ historyMax := by
    rw [listing_eq hlines]
    exact History.length_foldl_push_le hcap _
  have hchain : (listing lines).IsChain (· ≠ ·) := by
    rw [listing_eq hlines]
    exact History.isChain_foldl_push hcap _
  have hnew : (listing lines).getLast? ≠ some ('!'.toUInt8 :: number) := by
    rw [hlast]
    intro heq
    have hhead : 'h'.toUInt8 = '!'.toUInt8 := (List.cons.inj (Option.some_inj.1 heq)).1
    exact absurd hhead (by decide)
  have hpushed : (replay lines number).1 =
      History.push historyMax (listing lines) ('!'.toUInt8 :: number) :=
    historyPush_of_ne_nil (cons_ne_nil _ _) _
  rw [hpushed, History.getElem?_push_eq_iff hchain hnew hne (decValue number - 1)]
  split_ifs <;> omega

/-- **When a number stands for the line shown with it.** The line with the number is pushed before
it is looked up. As long as the history has room, every number finds its line but the one behind the
last, which finds the line itself; when the history is full, every entry has moved, and only numbers
behind the last entry are right. A number above `INT_MAX` has no defined value. The line that is
found must be one that is read again as it stands.

**Proof sketch.** The history is the one of the library for lines that are not empty.
`getElem?_replay_eq_iff` tells which numbers still find the listed entry, `replay_snd` that this
entry is cut into a command as it stands, and `readsAgain_iff` whether the line itself is the same
command. -/
theorem replays_iff {lines : List (List UInt8)} (hlines : ∀ line ∈ lines, line ≠ [])
    (hnumber : IsNumber number) : Replays lines number ↔
      decValue number ≤ 2147483647 ∧
        (if (listing lines).length < historyMax then decValue number ≠ (listing lines).length + 1
        else historyMax < decValue number) ∧
        ∀ line, (listing lines)[decValue number - 1]? = some line →
          ReadsAgain (replay lines number).1 line := by
  have hholds : historyOf lines = (lines.destutter (· ≠ ·)).rtake historyMax := by
    rw [historyOf_eq hlines, History.foldl_push (by decide)]
  have hexec := replay_snd hnumber lines
  rw [← getElem?_replay_eq_iff hlines hnumber]
  by_cases hmax : decValue number ≤ 2147483647
  swap
  · rw [if_neg hmax] at hexec
    refine iff_of_false (fun h => ?_) fun h => hmax h.1
    cases hl : (listing lines)[decValue number - 1]? with
    | none => cases hexec.symm.trans (h.notFound hl)
    | some line =>
      obtain ⟨cmd, -, hrun⟩ := h.executes line hl
      cases hexec.symm.trans hrun
  rw [if_pos hmax] at hexec
  rw [and_iff_right hmax]
  cases hl : (listing lines)[decValue number - 1]? with
  | none =>
    constructor
    · intro h
      have hrun := hexec.symm.trans (h.notFound hl)
      refine ⟨?_, nofun⟩
      cases hentry : (replay lines number).1[decValue number - 1]? with
      | none => rfl
      | some line => rw [hentry] at hrun; cases hrun
    · rintro ⟨hentry, -⟩
      refine ⟨hholds, fun line hline => ?_, fun _ => by rw [hexec, hentry]; rfl⟩
      rw [hl] at hline
      cases hline
  | some line =>
    constructor
    · intro h
      obtain ⟨cmd, hcmd, hrun⟩ := h.executes line hl
      rw [hexec] at hrun
      cases hentry : (replay lines number).1[decValue number - 1]? with
      | none => rw [hentry] at hrun; cases hrun
      | some other =>
        rw [hentry] at hrun
        cases hrun
        refine ⟨rfl, fun line' hline' => ?_⟩
        cases hline'
        exact (readsAgain_iff _ _).1 hcmd
    · rintro ⟨hentry, hreads⟩
      refine ⟨hholds, fun line' hline' => ?_, fun hnone => ?_⟩
      · rw [hl] at hline'
        cases hline'
        exact ⟨commandOf line, (readsAgain_iff _ _).2 (hreads line rfl), by rw [hexec, hentry]; rfl⟩
      · rw [hl] at hnone
        cases hnone

/-- In a full history the number 1 stands for the second line shown; in a new one the number behind
the last line stands for itself; and a line that begins with blanks is replayed without a verb. -/
theorem replay_runs_another_line :
    ¬Replays ((List.range 15).map fun i => [UInt8.ofNat (97 + i)]) (ascii "1".toList) ∧
      ¬Replays [] (ascii "2".toList) ∧ ¬Replays [ascii "  ls".toList] (ascii "1".toList) := by
  refine ⟨fun h => ?_, fun h => ?_, fun h => ?_⟩
  · obtain ⟨cmd, -, hrun⟩ := h.executes [97] (by decide)
    have hshown : (replay ((List.range 15).map fun i => [UInt8.ofNat (97 + i)])
      (ascii "1".toList)).2.shown = some [97] := congrArg Outcome.shown hrun
    exact absurd hshown (by decide)
  · exact absurd (h.notFound (by decide)) (by decide)
  · obtain ⟨cmd, hcmd, hrun⟩ := h.executes (ascii "  ls".toList) (by decide)
    have hsame : (replay [ascii "  ls".toList] (ascii "1".toList)).2.command =
        (shellExecuteLine (replay [ascii "  ls".toList] (ascii "1".toList)).1
          (ascii "  ls".toList)).command := (congrArg Outcome.command hrun).trans hcmd.symm
    exact absurd hsame (by decide)

/-- The first of two lines. -/
theorem replays_iff_first : Replays [ascii "echo hi".toList] (ascii "1".toList) := by
  refine (replays_iff (forall_mem_singleton.2 (by decide))
    ⟨forall_mem_singleton.2 (by decide), by decide⟩).2 ⟨by decide, by decide, ?_⟩
  intro line hline
  cases (show some (ascii "echo hi".toList) = some line from hline)
  exact (readsAgain_iff _ _).1 (by decide)

/-! ## Two arguments -/

/-- The first token of the arguments. -/
def firstToken (args : List UInt8) : List UInt8 :=
  (args.dropWhile (· = blank)).takeWhile (· ≠ blank)

/-- The text that follows the first token and the blanks behind it. -/
def afterToken (args : List UInt8) : List UInt8 :=
  ((args.dropWhile (· = blank)).dropWhile (· ≠ blank)).dropWhile (· = blank)

/-- Where the first token ends. -/
def tokenEnd (args : List UInt8) : ℕ :=
  (args.takeWhile (· = blank)).length + (firstToken args).length

/-- **The arguments are cut between tokens**: the first is the beginning of the first token, the
second the beginning of the text behind it, and no character of the first token is copied to the
second. -/
structure SplitsTokens (args : List UInt8) (max1 max2 : ℕ) : Prop where
  first : (splitTwoArgs args max1 max2).a1 = (firstToken args).take (max1 - 1)
  second : (splitTwoArgs args max1 max2).a2 = (afterToken args).take (max2 - 1)
  apart : ∀ i < (splitTwoArgs args max1 max2).a2.length,
    tokenEnd args ≤ (splitTwoArgs args max1 max2).start + i

/-- What a copying loop copies, and where it stops. -/
lemma copyUntil_eq (stop : UInt8 → Bool) (room : ℕ) (s : List UInt8) : copyUntil stop room s =
    ((s.takeWhile (!stop ·)).take room, s.drop (min room (s.takeWhile (!stop ·)).length)) := by
  induction room generalizing s with
  | zero => rw [copyUntil, take_zero, Nat.zero_min, drop_zero]
  | succ room ih =>
    cases s with
    | nil => rfl
    | cons c s =>
      rw [copyUntil]
      by_cases hstop : stop c = true
      · rw [if_pos hstop, takeWhile_cons_of_neg (by simp [hstop])]
        rfl
      · rw [if_neg hstop, ih, takeWhile_cons_of_pos (by simp [hstop]), take_succ_cons,
          length_cons, Nat.succ_min_succ, drop_succ_cons]

lemma takeWhile_not_blank (s : List UInt8) :
    s.takeWhile (fun c => !decide (c = blank)) = s.takeWhile (· ≠ blank) := by
  congr 1
  funext c
  exact (decide_not ..).symm

/-- The three parts of `split_two_args`. -/
lemma splitTwoArgs_eq (args : List UInt8) (max1 max2 : ℕ) : splitTwoArgs args max1 max2 =
    { a1 := (firstToken args).take (max1 - 1)
      a2 := (((args.dropWhile (· = blank)).drop
        (min (max1 - 1) (firstToken args).length)).dropWhile (· = blank)).take (max2 - 1)
      start := args.length - (((args.dropWhile (· = blank)).drop
        (min (max1 - 1) (firstToken args).length)).dropWhile (· = blank)).length } := by
  unfold splitTwoArgs
  simp only [copyUntil_eq, takeWhile_not_blank, firstToken]
  congr 2
  exact takeWhile_eq_self_iff.2 fun c _ => rfl

/-- A token that is copied whole: the second text begins behind it. -/
lemma drop_token (s : List UInt8) :
    s.drop (s.takeWhile (· ≠ blank)).length = s.dropWhile (· ≠ blank) := by
  have hsplit : s.takeWhile (· ≠ blank) ++ s.dropWhile (· ≠ blank) = s :=
    takeWhile_append_dropWhile
  have hdrop : (s.takeWhile (· ≠ blank) ++ s.dropWhile (· ≠ blank)).drop
      (s.takeWhile (· ≠ blank)).length = s.dropWhile (· ≠ blank) := drop_left
  rwa [hsplit] at hdrop

/-- A token that is not copied whole: the second text begins inside it. -/
lemma dropWhile_drop_token {s : List UInt8} {k : ℕ} (hk : k < (s.takeWhile (· ≠ blank)).length) :
    (s.drop k).dropWhile (· = blank) = s.drop k := by
  have hsplit : s = s.takeWhile (· ≠ blank) ++ s.dropWhile (· ≠ blank) :=
    takeWhile_append_dropWhile.symm
  have hmem : (s.takeWhile (· ≠ blank))[k] ≠ blank := by
    have := mem_takeWhile_imp (getElem_mem hk)
    simpa using this
  rw [hsplit, drop_append_of_le_length hk.le, drop_eq_getElem_cons hk, cons_append,
    dropWhile_cons_of_neg (by simpa using hmem)]

/-- The length of the arguments: blanks, the token and what is behind it. -/
lemma length_args (args : List UInt8) : args.length = tokenEnd args +
    ((args.dropWhile (· = blank)).dropWhile (· ≠ blank)).length := by
  have h₁ := congrArg List.length
    (takeWhile_append_dropWhile (p := fun c => decide (c = blank)) (l := args))
  have h₂ := congrArg List.length (takeWhile_append_dropWhile
    (p := fun c => decide (c ≠ blank)) (l := args.dropWhile fun c => decide (c = blank)))
  rw [length_append] at h₁ h₂
  rw [tokenEnd, firstToken]
  omega

/-- **When the arguments are cut between tokens**: the first token fits into its buffer with the
terminator, or there is no room for a second text at all.

**Proof sketch.** The first loop stops behind the token or where the buffer is full. Behind the
token the blanks are skipped and the second text begins; inside it there is no blank to skip, and
the second text begins with the next character of the token. -/
theorem splitsTokens_iff (args : List UInt8) (max1 max2 : ℕ) : SplitsTokens args max1 max2 ↔
    (firstToken args).length ≤ max1 - 1 ∨ max2 ≤ 1 := by
  have hlen := length_args args
  have hsplit := splitTwoArgs_eq args max1 max2
  by_cases hfits : (firstToken args).length ≤ max1 - 1
  · have hrest : ((args.dropWhile (· = blank)).drop
        (min (max1 - 1) (firstToken args).length)).dropWhile (· = blank) = afterToken args := by
      rw [Nat.min_eq_right hfits, firstToken, drop_token, afterToken]
    have hle : (afterToken args).length ≤
        ((args.dropWhile (· = blank)).dropWhile (· ≠ blank)).length :=
      (dropWhile_sublist _).length_le
    rw [hrest] at hsplit
    refine ⟨fun _ => .inl hfits, fun _ => ⟨?_, ?_, fun i _ => ?_⟩⟩
    · rw [hsplit]
    · rw [hsplit]
    · rw [hsplit]
      dsimp only
      omega
  · have hrest : ((args.dropWhile (· = blank)).drop
        (min (max1 - 1) (firstToken args).length)).dropWhile (· = blank) =
          (args.dropWhile (· = blank)).drop (max1 - 1) := by
      rw [Nat.min_eq_left (by omega)]
      exact dropWhile_drop_token (by rw [← firstToken]; omega)
    have hskip := congrArg List.length
      (takeWhile_append_dropWhile (p := fun c => decide (c = blank)) (l := args))
    rw [length_append] at hskip
    rw [hrest] at hsplit
    have hend : tokenEnd args =
        (args.takeWhile (· = blank)).length + (firstToken args).length := rfl
    constructor
    · intro h
      refine .inr (Nat.le_of_not_lt fun hroom => ?_)
      -- the first character that is copied stands inside the token
      have hapart := h.apart 0
      rw [hsplit] at hapart
      simp only [length_take, length_drop] at hapart
      have := hapart (by omega)
      omega
    · rintro (h | h)
      · exact absurd h hfits
      · have hzero : max2 - 1 = 0 := by omega
        refine ⟨?_, ?_, fun i hi => ?_⟩
        · rw [hsplit]
        · rw [hsplit, hzero, take_zero, take_zero]
        · rw [hsplit, hzero] at hi
          exact absurd hi (Nat.not_lt_zero i)

/-- A file name of 33 characters is cut, and the rest of it is taken for the text to write. -/
theorem long_token_spills :
    ¬SplitsTokens (List.replicate 33 'a'.toUInt8 ++ ascii " text".toList) 32 256 := by
  intro h
  exact absurd (h.apart 0 (by decide)) (by decide)

/-- A short file name and a text. -/
theorem splitsTokens_short : SplitsTokens (ascii "notes.txt some text".toList) 32 256 :=
  (splitsTokens_iff _ _ _).2 (.inl (by decide))

end BengalTiger.Shell
