import Mathlib.Data.Int.Notation
import Mathlib.Data.Nat.Notation

set_option autoImplicit false

/-!
# Key codes

The codes of `kernel/keyboard.h` that `input_wait_event` returns: characters, control codes and,
above 255, the keys for moving about.

## Main definitions

* `ctrlKey` — the code of a letter pressed with Ctrl.
* `keyUp` and the following — the other keys.
-/

namespace BengalTiger

/-- `CTRL_KEY`. -/
def ctrlKey (c : ℕ) : ℤ := (c &&& 0x1F : ℕ)

/-- `KEY_SPECIAL_UP`. -/
def keyUp : ℤ := 1001

/-- `KEY_SPECIAL_DOWN`. -/
def keyDown : ℤ := 1002

/-- `KEY_SPECIAL_LEFT`. -/
def keyLeft : ℤ := 1003

/-- `KEY_SPECIAL_RIGHT`. -/
def keyRight : ℤ := 1004

/-- `KEY_SPECIAL_HOME`. -/
def keyHome : ℤ := 1005

/-- `KEY_SPECIAL_END`. -/
def keyEnd : ℤ := 1006

/-- `KEY_SPECIAL_DELETE`. -/
def keyDelete : ℤ := 1007

/-- `KEY_SPECIAL_PGUP`. -/
def keyPgUp : ℤ := 1008

/-- `KEY_SPECIAL_PGDN`. -/
def keyPgDn : ℤ := 1009

/-- `KEY_SPECIAL_F1`. -/
def keyF1 : ℤ := 1010

/-- `KEY_SPECIAL_F2`. -/
def keyF2 : ℤ := 1011

end BengalTiger
