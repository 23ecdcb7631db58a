/-!
# Text for a terminal

Text can steer a terminal instead of being shown: by single control characters, and by sequences
that the escape character begins. `plain` keeps what is shown.

* `plain_eq_self`: text without control characters is kept as it is;
* `isShown_of_mem_plain`: **nothing that steers a terminal remains**.
-/

namespace ColumnStats.Text.Terminal

/-- Tab, line feed, form feed and carriage return. -/
def isSpacing (c : Char) : Bool := ['\t', '\n', '\x0c', '\r'].contains c

/-- The character is shown, or parts what is shown. -/
def isShown (c : Char) : Bool := (0x20 ≤ c.toNat && c.toNat != 0x7f) || isSpacing c

/-- The begun sequence, or the part of it that is being read. -/
inductive Sequence where
  /-- The escape character alone. -/
  | escape
  /-- An escape with marks, up to a letter or digit. -/
  | escapeMarks
  /-- A control sequence, up to a letter. -/
  | control
  /-- A command to the system, up to the bell. -/
  | command
  /-- The head of a string to a device. -/
  | device
  | deviceParameters
  | deviceMarks
  /-- A string, up to its terminator. -/
  | string
  deriving DecidableEq, Repr

/-- The place of a character: in the text or in a sequence. -/
inductive Mode where
  | text
  | hidden (sequence : Sequence)
  /-- Text after spacing within a sequence, which a control character takes up again. -/
  | suspended (sequence : Sequence)
  deriving DecidableEq, Repr

namespace Sequence

/-- Spacing within the sequence is shown. -/
def isPorous : Sequence → Bool
  | escape | escapeMarks | control => true
  | _ => false

/-- The mode after a character that takes the sequence further. A string ends at the byte 9C, even
at one within a character. -/
def advance (sequence : Sequence) (c : Char) : Mode :=
  let code := c.toNat
  match sequence with
  | escape =>
    if 0x20 ≤ code ∧ code ≤ 0x2f then .hidden escapeMarks
    else if c = '[' then .hidden control
    else if c = ']' then .hidden command
    else if c = 'P' then .hidden device
    else if c = 'X' ∨ c = '^' ∨ c = '_' then .hidden string
    else if 0x30 ≤ code ∧ code ≤ 0x7e then .text
    else .hidden escape
  | escapeMarks => if 0x30 ≤ code ∧ code ≤ 0x7e then .text else .hidden escapeMarks
  | control => if 0x40 ≤ code ∧ code ≤ 0x7e then .text else .hidden control
  | command => if c = '\x07' then .text else .hidden command
  | device =>
    if 0x20 ≤ code ∧ code ≤ 0x2f then .hidden deviceMarks
    else if 0x30 ≤ code ∧ code ≤ 0x3f then .hidden deviceParameters
    else if 0x40 ≤ code ∧ code ≤ 0x7e then .hidden string
    else .hidden device
  | deviceParameters =>
    if 0x20 ≤ code ∧ code ≤ 0x2f then .hidden deviceMarks
    else if 0x3c ≤ code ∧ code ≤ 0x7e then .hidden string
    else .hidden deviceParameters
  | deviceMarks => if 0x30 ≤ code ∧ code ≤ 0x7e then .hidden string else .hidden deviceMarks
  | string => if (String.utf8EncodeChar c).contains 0x9c then .text else .hidden string

/-- The mode after a character. The escape character begins anew; two characters cancel. -/
def next (sequence : Sequence) (c : Char) : Mode :=
  if c = '\x1b' then .hidden escape
  else if c = '\x18' ∨ c = '\x1a' then .text
  else if sequence.isPorous ∧ isSpacing c then .suspended sequence
  else sequence.advance c

end Sequence

namespace Mode

/-- The mode after a character; from U+0080 on, one ends a suspended sequence. -/
def next : Mode → Char → Mode
  | text, c => if c = '\x1b' then hidden .escape else text
  | hidden sequence, c => sequence.next c
  | suspended sequence, c =>
    if 0x80 ≤ c.toNat then text else if isShown c then suspended sequence else sequence.next c

/-- Whether a character is shown; in a sequence, spacing alone may be. -/
def shows : Mode → Char → Bool
  | hidden sequence, c => sequence.isPorous && isSpacing c
  | _, c => isShown c

end Mode

/-- What is shown of a text. -/
def shown : Mode → List Char → List Char
  | _, [] => []
  | mode, c :: rest =>
    if mode.shows c then c :: shown (mode.next c) rest else shown (mode.next c) rest

/-- The text without what would steer a terminal. -/
def plain (text : String) : String := String.ofList (shown .text text.toList)

theorem isShown_of_shows {mode : Mode} {c : Char} (h : mode.shows c) : isShown c := by
  cases mode with
  | text => exact h
  | hidden sequence =>
    simp only [Mode.shows, Bool.and_eq_true] at h
    simp [isShown, h.2]
  | suspended sequence => exact h

theorem isShown_of_mem_shown {mode : Mode} {text : List Char} {c : Char}
    (h : c ∈ shown mode text) : isShown c := by
  induction text generalizing mode with
  | nil => simp [shown] at h
  | cons first rest ih =>
    rw [shown] at h
    split at h
    · next hfirst =>
      rcases List.mem_cons.1 h with rfl | h
      · exact isShown_of_shows hfirst
      · exact ih h
    · exact ih h

theorem shown_eq_self {text : List Char} (h : ∀ c ∈ text, isShown c) : shown .text text = text := by
  induction text with
  | nil => rfl
  | cons c rest ih =>
    have hc := h c List.mem_cons_self
    have escape : c ≠ '\x1b' := fun e => absurd hc (by rw [e]; decide)
    simp [shown, Mode.shows, Mode.next, hc, escape, ih fun d hd => h d (List.mem_cons_of_mem _ hd)]

theorem isShown_of_mem_plain {text : String} {c : Char} (h : c ∈ (plain text).toList) :
    isShown c := by
  rw [plain, String.toList_ofList] at h
  exact isShown_of_mem_shown h

theorem plain_eq_self {text : String} (h : ∀ c ∈ text.toList, isShown c) : plain text = text := by
  rw [plain, shown_eq_self h, String.ofList_toList]

end ColumnStats.Text.Terminal
