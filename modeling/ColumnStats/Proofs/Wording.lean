import ColumnStats.Proofs.Output
import ColumnStats.Text.Terminal

/-!
# The wording of faults

What a fault says, character by character, and what a terminal shows of it.

* `Terminal.plain_append_newline`: when the line feed of a line is shown;
* `Text.Every`: a property of all characters; `Fault.quoted`: the texts that a fault quotes;
* `Fault.every_description`: **the wording has printable characters and those of the quoted texts**;
* `quoted_of_failed`: no run quotes a line feed, and none blames a sink that does not fail.
-/

namespace ColumnStats

open Text

/-! ## What is shown of a line -/

namespace Text.Terminal

/-- The mode after a text. -/
def Mode.after (mode : Mode) (text : List Char) : Mode := text.foldl Mode.next mode

/-- The text leaves a command or a string open, which hides even a line feed. -/
def leavesOpen (text : String) : Bool :=
  match Mode.text.after text.toList with
  | .hidden sequence => !sequence.isPorous
  | _ => false

theorem shown_append (mode : Mode) (text text' : List Char) :
    shown mode (text ++ text') = shown mode text ++ shown (mode.after text) text' := by
  induction text generalizing mode with
  | nil => rfl
  | cons c text ih =>
    rw [List.cons_append, shown, shown, ih]
    split <;> rfl

theorem shown_subset (mode : Mode) (text : List Char) : shown mode text ⊆ text := by
  induction text generalizing mode with
  | nil => exact List.Subset.refl _
  | cons c text ih =>
    rw [shown]
    split
    · exact List.cons_subset_cons c (ih _)
    · exact List.subset_cons_of_subset c (ih _)

theorem plain_append_newline (text : String) :
    plain (text ++ "\n") = plain text ++ if leavesOpen text then "" else "\n" := by
  have newline : "\n".toList = ['\n'] := rfl
  rw [plain, String.toList_append, newline, shown_append, String.ofList_append, plain, leavesOpen]
  cases Mode.text.after text.toList with
  | text => rfl
  | hidden sequence => cases sequence <;> rfl
  | suspended sequence => rfl

end Text.Terminal

/-! ## The wording of faults -/

namespace Text

/-- All characters of the text have the property. -/
def Every (p : Char → Prop) (text : String) : Prop := ∀ c ∈ text.toList, p c

/-- A character from the space to the tilde. -/
def IsAscii (c : Char) : Prop := 0x20 ≤ c.toNat ∧ c.toNat ≤ 0x7e

instance : DecidablePred IsAscii := fun _ => inferInstanceAs (Decidable (_ ∧ _))

instance (p : Char → Prop) [DecidablePred p] : DecidablePred (Every p) :=
  fun text => List.decidableBAll p text.toList

variable {p : Char → Prop} {text text' : String}

theorem every_append : Every p (text ++ text') ↔ Every p text ∧ Every p text' := by
  simp only [Every, String.toList_append, List.mem_append, or_imp, forall_and]

theorem every_ne_iff {c : Char} : Every (· ≠ c) text ↔ c ∉ text.toList := by
  constructor
  · exact fun h mem => h c mem rfl
  · rintro h d mem rfl
    exact h mem

theorem isAscii_of_isDigit {c : Char} (h : c.isDigit) : IsAscii c := by
  have zero : '0'.toNat = 0x30 := rfl
  have nine : '9'.toNat = 0x39 := rfl
  rw [Char.isDigit_iff_toNat] at h
  constructor <;> omega

theorem every_isAscii_toString (n : Nat) : Every IsAscii (toString n) := by
  intro c hc
  rw [Nat.toString_eq_repr, Nat.repr_eq_ofList_toDigits, String.toList_ofList] at hc
  exact isAscii_of_isDigit (Nat.isDigit_of_mem_toDigits (by omega) (by omega) hc)

theorem Terminal.isShown_of_isAscii {c : Char} (h : IsAscii c) : isShown c := by
  have code : c.toNat ≠ 0x7f := by
    have := h.2
    omega
  simp [isShown, h.1, code]

end Text

/-- The texts that a fault quotes. -/
def Fault.quoted : Fault → List String
  | .width .. => []
  | .notNumber _ column field => [column, field]
  | .tooFew column _ => [column]
  | .unreadable failure => [failure.text]
  | .unwritable failure => [failure.text]

/-- What the characters of the quoted texts have in common with all ASCII characters, those of the
wording have. -/
theorem Fault.every_description {p : Char → Prop} (ascii : ∀ c, IsAscii c → p c) {fault : Fault}
    (quoted : ∀ text ∈ fault.quoted, Every p text) : Every p fault.description := by
  have words {text : String} (h : Every IsAscii text) : Every p text := fun c hc => ascii c (h c hc)
  have number (n : Nat) : Every p (toString n) := words (every_isAscii_toString n)
  cases fault with
  | width line expected found =>
    simp only [description, cause?, message, every_append]
    exact ⟨⟨⟨⟨⟨words (by decide), number line⟩, words (by decide)⟩, number expected⟩,
      words (by decide)⟩, number found⟩
  | notNumber line column field =>
    obtain ⟨name, rest⟩ := List.forall_mem_cons.1 quoted
    have text := List.forall_mem_singleton.1 rest
    simp only [description, cause?, message, every_append]
    refine ⟨⟨⟨⟨⟨⟨⟨⟨words (by decide), number line⟩, words (by decide)⟩, name⟩, words (by decide)⟩,
      text⟩, words (by decide)⟩, words (by decide)⟩, ?_⟩
    split <;> exact words (by decide)
  | tooFew column values =>
    have name := List.forall_mem_singleton.1 quoted
    simp only [description, cause?, message, every_append]
    exact ⟨⟨⟨words (by decide), name⟩, words (by decide)⟩, number values⟩
  | unreadable failure =>
    have text := List.forall_mem_singleton.1 quoted
    simp only [description, cause?, message, every_append]
    exact ⟨⟨words (by decide), words (by decide)⟩, text⟩
  | unwritable failure =>
    have text := List.forall_mem_singleton.1 quoted
    simp only [description, cause?, message, every_append]
    exact ⟨⟨words (by decide), words (by decide)⟩, text⟩

/-! ## Faults of runs -/

section Quotations

variable {delimiter : Char} {bytes : List UInt8} {header : String}

theorem every_ne_newline_of_mem_fields (mem : encode header ∈ lineBytes bytes) {field : List Char}
    (hf : field ∈ fields delimiter header) : Every (· ≠ '\n') (String.ofList field) := by
  rw [every_ne_iff, String.toList_ofList]
  exact newline_notMem_of_mem_fields mem hf

theorem IsColumnName.every_ne_newline {position : Nat} {name : String}
    (h : IsColumnName ((fields delimiter header).map String.ofList) position name)
    (mem : encode header ∈ lineBytes bytes) : Every (· ≠ '\n') name := by
  rcases h with ⟨inside, rfl⟩ | ⟨-, rfl⟩
  · obtain ⟨field, hf, e⟩ := List.mem_map.1 (List.getElem_mem inside)
    rw [← e]
    exact every_ne_newline_of_mem_fields mem hf
  · refine every_append.2 ⟨by decide, fun c hc e => ?_⟩
    have := every_isAscii_toString (position + 1) c hc
    rw [e] at this
    exact absurd this (by decide)

theorem Verdict.every_ne_newline {number : Nat} {line : String} {fault : Fault}
    (h : Verdict ((fields delimiter header).map String.ofList) number (fields delimiter line)
      (.error fault))
    (first : encode header ∈ lineBytes bytes) (mem : encode line ∈ lineBytes bytes) :
    ∀ text ∈ fault.quoted, Every (· ≠ '\n') text := by
  cases h with
  | notNumber split _ _ named =>
    have hf : _ ∈ fields delimiter line := split ▸ List.mem_append_right _ List.mem_cons_self
    exact List.forall_mem_cons.2 ⟨named.every_ne_newline first,
      List.forall_mem_singleton.2 (every_ne_newline_of_mem_fields mem hf)⟩
  | width => simp [Fault.quoted]

end Quotations

theorem eq_notText_of_mem_lines {bytes : List UInt8} {failure : ReadFailure}
    (h : .error failure ∈ (⟨bytes, none⟩ : Source).lines) : failure = .notText := by
  obtain ⟨line, -, e⟩ := List.mem_map.1 h
  exact (readLine_eq_error_iff.1 e).2

/-- Where neither device fails, no fault is a failed write, and no text that it quotes has a line
feed. -/
theorem quoted_of_failed {settings : Settings} {bytes : List UInt8} {sink : Sink}
    (unfailing : sink.Unfailing) {fault : Fault}
    (failed : (analyze settings ⟨bytes, none⟩ sink).outcome = .error fault) :
    (∀ failure, fault ≠ .unwritable failure) ∧ ∀ text ∈ fault.quoted, Every (· ≠ '\n') text := by
  have notText : ∀ text ∈ (Fault.unreadable .notText).quoted, Every (· ≠ '\n') text :=
    List.forall_mem_singleton.2 (by decide)
  cases course_analyze settings ⟨bytes, none⟩ sink with
  | noLine lines run => simp [run] at failed
  | noHeader lines run =>
    obtain rfl := eq_notText_of_mem_lines (lines ▸ List.mem_cons_self)
    obtain rfl : _ = fault := by simpa [run _ _ lines] using failed
    exact ⟨by simp, notText⟩
  | @ended header texts _ bad rest _ lines _ ends run =>
    obtain ⟨events, run⟩ := run
    obtain rfl : _ = fault := by simpa [run _ _ lines] using failed
    refine ⟨ends.isUndefined_eq.2, ?_⟩
    obtain ⟨line, after, split, hr⟩ := exists_line_of_map_readLine lines
    cases ends with
    | unreadable failure =>
      obtain rfl := eq_notText_of_mem_lines (lines ▸ List.mem_append_right _ List.mem_cons_self)
      exact notText
    | @refused text _ verdict =>
      have first : encode header ∈ lineBytes bytes := by
        rw [split]
        exact List.mem_append_left _ List.mem_cons_self
      have here : encode text ∈ lineBytes bytes := by
        rw [split, readLine_eq_ok_iff.1 hr]
        exact List.mem_append_right _ List.mem_cons_self
      exact verdict.every_ne_newline first here
  | @report header texts rows table lines are holds outcome written =>
    rw [outcome] at failed
    rcases holds.report_cases unfailing settings.z with ⟨-, label, labels, split, named, -⟩ |
      ⟨-, summaries, -, none, -⟩
    · obtain rfl : _ = fault := by simpa [named] using failed
      have mem : encode header ∈ lineBytes bytes := by
        rw [Source.lineBytes_eq_of_lines_eq lines]
        exact List.mem_cons_self
      have hf : label ∈ fields (Char.ofUInt8 settings.delimiter) header :=
        split ▸ List.mem_cons_self
      exact ⟨by simp, List.forall_mem_singleton.2 (every_ne_newline_of_mem_fields mem hf)⟩
    · simp [none] at failed

theorem isAbandoned_of_failed {settings : Settings} {bytes : List UInt8} {sink : Sink}
    (unfailing : sink.Unfailing) {fault : Fault}
    (failed : (analyze settings ⟨bytes, none⟩ sink).outcome = .error fault) :
    fault.isAbandoned = false := by
  have written := (quoted_of_failed unfailing failed).1
  cases fault with
  | unwritable failure => exact absurd rfl (written failure)
  | _ => rfl

end ColumnStats
