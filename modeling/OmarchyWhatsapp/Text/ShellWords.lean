import Mathlib.Data.List.Basic
import Mathlib.Tactic.Common

/-!
# Words of a shell command

How a POSIX shell splits a command into words, as far as blanks, backslashes and single quotes go.
A command with another character that means something to a shell, outside quotes, is not read, nor
is one with a NUL in it.
-/

namespace Text

def singleQuote : Char := Char.ofNat 0x27

def escapeCharacter : Char := Char.ofNat 0x5c

/-- Characters that have to be quoted, or may have to be. -/
def shellSpecials : List Char :=
  ['|', '&', ';', '<', '>', '(', ')', '$', Char.ofNat 0x60, Char.ofNat 0x22, '\n', '*', '?', '[',
    ']', '#', '~', '=', '%', '!', '{', '}', ',', '^']

/-- Where the shell stands: between words, in a word, behind a backslash, or in quotes. -/
inductive ShellState where
  | between
  | word
  | escaped
  | quoted

/-- The words of a command, where `word` is what has been read of the current one. -/
def shellWords : ShellState → List Char → List Char → Option (List (List Char))
  | .between, _, [] => some []
  | .word, word, [] => some [word]
  | .escaped, _, [] => none
  | .quoted, _, [] => none
  | state, word, c :: rest =>
    if c.toNat = 0 then none
    else match state with
      | .quoted =>
        if c = singleQuote then shellWords .word word rest
        else shellWords .quoted (word ++ [c]) rest
      | .escaped =>
        if c = '\n' then none else shellWords .word (word ++ [c]) rest
      | .between =>
        if c = ' ' ∨ c = '\t' then shellWords .between [] rest
        else if c = singleQuote then shellWords .quoted [] rest
        else if c = escapeCharacter then shellWords .escaped [] rest
        else if c ∈ shellSpecials then none
        else shellWords .word [c] rest
      | .word =>
        if c = ' ' ∨ c = '\t' then (shellWords .between [] rest).map (word :: ·)
        else if c = singleQuote then shellWords .quoted word rest
        else if c = escapeCharacter then shellWords .escaped word rest
        else if c ∈ shellSpecials then none
        else shellWords .word (word ++ [c]) rest

/-- The words of a command. -/
def splitWords (command : List Char) : Option (List (List Char)) := shellWords .between [] command

/-! ## Plain words -/

/-- A character that stands for itself. -/
def isBare (c : Char) : Bool :=
  c.toNat ≠ 0 && c ≠ ' ' && c ≠ '\t' && c ≠ singleQuote && c ≠ escapeCharacter &&
    c ∉ shellSpecials

theorem isBare_iff {c : Char} : isBare c = true ↔ c.toNat ≠ 0 ∧ ¬(c = ' ' ∨ c = '\t') ∧
    c ≠ singleQuote ∧ c ≠ escapeCharacter ∧ c ∉ shellSpecials := by
  simp only [isBare, Bool.and_eq_true, decide_eq_true_eq, not_or, and_assoc, ne_eq]

theorem shellWords_word {c : Char} (h : isBare c = true) (word rest : List Char) :
    shellWords .word word (c :: rest) = shellWords .word (word ++ [c]) rest := by
  obtain ⟨hnul, hblank, hquote, hescape, hspecial⟩ := isBare_iff.mp h
  rw [shellWords.eq_def]
  dsimp only
  rw [if_neg hnul, if_neg hblank, if_neg hquote, if_neg hescape, if_neg hspecial]

theorem shellWords_between {c : Char} (h : isBare c = true) (word rest : List Char) :
    shellWords .between word (c :: rest) = shellWords .word [c] rest := by
  obtain ⟨hnul, hblank, hquote, hescape, hspecial⟩ := isBare_iff.mp h
  rw [shellWords.eq_def]
  dsimp only
  rw [if_neg hnul, if_neg hblank, if_neg hquote, if_neg hescape, if_neg hspecial]

/-- A blank ends a word. -/
theorem shellWords_plain {word : List Char} (h : word.all isBare = true) (read rest : List Char) :
    shellWords .word read (word ++ ' ' :: rest)
      = (shellWords .between [] rest).map ((read ++ word) :: ·) := by
  induction word generalizing read with
  | nil =>
    rw [List.append_nil]
    rfl
  | cons c word ih =>
    rw [List.all_cons, Bool.and_eq_true] at h
    rw [List.cons_append, shellWords_word h.1, ih h.2, List.append_assoc]
    rfl

/-- Plain words, each with a blank behind it, come before the words of the rest. -/
theorem splitWords_append {words : List (List Char)}
    (h : ∀ word ∈ words, word ≠ [] ∧ word.all isBare = true) (rest : List Char) :
    splitWords (words.flatMap (· ++ [' ']) ++ rest) = (splitWords rest).map (words ++ ·) := by
  induction words with
  | nil =>
    show splitWords rest = _
    cases splitWords rest <;> rfl
  | cons word words ih =>
    obtain ⟨hne, hplain⟩ := h word List.mem_cons_self
    obtain ⟨c, tail, rfl⟩ := List.exists_cons_of_ne_nil hne
    rw [List.all_cons, Bool.and_eq_true] at hplain
    rw [List.flatMap_cons, List.append_assoc, List.append_assoc, splitWords, List.cons_append,
      shellWords_between hplain.1, List.singleton_append, shellWords_plain hplain.2]
    show (splitWords _).map _ = _
    rw [ih fun word hword => h word (List.mem_cons_of_mem _ hword), Option.map_map]
    rfl

/-! ## Quoted words -/

/-- How a character is written between single quotes. -/
def quoteCharacter (c : Char) : List Char :=
  if c = singleQuote then [singleQuote, escapeCharacter, singleQuote, singleQuote] else [c]

theorem shellWords_quoteCharacter {c : Char} (h : c.toNat ≠ 0) (word rest : List Char) :
    shellWords .quoted word (quoteCharacter c ++ rest) = shellWords .quoted (word ++ [c]) rest := by
  unfold quoteCharacter
  split
  · next hc =>
    -- the quotes are closed, the quote is escaped, and the quotes are opened again
    rw [hc]
    rfl
  · next hc =>
    show (if c.toNat = 0 then none
      else if c = singleQuote then _ else shellWords .quoted (word ++ [c]) rest) = _
    rw [if_neg h, if_neg hc]

/-- Between single quotes stands a word as it is. -/
theorem shellWords_quoted {value : List Char} (h : ∀ c ∈ value, c.toNat ≠ 0)
    (word rest : List Char) :
    shellWords .quoted word (value.flatMap quoteCharacter ++ singleQuote :: rest)
      = shellWords .word (word ++ value) rest := by
  induction value generalizing word with
  | nil =>
    rw [List.append_nil]
    rfl
  | cons c value ih =>
    rw [List.flatMap_cons, List.append_assoc,
      shellWords_quoteCharacter (h c List.mem_cons_self),
      ih (fun d hd => h d (List.mem_cons_of_mem _ hd)), List.append_assoc]
    rfl

/-- A quoted text is one word. -/
theorem splitWords_quoted {value : List Char} (h : ∀ c ∈ value, c.toNat ≠ 0) :
    splitWords (singleQuote :: (value.flatMap quoteCharacter ++ [singleQuote])) = some [value] := by
  show shellWords .quoted [] _ = _
  rw [shellWords_quoted h, List.nil_append]
  rfl

end Text
