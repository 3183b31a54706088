import Mathlib.Data.List.TakeWhile
import Mathlib.Data.Nat.Notation
import Mathlib.Tactic.Common

/-!
# Reading JSON

A reader of JSON strings, and of objects whose members are strings. Blanks may stand between the
tokens; an escaped surrogate is not read.
-/

namespace Text

/-! ## Hexadecimal digits -/

def hexDigitValue (c : Char) : Option ℕ :=
  if '0' ≤ c ∧ c ≤ '9' then some (c.toNat - 48)
  else if 'a' ≤ c ∧ c ≤ 'f' then some (c.toNat - 87)
  else if 'A' ≤ c ∧ c ≤ 'F' then some (c.toNat - 55)
  else none

/-- A number in hexadecimal digits. -/
def hexValue (digits : List Char) : Option ℕ :=
  digits.foldlM (fun n c => (hexDigitValue c).map (16 * n + ·)) 0

/-! ## Strings -/

def doubleQuote : Char := Char.ofNat 0x22

def reverseSolidus : Char := Char.ofNat 0x5c

/-- The escapes of one character. -/
def shortEscapes : List (Char × Char) :=
  [(doubleQuote, doubleQuote), (reverseSolidus, reverseSolidus), ('/', '/'), ('b', Char.ofNat 0x08),
    ('f', Char.ofNat 0x0c), ('n', '\n'), ('r', '\r'), ('t', '\t')]

/-- Where a reader stands in a string: in its text, behind a reverse solidus, or between the
digits of an escape. -/
inductive StringState where
  | text
  | escape
  | digits (read : List Char)

/-- What is read of a string, and the rest behind it. -/
def readString : StringState → List Char → Option (List Char × List Char)
  | _, [] => none
  | .text, c :: rest =>
    if c = doubleQuote then some ([], rest)
    else if c = reverseSolidus then readString .escape rest
    else if c.toNat < 0x20 then none
    else (readString .text rest).map fun r => (c :: r.1, r.2)
  | .escape, c :: rest =>
    if c = 'u' then readString (.digits []) rest
    else (shortEscapes.lookup c).bind fun d =>
      (readString .text rest).map fun r => (d :: r.1, r.2)
  | .digits read, c :: rest =>
    if read.length < 3 then readString (.digits (read ++ [c])) rest
    else (hexValue (read ++ [c])).bind fun n =>
      if 0xd800 ≤ n ∧ n < 0xe000 then none
      else (readString .text rest).map fun r => (Char.ofNat n :: r.1, r.2)

/-! ## Objects -/

def isJsonBlank (c : Char) : Bool := c = ' ' || c = '\t' || c = '\n' || c = '\r'

/-- What is behind a token of one character. -/
def expect (token : Char) (text : List Char) : Option (List Char) :=
  match text.dropWhile isJsonBlank with
  | [] => none
  | c :: rest => if c = token then some rest else none

def readLiteral (text : List Char) : Option (List Char × List Char) :=
  (expect doubleQuote text).bind fun rest => readString .text rest

abbrev Member := List Char × List Char

def readMember (text : List Char) : Option (Member × List Char) := do
  let key ← readLiteral text
  let rest ← expect ':' key.2
  let value ← readLiteral rest
  return ((key.1, value.1), value.2)

/-- Members with commas between them and a brace behind them, as many as the fuel allows. -/
def readMembers : ℕ → List Char → Option (List Member × List Char)
  | 0, _ => none
  | fuel + 1, text => do
    let member ← readMember text
    match expect ',' member.2 with
    | some rest => do
      let members ← readMembers fuel rest
      return (member.1 :: members.1, members.2)
    | none => do
      let rest ← expect '}' member.2
      return ([member.1], rest)

/-- Every member takes a character at least, so the length of the text is enough. -/
def readObject (text : List Char) : Option (List Member × List Char) := do
  let rest ← expect '{' text
  match expect '}' rest with
  | some rest => return ([], rest)
  | none => readMembers rest.length rest

/-! ## Tokens that stand there -/

theorem expect_cons {token : Char} (h : isJsonBlank token = false) (rest : List Char) :
    expect token (token :: rest) = some rest := by
  rw [expect, List.dropWhile_cons_of_neg (by rw [h]; decide)]
  exact if_pos rfl

theorem expect_blank {c : Char} (h : isJsonBlank c = true) (token : Char) (rest : List Char) :
    expect token (c :: rest) = expect token rest := by
  rw [expect, List.dropWhile_cons_of_pos h, expect]

theorem expect_ne {c token : Char} (hblank : isJsonBlank c = false) (h : c ≠ token)
    (rest : List Char) : expect token (c :: rest) = none := by
  rw [expect, List.dropWhile_cons_of_neg (by rw [hblank]; decide)]
  exact if_neg h

theorem readLiteral_cons (rest : List Char) :
    readLiteral (doubleQuote :: rest) = readString .text rest := by
  rw [readLiteral, expect_cons (by decide)]
  rfl

theorem readLiteral_blank {c : Char} (h : isJsonBlank c = true) (rest : List Char) :
    readLiteral (c :: rest) = readLiteral rest := by
  rw [readLiteral, expect_blank h, readLiteral]

/-! ## Written strings -/

/-- A way to write characters that a reader undoes. -/
def Readable (escape : Char → List Char) : Prop :=
  ∀ c rest, readString .text (escape c ++ rest)
    = (readString .text rest).map fun r => (c :: r.1, r.2)

/-- A string, as `escape` writes its characters. -/
def written (escape : Char → List Char) (value : List Char) : List Char :=
  doubleQuote :: (value.flatMap escape ++ [doubleQuote])

def writtenMember (escape : Char → List Char) (member : Member) : List Char :=
  written escape member.1 ++ ':' :: written escape member.2

section Written

variable {escape : Char → List Char} (hescape : Readable escape)

include hescape

theorem readString_written (value rest : List Char) :
    readString .text (value.flatMap escape ++ doubleQuote :: rest) = some (value, rest) := by
  induction value with
  | nil => rfl
  | cons c value ih => rw [List.flatMap_cons, List.append_assoc, hescape, ih, Option.map_some]

theorem readLiteral_written (value rest : List Char) :
    readLiteral (written escape value ++ rest) = some (value, rest) := by
  rw [written, List.cons_append, List.append_assoc, readLiteral_cons]
  exact readString_written hescape value rest

theorem readMember_written (member : Member) (rest : List Char) :
    readMember (writtenMember escape member ++ rest) = some (member, rest) := by
  rw [writtenMember, List.append_assoc, readMember, readLiteral_written hescape, List.cons_append]
  dsimp only [Option.bind_eq_bind, Option.bind_some]
  rw [expect_cons (by decide), Option.bind_some, readLiteral_written hescape]
  rfl

/-- The members of an object are read one after the other. -/
theorem readMembers_written {fuel : ℕ} (member : Member) (members : List Member)
    (hfuel : members.length < fuel) (rest : List Char) :
    readMembers fuel
        ([','].intercalate ((member :: members).map (writtenMember escape)) ++ '}' :: rest)
      = some (member :: members, rest) := by
  induction members generalizing member fuel with
  | nil =>
    obtain ⟨fuel, rfl⟩ := Nat.exists_eq_add_of_lt hfuel
    rw [List.map_singleton, List.intercalate_singleton, readMembers, readMember_written hescape]
    dsimp only [Option.bind_eq_bind, Option.bind_some]
    rw [expect_ne (by decide) (by decide), expect_cons (by decide)]
    rfl
  | cons next members ih =>
    obtain ⟨fuel, rfl⟩ : ∃ n, fuel = n + 1 := ⟨fuel - 1, by omega⟩
    rw [List.map_cons, List.map_cons, List.intercalate_cons_cons, List.append_assoc,
      List.append_assoc, readMembers, readMember_written hescape]
    dsimp only [Option.bind_eq_bind, Option.bind_some]
    rw [List.singleton_append, expect_cons (by decide)]
    dsimp only
    rw [← List.map_cons, ih next (by rw [List.length_cons] at hfuel; omega)]
    rfl

omit hescape in
theorem length_le_intercalate (members : List Member) :
    members.length ≤ ([','].intercalate (members.map (writtenMember escape))).length := by
  induction members with
  | nil => exact Nat.zero_le _
  | cons member members ih =>
    have hmember : 1 ≤ (writtenMember escape member).length := by
      rw [writtenMember, written, List.cons_append, List.length_cons]
      omega
    cases members with
    | nil =>
      rw [List.map_singleton, List.intercalate_singleton]
      exact hmember
    | cons next members =>
      rw [List.map_cons, List.map_cons, List.intercalate_cons_cons, ← List.map_cons,
        List.length_append, List.length_append, List.length_cons]
      omega

/-- An object is read as it was written. -/
theorem readObject_written {members : List Member} (hne : members ≠ []) (rest : List Char) :
    readObject ('{' :: ([','].intercalate (members.map (writtenMember escape)) ++ ['}']) ++ rest)
      = some (members, rest) := by
  obtain ⟨member, members, rfl⟩ := List.exists_cons_of_ne_nil hne
  have hfirst : ∃ tail, [','].intercalate ((member :: members).map (writtenMember escape))
      = doubleQuote :: tail := by
    cases members with
    | nil => exact ⟨_, by rw [List.map_singleton, List.intercalate_singleton]; rfl⟩
    | cons next members =>
      exact ⟨_, by rw [List.map_cons, List.map_cons, List.intercalate_cons_cons]; rfl⟩
  have hlength : (member :: members).length
      ≤ ([','].intercalate ((member :: members).map (writtenMember escape))).length :=
    length_le_intercalate (member :: members)
  have hread (fuel : ℕ) (hfuel : members.length < fuel) :=
    readMembers_written hescape member members hfuel rest
  obtain ⟨tail, htail⟩ := hfirst
  rw [htail] at hlength hread ⊢
  rw [List.cons_append, List.append_assoc, List.singleton_append, readObject,
    expect_cons (by decide)]
  dsimp only [Option.bind_eq_bind, Option.bind_some]
  rw [List.cons_append, expect_ne (by decide) (by decide), ← List.cons_append]
  refine hread _ ?_
  rw [List.length_append]
  rw [List.length_cons] at hlength
  omega

end Written

end Text
