import Mathlib.Algebra.Ring.Nat
import Mathlib.Tactic.SplitIfs
import OmarchyWhatsapp.Relational.Fallible

/-!
# Byte slices with checked accesses

`getRange` finds nothing where a range is not in the slice. Indexing raises a fault there, as an addition
does that leaves the machine word. A parser without faults is one whose accesses are all in range.
The bytes of a number stand least significant first.
-/

namespace Relational

/-- A `&[u8]`. The language keeps it within `isize::MAX` bytes. -/
structure BytesRef where
  bytes : List UInt8
  bounded : bytes.length < 2 ^ 63

section Access

variable {α : Type*}

/-- The addition of two `usize` values. -/
def usizeAdd (a b : ℕ) : Except Halt ℕ :=
  if a + b < 2 ^ 64 then .ok (a + b) else .error .fault

theorem usizeAdd_of_lt {a b : ℕ} (h : a + b < 2 ^ 64) : usizeAdd a b = .ok (a + b) := if_pos h

theorem eq_of_usizeAdd {a b c : ℕ} (h : usizeAdd a b = .ok c) : c = a + b := by
  unfold usizeAdd at h
  split_ifs at h
  exact (Except.ok.inj h).symm

/-- `checked_add` at a width. -/
def checkedAdd (width a b : ℕ) : Option ℕ :=
  if a + b < 2 ^ width then some (a + b) else none

/-- `checked_mul` at a width. -/
def checkedMul (width a b : ℕ) : Option ℕ :=
  if a * b < 2 ^ width then some (a * b) else none

/-- `checked_sub` of unsigned numbers. -/
def checkedSub (a b : ℕ) : Option ℕ :=
  if b ≤ a then some (a - b) else none

/-- `div_ceil`. -/
def divCeil (a b : ℕ) : ℕ :=
  if a % b = 0 then a / b else a / b + 1

/-- `slice.get(start..stop)`. -/
def getRange (bytes : List α) (start stop : ℕ) : Option (List α) :=
  if start ≤ stop ∧ stop ≤ bytes.length then some ((bytes.drop start).take (stop - start)) else none

/-- `&slice[start..stop]`. -/
def atRange (bytes : List α) (start stop : ℕ) : Except Halt (List α) :=
  match getRange bytes start stop with
  | some part => .ok part
  | none => .error .fault

/-- `slice[i]`. -/
def atIndex (bytes : List α) (i : ℕ) : Except Halt α :=
  match bytes[i]? with
  | some b => .ok b
  | none => .error .fault

theorem atIndex_eq_ok {bytes : List α} {i : ℕ} {b : α} : atIndex bytes i = .ok b ↔ bytes[i]? = some b := by
  unfold atIndex
  split <;> simp_all

theorem exists_atIndex {bytes : List α} {i : ℕ} (h : i < bytes.length) :
    ∃ b, bytes[i]? = some b ∧ atIndex bytes i = .ok b :=
  ⟨bytes[i], List.getElem?_eq_getElem h, atIndex_eq_ok.mpr (List.getElem?_eq_getElem h)⟩

/-- An index that is reached by an addition. -/
def atOffset {α : Type} (bytes : List α) (start i : ℕ) : Except Halt α :=
  usizeAdd start i >>= fun index => atIndex bytes index

theorem exists_atOffset {α : Type} {bytes : List α} {start i : ℕ} (h : start + i < bytes.length)
    (hbounded : bytes.length < 2 ^ 63) : ∃ b, atOffset bytes start i = .ok b := by
  obtain ⟨b, -, hb⟩ := exists_atIndex h
  refine ⟨b, ?_⟩
  rw [atOffset, usizeAdd_of_lt (by omega)]
  exact hb

variable {bytes part rest : List α} {start n : ℕ}

/-- What stands behind a start is read there. -/
theorem atIndex_of_drop {b : α} (h : bytes.drop start = part) (hi : part[0]? = some b) :
    atIndex bytes start = .ok b := by
  rw [← h, List.getElem?_drop, Nat.add_zero] at hi
  exact atIndex_eq_ok.mpr hi

theorem atOffset_of_drop {α : Type} {bytes part : List α} {i : ℕ} {b : α}
    (h : bytes.drop start = part) (hi : part[i]? = some b) (hbounded : bytes.length < 2 ^ 63) :
    atOffset bytes start i = .ok b := by
  rw [← h, List.getElem?_drop] at hi
  have hlt := (List.getElem?_eq_some_iff.mp hi).1
  rw [atOffset, usizeAdd_of_lt (by omega)]
  exact atIndex_eq_ok.mpr hi

/-- The range that holds the next part. -/
theorem getRange_of_drop (h : bytes.drop start = part ++ rest) (hstart : start ≤ bytes.length) :
    getRange bytes start (start + part.length) = some part := by
  have hlength := congrArg List.length h
  rw [List.length_drop, List.length_append] at hlength
  rw [getRange, if_pos (by omega), h, Nat.add_sub_cancel_left, List.take_left]

/-- A range that is found splits what follows its start. -/
theorem drop_of_getRange (h : getRange bytes start (start + n) = some part) :
    part.length = n ∧ bytes.drop start = part ++ bytes.drop (start + n) := by
  unfold getRange at h
  split_ifs at h with hrange
  rw [Nat.add_sub_cancel_left] at h
  have hpart := Option.some.inj h
  refine ⟨?_, ?_⟩
  · rw [← hpart, List.length_take, List.length_drop]
    omega
  · rw [← hpart, ← List.drop_drop, List.take_append_drop]

theorem drop_split (bytes : List α) (start n : ℕ) :
    bytes.drop start = (bytes.drop start).take n ++ bytes.drop (start + n) := by
  rw [← List.drop_drop, List.take_append_drop]

theorem atRange_zero (h : n ≤ bytes.length) : atRange bytes 0 n = .ok (bytes.take n) := by
  rw [atRange, getRange, if_pos ⟨Nat.zero_le n, h⟩, List.drop_zero, Nat.sub_zero]

end Access

/-! ## Numbers -/

/-- `from_le_bytes`. -/
def leNat : List UInt8 → ℕ
  | [] => 0
  | b :: bytes => b.toNat + 256 * leNat bytes

/-- `to_le_bytes`, at a width in bytes. -/
def leBytes : ℕ → ℕ → List UInt8
  | 0, _ => []
  | width + 1, value => UInt8.ofNat value :: leBytes width (value / 256)

/-- `from_be_bytes`. -/
def beNat (bytes : List UInt8) : ℕ := leNat bytes.reverse

/-- `to_be_bytes`, at a width in bytes. -/
def beBytes (width value : ℕ) : List UInt8 := (leBytes width value).reverse

/-- `from_le_bytes(part.try_into().expect(..))`, for a number of a width in bytes. -/
def leArray (width : ℕ) (part : List UInt8) : Except Halt ℕ :=
  if part.length = width then .ok (leNat part) else .error .fault

@[simp] theorem length_leBytes (width value : ℕ) : (leBytes width value).length = width := by
  induction width generalizing value with
  | zero => rfl
  | succ width ih => rw [leBytes, List.length_cons, ih]

theorem leNat_lt (bytes : List UInt8) : leNat bytes < 256 ^ bytes.length := by
  induction bytes with
  | nil => exact Nat.one_pos
  | cons b bytes ih =>
    have hb : b.toNat < 256 := b.toNat_lt
    rw [leNat, List.length_cons, Nat.pow_succ]
    omega

theorem leNat_leBytes {width value : ℕ} (h : value < 256 ^ width) :
    leNat (leBytes width value) = value := by
  induction width generalizing value with
  | zero =>
    rw [Nat.pow_zero] at h
    rw [leBytes, leNat]
    omega
  | succ width ih =>
    rw [Nat.pow_succ] at h
    rw [leBytes, leNat, ih (by omega), UInt8.toNat_ofNat']
    omega

theorem beNat_lt (bytes : List UInt8) : beNat bytes < 256 ^ bytes.length := by
  rw [← List.length_reverse]
  exact leNat_lt bytes.reverse

theorem beNat_beBytes {width value : ℕ} (h : value < 256 ^ width) :
    beNat (beBytes width value) = value := by
  rw [beNat, beBytes, List.reverse_reverse, leNat_leBytes h]

theorem leBytes_leNat (bytes : List UInt8) : leBytes bytes.length (leNat bytes) = bytes := by
  induction bytes with
  | nil => rfl
  | cons b bytes ih =>
    have hb : b.toNat < 256 := b.toNat_lt
    have hdiv : (b.toNat + 256 * leNat bytes) / 256 = leNat bytes := by omega
    have hbyte : UInt8.ofNat (b.toNat + 256 * leNat bytes) = b := by
      apply UInt8.toNat_inj.mp
      rw [UInt8.toNat_ofNat']
      omega
    rw [List.length_cons, leNat, leBytes, hdiv, ih, hbyte]

/-- Every byte string is a number of its length. -/
theorem exists_leBytes {width : ℕ} {bytes : List UInt8} (h : bytes.length = width) :
    ∃ value, value < 256 ^ width ∧ leBytes width value = bytes :=
  ⟨leNat bytes, h ▸ leNat_lt bytes, h ▸ leBytes_leNat bytes⟩

theorem leArray_leBytes {width value : ℕ} (h : value < 256 ^ width) :
    leArray width (leBytes width value) = .ok value := by
  rw [leArray, if_pos (length_leBytes width value), leNat_leBytes h]

end Relational
