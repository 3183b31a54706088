import Mathlib.Data.List.Basic
import Mathlib.Data.Nat.Notation
import Mathlib.Tactic.Common

/-!
# Hexadecimal text

The bytes of a string in UTF-8, and bytes written as two lower-case digits each.
-/

namespace Text

/-! ## The bytes of a string -/

theorem toList_loop_byteArray (b : ByteArray) (n : ℕ) : ∀ (i : ℕ) (r : List UInt8),
    b.size - i = n → ByteArray.toList.loop b i r = r.reverse ++ b.data.toList.drop i := by
  induction n with
  | zero =>
    intro i r hn
    have hsize : b.data.toList.length = b.size := rfl
    rw [ByteArray.toList.loop, if_neg (by omega), List.drop_of_length_le (by omega),
      List.append_nil]
  | succ n ih =>
    intro i r hn
    have hi : i < b.data.toList.length := by
      have hsize : b.data.toList.length = b.size := rfl
      omega
    have hget : b.get! i = b.data.toList[i] := by
      show b.data[i]! = _
      rw [getElem!_pos b.data i hi, Array.getElem_toList]
    rw [ByteArray.toList.loop, if_pos (by omega), ih (i + 1) _ (by omega), hget,
      List.reverse_cons, List.append_assoc, List.drop_eq_getElem_cons hi]
    rfl

theorem toList_byteArray (b : ByteArray) : b.toList = b.data.toList := by
  rw [ByteArray.toList, toList_loop_byteArray b _ 0 [] rfl]
  rfl

/-- A string is written character by character. -/
theorem toList_toUTF8 (s : String) :
    s.toUTF8.toList = s.toList.flatMap String.utf8EncodeChar := by
  have hbytes : s.toUTF8 = s.toList.utf8Encode := String.utf8Encode_toList.symm
  rw [toList_byteArray, hbytes, List.utf8Encode, List.toList_data_toByteArray]

theorem toUTF8_inj {s t : String} (h : s.toUTF8.toList = t.toUTF8.toList) : s = t := by
  rw [toList_byteArray, toList_byteArray, Array.toList_inj] at h
  exact String.toByteArray_inj.mp (congrArg ByteArray.mk h)

/-! ## Separators -/

/-- What stands before the first separator, and what behind it. -/
theorem append_separator_inj {α : Type} {c : α} {a b x y : List α} (ha : c ∉ a) (hb : c ∉ b)
    (h : a ++ c :: x = b ++ c :: y) : a = b ∧ x = y := by
  induction a generalizing b with
  | nil =>
    cases b with
    | nil => exact ⟨rfl, (List.cons.inj h).2⟩
    | cons d b =>
      obtain ⟨rfl, -⟩ := List.cons.inj h
      exact absurd List.mem_cons_self hb
  | cons d a ih =>
    cases b with
    | nil =>
      obtain ⟨rfl, -⟩ := List.cons.inj h
      exact absurd List.mem_cons_self ha
    | cons e b =>
      obtain ⟨rfl, htail⟩ := List.cons.inj h
      obtain ⟨rfl, hrest⟩ := ih (fun hc => ha (List.mem_cons_of_mem _ hc))
        (fun hc => hb (List.mem_cons_of_mem _ hc)) htail
      exact ⟨rfl, hrest⟩

/-! ## Bytes and digits -/

/-- Two lower-case hexadecimal digits. -/
def hexByte (byte : ℕ) : List Char := [(byte / 16).digitChar, (byte % 16).digitChar]

def hexText (bytes : List UInt8) : List Char := bytes.flatMap (fun byte => hexByte byte.toNat)

def lowerHexDigits : List Char := "0123456789abcdef".toList

theorem digitChar_mem {n : ℕ} (hn : n < 16) : n.digitChar ∈ lowerHexDigits := by
  have hall : ∀ n < 16, n.digitChar ∈ lowerHexDigits := by decide
  exact hall n hn

theorem digitChar_inj {m n : ℕ} (hm : m < 16) (hn : n < 16) (h : m.digitChar = n.digitChar) :
    m = n := by
  have hall : ∀ m < 16, ∀ n < 16, m.digitChar = n.digitChar → m = n := by decide
  exact hall m hm n hn h

theorem mem_hexText {bytes : List UInt8} {c : Char} (h : c ∈ hexText bytes) :
    c ∈ lowerHexDigits := by
  obtain ⟨byte, -, hc⟩ := List.mem_flatMap.mp h
  have hbyte := byte.toNat_lt
  rcases List.mem_pair.mp hc with rfl | rfl
  · exact digitChar_mem (by omega)
  · exact digitChar_mem (by omega)

theorem hexByte_inj {a b : UInt8} (h : hexByte a.toNat = hexByte b.toNat) : a = b := by
  have ha := a.toNat_lt
  have hb := b.toNat_lt
  obtain ⟨hhigh, htail⟩ := List.cons.inj h
  have hdiv := digitChar_inj (by omega) (by omega) hhigh
  have hmod := digitChar_inj (by omega) (by omega) (List.cons.inj htail).1
  exact UInt8.toNat_inj.mp (by omega)

/-- Different bytes are written differently. -/
theorem hexText_inj {as bs : List UInt8} (h : hexText as = hexText bs) : as = bs := by
  induction as generalizing bs with
  | nil =>
    cases bs with
    | nil => rfl
    | cons b bs => cases h
  | cons a as ih =>
    cases bs with
    | nil => cases h
    | cons b bs =>
      have happend : hexByte a.toNat ++ hexText as = hexByte b.toNat ++ hexText bs := h
      obtain ⟨hhead, htail⟩ := List.append_inj happend rfl
      rw [hexByte_inj hhead, ih htail]

end Text
