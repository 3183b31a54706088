import Mathlib.Algebra.Order.Ring.Int
import Mathlib.Algebra.Ring.Nat
import Mathlib.Data.List.Basic
import Mathlib.Data.List.Nodup
import Mathlib.Data.List.Perm.Basic
import Mathlib.Tactic.Common

/-!
# JSON values and what they stand for

A `Codec` writes a value as JSON and reads it back. `Members` are the members of an object that
belong together: a structure is written as the members of its fields, one after another, and a
tagged union as its tag with the members of one `Case`. A reader looks at the members of its own
names only, so that the order of the members does not matter and neither do members of other names.
-/

namespace Text

inductive Json where
  | null
  | bool (value : Bool)
  | number (value : ℤ)
  | string (value : String)
  | array (items : List Json)
  | object (members : List (String × Json))

abbrev Json.Member := String × Json

open Json (Member)

/-- The values of the members with a name. -/
def valuesOf (name : String) (members : List Member) : List Json :=
  (members.filter (fun m => m.1 = name)).map (·.2)

theorem valuesOf_cons (name : String) (m : Member) (members : List Member) :
    valuesOf name (m :: members) =
      if m.1 = name then m.2 :: valuesOf name members else valuesOf name members := by
  unfold valuesOf
  rw [List.filter_cons]
  by_cases h : m.1 = name
  · rw [if_pos (by simpa using h), if_pos h, List.map_cons]
  · rw [if_neg (by simpa using h), if_neg h]

theorem valuesOf_append (name : String) (members others : List Member) :
    valuesOf name (members ++ others) = valuesOf name members ++ valuesOf name others := by
  rw [valuesOf, List.filter_append, List.map_append]
  rfl

theorem valuesOf_eq_nil {name : String} {members : List Member}
    (h : ∀ m ∈ members, m.1 ≠ name) : valuesOf name members = [] := by
  rw [valuesOf, List.filter_eq_nil_iff.mpr fun m hm => by simpa using h m hm]
  rfl

theorem valuesOf_singleton (name : String) (value : Json) :
    valuesOf name [(name, value)] = [value] := by
  rw [valuesOf_cons, if_pos rfl]
  rfl

/-- Where no two members have one name, their order does not matter. -/
theorem valuesOf_perm {members members' : List Member} (h : members.Perm members')
    (hnodup : (members.map (·.1)).Nodup) (name : String) :
    valuesOf name members = valuesOf name members' := by
  have hperm : (valuesOf name members).Perm (valuesOf name members') := (h.filter _).map _
  have hsame : ∀ m ∈ members.filter (fun m => m.1 = name),
      ∀ m' ∈ members.filter (fun m => m.1 = name), m = m' := by
    intro m hm m' hm'
    have hname : m.1 = name := by simpa using List.of_mem_filter hm
    have hname' : m'.1 = name := by simpa using List.of_mem_filter hm'
    exact List.inj_on_of_nodup_map hnodup (List.mem_of_mem_filter hm)
      (List.mem_of_mem_filter hm') (hname.trans hname'.symm)
  have hfilter : (members.filter (fun m => m.1 = name)).Nodup :=
    (List.Nodup.of_map _ hnodup).filter _
  rcases hlist : members.filter (fun m => m.1 = name) with _ | ⟨m, _ | ⟨m', rest⟩⟩
  · rw [valuesOf, hlist] at hperm ⊢
    exact (List.nil_perm.mp hperm).symm
  · rw [valuesOf, hlist] at hperm ⊢
    exact List.singleton_perm.mp hperm
  · rw [hlist] at hsame hfilter
    have heq : m = m' := hsame m List.mem_cons_self m' (List.mem_cons_of_mem _ List.mem_cons_self)
    exact absurd (heq ▸ List.mem_cons_self) (List.nodup_cons.mp hfilter).1

/-! ## Values -/

variable {α β : Type}

structure Codec (α : Type) where
  encode : α → Json
  decode : Json → Option α
  /-- What the type of the value in the program can hold. -/
  valid : α → Bool
  decode_encode : ∀ a, valid a = true → decode (encode a) = some a
  valid_of_decode : ∀ json a, decode json = some a → valid a = true
  encode_ne_null : ∀ a, encode a ≠ .null

namespace Codec

def string : Codec String where
  encode := .string
  decode
    | .string value => some value
    | _ => none
  valid _ := true
  decode_encode _ _ := rfl
  valid_of_decode _ _ _ := rfl
  encode_ne_null _ h := by cases h

def bool : Codec Bool where
  encode := .bool
  decode
    | .bool value => some value
    | _ => none
  valid _ := true
  decode_encode _ _ := rfl
  valid_of_decode _ _ _ := rfl
  encode_ne_null _ h := by cases h

/-- A signed number of `width` bits. -/
def int (width : ℕ) : Codec ℤ where
  encode := .number
  decode
    | .number value =>
      if -2 ^ (width - 1) ≤ value ∧ value < 2 ^ (width - 1) then some value else none
    | _ => none
  valid value := decide (-2 ^ (width - 1) ≤ value ∧ value < 2 ^ (width - 1))
  decode_encode _ h := if_pos (of_decide_eq_true h)
  valid_of_decode json a h := by
    split at h
    · split at h <;> cases h
      exact decide_eq_true ‹_›
    · cases h
  encode_ne_null _ h := by cases h

/-- An unsigned number of `width` bits. -/
def nat (width : ℕ) : Codec ℕ where
  encode value := .number value
  decode
    | .number value => if 0 ≤ value ∧ value.toNat < 2 ^ width then some value.toNat else none
    | _ => none
  valid value := decide (value < 2 ^ width)
  decode_encode value h := by
    show (if 0 ≤ (value : ℤ) ∧ (value : ℤ).toNat < 2 ^ width then some (value : ℤ).toNat
      else none) = some value
    rw [Int.toNat_natCast, if_pos ⟨Int.natCast_nonneg value, of_decide_eq_true h⟩]
  valid_of_decode json a h := by
    split at h
    · split at h <;> cases h
      rename_i hrange
      exact decide_eq_true hrange.2
    · cases h
  encode_ne_null _ h := by cases h

/-- One word for each value. -/
def words (all : List α) (word : α → String)
    (h : ∀ a, all.find? (fun b => word b = word a) = some a) : Codec α where
  encode a := .string (word a)
  decode
    | .string value => all.find? (fun b => word b = value)
    | _ => none
  valid _ := true
  decode_encode a _ := h a
  valid_of_decode _ _ _ := rfl
  encode_ne_null _ h := by cases h

def readAll (decode : Json → Option α) : List Json → Option (List α)
  | [] => some []
  | item :: items => (decode item).bind fun a => (readAll decode items).map (a :: ·)

theorem readAll_map {decode : Json → Option α} {encode : α → Json} {values : List α}
    (h : ∀ a ∈ values, decode (encode a) = some a) :
    readAll decode (values.map encode) = some values := by
  induction values with
  | nil => rfl
  | cons a values ih =>
    rw [List.map_cons, readAll, h a List.mem_cons_self, Option.bind_some,
      ih fun b hb => h b (List.mem_cons_of_mem _ hb)]
    rfl

theorem of_readAll {decode : Json → Option α} {p : α → Bool} {items : List Json} {values : List α}
    (h : ∀ json a, decode json = some a → p a = true) (hread : readAll decode items = some values) :
    values.all p = true := by
  induction items generalizing values with
  | nil =>
    cases hread
    rfl
  | cons item items ih =>
    obtain ⟨a, ha, hrest⟩ := Option.bind_eq_some_iff.mp hread
    obtain ⟨rest, hitems, rfl⟩ := Option.map_eq_some_iff.mp hrest
    rw [List.all_cons, h item a ha, ih hitems]
    rfl

def list (c : Codec α) : Codec (List α) where
  encode values := .array (values.map c.encode)
  decode
    | .array items => readAll c.decode items
    | _ => none
  valid values := values.all c.valid
  decode_encode _ h := readAll_map fun a ha => c.decode_encode a (List.all_eq_true.mp h a ha)
  valid_of_decode json values h := by
    split at h
    · exact of_readAll c.valid_of_decode h
    · cases h
  encode_ne_null _ h := by cases h

theorem valid_nil (c : Codec α) : c.list.valid [] = true := rfl

end Codec

/-! ## Members -/

structure Members (α : Type) where
  names : List String
  write : α → List Member
  read : List Member → Option α
  valid : α → Bool
  write_mem : ∀ a, ∀ m ∈ write a, m.1 ∈ names
  write_nodup : ∀ a, ((write a).map (·.1)).Nodup
  /-- The reader looks at the members of its own names only. -/
  read_congr : ∀ members members',
    (∀ name ∈ names, valuesOf name members = valuesOf name members') →
    read members = read members'
  read_write : ∀ a, valid a = true → read (write a) = some a
  valid_of_read : ∀ members a, read members = some a → valid a = true

namespace Members

/-- What is written is read back from among members of other names, in any order. -/
theorem read_of_perm (f : Members α) {a : α} (h : f.valid a = true)
    {members others : List Member} (hperm : members.Perm (f.write a ++ others))
    (hothers : ∀ m ∈ others, m.1 ∉ f.names) : f.read members = some a := by
  have hown : (members.filter (fun m => m.1 ∈ f.names)).Perm (f.write a) := by
    refine (hperm.filter _).trans (List.Perm.of_eq ?_)
    rw [List.filter_append, List.filter_eq_self.mpr fun m hm => by simpa using f.write_mem a m hm,
      List.filter_eq_nil_iff.mpr fun m hm => by simpa using hothers m hm, List.append_nil]
  refine (f.read_congr _ _ fun name hname => ?_).trans (f.read_write a h)
  have hkept : valuesOf name members
      = valuesOf name (members.filter (fun m => m.1 ∈ f.names)) := by
    rw [valuesOf, valuesOf, List.filter_filter]
    refine congrArg _ (List.filter_congr fun m _ => ?_)
    by_cases hm : m.1 = name
    · simp [hm, hname]
    · simp [hm]
  rw [hkept]
  exact valuesOf_perm hown ((hown.map _).nodup_iff.mpr (f.write_nodup a)) name

/-- The reader of a member that has to be there. -/
def readRequired (decode : Json → Option α) : List Json → Option α
  | [value] => decode value
  | _ => none

/-- The reader of a member that has a default. -/
def readDefaulted (decode : Json → Option α) (default : α) : List Json → Option α
  | [] => some default
  | [value] => decode value
  | _ => none

/-- The reader of a value that may be `null` and may be missing. -/
def readOptional (decode : Json → Option α) : List Json → Option (Option α)
  | [] => some none
  | [.null] => some none
  | [value] => (decode value).map some
  | _ => none

theorem readOptional_encode (c : Codec α) {a : α} (h : c.valid a = true) :
    readOptional c.decode [c.encode a] = some (some a) := by
  unfold readOptional
  split
  · rename_i heq
    cases heq
  · rename_i heq
    exact absurd (List.singleton_inj.mp heq) (c.encode_ne_null a)
  · rename_i value hnull heq
    rw [← List.singleton_inj.mp heq, c.decode_encode a h]
    rfl
  · rename_i hne
    exact absurd rfl (hne _)

theorem valid_of_readDefaulted {c : Codec α} {default : α} (hdefault : c.valid default = true)
    {values : List Json} {a : α} (h : readDefaulted c.decode default values = some a) :
    c.valid a = true := by
  unfold readDefaulted at h
  split at h
  · cases h
    exact hdefault
  · exact c.valid_of_decode _ a h
  · cases h

theorem valid_of_readOptional {c : Codec α} {values : List Json} {value : Option α}
    (h : readOptional c.decode values = some value) : value.all c.valid = true := by
  unfold readOptional at h
  split at h
  · cases h
    rfl
  · cases h
    rfl
  · obtain ⟨a, ha, rfl⟩ := Option.map_eq_some_iff.mp h
    exact c.valid_of_decode _ a ha
  · cases h

/-- No member. -/
def nothing : Members Unit where
  names := []
  write _ := []
  read _ := some ()
  valid _ := true
  write_mem _ _ hm := by cases hm
  write_nodup _ := List.nodup_nil
  read_congr _ _ _ := rfl
  read_write _ _ := rfl
  valid_of_read _ _ _ := rfl

/-- At most one member. -/
def member (name : String) (write : α → Option Json) (read : List Json → Option α)
    (valid : α → Bool) (h : ∀ a, valid a = true → read (write a).toList = some a)
    (hvalid : ∀ values a, read values = some a → valid a = true) : Members α where
  names := [name]
  write a := (write a).toList.map fun value => (name, value)
  read members := read (valuesOf name members)
  valid
  write_mem a m hm := by
    obtain ⟨value, -, rfl⟩ := List.mem_map.mp hm
    exact List.mem_singleton_self name
  write_nodup a := by
    cases write a with
    | none => exact List.nodup_nil
    | some value => exact List.nodup_singleton name
  read_congr _ _ hsame := congrArg read (hsame name List.mem_cons_self)
  read_write a hvalid := by
    rw [← h a hvalid]
    refine congrArg read ?_
    cases write a with
    | none => rfl
    | some value => exact valuesOf_singleton name value
  valid_of_read members := hvalid (valuesOf name members)

def required (name : String) (c : Codec α) : Members α :=
  member name (fun a => some (c.encode a)) (readRequired c.decode) c.valid c.decode_encode
    fun values a h => by
      unfold readRequired at h
      split at h
      · exact c.valid_of_decode _ a h
      · cases h

/-- Always written, and read as a default where it is missing. -/
def defaulted (name : String) (c : Codec α) (default : α)
    (hdefault : c.valid default = true := by rfl) : Members α :=
  member name (fun a => some (c.encode a)) (readDefaulted c.decode default) c.valid c.decode_encode
    fun _ _ h => valid_of_readDefaulted hdefault h

/-- Left out where it has its default. -/
def unlessDefault [DecidableEq α] (name : String) (c : Codec α) (default : α)
    (hdefault : c.valid default = true := by rfl) : Members α :=
  member name (fun a => if a = default then none else some (c.encode a))
    (readDefaulted c.decode default) c.valid
    (fun a h => by
      split
      · rename_i heq
        exact congrArg some heq.symm
      · exact c.decode_encode a h)
    fun _ _ h => valid_of_readDefaulted hdefault h

/-- Left out where there is no value. -/
def optional (name : String) (c : Codec α) : Members (Option α) :=
  member name (Option.map c.encode) (readOptional c.decode) (Option.all c.valid)
    (fun value h => by
      cases value with
      | none => rfl
      | some a => exact readOptional_encode c h)
    fun _ _ h => valid_of_readOptional h

/-- `null` where there is no value. -/
def nullable (name : String) (c : Codec α) : Members (Option α) :=
  member name (fun value => some (value.elim .null c.encode)) (readOptional c.decode)
    (Option.all c.valid)
    (fun value h => by
      cases value with
      | none => rfl
      | some a => exact readOptional_encode c h)
    fun _ _ h => valid_of_readOptional h

/-- Members of two kinds, one after the other. -/
def and (f : Members α) (g : Members β) (h : ∀ name ∈ f.names, name ∉ g.names := by decide) :
    Members (α × β) where
  names := f.names ++ g.names
  write p := f.write p.1 ++ g.write p.2
  read members := (f.read members).bind fun a => (g.read members).map fun b => (a, b)
  valid p := f.valid p.1 && g.valid p.2
  write_mem p m hm := by
    rcases List.mem_append.mp hm with hm | hm
    · exact List.mem_append_left _ (f.write_mem p.1 m hm)
    · exact List.mem_append_right _ (g.write_mem p.2 m hm)
  write_nodup p := by
    rw [List.map_append, List.nodup_append']
    refine ⟨f.write_nodup p.1, g.write_nodup p.2, fun name hf hg => ?_⟩
    obtain ⟨m, hm, rfl⟩ := List.mem_map.mp hf
    obtain ⟨m', hm', heq⟩ := List.mem_map.mp hg
    exact h m.1 (f.write_mem p.1 m hm) (heq ▸ g.write_mem p.2 m' hm')
  read_congr members members' hsame := by
    rw [f.read_congr members members' fun name hname => hsame name (List.mem_append_left _ hname),
      g.read_congr members members' fun name hname => hsame name (List.mem_append_right _ hname)]
  read_write p hvalid := by
    obtain ⟨hf, hg⟩ := Bool.and_eq_true_iff.mp hvalid
    have hleft : f.read (f.write p.1 ++ g.write p.2) = some p.1 := by
      refine (f.read_congr _ _ fun name hname => ?_).trans (f.read_write p.1 hf)
      have hnone : valuesOf name (g.write p.2) = [] :=
        valuesOf_eq_nil fun m hm heq => h name hname (heq ▸ g.write_mem p.2 m hm)
      rw [valuesOf_append, hnone, List.append_nil]
    have hright : g.read (f.write p.1 ++ g.write p.2) = some p.2 := by
      refine (g.read_congr _ _ fun name hname => ?_).trans (g.read_write p.2 hg)
      have hnone : valuesOf name (f.write p.1) = [] :=
        valuesOf_eq_nil fun m hm heq => h m.1 (f.write_mem p.1 m hm) (heq ▸ hname)
      rw [valuesOf_append, hnone, List.nil_append]
    rw [hleft, hright]
    rfl
  valid_of_read members p h := by
    obtain ⟨a, ha, hrest⟩ := Option.bind_eq_some_iff.mp h
    obtain ⟨b, hb, rfl⟩ := Option.map_eq_some_iff.mp hrest
    rw [f.valid_of_read members a ha, g.valid_of_read members b hb]
    rfl

/-- The members of a structure, given those of its fields. -/
def map (f : Members α) (fields : β → α) (mk : α → β)
    (h : ∀ b, mk (fields b) = b := by intro _; rfl)
    (h' : ∀ a, fields (mk a) = a := by intro _; rfl) : Members β where
  names := f.names
  write b := f.write (fields b)
  read members := (f.read members).map mk
  valid b := f.valid (fields b)
  write_mem b := f.write_mem (fields b)
  write_nodup b := f.write_nodup (fields b)
  read_congr members members' hsame := by rw [f.read_congr members members' hsame]
  read_write b hvalid := by
    rw [f.read_write (fields b) hvalid]
    exact congrArg some (h b)
  valid_of_read members b hread := by
    obtain ⟨a, ha, rfl⟩ := Option.map_eq_some_iff.mp hread
    rw [h' a]
    exact f.valid_of_read members a ha

/-- The object that these members make up. -/
def object (f : Members α) : Codec α where
  encode a := .object (f.write a)
  decode
    | .object members => f.read members
    | _ => none
  valid := f.valid
  decode_encode := f.read_write
  valid_of_decode json a h := by
    split at h
    · exact f.valid_of_read _ a h
    · cases h
  encode_ne_null _ h := by cases h

end Members

/-! ## Tagged unions -/

/-- One case of a union: its tag and the members of its fields. -/
structure Case (α : Type) where
  tag : String
  names : List String
  /-- The members of a value of this case. -/
  write : α → Option (List Member)
  read : List Member → Option α
  valid : α → Bool
  write_mem : ∀ a, ∀ members ∈ write a, ∀ m ∈ members, m.1 ∈ names
  write_nodup : ∀ a, ∀ members ∈ write a, (members.map (·.1)).Nodup
  read_congr : ∀ members members',
    (∀ name ∈ names, valuesOf name members = valuesOf name members') →
    read members = read members'
  read_write : ∀ a, valid a = true → ∀ members ∈ write a, read members = some a
  valid_of_read : ∀ members a, read members = some a → (write a).isSome = true ∧ valid a = true

namespace Case

def of (tag : String) (f : Members β) (mk : β → α) (fields : α → Option β)
    (h : ∀ a b, fields a = some b → mk b = a := by intro a b h; cases a <;> cases h <;> rfl)
    (h' : ∀ b, fields (mk b) = some b := by intro _; rfl) : Case α where
  tag
  names := f.names
  write a := (fields a).map f.write
  read members := (f.read members).map mk
  valid a := (fields a).all f.valid
  write_mem a members hmem := by
    obtain ⟨b, -, rfl⟩ := Option.map_eq_some_iff.mp hmem
    exact f.write_mem b
  write_nodup a members hmem := by
    obtain ⟨b, -, rfl⟩ := Option.map_eq_some_iff.mp hmem
    exact f.write_nodup b
  read_congr members members' hsame := by rw [f.read_congr members members' hsame]
  read_write a hvalid members hmem := by
    obtain ⟨b, hb, rfl⟩ := Option.map_eq_some_iff.mp hmem
    rw [hb] at hvalid
    rw [f.read_write b hvalid]
    exact congrArg some (h a b hb)
  valid_of_read members a hread := by
    obtain ⟨b, hb, rfl⟩ := Option.map_eq_some_iff.mp hread
    rw [h' b]
    exact ⟨rfl, f.valid_of_read members b hb⟩

/-- A case without fields. -/
def unit [DecidableEq α] (tag : String) (value : α) : Case α :=
  of tag .nothing (fun _ => value) (fun a => if a = value then some () else none)
    (fun a _ h => by
      split at h
      · rename_i heq
        exact heq.symm
      · cases h)
    fun _ => if_pos rfl

/-- What the first case writes that a value is of. -/
def writeFirst (tagName : String) : List (Case α) → α → List Member
  | [], _ => []
  | c :: cases, a => match c.write a with
    | some members => (tagName, .string c.tag) :: members
    | none => writeFirst tagName cases a

def readTagged (cases : List (Case α)) (members : List Member) : List Json → Option α
  | [.string tag] => (cases.find? (fun c => c.tag = tag)).bind (·.read members)
  | _ => none

/-- The one case that a value is of. -/
theorem writeFirst_eq (tagName : String) {cases : List (Case α)} {a : α}
    (h : (cases.filter (fun c => (c.write a).isSome)).length = 1) :
    ∃ c ∈ cases, ∃ members ∈ c.write a,
      writeFirst tagName cases a = (tagName, .string c.tag) :: members := by
  induction cases with
  | nil => cases h
  | cons c cases ih =>
    rw [writeFirst]
    rcases hwrite : c.write a with _ | members
    · rw [List.filter_cons_of_neg (by rw [hwrite]; exact Bool.false_ne_true)] at h
      obtain ⟨d, hd, members, hmem, heq⟩ := ih h
      exact ⟨d, List.mem_cons_of_mem _ hd, members, hmem, heq⟩
    · exact ⟨c, List.mem_cons_self, members, hwrite, rfl⟩

theorem eq_of_isSome {cases : List (Case α)} {a : α}
    (h : (cases.filter (fun c => (c.write a).isSome)).length = 1) {c d : Case α} (hc : c ∈ cases)
    (hd : d ∈ cases) (hcwrite : (c.write a).isSome = true) (hdwrite : (d.write a).isSome = true) :
    c = d := by
  obtain ⟨e, he⟩ := List.length_eq_one_iff.mp h
  have hce : c ∈ cases.filter (fun c => (c.write a).isSome) := List.mem_filter.mpr ⟨hc, hcwrite⟩
  have hde : d ∈ cases.filter (fun c => (c.write a).isSome) := List.mem_filter.mpr ⟨hd, hdwrite⟩
  rw [he, List.mem_singleton] at hce hde
  exact hce.trans hde.symm

theorem find?_tag {cases : List (Case α)} (hnodup : (cases.map (·.tag)).Nodup) {c : Case α}
    (hc : c ∈ cases) : cases.find? (fun d => d.tag = c.tag) = some c := by
  induction cases with
  | nil => cases hc
  | cons d cases ih =>
    rw [List.map_cons, List.nodup_cons] at hnodup
    rcases List.mem_cons.mp hc with rfl | hc
    · exact List.find?_cons_of_pos (decide_eq_true rfl)
    · rw [List.find?_cons_of_neg, ih hnodup.2 hc]
      rw [decide_eq_true_eq]
      exact fun heq => hnodup.1 (heq ▸ List.mem_map_of_mem hc)

end Case

theorem Case.mem_names {cases : List (Case α)} {c : Case α} (hc : c ∈ cases) {name : String}
    (hname : name ∈ c.names) : name ∈ cases.flatMap (·.names) :=
  List.mem_flatMap.mpr ⟨c, hc, hname⟩

/-- A union: the member with the tag, and those of its case. -/
def Members.tagged (tagName : String) (cases : List (Case α))
    (hone : ∀ a, (cases.filter (fun c => (c.write a).isSome)).length = 1)
    (htags : (cases.map (·.tag)).Nodup := by decide)
    (hname : ∀ name ∈ cases.flatMap (·.names), name ≠ tagName := by decide) : Members α where
  names := tagName :: cases.flatMap (·.names)
  write := Case.writeFirst tagName cases
  read members := Case.readTagged cases members (valuesOf tagName members)
  valid a := cases.all (fun c => !(c.write a).isSome || c.valid a)
  write_mem a m hm := by
    obtain ⟨c, hc, members, hmem, heq⟩ := Case.writeFirst_eq tagName (hone a)
    rw [heq] at hm
    rcases List.mem_cons.mp hm with rfl | hm
    · exact List.mem_cons_self
    · exact List.mem_cons_of_mem _ (Case.mem_names hc (c.write_mem a members hmem m hm))
  write_nodup a := by
    obtain ⟨c, hc, members, hmem, heq⟩ := Case.writeFirst_eq tagName (hone a)
    rw [heq, List.map_cons, List.nodup_cons]
    refine ⟨fun hm => ?_, c.write_nodup a members hmem⟩
    obtain ⟨m, hm, hmname⟩ := List.mem_map.mp hm
    exact hname m.1 (Case.mem_names hc (c.write_mem a members hmem m hm)) hmname
  read_congr members members' hsame := by
    rw [hsame tagName List.mem_cons_self]
    unfold Case.readTagged
    split
    · rename_i tag _
      rcases hfind : cases.find? (fun c => c.tag = tag) with _ | c
      · rw [hfind]
        rfl
      · rw [hfind]
        exact c.read_congr members members' fun name hmem => hsame name
          (List.mem_cons_of_mem _ (Case.mem_names (List.mem_of_find?_eq_some hfind) hmem))
    · rfl
  read_write a hvalid := by
    obtain ⟨c, hc, members, hmem, heq⟩ := Case.writeFirst_eq tagName (hone a)
    have hne : ∀ m ∈ members, m.1 ≠ tagName := fun m hm =>
      hname m.1 (Case.mem_names hc (c.write_mem a members hmem m hm))
    have htag : valuesOf tagName ((tagName, .string c.tag) :: members) = [.string c.tag] := by
      rw [valuesOf_cons, if_pos rfl, valuesOf_eq_nil hne]
    rw [heq, htag]
    show (cases.find? (fun d => d.tag = c.tag)).bind _ = some a
    rw [Case.find?_tag htags hc, Option.bind_some]
    -- the reader of the case does not look at the tag
    have hvalid' := List.all_eq_true.mp hvalid c hc
    rw [hmem] at hvalid'
    refine (c.read_congr _ members fun name hmem => ?_).trans (c.read_write a hvalid' members hmem)
    exact (valuesOf_cons name _ members).trans
      (if_neg (hname name (Case.mem_names hc hmem)).symm)
  valid_of_read members a hread := by
    unfold Case.readTagged at hread
    split at hread
    · obtain ⟨c, hfind, hc⟩ := Option.bind_eq_some_iff.mp hread
      obtain ⟨hwrite, hvalid⟩ := c.valid_of_read members a hc
      refine List.all_eq_true.mpr fun d hd => ?_
      rcases hother : (d.write a).isSome with _ | _
      · rfl
      · rw [Case.eq_of_isSome (hone a) hd (List.mem_of_find?_eq_some hfind) hother hwrite]
        exact hvalid
    · cases hread

end Text
