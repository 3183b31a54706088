import OmarchyWhatsapp.Relational.Table

/-!
# A map of weak references

The map does not keep its objects alive: `prune` drops the entries whose object is gone, and
`upgrade` returns the object of a key, or puts a new one into its place. `Names` is the invariant:
the references that are in use for a key are to the object that the map has for it.
-/

namespace Relational

structure WeakEntry (κ : Type*) where
  key : κ
  target : ℕ
deriving DecidableEq, Repr

structure WeakMap (κ : Type*) where
  entries : Table (WeakEntry κ) WeakEntry.key := ∅
  /-- The next object. -/
  next : ℕ := 0

namespace WeakMap

variable {κ : Type*} [DecidableEq κ]

def prune (m : WeakMap κ) (alive : ℕ → Bool) : WeakMap κ :=
  { m with entries := m.entries.deleteWhere (fun e => !alive e.target) }

def upgrade (m : WeakMap κ) (alive : ℕ → Bool) (k : κ) : WeakMap κ × ℕ :=
  match (m.entries.find? k).filter (fun e => alive e.target) with
  | some e => (m, e.target)
  | none =>
    ({ entries := (m.entries.deleteWhere (fun e => e.key = k)).insertOrIgnore ⟨k, m.next⟩
       next := m.next + 1 }, m.next)

/-- The references in use, each with its key, are to the objects of the map. -/
def Names (m : WeakMap κ) (refs : List (κ × ℕ)) : Prop :=
  ∀ ref ∈ refs, m.entries.find? ref.1 = some ⟨ref.1, ref.2⟩

namespace Names

variable {m : WeakMap κ} {refs : List (κ × ℕ)} {alive : ℕ → Bool} {k : κ}

theorem nil : m.Names [] := fun _ h => absurd h List.not_mem_nil

/-- One key has one object. -/
theorem target_eq (h : m.Names refs) {i j : ℕ} (hi : (k, i) ∈ refs) (hj : (k, j) ∈ refs) :
    i = j := by
  have hfind : m.entries.find? k = some ⟨k, i⟩ := h _ hi
  rw [h _ hj] at hfind
  exact (congrArg WeakEntry.target (Option.some.inj hfind)).symm

/-- References are given up. -/
theorem subset (h : m.Names refs) {rest : List (κ × ℕ)} (hsub : ∀ ref ∈ rest, ref ∈ refs) :
    m.Names rest := fun ref href => h ref (hsub ref href)

theorem prune (h : m.Names refs) (halive : ∀ ref ∈ refs, alive ref.2 = true) :
    (m.prune alive).Names refs := by
  intro ref href
  rw [WeakMap.prune, Table.find?_deleteWhere, h ref href]
  simp [Option.filter, halive ref href]

/-- The object of an entry that is gone is not in use, so another one can take its place. -/
theorem upgrade (h : m.Names refs) (halive : ∀ ref ∈ refs, alive ref.2 = true) :
    (m.upgrade alive k).1.Names ((k, (m.upgrade alive k).2) :: refs) := by
  unfold WeakMap.upgrade
  intro ref href
  split
  · rename_i e hfound
    obtain ⟨hentry, -⟩ := Option.filter_eq_some_iff.mp hfound
    rw [hfound] at href
    rcases List.mem_cons.mp href with rfl | href
    · have hkey : e.key = k := Table.key_of_find? hentry
      subst hkey
      exact hentry
    · exact h ref href
  · rename_i hgone
    rw [hgone] at href
    rw [Table.find?_insertOrIgnore, Table.find?_deleteWhere_key]
    rcases List.mem_cons.mp href with rfl | hold
    · simp
    · have hne : ref.1 ≠ k := by
        intro hkey
        rw [← hkey, h ref hold] at hgone
        simp [Option.filter, halive ref hold] at hgone
      rw [if_neg hne, if_neg hne]
      exact h ref hold

end Names

end WeakMap

end Relational
