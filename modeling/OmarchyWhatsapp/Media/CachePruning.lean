import Mathlib.Data.List.Sort
import Mathlib.Data.UInt
import OmarchyWhatsapp.Media.CachePaths
import OmarchyWhatsapp.Relational.Budget
import OmarchyWhatsapp.Relational.Order

/-!
# Pruning a cache directory

`prune_directory` adds up the files of a directory, in 64 bits, and removes the oldest ones until
the sum is within the budget. Temporary files do not count, and the file just written stays.
-/

namespace OmarchyWhatsapp

open Relational

/-! ## Paths as they are compared -/

/-- The components by which paths are compared: repeated separators and `.` do not count, a
leading `.` does. -/
def pathComponents (path : FileName) : List FileName :=
  match path.splitOn '/' with
  | [] => []
  | first :: rest =>
    (if first = [] then (if path = [] then [] else [['/']]) else [first]) ++
      rest.filter (fun part => part ≠ [] && part ≠ ['.'])

/-- `==` of paths. -/
def samePath (path path' : FileName) : Bool := pathComponents path = pathComponents path'

/-! ## The directory -/

/-- `is_temporary_name`. -/
def isTemporaryName (name : FileName) : Bool :=
  decide (".part-".toList <:+: name) || decide (".tmp-".toList <:+: name)

structure DirectoryEntry where
  name : FileName
  isFile : Bool
  len : UInt64
  /-- In nanoseconds, before or after the epoch. -/
  modified : Option ℤ
deriving DecidableEq, Repr

/-- A directory has one entry of each name. -/
structure CacheDirectory where
  path : FileName
  entries : List DirectoryEntry
  nodup : (entries.map DirectoryEntry.name).Nodup

namespace CacheDirectory

/-- `MAX_MEDIA_CACHE_BYTES`. -/
def maxMediaCacheBytes : UInt64 := 256 * 1024 * 1024

def entryPath (d : CacheDirectory) (e : DirectoryEntry) : FileName := join d.path e.name

/-- The files that count. -/
def files (d : CacheDirectory) : List DirectoryEntry :=
  d.entries.filter fun e => !isTemporaryName e.name && e.isFile

/-- An unknown time is the oldest. -/
def modifiedBy (a b : DirectoryEntry) : Bool :=
  match a.modified, b.modified with
  | none, _ => true
  | some _, none => false
  | some m, some n => m ≤ n

/-- `sort_by_key` of the time, which is stable. -/
def oldestFirst (d : CacheDirectory) : List DirectoryEntry :=
  QueryPlan.stable.orderBy modifiedBy d.files

/-- `saturating_sub`. -/
def saturatingSub (a b : UInt64) : UInt64 := if b ≤ a then a - b else 0

/-- The loop of `prune_directory`: the files that it removes, with the total still to come. -/
def pruneFiles (d : CacheDirectory) (maxBytes : UInt64) (preserve : FileName) :
    UInt64 → List DirectoryEntry → List DirectoryEntry
  | _, [] => []
  | total, e :: rest =>
    if total ≤ maxBytes then []
    else if samePath (d.entryPath e) preserve then pruneFiles d maxBytes preserve total rest
    else e :: pruneFiles d maxBytes preserve (saturatingSub total e.len) rest

/-- `prune_directory`, as the files that it removes. -/
def pruneDirectory (d : CacheDirectory) (maxBytes : UInt64) (preserve : FileName) :
    List DirectoryEntry :=
  let total := (d.files.map (·.len)).sum
  if total ≤ maxBytes then []
  else d.pruneFiles maxBytes preserve total d.oldestFirst

/-! ## What pruning is for -/

/-- The bytes of files. -/
def bytes (files : List DirectoryEntry) : ℕ := freed (fun e => e.len.toNat) files

/-- The files that may go, the oldest first. -/
def deletable (d : CacheDirectory) (preserve : FileName) : List DirectoryEntry :=
  d.oldestFirst.filter fun e => !samePath (d.entryPath e) preserve

/-- The files that are removed are no more than have to go, and the oldest. -/
structure PrunesMinimally (d : CacheDirectory) (maxBytes : UInt64) (preserve : FileName)
    (deleted : List DirectoryEntry) : Prop where
  exempt : ∀ e ∈ deleted, e ∈ d.entries ∧ e.isFile = true ∧ isTemporaryName e.name = false ∧
    samePath (d.entryPath e) preserve = false
  oldest : deleted <+: d.deletable preserve
  shortest : ∀ p, p <+: d.deletable preserve → bytes d.files ≤ maxBytes.toNat + bytes p →
    deleted.length ≤ p.length
  within : bytes d.files ≤ maxBytes.toNat + bytes deleted ∨
    ∀ e ∈ d.files, e ∉ deleted → samePath (d.entryPath e) preserve = true

/-! ## The loop -/

theorem toNat_saturatingSub (a b : UInt64) :
    (saturatingSub a b).toNat = a.toNat - b.toNat := by
  unfold saturatingSub
  split
  · next h => exact UInt64.toNat_sub_of_le a b h
  · next h =>
    have hlt : ¬b.toNat ≤ a.toNat := fun hle => h (UInt64.le_iff_toNat_le.mpr hle)
    show 0 = _
    omega

theorem toNat_sum (l : List UInt64) : l.sum.toNat = (l.map UInt64.toNat).sum % UInt64.size := by
  induction l with
  | nil => rfl
  | cons a l ih =>
    rw [List.sum_cons, UInt64.toNat_add, ih, List.map_cons, List.sum_cons]
    exact Nat.add_mod_mod ..

/-- The loop passes over the preserved file. -/
theorem pruneFiles_eq (d : CacheDirectory) (maxBytes : UInt64) (preserve : FileName)
    (total : UInt64) (l : List DirectoryEntry) :
    d.pruneFiles maxBytes preserve total l =
      freeUntilWithin (fun e => e.len.toNat) maxBytes.toNat total.toNat
        (l.filter fun e => !samePath (d.entryPath e) preserve) := by
  induction l generalizing total with
  | nil => rfl
  | cons e l ih =>
    rw [pruneFiles, List.filter_cons]
    by_cases hwithin : total ≤ maxBytes
    · rw [if_pos hwithin, freeUntilWithin_of_le _ _ (UInt64.le_iff_toNat_le.mp hwithin)]
    · have hover : ¬total.toNat ≤ maxBytes.toNat := fun h =>
        hwithin (UInt64.le_iff_toNat_le.mpr h)
      rw [if_neg hwithin]
      cases hsame : samePath (d.entryPath e) preserve with
      | true => exact ih total
      | false =>
        show e :: _ = freeUntilWithin _ _ _ (e :: _)
        rw [freeUntilWithin, if_neg hover, ih, toNat_saturatingSub]

/-- The total is what the sizes add up to in 64 bits. -/
theorem pruneDirectory_eq (d : CacheDirectory) (maxBytes : UInt64) (preserve : FileName) :
    d.pruneDirectory maxBytes preserve =
      freeUntilWithin (fun e => e.len.toNat) maxBytes.toNat (bytes d.files % UInt64.size)
        (d.deletable preserve) := by
  have htotal : (d.files.map DirectoryEntry.len).sum.toNat = bytes d.files % UInt64.size := by
    rw [toNat_sum, List.map_map]
    rfl
  rw [← htotal]
  unfold pruneDirectory
  dsimp only
  split
  · next h => rw [freeUntilWithin_of_le _ _ (UInt64.le_iff_toNat_le.mp h)]
  · exact pruneFiles_eq d maxBytes preserve _ _

/-! ## What goes and what stays -/

theorem mem_files {d : CacheDirectory} {e : DirectoryEntry} :
    e ∈ d.files ↔ e ∈ d.entries ∧ isTemporaryName e.name = false ∧ e.isFile = true := by
  rw [files, List.mem_filter, Bool.and_eq_true, Bool.not_eq_true']

theorem mem_deletable {d : CacheDirectory} {preserve : FileName} {e : DirectoryEntry} :
    e ∈ d.deletable preserve ↔ e ∈ d.files ∧ samePath (d.entryPath e) preserve = false := by
  rw [deletable, List.mem_filter, Bool.not_eq_true', oldestFirst, QueryPlan.mem_orderBy]

theorem nodup_deletable (d : CacheDirectory) (preserve : FileName) :
    (d.deletable preserve).Nodup := by
  have hfiles : d.files.Nodup := (List.Nodup.of_map _ d.nodup).filter _
  exact ((QueryPlan.stable.perm _ _).nodup_iff.mpr hfiles).filter _

/-- Pruning is minimal exactly if no prefix of the files that may go, short of all of them, brings
the total within the budget in 64 bits alone. -/
theorem prunesMinimally_iff (d : CacheDirectory) (maxBytes : UInt64) (preserve : FileName) :
    d.PrunesMinimally maxBytes preserve (d.pruneDirectory maxBytes preserve) ↔
      ∀ p, p <+: d.deletable preserve → p ≠ d.deletable preserve →
        bytes d.files % UInt64.size ≤ maxBytes.toNat + bytes p →
          bytes d.files ≤ maxBytes.toNat + bytes p := by
  have hinitial : d.pruneDirectory maxBytes preserve <+: d.deletable preserve := by
    rw [pruneDirectory_eq]
    exact freeUntilWithin_isPrefix ..
  have hstops := within_or_all_freed (fun e : DirectoryEntry => e.len.toNat) maxBytes.toNat
    (bytes d.files % UInt64.size) (d.deletable preserve)
  rw [← pruneDirectory_eq] at hstops
  constructor
  · intro h p hp hproper hwrapped
    have hlength : (d.pruneDirectory maxBytes preserve).length ≤ p.length := by
      rw [pruneDirectory_eq]
      exact freeUntilWithin_shortest _ _ hp hwrapped
    have hlt : p.length < (d.deletable preserve).length :=
      lt_of_le_of_ne hp.length_le fun heq => hproper (hp.eq_of_length heq)
    rcases h.within with hwithin | hall
    · -- what is removed is a prefix of `p`
      have hfreed := freed_le_of_prefix (fun e : DirectoryEntry => e.len.toNat)
        (List.prefix_of_prefix_length_le hinitial hp hlength)
      exact hwithin.trans (Nat.add_le_add_left hfreed _)
    · -- all files that may go are removed, more than `p` has
      have hsubset : d.deletable preserve ⊆ d.pruneDirectory maxBytes preserve := by
        intro e he
        obtain ⟨hfile, hother⟩ := mem_deletable.mp he
        by_contra hkept
        rw [hall e hfile hkept] at hother
        cases hother
      have hge := (List.subperm_of_subset (nodup_deletable d preserve) hsubset).length_le
      omega
  · intro h
    refine ⟨fun e he => ?_, hinitial, fun p hp hwithin => ?_, ?_⟩
    · obtain ⟨hfile, hother⟩ := mem_deletable.mp (hinitial.subset he)
      obtain ⟨hentry, hname, hregular⟩ := mem_files.mp hfile
      exact ⟨hentry, hregular, hname, hother⟩
    · rw [pruneDirectory_eq]
      exact freeUntilWithin_shortest _ _ hp ((Nat.mod_le _ _).trans hwithin)
    · by_cases hall : d.pruneDirectory maxBytes preserve = d.deletable preserve
      · refine Or.inr fun e he hkept => ?_
        by_contra hother
        rw [hall] at hkept
        exact hkept (mem_deletable.mpr ⟨he, Bool.not_eq_true _ ▸ hother⟩)
      · exact Or.inl (h _ hinitial hall (hstops.resolve_right hall))

/-! ## A sum of 2^64 -/

/-- Three files, two of them as large as a file can be. -/
def sparseDirectory : CacheDirectory where
  path := "/cache".toList
  entries := [⟨"a.img".toList, true, 9223372036854775807, some 1⟩,
    ⟨"b.img".toList, true, 9223372036854775807, some 2⟩, ⟨"c.img".toList, true, 2, some 3⟩]
  nodup := by decide

theorem not_prunesMinimally_sparseDirectory :
    ¬sparseDirectory.PrunesMinimally maxMediaCacheBytes "/cache/c.img".toList
      (sparseDirectory.pruneDirectory maxMediaCacheBytes "/cache/c.img".toList) := by
  have hnothing : sparseDirectory.pruneDirectory maxMediaCacheBytes "/cache/c.img".toList = [] := by
    decide +kernel
  rw [hnothing]
  intro h
  have hover : ¬(bytes sparseDirectory.files ≤ maxMediaCacheBytes.toNat + bytes [] ∨
      ∀ e ∈ sparseDirectory.files, e ∉ ([] : List DirectoryEntry) →
        samePath (sparseDirectory.entryPath e) "/cache/c.img".toList = true) := by
    decide +kernel
  exact hover h.within

end CacheDirectory

end OmarchyWhatsapp
