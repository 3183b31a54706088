import OmarchyWhatsapp.Media.CacheRemoval
import OmarchyWhatsapp.Media.TemporaryFiles
import OmarchyWhatsapp.Text.Search

/-!
# Files change at once

Whatever transfers run, fail, are interrupted or lose their files, a reader of the directory sees
files that are put and removed as a whole, and after the next start it sees nothing else.
-/

namespace OmarchyWhatsapp

open Relational Text

/-! ## Names -/

theorem isTemporaryName_temporaryName (destination : FileName) (kind : TransferKind)
    (process sequence : ℕ) :
    isTemporaryName (temporaryName destination kind process sequence) = true := by
  have hwithin : ('.' :: (kind.text ++ ['-'])) <:+:
      temporaryName destination kind process sequence :=
    ⟨destination, Nat.toDigits 10 process ++ '-' :: Nat.toDigits 10 sequence, by
      simp [temporaryName]⟩
  rw [isTemporaryName, Bool.or_eq_true]
  cases kind with
  | part => exact Or.inl (decide_eq_true hwithin)
  | tmp => exact Or.inr (decide_eq_true hwithin)

/-- What stands behind the last `-`. -/
theorem eq_of_append_dash {x y d e : List Char} (hd : '-' ∉ d) (he : '-' ∉ e)
    (h : x ++ '-' :: d = y ++ '-' :: e) : d = e := by
  have hshorter : ∀ {z d e : List Char}, '-' ∉ d → '-' :: d = z ++ '-' :: e → d = e := by
    intro z d e hd h
    cases z with
    | nil => exact (List.cons.inj h).2
    | cons c z =>
      rw [(List.cons.inj h).2] at hd
      exact absurd (List.mem_append_right z List.mem_cons_self) hd
  rcases List.append_eq_append_iff.mp h with ⟨z, -, hrest⟩ | ⟨z, -, hrest⟩
  · exact hshorter hd hrest
  · exact (hshorter he hrest).symm

theorem dash_not_mem_toDigits (n : ℕ) : '-' ∉ Nat.toDigits 10 n := fun h =>
  absurd (Nat.isDigit_of_mem_toDigits (by decide) (by decide) h) (by decide)

/-- A process never uses a name twice. -/
theorem sequence_of_temporaryName {destination destination' : FileName} {kind kind' : TransferKind}
    {process process' sequence sequence' : ℕ}
    (h : temporaryName destination kind process sequence
      = temporaryName destination' kind' process' sequence') : sequence = sequence' := by
  have hdigits : Nat.toDigits 10 sequence = Nat.toDigits 10 sequence' := by
    refine eq_of_append_dash (dash_not_mem_toDigits _) (dash_not_mem_toDigits _)
      (x := destination ++ '.' :: (kind.text ++ '-' :: Nat.toDigits 10 process))
      (y := destination' ++ '.' :: (kind'.text ++ '-' :: Nat.toDigits 10 process')) ?_
    simpa [temporaryName] using h
  have hvalue := congrArg (Nat.ofDigitChars 10 · 0) hdigits
  simpa only [Nat.ofDigitChars_ten_toDigits] using hvalue

/-- A temporary name has the word of a kind with a `-` behind it. -/
theorem exists_kind_of_temporary {name : FileName} (h : isTemporaryName name = true) :
    ∃ kind : TransferKind, (kind.text ++ ['-']) <:+: name := by
  rw [isTemporaryName, Bool.or_eq_true, decide_eq_true_eq, decide_eq_true_eq] at h
  rcases h with h | h
  · exact ⟨.part, (List.suffix_cons '.' _).isInfix.trans h⟩
  · exact ⟨.tmp, (List.suffix_cons '.' _).isInfix.trans h⟩

/-- The word does not begin with a digit. -/
theorem not_infix_of_hex {kind : TransferKind} {text : FileName}
    (h : ∀ c ∈ text, c ∈ '-' :: lowerHexDigits) : ¬(kind.text ++ ['-']) <:+: text := by
  intro hwithin
  cases kind with
  | part => exact absurd (h 'p' (hwithin.subset (by decide))) (by decide)
  | tmp => exact absurd (h 't' (hwithin.subset (by decide))) (by decide)

theorem not_infix_of_dash {kind : TransferKind} {text : FileName} (h : '-' ∉ text) :
    ¬(kind.text ++ ['-']) <:+: text := fun hwithin =>
  h (hwithin.subset (List.mem_append_right _ (List.mem_singleton.mpr rfl)))

theorem dash_not_mem_toLower {text : FileName} (h : text.all Char.isAlphanum = true) :
    '-' ∉ toAsciiLowercase text := by
  intro hmem
  obtain ⟨c, hc, hlower⟩ := List.mem_map.mp hmem
  have halnum := List.all_eq_true.mp h c hc
  unfold Char.toLower at hlower
  split at hlower
  · rename_i hupper
    -- an upper case letter becomes a lower case one
    have hval := congrArg (fun c : Char => c.val.toNat) hlower
    have hlow : 65 ≤ c.val.toNat := hupper.1
    have hhigh : c.val.toNat ≤ 90 := hupper.2
    have hadd : (c.val + 32).toNat = c.val.toNat + 32 := by
      rw [UInt32.toNat_add, show (32 : UInt32).toNat = 32 from rfl]
      omega
    change (c.val + 32).toNat = 45 at hval
    omega
  · rw [hlower] at halnum
    exact absurd halnum (by decide)

theorem dash_not_mem_extension (f : CacheFile) : '-' ∉ f.extension := by
  cases f with
  | video mimeType =>
    dsimp only [CacheFile.extension]
    unfold videoExtension
    dsimp only
    split_ifs <;> decide
  | audio mimeType =>
    dsimp only [CacheFile.extension]
    unfold audioExtension
    dsimp only
    split_ifs <;> decide
  | document fileName =>
    dsimp only [CacheFile.extension, documentExtension]
    rcases hsafe : safeDocumentExtension fileName with _ | extension
    · exact List.not_mem_nil
    · obtain ⟨raw, -, hraw⟩ := Option.bind_eq_some_iff.mp hsafe
      split at hraw
      · rename_i hchecked
        have halnum := (Bool.and_eq_true_iff.mp hchecked).2
        obtain ⟨hlower, -⟩ := Option.filter_eq_some_iff.mp hraw
        rw [Option.map_some, Option.getD_some, ← Option.some.inj hlower]
        exact List.not_mem_cons_of_ne_of_not_mem (by decide) (dash_not_mem_toLower halnum)
      · cases hraw
  | _ => decide

/-- No file of a message has a name that is taken for a temporary one. -/
theorem cacheFile_not_temporary (f : CacheFile) (chatJid messageId : String) :
    isTemporaryName (f.name chatJid messageId) = false := by
  refine Bool.of_not_eq_true fun h => ?_
  obtain ⟨kind, hwithin⟩ := exists_kind_of_temporary h
  have hdot : '.' ∉ kind.text ++ ['-'] := by cases kind <;> decide
  rw [CacheFile.name, CacheFile.suffix, infix_separated hdot] at hwithin
  rcases hwithin with hstem | hsuffix
  · refine not_infix_of_hex (fun c hc => ?_) hstem
    rcases List.mem_append.mp hc with hc | hc
    · exact List.mem_cons_of_mem _ (mem_hexKey hc)
    · exact (List.mem_cons.mp hc).elim (fun heq => heq ▸ List.mem_cons_self)
        fun hc => List.mem_cons_of_mem _ (mem_hexKey hc)
  · have hword : ¬(kind.text ++ ['-']) <:+: f.kind.word := by
      cases kind <;> cases f.kind <;> decide
    have hdash := dash_not_mem_extension f
    have hhead := f.head?_extension
    rcases hextension : f.extension with _ | ⟨c, rest⟩
    · rw [hextension, List.append_nil] at hsuffix
      exact hword hsuffix
    · rw [hextension] at hhead hdash hsuffix
      have hc : c = '.' := by simpa using hhead
      rw [hc, infix_separated hdot] at hsuffix
      exact hsuffix.elim hword
        (not_infix_of_dash fun h => hdash (List.mem_cons_of_mem _ h))

/-- No avatar and no mark of a missing one has such a name. -/
theorem avatar_not_temporary (jid : String) (extension : FileName) (h : '-' ∉ extension) :
    isTemporaryName (hexKey jid ++ '.' :: extension) = false := by
  refine Bool.of_not_eq_true fun htemporary => ?_
  obtain ⟨kind, hwithin⟩ := exists_kind_of_temporary htemporary
  have hdot : '.' ∉ kind.text ++ ['-'] := by cases kind <;> decide
  rcases (infix_separated hdot).mp hwithin with hkey | hextension
  · exact not_infix_of_hex (fun c hc => List.mem_cons_of_mem _ (mem_hexKey hc)) hkey
  · exact not_infix_of_dash h hextension

/-- Pruning and the next start tell files from temporary ones: every file of the cache has a name
that is not temporary, and what is being written to it has one that is. -/
theorem cacheNames_permanent (f : CacheFile) (chatJid messageId jid : String) (kind : TransferKind)
    (process sequence : ℕ) :
    ∀ name ∈ [f.name chatJid messageId, hexKey jid ++ ".img".toList, hexKey jid ++ ".none".toList],
      isTemporaryName name = false ∧
        isTemporaryName (temporaryName name kind process sequence) = true := by
  intro name hname
  refine ⟨?_, isTemporaryName_temporaryName name kind process sequence⟩
  rcases List.mem_cons.mp hname with rfl | hname
  · exact cacheFile_not_temporary f chatJid messageId
  · rcases List.mem_cons.mp hname with rfl | hname
    · exact avatar_not_temporary jid "img".toList (by decide)
    · rw [List.mem_singleton.mp hname]
      exact avatar_not_temporary jid "none".toList (by decide)

theorem cacheNames_permanent_avatar : isTemporaryName (hexKey "1@lid" ++ ".img".toList) = false :=
  (cacheNames_permanent .image "" "" "1@lid" .tmp 7 0 _
    (List.mem_cons_of_mem _ List.mem_cons_self)).1

namespace TransferDirectory

/-! ## The invariant -/

-- what a file may be given, and the files at the start
variable {allowed : FileName → List UInt8 → Prop} {initial : FileName → Option (List UInt8)}
  {s : TransferDirectory} {t : Transfer}

/-- The files of names that are not temporary are what was published; a temporary file is of one
transfer and has what that has written. -/
structure Sound (allowed : FileName → List UInt8 → Prop)
    (initial : FileName → Option (List UInt8)) (s : TransferDirectory) : Prop where
  shown : ∀ name, isTemporaryName name = false →
    s.contentsOf name = s.published.foldl FileEvent.apply initial name
  puts : ∀ name bytes, FileEvent.put name bytes ∈ s.published → allowed name bytes
  started : ∀ t ∈ s.transfers.rows, allowed t.destination t.contents
  own : ∀ t ∈ s.transfers.rows, ∀ path, t.temporary = some path →
    ∃ sequence < s.sequence, path = temporaryName t.destination t.kind s.process sequence
  begun : ∀ t ∈ s.transfers.rows, ∀ path, t.temporary = some path →
    ∀ file, s.files.find? path = some file → file.contents = t.contents.take t.written
  single : ∀ t ∈ s.transfers.rows, ∀ t' ∈ s.transfers.rows, ∀ path, t.temporary = some path →
    t'.temporary = some path → t = t'

theorem Sound.temporary (h : s.Sound allowed initial) (ht : t ∈ s.transfers.rows) {path : FileName}
    (hpath : t.temporary = some path) : isTemporaryName path = true := by
  obtain ⟨sequence, -, rfl⟩ := h.own t ht path hpath
  exact isTemporaryName_temporaryName _ _ _ _

theorem ne_of_temporary {name path : FileName} (hname : isTemporaryName name = false)
    (hpath : isTemporaryName path = true) : name ≠ path := by
  rintro rfl
  rw [hname] at hpath
  cases hpath

theorem mem_endTransfer {number : ℕ} :
    t ∈ (s.endTransfer number).transfers.rows ↔ t ∈ s.transfers.rows ∧ t.number ≠ number := by
  rw [endTransfer, Table.mem_deleteWhere, decide_eq_false_iff_not]

theorem Sound.endTransfer (h : s.Sound allowed initial) (number : ℕ) :
    (s.endTransfer number).Sound allowed initial where
  shown := h.shown
  puts := h.puts
  started t ht := h.started t (mem_endTransfer.mp ht).1
  own t ht := h.own t (mem_endTransfer.mp ht).1
  begun t ht := h.begun t (mem_endTransfer.mp ht).1
  single t ht t' ht' := h.single t (mem_endTransfer.mp ht).1 t' (mem_endTransfer.mp ht').1

theorem mem_updateTransfer {y : Transfer} (hy : y ∈ (s.updateTransfer t).transfers.rows) :
    y = t ∨ y ∈ s.transfers.rows ∧ y.number ≠ t.number := by
  rw [updateTransfer, Table.mem_updateWhere] at hy
  obtain ⟨x, hx, rfl⟩ := hy
  split
  · rename_i hnumber
    left
    rw [of_decide_eq_true hnumber]
  · rename_i hnumber
    exact Or.inr ⟨hx, fun heq => hnumber (decide_eq_true heq)⟩

/-- A temporary file is removed. -/
theorem Sound.removeTemporary (h : s.Sound allowed initial) {path : FileName}
    (hpath : isTemporaryName path = true) :
    ({ s with files := removeName s.files path } : TransferDirectory).Sound allowed initial where
  shown name hname := by
    rw [contentsOf, removeName, Table.find?_deleteWhere_key, if_neg (ne_of_temporary hname hpath)]
    exact h.shown name hname
  puts := h.puts
  started := h.started
  own := h.own
  begun t ht path' hpath' file hfile := by
    rw [removeName, Table.find?_deleteWhere_key] at hfile
    split at hfile
    · cases hfile
    · exact h.begun t ht path' hpath' file hfile
  single := h.single

theorem Sound.abandon (h : s.Sound allowed initial) (ht : t ∈ s.transfers.rows) :
    (s.abandon t).Sound allowed initial := by
  unfold TransferDirectory.abandon
  split
  · rename_i path hpath
    exact (h.removeTemporary (h.temporary ht hpath)).endTransfer _
  · exact h.endTransfer _

/-- Another operation removes a file, which may be a temporary one. -/
theorem Sound.remove (h : s.Sound allowed initial) (name : FileName) :
    (s.step (.remove name)).Sound allowed initial where
  shown x hx := by
    show ((removeName s.files name).find? x).map (·.contents)
      = (s.published ++ [FileEvent.remove name]).foldl FileEvent.apply initial x
    rw [removeName, Table.find?_deleteWhere_key, List.foldl_append]
    show _ = if x = name then none else s.published.foldl FileEvent.apply initial x
    split
    · rfl
    · exact h.shown x hx
  puts x bytes hput := by
    rcases List.mem_append.mp hput with hput | hput
    · exact h.puts x bytes hput
    · cases List.mem_singleton.mp hput
  started := h.started
  own := h.own
  begun t ht path hpath file hfile := by
    change (removeName s.files name).find? path = some file at hfile
    rw [removeName, Table.find?_deleteWhere_key] at hfile
    split at hfile
    · cases hfile
    · exact h.begun t ht path hpath file hfile
  single := h.single

/-- A transfer that has not reserved a name yet, in another round. -/
theorem Sound.retry (h : s.Sound allowed initial) (ht : t ∈ s.transfers.rows)
    (hnone : t.temporary = none) (attempts : ℕ) :
    (({ s with sequence := s.sequence + 1 } : TransferDirectory).updateTransfer
      { t with attempts }).Sound allowed initial where
  shown := h.shown
  puts := h.puts
  started y hy := by
    rcases mem_updateTransfer hy with rfl | ⟨hy, -⟩
    · exact h.started t ht
    · exact h.started y hy
  own y hy path hpath := by
    rcases mem_updateTransfer hy with rfl | ⟨hy, -⟩
    · exact absurd (hnone.symm.trans hpath) (by simp)
    · obtain ⟨sequence, hlt, heq⟩ := h.own y hy path hpath
      exact ⟨sequence, Nat.lt_succ_of_lt hlt, heq⟩
  begun y hy path hpath file hfile := by
    rcases mem_updateTransfer hy with rfl | ⟨hy, -⟩
    · exact absurd (hnone.symm.trans hpath) (by simp)
    · exact h.begun y hy path hpath file hfile
  single y hy y' hy' path hpath hpath' := by
    rcases mem_updateTransfer hy with rfl | ⟨hy, -⟩
    · exact absurd (hnone.symm.trans hpath) (by simp)
    · rcases mem_updateTransfer hy' with rfl | ⟨hy', -⟩
      · exact absurd (hnone.symm.trans hpath') (by simp)
      · exact h.single y hy y' hy' path hpath hpath'

/-- The name that is reserved next is nobody's. -/
theorem Sound.next_free (h : s.Sound allowed initial) {y : Transfer} (hy : y ∈ s.transfers.rows) :
    y.temporary ≠ some (temporaryName t.destination t.kind s.process s.sequence) := by
  intro hpath
  obtain ⟨sequence, hlt, heq⟩ := h.own y hy _ hpath
  have hsequence := sequence_of_temporaryName heq
  omega

/-- A new file gets the next name. -/
theorem Sound.create (h : s.Sound allowed initial) (ht : t ∈ s.transfers.rows)
    (hfree : s.files.find? (temporaryName t.destination t.kind s.process s.sequence) = none) :
    (({ s with
        sequence := s.sequence + 1
        files := s.files.insertOrIgnore
          ⟨temporaryName t.destination t.kind s.process s.sequence, []⟩ } :
      TransferDirectory).updateTransfer
        { t with
          temporary := some (temporaryName t.destination t.kind s.process s.sequence)
          written := 0 }).Sound allowed initial where
  shown name hname := by
    have hne := ne_of_temporary hname
      (isTemporaryName_temporaryName t.destination t.kind s.process s.sequence)
    show ((s.files.insertOrIgnore ⟨_, []⟩).find? name).map (·.contents) = _
    rw [Table.find?_insertOrIgnore, if_neg hne]
    exact h.shown name hname
  puts := h.puts
  started y hy := by
    rcases mem_updateTransfer hy with rfl | ⟨hy, -⟩
    · exact h.started t ht
    · exact h.started y hy
  own y hy path hpath := by
    rcases mem_updateTransfer hy with rfl | ⟨hy, -⟩
    · exact ⟨s.sequence, Nat.lt_succ_self _, (Option.some.inj hpath).symm⟩
    · obtain ⟨sequence, hlt, heq⟩ := h.own y hy path hpath
      exact ⟨sequence, Nat.lt_succ_of_lt hlt, heq⟩
  begun y hy path hpath file hfile := by
    change (s.files.insertOrIgnore ⟨_, []⟩).find? path = some file at hfile
    rw [Table.find?_insertOrIgnore] at hfile
    rcases mem_updateTransfer hy with rfl | ⟨hy, -⟩
    · obtain rfl := Option.some.inj hpath
      rw [if_pos rfl, hfree] at hfile
      rw [← Option.some.inj hfile]
      rfl
    · have hne : path ≠ temporaryName t.destination t.kind s.process s.sequence :=
        fun heq => h.next_free hy (heq ▸ hpath)
      rw [if_neg hne] at hfile
      exact h.begun y hy path hpath file hfile
  single y hy y' hy' path hpath hpath' := by
    rcases mem_updateTransfer hy with rfl | ⟨hy, -⟩
    · rcases mem_updateTransfer hy' with rfl | ⟨hy', -⟩
      · rfl
      · exact absurd (hpath'.trans hpath.symm) (h.next_free hy')
    · rcases mem_updateTransfer hy' with rfl | ⟨hy', -⟩
      · exact absurd (hpath.trans hpath'.symm) (h.next_free hy)
      · exact h.single y hy y' hy' path hpath hpath'

theorem Sound.reserve (h : s.Sound allowed initial) (ht : t ∈ s.transfers.rows)
    (hnone : t.temporary = none) : (s.reserve t).Sound allowed initial := by
  unfold TransferDirectory.reserve
  dsimp only
  split
  · exact h.create ht ‹_›
  · split
    · exact h.retry ht hnone _
    · have hended := h.endTransfer t.number
      refine ⟨hended.shown, hended.puts, hended.started, fun y hy path hpath => ?_, hended.begun,
        hended.single⟩
      obtain ⟨sequence, hlt, heq⟩ := hended.own y hy path hpath
      exact ⟨sequence, Nat.lt_succ_of_lt hlt, heq⟩

theorem find?_write (s : TransferDirectory) (t : Transfer) (path : FileName) (count : ℕ)
    (name : FileName) : (s.write t path count).files.find? name
      = (s.files.find? name).map fun f => if decide (f.name = path) then
        { f with contents := t.contents.take (min (t.written + count) t.contents.length) }
        else f :=
  Table.find?_updateWhere s.files (fun f => f.name = path)
    (fun f => { f with contents := t.contents.take (min (t.written + count) t.contents.length) })
    (fun _ => rfl) name

/-- More bytes are written to the file of a transfer. -/
theorem Sound.write (h : s.Sound allowed initial) (ht : t ∈ s.transfers.rows) {path : FileName}
    (hpath : t.temporary = some path) (count : ℕ) :
    (s.write t path count).Sound allowed initial where
  shown name hname := by
    have hne := ne_of_temporary hname (h.temporary ht hpath)
    refine Eq.trans ?_ (h.shown name hname)
    rw [contentsOf, find?_write, contentsOf, Option.map_map]
    refine Table.map_find?_congr fun f hf => ?_
    rw [Function.comp, if_neg]
    exact fun heq => hne (hf.symm.trans (of_decide_eq_true heq))
  puts := h.puts
  started y hy := by
    rcases mem_updateTransfer hy with rfl | ⟨hy, -⟩
    · exact h.started t ht
    · exact h.started y hy
  own y hy path' hpath' := by
    rcases mem_updateTransfer hy with rfl | ⟨hy, -⟩
    · exact h.own t ht path' hpath'
    · exact h.own y hy path' hpath'
  begun y hy path' hpath' file hfile := by
    rw [find?_write] at hfile
    obtain ⟨f, hf, rfl⟩ := Option.map_eq_some_iff.mp hfile
    have hname : f.name = path' := Table.key_of_find? hf
    rcases mem_updateTransfer hy with rfl | ⟨hy, hne⟩
    · obtain rfl : path = path' := Option.some.inj (hpath.symm.trans hpath')
      rw [if_pos (decide_eq_true hname)]
    · have hother : path' ≠ path := fun heq =>
        hne (show y.number = t.number by rw [h.single y hy t ht path (heq ▸ hpath') hpath])
      rw [if_neg fun heq => hother (hname.symm.trans (of_decide_eq_true heq))]
      exact h.begun y hy path' hpath' f hf
  single y hy y' hy' path' hpath' hpath'' := by
    rcases mem_updateTransfer hy with rfl | ⟨hy, hne⟩
    · rcases mem_updateTransfer hy' with rfl | ⟨hy', hne'⟩
      · rfl
      · exact absurd (congrArg Transfer.number (h.single y' hy' t ht path' hpath'' hpath')) hne'
    · rcases mem_updateTransfer hy' with rfl | ⟨hy', hne'⟩
      · exact absurd (congrArg Transfer.number (h.single y hy t ht path' hpath' hpath'')) hne
      · exact h.single y hy y' hy' path' hpath' hpath''

/-- A transfer that has written everything gives its file the name of the destination. -/
theorem Sound.commit (h : s.Sound allowed initial)
    (hallowed : ∀ name bytes, allowed name bytes → isTemporaryName name = false)
    (ht : t ∈ s.transfers.rows) {path : FileName} (hpath : t.temporary = some path)
    (hwritten : t.written = t.contents.length) : (s.commit t path).Sound allowed initial := by
  unfold TransferDirectory.commit
  split
  · rename_i file hfile
    have hdestination := hallowed _ _ (h.started t ht)
    have hcontents : file.contents = t.contents := by
      rw [h.begun t ht path hpath file hfile, hwritten, List.take_length]
    have hfind : ∀ name, ((removeName (removeName s.files path) t.destination).insertOrIgnore
        ⟨t.destination, file.contents⟩).find? name
          = if name = t.destination then some ⟨t.destination, file.contents⟩
            else if name = path then none else s.files.find? name := by
      intro name
      rw [Table.find?_insertOrIgnore, removeName, removeName, Table.find?_deleteWhere_key,
        Table.find?_deleteWhere_key]
      by_cases hname : name = t.destination
      · rw [if_pos hname, if_pos hname, if_pos hname]
        rfl
      · rw [if_neg hname, if_neg hname, if_neg hname]
    constructor
    · intro name hname
      refine (congrArg (Option.map (·.contents)) (hfind name)).trans ?_
      show _ = (s.published ++ [FileEvent.put t.destination t.contents]).foldl FileEvent.apply
        initial name
      rw [List.foldl_append]
      show _ = if name = t.destination then some t.contents
        else s.published.foldl FileEvent.apply initial name
      split
      · rw [← hcontents]
        rfl
      · rw [if_neg (ne_of_temporary hname (h.temporary ht hpath))]
        exact h.shown name hname
    · intro name bytes hput
      rcases List.mem_append.mp hput with hput | hput
      · exact h.puts name bytes hput
      · obtain ⟨rfl, rfl⟩ := FileEvent.put.inj (List.mem_singleton.mp hput)
        exact h.started t ht
    · exact fun y hy => h.started y (mem_endTransfer.mp hy).1
    · exact fun y hy => h.own y (mem_endTransfer.mp hy).1
    · intro y hy path' hpath' file' hfile'
      obtain ⟨hy, -⟩ := mem_endTransfer.mp hy
      replace hfile' := (hfind path').symm.trans hfile'
      rw [if_neg (ne_of_temporary hdestination (h.temporary hy hpath')).symm] at hfile'
      split at hfile'
      · cases hfile'
      · exact h.begun y hy path' hpath' file' hfile'
    · exact fun y hy y' hy' => h.single y (mem_endTransfer.mp hy).1 y' (mem_endTransfer.mp hy').1
  · exact h.abandon ht

theorem Sound.step (h : s.Sound allowed initial)
    (hallowed : ∀ name bytes, allowed name bytes → isTemporaryName name = false)
    (a : TransferStep)
    (ha : ∀ number destination contents kind, a = .start number destination contents kind →
      allowed destination contents) : (s.step a).Sound allowed initial := by
  cases a with
  | start number destination contents kind =>
    have hnew := ha number destination contents kind rfl
    refine ⟨h.shown, h.puts, fun y hy => ?_, fun y hy path hpath => ?_,
      fun y hy path hpath => ?_, fun y hy y' hy' path hpath hpath' => ?_⟩
    · rcases Table.mem_insertOrIgnore.mp hy with hy | ⟨rfl, -⟩
      · exact h.started y hy
      · exact hnew
    · rcases Table.mem_insertOrIgnore.mp hy with hy | ⟨rfl, -⟩
      · exact h.own y hy path hpath
      · cases hpath
    · rcases Table.mem_insertOrIgnore.mp hy with hy | ⟨rfl, -⟩
      · exact h.begun y hy path hpath
      · cases hpath
    · rcases Table.mem_insertOrIgnore.mp hy with hy | ⟨rfl, -⟩
      · rcases Table.mem_insertOrIgnore.mp hy' with hy' | ⟨rfl, -⟩
        · exact h.single y hy y' hy' path hpath hpath'
        · cases hpath'
      · cases hpath
  | reserve number =>
    simp only [TransferDirectory.step]
    split
    · rename_i t ht
      split
      · exact h.reserve (Table.mem_of_find? ht) ‹_›
      · exact h
    · exact h
  | write number count =>
    simp only [TransferDirectory.step]
    split
    · rename_i t ht
      split
      · exact h.write (Table.mem_of_find? ht) ‹_› count
      · exact h
    · exact h
  | commit number =>
    simp only [TransferDirectory.step]
    split
    · rename_i t ht
      split
      · split
        · exact h.commit hallowed (Table.mem_of_find? ht) ‹_› ‹_›
        · exact h
      · exact h
    · exact h
  | fail number =>
    simp only [TransferDirectory.step]
    split
    · exact h.abandon (Table.mem_of_find? ‹_›)
    · exact h
  | remove name => exact h.remove name
  | crash process =>
    exact ⟨h.shown, h.puts, fun _ ht => absurd ht List.not_mem_nil,
      fun _ ht => absurd ht List.not_mem_nil, fun _ ht => absurd ht List.not_mem_nil,
      fun _ ht => absurd ht List.not_mem_nil⟩
  | cleanUp =>
    simp only [TransferDirectory.step]
    split
    · rename_i hnone
      refine ⟨fun name hname => ?_, h.puts, h.started, h.own, fun t ht => ?_, h.single⟩
      · refine Eq.trans ?_ (h.shown name hname)
        show ((s.files.deleteWhere (fun f => isTemporaryName f.name)).find? name).map
          (·.contents) = _
        rw [Table.find?_deleteWhere, contentsOf]
        rcases hfile : s.files.find? name with _ | f
        · rfl
        · have hkept : isTemporaryName f.name = false := by
            rw [Table.key_of_find? hfile]
            exact hname
          rw [Option.filter_some, if_pos (by rw [hkept]; rfl)]
      · exact absurd (show t ∈ s.transfers.rows from ht) (hnone ▸ List.not_mem_nil)
    · exact h

/-! ## Runs -/

/-- A transfer of a run is given these bytes for this name. -/
def Started (as : List TransferStep) (destination : FileName) (contents : List UInt8) : Prop :=
  ∃ number kind, .start number destination contents kind ∈ as

variable {files : Table StoredFile StoredFile.name} {as : List TransferStep}

theorem sound_states (process : ℕ)
    (hnames : ∀ name bytes, Started as name bytes → isTemporaryName name = false) :
    ∀ s ∈ states step { files, process } as,
      s.Sound (Started as) (fun name => (files.find? name).map (·.contents)) := by
  have hinit : ({ files, process } : TransferDirectory).Sound (Started as)
      (fun name => (files.find? name).map (·.contents)) :=
    ⟨fun _ _ => rfl, fun _ _ hput => absurd hput List.not_mem_nil,
      fun _ ht => absurd ht List.not_mem_nil, fun _ ht => absurd ht List.not_mem_nil,
      fun _ ht => absurd ht List.not_mem_nil, fun _ ht => absurd ht List.not_mem_nil⟩
  refine invariant_states (G := fun _ a => a ∈ as) (fun s a h ha => ?_) hinit
    (guarded_of_forall fun a ha => ha)
  refine h.step hnames a fun number destination contents kind heq => ?_
  exact ⟨number, kind, heq ▸ ha⟩

/-- Bytes that were put there, or were there before. -/
theorem mem_of_foldl_apply {initial : FileName → Option (List UInt8)} {events : List FileEvent}
    {name : FileName} {bytes : List UInt8}
    (h : events.foldl FileEvent.apply initial name = some bytes) :
    initial name = some bytes ∨ FileEvent.put name bytes ∈ events := by
  induction events using List.reverseRecOn with
  | nil => exact Or.inl h
  | append_singleton events event ih =>
    rw [List.foldl_append] at h
    have hearlier : events.foldl FileEvent.apply initial name = some bytes →
        initial name = some bytes ∨ FileEvent.put name bytes ∈ events ++ [event] :=
      fun h => (ih h).imp_right (List.mem_append_left _)
    cases event with
    | put put contents =>
      change (if name = put then some contents else _) = some bytes at h
      split at h
      · rename_i hname
        rw [hname, Option.some.inj h]
        exact Or.inr (List.mem_append_right _ (List.mem_singleton.mpr rfl))
      · exact hearlier h
    | remove removed =>
      change (if name = removed then none else _) = some bytes at h
      split at h
      · cases h
      · exact hearlier h

/-- Whatever transfers run at a time, and wherever they fail or the process ends, a name that is
not temporary has what was last put there at once: all the bytes of a transfer for it, or those it
had at the start. -/
theorem filesChangeAtOnce (files : Table StoredFile StoredFile.name) (process : ℕ)
    (as : List TransferStep)
    (hnames : ∀ name bytes, Started as name bytes → isTemporaryName name = false) :
    ∀ s ∈ states step { files, process } as, ∀ name, isTemporaryName name = false →
      s.contentsOf name = s.published.foldl FileEvent.apply
          (fun name => (files.find? name).map (·.contents)) name ∧
        ∀ bytes, s.contentsOf name = some bytes →
          (files.find? name).map (·.contents) = some bytes ∨ Started as name bytes := by
  intro s hs name hname
  have h := sound_states process hnames s hs
  refine ⟨h.shown name hname, fun bytes hbytes => ?_⟩
  rw [h.shown name hname] at hbytes
  exact (mem_of_foldl_apply hbytes).imp_right (h.puts name bytes)

/-- The process ends in the middle of a write. -/
def interruptedWrite : List TransferStep :=
  [.start 1 ".img".toList [1, 2] .tmp, .reserve 1, .write 1 1, .crash 8]

theorem started_interruptedWrite {name : FileName} {bytes : List UInt8}
    (h : Started interruptedWrite name bytes) : isTemporaryName name = false := by
  obtain ⟨number, kind, hstart⟩ := h
  have hname : name = ".img".toList := by
    simp only [interruptedWrite, List.mem_cons, TransferStep.start.injEq, reduceCtorEq, or_false,
      List.not_mem_nil] at hstart
    exact hstart.2.1
  rw [hname]
  decide

theorem filesChangeAtOnce_interrupted :
    (run step { files := ∅, process := 7 } interruptedWrite).contentsOf ".img".toList = none :=
  (filesChangeAtOnce ∅ 7 interruptedWrite (fun _ _ => started_interruptedWrite) _
    (run_mem_states _ _ _) ".img".toList (by decide)).1

/-- The next start of the daemon leaves the files that were published and no other ones, wherever
the process ended. -/
theorem cleanUp_leavesPublished (files : Table StoredFile StoredFile.name) (process process' : ℕ)
    (as : List TransferStep)
    (hnames : ∀ name bytes, Started as name bytes → isTemporaryName name = false) :
    ∀ s ∈ states step { files, process } as, ∀ name,
      (run step s [.crash process', .cleanUp]).contentsOf name =
        if isTemporaryName name = true then none
        else s.published.foldl FileEvent.apply (fun name => (files.find? name).map (·.contents))
          name := by
  intro s hs name
  have h := sound_states process hnames s hs
  have hfind : (run step s [.crash process', .cleanUp]).contentsOf name
      = ((s.files.find? name).filter (fun f => !isTemporaryName f.name)).map (·.contents) :=
    congrArg (Option.map fun f : StoredFile => f.contents)
      (Table.find?_deleteWhere s.files (fun f => isTemporaryName f.name) name)
  rw [hfind]
  split
  · rename_i hname
    rcases hfile : s.files.find? name with _ | f
    · rfl
    · rw [Option.filter_some, Table.key_of_find? hfile, hname]
      rfl
  · rename_i hname
    rw [← h.shown name (Bool.of_not_eq_true hname), contentsOf]
    rcases hfile : s.files.find? name with _ | f
    · rfl
    · rw [Option.filter_some, Table.key_of_find? hfile, Bool.of_not_eq_true hname]
      rfl

theorem cleanUp_leavesPublished_interrupted :
    (run step (run step { files := ∅, process := 7 } interruptedWrite)
      [.crash 9, .cleanUp]).contentsOf ".img.tmp-7-0".toList = none :=
  cleanUp_leavesPublished ∅ 7 9 interruptedWrite (fun _ _ => started_interruptedWrite) _
    (run_mem_states _ _ _) ".img.tmp-7-0".toList

end TransferDirectory

end OmarchyWhatsapp
