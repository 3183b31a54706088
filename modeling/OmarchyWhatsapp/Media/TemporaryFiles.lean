import OmarchyWhatsapp.Media.CachePruning
import OmarchyWhatsapp.Relational.Run
import OmarchyWhatsapp.Relational.Table

/-!
# Files that are written privately

`PrivateTemporaryFile`: the bytes go to a file of another name, which then gets the name of the
destination. Several transfers run at a time, others remove files, and the process may end between
any two steps; `private_dir` then removes what was left.
-/

namespace OmarchyWhatsapp

open Relational

/-! ## Names -/

inductive TransferKind where
  | part
  | tmp
deriving DecidableEq, Repr

def TransferKind.text : TransferKind → FileName
  | .part => "part".toList
  | .tmp => "tmp".toList

/-- The file name with `.{kind}-{process}-{sequence}`. -/
def temporaryName (destination : FileName) (kind : TransferKind) (process sequence : ℕ) :
    FileName :=
  destination ++ '.' :: (kind.text ++ '-' :: (Nat.toDigits 10 process ++
    '-' :: Nat.toDigits 10 sequence))

/-! ## State -/

structure StoredFile where
  name : FileName
  contents : List UInt8
deriving DecidableEq, Repr

/-- What a reader of the directory sees happen. -/
inductive FileEvent where
  | put (name : FileName) (contents : List UInt8)
  | remove (name : FileName)
deriving DecidableEq, Repr

structure Transfer where
  number : ℕ
  destination : FileName
  contents : List UInt8
  kind : TransferKind
  attempts : ℕ := 0
  /-- The name it has reserved. -/
  temporary : Option FileName := none
  /-- How many of the bytes are written. -/
  written : ℕ := 0
deriving DecidableEq, Repr

structure TransferDirectory where
  files : Table StoredFile StoredFile.name
  transfers : Table Transfer Transfer.number := ∅
  process : ℕ
  /-- `TEMPORARY_FILE_SEQUENCE`. -/
  sequence : ℕ := 0
  /-- What a reader of the directory has seen happen. -/
  published : List FileEvent := []

inductive TransferStep where
  | start (number : ℕ) (destination : FileName) (contents : List UInt8) (kind : TransferKind)
  /-- One round of `create_with_sequence`. -/
  | reserve (number : ℕ)
  /-- Some more bytes are written. -/
  | write (number count : ℕ)
  | commit (number : ℕ)
  /-- An error, or a future that is dropped. -/
  | fail (number : ℕ)
  /-- A file is removed by another operation. -/
  | remove (name : FileName)
  /-- The process ends, and another one begins. -/
  | crash (process : ℕ)
  /-- `private_dir`, where no transfer is running. -/
  | cleanUp

namespace TransferDirectory

/-! ## Steps -/

def maxAttempts : ℕ := 32

def contentsOf (s : TransferDirectory) (name : FileName) : Option (List UInt8) :=
  (s.files.find? name).map (·.contents)

def removeName (files : Table StoredFile StoredFile.name) (name : FileName) :
    Table StoredFile StoredFile.name :=
  files.deleteWhere (fun f => f.name = name)

def endTransfer (s : TransferDirectory) (number : ℕ) : TransferDirectory :=
  { s with transfers := s.transfers.deleteWhere (fun t => t.number = number) }

def updateTransfer (s : TransferDirectory) (t : Transfer) : TransferDirectory :=
  { s with
    transfers := s.transfers.updateWhere (fun x => x.number = t.number)
      (fun x => { t with number := x.number }) }

/-- `OpenOptions::create_new`, with the next number of the sequence. -/
def reserve (s : TransferDirectory) (t : Transfer) : TransferDirectory :=
  let path := temporaryName t.destination t.kind s.process s.sequence
  let s := { s with sequence := s.sequence + 1 }
  if s.files.find? path = none then
    { s with files := s.files.insertOrIgnore ⟨path, []⟩ }.updateTransfer
      { t with temporary := some path, written := 0 }
  else if t.attempts + 1 < maxAttempts then s.updateTransfer { t with attempts := t.attempts + 1 }
  else s.endTransfer t.number

/-- `write_all`, as far as it has come. -/
def write (s : TransferDirectory) (t : Transfer) (path : FileName) (count : ℕ) :
    TransferDirectory :=
  let written := min (t.written + count) t.contents.length
  { s with
    files := s.files.updateWhere (fun f => f.name = path)
      (fun f => { f with contents := t.contents.take written }) }.updateTransfer { t with written }

/-- `PrivateTemporaryFile::drop`, of a transfer that is not committed. -/
def abandon (s : TransferDirectory) (t : Transfer) : TransferDirectory :=
  match t.temporary with
  | some path => { s with files := removeName s.files path }.endTransfer t.number
  | none => s.endTransfer t.number

/-- `PrivateTemporaryFile::commit`: the rename replaces the destination. -/
def commit (s : TransferDirectory) (t : Transfer) (path : FileName) : TransferDirectory :=
  match s.files.find? path with
  | some file =>
    { s with
      files := (removeName (removeName s.files path) t.destination).insertOrIgnore
        ⟨t.destination, file.contents⟩
      published := s.published ++ [FileEvent.put t.destination t.contents] }.endTransfer t.number
  | none => s.abandon t

def step (s : TransferDirectory) : TransferStep → TransferDirectory
  | .start number destination contents kind =>
    { s with transfers := s.transfers.insertOrIgnore { number, destination, contents, kind } }
  | .reserve number => match s.transfers.find? number with
    | some t => if t.temporary = none then s.reserve t else s
    | none => s
  | .write number count => match s.transfers.find? number with
    | some t => match t.temporary with
      | some path => s.write t path count
      | none => s
    | none => s
  | .commit number => match s.transfers.find? number with
    | some t => match t.temporary with
      | some path => if t.written = t.contents.length then s.commit t path else s
      | none => s
    | none => s
  | .fail number => match s.transfers.find? number with
    | some t => s.abandon t
    | none => s
  | .remove name =>
    { s with files := removeName s.files name, published := s.published ++ [.remove name] }
  | .crash process => { s with transfers := ∅, process, sequence := 0 }
  | .cleanUp =>
    if s.transfers.rows = [] then
      { s with files := s.files.deleteWhere (fun f => isTemporaryName f.name) }
    else s

end TransferDirectory

/-! ## What a reader sees -/

/-- A directory whose files are put and removed at once. -/
def FileEvent.apply (contents : FileName → Option (List UInt8)) :
    FileEvent → FileName → Option (List UInt8)
  | .put name bytes => fun x => if x = name then some bytes else contents x
  | .remove name => fun x => if x = name then none else contents x

end OmarchyWhatsapp
