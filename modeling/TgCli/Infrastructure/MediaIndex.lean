import TgCli.Lib.Decimal
import TgCli.Lib.Stdio
import TgCli.Core.TlSerial

/-!
# `infrastructure/media_index.c`: where a medium was saved

The index is a text file with a line `<media id>\t<path>` for each medium.  A lookup scans it; a
`put` reads it whole, replaces the lines of the medium or adds one, and writes it whole.
-/

namespace TgCli.Infrastructure

open Lib TgCli.Core

def mediaIdxMaxLine : ℕ := 2048

def mediaIdxMaxEntries : ℕ := 8192

/-- The lines of the file as `fgets` leaves them in `buf`. -/
def indexBufs (text : Bytes) : List Bytes :=
  (fgetsAll mediaIdxMaxLine text.length text).map cstr

def stripEol (s : Bytes) : Bytes :=
  (s.reverse.dropWhile fun c => c == 0x0a || c == 0x0d).reverse

def splitTab (s : Bytes) : Option (Bytes × Bytes) :=
  if 0x09 ∈ s then some (s.takeWhile (· ≠ 0x09), (s.dropWhile (· ≠ 0x09)).drop 1) else none

/-- The scan of `media_index_get`, up to the copy into the caller's buffer. -/
def findPath (mediaId : Int64) : List Bytes → Option Bytes
  | [] => none
  | buf :: bufs =>
    match splitTab buf with
    | none => findPath mediaId bufs
    | some (id, path) =>
      if strtol id ≠ mediaId.toInt then findPath mediaId bufs
      else if stripEol path = [] then none else some (stripEol path)

/-- `media_index_get` into `cap` bytes, when it returns 1; `file` is the index, if there is one. -/
def indexGet (cap : ℕ) (mediaId : Int64) (file : Option Bytes) : Option Bytes :=
  if cap = 0 then none
  else (file.bind fun text => findPath mediaId (indexBufs text)).map (snprintf cap)

def indexLine (mediaId : Int64) (localPath : Bytes) : Bytes :=
  snprintf mediaIdxMaxLine (decimal mediaId.toInt ++ 0x09 :: localPath)

/-- The scan of `media_index_put`: the lines to write back, and whether the medium was among
them. -/
def putLines (mediaId : Int64) (localPath : Bytes) : ℕ → List Bytes → List Bytes × Bool
  | _, [] => ([], false)
  | count, buf :: bufs =>
    if count ≥ mediaIdxMaxEntries then ([], false)
    else
      let buf := stripEol buf
      if buf = [] then putLines mediaId localPath count bufs
      else
        -- a line without a tab counts as one for medium 0
        let found : Bool := (splitTab buf).elim 0 (fun x => strtol x.1) = mediaId.toInt
        let line := if found then indexLine mediaId localPath else snprintf mediaIdxMaxLine buf
        let (lines, found') := putLines mediaId localPath (count + 1) bufs
        (line :: lines, found || found')

/-- The text that `media_index_put` writes, given the one it found; `none` when the index is
full. -/
def indexText (mediaId : Int64) (localPath : Bytes) (old : Option Bytes) : Option Bytes :=
  let (lines, found) := putLines mediaId localPath 0 (old.elim [] indexBufs)
  let text (lines : List Bytes) : Bytes := lines.flatMap (· ++ [0x0a])
  if found then some (text lines)
  else if lines.length < mediaIdxMaxEntries then
    some (text (lines ++ [indexLine mediaId localPath]))
  else none

/-- What the outside contributes to the two functions: `index_file_path`, whether the file opens
for `media_index_get`, whether its directory can be made and it opens for reading and for writing
in `media_index_put`, and how much of the text is lost when it is closed. -/
structure IndexIo where
  indexPath : Option Bytes
  getOpens : Bool
  ensuresDir : Bool
  putReads : Bool
  putOpens : Bool
  lost : ℕ

/-- `media_index_get` into 4096 bytes, when it returns 1. -/
def mediaIndexGet (io : IndexIo) (mediaId : Int64) (disk : Disk Bytes) : Option Bytes :=
  match io.indexPath with
  | none => none
  | some idx =>
    if io.getOpens then indexGet 4096 mediaId (disk.read idx) else none

def mediaIndexPut (io : IndexIo) (mediaId : Int64) (localPath : Bytes) (disk : Disk Bytes) :
    Bool × Disk Bytes :=
  match io.indexPath with
  | none => (false, disk)
  | some idx =>
    if !io.ensuresDir then (false, disk)
    else
      match indexText mediaId localPath (if io.putReads then disk.read idx else none) with
      | none => (false, disk)
      | some text =>
        if io.putOpens then (true, disk.store idx (OutStream.fclose ⟨text, [], io.lost⟩))
        else (false, disk)

def IndexIo.Names (io : IndexIo) (disk : Disk Bytes) (path : Bytes) : Prop :=
  ∃ idx, io.indexPath = some idx ∧ disk.fileOf path = disk.fileOf idx

theorem read_mediaIndexPut {io : IndexIo} {disk : Disk Bytes} {path : Bytes}
    (h : ¬ io.Names disk path) (mediaId : Int64) (localPath : Bytes) :
    (mediaIndexPut io mediaId localPath disk).2.read path = disk.read path := by
  unfold mediaIndexPut
  cases hidx : io.indexPath with
  | none => rfl
  | some idx =>
    have hne : disk.fileOf path ≠ disk.fileOf idx := fun he => h ⟨idx, hidx, he⟩
    dsimp only
    by_cases hdir : (!io.ensuresDir) = true
    · rw [if_pos hdir]
    rw [if_neg hdir]
    generalize indexText mediaId localPath _ = text
    cases text with
    | none => rfl
    | some text =>
      split_ifs
      · exact Disk.read_store_of_ne hne _
      · rfl

end TgCli.Infrastructure
