/-
Module: ForestLink.Cloud.Save
Purpose: Where the cloud puts a reassembled file: `FileReassembler.Save`
  (`cloud-admin/internal/transfer/reassembler.go`).
Trusted boundary: none
Main exports: SaveCall, Directory, filepathBase, filepathExt, SaveCall.baseName, candidate, save,
  saveAll, savesOf
-/
import ForestLink.Lib.FirstFree
import ForestLink.Cloud.Ingress

namespace ForestLink.Cloud

open ForestLink.Lib

/-!
The output directory is there and can be read and written.  Its entries are known by their
names; a name is too long for the file system or has a zero byte in it, or `os.Stat` and
`os.WriteFile` succeed.  `filepath` is that of a Unix system.
-/

/-! ## Paths -/

/-- `filepath.Base` -/
def filepathBase (path : List Char) : List Char :=
  if path = [] then ['.']
  else
    let last := ((path.reverse.dropWhile (· == '/')).takeWhile (· != '/')).reverse
    if last = [] then ['/'] else last

/-- `filepath.Ext` of a name without a slash. -/
def filepathExt (name : List Char) : List Char :=
  let tail := name.reverse.takeWhile (· != '.')
  if tail.length < name.length then '.' :: tail.reverse else []

/-- `strings.TrimSuffix` -/
def trimSuffix (text suffix : List Char) : List Char :=
  if suffix.isSuffixOf text then text.take (text.length - suffix.length) else text

/-! ## The directory -/

/-- The entries of the output directory with their contents. -/
abbrev Directory := List (List Char × List UInt8)

/-- `len(name)`, in bytes. -/
def nameBytes (name : List Char) : Nat := name.foldl (fun bytes c => bytes + c.utf8Size) 0

/-- The names that the file system can hold. -/
def allows (nameMax : Nat) (name : List Char) : Bool :=
  decide (nameBytes name ≤ nameMax) && !name.contains (Char.ofNat 0)

/-- What `os.Stat` comes back with. -/
inductive Stat where
  | found
  | notExist
  | failed
deriving DecidableEq

/-- `os.Stat` -/
def stat (nameMax : Nat) (dir : Directory) (name : List Char) : Stat :=
  if !allows nameMax name then .failed
  else if dir.any fun file => file.1 == name then .found
  else .notExist

/-- `os.WriteFile`, which puts the content in the place of what the name had. -/
def writeFile (nameMax : Nat) (dir : Directory) (name : List Char) (content : List UInt8) :
    Directory × Option (List Char) :=
  if allows nameMax name then
    ((dir.filter fun file => file.1 != name) ++ [(name, content)], some name)
  else (dir, none)

/-! ## Save -/

/-- The values `Save` uses: `r.SessionID`, `senderID`, `r.Filename` and
`r.Buffer[:r.TotalSize]`. -/
structure SaveCall where
  sessionId : String
  senderId : String
  filename : String
  content : List UInt8
deriving DecidableEq

namespace SaveCall

/-- `safe` -/
def safe (call : SaveCall) : List Char :=
  let safe := filepathBase call.filename.toList
  if safe = ['.'] ∨ safe = ['/'] then
    "session_".toList ++ call.sessionId.toList ++ ".bin".toList
  else safe

/-- `safeSender` -/
def safeSender (call : SaveCall) : List Char :=
  let safeSender := filepathBase (trimSpace call.senderId.toList)
  if safeSender = [] ∨ safeSender = ['.'] ∨ safeSender = ['/'] then "unknown".toList
  else safeSender

/-- `fmt.Sprintf("%s_%s", safeSender, safe)` -/
def baseName (call : SaveCall) : List Char := call.safeSender ++ '_' :: call.safe

end SaveCall

/-- `fmt.Sprintf("%s_%d%s", stem, i, ext)` -/
def candidate (baseName : List Char) (i : Nat) : List Char :=
  let ext := filepathExt baseName
  trimSuffix baseName ext ++ '_' :: (Nat.toDigits 10 i ++ ext)

/-- The loop's test of one candidate. -/
def isFree (nameMax : Nat) (dir : Directory) (baseName : List Char) (i : Nat) : Bool :=
  stat nameMax dir (candidate baseName i) == .notExist

/-- `FileReassembler.Save`: the directory afterwards and the name of the file, or no name when
the write failed.  `none` is the loop that looks for a free name for ever; the names of the
directory cannot take all of its first candidates. -/
def save (nameMax : Nat) (dir : Directory) (call : SaveCall) :
    Option (Directory × Option (List Char)) :=
  match stat nameMax dir call.baseName with
  | .found =>
      (firstFree (isFree nameMax dir call.baseName) (dir.length + 1) 1).map fun i =>
        writeFile nameMax dir (candidate call.baseName i) call.content
  | _ => some (writeFile nameMax dir call.baseName call.content)

/-- One call after the other. -/
def saveAll (nameMax : Nat) (dir : Directory) : List SaveCall → Option Directory
  | [] => some dir
  | call :: rest => do
      let (dir, _) ← save nameMax dir call
      saveAll nameMax dir rest

/-- The calls of `Save` that an engine has made. -/
def savesOf : List EngineEvent → List SaveCall
  | .save nodeId filename content :: .saved s now :: rest =>
      { sessionId := s.sessionId, senderId := nodeId, filename := filename, content := content } ::
        savesOf (.saved s now :: rest)
  | _ :: rest => savesOf rest
  | [] => []

end ForestLink.Cloud
