/-
Module: ForestLink.Sd.ReadCache
Purpose: The PSRAM cache in front of a file on the SD card: opening, the sliding window, and
  the pages for small random reads (`sdcard.cpp`, `sdcard.hpp`).
Trusted boundary: none
Main exports: SdFile, Card, Heap, CachedFile.refill, CachedFile.readViaRandomPages,
  CachedFile.read, SdReadCache.open_, SdReadCache.read, Card.readChunk
-/
import Mathlib.Algebra.Group.Int.Defs
import Mathlib.Algebra.GroupWithZero.Nat
import ForestLink.Lib.Extent

namespace ForestLink.Sd

open ForestLink.Lib

/-! ## Files -/

/-- A `FILE*`: the bytes, and the answers of the coming `fseek` and `fread` calls (whether the
seek succeeds, how many bytes are delivered at most); behind the lists nothing fails. -/
structure SdFile where
  content : List UInt8
  seeks : List Bool := []
  reads : List Nat := []
deriving Repr, DecidableEq

namespace SdFile

/-- `fseek` -/
def seek (file : SdFile) : Bool × SdFile :=
  (file.seeks.headD true, { file with seeks := file.seeks.tail })

/-- `fread` of `want` bytes behind an `fseek` to `pos`. -/
def readAt (file : SdFile) (pos want : Nat) : List UInt8 × SdFile :=
  (extent file.content pos (min want (file.reads.headD want)),
    { file with reads := file.reads.tail })

/-- `ftell` at the end of the file; a `long` has 32 bits. -/
def tellEnd (file : SdFile) : Int :=
  if file.content.length < 2 ^ 31 then file.content.length else -1

end SdFile

/-- `s_mounted`, and what `fopen` finds. -/
structure Card where
  mounted : Bool := true
  files : List UInt8 → Option SdFile

/-- No `fseek` and no `fread` fails. -/
def Card.ErrorFree (card : Card) : Prop :=
  ∀ path file, card.files path = some file → file.seeks = [] ∧ file.reads = []

/-- `sdcard_read_chunk`, for a buffer of `len` bytes. -/
def Card.readChunk (card : Card) (path : Option (List UInt8)) (offset len : Nat) : List UInt8 :=
  match path with
  | some path =>
      if card.mounted then
        match card.files path with
        | some file => if file.seek.1 then (file.seek.2.readAt offset len).1 else []
        | none => []
      else []
  | none => []

/-! ## Constants -/

/-- `MAX_CACHE_SIZE` -/
def maxCacheSize : Nat := 512 * 1024

/-- `kMinCacheSize` -/
def minCacheSize : Nat := 32 * 1024

/-- `RANDOM_PAGE_SIZE` -/
def randomPageSize : Nat := 4 * 1024

/-- `RANDOM_PAGE_COUNT` -/
def randomPageCount : Nat := 16

/-! ## The cache of an open file -/

structure RandomPageSlot where
  pageIndex : Nat := 0
  validLen : Nat := 0
  stamp : Nat := 0
  valid : Bool := false
deriving Repr, DecidableEq

/-- The members of `SdReadCache` while a file is open: `file_` and `cache_buf_` are set
together. -/
structure CachedFile where
  file : SdFile
  cacheBuf : List UInt8
  randomCacheBuf : Option (List UInt8)
  fileSize : Nat
  cacheCapacity : Nat
  cacheStart : Nat := 0
  cacheLen : Nat := 0
  randomSlots : List RandomPageSlot := List.replicate randomPageCount {}
  randomClock : Nat := 0
  randomHits : Nat := 0
  randomMisses : Nat := 0
  hits : Nat := 0
  misses : Nat := 0
deriving Repr, DecidableEq

/-- A 32-bit counter. -/
def succ32 (n : Nat) : Nat := (n + 1) % 2 ^ 32

namespace CachedFile

/-- `refill` -/
def refill (f : CachedFile) (offset : Nat) : Bool × CachedFile :=
  if f.cacheCapacity = 0 then (false, f)
  else
    let aligned := offset / f.cacheCapacity * f.cacheCapacity
    if aligned ≥ f.fileSize then (false, f)
    else
      let sought := f.file.seek
      if sought.1 then
        let want :=
          if aligned + f.cacheCapacity > f.fileSize then f.fileSize - aligned
          else f.cacheCapacity
        let got := sought.2.readAt aligned want
        (decide (got.1.length > 0),
          { f with
            file := got.2
            cacheBuf := copyAt f.cacheBuf 0 got.1
            cacheStart := aligned
            cacheLen := got.1.length })
      else (false, { f with file := sought.2 })

/-! ### Random pages -/

/-- `find_random_page` -/
def findRandomPage (f : CachedFile) (pageIndex : Nat) : Option Nat :=
  f.randomSlots.findIdx? fun slot => slot.valid && slot.pageIndex == pageIndex

/-- `oldest_slot` and `oldest_stamp`, now that slot `i` is seen. -/
def older (i : Nat) (slot : RandomPageSlot) : Option (Nat × Nat) → Option (Nat × Nat)
  | none => some (i, slot.stamp)
  | some oldest => if slot.stamp < oldest.2 then some (i, slot.stamp) else some oldest

/-- The rest of `choose_random_slot` from place `i` on: the first unused slot, or the one that
was used least recently. -/
def chooseFrom (i : Nat) (oldest : Option (Nat × Nat)) : List RandomPageSlot → Option Nat
  | [] => oldest.map Prod.fst
  | slot :: rest => if slot.valid then chooseFrom (i + 1) (older i slot oldest) rest else some i

/-- `choose_random_slot` -/
def chooseRandomSlot (f : CachedFile) : Option Nat := chooseFrom 0 none f.randomSlots

/-- `load_random_page` into the page buffer `buf`. -/
def loadRandomPage (f : CachedFile) (buf : List UInt8) (pageIndex slot : Nat) :
    Bool × CachedFile :=
  let pageStart := pageIndex * randomPageSize
  if pageStart ≥ f.fileSize then (false, f)
  else
    let sought := f.file.seek
    if sought.1 then
      let want :=
        if pageStart + randomPageSize > f.fileSize then f.fileSize - pageStart
        else randomPageSize
      let got := sought.2.readAt pageStart want
      if got.1.length = 0 then (false, { f with file := got.2 })
      else
        (true,
          { f with
            file := got.2
            randomCacheBuf := some (copyAt buf (slot * randomPageSize) got.1)
            randomSlots := f.randomSlots.set slot
              { pageIndex := pageIndex
                validLen := got.1.length
                stamp := succ32 f.randomClock
                valid := true }
            randomClock := succ32 f.randomClock })
    else (false, { f with file := sought.2 })

/-- Up to `chunk` bytes from a slot, from `pageOff` on. -/
def copyFromSlot (f : CachedFile) (slot pageOff chunk : Nat) : List UInt8 :=
  match f.randomCacheBuf, f.randomSlots[slot]? with
  | some buf, some entry =>
      extent buf (slot * randomPageSize + pageOff) (min (entry.validLen - pageOff) chunk)
  | _, _ => []

/-- One round of the loop of `read_via_random_pages`: up to `chunk` bytes of one page. -/
def readPage (f : CachedFile) (cur chunk : Nat) : List UInt8 × CachedFile :=
  match f.randomCacheBuf with
  | none =>
      let sought := f.file.seek
      if sought.1 then
        let got := sought.2.readAt cur chunk
        (got.1, { f with file := got.2 })
      else ([], { f with file := sought.2 })
  | some buf =>
      let pageIndex := cur / randomPageSize
      match f.findRandomPage pageIndex with
      | some slot =>
          let used :=
            { f with
              randomHits := succ32 f.randomHits
              randomClock := succ32 f.randomClock
              randomSlots := f.randomSlots.modify slot fun entry =>
                { entry with stamp := succ32 f.randomClock } }
          (used.copyFromSlot slot (cur % randomPageSize) chunk, used)
      | none =>
          let missed := { f with randomMisses := succ32 f.randomMisses }
          match missed.chooseRandomSlot with
          | some slot =>
              let loaded := missed.loadRandomPage buf pageIndex slot
              if loaded.1 then
                (loaded.2.copyFromSlot slot (cur % randomPageSize) chunk, loaded.2)
              else ([], loaded.2)
          | none => ([], missed)

/-- The loop of `read_via_random_pages`, `need` bytes from `cur` on; every round but the last
copies a byte or more. -/
def readPages : Nat → CachedFile → Nat → Nat → List UInt8 × CachedFile
  | 0, f, _, _ => ([], f)
  | rounds + 1, f, cur, need =>
      if need = 0 then ([], f)
      else
        let chunk := min (randomPageSize - cur % randomPageSize) need
        let got := f.readPage cur chunk
        if got.1.length < chunk then got
        else
          let rest := readPages rounds got.2 (cur + chunk) (need - chunk)
          (got.1 ++ rest.1, rest.2)

/-- `read_via_random_pages` -/
def readViaRandomPages (f : CachedFile) (offset len : Nat) : List UInt8 × CachedFile :=
  readPages len f offset len

/-! ### Reading -/

/-- The request lies in the window; `offset + len` is a 32-bit sum. -/
def Holds (f : CachedFile) (offset len : Nat) : Prop :=
  offset ≥ f.cacheStart ∧ (offset + len) % 2 ^ 32 ≤ f.cacheStart + f.cacheLen

instance (f : CachedFile) (offset len : Nat) : Decidable (f.Holds offset len) :=
  inferInstanceAs (Decidable (_ ∧ _))

/-- Bytes of the window, by file offset. -/
def window (f : CachedFile) (offset len : Nat) : List UInt8 :=
  extent f.cacheBuf (offset - f.cacheStart) len

/-- The part of `read` behind a miss that the pages did not answer. -/
def readViaRefill (f : CachedFile) (offset len : Nat) : List UInt8 × CachedFile :=
  let filled := f.refill offset
  if filled.1 then
    if filled.2.Holds offset len then (filled.2.window offset len, filled.2)
    else if offset < filled.2.cacheStart ∨
        offset ≥ filled.2.cacheStart + filled.2.cacheLen then ([], filled.2)
    else
      -- The request spans two windows.
      let first := min (filled.2.cacheStart + filled.2.cacheLen - offset) len
      let again := filled.2.refill (offset + first)
      if again.1 ∧ again.2.Holds (offset + first) (len - first) then
        (filled.2.window offset first ++ again.2.window (offset + first) (len - first), again.2)
      else (filled.2.window offset first, again.2)
  else ([], filled.2)

/-- `read` into a buffer of `len` bytes: the bytes that were copied. -/
def read (f : CachedFile) (offset len : Nat) : List UInt8 × CachedFile :=
  if offset ≥ f.fileSize then ([], f)
  else
    let len := if (offset + len) % 2 ^ 32 > f.fileSize then f.fileSize - offset else len
    if f.Holds offset len then
      (f.window offset len, { f with hits := succ32 f.hits })
    else
      let missed := { f with misses := succ32 f.misses }
      let small :=
        if missed.cacheLen > 0 ∧ len ≤ randomPageSize then missed.readViaRandomPages offset len
        else ([], missed)
      if small.1.length > 0 then small
      else small.2.readViaRefill offset len

end CachedFile

/-! ## Opening -/

/-- PSRAM: which request is granted, and what the memory holds. -/
structure Heap where
  grants : Nat → Nat → Bool
  garbage : Nat → Nat → UInt8

/-- `heap_caps_malloc` as the request with this number. -/
def Heap.malloc (heap : Heap) (number size : Nat) : Option (List UInt8) :=
  if heap.grants number size then some ((List.range size).map (heap.garbage number)) else none

/-- The loop of `open` over smaller and smaller sizes: the size and the buffer, and the number of
the next request. -/
def Heap.allocate (heap : Heap) (number size : Nat) : Option (Nat × List UInt8) × Nat :=
  if _large : size ≥ minCacheSize then
    match heap.malloc number size with
    | some buf => (some (size, buf), number + 1)
    | none => heap.allocate (number + 1) (size / 2)
  else (none, number)
termination_by size
decreasing_by
  unfold minCacheSize at _large
  omega

inductive EspErr where
  | ok
  | invalidState
  | notFound
  | invalidSize
  | noMem
deriving Repr, DecidableEq

/-- The members once `open` has taken a file and a buffer, before the cache is primed. -/
def CachedFile.fresh (file : SdFile) (size : Nat) (chosen : Nat × List UInt8)
    (pages : Option (List UInt8)) : CachedFile where
  file := file
  cacheBuf := chosen.2
  randomCacheBuf := pages
  fileSize := size
  cacheCapacity := chosen.1

structure SdReadCache where
  current : Option CachedFile := none
deriving Repr, DecidableEq

namespace SdReadCache

/-- `open` -/
def open_ (c : SdReadCache) (card : Card) (heap : Heap) (path : Option (List UInt8)) :
    EspErr × SdReadCache :=
  match path with
  | none => (.invalidState, c)
  | some path =>
      if card.mounted then
        match card.files path with
        | none => (.notFound, c)
        | some file =>
            let atEnd := file.seek
            let fsize := if atEnd.1 then file.tellEnd else 0
            let atStart := atEnd.2.seek
            if fsize ≤ 0 then (.invalidSize, c)
            else
              let allocated := heap.allocate 0 (min fsize.toNat maxCacheSize)
              match allocated.1 with
              | none => (.noMem, c)
              | some chosen =>
                  let fresh := CachedFile.fresh atStart.2 fsize.toNat chosen
                    (heap.malloc allocated.2 (randomPageSize * randomPageCount))
                  (.ok, { current := some (fresh.refill 0).2 })
      else (.invalidState, c)

/-- `read` -/
def read (c : SdReadCache) (offset len : Nat) : List UInt8 × SdReadCache :=
  match c.current with
  | none => ([], c)
  | some f => ((f.read offset len).1, { current := some (f.read offset len).2 })

/-- What a sequence of reads returns. -/
def readAll (c : SdReadCache) : List (Nat × Nat) → List (List UInt8)
  | [] => []
  | request :: rest =>
      let got := c.read request.1 request.2
      got.1 :: got.2.readAll rest

end SdReadCache

end ForestLink.Sd
