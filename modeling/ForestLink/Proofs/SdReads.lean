/-
Module: ForestLink.Proofs.SdReads
Purpose: Reads through the SD cache return the bytes of the file, whatever was read before.
Trusted boundary: none
Main exports: CachedFile.Sound, Sound.refill, Sound.readViaRefill, Sound.loadRandomPage,
  Sound.read, sd_cache_transparent
-/
import ForestLink.Sd.ReadCache

namespace ForestLink.Sd

open ForestLink.Lib

variable {content : List UInt8} {capacity : Nat}

/-! ## Aligned windows -/

theorem aligned_le (offset capacity : Nat) : offset / capacity * capacity ≤ offset :=
  Nat.div_mul_le_self offset capacity

theorem lt_aligned_add (offset : Nat) (positive : 0 < capacity) :
    offset < offset / capacity * capacity + capacity :=
  Nat.lt_div_mul_add positive

/-- The window behind an aligned one is aligned. -/
theorem aligned_next (offset : Nat) (positive : 0 < capacity) :
    (offset / capacity * capacity + capacity) / capacity * capacity =
      offset / capacity * capacity + capacity := by
  rw [← Nat.succ_mul, Nat.mul_div_cancel _ positive]

/-! ## Files without errors -/

theorem seek_plain (content : List UInt8) :
    SdFile.seek { content := content } = (true, { content := content }) := rfl

theorem readAt_plain (content : List UInt8) (pos want : Nat) :
    SdFile.readAt { content := content } pos want =
      (extent content pos want, { content := content }) := by
  unfold SdFile.readAt
  rw [List.headD_nil, Nat.min_self]
  rfl

theorem tellEnd_plain (content : List UInt8) :
    SdFile.tellEnd { content := content } =
      if content.length < 2 ^ 31 then (content.length : Int) else -1 := rfl

namespace CachedFile

/-- A slot holds a page of the file, up to the end of the file. -/
structure PageAt (content buf : List UInt8) (i : Nat) (slot : RandomPageSlot) : Prop where
  inside : slot.pageIndex * randomPageSize < content.length
  validLen : slot.validLen =
    min randomPageSize (content.length - slot.pageIndex * randomPageSize)
  bytes : extent buf (i * randomPageSize) slot.validLen =
    extent content (slot.pageIndex * randomPageSize) slot.validLen

/-- The window and every valid slot hold bytes of the file. -/
structure Sound (content : List UInt8) (capacity : Nat) (f : CachedFile) : Prop where
  file : f.file = { content := content }
  size : f.fileSize = content.length
  small : content.length < 2 ^ 31
  sized : f.cacheCapacity = capacity
  positive : 0 < capacity
  capped : capacity ≤ maxCacheSize
  buf : f.cacheBuf.length = capacity
  inside : f.cacheStart + f.cacheLen ≤ content.length
  fits : f.cacheLen ≤ capacity
  window : extent f.cacheBuf 0 f.cacheLen = extent content f.cacheStart f.cacheLen
  slots : f.randomSlots.length = randomPageCount
  pageBuf : ∀ buf ∈ f.randomCacheBuf, buf.length = randomPageSize * randomPageCount
  pages : ∀ buf ∈ f.randomCacheBuf, ∀ i slot, f.randomSlots[i]? = some slot →
    slot.valid = true → PageAt content buf i slot

variable {f : CachedFile} {offset len cur chunk : Nat}

/-! ## The window -/

theorem Sound.refill (sound : f.Sound content capacity) (inside : offset < content.length) :
    (f.refill offset).1 = true ∧ (f.refill offset).2.Sound content capacity ∧
      (f.refill offset).2.cacheStart = offset / capacity * capacity ∧
      (f.refill offset).2.cacheLen =
        min capacity (content.length - offset / capacity * capacity) := by
  have before := aligned_le offset capacity
  obtain ⟨start, startEq⟩ : ∃ start, start = offset / capacity * capacity := ⟨_, rfl⟩
  obtain ⟨want, wantEq⟩ : ∃ want, want = min capacity (content.length - start) := ⟨_, rfl⟩
  rw [← startEq] at before ⊢
  rw [← wantEq]
  have positive := sound.positive
  have wanted : (if start + capacity > content.length then content.length - start
      else capacity) = want := by
    split <;> omega
  have got : (extent content start want).length = want := length_extent_of_le (by omega)
  have filled : f.refill offset = (true,
      { f with
        file := { content := content }
        cacheBuf := copyAt f.cacheBuf 0 (extent content start want)
        cacheStart := start
        cacheLen := want }) := by
    unfold CachedFile.refill
    rw [sound.sized, sound.size, sound.file, if_neg (Nat.ne_of_gt positive), ← startEq]
    dsimp only
    rw [if_neg (by omega), seek_plain, if_pos rfl, readAt_plain, wanted]
    dsimp only
    rw [got, decide_eq_true (by omega)]
  have room : 0 + (extent content start want).length ≤ f.cacheBuf.length := by
    rw [got, sound.buf]
    omega
  have copied : extent (copyAt f.cacheBuf 0 (extent content start want)) 0
      (extent content start want).length = extent content start want :=
    extent_copyAt_self (Nat.zero_le _)
  rw [got] at copied
  have within : start + want ≤ content.length := by omega
  have fits : want ≤ capacity := by omega
  rw [filled]
  exact ⟨rfl, ⟨rfl, sound.size, sound.small, sound.sized, positive, sound.capped,
    (length_copyAt room).trans sound.buf, within, fits, copied, sound.slots, sound.pageBuf,
    sound.pages⟩, rfl, rfl⟩

theorem Sound.holds_iff (sound : f.Sound content capacity)
    (inside : offset + len ≤ content.length) :
    f.Holds offset len ↔ f.cacheStart ≤ offset ∧ offset + len ≤ f.cacheStart + f.cacheLen := by
  have small := sound.small
  unfold Holds
  rw [Nat.mod_eq_of_lt (by omega)]

theorem Sound.window_eq (sound : f.Sound content capacity) (start : f.cacheStart ≤ offset)
    (fits : offset + len ≤ f.cacheStart + f.cacheLen) :
    f.window offset len = extent content offset len := by
  have part : extent f.cacheBuf (0 + (offset - f.cacheStart)) len =
      extent content (f.cacheStart + (offset - f.cacheStart)) len :=
    extent_congr sound.window (by omega)
  rw [Nat.zero_add, Nat.add_sub_cancel' start] at part
  exact part

/-- A miss that goes to the windows: the request lies in one, or in two neighbours. -/
theorem Sound.readViaRefill (sound : f.Sound content capacity)
    (inside : offset < content.length) (clamped : offset + len ≤ content.length)
    (short : len ≤ capacity) :
    (f.readViaRefill offset len).1 = extent content offset len ∧
      (f.readViaRefill offset len).2.Sound content capacity := by
  obtain ⟨filled, first, start, valid⟩ := sound.refill inside
  have before := aligned_le offset capacity
  have behind := lt_aligned_add offset sound.positive
  have next := aligned_next offset sound.positive
  rw [← start] at valid before behind next
  unfold CachedFile.readViaRefill
  dsimp only
  rw [if_pos filled]
  by_cases held : (f.refill offset).2.Holds offset len
  · rw [if_pos held]
    obtain ⟨_, fits⟩ := (first.holds_iff clamped).mp held
    exact ⟨first.window_eq before fits, first⟩
  · have beyond : ¬ offset + len ≤ (f.refill offset).2.cacheStart + (f.refill offset).2.cacheLen :=
      fun fits => held ((first.holds_iff clamped).mpr ⟨before, fits⟩)
    have full : (f.refill offset).2.cacheLen = capacity := by omega
    rw [if_neg held, if_neg (by omega), full]
    obtain ⟨head, headEq⟩ : ∃ head, head =
        min ((f.refill offset).2.cacheStart + capacity - offset) len := ⟨_, rfl⟩
    have edge : offset + head = (f.refill offset).2.cacheStart + capacity := by omega
    rw [← headEq]
    obtain ⟨refilled, second, secondStart, secondValid⟩ :=
      first.refill (by omega : offset + head < content.length)
    rw [edge, next] at secondStart secondValid
    have rest : offset + head + (len - head) ≤ content.length := by omega
    have restHeld : ((f.refill offset).2.refill (offset + head)).2.Holds (offset + head)
        (len - head) := (second.holds_iff rest).mpr (by rw [edge]; omega)
    have headBytes : (f.refill offset).2.window offset head = extent content offset head :=
      first.window_eq before (by omega)
    have restBytes : ((f.refill offset).2.refill (offset + head)).2.window (offset + head)
        (len - head) = extent content (offset + head) (len - head) :=
      second.window_eq (by rw [edge]; omega) (by rw [edge]; omega)
    rw [if_pos ⟨refilled, restHeld⟩]
    refine ⟨?_, second⟩
    dsimp only
    rw [headBytes, restBytes, extent_append]
    congr 1
    omega

/-! ## The random pages -/

theorem older_spec (i : Nat) (slot : RandomPageSlot) {oldest : Option (Nat × Nat)}
    (earlier : ∀ found ∈ oldest, found.1 < i) :
    ∃ found, older i slot oldest = some found ∧ found.1 < i + 1 := by
  cases oldest with
  | none => exact ⟨_, rfl, Nat.lt_succ_self i⟩
  | some found =>
      unfold older
      dsimp only
      split
      · exact ⟨_, rfl, Nat.lt_succ_self i⟩
      · exact ⟨found, rfl, Nat.lt_succ_of_lt (earlier found rfl)⟩

theorem chooseFrom_spec (slots : List RandomPageSlot) (i : Nat) (oldest : Option (Nat × Nat))
    (some_ : oldest.isSome ∨ slots ≠ []) (earlier : ∀ found ∈ oldest, found.1 < i) :
    ∃ chosen, chooseFrom i oldest slots = some chosen ∧ chosen < i + slots.length := by
  induction slots generalizing i oldest with
  | nil =>
      cases oldest with
      | none => exact absurd some_ (by simp)
      | some found => exact ⟨found.1, rfl, earlier found rfl⟩
  | cons slot rest inductionHypothesis =>
      unfold chooseFrom
      rw [List.length_cons]
      split
      · obtain ⟨found, oldestEq, before⟩ := older_spec i slot earlier
        rw [oldestEq]
        obtain ⟨chosen, chosenEq, bound⟩ := inductionHypothesis (i + 1) (some found) (.inl rfl)
          fun other here => Option.some.inj here ▸ before
        exact ⟨chosen, chosenEq, by omega⟩
      · exact ⟨i, rfl, by omega⟩

theorem Sound.chooseRandomSlot (sound : f.Sound content capacity) :
    ∃ slot, f.chooseRandomSlot = some slot ∧ slot < randomPageCount := by
  have some_ : f.randomSlots ≠ [] := by
    intro none
    have slots := sound.slots
    rw [none] at slots
    cases slots
  obtain ⟨slot, found, bound⟩ :=
    chooseFrom_spec f.randomSlots 0 none (.inr some_) fun _ none => absurd none (by simp)
  rw [sound.slots] at bound
  exact ⟨slot, found, by omega⟩

/-- A valid slot of the right page answers a request that lies in the page and in the file. -/
theorem Sound.copyFromSlot (sound : f.Sound content capacity) {buf : List UInt8}
    (pages : f.randomCacheBuf = some buf) {i : Nat} {slot : RandomPageSlot}
    (here : f.randomSlots[i]? = some slot) (valid : slot.valid = true)
    (page : slot.pageIndex = cur / randomPageSize) (clamped : cur + chunk ≤ content.length)
    (within : cur % randomPageSize + chunk ≤ randomPageSize) :
    f.copyFromSlot i (cur % randomPageSize) chunk = extent content cur chunk := by
  obtain ⟨_, validLen, bytes⟩ := sound.pages buf pages i slot here valid
  have split := Nat.div_add_mod' cur randomPageSize
  rw [page] at validLen bytes
  have enough : cur % randomPageSize + chunk ≤ slot.validLen := by omega
  unfold CachedFile.copyFromSlot
  rw [pages, here]
  dsimp only
  rw [Nat.min_eq_right (by omega), extent_congr bytes enough, split]

/-- The statistics do not matter. -/
theorem Sound.counted (sound : f.Sound content capacity) (hits misses randomMisses : Nat) :
    Sound content capacity
      { f with hits := hits, misses := misses, randomMisses := randomMisses } :=
  ⟨sound.file, sound.size, sound.small, sound.sized, sound.positive, sound.capped, sound.buf,
    sound.inside, sound.fits, sound.window, sound.slots, sound.pageBuf, sound.pages⟩

/-- Another stamp does not matter. -/
theorem Sound.used (sound : f.Sound content capacity) (slot hits clock : Nat) :
    Sound content capacity
      { f with
        randomHits := hits
        randomClock := clock
        randomSlots := f.randomSlots.modify slot fun entry => { entry with stamp := clock } } where
  file := sound.file
  size := sound.size
  small := sound.small
  sized := sound.sized
  positive := sound.positive
  capped := sound.capped
  buf := sound.buf
  inside := sound.inside
  fits := sound.fits
  window := sound.window
  slots := (List.length_modify ..).trans sound.slots
  pageBuf := sound.pageBuf
  pages := by
    intro buf given i entry here valid
    dsimp only at here
    rw [List.getElem?_modify] at here
    obtain ⟨old, known, changed⟩ := Option.map_eq_some_iff.mp here
    split at changed
    · subst changed
      obtain ⟨inside, validLen, bytes⟩ := sound.pages buf given i old known valid
      exact ⟨inside, validLen, bytes⟩
    · subst changed
      exact sound.pages buf given i old known valid

/-- Pages in other slots are not touched when a page is stored. -/
theorem PageAt.copyAt {buf page : List UInt8} {i j : Nat} {slot : RandomPageSlot}
    (at_ : PageAt content buf j slot) (other : i ≠ j)
    (fits : i * randomPageSize + page.length ≤ buf.length)
    (short : page.length ≤ randomPageSize) :
    PageAt content (Lib.copyAt buf (i * randomPageSize) page) j slot := by
  obtain ⟨inside, validLen, bytes⟩ := at_
  refine ⟨inside, validLen, ?_⟩
  rw [extent_copyAt_apart fits, bytes]
  have length : slot.validLen ≤ randomPageSize := by omega
  rcases Nat.lt_or_gt_of_ne other with before | behind
  · have next := Nat.mul_le_mul_right randomPageSize (Nat.succ_le_of_lt before)
    rw [Nat.succ_mul] at next
    omega
  · have next := Nat.mul_le_mul_right randomPageSize (Nat.succ_le_of_lt behind)
    rw [Nat.succ_mul] at next
    omega

/-- `want` bytes of the file from a page on, stored in a slot. -/
def withPage (f : CachedFile) (content buf : List UInt8) (pageIndex slot want : Nat) :
    CachedFile :=
  { f with
    file := { content := content }
    randomCacheBuf := some (Lib.copyAt buf (slot * randomPageSize)
      (extent content (pageIndex * randomPageSize) want))
    randomSlots := f.randomSlots.set slot
      { pageIndex := pageIndex
        validLen := want
        stamp := succ32 f.randomClock
        valid := true }
    randomClock := succ32 f.randomClock }

theorem Sound.withPage (sound : f.Sound content capacity) {buf : List UInt8}
    (given : f.randomCacheBuf = some buf) {pageIndex slot want : Nat}
    (room : slot < randomPageCount) (inside : pageIndex * randomPageSize < content.length)
    (wantEq : want = min randomPageSize (content.length - pageIndex * randomPageSize)) :
    (f.withPage content buf pageIndex slot want).Sound content capacity := by
  have got : (extent content (pageIndex * randomPageSize) want).length = want :=
    length_extent_of_le (by omega)
  have bufLength := sound.pageBuf buf given
  have end_ : slot * randomPageSize + randomPageSize ≤ buf.length := by
    rw [bufLength, Nat.mul_comm randomPageSize, ← Nat.succ_mul]
    exact Nat.mul_le_mul_right _ room
  have short : (extent content (pageIndex * randomPageSize) want).length ≤ randomPageSize :=
    Nat.le_trans (Nat.le_of_eq got) (wantEq ▸ Nat.min_le_left _ _)
  have fits : slot * randomPageSize + (extent content (pageIndex * randomPageSize) want).length ≤
      buf.length :=
    Nat.le_trans (Nat.add_le_add_left short _) end_
  have slotRoom : slot < f.randomSlots.length := sound.slots.symm ▸ room
  refine ⟨rfl, sound.size, sound.small, sound.sized, sound.positive, sound.capped, sound.buf,
    sound.inside, sound.fits, sound.window, (List.length_set ..).trans sound.slots, ?_, ?_⟩
  · intro other here
    obtain rfl := Option.some.inj here
    exact (length_copyAt fits).trans bufLength
  · intro other here i entry known valid
    obtain rfl := Option.some.inj here
    by_cases same : slot = i
    · subst same
      obtain rfl := Option.some.inj ((List.getElem?_set_self slotRoom).symm.trans known)
      have copied : extent (Lib.copyAt buf (slot * randomPageSize) _) (slot * randomPageSize) _ =
          extent content (pageIndex * randomPageSize) want := extent_copyAt_self (by omega)
      rw [got] at copied
      exact ⟨inside, wantEq, copied⟩
    · have old : f.randomSlots[i]? = some entry := (List.getElem?_set_ne same).symm.trans known
      exact (sound.pages buf given i entry old valid).copyAt same fits short

theorem Sound.loadRandomPage (sound : f.Sound content capacity) {buf : List UInt8}
    (given : f.randomCacheBuf = some buf) {pageIndex slot : Nat} (room : slot < randomPageCount)
    (inside : pageIndex * randomPageSize < content.length) :
    (f.loadRandomPage buf pageIndex slot).1 = true ∧
      (f.loadRandomPage buf pageIndex slot).2.Sound content capacity ∧
      (f.loadRandomPage buf pageIndex slot).2.randomCacheBuf.isSome ∧
      ∃ entry, (f.loadRandomPage buf pageIndex slot).2.randomSlots[slot]? = some entry ∧
        entry.valid = true ∧ entry.pageIndex = pageIndex := by
  obtain ⟨want, wantEq⟩ :
      ∃ want, want = min randomPageSize (content.length - pageIndex * randomPageSize) := ⟨_, rfl⟩
  have loaded : f.loadRandomPage buf pageIndex slot =
      (true, f.withPage content buf pageIndex slot want) := by
    have wanted : (if pageIndex * randomPageSize + randomPageSize > content.length
        then content.length - pageIndex * randomPageSize else randomPageSize) = want := by
      split <;> omega
    have positive : 0 < randomPageSize := by decide
    have got : (extent content (pageIndex * randomPageSize) want).length = want :=
      length_extent_of_le (by omega)
    unfold CachedFile.loadRandomPage CachedFile.withPage
    rw [sound.size, sound.file]
    dsimp only
    rw [if_neg (by omega), seek_plain, if_pos rfl, readAt_plain, wanted]
    dsimp only
    rw [got, if_neg (by omega)]
  rw [loaded]
  have slotRoom : slot < f.randomSlots.length := sound.slots.symm ▸ room
  exact ⟨rfl, sound.withPage given room inside wantEq, rfl, _,
    List.getElem?_set_self slotRoom, rfl, rfl⟩

theorem findRandomPage_spec {pageIndex slot : Nat}
    (found : f.findRandomPage pageIndex = some slot) :
    ∃ entry, f.randomSlots[slot]? = some entry ∧ entry.valid = true ∧
      entry.pageIndex = pageIndex := by
  obtain ⟨inside, holds, _⟩ := List.findIdx?_eq_some_iff_getElem.mp found
  rw [Bool.and_eq_true, beq_iff_eq] at holds
  exact ⟨_, List.getElem?_eq_getElem inside, holds⟩

/-- One round of the page loop, for a request inside a page. -/
theorem Sound.readPage (sound : f.Sound content capacity)
    (inside : cur < content.length) (clamped : cur + chunk ≤ content.length)
    (within : cur % randomPageSize + chunk ≤ randomPageSize) :
    (f.readPage cur chunk).1 = extent content cur chunk ∧
      (f.readPage cur chunk).2.Sound content capacity := by
  unfold CachedFile.readPage
  cases given : f.randomCacheBuf with
  | none =>
      dsimp only
      rw [sound.file, seek_plain, if_pos rfl, readAt_plain]
      refine ⟨rfl, ?_⟩
      dsimp only
      rw [← given, ← sound.file]
      exact sound
  | some buf =>
      dsimp only
      cases found : f.findRandomPage (cur / randomPageSize) with
      | some slot =>
          obtain ⟨entry, known, valid, page⟩ := findRandomPage_spec found
          have used := sound.used slot (succ32 f.randomHits) (succ32 f.randomClock)
          have restamped : (f.randomSlots.modify slot fun entry =>
              { entry with stamp := succ32 f.randomClock })[slot]? =
                some { entry with stamp := succ32 f.randomClock } := by
            rw [List.getElem?_modify, known]
            exact congrArg some (if_pos rfl)
          dsimp only
          rw [← given]
          exact ⟨used.copyFromSlot given restamped valid page clamped within, used⟩
      | none =>
          have missed := sound.counted f.hits f.misses (succ32 f.randomMisses)
          have page : cur / randomPageSize * randomPageSize < content.length :=
            Nat.lt_of_le_of_lt (aligned_le cur randomPageSize) inside
          obtain ⟨slot, chosen, room⟩ := missed.chooseRandomSlot
          obtain ⟨loads, loaded, kept, entry, known, valid, same⟩ :=
            missed.loadRandomPage given room page
          obtain ⟨after, afterEq⟩ := Option.isSome_iff_exists.mp kept
          dsimp only
          rw [← given, chosen]
          dsimp only
          rw [if_pos loads]
          exact ⟨loaded.copyFromSlot afterEq known valid same clamped within, loaded⟩

/-- The page loop copies the whole request. -/
theorem Sound.readPages {rounds need : Nat} (sound : f.Sound content capacity)
    (enough : need ≤ rounds) (clamped : cur + need ≤ content.length) :
    (readPages rounds f cur need).1 = extent content cur need ∧
      (readPages rounds f cur need).2.Sound content capacity := by
  induction rounds generalizing f cur need with
  | zero =>
      obtain rfl := Nat.le_zero.mp enough
      exact ⟨rfl, sound⟩
  | succ rounds inductionHypothesis =>
      unfold CachedFile.readPages
      by_cases done : need = 0
      · rw [if_pos done, done]
        exact ⟨rfl, sound⟩
      · rw [if_neg done]
        dsimp only
        obtain ⟨chunk, chunkEq⟩ : ∃ chunk, chunk =
            min (randomPageSize - cur % randomPageSize) need := ⟨_, rfl⟩
        have pagePositive : 0 < randomPageSize := by decide
        have page := Nat.mod_lt cur pagePositive
        rw [← chunkEq]
        obtain ⟨bytes, after⟩ : (f.readPage cur chunk).1 = extent content cur chunk ∧ _ :=
          sound.readPage (by omega) (by omega) (by omega)
        have length : (f.readPage cur chunk).1.length = chunk := by
          rw [bytes]
          exact length_extent_of_le (by omega)
        have behind : cur + chunk + (need - chunk) ≤ content.length := by omega
        obtain ⟨rest, last⟩ := inductionHypothesis after
          (by omega : need - chunk ≤ rounds) behind
        rw [length, if_neg (Nat.lt_irrefl chunk)]
        refine ⟨?_, last⟩
        dsimp only
        rw [bytes, rest, extent_append]
        congr 1
        omega

/-! ## Reading -/

/-- Every read returns the bytes of the file. -/
theorem Sound.read (sound : f.Sound content capacity) (short : len ≤ capacity) :
    (f.read offset len).1 = extent content offset len ∧
      (f.read offset len).2.Sound content capacity := by
  unfold CachedFile.read
  by_cases beyond : offset ≥ f.fileSize
  · rw [if_pos beyond, extent_of_length_le (sound.size ▸ beyond)]
    exact ⟨rfl, sound⟩
  · rw [if_neg beyond]
    rw [sound.size] at beyond
    have small := sound.small
    have capped : capacity ≤ 2 ^ 20 := Nat.le_trans sound.capped (by decide)
    obtain ⟨want, wantEq⟩ : ∃ want, want = min len (content.length - offset) := ⟨_, rfl⟩
    have clamp : (if (offset + len) % 2 ^ 32 > f.fileSize then f.fileSize - offset
        else len) = want := by
      rw [sound.size, Nat.mod_eq_of_lt (by omega)]
      split <;> omega
    have clamped : offset + want ≤ content.length := by omega
    rw [clamp, ← extent_min, ← wantEq]
    dsimp only
    by_cases held : f.Holds offset want
    · obtain ⟨start, fits⟩ := (sound.holds_iff clamped).mp held
      rw [if_pos held]
      exact ⟨sound.window_eq start fits, sound.counted (succ32 f.hits) f.misses f.randomMisses⟩
    · have missed := sound.counted f.hits (succ32 f.misses) f.randomMisses
      obtain ⟨pages, paged⟩ := missed.readPages (Nat.le_refl want) clamped
      rw [if_neg held]
      by_cases paging : f.cacheLen > 0 ∧ want ≤ randomPageSize
      · rw [if_pos paging]
        unfold readViaRandomPages
        split
        · exact ⟨pages, paged⟩
        · exact paged.readViaRefill (by omega) clamped (by omega)
      · rw [if_neg paging]
        exact missed.readViaRefill (by omega) clamped (by omega)

end CachedFile

/-! ## From the opening on -/

theorem Heap.malloc_length {heap : Heap} {number size : Nat} {buf : List UInt8}
    (granted : heap.malloc number size = some buf) : buf.length = size := by
  unfold malloc at granted
  split at granted
  · obtain rfl := Option.some.inj granted
    rw [List.length_map, List.length_range]
  · cases granted

theorem Heap.allocate_granted {heap : Heap} {number size : Nat} {buf : List UInt8}
    (large : minCacheSize ≤ size) (granted : heap.malloc number size = some buf) :
    heap.allocate number size = (some (size, buf), number + 1) := by
  rw [Heap.allocate, dif_pos large, granted]

theorem Heap.allocate_small {heap : Heap} {number size : Nat} (small : size < minCacheSize) :
    heap.allocate number size = (none, number) := by
  rw [Heap.allocate, dif_neg (Nat.not_le_of_lt small)]

/-- The loop over the sizes ends with a buffer of the size that it names. -/
theorem Heap.allocate_spec {heap : Heap} {number size : Nat} {chosen : Nat × List UInt8}
    (allocated : (heap.allocate number size).1 = some chosen) :
    chosen.2.length = chosen.1 ∧ minCacheSize ≤ chosen.1 ∧ chosen.1 ≤ size := by
  induction number, size using Heap.allocate.induct heap with
  | case1 number size large buf granted =>
      rw [Heap.allocate, dif_pos large, granted] at allocated
      obtain rfl := Option.some.inj allocated
      exact ⟨malloc_length granted, large, Nat.le_refl size⟩
  | case2 number size large refused inductionHypothesis =>
      rw [Heap.allocate, dif_pos large, refused] at allocated
      obtain ⟨length, least, most⟩ := inductionHypothesis allocated
      exact ⟨length, least, Nat.le_trans most (Nat.div_le_self size 2)⟩
  | case3 number size small =>
      rw [Heap.allocate, dif_neg small] at allocated
      cases allocated

theorem CachedFile.sound_fresh {chosen : Nat × List UInt8} {pages : Option (List UInt8)}
    (small : content.length < 2 ^ 31) (length : chosen.2.length = chosen.1)
    (least : minCacheSize ≤ chosen.1) (most : chosen.1 ≤ maxCacheSize)
    (pageBuf : ∀ buf ∈ pages, buf.length = randomPageSize * randomPageCount) :
    Sound content chosen.1 (fresh { content := content } content.length chosen pages) where
  file := rfl
  size := rfl
  small := small
  sized := rfl
  positive := Nat.lt_of_lt_of_le (by decide) least
  capped := most
  buf := length
  inside := Nat.zero_le _
  fits := Nat.zero_le _
  window := rfl
  slots := List.length_replicate
  pageBuf := pageBuf
  pages := by
    intro buf _ i slot known valid
    obtain rfl := (List.mem_replicate.mp (List.mem_of_getElem? known)).2
    cases valid

/-- The cache as `open` leaves it: the first window is loaded. -/
theorem CachedFile.sound_primed {heap : Heap} {size : Nat} {chosen : Nat × List UInt8}
    (allocated : (heap.allocate 0 size).1 = some chosen) (capped : size ≤ maxCacheSize)
    (small : content.length < 2 ^ 31) (some_ : 0 < content.length) (number : Nat) :
    let f := ((fresh { content := content } content.length chosen
      (heap.malloc number (randomPageSize * randomPageCount))).refill 0).2
    f.Sound content chosen.1 ∧ f.cacheStart = 0 ∧ f.cacheLen = min chosen.1 content.length := by
  obtain ⟨length, least, most⟩ := Heap.allocate_spec allocated
  have fresh : Sound content chosen.1 (fresh { content := content } content.length chosen
      (heap.malloc number (randomPageSize * randomPageCount))) :=
    sound_fresh small length least (Nat.le_trans most capped)
      fun buf granted => Heap.malloc_length granted
  obtain ⟨_, sound, start, valid⟩ := fresh.refill some_
  rw [Nat.zero_div, Nat.zero_mul] at start valid
  exact ⟨sound, start, valid⟩

namespace SdReadCache

variable {c : SdReadCache} {card : Card} {heap : Heap} {path : Option (List UInt8)}
  {f : CachedFile}

/-- How `open` deals with a file that it finds and can read. -/
theorem open_found {name : List UInt8} (mounted : card.mounted = true)
    (found : card.files name = some { content := content }) :
    c.open_ card heap (some name) =
      if content.length = 0 ∨ 2 ^ 31 ≤ content.length then (.invalidSize, c)
      else
        match (heap.allocate 0 (min content.length maxCacheSize)).1 with
        | none => (.noMem, c)
        | some chosen =>
            (.ok, { current := some ((CachedFile.fresh { content := content } content.length
              chosen (heap.malloc (heap.allocate 0 (min content.length maxCacheSize)).2
                (randomPageSize * randomPageCount))).refill 0).2 }) := by
  have size : (if (SdFile.seek { content := content }).1 then
      SdFile.tellEnd { content := content } else 0) ≤ 0 ↔
        content.length = 0 ∨ 2 ^ 31 ≤ content.length := by
    rw [seek_plain, if_pos rfl, tellEnd_plain]
    split <;> omega
  unfold open_
  dsimp only
  rw [if_pos mounted, found]
  dsimp only
  by_cases refused : content.length = 0 ∨ 2 ^ 31 ≤ content.length
  · rw [if_pos (size.mpr refused), if_pos refused]
  · have told : (SdFile.tellEnd { content := content }).toNat = content.length := by
      rw [tellEnd_plain, if_pos (by omega)]
      rfl
    rw [if_neg fun small => refused (size.mp small), if_neg refused, seek_plain, if_pos rfl, told]
    rfl

/-- With memory for every request, a file that reaches the least cache size is opened. -/
theorem open_granted {name : List UInt8} (mounted : card.mounted = true)
    (found : card.files name = some { content := content })
    (granting : ∀ number size, heap.grants number size = true)
    (large : minCacheSize ≤ content.length) (small : content.length < 2 ^ 31) :
    ∃ f, c.open_ card heap (some name) = (.ok, { current := some f }) ∧
      f.Sound content (min content.length maxCacheSize) ∧ f.cacheStart = 0 ∧
      f.cacheLen = min content.length maxCacheSize := by
  obtain ⟨size, sizeEq⟩ : ∃ size, size = min content.length maxCacheSize := ⟨_, rfl⟩
  have positive : 0 < minCacheSize := by decide
  have room : minCacheSize ≤ maxCacheSize := by decide
  have granted : heap.malloc 0 size = some ((List.range size).map (heap.garbage 0)) :=
    if_pos (granting 0 size)
  have allocated := Heap.allocate_granted (by omega : minCacheSize ≤ size) granted
  have opened : c.open_ card heap (some name) = _ := open_found mounted found
  rw [if_neg (by omega), ← sizeEq, allocated] at opened
  obtain ⟨sound, start, valid⟩ := CachedFile.sound_primed (congrArg Prod.fst allocated)
    (by omega) small (by omega) (0 + 1)
  rw [← sizeEq]
  exact ⟨_, opened, sound, start, valid.trans (by omega)⟩

theorem open_ok_spec (errorFree : card.ErrorFree)
    (opened : c.open_ card heap path = (.ok, { current := some f })) :
    f.Sound f.file.content f.cacheCapacity ∧ card.mounted = true ∧
      ∃ name, path = some name ∧ card.files name = some { content := f.file.content } := by
  cases path with
  | none => cases opened
  | some name =>
      cases mounted : card.mounted with
      | false =>
          unfold open_ at opened
          dsimp only at opened
          rw [mounted, if_neg Bool.false_ne_true] at opened
          cases opened
      | true =>
          cases found : card.files name with
          | none =>
              unfold open_ at opened
              dsimp only at opened
              rw [mounted, if_pos rfl, found] at opened
              cases opened
          | some file =>
              obtain ⟨content, seeks, reads⟩ := file
              obtain ⟨rfl, rfl⟩ := errorFree name _ found
              rw [open_found mounted found] at opened
              split at opened
              · cases opened
              · rename_i accepted
                split at opened
                · cases opened
                · rename_i chosen allocated
                  have small : content.length < 2 ^ 31 := by omega
                  have some_ : 0 < content.length := by omega
                  have sound := (CachedFile.sound_primed allocated (Nat.min_le_right _ _) small
                    some_ (heap.allocate 0 (min content.length maxCacheSize)).2).1
                  obtain rfl := Option.some.inj (congrArg current (Prod.mk.inj opened).2)
                  have same := congrArg SdFile.content sound.file
                  dsimp only at same
                  rw [same, sound.sized]
                  exact ⟨sound, rfl, name, rfl, found⟩

theorem readAll_sound {requests : List (Nat × Nat)} (sound : f.Sound content capacity)
    (short : ∀ request ∈ requests, request.2 ≤ capacity) :
    readAll { current := some f } requests =
      requests.map fun request => extent content request.1 request.2 := by
  induction requests generalizing f with
  | nil => rfl
  | cons request rest inductionHypothesis =>
      have served : (f.read request.1 request.2).1 = extent content request.1 request.2 ∧
          (f.read request.1 request.2).2.Sound content capacity :=
        sound.read (short request List.mem_cons_self)
      obtain ⟨bytes, after⟩ := served
      have later := inductionHypothesis after
        fun other member => short other (List.mem_cons_of_mem request member)
      change (f.read request.1 request.2).1 :: readAll _ rest = _ :: rest.map _
      rw [bytes, ← later]
      rfl

/-- For every file that `open` accepted, with or without the buffer of the random pages: every
sequence of reads of up to `cache_capacity_` bytes returns the bytes of the file at the asked
ranges, up to its end, as reading the file directly does. -/
theorem sd_cache_transparent (errorFree : card.ErrorFree)
    (opened : c.open_ card heap path = (.ok, { current := some f }))
    {requests : List (Nat × Nat)}
    (short : ∀ request ∈ requests, request.2 ≤ f.cacheCapacity) :
    readAll { current := some f } requests =
        requests.map (fun request => extent f.file.content request.1 request.2) ∧
      ∀ offset len,
        (extent f.file.content offset len).length = min len (f.fileSize - offset) ∧
        card.readChunk path offset len = extent f.file.content offset len := by
  obtain ⟨sound, mounted, name, rfl, found⟩ := open_ok_spec errorFree opened
  refine ⟨readAll_sound sound short, fun offset len => ⟨?_, ?_⟩⟩
  · rw [length_extent, sound.size]
  · unfold Card.readChunk
    dsimp only
    rw [if_pos mounted, found]
    dsimp only
    rw [seek_plain, if_pos rfl, readAt_plain]

/-! ## A window of half the file -/

/-- The bytes repeat after 256. -/
def longFile : List UInt8 := (List.range 80000).map UInt8.ofNat

def longCard : Card where
  files _ := some { content := longFile }

/-- There is no room for the whole file. -/
def tightPsram : Heap where
  grants number _ := number != 0
  garbage _ _ := 0

theorem length_longFile : longFile.length = 80000 := by
  rw [longFile, List.length_map, List.length_range]

theorem extent_longFile (offset len : Nat) :
    extent longFile offset len =
      (List.range' offset (min len (80000 - offset))).map UInt8.ofNat := by
  have part : ((List.range 80000).drop offset).take len =
      List.range' offset (min len (80000 - offset)) :=
    List.ext_getElem (by simp) fun _ _ _ => by simp
  rw [extent, longFile, ← List.map_drop, ← List.map_take, part]

theorem open_longFile : ∃ f, open_ {} longCard tightPsram (some []) = (.ok, { current := some f }) ∧
    f.Sound longFile 40000 := by
  have refused : tightPsram.malloc 0 80000 = none := if_neg (by decide)
  have granted : tightPsram.malloc 1 40000 =
      some ((List.range 40000).map (tightPsram.garbage 1)) := if_pos rfl
  have allocated : tightPsram.allocate 0 80000 =
      (some (40000, (List.range 40000).map (tightPsram.garbage 1)), 2) := by
    rw [Heap.allocate, dif_pos (by decide), refused]
    exact Heap.allocate_granted (by decide : minCacheSize ≤ 40000) granted
  have room : min longFile.length maxCacheSize = 80000 := by
    rw [length_longFile]
    decide
  have opened : open_ {} longCard tightPsram (some []) = _ := open_found rfl rfl
  rw [length_longFile, if_neg (by decide), ← length_longFile, room, allocated] at opened
  obtain ⟨sound, _⟩ := CachedFile.sound_primed (congrArg Prod.fst allocated) (by decide)
    (by rw [length_longFile]; decide : longFile.length < 2 ^ 31)
    (by rw [length_longFile]; decide) 2
  exact ⟨_, opened, sound⟩

/-- A read inside the window, one of a page behind it and one of the same page again, one across
the end of the window, and one across the end of the file. -/
theorem sd_cache_transparent_long :
    ∃ f, open_ {} longCard tightPsram (some []) = (.ok, { current := some f }) ∧
      f.cacheCapacity = 40000 ∧
      readAll { current := some f }
          [(100, 10), (60000, 10), (60005, 10), (38000, 8000), (79990, 20)] =
        [List.range' 100 10, List.range' 60000 10, List.range' 60005 10,
          List.range' 38000 8000, List.range' 79990 10].map (List.map UInt8.ofNat) := by
  have errorFree : longCard.ErrorFree := by
    intro path file found
    obtain rfl := Option.some.inj found
    exact ⟨rfl, rfl⟩
  obtain ⟨f, opened, sound⟩ := open_longFile
  have short : ∀ request ∈ [(100, 10), (60000, 10), (60005, 10), (38000, 8000), (79990, 20)],
      request.2 ≤ f.cacheCapacity := by
    rw [sound.sized]
    decide
  refine ⟨f, opened, sound.sized, ?_⟩
  rw [(sd_cache_transparent errorFree opened short).1, sound.file]
  simp only [List.map_cons, List.map_nil, extent_longFile]
  rfl

end SdReadCache

end ForestLink.Sd
