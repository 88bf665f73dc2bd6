/-
Module: ForestLink.Proofs.SdOpening
Purpose: Which files the SD cache opens when PSRAM is granted, and what a failed opening leaves.
Trusted boundary: none
Main exports: CachedFile.Resident, SdReadCache.Delivered, open_cases, open_delivers_iff
-/
import ForestLink.Proofs.SdReads

namespace ForestLink.Sd

open ForestLink.Lib

/-- The whole file is in the window. -/
def CachedFile.Resident (content : List UInt8) (f : CachedFile) : Prop :=
  f.cacheStart = 0 ∧ f.cacheLen = content.length ∧
    extent f.cacheBuf 0 content.length = content

namespace SdReadCache

variable {c : SdReadCache} {card : Card} {heap : Heap} {path : Option (List UInt8)}
  {content : List UInt8}

/-- The file is open with a cache of its size, up to the cap, and resident if it fits. -/
def Delivered (content : List UInt8) (outcome : EspErr × SdReadCache) : Prop :=
  outcome.1 = .ok ∧ ∃ f, outcome.2.current = some f ∧
    f.cacheCapacity = min content.length maxCacheSize ∧
    (content.length ≤ maxCacheSize → f.Resident content)

/-- Every failure comes before the old file is given up. -/
theorem open_cases (c : SdReadCache) (card : Card) (heap : Heap) (path : Option (List UInt8)) :
    (c.open_ card heap path).1 = .ok ∨ (c.open_ card heap path).2 = c := by
  unfold open_
  cases path with
  | none => exact .inr rfl
  | some name =>
      dsimp only
      split
      · cases card.files name with
        | none => exact .inr rfl
        | some file =>
            dsimp only
            generalize (if file.seek.1 then file.tellEnd else 0) = fsize
            split
            · exact .inr rfl
            · cases (heap.allocate 0 (min fsize.toNat maxCacheSize)).1 with
              | none => exact .inr rfl
              | some chosen => exact .inl rfl
      · exact .inr rfl

/-- A file below the least cache size is refused, however much memory there is. -/
theorem open_small {name : List UInt8} (mounted : card.mounted = true)
    (found : card.files name = some { content := content })
    (some_ : 0 < content.length) (tiny : content.length < minCacheSize) :
    c.open_ card heap (some name) = (.noMem, c) := by
  have least : minCacheSize < 2 ^ 31 := by decide
  have asked : min content.length maxCacheSize < minCacheSize :=
    Nat.lt_of_le_of_lt (Nat.min_le_left _ _) tiny
  rw [open_found mounted found, if_neg (by omega), Heap.allocate_small asked]

/-- For every readable file of at least one byte whose size fits a `long`, and every allocator
that grants each request, `open` delivers the file exactly when it has at least 32 KB.  Whatever
the card and the allocator do, an opening that fails leaves the cache as it was. -/
theorem open_delivers_iff (c : SdReadCache) (card : Card) (heap : Heap) :
    (∀ path : Option (List UInt8),
      (c.open_ card heap path).1 ≠ .ok → (c.open_ card heap path).2 = c) ∧
    ∀ name content : List UInt8,
      card.mounted = true → card.files name = some { content := content } →
      0 < content.length → content.length < 2 ^ 31 →
      (∀ number size, heap.grants number size = true) →
      (Delivered content (c.open_ card heap (some name)) ↔ minCacheSize ≤ content.length) := by
  refine ⟨fun path failed => (open_cases c card heap path).resolve_left failed,
    fun name content mounted found some_ small granting => ?_⟩
  constructor
  · intro delivered
    by_contra tiny
    have refused : c.open_ card heap (some name) = (.noMem, c) :=
      open_small mounted found some_ (Nat.lt_of_not_le tiny)
    rw [refused] at delivered
    cases delivered.1
  · intro large
    obtain ⟨f, opened, sound, start, valid⟩ : ∃ f, c.open_ card heap (some name) =
        (.ok, { current := some f }) ∧ _ := open_granted mounted found granting large small
    rw [opened]
    refine ⟨rfl, f, rfl, sound.sized, fun fits => ?_⟩
    rw [Nat.min_eq_left fits] at valid
    have window := sound.window
    rw [start, valid, extent_all] at window
    exact ⟨start, valid, window⟩

/-- A file of equal bytes that fills ten pages, on a card without errors. -/
def sampleCard : Card where
  files _ := some { content := List.replicate 40000 7 }

def samplePsram : Heap where
  grants _ _ := true
  garbage _ _ := 0

/-- The file of 40000 bytes is resident. -/
theorem open_delivers_sample :
    Delivered (List.replicate 40000 7) (open_ {} sampleCard samplePsram (some [])) := by
  have long : (List.replicate 40000 (7 : UInt8)).length = 40000 := List.length_replicate
  refine ((open_delivers_iff {} sampleCard samplePsram).2 [] (List.replicate 40000 7) rfl rfl
    ?_ ?_ fun _ _ => rfl).mpr ?_
  · rw [long]
    decide
  · rw [long]
    decide
  · rw [long]
    decide

/-- A file of one byte. -/
def byteCard : Card where
  files _ := some { content := [65] }

/-- The one byte is not delivered, although every request is granted. -/
theorem open_refuses_one_byte :
    open_ {} byteCard samplePsram (some []) = (.noMem, {}) ∧
      ¬ Delivered [65] (open_ {} byteCard samplePsram (some [])) := by
  have refused : open_ {} byteCard samplePsram (some []) = (.noMem, {}) :=
    open_small rfl rfl (by decide) (by decide)
  refine ⟨refused, fun delivered => ?_⟩
  rw [refused] at delivered
  cases delivered.1

end SdReadCache

end ForestLink.Sd
