/-
Module: ForestLink.Proofs.SavedNames
Purpose: Saving never costs the cloud a file: each call of `Save` that comes back adds one file
  under a fresh name directly in the output directory, or reports that the file system cannot
  hold the name; and it does not come back exactly when no numbered name is free.
Trusted boundary: none
Main exports: PlainName, candidate_injective, save_spec, save_eq_none_iff, save_returns,
  saves_keep_every_file, output_directory_holds_uploads
-/
import ForestLink.Cloud.Save
import ForestLink.Proofs.SavedUploads

namespace ForestLink.Cloud

open ForestLink.Lib

variable {nameMax : Nat} {dir after : Directory} {call : SaveCall}

/-! ## The bytes of a name -/

theorem foldl_utf8Size (name : List Char) (bytes : Nat) :
    name.foldl (fun bytes c => bytes + c.utf8Size) bytes = bytes + nameBytes name := by
  induction name generalizing bytes with
  | nil => rfl
  | cons c rest inductionHypothesis =>
      rw [nameBytes, List.foldl_cons, List.foldl_cons, inductionHypothesis, inductionHypothesis]
      omega

theorem nameBytes_append (front back : List Char) :
    nameBytes (front ++ back) = nameBytes front + nameBytes back := by
  rw [nameBytes, List.foldl_append, foldl_utf8Size]
  rfl

theorem nameBytes_cons (c : Char) (rest : List Char) :
    nameBytes (c :: rest) = c.utf8Size + nameBytes rest := by
  rw [nameBytes, List.foldl_cons, foldl_utf8Size, Nat.zero_add]

theorem utf8Size_of_isDigit {c : Char} (digit : c.isDigit = true) : c.utf8Size = 1 := by
  unfold Char.isDigit at digit
  rw [Bool.and_eq_true, decide_eq_true_iff, decide_eq_true_iff] at digit
  have low : c.val.toNat ≤ 57 := digit.2
  unfold Char.utf8Size
  rw [if_pos]
  change c.val.toNat ≤ 127
  omega

theorem isDigit_of_mem_toDigits {i : Nat} {c : Char} (member : c ∈ Nat.toDigits 10 i) :
    c.isDigit = true := Nat.isDigit_of_mem_toDigits (by decide) (by decide) member

theorem nameBytes_digits {digits : List Char} (all : ∀ c ∈ digits, c.isDigit = true) :
    nameBytes digits = digits.length := by
  induction digits with
  | nil => rfl
  | cons c rest inductionHypothesis =>
      rw [nameBytes_cons, utf8Size_of_isDigit (all c List.mem_cons_self),
        inductionHypothesis fun other member => all other (List.mem_cons_of_mem c member),
        List.length_cons, Nat.add_comm]

theorem length_toDigits_mono {i k : Nat} (le : i ≤ k) :
    (Nat.toDigits 10 i).length ≤ (Nat.toDigits 10 k).length := by
  have positive : 0 < (Nat.toDigits 10 k).length := Nat.length_toDigits_pos
  have below := (Nat.length_toDigits_le_iff (by decide) positive).mp (Nat.le_refl _)
  exact (Nat.length_toDigits_le_iff (by decide) positive).mpr (Nat.lt_of_le_of_lt le below)

theorem allows_iff {name : List Char} :
    allows nameMax name = true ↔ nameBytes name ≤ nameMax ∧ Char.ofNat 0 ∉ name := by
  unfold allows
  rw [Bool.and_eq_true, decide_eq_true_iff, Bool.not_eq_true', ← Bool.not_eq_true,
    List.contains_iff_mem]

/-! ## The numbered names -/

/-- The extension is the end of a name. -/
theorem filepathExt_suffix (name : List Char) : filepathExt name <:+ name := by
  unfold filepathExt
  dsimp only
  split
  · rename_i shorter
    have split := List.takeWhile_append_dropWhile (p := (· != '.')) (l := name.reverse)
    cases behind : name.reverse.dropWhile (· != '.') with
    | nil =>
        rw [behind, List.append_nil] at split
        rw [split, List.length_reverse] at shorter
        exact absurd shorter (Nat.lt_irrefl _)
    | cons dot rest =>
        have isDot : dot = '.' := by
          have stops := List.head?_dropWhile_not (· != '.') name.reverse
          rw [behind] at stops
          simpa using stops
        refine ⟨rest.reverse, ?_⟩
        rw [behind, isDot] at split
        have turned := congrArg List.reverse split
        rw [List.reverse_append, List.reverse_cons, List.append_assoc, List.reverse_reverse]
          at turned
        exact turned
  · exact List.nil_suffix

theorem trimSuffix_append {text suffix : List Char} (ends : suffix <:+ text) :
    trimSuffix text suffix ++ suffix = text := by
  obtain ⟨front, rfl⟩ := ends
  have is : suffix.isSuffixOf (front ++ suffix) = true :=
    List.isSuffixOf_iff_suffix.mpr (List.suffix_append _ _)
  unfold trimSuffix
  rw [if_pos is, List.length_append, Nat.add_sub_cancel, List.take_left]

theorem nameBytes_candidate (baseName : List Char) (i : Nat) :
    nameBytes (candidate baseName i) =
      nameBytes (trimSuffix baseName (filepathExt baseName)) + 1 +
        (Nat.toDigits 10 i).length + nameBytes (filepathExt baseName) := by
  have underscore : ('_').utf8Size = 1 := by decide
  unfold candidate
  dsimp only
  rw [nameBytes_append, nameBytes_cons, nameBytes_append, underscore,
    nameBytes_digits fun c => isDigit_of_mem_toDigits]
  omega

/-- Different numbers give different names. -/
theorem candidate_injective (baseName : List Char) : (candidate baseName).Injective := by
  intro i k same
  have tails := List.append_cancel_left same
  have digits : Nat.toDigits 10 i = Nat.toDigits 10 k :=
    List.append_cancel_right (List.tail_eq_of_cons_eq tails)
  have values := congrArg (fun digits => Nat.ofDigitChars 10 digits 0) digits
  simpa only [Nat.ofDigitChars_ten_toDigits] using values

theorem zero_notMem_digits (i : Nat) : Char.ofNat 0 ∉ Nat.toDigits 10 i := by
  intro member
  have digit := isDigit_of_mem_toDigits member
  revert digit
  decide

/-- A name with a smaller number is no longer, and has no zero byte of its own. -/
theorem allows_candidate_mono {baseName : List Char} {i k : Nat} (le : i ≤ k)
    (allowed : allows nameMax (candidate baseName k) = true) :
    allows nameMax (candidate baseName i) = true := by
  have shorter := length_toDigits_mono le
  rw [allows_iff, nameBytes_candidate] at allowed ⊢
  refine ⟨by omega, ?_⟩
  have zero := allowed.2
  unfold candidate at zero ⊢
  simp only [List.mem_append, List.mem_cons, not_or] at zero ⊢
  exact ⟨zero.1, zero.2.1, zero_notMem_digits i, zero.2.2.2⟩

/-! ## What `stat` and the write say -/

/-- A name is refused, or it is one of the directory's, or it is not. -/
theorem stat_cases (nameMax : Nat) (dir : Directory) (name : List Char) :
    (stat nameMax dir name = .failed ∧ allows nameMax name = false) ∨
      (stat nameMax dir name = .found ∧ allows nameMax name = true ∧ name ∈ dir.map Prod.fst) ∨
      (stat nameMax dir name = .notExist ∧ allows nameMax name = true ∧
        name ∉ dir.map Prod.fst) := by
  have taken : (dir.any fun file => file.1 == name) = true ↔ name ∈ dir.map Prod.fst := by
    simp only [List.any_eq_true, beq_iff_eq, List.mem_map]
  unfold stat
  cases allowed : allows nameMax name with
  | false => exact .inl ⟨rfl, rfl⟩
  | true =>
      rw [Bool.not_true, if_neg Bool.false_ne_true]
      split
      · rename_i isTaken
        exact .inr (.inl ⟨rfl, rfl, taken.mp isTaken⟩)
      · rename_i isUntaken
        rw [taken] at isUntaken
        exact .inr (.inr ⟨rfl, rfl, isUntaken⟩)

theorem stat_eq_notExist_iff {name : List Char} :
    stat nameMax dir name = .notExist ↔
      allows nameMax name = true ∧ name ∉ dir.map Prod.fst := by
  rcases stat_cases nameMax dir name with ⟨looked, allowed⟩ | ⟨looked, _, taken⟩ |
    ⟨looked, allowed, untaken⟩
  · simp [looked, allowed]
  · simp [looked, taken]
  · exact iff_of_true looked ⟨allowed, untaken⟩

theorem stat_eq_found_iff {name : List Char} :
    stat nameMax dir name = .found ↔
      allows nameMax name = true ∧ name ∈ dir.map Prod.fst := by
  rcases stat_cases nameMax dir name with ⟨looked, allowed⟩ | ⟨looked, allowed, taken⟩ |
    ⟨looked, _, untaken⟩
  · simp [looked, allowed]
  · exact iff_of_true looked ⟨allowed, taken⟩
  · simp [looked, untaken]

theorem isFree_iff {baseName : List Char} {i : Nat} :
    isFree nameMax dir baseName i = true ↔
      allows nameMax (candidate baseName i) = true ∧
        candidate baseName i ∉ dir.map Prod.fst := by
  unfold isFree
  rw [beq_iff_eq, stat_eq_notExist_iff]

/-- A new name is added behind the files that are there. -/
theorem writeFile_new {name : List Char} {content : List UInt8}
    (allowed : allows nameMax name = true) (untaken : name ∉ dir.map Prod.fst) :
    writeFile nameMax dir name content = (dir ++ [(name, content)], some name) := by
  have all : dir.filter (fun file => file.1 != name) = dir := by
    apply List.filter_eq_self.mpr
    intro file member
    rw [bne_iff_ne]
    rintro rfl
    exact untaken (List.mem_map_of_mem member)
  unfold writeFile
  rw [if_pos allowed, all]

/-! ## One call -/

/-- A call that comes back adds a file under a fresh name, unless its own name does not fit. -/
theorem save_spec {name : Option (List Char)} (ran : save nameMax dir call = some (after, name)) :
    (name = none ∧ after = dir ∧ allows nameMax call.baseName = false) ∨
      ∃ fresh, name = some fresh ∧ after = dir ++ [(fresh, call.content)] ∧
        allows nameMax call.baseName = true ∧ fresh ∉ dir.map Prod.fst ∧
        (fresh = call.baseName ∨ ∃ i, fresh = candidate call.baseName i) := by
  unfold save at ran
  cases looked : stat nameMax dir call.baseName with
  | found =>
      rw [looked] at ran
      obtain ⟨allowed, _⟩ := stat_eq_found_iff.mp looked
      obtain ⟨i, found, wrote⟩ := Option.map_eq_some_iff.mp ran
      obtain ⟨_, _, free, _⟩ := firstFree_eq_some_iff.mp found
      obtain ⟨fits, untaken⟩ := isFree_iff.mp free
      rw [writeFile_new fits untaken, Prod.mk.injEq] at wrote
      exact .inr ⟨_, wrote.2.symm, wrote.1.symm, allowed, untaken, .inr ⟨i, rfl⟩⟩
  | notExist =>
      rw [looked] at ran
      obtain ⟨allowed, untaken⟩ := stat_eq_notExist_iff.mp looked
      have wrote := Option.some.inj ran
      rw [writeFile_new allowed untaken, Prod.mk.injEq] at wrote
      exact .inr ⟨_, wrote.2.symm, wrote.1.symm, allowed, untaken, .inl rfl⟩
  | failed =>
      rw [looked] at ran
      have refused : allows nameMax call.baseName = false := by
        rcases stat_cases nameMax dir call.baseName with ⟨_, refused⟩ | ⟨found, _⟩ | ⟨free, _⟩
        · exact refused
        · cases looked.symm.trans found
        · cases looked.symm.trans free
      unfold writeFile at ran
      rw [refused, if_neg Bool.false_ne_true] at ran
      cases ran
      exact .inl ⟨rfl, rfl, refused⟩

/-- The loop over the numbers goes on for ever exactly when the base name is taken and no
numbered name is free, however far it looks. -/
theorem save_eq_none_iff :
    save nameMax dir call = none ↔
      stat nameMax dir call.baseName = .found ∧
        ∀ i, 1 ≤ i → isFree nameMax dir call.baseName i = false := by
  unfold save
  cases looked : stat nameMax dir call.baseName with
  | notExist => simp
  | failed => simp
  | found =>
      rw [Option.map_eq_none_iff, firstFree_eq_none_iff]
      constructor
      · intro all
        refine ⟨rfl, fun i atLeast => ?_⟩
        by_contra free
        rw [Bool.not_eq_false] at free
        obtain ⟨fits, _⟩ := isFree_iff.mp free
        -- One of the first names is not taken, and it is no longer than the free one.
        obtain ⟨k, least, below, untaken⟩ :=
          exists_untaken (candidate_injective call.baseName) (dir.map Prod.fst) 1
        rw [List.length_map] at below
        have taken := all k least below
        rcases Nat.le_total k i with le | le
        · rw [isFree_iff.mpr ⟨allows_candidate_mono le fits, untaken⟩] at taken
          cases taken
        · rw [all i atLeast (by omega)] at free
          cases free
      · exact fun all i atLeast _ => all.2 i atLeast

/-- With room for the number of one file more behind the base name `Save` comes back. -/
theorem save_returns
    (room : nameBytes call.baseName + 1 + (Nat.toDigits 10 (dir.length + 1)).length ≤ nameMax) :
    save nameMax dir call ≠ none := by
  intro hangs
  obtain ⟨found, all⟩ := save_eq_none_iff.mp hangs
  obtain ⟨allowed, _⟩ := stat_eq_found_iff.mp found
  obtain ⟨k, least, below, untaken⟩ :=
    exists_untaken (candidate_injective call.baseName) (dir.map Prod.fst) 1
  rw [List.length_map] at below
  have shorter := length_toDigits_mono (i := k) (k := dir.length + 1) (by omega)
  have whole := trimSuffix_append (filepathExt_suffix call.baseName)
  have bytes := congrArg nameBytes whole
  rw [nameBytes_append] at bytes
  have fits : allows nameMax (candidate call.baseName k) = true := by
    have zero := (allows_iff.mp allowed).2
    rw [← whole, List.mem_append, not_or] at zero
    rw [allows_iff, nameBytes_candidate]
    refine ⟨by omega, ?_⟩
    unfold candidate
    simp only [List.mem_append, List.mem_cons, not_or]
    exact ⟨zero.1, by decide, zero_notMem_digits k, zero.2⟩
  have taken := all k least
  rw [isFree_iff.mpr ⟨fits, untaken⟩] at taken
  cases taken

/-- `Save` looks for a name for ever exactly when its base name is taken and every number makes a
name that is taken or too long.  With room for the number of one file more than the directory has
it always comes back. -/
theorem save_hangs_iff (nameMax : Nat) (dir : Directory) (call : SaveCall) :
    (save nameMax dir call = none ↔
      allows nameMax call.baseName = true ∧ call.baseName ∈ dir.map Prod.fst ∧
        ∀ i, 1 ≤ i → allows nameMax (candidate call.baseName i) = true →
          candidate call.baseName i ∈ dir.map Prod.fst) ∧
    (nameBytes call.baseName + 1 + (Nat.toDigits 10 (dir.length + 1)).length ≤ nameMax →
      save nameMax dir call ≠ none) := by
  refine ⟨?_, save_returns⟩
  rw [save_eq_none_iff, stat_eq_found_iff, and_assoc]
  have taken : ∀ i, isFree nameMax dir call.baseName i = false ↔
      (allows nameMax (candidate call.baseName i) = true →
        candidate call.baseName i ∈ dir.map Prod.fst) := by
    intro i
    rw [← Bool.not_eq_true, isFree_iff, not_and, not_not]
  simp only [taken]

/-! ## Names inside the directory -/

/-- One element of a path, which `filepath.Join` puts directly into the directory. -/
structure PlainName (name : List Char) : Prop where
  noSlash : '/' ∉ name
  notEmpty : name ≠ []
  notHere : name ≠ ['.']
  notUp : name ≠ ['.', '.']

/-- A name with an underscore is no way to another directory. -/
theorem plainName_of_underscore {name : List Char} (noSlash : '/' ∉ name)
    (underscore : '_' ∈ name) : PlainName name where
  noSlash := noSlash
  notEmpty := by
    rintro rfl
    cases underscore
  notHere := by
    rintro rfl
    revert underscore
    decide
  notUp := by
    rintro rfl
    revert underscore
    decide

theorem filepathBase_noSlash (path : List Char) :
    filepathBase path = ['/'] ∨ '/' ∉ filepathBase path := by
  unfold filepathBase
  split
  · exact .inr (by decide)
  · dsimp only
    split
    · exact .inl rfl
    · refine .inr fun member => ?_
      rw [List.mem_reverse] at member
      have kept := List.all_eq_true.mp List.all_takeWhile _ member
      revert kept
      decide

theorem safeSender_noSlash (call : SaveCall) : '/' ∉ call.safeSender := by
  unfold SaveCall.safeSender
  dsimp only
  split
  · decide
  · rename_i usable
    rw [not_or, not_or] at usable
    exact (filepathBase_noSlash _).resolve_left usable.2.2

theorem safe_noSlash (noSlash : '/' ∉ call.sessionId.toList) : '/' ∉ call.safe := by
  unfold SaveCall.safe
  dsimp only
  split
  · rw [List.mem_append, List.mem_append, not_or, not_or]
    exact ⟨⟨by decide, noSlash⟩, by decide⟩
  · rename_i usable
    rw [not_or] at usable
    exact (filepathBase_noSlash _).resolve_left usable.2

/-- Whatever the sender and the meta message call themselves, the name stays inside. -/
theorem plainName_baseName (noSlash : '/' ∉ call.sessionId.toList) : PlainName call.baseName := by
  apply plainName_of_underscore
  · unfold SaveCall.baseName
    rw [List.mem_append, List.mem_cons, not_or, not_or]
    exact ⟨safeSender_noSlash call, by decide, safe_noSlash noSlash⟩
  · exact List.mem_append_right _ List.mem_cons_self

theorem plainName_candidate {baseName : List Char} (plain : PlainName baseName) (i : Nat) :
    PlainName (candidate baseName i) := by
  have noSlash := plain.noSlash
  rw [← trimSuffix_append (filepathExt_suffix baseName), List.mem_append, not_or] at noSlash
  apply plainName_of_underscore
  · unfold candidate
    simp only [List.mem_append, List.mem_cons, not_or]
    refine ⟨noSlash.1, by decide, fun member => ?_, noSlash.2⟩
    have digit := isDigit_of_mem_toDigits member
    revert digit
    decide
  · exact List.mem_append_right _ List.mem_cons_self

/-! ## All calls -/

/-- The calls whose name the file system can hold. -/
def holdable (nameMax : Nat) (calls : List SaveCall) : List SaveCall :=
  calls.filter fun call => allows nameMax call.baseName

/-- What the calls add to the directory. -/
theorem saveAll_spec {calls : List SaveCall} (distinct : (dir.map Prod.fst).Nodup)
    (noSlash : ∀ call ∈ calls, '/' ∉ call.sessionId.toList)
    (ran : saveAll nameMax dir calls = some after) :
    ∃ news, after = dir ++ news ∧ (after.map Prod.fst).Nodup ∧
      news.map Prod.snd = (holdable nameMax calls).map SaveCall.content ∧
      ∀ file ∈ news, PlainName file.1 := by
  induction calls generalizing dir with
  | nil =>
      cases ran
      exact ⟨[], (List.append_nil _).symm, distinct, rfl,
        fun _ none => absurd none List.not_mem_nil⟩
  | cons call rest inductionHypothesis =>
      obtain ⟨⟨next, name⟩, saved, savedRest⟩ := Option.bind_eq_some_iff.mp ran
      have restNoSlash : ∀ call ∈ rest, '/' ∉ call.sessionId.toList :=
        fun other member => noSlash other (List.mem_cons_of_mem call member)
      rcases save_spec saved with
        ⟨_, rfl, refused⟩ | ⟨fresh, _, rfl, allowed, untaken, named⟩
      · obtain ⟨news, afterEq, nodup, contents, plain⟩ :=
          inductionHypothesis distinct restNoSlash savedRest
        refine ⟨news, afterEq, nodup, ?_, plain⟩
        unfold holdable at contents ⊢
        rw [contents, List.filter_cons, refused]
        rfl
      · have stillDistinct : ((dir ++ [(fresh, call.content)]).map Prod.fst).Nodup := by
          rw [List.map_append]
          refine List.Nodup.append distinct (List.nodup_singleton _) ?_
          intro other there here
          rw [List.map_singleton, List.mem_singleton] at here
          rw [here] at there
          exact untaken there
        obtain ⟨news, afterEq, nodup, contents, plain⟩ :=
          inductionHypothesis stillDistinct restNoSlash savedRest
        refine ⟨(fresh, call.content) :: news, ?_, nodup, ?_, ?_⟩
        · rw [afterEq, List.append_assoc]
          rfl
        · unfold holdable at contents ⊢
          rw [List.map_cons, contents, List.filter_cons, if_pos allowed, List.map_cons]
        · intro file member
          rcases List.mem_cons.mp member with rfl | later
          · have base := plainName_baseName (noSlash call List.mem_cons_self)
            rcases named with rfl | ⟨i, rfl⟩
            · exact base
            · exact plainName_candidate base i
          · exact plain file later

/-- Whatever is saved, and whatever was there before: no file of the directory is overwritten or
lost, every call whose name the file system can hold adds exactly one file with its content, in
order, and the names of the new files are different from all others and directly inside. -/
theorem saves_keep_every_file (nameMax : Nat) (dir after : Directory) (calls : List SaveCall)
    (distinct : (dir.map Prod.fst).Nodup)
    (noSlash : ∀ call ∈ calls, '/' ∉ call.sessionId.toList)
    (ran : saveAll nameMax dir calls = some after) :
    ∃ news, after = dir ++ news ∧ (after.map Prod.fst).Nodup ∧
      news.map Prod.snd =
        (calls.filter fun call => allows nameMax call.baseName).map SaveCall.content ∧
      ∀ file ∈ news, PlainName file.1 :=
  saveAll_spec distinct noSlash ran

/-- Two nodes that upload a file of the same name, one of them twice. -/
theorem saves_keep_every_file_same_name : ∃ after news,
    saveAll 255 [("1a2b_log.txt".toList, [0])]
      [⟨"7", "1a2b", "../log.txt", [1]⟩, ⟨"8", "3c4d", "log.txt", [2]⟩,
        ⟨"9", "1a2b", "log.txt", [3]⟩] = some after ∧
    after = [("1a2b_log.txt".toList, [0])] ++ news ∧ (after.map Prod.fst).Nodup ∧
    news.map Prod.snd = [[1], [2], [3]] := by
  have computed : (saveAll 255 [("1a2b_log.txt".toList, [0])]
      [⟨"7", "1a2b", "../log.txt", [1]⟩, ⟨"8", "3c4d", "log.txt", [2]⟩,
        ⟨"9", "1a2b", "log.txt", [3]⟩]).isSome = true := by
    decide +kernel
  obtain ⟨after, ran⟩ := Option.isSome_iff_exists.mp computed
  obtain ⟨news, afterEq, nodup, contents, _⟩ := saves_keep_every_file 255 _ after _
    (by decide +kernel) (by decide +kernel) ran
  refine ⟨after, news, ran, afterEq, nodup, contents.trans ?_⟩
  decide +kernel

/-! ## The directory of the engine -/

theorem mem_savesOf {trace : List EngineEvent} {call : SaveCall} (member : call ∈ savesOf trace) :
    ∃ s now, .save call.senderId call.filename call.content ∈ trace ∧
      .saved s now ∈ trace ∧ call.sessionId = s.sessionId := by
  induction trace using savesOf.induct with
  | case1 node name content s now rest inductionHypothesis =>
      rw [savesOf] at member
      rcases List.mem_cons.mp member with rfl | later
      · exact ⟨s, now, List.mem_cons_self, List.mem_cons_of_mem _ List.mem_cons_self, rfl⟩
      · obtain ⟨s', now', saved, noted, same⟩ := inductionHypothesis later
        exact ⟨s', now', List.mem_cons_of_mem _ saved, List.mem_cons_of_mem _ noted, same⟩
  | case2 note rest other inductionHypothesis =>
      rw [savesOf] at member
      · obtain ⟨s', now', saved, noted, same⟩ := inductionHypothesis member
        exact ⟨s', now', List.mem_cons_of_mem _ saved, List.mem_cons_of_mem _ noted, same⟩
      · exact other
  | case3 => cases member

/-- Truthful messages to the engine, and its files put into a directory: what was there before is
there as before, and every other file of the directory is the upload of a transfer, directly in
the directory under a name of its own. -/
theorem output_directory_holds_uploads (uploads : String → Option Upload)
    (srWindow srTimeout : Nat) (turns : List (Engine.Event × Int))
    (truthful : ∀ turn ∈ turns, Engine.Truthful uploads turn.1)
    (noSlash : ∀ key u, uploads key = some u → '/' ∉ u.sessionId.toList)
    (nameMax : Nat) (dir : Directory) (distinct : (dir.map Prod.fst).Nodup) :
    ∃ e, (newEngine srWindow srTimeout).run turns = some e ∧
      ∀ after, saveAll nameMax dir (savesOf e.trace) = some after →
        ∃ news, after = dir ++ news ∧ (after.map Prod.fst).Nodup ∧
          ∀ file ∈ news, PlainName file.1 ∧
            ∃ key u, uploads key = some u ∧ file.2 = u.file := by
  obtain ⟨e, ran, serving⟩ :=
    (Engine.serving_newEngine uploads srWindow srTimeout).run turns truthful
  have saves := serving.uploading.saves
  have plainSessions : ∀ call ∈ savesOf e.trace, '/' ∉ call.sessionId.toList := by
    intro call member
    obtain ⟨s, now, _, saved, same⟩ := mem_savesOf member
    obtain ⟨u, isUpload, describes⟩ := saves.sessions s now saved
    have sameId : s.sessionId = u.sessionId := describes.sessionId
    rw [same, sameId]
    exact noSlash s.key u isUpload
  refine ⟨e, ran, fun after saved => ?_⟩
  obtain ⟨news, afterEq, nodup, contents, plain⟩ := saveAll_spec distinct plainSessions saved
  refine ⟨news, afterEq, nodup, fun file member => ⟨plain file member, ?_⟩⟩
  have content : file.2 ∈ (holdable nameMax (savesOf e.trace)).map SaveCall.content :=
    contents ▸ List.mem_map_of_mem member
  obtain ⟨call, isCall, same⟩ := List.mem_map.mp content
  obtain ⟨_, _, isSave, _⟩ := mem_savesOf (List.mem_filter.mp isCall).1
  obtain ⟨s, u, _, isUpload, _, _, isFile⟩ := saves.files _ _ _ isSave
  exact ⟨s.key, u, isUpload, same.symm.trans isFile.symm⟩

/-- The upload of one byte goes beside a file of the same name. -/
theorem output_directory_holds_uploads_beside : ∃ e after news,
    (newEngine 64 5).run [(.file Engine.oneUploadMeta, 1000),
      (.chunk Engine.oneUploadChunk, 1001)] = some e ∧
    saveAll 255 [("1a2b_f".toList, [0])] (savesOf e.trace) = some after ∧
    after = [("1a2b_f".toList, [0])] ++ news ∧ news.length = 1 ∧
    ∀ file ∈ news, PlainName file.1 ∧
      ∃ key u, Engine.oneUpload key = some u ∧ file.2 = u.file := by
  obtain ⟨e, ran, holds⟩ := output_directory_holds_uploads Engine.oneUpload 64 5
    [(.file Engine.oneUploadMeta, 1000), (.chunk Engine.oneUploadChunk, 1001)] (by
      intro turn member
      simp only [List.mem_cons, List.not_mem_nil, or_false] at member
      rcases member with rfl | rfl
      · exact Engine.oneUploadMeta_truthful
      · exact Engine.oneUploadChunk_truthful) (by
      intro key u isUpload
      unfold Engine.oneUpload at isUpload
      split at isUpload
      · cases isUpload
        decide
      · cases isUpload)
    255 [("1a2b_f".toList, [0])] (by decide +kernel)
  have computed : ((newEngine 64 5).run [(.file Engine.oneUploadMeta, 1000),
      (.chunk Engine.oneUploadChunk, 1001)]).any (fun e =>
        (saveAll 255 [("1a2b_f".toList, [0])] (savesOf e.trace)).any fun after =>
          after.length == 2) = true := by
    decide +kernel
  rw [ran, Option.any_some] at computed
  obtain ⟨after, saved, two⟩ := (Option.any_eq_true ..).mp computed
  obtain ⟨news, afterEq, _, files⟩ := holds after saved
  refine ⟨e, after, news, ran, saved, afterEq, ?_, files⟩
  rw [beq_iff_eq, afterEq, List.length_append] at two
  exact Nat.add_left_cancel two

end ForestLink.Cloud
