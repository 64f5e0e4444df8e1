import Mathlib.Data.List.Nodup
import Mathlib.Data.List.Perm.Subperm
import ZxSpectrum.Proofs.CheckedDecoding

/-!
# The blocks of pages

RAM of versions 2 and 3 is three blocks one after the other, one for each page in any order (`PagedOut`). A block is a length word,
the number of a page and what is stored of it (`PageBlock`), raw or compressed (`Stores`); compressed bytes expand in one way only
(`expands_iff`). Exactly such byte strings are read, and what is read is what the blocks say (`readPages_grammar`): nothing is
filled up and nothing is cut off.
-/

namespace ZxSpectrum.Z80

open Bytes

/-! ## Expansion -/

/-- The second byte string is what the first expands to: a run where one begins, and every other byte as it is. A run of no bytes
counts as one. -/
inductive Expands : List UInt8 → List UInt8 → Prop where
  | nil : Expands [] []
  | run {count value : UInt8} {stream bytes : List UInt8} (rest : Expands stream bytes) :
      Expands (0xED :: 0xED :: count :: value :: stream) (List.replicate count.toNat value ++ bytes)
  | literal {byte : UInt8} {stream bytes : List UInt8}
      (alone : ∀ count value more, byte = 0xED → stream = 0xED :: count :: value :: more → False)
      (rest : Expands stream bytes) : Expands (byte :: stream) (byte :: bytes)

section Expansion

variable {stream bytes : List UInt8}

/-- Expanding puts the bytes behind what has been expanded before. -/
theorem Expands.expandOnto (expands : Expands stream bytes) :
    ∀ expanded, decompressOnto expanded stream = bytes.reverse ++ expanded := by
  induction expands with
  | nil => exact fun expanded => rfl
  | run rest ih =>
    intro expanded
    rw [decompressOnto, ih, List.reverse_append, List.reverse_replicate, List.append_assoc]
  | literal alone rest ih =>
    intro expanded
    rw [decompressOnto, ih, List.reverse_cons, List.append_assoc]
    · rfl
    · exact alone

/-- Every byte string expands to something. -/
theorem exists_expands (stream : List UInt8) : ∃ bytes, Expands stream bytes := by
  induction hlength : stream.length using Nat.strongRecOn generalizing stream with
  | ind length ih =>
    by_cases hrun : ∃ count value rest, stream = 0xED :: 0xED :: count :: value :: rest
    · obtain ⟨count, value, rest, rfl⟩ := hrun
      simp only [List.length_cons] at hlength
      obtain ⟨bytes, hrest⟩ := ih _ (by omega) rest rfl
      exact ⟨_, hrest.run⟩
    · cases stream with
      | nil => exact ⟨[], .nil⟩
      | cons byte rest =>
        rw [List.length_cons] at hlength
        obtain ⟨bytes, hrest⟩ := ih _ (by omega) rest rfl
        refine ⟨byte :: bytes, hrest.literal ?_⟩
        rintro count value more rfl rfl
        exact hrun ⟨count, value, more, rfl⟩

/-- A byte string expands to its expansion and to nothing else. -/
theorem expands_iff : Expands stream bytes ↔ decompress stream = bytes := by
  have hexpand : ∀ {bytes}, Expands stream bytes → decompress stream = bytes := by
    intro bytes expands
    rw [decompress, expands.expandOnto, List.append_nil, List.reverse_reverse]
  refine ⟨hexpand, ?_⟩
  rintro rfl
  obtain ⟨bytes, expands⟩ := exists_expands stream
  rwa [hexpand expands]

/-- Every compression expands to what was compressed. -/
theorem Compresses.expands (compresses : Compresses stream bytes) : Expands stream bytes :=
  expands_iff.mpr compresses.expand

end Expansion

/-! ## Blocks -/

variable {data : List UInt8}

/-- What is stored of a page under a length word: the page itself under `FFFF`, and under any other as many bytes as that says,
which expand to the page. -/
inductive Stores : UInt16 → List UInt8 → List UInt8 → Prop where
  | raw {page : List UInt8} : Stores 0xFFFF page page
  | compressed {length : UInt16} {stored page : List UInt8} (short : length ≠ 0xFFFF) (counted : stored.length = length.toNat)
      (expands : Expands stored page) : Stores length stored page

/-- A block for a page, with the contents of the page. -/
structure PageBlock where
  length : UInt16
  slot : PageSlot
  stored : List UInt8
  contents : List UInt8
  whole : contents.length = 16384
  stores : Stores length stored contents

/-- The block in a file. -/
def PageBlock.bytes (block : PageBlock) : List UInt8 :=
  Word.low block.length :: Word.high block.length :: block.slot.number :: block.stored

/-- The page that a block brings. -/
def PageBlock.page (block : PageBlock) : PageSlot × List UInt8 := (block.slot, block.contents)

theorem number_of_ofNumber? {number : UInt8} {slot : PageSlot} (h : PageSlot.ofNumber? number = some slot) :
    slot.number = number := by
  unfold PageSlot.ofNumber? at h
  split at h
  · cases h
    exact Eq.symm ‹_›
  · split at h
    · cases h
      exact Eq.symm ‹_›
    · split at h
      · cases h
        exact Eq.symm ‹_›
      · cases h

/-- A block is read exactly if so many bytes are there and make up a whole page, and what stands behind them is left. -/
theorem readBlock_eq_ok_iff {length : UInt16} {number : UInt8} {slot : PageSlot} {contents rest : List UInt8} :
    readBlock length number data = .ok (slot, contents, rest) ↔
      ∃ stored, data = stored ++ rest ∧ number = slot.number ∧ contents.length = pageSize ∧ Stores length stored contents := by
  constructor
  · intro h
    rw [readBlock] at h
    obtain ⟨hlong, h⟩ := ok_of_guard h
    cases hslot : PageSlot.ofNumber? number with
    | none =>
      rw [hslot] at h
      cases h
    | some found =>
      rw [hslot] at h
      obtain ⟨hwhole, hblock⟩ := ok_of_check h
      simp only [Prod.mk.injEq] at hblock
      obtain ⟨rfl, hcontents, hrest⟩ := hblock
      rw [hcontents] at hwhole
      refine ⟨data.take (storedLength length), ?_, (number_of_ofNumber? hslot).symm, hwhole, ?_⟩
      · rw [← hrest, List.take_append_drop]
      · by_cases hraw : length = rawLength
        · rw [if_pos hraw] at hcontents
          rw [hcontents, hraw]
          exact .raw
        · rw [if_neg hraw] at hcontents
          refine .compressed hraw ?_ (expands_iff.mpr hcontents)
          have hstored : storedLength length = length.toNat := if_neg hraw
          rw [hstored] at hlong ⊢
          exact List.length_take_of_le (Nat.le_of_not_lt hlong)
  · rintro ⟨stored, rfl, rfl, hwhole, stores⟩
    cases stores with
    | raw => exact readBlock_append slot rest hwhole.symm (if_pos rfl) hwhole
    | compressed short counted expands =>
      have hraw : length ≠ rawLength := short
      refine readBlock_append slot rest ?_ ?_ hwhole
      · rw [storedLength, if_neg hraw, counted]
      · rw [if_neg hraw, expands_iff.mp expands]

/-! ## Blocks one after the other -/

/-- Whole blocks are read, whatever stands behind them. -/
theorem readBlocks_flatMap_append (blocks : List PageBlock) (more : List UInt8) :
    readBlocks (blocks.flatMap PageBlock.bytes ++ more) = (readBlocks more).map (blocks.map PageBlock.page ++ ·) := by
  induction blocks with
  | nil => cases hmore : readBlocks more <;> simp [hmore, Except.map]
  | cons block rest ih =>
    have hread : readBlock (Word.ofBytes (Word.high block.length) (Word.low block.length)) block.slot.number
        (block.stored ++ (rest.flatMap PageBlock.bytes ++ more)) =
          .ok (block.slot, block.contents, rest.flatMap PageBlock.bytes ++ more) := by
      rw [Word.ofBytes_high_low]
      exact readBlock_eq_ok_iff.mpr ⟨block.stored, rfl, rfl, block.whole, block.stores⟩
    have hbytes : (block :: rest).flatMap PageBlock.bytes ++ more = Word.low block.length :: Word.high block.length ::
        block.slot.number :: (block.stored ++ (rest.flatMap PageBlock.bytes ++ more)) := by
      rw [List.flatMap_cons, PageBlock.bytes, List.append_assoc]
      rfl
    rw [hbytes, readBlocks_three, hread]
    change (readBlocks (rest.flatMap PageBlock.bytes ++ more)).map _ = _
    rw [ih]
    cases readBlocks more <;> rfl

theorem readBlocks_nil : readBlocks [] = .ok [] := by
  rw [readBlocks]

/-- A byte string is read to its end exactly if it is blocks and nothing else. -/
theorem readBlocks_eq_ok_iff {pages : List (PageSlot × List UInt8)} : readBlocks data = .ok pages ↔
    ∃ blocks : List PageBlock, data = blocks.flatMap PageBlock.bytes ∧ pages = blocks.map PageBlock.page := by
  constructor
  · intro h
    induction hlength : data.length using Nat.strongRecOn generalizing data pages with
    | ind length ih =>
      match data with
      | low :: high :: number :: data =>
        rw [readBlocks_three] at h
        obtain ⟨⟨slot, contents, rest⟩, hfirst, h⟩ := ok_of_bind h
        obtain ⟨more, hmore, rfl⟩ := ok_of_map h
        have hless := length_readBlock_le hfirst
        obtain ⟨stored, rfl, rfl, hwhole, stores⟩ := readBlock_eq_ok_iff.mp hfirst
        simp only [List.length_cons] at hlength
        obtain ⟨blocks, rfl, rfl⟩ := ih _ (by omega) hmore rfl
        refine ⟨⟨_, slot, stored, contents, hwhole, stores⟩ :: blocks, ?_, rfl⟩
        rw [List.flatMap_cons, PageBlock.bytes, Word.low_ofBytes, Word.high_ofBytes]
        rfl
      | [] =>
        rw [readBlocks_nil] at h
        cases h
        exact ⟨[], rfl, rfl⟩
      | [_] | [_, _] =>
        rw [readBlocks] at h
        · cases h
        all_goals simp
  · rintro ⟨blocks, rfl, rfl⟩
    have hread := readBlocks_flatMap_append blocks []
    rw [List.append_nil, readBlocks_nil] at hread
    rw [hread, Except.map, List.append_nil]

/-! ## Three pages -/

/-- Three blocks one after the other, one for each page in any order, with the pages of RAM in theirs. -/
def PagedOut (data ram : List UInt8) : Prop :=
  ∃ low middle high : PageBlock, low.slot = .low ∧ middle.slot = .middle ∧ high.slot = .high ∧
    ram = low.contents ++ middle.contents ++ high.contents ∧
      ∃ blocks : List PageBlock, blocks.Perm [low, middle, high] ∧ data = blocks.flatMap PageBlock.bytes

/-- A page that is found was brought by a block. -/
theorem exists_of_pageOf? {blocks : List PageBlock} {slot : PageSlot} {contents : List UInt8}
    (h : pageOf? (blocks.map PageBlock.page) slot = some contents) :
    ∃ block ∈ blocks, block.slot = slot ∧ block.contents = contents := by
  rw [pageOf?, Option.map_eq_some_iff] at h
  obtain ⟨page, hfound, rfl⟩ := h
  obtain ⟨block, hblock, rfl⟩ := List.mem_map.mp (List.mem_reverse.mp (List.mem_of_find?_eq_some hfound))
  have hslot := List.find?_some hfound
  exact ⟨block, hblock, of_decide_eq_true hslot, rfl⟩

/-- The page of a block is found, if no other block is for the same page. -/
theorem pageOf?_of_mem {blocks : List PageBlock} (hslots : (blocks.map (·.slot)).Nodup) {block : PageBlock}
    (h : block ∈ blocks) : pageOf? (blocks.map PageBlock.page) block.slot = some block.contents := by
  cases hfound : pageOf? (blocks.map PageBlock.page) block.slot with
  | none =>
    rw [pageOf?, Option.map_eq_none_iff, List.find?_eq_none] at hfound
    have hpage : block.page ∈ (blocks.map PageBlock.page).reverse := List.mem_reverse.mpr (List.mem_map_of_mem h)
    exact absurd (decide_eq_true rfl) (hfound _ hpage)
  | some contents =>
    obtain ⟨other, hother, hslot, rfl⟩ := exists_of_pageOf? hfound
    rw [List.inj_on_of_nodup_map hslots hother h hslot]

/-- Whole blocks make up RAM if there is one for each page, and else they are too few, too many or not the right ones. -/
theorem readPages_flatMap (blocks : List PageBlock) : readPages (blocks.flatMap PageBlock.bytes) =
    if blocks.length ≠ 3 then .error (.pageCount blocks.length)
    else
      match pageOf? (blocks.map PageBlock.page) .low, pageOf? (blocks.map PageBlock.page) .middle,
        pageOf? (blocks.map PageBlock.page) .high with
      | some low, some middle, some high => .ok (low ++ middle ++ high)
      | _, _, _ => .error (.pageCount 3) := by
  rw [readPages, readBlocks_eq_ok_iff.mpr ⟨blocks, rfl, rfl⟩, ← blocks.length_map]
  rfl

/-- One block for each page, in any order. -/
theorem readPages_of_perm {blocks : List PageBlock} {low middle high : PageBlock} (hlow : low.slot = .low)
    (hmiddle : middle.slot = .middle) (hhigh : high.slot = .high) (hperm : blocks.Perm [low, middle, high]) :
    readPages (blocks.flatMap PageBlock.bytes) = .ok (low.contents ++ middle.contents ++ high.contents) := by
  have hslots : (blocks.map (·.slot)).Nodup := by
    rw [(hperm.map _).nodup_iff, List.map_cons, List.map_cons, List.map_singleton, hlow, hmiddle, hhigh]
    decide
  have hpage : ∀ block ∈ [low, middle, high], pageOf? (blocks.map PageBlock.page) block.slot = some block.contents :=
    fun block h => pageOf?_of_mem hslots (hperm.mem_iff.mpr h)
  have hfirst := hpage low (by simp)
  have hsecond := hpage middle (by simp)
  have hthird := hpage high (by simp)
  rw [hlow] at hfirst
  rw [hmiddle] at hsecond
  rw [hhigh] at hthird
  rw [readPages_flatMap, hperm.length_eq, if_neg (by simp), hfirst, hsecond, hthird]

/-- Three blocks for different pages among three are all of them. -/
theorem perm_of_mem {blocks : List PageBlock} (hcount : blocks.length = 3) {low middle high : PageBlock}
    (hlow : low.slot = .low) (hmiddle : middle.slot = .middle) (hhigh : high.slot = .high)
    (hmem : ∀ block ∈ [low, middle, high], block ∈ blocks) : blocks.Perm [low, middle, high] := by
  have hnodup : [low, middle, high].Nodup := by
    refine List.Nodup.of_map (·.slot) ?_
    rw [List.map_cons, List.map_cons, List.map_singleton, hlow, hmiddle, hhigh]
    decide
  exact ((hnodup.subperm hmem).perm_of_length_le (Nat.le_of_eq hcount)).symm

/-- Blocks from which RAM is read are one for each page. -/
theorem perm_of_readPages {blocks : List PageBlock} {ram : List UInt8}
    (h : readPages (blocks.flatMap PageBlock.bytes) = .ok ram) :
    ∃ low middle high : PageBlock, low.slot = .low ∧ middle.slot = .middle ∧ high.slot = .high ∧
      ram = low.contents ++ middle.contents ++ high.contents ∧ blocks.Perm [low, middle, high] := by
  rw [readPages_flatMap] at h
  obtain ⟨hcount, h⟩ := ok_of_guard h
  split at h
  · rename_i hfirst hsecond hthird
    obtain ⟨low, hlowMem, hlow, rfl⟩ := exists_of_pageOf? hfirst
    obtain ⟨middle, hmiddleMem, hmiddle, rfl⟩ := exists_of_pageOf? hsecond
    obtain ⟨high, hhighMem, hhigh, rfl⟩ := exists_of_pageOf? hthird
    cases h
    refine ⟨low, middle, high, hlow, hmiddle, hhigh, rfl, ?_⟩
    exact perm_of_mem (Decidable.not_not.mp hcount) hlow hmiddle hhigh (by simp [hlowMem, hmiddleMem, hhighMem])
  · cases h

/-- RAM is read from nothing but blocks. -/
theorem readPages_eq_ok_iff {ram : List UInt8} : readPages data = .ok ram ↔ PagedOut data ram := by
  constructor
  · intro h
    obtain ⟨pages, hpages, -⟩ := ok_of_bind h
    obtain ⟨blocks, rfl, -⟩ := readBlocks_eq_ok_iff.mp hpages
    obtain ⟨low, middle, high, hlow, hmiddle, hhigh, hram, hperm⟩ := perm_of_readPages h
    exact ⟨low, middle, high, hlow, hmiddle, hhigh, hram, blocks, hperm, rfl⟩
  · rintro ⟨low, middle, high, hlow, hmiddle, hhigh, rfl, blocks, hperm, rfl⟩
    exact readPages_of_perm hlow hmiddle hhigh hperm

/-- Blocks that are not one for each page are refused. -/
theorem readPages_of_not_perm {blocks : List PageBlock} (h : ¬ (blocks.map (·.slot)).Perm [.low, .middle, .high]) :
    readPages (blocks.flatMap PageBlock.bytes) = .error (.pageCount blocks.length) := by
  cases hread : readPages (blocks.flatMap PageBlock.bytes) with
  | ok ram =>
    obtain ⟨low, middle, high, hlow, hmiddle, hhigh, -, hperm⟩ := perm_of_readPages hread
    have hslots := hperm.map (·.slot)
    rw [List.map_cons, List.map_cons, List.map_singleton, hlow, hmiddle, hhigh] at hslots
    exact absurd hslots h
  | error error =>
    rw [readPages_flatMap] at hread
    split at hread
    · exact hread.symm
    · rename_i hcount
      rw [Decidable.not_not.mp hcount]
      split at hread
      · cases hread
      · exact hread.symm

/-- The order of the blocks does not matter. -/
theorem readPages_perm {blocks other : List PageBlock} (h : blocks.Perm other) :
    readPages (blocks.flatMap PageBlock.bytes) = readPages (other.flatMap PageBlock.bytes) := by
  by_cases hslots : (blocks.map (·.slot)).Perm [.low, .middle, .high]
  · have hblock : ∀ slot : PageSlot, ∃ block ∈ blocks, block.slot = slot := by
      intro slot
      refine List.mem_map.mp (hslots.mem_iff.mpr ?_)
      cases slot <;> simp
    obtain ⟨low, hlowMem, hlow⟩ := hblock .low
    obtain ⟨middle, hmiddleMem, hmiddle⟩ := hblock .middle
    obtain ⟨high, hhighMem, hhigh⟩ := hblock .high
    have hcount : blocks.length = 3 := by
      rw [← blocks.length_map (·.slot)]
      exact hslots.length_eq
    have hperm := perm_of_mem hcount hlow hmiddle hhigh (by simp [hlowMem, hmiddleMem, hhighMem])
    rw [readPages_of_perm hlow hmiddle hhigh hperm, readPages_of_perm hlow hmiddle hhigh (h.symm.trans hperm)]
  · have hother : ¬ (other.map (·.slot)).Perm [.low, .middle, .high] := fun hperm => hslots ((h.map _).trans hperm)
    rw [readPages_of_not_perm hslots, readPages_of_not_perm hother, h.length_eq]

/-- RAM is read from three blocks. -/
theorem count_of_readPages {ram : List UInt8} (h : readPages data = .ok ram) :
    ∃ blocks, readBlocks data = .ok blocks ∧ blocks.length = 3 := by
  obtain ⟨blocks, hblocks, h⟩ := ok_of_bind h
  obtain ⟨hcount, -⟩ := ok_of_guard h
  exact ⟨blocks, hblocks, Decidable.not_not.mp hcount⟩

/-- What stands behind the blocks from which RAM is read is nothing. -/
theorem eq_nil_of_readPages_append {more ram longer : List UInt8} (h : readPages data = .ok ram)
    (hlonger : readPages (data ++ more) = .ok longer) : more = [] := by
  obtain ⟨pages, hpages, hcount⟩ := count_of_readPages h
  obtain ⟨all, hall, hcountAll⟩ := count_of_readPages hlonger
  obtain ⟨blocks, rfl, rfl⟩ := readBlocks_eq_ok_iff.mp hpages
  rw [readBlocks_flatMap_append] at hall
  obtain ⟨rest, hrest, rfl⟩ := ok_of_map hall
  obtain ⟨behind, rfl, rfl⟩ := readBlocks_eq_ok_iff.mp hrest
  rw [List.length_append, hcount, List.length_map] at hcountAll
  have hbehind : behind = [] := List.eq_nil_of_length_eq_zero (by omega)
  rw [hbehind, List.flatMap_nil]

/-- RAM of versions 2 and 3 is read from exactly the byte strings that are three blocks one after the other, one for each page, and
what is read is the three pages in their order. The order of the blocks does not matter. Whole blocks that are not one for each
page, because one is missing, comes twice or is too many, are refused with their number. Of a byte string and the same with
more behind it one is refused, so that nothing is cut off and nothing is filled up. -/
theorem readPages_grammar :
    (∀ data ram, readPages data = .ok ram ↔ PagedOut data ram) ∧
    (∀ blocks other : List PageBlock, blocks.Perm other →
      readPages (blocks.flatMap PageBlock.bytes) = readPages (other.flatMap PageBlock.bytes)) ∧
    (∀ blocks : List PageBlock, ¬ (blocks.map (·.slot)).Perm [.low, .middle, .high] →
      readPages (blocks.flatMap PageBlock.bytes) = .error (.pageCount blocks.length)) ∧
    ∀ data more, more ≠ [] →
      (∃ error, readPages data = .error error) ∨ ∃ error, readPages (data ++ more) = .error error := by
  refine ⟨fun data ram => readPages_eq_ok_iff, fun blocks other h => readPages_perm h,
    fun blocks h => readPages_of_not_perm h, fun data more hmore => ?_⟩
  cases hshort : readPages data with
  | error error => exact Or.inl ⟨error, rfl⟩
  | ok ram =>
    cases hlong : readPages (data ++ more) with
    | error error => exact Or.inr ⟨error, rfl⟩
    | ok longer => exact absurd (eq_nil_of_readPages_append hshort hlong) hmore

/-- A page of one byte, raw. -/
def rawBlock (slot : PageSlot) (value : UInt8) : PageBlock where
  length := 0xFFFF
  slot := slot
  stored := List.replicate 16384 value
  contents := List.replicate 16384 value
  whole := List.length_replicate
  stores := .raw

theorem expands_runs (value : UInt8) :
    Expands ((List.replicate 64 [0xED, 0xED, 255, value]).flatten ++ [0xED, 0xED, 64, value]) (List.replicate 16384 value) := by
  have hlast : Compresses [0xED, 0xED, 64, value] (List.replicate 64 value ++ []) := .block (by decide) .nil
  have hruns := compresses_blocks value (show (255 : UInt8) ≠ 0 by decide) hlast 64
  rw [List.append_nil, List.replicate_append_replicate] at hruns
  exact hruns.expands

/-- A page of one byte, compressed. -/
def runBlock (slot : PageSlot) (value : UInt8) : PageBlock where
  length := 260
  slot := slot
  stored := (List.replicate 64 [0xED, 0xED, 255, value]).flatten ++ [0xED, 0xED, 64, value]
  contents := List.replicate 16384 value
  whole := List.length_replicate
  stores := by
    refine .compressed (by decide) ?_ (expands_runs value)
    rw [List.length_append, List.length_flatten, List.map_replicate, List.sum_replicate_nat]
    rfl

/-- Three pages in two orders, the same page twice, and a byte behind the blocks. -/
theorem readPages_grammar_runs :
    readPages ([runBlock .high 5, rawBlock .low 1, rawBlock .middle 3].flatMap PageBlock.bytes) =
        .ok (List.replicate 16384 1 ++ List.replicate 16384 3 ++ List.replicate 16384 5) ∧
      [runBlock .high 5, rawBlock .low 1, rawBlock .middle 3].Perm [rawBlock .low 1, runBlock .high 5, rawBlock .middle 3] ∧
      readPages ([rawBlock .low 1, runBlock .high 5, rawBlock .middle 3].flatMap PageBlock.bytes) =
        .ok (List.replicate 16384 1 ++ List.replicate 16384 3 ++ List.replicate 16384 5) ∧
      ¬ ([rawBlock .low 1, runBlock .low 5, rawBlock .middle 3].map (·.slot)).Perm [.low, .middle, .high] ∧
      readPages ([rawBlock .low 1, runBlock .low 5, rawBlock .middle 3].flatMap PageBlock.bytes) = .error (.pageCount 3) ∧
      ∃ error, readPages ([runBlock .high 5, rawBlock .low 1, rawBlock .middle 3].flatMap PageBlock.bytes ++ [0]) =
        .error error := by
  obtain ⟨hiff, hperm, hcount, hwhole⟩ := readPages_grammar
  have hread := (hiff _ _).mpr ⟨rawBlock .low 1, rawBlock .middle 3, runBlock .high 5, rfl, rfl, rfl, rfl,
    [runBlock .high 5, rawBlock .low 1, rawBlock .middle 3],
    (List.perm_append_singleton _ [rawBlock .low 1, rawBlock .middle 3]).symm, rfl⟩
  have hswap : [runBlock .high 5, rawBlock .low 1, rawBlock .middle 3].Perm
      [rawBlock .low 1, runBlock .high 5, rawBlock .middle 3] := .swap _ _ _
  have hslots : ¬ ([rawBlock .low 1, runBlock .low 5, rawBlock .middle 3].map (·.slot)).Perm [.low, .middle, .high] := by
    decide
  refine ⟨hread, hswap, (hperm _ _ hswap).symm.trans hread, hslots, hcount _ hslots, ?_⟩
  refine (hwhole _ [0] (by decide)).resolve_left ?_
  rintro ⟨error, herror⟩
  rw [hread] at herror
  cases herror

end ZxSpectrum.Z80
