import ZxSpectrum.Proofs.CheckedReaders
import ZxSpectrum.Proofs.Z80Files

/-!
# Decoding with every check made

On every byte string the checked readers do exactly what the total readers do, if only the limit of sizes lies far enough beyond
the length of the file (`Snapshot.decodeChecked_eq`): nothing is ever read past the end, and nothing overflows.
-/

namespace ZxSpectrum

/-! ## Checks that are passed -/

section Passed

variable {α β ε : Type} {error : ε} {p : Prop} [Decidable p] {result : Except ε α} {value : β}

/-- What is not refused has passed the check. -/
theorem ok_of_guard {rest : Except ε β} (h : (if p then .error error else rest) = .ok value) :
    ¬p ∧ rest = .ok value := by
  split at h
  · cases h
  · exact ⟨‹_›, h⟩

/-- What is given has passed the check. -/
theorem ok_of_check {given : β} (h : (if p then .ok given else .error error : Except ε β) = .ok value) :
    p ∧ given = value := by
  split at h
  · cases h
    exact ⟨‹_›, rfl⟩
  · cases h

/-- A sequence that succeeds has succeeded in its first part. -/
theorem ok_of_bind {next : α → Except ε β} (h : result >>= next = .ok value) :
    ∃ first, result = .ok first ∧ next first = .ok value := by
  cases result with
  | error error => cases h
  | ok first => exact ⟨first, rfl, h⟩

theorem ok_of_map {f : α → β} (h : result.map f = .ok value) : ∃ first, result = .ok first ∧ f first = value := by
  cases result with
  | error error => cases h
  | ok first =>
    cases h
    exact ⟨first, rfl, rfl⟩

end Passed

open Checked

/-! ## SNA -/

namespace Sna

open Bytes

theorem readRegistersChecked_eq {data : List UInt8} (h : headerSize ≤ data.length) :
    readRegistersChecked data = pure (readRegisters data) := by
  have hsize : 27 ≤ data.length := h
  unfold readRegistersChecked
  simp (disch := omega) only [byte_eq, word_eq, pure_bind]
  simp only [readRegisters, wordAt, Word.low_ofBytes, Word.high_ofBytes]

theorem decodeChecked_eq (data : List UInt8) : decodeChecked data = safe (decode data) := by
  unfold decodeChecked decode
  by_cases hsize : data.length ≠ fileSize
  · rw [if_pos hsize, if_pos hsize]
    rfl
  · have hlength : data.length = 49179 := Decidable.not_not.mp hsize
    have hheader : headerSize ≤ data.length := by
      rw [hlength]
      decide
    rw [if_neg hsize, if_neg hsize, readRegistersChecked_eq hheader, slice_eq hheader]
    simp (disch := omega) only [byte_eq, word_eq, pure_bind]
    split
    · rfl
    · split <;> rfl

end Sna

/-! ## Z80 -/

namespace Z80

open Bytes

/-! ### The header -/

theorem flagsChecked_eq {data : List UInt8} (h : headerSize ≤ data.length) : flagsChecked data = pure (flags data) := by
  have hsize : 30 ≤ data.length := h
  rw [flagsChecked, byte_eq (by omega), pure_bind, flags]
  split <;> rfl

theorem readHeaderChecked_eq {data : List UInt8} (h : headerSize ≤ data.length) :
    readHeaderChecked data =
      match headerProblem? data with
      | some error => refuse error
      | none => pure (readRegisters data, readBorder data) := by
  have hsize : 30 ≤ data.length := h
  unfold readHeaderChecked
  rw [flagsChecked_eq h]
  simp (disch := omega) only [byte_eq, word_eq, pure_bind]
  have hmodes : byteAt data 29 = moreFlags data := rfl
  rw [hmodes, headerProblem?]
  by_cases him : 2 < moreFlags data &&& 0x03
  · rw [if_pos him, if_pos him]
  · rw [if_neg him, if_neg him]
    by_cases hsam : (flags data &&& 0x10 != 0) = true
    · rw [if_pos hsam, if_pos hsam]
    · rw [if_neg hsam, if_neg hsam]
      by_cases hissue : (moreFlags data &&& 0x04 != 0) = true
      · rw [if_pos hissue, if_pos hissue]
      · rw [if_neg hissue, if_neg hissue]
        simp only [readRegisters, readBorder, wordAt, Word.low_ofBytes, Word.high_ofBytes]

/-! ### Expansion -/

section Expansion

variable {limit place : Nat} {source : List UInt8}

/-- The byte at a place, seen from a place before it. -/
theorem byte_of_drop {rest : List UInt8} {value : UInt8} (more : Nat) (hdrop : source.drop place = rest)
    (h : rest[more]? = some value) : byte source (place + more) = pure value := by
  rw [byte, ← List.getElem?_drop, hdrop, h]

theorem byte_of_drop_cons {rest : List UInt8} {value : UInt8} (hdrop : source.drop place = value :: rest) :
    byte source place = pure value := byte_of_drop 0 hdrop rfl

/-- A run of four bytes begins with two that mark it. -/
theorem beginsRun_run (hlimit : place + 4 ≤ limit) {count value : UInt8} {rest : List UInt8}
    (hdrop : source.drop place = 0xED :: 0xED :: count :: value :: rest) : beginsRun limit source place = pure true := by
  have hlength := congrArg List.length hdrop
  simp only [List.length_drop, List.length_cons] at hlength
  rw [beginsRun, require_eq hlimit, pure_bind, if_pos (by omega), byte_of_drop_cons hdrop, pure_bind,
    if_pos (beq_self_eq_true _), byte_of_drop 1 hdrop rfl, pure_bind]
  rfl

/-- Nothing else begins like a run. -/
theorem beginsRun_literal (hlimit : place + 4 ≤ limit) {first : UInt8} {rest : List UInt8}
    (hdrop : source.drop place = first :: rest)
    (hliteral : ∀ count value more, first = 0xED → rest = 0xED :: count :: value :: more → False) :
    beginsRun limit source place = pure false := by
  have hlength := congrArg List.length hdrop
  simp only [List.length_drop, List.length_cons] at hlength
  rw [beginsRun, require_eq hlimit, pure_bind]
  by_cases hroom : place + 4 ≤ source.length
  · obtain ⟨second, count, value, more, rfl⟩ : ∃ second count value more, rest = second :: count :: value :: more := by
      match rest with
      | second :: count :: value :: more => exact ⟨second, count, value, more, rfl⟩
      | [] | [_] | [_, _] => simp only [List.length_cons, List.length_nil] at hlength; omega
    rw [if_pos hroom, byte_of_drop_cons hdrop, pure_bind]
    by_cases hfirst : first = 0xED
    · have hsecond : (second == 0xED) = false := by
        rw [beq_eq_false_iff_ne]
        rintro rfl
        exact hliteral count value more hfirst rfl
      rw [if_pos (beq_iff_eq.mpr hfirst), byte_of_drop 1 hdrop rfl, pure_bind, hsecond]
    · rw [if_neg (by rwa [beq_iff_eq])]
  · rw [if_neg hroom]

/-- Going through a byte string by places is going through its bytes. -/
theorem expandFrom_eq (hlimit : source.length + 4 ≤ limit) (place : Nat) (expanded : List UInt8) :
    expandFrom limit source place expanded = pure (decompressOnto expanded (source.drop place)) := by
  -- Each step comes nearer to the end, by one byte or by the four of a run.
  induction hleft : source.length - place using Nat.strongRecOn generalizing place expanded with
  | ind left ih =>
    by_cases hplace : place < source.length
    · have hnear : place + 4 ≤ limit := by omega
      rw [expandFrom, dif_pos hplace]
      by_cases hrun : ∃ count value rest, source.drop place = 0xED :: 0xED :: count :: value :: rest
      · obtain ⟨count, value, rest, hdrop⟩ := hrun
        have hrest : source.drop (place + 4) = rest := by rw [← List.drop_drop, hdrop]; rfl
        rw [beginsRun_run hnear hdrop, pure_bind, if_pos rfl, byte_of_drop 2 hdrop rfl, pure_bind,
          byte_of_drop 3 hdrop rfl, pure_bind, ih _ (by omega) _ _ rfl, hdrop, hrest, decompressOnto]
      · have hdrop := List.drop_eq_getElem_cons hplace
        have hliteral : ∀ count value more, source[place] = 0xED →
            source.drop (place + 1) = 0xED :: count :: value :: more → False := by
          intro count value more hfirst hmore
          rw [hfirst, hmore] at hdrop
          exact hrun ⟨count, value, more, hdrop⟩
        rw [beginsRun_literal hnear hdrop hliteral, pure_bind, if_neg Bool.false_ne_true, byte_of_drop_cons hdrop,
          pure_bind, ih _ (by omega) _ _ rfl, hdrop, decompressOnto]
        exact hliteral
    · rw [expandFrom, dif_neg hplace, List.drop_eq_nil_of_le (Nat.le_of_not_lt hplace)]
      rfl

theorem decompressChecked_eq (hlimit : source.length + 4 ≤ limit) :
    decompressChecked limit source = pure (decompress source) := by
  rw [decompressChecked, expandFrom_eq hlimit]
  rfl

end Expansion

/-! ### Version 1 -/

theorem length_dropEndMarker?_le {body image : List UInt8} (h : dropEndMarker? body = some image) :
    image.length ≤ body.length := by
  simp only [dropEndMarker?, Option.ite_none_right_eq_some, Option.some_inj] at h
  rw [← h.2, List.length_take]
  exact Nat.min_le_right _ _

theorem readImageChecked_eq {limit : Nat} {body : List UInt8} (hlimit : body.length + 4 ≤ limit) (compressed : Bool) :
    readImageChecked limit compressed body = safe (readImage compressed body) := by
  have hcheck : ∀ ram : List UInt8,
      (if ram.length = Memory.ramSize then pure ram
        else refuse (.decompressedLength Memory.ramSize ram.length) : Checked (List UInt8)) =
      safe (if ram.length = Memory.ramSize then .ok ram else .error (.decompressedLength Memory.ramSize ram.length)) := by
    intro ram
    split <;> rfl
  cases compressed with
  | false => exact hcheck body
  | true =>
    rw [readImageChecked, readImage, if_pos rfl, if_pos rfl]
    cases himage : dropEndMarker? body with
    | none => rfl
    | some image =>
      have hle := length_dropEndMarker?_le himage
      dsimp only
      rw [decompressChecked_eq (by omega), pure_bind]
      exact hcheck (decompress image)

theorem decodeV1Checked_eq {limit : Nat} {data : List UInt8} (hlayout : layoutOf data = .ok .v1)
    (h : headerSize ≤ data.length) (hlimit : data.length + 4 ≤ limit) :
    decodeV1Checked limit data = safe (decode data) := by
  have hbody : (data.drop headerSize).length + 4 ≤ limit := by
    rw [List.length_drop]
    omega
  rw [decodeV1Checked, decode_v1 hlayout, readHeaderChecked_eq h]
  cases headerProblem? data with
  | some error => rfl
  | none =>
    dsimp only
    rw [pure_bind, slice_eq h, pure_bind, flagsChecked_eq h, pure_bind, readImageChecked_eq hbody, safe_map]

/-! ### Pages -/

/-- The table of the pages that have been read. -/
def pagesOf (blocks : List (PageSlot × List UInt8)) : List (Option (List UInt8)) :=
  [pageOf? blocks .low, pageOf? blocks .middle, pageOf? blocks .high]

theorem pageOf?_append (blocks : List (PageSlot × List UInt8)) (slot other : PageSlot) (contents : List UInt8) :
    pageOf? (blocks ++ [(slot, contents)]) other = if slot = other then some contents else pageOf? blocks other := by
  rw [pageOf?, List.reverse_append, List.reverse_singleton, List.singleton_append, List.find?_cons]
  by_cases h : slot = other <;> simp [h, pageOf?]

/-- A page that is read replaces one in the table. -/
theorem set_pagesOf (blocks : List (PageSlot × List UInt8)) (slot : PageSlot) (contents : List UInt8) :
    (pagesOf blocks).set slot.place (some contents) = pagesOf (blocks ++ [(slot, contents)]) := by
  cases slot <;> simp [pagesOf, pageOf?_append, PageSlot.place]

theorem readBlockChecked_eq {limit : Nat} {data : List UInt8} (hlimit : data.length + 4 ≤ limit) (length : UInt16)
    (number : UInt8) : readBlockChecked limit length number data =
      safe ((readBlock length number data).map fun block => (block.1, block.2.1)) := by
  rw [readBlockChecked, readBlock]
  dsimp only
  by_cases hstored : data.length < storedLength length
  · rw [if_pos hstored, if_pos hstored]
    rfl
  · have hlength : (data.take (storedLength length)).length + 4 ≤ limit := by
      rw [List.length_take]
      omega
    rw [if_neg hstored, if_neg hstored, require_eq (Nat.le_of_not_lt hstored), pure_bind]
    cases PageSlot.ofNumber? number with
    | none => rfl
    | some slot =>
      rw [decompressChecked_eq hlength]
      by_cases hraw : length = rawLength
      · simp only [if_pos hraw, pure_bind]
        split <;> rfl
      · simp only [if_neg hraw, pure_bind]
        split <;> rfl

/-- A block that is read holds a whole page, and leaves what stands behind it. -/
theorem readBlock_ok {length : UInt16} {number : UInt8} {data : List UInt8} {block : PageSlot × List UInt8 × List UInt8}
    (h : readBlock length number data = .ok block) :
    block.2.1.length = pageSize ∧ block.2.2 = data.drop (storedLength length) := by
  rw [readBlock] at h
  obtain ⟨-, h⟩ := ok_of_guard h
  cases hslot : PageSlot.ofNumber? number with
  | none =>
    rw [hslot] at h
    cases h
  | some slot =>
    rw [hslot] at h
    obtain ⟨hcontents, rfl⟩ := ok_of_check h
    exact ⟨hcontents, rfl⟩

/-- The first block, then the others. -/
theorem readBlocks_three (low high number : UInt8) (data : List UInt8) : readBlocks (low :: high :: number :: data) =
    readBlock (Word.ofBytes high low) number data >>= fun block =>
      (readBlocks block.2.2).map fun blocks => (block.1, block.2.1) :: blocks := by
  rw [readBlocks]
  split
  · rename_i error herror
    rw [herror]
    rfl
  · rename_i block hblock
    rw [hblock]
    dsimp only [bind, Except.bind]
    cases readBlocks block.2.2 <;> rfl

theorem PageSlot.place_lt (slot : PageSlot) : slot.place < 3 := by
  cases slot <;> decide

/-- The first block goes into the table, then the others do. -/
theorem readBlocksChecked_three {limit : Nat} (low high number : UInt8) (data : List UInt8)
    (done : List (PageSlot × List UInt8)) (hlimit : done.length + data.length + 4 ≤ limit) :
    readBlocksChecked limit (low :: high :: number :: data) (pagesOf done) done.length =
      safe (readBlock (Word.ofBytes high low) number data) >>= fun block =>
        readBlocksChecked limit block.2.2 (pagesOf (done ++ [(block.1, block.2.1)])) (done.length + 1) := by
  have hthree : 3 ≤ (low :: high :: number :: data).length := by simp
  have hword : word (low :: high :: number :: data) 0 = pure (Word.ofBytes high low) := rfl
  have hbyte : byte (low :: high :: number :: data) 2 = pure number := rfl
  have hdrop : (low :: high :: number :: data).drop 3 = data := rfl
  rw [readBlocksChecked, dif_pos hthree, hword, pure_bind, hbyte, pure_bind, require_eq hthree, pure_bind, hdrop,
    readBlockChecked_eq (by omega)]
  cases hblock : readBlock (Word.ofBytes high low) number data with
  | error error => rfl
  | ok block =>
    obtain ⟨slot, contents, rest⟩ := block
    obtain ⟨-, hrest⟩ := readBlock_ok hblock
    have hplace : slot.place < (pagesOf done).length := slot.place_lt
    rw [Except.map, safe_ok, pure_bind, safe_ok, pure_bind, hrest]
    dsimp only
    rw [require_eq hplace, pure_bind, require_eq (by omega), pure_bind, set_pagesOf]

/-- The table and the count are those of the blocks that have been read. -/
theorem readBlocksChecked_eq {limit : Nat} (blocks : List UInt8) (done : List (PageSlot × List UInt8))
    (hlimit : done.length + blocks.length + 4 ≤ limit) :
    readBlocksChecked limit blocks (pagesOf done) done.length =
      safe ((readBlocks blocks).map fun more => (pagesOf (done ++ more), (done ++ more).length)) := by
  -- Each block is at least three bytes long.
  induction hlength : blocks.length using Nat.strongRecOn generalizing blocks done with
  | ind length ih =>
    match blocks with
    | low :: high :: number :: data =>
      simp only [List.length_cons] at hlength hlimit
      rw [readBlocksChecked_three low high number data done (by omega), readBlocks_three]
      cases hblock : readBlock (Word.ofBytes high low) number data with
      | error error => rfl
      | ok block =>
        have hless := length_readBlock_le hblock
        have hdone : (done ++ [(block.1, block.2.1)]).length = done.length + 1 := List.length_append
        have hmore := ih _ (by omega) block.2.2 (done ++ [(block.1, block.2.1)]) (by omega) rfl
        rw [hdone] at hmore
        rw [safe_ok, pure_bind, hmore]
        change _ = safe (((readBlocks block.2.2).map _).map _)
        cases readBlocks block.2.2 with
        | error error => rfl
        | ok more => simp only [Except.map, List.append_assoc, List.singleton_append]
    | [] =>
      rw [readBlocksChecked, readBlocks]
      simp only [Except.map, List.append_nil]
      rfl
    | [_] | [_, _] =>
      rw [readBlocksChecked, readBlocks]
      · rfl
      all_goals simp

/-- Three pages in the table make up RAM. -/
theorem readPagesChecked_eq {limit : Nat} {data : List UInt8} (hlimit : data.length + 4 ≤ limit) :
    readPagesChecked limit data = safe (readPages data) := by
  have hempty : ([] : List (PageSlot × List UInt8)).length + data.length + 4 ≤ limit := by
    rw [List.length_nil]
    omega
  have hread : readBlocksChecked limit data [none, none, none] 0 =
      safe ((readBlocks data).map fun blocks => (pagesOf blocks, blocks.length)) := readBlocksChecked_eq data [] hempty
  rw [readPagesChecked, hread, readPages]
  cases readBlocks data with
  | error error => rfl
  | ok blocks =>
    rw [Except.map, safe_ok, pure_bind]
    change (if blocks.length ≠ 3 then _ else _) = safe (if blocks.length ≠ 3 then _ else _)
    by_cases hcount : blocks.length ≠ 3
    · rw [if_pos hcount, if_pos hcount]
      rfl
    · rw [if_neg hcount, if_neg hcount, Decidable.not_not.mp hcount, pagesOf]
      cases pageOf? blocks .low <;> cases pageOf? blocks .middle <;> cases pageOf? blocks .high <;> rfl

/-! ### Versions 2 and 3 -/

/-- The differences are not negative, and the clock has room in a word of 32 bits. -/
theorem restoreClockChecked_eq (low : UInt16) (high : UInt8) :
    restoreClockChecked low high = pure (restoreClock low high) := by
  have hquarter : quarter = 17472 := rfl
  have hmod : low.toNat % quarter < quarter := Nat.mod_lt _ (by omega)
  have hquarters : ((high &&& 0x03).toNat + 1) % 4 ≤ 3 := by omega
  have hproduct : ((high &&& 0x03).toNat + 1) % 4 * quarter ≤ 3 * quarter := Nat.mul_le_mul_right _ hquarters
  rw [restoreClockChecked, require_eq (by omega), pure_bind, difference_eq (by omega), pure_bind,
    difference_eq (by omega), pure_bind]
  dsimp only
  rw [require_eq (by omega), pure_bind]
  rfl

theorem refusePaged_eq {data : List UInt8} (paged : List (Nat × Feature)) (h : ∀ entry ∈ paged, entry.1 < data.length) :
    refusePaged data paged =
      match paged.find? fun entry => byteAt data entry.1 == 0xFF with
      | some entry => refuse (.unsupportedFeature entry.2)
      | none => pure () := by
  induction paged with
  | nil => rfl
  | cons entry paged ih =>
    have hrest := ih fun entry hentry => h entry (List.mem_cons_of_mem _ hentry)
    have hplace := h entry List.mem_cons_self
    obtain ⟨place, feature⟩ := entry
    rw [refusePaged, byte_eq hplace, pure_bind, List.find?_cons]
    dsimp only
    cases byteAt data place == 0xFF with
    | true => rfl
    | false => exact hrest

theorem decodeExtendedChecked_eq {limit : Nat} {data : List UInt8} {layout : Layout} (hv1 : layout ≠ .v1)
    (hlayout : layoutOf data = if data.length < layout.bodyStart then .error .truncated else .ok layout)
    (hlimit : data.length + 4 ≤ limit) : decodeExtendedChecked limit data layout.bodyStart = safe (decode data) := by
  by_cases hshort : data.length < layout.bodyStart
  · rw [if_pos hshort] at hlayout
    rw [decodeExtendedChecked, if_pos hshort, decode, hlayout]
    rfl
  rw [if_neg hshort] at hlayout
  have hsize := Nat.le_of_not_lt hshort
  have hextension : 55 ≤ layout.bodyStart := by cases layout <;> first | exact absurd rfl hv1 | decide
  have hheader : headerSize ≤ data.length := by
    rw [headerSize]
    omega
  have hbody : (data.drop layout.bodyStart).length + 4 ≤ limit := by
    rw [List.length_drop]
    omega
  rw [decodeExtendedChecked, if_neg hshort, readHeaderChecked_eq hheader, decode_extended hv1 hlayout]
  cases headerProblem? data with
  | some error => rfl
  | none =>
    dsimp only
    rw [pure_bind, word_eq (by omega), pure_bind, byte_eq (by omega), pure_bind, extendedProblem?]
    dsimp only
    by_cases hmode : 1 < byteAt data 34
    · rw [if_pos hmode, if_pos hmode]
      rfl
    rw [if_neg hmode, if_neg hmode, byte_eq (by omega), pure_bind]
    by_cases hmodified : (byteAt data 37 &&& 0x80 != 0) = true
    · rw [if_pos hmodified, if_pos hmodified]
      rfl
    rw [if_neg hmodified, if_neg hmodified]
    by_cases hv2 : layout = .v2
    · have hstart : ¬ layout.bodyStart ≠ Layout.v2.bodyStart := by simp [hv2]
      rw [if_pos hv2, if_neg hstart, pure_bind, slice_eq hsize, pure_bind, readPagesChecked_eq hbody, if_pos hv2, safe_map]
    · have hstart : layout.bodyStart ≠ Layout.v2.bodyStart := by
        cases layout <;> first | exact absurd rfl hv1 | exact absurd rfl hv2 | decide
      have hclocked : 63 ≤ layout.bodyStart := by
        cases layout <;> first | exact absurd rfl hv1 | exact absurd rfl hv2 | decide
      have hplaces : ∀ entry ∈ [(59, Feature.mgtRom), (60, .multifaceRom), (61, .lowRam), (62, .middleRam)],
          entry.1 < data.length := by
        simp only [List.forall_mem_cons, List.not_mem_nil, false_implies, implies_true, and_true]
        omega
      rw [if_neg hv2, if_pos hstart, word_eq (by omega), pure_bind, byte_eq (by omega), pure_bind, restoreClockChecked_eq,
        pure_bind, refusePaged_eq _ hplaces]
      cases List.find? (fun entry : Nat × Feature => byteAt data entry.1 == 0xFF) _ with
      | some entry => rfl
      | none =>
        dsimp only [Option.map]
        rw [pure_bind, pure_bind, slice_eq hsize, pure_bind, readPagesChecked_eq hbody, if_neg hv2, safe_map]

/-! ### Whole files -/

/-- The length of the header is a sum that the limit has room for, and tells the layout. -/
theorem decodeChecked_eq {limit : Nat} (data : List UInt8) (hlimit : data.length + 65567 ≤ limit) :
    decodeChecked limit data = safe (decode data) := by
  have hstart : headerSize = 30 := rfl
  have hv2start : Layout.v2.bodyStart = 55 := rfl
  have hv3start : Layout.v3.bodyStart = 86 := rfl
  have hv3xstart : Layout.v3Extended.bodyStart = 87 := rfl
  by_cases hshort : data.length < headerSize
  · have hlayout : layoutOf data = .error .truncated := if_pos hshort
    rw [decodeChecked, if_pos hshort, decode, hlayout]
    rfl
  rw [decodeChecked, if_neg hshort, word_eq (by omega), pure_bind]
  by_cases hpc : wordAt data 6 ≠ 0
  · have hlayout : layoutOf data = .ok .v1 := by rw [layoutOf, if_neg hshort, if_pos hpc]
    rw [if_pos hpc, decodeV1Checked_eq hlayout (Nat.le_of_not_lt hshort) (by omega)]
  rw [if_neg hpc]
  by_cases hshort2 : data.length < Layout.v2.bodyStart
  · have hlayout : layoutOf data = .error .truncated := by rw [layoutOf, if_neg hshort, if_neg hpc, if_pos hshort2]
    rw [if_pos hshort2, decode, hlayout]
    rfl
  have hword := (wordAt data 30).toNat_lt
  have hlayout : layoutOf data = _ := (if_neg hshort).trans ((if_neg hpc).trans (if_neg hshort2))
  rw [if_neg hshort2, word_eq (by omega), pure_bind]
  dsimp only
  rw [require_eq (by omega), pure_bind]
  generalize (wordAt data 30).toNat = extension at hlayout
  by_cases hv2 : extension = 23
  · rw [hv2] at hlayout ⊢
    exact decodeExtendedChecked_eq (by decide) (hlayout.trans (if_neg hshort2).symm) (by omega)
  by_cases hv3 : extension = 54
  · rw [hv3] at hlayout ⊢
    exact decodeExtendedChecked_eq (by decide) hlayout (by omega)
  by_cases hv3x : extension = 55
  · rw [hv3x] at hlayout ⊢
    exact decodeExtendedChecked_eq (by decide) hlayout (by omega)
  have hunsupported : layoutOf data = .error .unsupportedVersion := by
    rw [hlayout]
    split <;> first | contradiction | rfl
  rw [if_neg (by omega), decode, hunsupported]
  rfl

end Z80

/-- No byte string makes a reader go wrong: the checked readers give what the total ones give. -/
theorem Snapshot.decodeChecked_eq {limit : Nat} (data : List UInt8) (format : SnapshotFormat)
    (hlimit : data.length + 65567 ≤ limit) : decodeChecked limit data format = safe (decode data format) := by
  cases format with
  | sna => exact Sna.decodeChecked_eq data
  | z80 => exact Z80.decodeChecked_eq data hlimit

end ZxSpectrum
