import ZxSpectrum.Proofs.BusRuns
import ZxSpectrum.Proofs.ScreenLayout

/-!
# The screen race

While a frame is drawn the processor may change screen bytes before or after they have been fetched. A frame shows every
byte as it was when it was fetched: `composeScreen_run` says so of any program, any memory and any clock, in terms of the
`writes` of the program and of the memory that those up to the time of the fetch make (`Memory.replay`). With accuracy off it
shows memory as it is in the end.

The invariant is `Shows`: a place shows the byte that memory had at its fetch time, and only places whose fetch is over show
a captured value. Bitmap and attributes differ only in which byte a place shows, so one step lemma serves both
(`Shows.write`).
-/

namespace ZxSpectrum

/-- A write: where, what, and the time at which it ends. -/
structure Write where
  address : UInt16
  value : UInt8
  time : Nat

/-- The writes of a program on a bus, in order. -/
def BusProgram.writes {α β : Type} [Bus β] : BusProgram α → β → List Write
  | .done _, _ => []
  | .idle time next, bus => next.writes (Bus.idle time bus)
  | .contend address time next, bus => next.writes (Bus.contend address time bus)
  | .peek address next, bus => (next (Bus.peek address bus)).writes bus
  | .poke address value next, bus => ⟨address, value, Bus.clock bus⟩ :: next.writes (Bus.poke address value bus)
  | .input port next, bus => (next (Bus.input port bus).1).writes (Bus.input port bus).2
  | .output port value next, bus => next.writes (Bus.output port value bus)

/-- The memory that writes leave one after the other. -/
def Memory.replay (memory : Memory) (writes : List Write) : Memory :=
  writes.foldl (fun memory write => memory.write write.address write.value) memory

/-- The memory that the writes up to a time leave. -/
def Memory.replayUpTo (memory : Memory) (writes : List Write) (time : Nat) : Memory :=
  memory.replay (writes.filter fun write => write.time ≤ time)

namespace Memory

/-- The last write is made last. -/
theorem replay_concat (memory : Memory) (writes : List Write) (write : Write) :
    memory.replay (writes ++ [write]) = (memory.replay writes).write write.address write.value := by
  rw [replay, List.foldl_append, List.foldl_cons, List.foldl_nil, replay]

/-- Nothing is left out once the time has come. -/
theorem replayUpTo_of_le (memory : Memory) {writes : List Write} {time : Nat} (h : ∀ write ∈ writes, write.time ≤ time) :
    memory.replayUpTo writes time = memory.replay writes := by
  have hall : writes.filter (fun write => write.time ≤ time) = writes := by
    rw [List.filter_eq_self]
    intro write hw
    exact decide_eq_true (h write hw)
  rw [replayUpTo, hall]

/-- A later write is left out. -/
theorem replayUpTo_append_of_lt (memory : Memory) (writes : List Write) {write : Write} {time : Nat}
    (h : time < write.time) : memory.replayUpTo (writes ++ [write]) time = memory.replayUpTo writes time := by
  have hlate : ¬ write.time ≤ time := by omega
  simp [replayUpTo, List.filter_append, hlate]

end Memory

/-! ## What the shadow keeps of one write -/

namespace Ula.Shadow

/-- The captured values that a write leaves: it captures the old value where the byte is shown, has been fetched already and
is not captured yet, and nothing else. `byteOf` tells which byte a place shows. -/
def Notes (byteOf : Nat → UInt16) (cells noted : Vector (Option UInt8) 6144) (address : UInt16) (old : UInt8)
    (time : Nat) : Prop :=
  ∀ place < 6144, noted[place]?.join =
    if byteOf place = address ∧ fetchTime place < time ∧ cells[place]?.join = none then some old
    else cells[place]?.join

theorem capture_join (cells : Vector (Option UInt8) 6144) (kept : Nat) (value : UInt8) {place : Nat} (hp : place < 6144) :
    (capture cells kept value)[place]?.join =
      if kept = place ∧ cells[place]?.join = none then some value else cells[place]?.join := by
  unfold capture
  by_cases hk : (cells[kept]?.join).isSome
  · rw [if_pos hk]
    by_cases h : kept = place
    · subst h
      rw [if_neg]
      rintro ⟨-, hnone⟩
      simp [hnone] at hk
    · rw [if_neg (fun hc => h hc.1)]
  · rw [if_neg hk, Vector.getElem?_setIfInBounds]
    by_cases h : kept = place
    · subst h
      have hnone : cells[kept]?.join = none := by simpa using hk
      rw [if_pos rfl, if_pos hp, if_pos ⟨rfl, hnone⟩]
      rfl
    · simp [h]

/-- Capturing an old value at the places of a cell whose fetch is over. -/
theorem captureLines_join (attributes : Vector (Option UInt8) 6144) (cell : Nat) (old : UInt8) (time : Nat) {place : Nat}
    (hp : place < 6144) : (captureLines attributes cell old time)[place]?.join =
      if place ∈ placesOfCell cell ∧ fetchTime place < time ∧ attributes[place]?.join = none then some old
      else attributes[place]?.join := by
  change ((placesOfCell cell).foldl (fun cells place =>
    if fetchTime place < time then capture cells place old else cells) attributes)[place]?.join = _
  generalize placesOfCell cell = places
  induction places generalizing attributes with
  | nil => simp
  | cons first rest ih =>
    rw [List.foldl_cons, ih]
    by_cases ht : fetchTime first < time
    · rw [if_pos ht, capture_join attributes first old hp]
      by_cases hf : first = place
      · subst hf
        by_cases hn : attributes[first]?.join = none <;> simp [hn, ht]
      · have hf' : place ≠ first := fun h => hf h.symm
        simp [hf, hf']
    · rw [if_neg ht]
      by_cases hf : place = first
      · subst hf
        simp [ht]
      · simp [hf]

/-- Nothing is captured for a byte that no place shows. -/
theorem Notes.of_ne {byteOf : Nat → UInt16} {address : UInt16} (cells : Vector (Option UInt8) 6144) (old : UInt8)
    (time : Nat) (h : ∀ place < 6144, byteOf place ≠ address) : Notes byteOf cells cells address old time := by
  intro place hp
  rw [if_neg]
  rintro ⟨heq, -⟩
  exact h place hp heq

/-! A bitmap write touches the captured bitmap bytes alone, an attribute write the captured attributes alone. -/

theorem bitmapWrite_bitmap (shadow : Shadow) (address : UInt16) (old : UInt8) (time : Nat) :
    (shadow.bitmapWrite address old time).bitmap =
      if shadow.accurate = true ∧ fetchTime (placeOf address) < time then capture shadow.bitmap (placeOf address) old
      else shadow.bitmap := by
  have htime : fetchTime (placeOf address) = sampleTime (bitmapPixel address).1 (bitmapPixel address).2 := by
    rw [fetchTime, pixelAt_placeOf]
  cases shadow
  simp only [bitmapWrite, htime, Bool.and_eq_true, decide_eq_true_eq]
  split <;> rfl

theorem bitmapWrite_attributes (shadow : Shadow) (address : UInt16) (old : UInt8) (time : Nat) :
    (shadow.bitmapWrite address old time).attributes = shadow.attributes := by
  cases shadow
  simp only [bitmapWrite]
  split <;> rfl

theorem attributeWrite_bitmap (shadow : Shadow) (address : UInt16) (old : UInt8) (time : Nat) :
    (shadow.attributeWrite address old time).bitmap = shadow.bitmap := by
  cases shadow
  simp only [attributeWrite]
  split <;> rfl

theorem attributeWrite_attributes (shadow : Shadow) (address : UInt16) (old : UInt8) (time : Nat) :
    (shadow.attributeWrite address old time).attributes =
      if shadow.accurate = true then captureLines shadow.attributes (address - attributeBase).toNat old time
      else shadow.attributes := by
  cases shadow
  simp only [attributeWrite]
  split <;> rfl

/-- The shadow notes a write to the bitmap in the captured bitmap bytes. -/
theorem notes_bitmap (shadow : Shadow) (address : UInt16) (old : UInt8) (time : Nat) (h : shadow.accurate = true) :
    Notes bitmapByte shadow.bitmap (shadow.noteWrite address old time).bitmap address old time := by
  unfold noteWrite
  by_cases hb : isBitmap address = true
  · rw [if_pos hb]
    intro place hp
    simp only [bitmapWrite_bitmap, h, true_and, bitmapByte_eq_iff hp hb]
    by_cases ht : fetchTime (placeOf address) < time
    · rw [if_pos ht, capture_join _ _ _ hp]
      by_cases hplace : placeOf address = place
      · subst hplace
        simp [ht]
      · simp [hplace]
    · rw [if_neg ht, if_neg]
      rintro ⟨rfl, hfetch, -⟩
      exact ht hfetch
  · have hsame : (if isAttribute address = true then shadow.attributeWrite address old time else shadow).bitmap =
        shadow.bitmap := by
      split
      · exact attributeWrite_bitmap shadow address old time
      · rfl
    rw [if_neg hb, hsame]
    apply Notes.of_ne
    rintro place hp rfl
    exact hb (isBitmap_bitmapByte hp)

/-- The shadow notes a write to the attributes in the captured attributes. -/
theorem notes_attributes (shadow : Shadow) (address : UInt16) (old : UInt8) (time : Nat) (h : shadow.accurate = true) :
    Notes attributeByte shadow.attributes (shadow.noteWrite address old time).attributes address old time := by
  unfold noteWrite
  by_cases hb : isBitmap address = true
  · rw [if_pos hb, bitmapWrite_attributes]
    apply Notes.of_ne
    rintro place hp rfl
    have ha := isAttribute_attributeByte hp
    rw [isAttribute_eq_false_of_isBitmap hb] at ha
    exact Bool.false_ne_true ha
  · rw [if_neg hb]
    by_cases ha : isAttribute address = true
    · rw [if_pos ha, attributeWrite_attributes, if_pos h]
      intro place hp
      simp only [captureLines_join _ _ _ _ hp, attributeByte_eq_iff hp ha]
    · rw [if_neg ha]
      apply Notes.of_ne
      rintro place hp rfl
      exact ha (isAttribute_attributeByte hp)

/-- With accuracy off nothing is captured. -/
theorem noteWrite_plain (shadow : Shadow) (address : UInt16) (old : UInt8) (time : Nat) (h : shadow.accurate = false) :
    (shadow.noteWrite address old time).bitmap = shadow.bitmap ∧
      (shadow.noteWrite address old time).attributes = shadow.attributes := by
  unfold noteWrite
  split
  · simp [bitmapWrite_bitmap, bitmapWrite_attributes, h]
  · split
    · simp [attributeWrite_bitmap, attributeWrite_attributes, h]
    · exact ⟨rfl, rfl⟩

/-- Frame number and accuracy stay through a frame. -/
theorem noteWrite_frame (shadow : Shadow) (address : UInt16) (old : UInt8) (time : Nat) :
    (shadow.noteWrite address old time).frame = shadow.frame ∧
      (shadow.noteWrite address old time).accurate = shadow.accurate := by
  cases shadow
  simp only [noteWrite, bitmapWrite, attributeWrite]
  repeat' split
  all_goals exact ⟨rfl, rfl⟩

/-! ## What a place shows -/

/-- Every place shows the byte that memory had when it was fetched, a captured one only if its fetch is over. -/
structure Shows (byteOf : Nat → UInt16) (cells : Vector (Option UInt8) 6144) (memory start : Memory) (past : List Write)
    (clock : Nat) : Prop where
  value : ∀ place < 6144, (cells[place]?.join).getD (memory.get (byteOf place)) =
    (start.replayUpTo past (fetchTime place)).get (byteOf place)
  fetched : ∀ place < 6144, (cells[place]?.join).isSome → fetchTime place < clock

variable {byteOf : Nat → UInt16} {cells noted : Vector (Option UInt8) 6144} {memory start : Memory} {past : List Write}
  {clock : Nat}

/-- A place that was fetched before a write shows what it showed: the write does not count, and if it changes the byte, the old
value is captured. -/
theorem Shows.value_fetched (shows : Shows byteOf cells memory start past clock) {address : UInt16} {value : UInt8}
    (hnotes : memory.get address ≠ value → Notes byteOf cells noted address (memory.get address) clock)
    (hsame : memory.get address = value → noted = cells) {place : Nat} (hp : place < 6144) (hf : fetchTime place < clock) :
    (noted[place]?.join).getD ((memory.set address value).get (byteOf place)) =
      (start.replayUpTo (past ++ [⟨address, value, clock⟩]) (fetchTime place)).get (byteOf place) := by
  rw [Memory.replayUpTo_append_of_lt _ _ hf, ← shows.value place hp]
  by_cases hv : memory.get address = value
  · have hget : (memory.set address value).get (byteOf place) = memory.get (byteOf place) := by
      rw [Memory.get_set]
      split
      · rename_i heq
        rw [← heq, hv]
      · rfl
    rw [hsame hv, hget]
  · rw [hnotes hv place hp]
    by_cases hb : byteOf place = address
    · subst hb
      cases hc : cells[place]?.join with
      | some kept => simp
      | none => simp [hf]
    · rw [if_neg fun hc => hb hc.1, Memory.get_set_of_ne _ _ fun heq => hb heq.symm]

/-- A place that is still to be fetched shows memory after the write: nothing is captured, and all writes so far count. -/
theorem Shows.value_coming (shows : Shows byteOf cells memory start past clock) (hm : memory = start.replay past)
    (htimes : ∀ write ∈ past, write.time ≤ clock) {address : UInt16} {value : UInt8}
    (hram : Memory.isRom address = false)
    (hnotes : memory.get address ≠ value → Notes byteOf cells noted address (memory.get address) clock)
    (hsame : memory.get address = value → noted = cells) {place : Nat} (hp : place < 6144) (hf : ¬ fetchTime place < clock) :
    (noted[place]?.join).getD ((memory.set address value).get (byteOf place)) =
      (start.replayUpTo (past ++ [⟨address, value, clock⟩]) (fetchTime place)).get (byteOf place) := by
  have hcells : cells[place]?.join = none := by
    cases hc : cells[place]?.join with
    | some kept => exact absurd (shows.fetched place hp (by simp [hc])) hf
    | none => rfl
  have hnoted : noted[place]?.join = none := by
    by_cases hv : memory.get address = value
    · rw [hsame hv, hcells]
    · rw [hnotes hv place hp, if_neg fun hc => hf hc.2.1, hcells]
  have hall : ∀ write ∈ past ++ [⟨address, value, clock⟩], write.time ≤ fetchTime place := by
    intro write hw
    rcases List.mem_append.mp hw with hw | hw
    · have := htimes write hw
      omega
    · rw [List.mem_singleton.mp hw]
      exact Nat.le_of_not_lt hf
  have hram' : ¬ Memory.isRom address = true := by simp [hram]
  rw [hnoted, Option.getD_none, Memory.replayUpTo_of_le _ hall, Memory.replay_concat, ← hm, Memory.write, if_neg hram']

/-- A write to RAM keeps what places show, if the shadow notes it or if it changes nothing. -/
theorem Shows.write (shows : Shows byteOf cells memory start past clock) (hm : memory = start.replay past)
    (htimes : ∀ write ∈ past, write.time ≤ clock) {address : UInt16} {value : UInt8}
    (hram : Memory.isRom address = false)
    (hnotes : memory.get address ≠ value → Notes byteOf cells noted address (memory.get address) clock)
    (hsame : memory.get address = value → noted = cells) :
    Shows byteOf noted (memory.set address value) start (past ++ [⟨address, value, clock⟩]) clock := by
  refine ⟨fun place hp => ?_, fun place hp hsome => ?_⟩
  · by_cases hf : fetchTime place < clock
    · exact shows.value_fetched hnotes hsame hp hf
    · exact shows.value_coming hm htimes hram hnotes hsame hp hf
  · by_cases hv : memory.get address = value
    · rw [hsame hv] at hsome
      exact shows.fetched place hp hsome
    · rw [hnotes hv place hp] at hsome
      split at hsome
      · rename_i hc
        exact hc.2.1
      · exact shows.fetched place hp hsome

/-- A write to the ROM counts for nothing. -/
theorem Shows.writeRom (shows : Shows byteOf cells memory start past clock) {write : Write}
    (hrom : Memory.isRom write.address = true) : Shows byteOf cells memory start (past ++ [write]) clock := by
  refine ⟨fun place hp => ?_, shows.fetched⟩
  rw [shows.value place hp]
  by_cases ht : write.time ≤ fetchTime place <;>
    simp [Memory.replayUpTo, List.filter_append, Memory.replay_concat, Memory.write_of_isRom _ hrom, ht]

/-- Time alone changes nothing of what is shown. -/
theorem Shows.later (shows : Shows byteOf cells memory start past clock) {later : Nat} (h : clock ≤ later) :
    Shows byteOf cells memory start past later :=
  ⟨shows.value, fun place hp hsome => Nat.lt_of_lt_of_le (shows.fetched place hp hsome) h⟩

/-- At the start of a frame nothing is captured and memory shows. -/
theorem Shows.nothing (byteOf : Nat → UInt16) (memory : Memory) (clock : Nat) :
    Shows byteOf (Vector.replicate 6144 none) memory memory [] clock := by
  refine ⟨fun place hp => ?_, fun place hp hsome => ?_⟩
  · simp [Memory.replayUpTo, Memory.replay, hp]
  · simp [hp] at hsome

/-- A place shows the captured bitmap byte, or else the one in memory. -/
theorem shownBitmap_eq (shadow : Shadow) (memory : Memory) (place : Nat) : shadow.shownBitmap memory place =
    (shadow.bitmap[place]?.join).getD (memory.get (bitmapByte place)) := by
  unfold shownBitmap bitmapByte
  cases shadow.bitmap[place]?.join <;> rfl

/-- A place shows the captured attribute, or else the one in memory. -/
theorem shownAttribute_eq (shadow : Shadow) (memory : Memory) (place : Nat) : shadow.shownAttribute memory place =
    (shadow.attributes[place]?.join).getD (memory.get (attributeByte place)) := by
  unfold shownAttribute attributeByte
  cases shadow.attributes[place]?.join <;> rfl

/-- The flash phase is bit 4 of the frame number. -/
theorem flashPhase_eq_testBit (frame : UInt32) : flashPhase frame = frame.toNat.testBit 4 := by
  have hand := and_field frame.toNat 4 1
  rw [Bool.eq_iff_iff, flashPhase, bne_iff_ne, Ne, ← UInt32.toNat_inj, UInt32.toNat_and, Nat.testBit_eq_decide_div_mod_eq,
    decide_eq_true_iff]
  change ¬ frame.toNat &&& (2 ^ 1 - 1) * 2 ^ 4 = 0 ↔ _
  rw [hand]
  omega

end Ula.Shadow

/-! ## The frame -/

open Ula Ula.Shadow

/-- What holds of the board in the course of a frame that began as `start`, after the writes `past`. -/
structure Race (start : Board) (past : List Write) (board : Board) : Prop where
  memory : board.memory = start.memory.replay past
  times : ∀ write ∈ past, write.time ≤ board.clock
  frame : board.shadow.frame = start.shadow.frame
  accurate : board.shadow.accurate = start.shadow.accurate
  bitmap : start.shadow.accurate = true →
    Shows bitmapByte board.shadow.bitmap board.memory start.memory past board.clock
  attributes : start.shadow.accurate = true →
    Shows attributeByte board.shadow.attributes board.memory start.memory past board.clock
  plain : start.shadow.accurate = false →
    board.shadow.bitmap = Vector.replicate 6144 none ∧ board.shadow.attributes = Vector.replicate 6144 none

namespace Race

variable {start board later : Board} {past : List Write}

theorem beginFrame (board : Board) : Race board.beginFrame [] board.beginFrame where
  memory := rfl
  times _ hw := absurd hw List.not_mem_nil
  frame := rfl
  accurate := rfl
  bitmap _ := Shows.nothing _ _ _
  attributes _ := Shows.nothing _ _ _
  plain _ := ⟨rfl, rfl⟩

/-- A cycle that writes nothing keeps the invariant. -/
theorem waits (race : Race start past board) (h : board.Waits later) : Race start past later where
  memory := h.memory.trans race.memory
  times write hw := Nat.le_trans (race.times write hw) h.clock
  frame := by rw [h.shadow, race.frame]
  accurate := by rw [h.shadow, race.accurate]
  bitmap ha := by
    rw [h.shadow, h.memory]
    exact (race.bitmap ha).later h.clock
  attributes ha := by
    rw [h.shadow, h.memory]
    exact (race.attributes ha).later h.clock
  plain ha := by
    rw [h.shadow]
    exact race.plain ha

/-- A write keeps the invariant, with one write more. -/
theorem poke (race : Race start past board) (address : UInt16) (value : UInt8) :
    Race start (past ++ [⟨address, value, board.clock⟩]) (board.poke address value) := by
  have htimes : ∀ write ∈ past ++ [⟨address, value, board.clock⟩], write.time ≤ board.clock := by
    intro write hw
    rcases List.mem_append.mp hw with hw | hw
    · exact race.times write hw
    · obtain rfl := List.mem_singleton.mp hw
      exact Nat.le_refl board.clock
  by_cases hrom : Memory.isRom address = true
  · have hpoke : board.poke address value = board := by
      unfold Board.poke
      rw [if_pos hrom]
    rw [hpoke]
    refine ⟨?_, htimes, race.frame, race.accurate, fun ha => (race.bitmap ha).writeRom hrom,
      fun ha => (race.attributes ha).writeRom hrom, race.plain⟩
    rw [race.memory, Memory.replay_concat, Memory.write_of_isRom _ hrom]
  · have hram : Memory.isRom address = false := by simpa using hrom
    have hpoke : board.poke address value = { board with
        memory := board.memory.set address value
        shadow := if board.memory.get address != value then
          board.shadow.noteWrite address (board.memory.get address) board.clock else board.shadow } := by
      unfold Board.poke
      rw [if_neg hrom]
    have hmemory : board.memory.set address value =
        start.memory.replay (past ++ [⟨address, value, board.clock⟩]) := by
      rw [Memory.replay_concat, ← race.memory, Memory.write, if_neg hrom]
    have hnoted := noteWrite_frame board.shadow address (board.memory.get address) board.clock
    rw [hpoke]
    by_cases hv : board.memory.get address = value
    · have hshadow : (board.memory.get address != value) = false := by simp [hv]
      rw [hshadow]
      refine ⟨hmemory, htimes, race.frame, race.accurate, fun ha => ?_, fun ha => ?_, race.plain⟩
      · exact (race.bitmap ha).write race.memory race.times hram (fun hne => absurd hv hne) fun _ => rfl
      · exact (race.attributes ha).write race.memory race.times hram (fun hne => absurd hv hne) fun _ => rfl
    · have hshadow : (board.memory.get address != value) = true := by simp [hv]
      rw [hshadow]
      refine ⟨hmemory, htimes, hnoted.1.trans race.frame, hnoted.2.trans race.accurate, fun ha => ?_, fun ha => ?_,
        fun ha => ?_⟩
      · exact (race.bitmap ha).write race.memory race.times hram
          (fun _ => notes_bitmap _ _ _ _ (race.accurate.trans ha)) fun heq => absurd heq hv
      · exact (race.attributes ha).write race.memory race.times hram
          (fun _ => notes_attributes _ _ _ _ (race.accurate.trans ha)) fun heq => absurd heq hv
      · have hplain := noteWrite_plain board.shadow address (board.memory.get address) board.clock (race.accurate.trans ha)
        exact ⟨hplain.1.trans (race.plain ha).1, hplain.2.trans (race.plain ha).2⟩

/-- A program keeps the invariant, with its writes added to those before. -/
theorem run {α : Type} (program : BusProgram α) : ∀ {past : List Write} {board : Board}, Race start past board →
    Race start (past ++ program.writes board) (program.run board).2 := by
  induction program with
  | done result =>
    intro past board race
    rw [BusProgram.writes, List.append_nil]
    exact race
  | idle time next ih => exact fun race => ih (race.waits (Board.waits_idle time _))
  | contend address time next ih => exact fun race => ih (race.waits (Board.waits_contend address time _))
  | peek address next ih => exact fun race => ih _ race
  | poke address value next ih =>
    intro past board race
    have hpoke := ih (race.poke address value)
    rw [List.append_assoc] at hpoke
    exact hpoke
  | input port next ih => exact fun race => ih _ (race.waits (Board.waits_input port _))
  | output port value next ih => exact fun race => ih (race.waits (Board.waits_output port value _))

end Race

/-- Memory at the end is what the writes of the program make of memory at the start. -/
theorem Board.memory_run {α : Type} (board : Board) (program : BusProgram α) :
    (program.run board.beginFrame).2.memory = board.memory.replay (program.writes board.beginFrame) :=
  ((Race.beginFrame board).run program).memory

/-- A frame shows every byte as it was when it was fetched. Whatever a program does on the bus from the beginning of a frame
on, the picture has in row `row` and column `column` the bitmap byte and the colours of the attribute that memory had there
after exactly those writes that ended by the time of the fetch; with accuracy off, those that memory has in the end, after all of
them (`Board.memory_run`). Bit 4 of the frame number is the flash phase. -/
theorem Board.composeScreen_run {α : Type} (board : Board) (program : BusProgram α) (diff : Bool) :
    let ended := (program.run board.beginFrame).2
    let image := ended.composeScreen diff
    image.flash = (board.shadow.frame + 1).toNat.testBit 4 ∧
      ∀ (row : Fin 192) (column : Fin 32),
        let x := UInt8.ofNat (8 * column)
        let y := UInt8.ofNat row
        let shown :=
          if board.shadow.accurate then board.memory.replayUpTo (program.writes board.beginFrame) (sampleTime x y)
          else ended.memory
        image.bitmap[row.val * 32 + column.val] = shown.get (bitmapAddress x y) ∧
          image.colours[row.val * 32 + column.val] = inkPaper (shown.get (attributeAddress x y)) image.flash := by
  intro ended image
  have race : Race board.beginFrame (program.writes board.beginFrame) ended := (Race.beginFrame board).run program
  have hflash : image.flash = flashPhase ended.shadow.frame := rfl
  refine ⟨?_, fun row column => ?_⟩
  · rw [hflash, race.frame, flashPhase_eq_testBit]
    rfl
  · intro x y shown
    have hplace : row.val * 32 + column.val < 6144 := by omega
    have hpixel : pixelAt (row.val * 32 + column.val) = (x, y) := by
      rw [pixelAt_row_column column.isLt, Nat.mul_comm]
    have hbitmap : bitmapByte (row.val * 32 + column.val) = bitmapAddress x y := by rw [bitmapByte, hpixel]
    have hattribute : attributeByte (row.val * 32 + column.val) = attributeAddress x y := by rw [attributeByte, hpixel]
    have htime : fetchTime (row.val * 32 + column.val) = sampleTime x y := by rw [fetchTime, hpixel]
    have hb : image.bitmap[row.val * 32 + column.val] =
        ended.shadow.shownBitmap ended.memory (row.val * 32 + column.val) := by
      simp [image, Board.composeScreen, compose]
    have hc : image.colours[row.val * 32 + column.val] =
        inkPaper (ended.shadow.shownAttribute ended.memory (row.val * 32 + column.val)) image.flash := by
      simp [image, Board.composeScreen, compose]
    rw [hb, hc, shownBitmap_eq, shownAttribute_eq]
    by_cases ha : board.shadow.accurate = true
    · have hshown : shown = board.memory.replayUpTo (program.writes board.beginFrame) (sampleTime x y) := if_pos ha
      rw [(race.bitmap ha).value _ hplace, (race.attributes ha).value _ hplace, hbitmap, hattribute, htime, hshown]
      exact ⟨rfl, rfl⟩
    · have hshown : shown = ended.memory := if_neg ha
      have hplain : board.beginFrame.shadow.accurate = false := eq_false_of_ne_true ha
      obtain ⟨hnone, hnone'⟩ := race.plain hplain
      rw [hnone, hnone', hbitmap, hattribute, hshown]
      simp [hplace]

end ZxSpectrum
