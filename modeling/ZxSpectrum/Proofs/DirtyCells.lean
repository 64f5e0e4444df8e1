import ZxSpectrum.Proofs.FramePrograms
import ZxSpectrum.Proofs.ScreenRace

/-!
# Dirty cells

A frame draws a cell from nine bytes (`bytesOfCell`). The shadow marks the cell when one of them changes, and captures
nothing else (`Marks.run`). `dirty_renderFrame_iff` says why a cell is dirty in a frame, and `agreeOn_renderFrame` that a
cell that is not looks as it looked in the frame before.
-/

namespace ZxSpectrum

open Ula Ula.Shadow

namespace Ula

/-! ## The bytes of a cell -/

theorem cellOfPlace_lt {place : Nat} (h : place < 6144) : cellOfPlace place < 768 := by
  unfold cellOfPlace columns
  omega

/-- The nine bytes from which a cell is drawn: eight of the bitmap and its attribute. -/
def bytesOfCell (cell : Nat) : List UInt16 :=
  (placesOfCell cell).map bitmapByte ++ [attributeBase + UInt16.ofNat cell]

/-- The attribute of a cell. -/
theorem attributeByte_eq {place : Nat} (h : place < 6144) :
    attributeByte place = attributeBase + UInt16.ofNat (cellOfPlace place) := by
  have hcell := cellOfPlace_lt h
  have hbase : attributeBase.toNat = 0x5800 := rfl
  apply UInt16.toNat_inj.mp
  rw [toNat_attributeByte h, UInt16.toNat_add, UInt16.toNat_ofNat', hbase]
  omega

/-- The bytes of the places of a cell are the bytes of the cell. -/
theorem bytes_of_place {place : Nat} (h : place < 6144) :
    bitmapByte place ∈ bytesOfCell (cellOfPlace place) ∧ attributeByte place ∈ bytesOfCell (cellOfPlace place) := by
  have hplace : place ∈ placesOfCell (cellOfPlace place) := (mem_placesOfCell_iff (cellOfPlace_lt h)).mpr ⟨h, rfl⟩
  refine ⟨List.mem_append_left _ (List.mem_map_of_mem hplace), ?_⟩
  rw [attributeByte_eq h]
  exact List.mem_append_right _ (List.mem_singleton_self _)

/-- The attribute of a cell lies among the attributes. -/
theorem isAttribute_of_cell {cell : Nat} (h : cell < 768) : isAttribute (attributeBase + UInt16.ofNat cell) = true ∧
    (attributeBase + UInt16.ofNat cell - attributeBase).toNat = cell := by
  have hbase : attributeBase.toNat = 0x5800 := rfl
  have hsum : (attributeBase + UInt16.ofNat cell).toNat = 0x5800 + cell := by
    rw [UInt16.toNat_add, UInt16.toNat_ofNat', hbase]
    omega
  have hattribute : isAttribute (attributeBase + UInt16.ofNat cell) = true := by
    rw [isAttribute_iff, hsum]
    omega
  refine ⟨hattribute, ?_⟩
  rw [toNat_sub_attributeBase hattribute, hsum, Nat.add_sub_cancel_left]

/-- A bitmap byte belongs to the cell of its place. -/
theorem mem_bytesOfCell_of_isBitmap {address : UInt16} (h : isBitmap address = true) {cell : Nat} (hc : cell < 768) :
    address ∈ bytesOfCell cell ↔ cellOfPlace (placeOf address) = cell := by
  obtain ⟨hplace, hbyte⟩ := bitmapByte_placeOf h
  constructor
  · intro hmem
    rcases List.mem_append.mp hmem with hmem | hmem
    · obtain ⟨place, hp, rfl⟩ := List.mem_map.mp hmem
      obtain ⟨hlt, hcell⟩ := (mem_placesOfCell_iff hc).mp hp
      rw [placeOf_bitmapByte hlt, hcell]
    · rw [List.mem_singleton.mp hmem] at h
      have hattribute := isAttribute_eq_false_of_isBitmap h
      rw [(isAttribute_of_cell hc).1] at hattribute
      exact absurd hattribute.symm Bool.false_ne_true
  · rintro rfl
    have hmem := (bytes_of_place hplace).1
    rwa [hbyte] at hmem

/-- An attribute belongs to its cell. -/
theorem mem_bytesOfCell_of_isAttribute {address : UInt16} (h : isAttribute address = true) {cell : Nat} (hc : cell < 768) :
    address ∈ bytesOfCell cell ↔ (address - attributeBase).toNat = cell := by
  constructor
  · intro hmem
    rcases List.mem_append.mp hmem with hmem | hmem
    · obtain ⟨place, hp, rfl⟩ := List.mem_map.mp hmem
      have hbitmap := isBitmap_bitmapByte ((mem_placesOfCell_iff hc).mp hp).1
      rw [isAttribute_eq_false_of_isBitmap hbitmap] at h
      exact absurd h Bool.false_ne_true
    · rw [List.mem_singleton.mp hmem]
      exact (isAttribute_of_cell hc).2
  · rintro rfl
    have hback : attributeBase + UInt16.ofNat (address - attributeBase).toNat = address := by
      rw [UInt16.ofNat_toNat, UInt16.add_comm, UInt16.sub_add_cancel]
    refine List.mem_append_right _ ?_
    rw [hback]
    exact List.mem_singleton_self _

/-- The bytes of a cell are bytes of the screen. -/
theorem isScreen_of_mem_bytesOfCell {address : UInt16} {cell : Nat} (hc : cell < 768) (h : address ∈ bytesOfCell cell) :
    isBitmap address = true ∨ isAttribute address = true := by
  rcases List.mem_append.mp h with h | h
  · obtain ⟨place, hp, rfl⟩ := List.mem_map.mp h
    exact Or.inl (isBitmap_bitmapByte ((mem_placesOfCell_iff hc).mp hp).1)
  · rw [List.mem_singleton.mp h]
    exact Or.inr (isAttribute_of_cell hc).1

theorem cellOfPixel_bitmapPixel (address : UInt16) :
    cellOfPixel (bitmapPixel address).1 (bitmapPixel address).2 = cellOfPlace (placeOf address) := by
  have hx := (bitmapPixel address).1.toNat_lt
  unfold cellOfPixel cellOfPlace placeOf placeOfPixel columns
  omega

namespace Shadow

/-- The shadow marks the cell to which a byte belongs. -/
theorem dirty_noteWrite (shadow : Shadow) (address : UInt16) (old : UInt8) (time : Nat) {cell : Nat} (hc : cell < 768) :
    (shadow.noteWrite address old time).dirty[cell] = true ↔
      shadow.dirty[cell] = true ∨ address ∈ bytesOfCell cell := by
  unfold noteWrite
  by_cases hb : isBitmap address = true
  · have hdirty : (shadow.bitmapWrite address old time).dirty =
        shadow.dirty.setIfInBounds (cellOfPlace (placeOf address)) true := by
      cases shadow
      simp only [bitmapWrite, cellOfPixel_bitmapPixel]
      split <;> rfl
    rw [if_pos hb, mem_bytesOfCell_of_isBitmap hb hc]
    simp only [hdirty, Vector.getElem_setIfInBounds]
    split <;> simp_all
  · rw [if_neg hb]
    by_cases ha : isAttribute address = true
    · have hdirty : (shadow.attributeWrite address old time).dirty =
          shadow.dirty.setIfInBounds (address - attributeBase).toNat true := by
        cases shadow
        simp only [attributeWrite]
        split <;> rfl
      rw [if_pos ha, mem_bytesOfCell_of_isAttribute ha hc]
      simp only [hdirty, Vector.getElem_setIfInBounds]
      split <;> simp_all
    · have hout : address ∉ bytesOfCell cell := fun hmem =>
        (isScreen_of_mem_bytesOfCell hc hmem).elim hb ha
      rw [if_neg ha]
      simp [hout]

end Shadow

end Ula

/-! ## Programs -/

/-- The addresses of RAM at which a program changes the byte, in order. -/
def BusProgram.changes {α : Type} : BusProgram α → Board → List UInt16
  | .done _, _ => []
  | .idle time next, board => next.changes (Bus.idle time board)
  | .contend address time next, board => next.changes (Bus.contend address time board)
  | .peek address next, board => (next (Bus.peek address board)).changes board
  | .poke address value next, board =>
    (if Memory.isRom address || board.memory.get address == value then [] else [address]) ++
      next.changes (Bus.poke address value board)
  | .input port next, board => (next (Bus.input port board).1).changes (Bus.input port board).2
  | .output port value next, board => next.changes (Bus.output port value board)

/-- What holds of the board in the course of a frame that began as `start`, after the bytes `changed` have been: exactly their
cells have become dirty, only they have been captured, and the others are as they were. -/
structure Marks (start : Board) (changed : List UInt16) (board : Board) : Prop where
  frame : board.shadow.frame = start.shadow.frame
  dirty : ∀ cell (h : cell < 768), board.shadow.dirty[cell] = true ↔
    start.shadow.dirty[cell] = true ∨ ∃ address ∈ changed, address ∈ bytesOfCell cell
  bitmap : ∀ place < 6144, (board.shadow.bitmap[place]?.join).isSome → bitmapByte place ∈ changed
  attributes : ∀ place < 6144, (board.shadow.attributes[place]?.join).isSome → attributeByte place ∈ changed
  memory : ∀ address, address ∉ changed → board.memory.get address = start.memory.get address

namespace Marks

variable {start board later : Board} {changed : List UInt16}

theorem beginFrame (board : Board) : Marks board.beginFrame [] board.beginFrame where
  frame := rfl
  dirty cell h := by simp
  bitmap place hp hsome := by
    have hnone : board.beginFrame.shadow.bitmap = Vector.replicate 6144 none := rfl
    simp [hnone, hp] at hsome
  attributes place hp hsome := by
    have hnone : board.beginFrame.shadow.attributes = Vector.replicate 6144 none := rfl
    simp [hnone, hp] at hsome
  memory _ _ := rfl

/-- A cycle that writes nothing keeps the invariant. -/
theorem waits (marks : Marks start changed board) (h : board.Waits later) : Marks start changed later where
  frame := by rw [h.shadow, marks.frame]
  dirty cell hc := by
    rw [h.shadow]
    exact marks.dirty cell hc
  bitmap := by
    rw [h.shadow]
    exact marks.bitmap
  attributes := by
    rw [h.shadow]
    exact marks.attributes
  memory := by
    rw [h.memory]
    exact marks.memory

/-- Captured values after a write are values captured before, or the written byte's. -/
theorem isSome_of_notes {byteOf : Nat → UInt16} {cells noted : Vector (Option UInt8) 6144} {address : UInt16} {old : UInt8}
    {time : Nat} (notes : Notes byteOf cells noted address old time) {place : Nat} (hp : place < 6144)
    (hsome : (noted[place]?.join).isSome) : (cells[place]?.join).isSome ∨ byteOf place = address := by
  rw [notes place hp] at hsome
  split at hsome
  · rename_i h
    exact Or.inr h.1
  · exact Or.inl hsome

/-- What the shadow captures of a write. -/
theorem isSome_noteWrite (shadow : Shadow) (address : UInt16) (old : UInt8) (time : Nat) {place : Nat} (hp : place < 6144) :
    (((shadow.noteWrite address old time).bitmap[place]?.join).isSome →
      (shadow.bitmap[place]?.join).isSome ∨ bitmapByte place = address) ∧
    (((shadow.noteWrite address old time).attributes[place]?.join).isSome →
      (shadow.attributes[place]?.join).isSome ∨ attributeByte place = address) := by
  by_cases ha : shadow.accurate = true
  · exact ⟨isSome_of_notes (notes_bitmap shadow address old time ha) hp,
      isSome_of_notes (notes_attributes shadow address old time ha) hp⟩
  · obtain ⟨hbitmap, hattributes⟩ := noteWrite_plain shadow address old time (eq_false_of_ne_true ha)
    rw [hbitmap, hattributes]
    exact ⟨Or.inl, Or.inl⟩

/-- A write that changes a byte marks its cell. -/
theorem change (marks : Marks start changed board) {address : UInt16} {value : UInt8}
    (hpoke : board.poke address value = { board with
      memory := board.memory.set address value
      shadow := board.shadow.noteWrite address (board.memory.get address) board.clock }) :
    Marks start (changed ++ [address]) (board.poke address value) := by
  have hmem : address ∈ changed ++ [address] := List.mem_append_right _ (List.mem_singleton_self _)
  rw [hpoke]
  refine ⟨?_, fun cell hc => ?_, fun place hp hsome => ?_, fun place hp hsome => ?_, fun other ho => ?_⟩
  · exact (noteWrite_frame board.shadow address _ _).1.trans marks.frame
  · rw [dirty_noteWrite _ _ _ _ hc, marks.dirty cell hc]
    simp only [List.mem_append, List.mem_singleton, or_and_right, exists_or, exists_eq_left, or_assoc]
  · rcases (isSome_noteWrite board.shadow address _ _ hp).1 hsome with h | h
    · exact List.mem_append_left _ (marks.bitmap place hp h)
    · rw [h]
      exact hmem
  · rcases (isSome_noteWrite board.shadow address _ _ hp).2 hsome with h | h
    · exact List.mem_append_left _ (marks.attributes place hp h)
    · rw [h]
      exact hmem
  · have hne : address ≠ other := fun heq => ho (heq ▸ hmem)
    change (board.memory.set address value).get other = _
    rw [Memory.get_set_of_ne _ _ hne]
    exact marks.memory other fun hin => ho (List.mem_append_left _ hin)

/-- A write that changes nothing keeps the invariant. -/
theorem keep (marks : Marks start changed board) {address : UInt16} {value : UInt8}
    (h : (Memory.isRom address || board.memory.get address == value) = true) :
    Marks start changed (board.poke address value) := by
  have hmemory : (board.poke address value).memory = board.memory := by
    rw [Board.memory_poke, Memory.write]
    split
    · rfl
    · rename_i hrom
      have hvalue : board.memory.get address = value := by
        rw [Bool.or_eq_true, beq_iff_eq] at h
        exact h.resolve_left hrom
      ext other
      rw [Memory.get_set]
      split
      · rename_i heq
        rw [← heq, hvalue]
      · rfl
  have hshadow : (board.poke address value).shadow = board.shadow := by
    unfold Board.poke
    split
    · rfl
    · rename_i hrom
      have hvalue : board.memory.get address = value := by
        rw [Bool.or_eq_true, beq_iff_eq] at h
        exact h.resolve_left hrom
      simp [hvalue]
  exact marks.waits ⟨hmemory, hshadow, Nat.le_of_eq (Board.clock_poke address value board).1.symm⟩

theorem poke (marks : Marks start changed board) (address : UInt16) (value : UInt8) :
    Marks start (changed ++ if Memory.isRom address || board.memory.get address == value then [] else [address])
      (board.poke address value) := by
  by_cases h : (Memory.isRom address || board.memory.get address == value) = true
  · rw [if_pos h, List.append_nil]
    exact marks.keep h
  · rw [if_neg h]
    obtain ⟨hrom, hvalue⟩ := not_or.mp (mt Bool.or_eq_true_iff.mpr h)
    have hchanged : (board.memory.get address != value) = true := by simpa using hvalue
    refine marks.change ?_
    simp only [Board.poke, if_neg hrom, if_pos hchanged]

/-- A program marks the cells of the bytes that it changes. -/
theorem run {α : Type} (program : BusProgram α) : ∀ {changed : List UInt16} {board : Board},
    Marks start changed board → Marks start (changed ++ program.changes board) (program.run board).2 := by
  induction program with
  | done result =>
    intro changed board marks
    rw [BusProgram.changes, List.append_nil]
    exact marks
  | idle time next ih => exact fun marks => ih (marks.waits (Board.waits_idle time _))
  | contend address time next ih => exact fun marks => ih (marks.waits (Board.waits_contend address time _))
  | peek address next ih => exact fun marks => ih _ marks
  | poke address value next ih =>
    intro changed board marks
    have hpoke := ih (marks.poke address value)
    rw [List.append_assoc] at hpoke
    exact hpoke
  | input port next ih => exact fun marks => ih _ (marks.waits (Board.waits_input port _))
  | output port value next ih => exact fun marks => ih (marks.waits (Board.waits_output port value _))

end Marks

/-! ## Frames -/

/-- A picture as a display keeps it. -/
structure Ula.Picture where
  bitmap : Vector UInt8 6144
  colours : Vector UInt8 6144

/-- All that a frame shows, dirty or not. -/
def Ula.ScreenImage.picture (image : ScreenImage) : Picture := { bitmap := image.bitmap, colours := image.colours }

/-- Two pictures look the same in a cell. -/
def Ula.Picture.AgreeOn (cell : Nat) (picture other : Picture) : Prop :=
  ∀ place (h : place < 6144), cellOfPlace place = cell →
    picture.bitmap[place] = other.bitmap[place] ∧ picture.colours[place] = other.colours[place]

/-- Whether the flash phase is another one than in the frame before. -/
def Ula.Shadow.flips (shadow : Shadow) : Bool := flashPhase shadow.frame != flashPhase (shadow.frame - 1)

/-- Colours depend on the flash phase only where an attribute flashes. -/
theorem Ula.inkPaper_of_not_flashing {byte : UInt8} (h : (byte &&& 0x80 != 0) = false) (flash other : Bool) :
    inkPaper byte flash = inkPaper byte other := by
  simp only [inkPaper, h, Bool.and_false]

namespace Machine

variable {machine : Machine} {cell : Nat}

/-- The bytes of RAM that the processor changes in the next frame, in order. -/
def changes (machine : Machine) : List UInt16 := machine.frameProgram.changes machine.opened

/-- What the machine shows. -/
def picture (machine : Machine) : Picture := (machine.board.composeScreen true).picture

theorem marks_renderFrame (machine : Machine) : Marks machine.opened machine.changes machine.renderFrame.board := by
  have marks : Marks machine.opened [] machine.opened :=
    { Marks.beginFrame machine.board with }
  have hrun := marks.run machine.frameProgram
  rw [List.nil_append, run_frameProgram] at hrun
  exact { hrun with }

theorem frame_renderFrame (machine : Machine) :
    machine.renderFrame.board.shadow.frame = machine.board.shadow.frame + 1 :=
  (marks_renderFrame machine).frame

/-- Whether a cell shows a flashing attribute. -/
def showsFlash (machine : Machine) (cell : Nat) : Bool := machine.board.shadow.showsFlash machine.board.memory cell

/-- Why a cell is dirty: the frame is the first one, the cell showed a captured value in the frame before, one of its bytes
changes, or it flashes. -/
theorem dirty_renderFrame_iff (machine : Machine) {cell : Nat} (hc : cell < 768) :
    (machine.renderFrame.board.composeScreen true).dirty[cell] = true ↔
      machine.renderFrame.board.shadow.frame = 1 ∨ machine.board.shadow.showsCapture cell = true ∨
        (∃ address ∈ machine.changes, address ∈ bytesOfCell cell) ∨
          (machine.renderFrame.board.shadow.flips = true ∧ machine.renderFrame.showsFlash cell = true) := by
  have hopened : machine.opened.shadow.dirty[cell] = true ↔
      machine.renderFrame.board.shadow.frame = 1 ∨ machine.board.shadow.showsCapture cell = true := by
    have hdirty : machine.opened.shadow.dirty[cell] =
        (machine.board.shadow.frame + 1 == 1 || machine.board.shadow.showsCapture cell) := Vector.getElem_ofFn hc
    rw [hdirty, frame_renderFrame, Bool.or_eq_true, beq_iff_eq]
  have hcompose : (machine.renderFrame.board.composeScreen true).dirty[cell] =
      (!true || machine.renderFrame.board.shadow.dirty[cell] ||
        (machine.renderFrame.board.shadow.flips && machine.renderFrame.showsFlash cell)) := Vector.getElem_ofFn hc
  rw [hcompose, Bool.not_true, Bool.false_or, Bool.or_eq_true, Bool.and_eq_true,
    (marks_renderFrame machine).dirty cell hc, hopened, or_assoc, or_assoc]

/-- A place shows no captured value where its cell shows none. -/
theorem join_eq_none_of_showsCapture {shadow : Shadow} (hc : cell < 768) (h : shadow.showsCapture cell = false) {place : Nat}
    (hp : place < 6144) (hcell : cellOfPlace place = cell) :
    shadow.bitmap[place]?.join = none ∧ shadow.attributes[place]?.join = none := by
  have hnone := List.any_eq_false.mp h place ((mem_placesOfCell_iff hc).mpr ⟨hp, hcell⟩)
  simpa using hnone

/-- A cell without changes shows its bytes as they were when the frame began. -/
theorem shown_of_unchanged {start board : Board} {changed : List UInt16} (marks : Marks start changed board)
    (h : ∀ address ∈ changed, address ∉ bytesOfCell cell) {place : Nat} (hp : place < 6144)
    (hcell : cellOfPlace place = cell) :
    board.shadow.shownBitmap board.memory place = start.memory.get (bitmapByte place) ∧
      board.shadow.shownAttribute board.memory place = start.memory.get (attributeByte place) := by
  obtain ⟨hbitmap, hattribute⟩ := bytes_of_place hp
  rw [hcell] at hbitmap hattribute
  have hb : bitmapByte place ∉ changed := fun hin => h _ hin hbitmap
  have ha : attributeByte place ∉ changed := fun hin => h _ hin hattribute
  have hbnone : board.shadow.bitmap[place]?.join = none := by
    simpa using mt (marks.bitmap place hp) hb
  have hanone : board.shadow.attributes[place]?.join = none := by
    simpa using mt (marks.attributes place hp) ha
  rw [shownBitmap_eq, shownAttribute_eq, hbnone, hanone, Option.getD_none, Option.getD_none, marks.memory _ hb,
    marks.memory _ ha]
  exact ⟨rfl, rfl⟩

/-- What a place of a picture shows. -/
theorem picture_getElem (machine : Machine) {place : Nat} (hp : place < 6144) :
    machine.picture.bitmap[place] = machine.board.shadow.shownBitmap machine.board.memory place ∧
      machine.picture.colours[place] = inkPaper (machine.board.shadow.shownAttribute machine.board.memory place)
        (flashPhase machine.board.shadow.frame) := by
  simp [picture, ScreenImage.picture, Board.composeScreen, compose]

/-- An attribute shows in the same colours in two frames in a row, unless it flashes and the phase flips between them. -/
theorem inkPaper_renderFrame (machine : Machine) {byte : UInt8}
    (h : machine.renderFrame.board.shadow.flips = true → (byte &&& 0x80 != 0) = false) :
    inkPaper byte (flashPhase machine.board.shadow.frame) =
      inkPaper byte (flashPhase machine.renderFrame.board.shadow.frame) := by
  by_cases hflips : machine.renderFrame.board.shadow.flips = true
  · exact inkPaper_of_not_flashing (h hflips) _ _
  · have hsame : flashPhase machine.renderFrame.board.shadow.frame =
        flashPhase (machine.renderFrame.board.shadow.frame - 1) := by
      simpa [flips] using hflips
    rw [hsame, frame_renderFrame, UInt32.add_sub_cancel]

/-- What is not dirty looks as it looked in the frame before. -/
theorem agreeOn_renderFrame (hc : cell < 768)
    (hclean : (machine.renderFrame.board.composeScreen true).dirty[cell] = false) :
    machine.picture.AgreeOn cell machine.renderFrame.picture := by
  have hcauses := mt (dirty_renderFrame_iff machine hc).mpr (Bool.eq_false_iff.mp hclean)
  simp only [not_or, not_exists, not_and] at hcauses
  obtain ⟨-, hcapture, hchanges, hflash⟩ := hcauses
  intro place hp hcell
  obtain ⟨hbnone, hanone⟩ := join_eq_none_of_showsCapture hc (Bool.eq_false_iff.mpr hcapture) hp hcell
  have hbefore : machine.board.shadow.shownBitmap machine.board.memory place =
      machine.board.memory.get (bitmapByte place) := by
    rw [shownBitmap_eq, hbnone, Option.getD_none]
  have hbefore' : machine.board.shadow.shownAttribute machine.board.memory place =
      machine.board.memory.get (attributeByte place) := by
    rw [shownAttribute_eq, hanone, Option.getD_none]
  obtain ⟨hbitmap, hattribute⟩ := shown_of_unchanged (marks_renderFrame machine) hchanges hp hcell
  rw [(picture_getElem machine hp).1, (picture_getElem machine hp).2, (picture_getElem machine.renderFrame hp).1,
    (picture_getElem machine.renderFrame hp).2, hbefore, hbefore', hbitmap, hattribute]
  refine ⟨rfl, inkPaper_renderFrame machine fun hflips => ?_⟩
  have hnone := List.any_eq_false.mp (Bool.eq_false_iff.mpr (hflash hflips)) place
    ((mem_placesOfCell_iff hc).mpr ⟨hp, hcell⟩)
  rw [hattribute] at hnone
  exact Bool.eq_false_iff.mpr hnone

/-- A cell that shows a captured value had a byte changed in the frame. -/
theorem change_of_showsCapture (hc : cell < 768) (h : machine.renderFrame.board.shadow.showsCapture cell = true) :
    ∃ address ∈ machine.changes, address ∈ bytesOfCell cell := by
  obtain ⟨place, hplace, hsome⟩ := List.any_eq_true.mp h
  obtain ⟨hp, rfl⟩ := (mem_placesOfCell_iff hc).mp hplace
  obtain ⟨hbitmap, hattribute⟩ := bytes_of_place hp
  rcases Bool.or_eq_true_iff.mp hsome with hsome | hsome
  · exact ⟨_, (marks_renderFrame machine).bitmap place hp hsome, hbitmap⟩
  · exact ⟨_, (marks_renderFrame machine).attributes place hp hsome, hattribute⟩

end Machine

end ZxSpectrum
