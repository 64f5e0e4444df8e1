import ZxSpectrum.Snapshot.Z80

/-!
# Compressed byte strings

A byte string has many compressions: any mixture of literal bytes and of blocks `ED ED count value`, where no second `ED`
follows a literal one (`Compresses`). Expanding gives the byte string back, whichever was chosen (`Compresses.expand`).
-/

namespace ZxSpectrum.Z80

/-- The first byte string is a compression of the second. -/
inductive Compresses : List UInt8 → List UInt8 → Prop where
  | nil : Compresses [] []
  | literal {byte : UInt8} {stream bytes : List UInt8} (alone : byte = 0xED → stream.head? ≠ some 0xED)
      (rest : Compresses stream bytes) : Compresses (byte :: stream) (byte :: bytes)
  | block {count value : UInt8} {stream bytes : List UInt8} (positive : count ≠ 0) (rest : Compresses stream bytes) :
      Compresses (0xED :: 0xED :: count :: value :: stream) (List.replicate count.toNat value ++ bytes)

/-- A byte with which no block begins is taken as it is. -/
theorem decompressOnto_literal (expanded : List UInt8) {byte : UInt8} {stream : List UInt8}
    (alone : byte = 0xED → stream.head? ≠ some 0xED) :
    decompressOnto expanded (byte :: stream) = decompressOnto (byte :: expanded) stream := by
  rw [decompressOnto]
  rintro count value rest rfl rfl
  exact alone rfl rfl

/-- Expanding puts the bytes behind what has been expanded before. -/
theorem Compresses.expandOnto {stream bytes : List UInt8} (compresses : Compresses stream bytes) :
    ∀ expanded, decompressOnto expanded stream = bytes.reverse ++ expanded := by
  induction compresses with
  | nil => exact fun expanded => rfl
  | literal alone rest ih =>
    intro expanded
    rw [decompressOnto_literal expanded alone, ih, List.reverse_cons, List.append_assoc]
    rfl
  | block positive rest ih =>
    intro expanded
    rw [decompressOnto, ih, List.reverse_append, List.reverse_replicate, List.append_assoc]

/-- Expanding undoes every compression. -/
theorem Compresses.expand {stream bytes : List UInt8} (compresses : Compresses stream bytes) :
    decompress stream = bytes := by
  rw [decompress, compresses.expandOnto, List.append_nil, List.reverse_reverse]

/-- A byte string can be compressed by blocks of one and the same byte. -/
theorem compresses_blocks {count : UInt8} (value : UInt8) (positive : count ≠ 0) {stream bytes : List UInt8}
    (rest : Compresses stream bytes) (blocks : Nat) :
    Compresses ((List.replicate blocks [0xED, 0xED, count, value]).flatten ++ stream)
      (List.replicate (blocks * count.toNat) value ++ bytes) := by
  induction blocks with
  | zero => simpa using rest
  | succ blocks ih =>
    have hmore : Compresses _ (List.replicate count.toNat value ++ _) := ih.block positive
    rw [← List.append_assoc, List.replicate_append_replicate, Nat.add_comm, ← Nat.succ_mul] at hmore
    exact hmore

end ZxSpectrum.Z80
