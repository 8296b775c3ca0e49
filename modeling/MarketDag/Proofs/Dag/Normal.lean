import MarketDag.Proofs.Cbor.Normal
import MarketDag.Proofs.Dag.Block
import MarketDag.Proofs.Json.Regular

/-!
# Blocks of what was read

Bytes need not be the ones that a tree is written with: keys come in any order, numbers are longer
than they have to be, the codec is the other one.  The tree that is read from them is canonical, and
its block stands for the same tree once and for all: it is read as this tree, belongs to its
identifier, and is the block that is written for what was read from it (`Block.decodeTree_normal`).
-/

namespace MarketDag

namespace Block

/-- With either codec, a tree that is read can be written in binary form and read again. -/
theorem readable_of_decodeTree {cid : Cid} {data : List UInt8} {t : Ipld}
    (h : decodeTree cid data = .ok t) : Cbor.Readable Cbor.maxDepth t := by
  rcases decodeWith_eq_ok.mp h with ⟨-, h⟩ | ⟨-, h⟩
  · exact Cbor.readable_of_decodeTree h
  · exact Cbor.readable_of_regularWithin (Json.regularWithin_of_decodeTree h) (by decide)

theorem decodeTree_of_readable {t : Ipld} {b : Block} (ht : Cbor.Readable Cbor.maxDepth t)
    (h : ofTree t = .ok b) (hsize : b.Addressable) : decodeTree b.cid b.data = .ok t := by
  rw [ofTree, ht.canonical_eq] at h
  obtain ⟨-, hdata, hcid⟩ := ofCanonical_eq_ok.mp h
  rw [Addressable, hdata] at hsize
  rw [decodeTree, decodeWith, hcid, if_pos (Cid.codec_ofData ..), hdata,
    Cbor.decodeTree_write ht hsize]
  rfl

/-- A tree that is read from any bytes is canonical.  It has a block if all its numbers are finite;
the block is read as the tree again, belongs to its identifier, and is the block of what is read
from it. -/
theorem decodeTree_normal {cid : Cid} {data : List UInt8} {t : Ipld}
    (h : decodeTree cid data = .ok t) :
    t.canonical = t ∧ ((∃ b, ofTree t = .ok b) ↔ t.isFinite = true) ∧
      ∀ b, ofTree t = .ok b → b.Addressable →
        decodeTree b.cid b.data = .ok t ∧ b.cid.verify b.data = .ok () ∧
          (decodeTree b.cid b.data >>= ofTree) = .ok b := by
  have ht := readable_of_decodeTree h
  have hcanonical := ht.canonical_eq
  -- the tree is canonical already, so its block is what is written of it
  have hof (b : Block) : ofTree t = .ok b ↔ t.isFinite = true ∧ b.data = Cbor.write t ∧
      b.cid = .ofData Cid.dagCbor b.data := by
    rw [ofTree, hcanonical, ofCanonical_eq_ok]
  refine ⟨hcanonical, ⟨?_, fun hfinite => ?_⟩, fun b hb hsize => ?_⟩
  · rintro ⟨b, hb⟩
    exact ((hof b).mp hb).1
  · exact ⟨⟨.ofData Cid.dagCbor (Cbor.write t), Cbor.write t⟩, (hof _).mpr ⟨hfinite, rfl, rfl⟩⟩
  · have hread := decodeTree_of_readable ht hb hsize
    have hcid := ((hof b).mp hb).2.2
    refine ⟨hread, ?_, by rw [hread]; exact hb⟩
    rw [Cid.verify_eq_ok, hcid, Cid.hash_ofData]

/-- Two entries in descending order, the number of the first one in two bytes. -/
def sampleLoose : List UInt8 := [0xA2, 0x61, 0x62, 0x18, 0x01, 0x61, 0x61, 0x02]

theorem decodeTree_normal_sample : ∃ t b,
    decodeTree (.ofData Cid.dagCbor sampleLoose) sampleLoose = .ok t ∧ ofTree t = .ok b ∧
      b.data = [0xA2, 0x61, 0x61, 0x02, 0x61, 0x62, 0x01] ∧ b.Addressable ∧
      decodeTree b.cid b.data = .ok t ∧ (decodeTree b.cid b.data >>= ofTree) = .ok b := by
  have hrun : ((decodeTree (.ofData Cid.dagCbor sampleLoose) sampleLoose >>= ofTree).toOption.any
      fun b => b.data = [0xA2, 0x61, 0x61, 0x02, 0x61, 0x62, 0x01]) = true := by decide +kernel
  cases hform : decodeTree (.ofData Cid.dagCbor sampleLoose) sampleLoose >>= ofTree with
  | error e =>
    rw [hform] at hrun
    cases hrun
  | ok b =>
    rw [hform] at hrun
    have hdata := of_decide_eq_true hrun
    obtain ⟨t, hread, hb⟩ := bind_eq_ok.mp hform
    have hsize : b.Addressable := by
      rw [Addressable, hdata]
      decide
    obtain ⟨hagain, -, hsame⟩ := (decodeTree_normal hread).2.2 b hb hsize
    exact ⟨t, b, hread, hb, hdata, hsize, hagain, hsame⟩

end Block

end MarketDag
