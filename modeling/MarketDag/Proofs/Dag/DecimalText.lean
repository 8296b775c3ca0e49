import MarketDag.Proofs.Dag.Root
import MarketDag.Proofs.Number.PlainNumeral
import MarketDag.Proofs.Shape.Buffered

/-!
# The text of a decimal

A decimal is written as the one plain numeral that has its number, and every source reads it back
from there (`Decimal.written_as_numeral`).
-/

namespace MarketDag

namespace Cbor

/-- The numeral of a decimal is short enough for a head to count its bytes. -/
theorem length_write_canonicalText (d : Decimal) :
    (write (.text d.canonicalText)).length < UInt64.size := by
  have hchars := PlainNumeral.length_chars_ofDecimal d
  have hhead := length_writeHead_le .text (Utf8.encode d.canonicalText).length
  have hbytes : (Utf8.encode d.canonicalText).length ≤ d.canonicalText.toList.length * 4 :=
    length_flatMap_le fun c _ => Utf8.length_encodeChar_le c
  rw [← PlainNumeral.text_ofDecimal, PlainNumeral.text, String.toList_ofList] at hbytes
  have hsize : (write (.text d.canonicalText)).length =
      (writeHead .text (Utf8.encode d.canonicalText).length).length +
        (Utf8.encode d.canonicalText).length := List.length_append
  have hlimit : 9 + 60 * 4 < UInt64.size := by decide
  rw [← PlainNumeral.text_ofDecimal, PlainNumeral.text] at hhead hsize ⊢
  omega

/-- A decimal is read back from its text. -/
theorem readLeaf_canonicalText (d : Decimal) (depth : Nat) (rest : List UInt8) :
    (readLeaf .decimal).run (depth + 1) (write (.text d.canonicalText) ++ rest) =
      .ok (d.normalize, rest) := by
  have hlayout : Leaf.layout .decimal d = .ok (.text d.canonicalText) := rfl
  have hcanonical : (Ipld.text d.canonicalText).canonical = .text d.canonicalText := by
    rw [Ipld.canonical]
  have hreads := leaf_layout rfl hlayout (Nat.le_add_left 1 depth)
  rw [hcanonical] at hreads
  exact hreads (length_write_canonicalText d) rest

end Cbor

namespace Decimal

/-- Decimals with one canonical text are the same number. -/
theorem canonicalText_eq_iff {a b : Decimal} :
    a.canonicalText = b.canonicalText ↔ a.SameValue b := by
  rw [← normalize_eq_iff]
  constructor
  · intro h
    have ha := readDecimal_canonicalText a
    rw [h, readDecimal_canonicalText] at ha
    exact (Except.ok.inj ha).symm
  · intro h
    rw [canonicalText, h, canonicalText]

/-- A decimal is written as a plain numeral: digits, perhaps with a sign in front and with a point
and more digits behind, and nothing needless among them.  The numeral has the number of the decimal,
no other plain numeral has it, and from every source the text is read back as a decimal that is this
number.  So two decimals are written as one text exactly if they are the same number. -/
theorem written_as_numeral :
    (∀ d : Decimal, ∃ n : PlainNumeral, Leaf.layout .decimal d = .ok (.text n.text) ∧
      n.value = d.value ∧ (∀ m : PlainNumeral, m.value = d.value → m = n) ∧
      ∃ x : Decimal, x.SameValue d ∧
        Json.asLeaf .decimal (.text n.text) = .ok x ∧
        Buffered.leaf .decimal (.text n.text) = .ok x ∧
        ∀ (depth : Nat) (rest : List UInt8),
          (Cbor.readLeaf .decimal).run (depth + 1) (Cbor.write (.text n.text) ++ rest) =
            .ok (x, rest)) ∧
    ∀ a b : Decimal, Leaf.layout .decimal a = Leaf.layout .decimal b ↔ a.SameValue b := by
  refine ⟨fun d => ⟨.ofDecimal d, ?_, PlainNumeral.value_ofDecimal d,
    fun m => PlainNumeral.eq_ofDecimal, d.normalize, (sameValue_normalize d).symm, ?_⟩,
    fun a b => ?_⟩
  · rw [PlainNumeral.text_ofDecimal]
    rfl
  · rw [PlainNumeral.text_ofDecimal]
    exact ⟨readDecimal_canonicalText d, readDecimal_canonicalText d,
      Cbor.readLeaf_canonicalText d⟩
  · rw [← canonicalText_eq_iff]
    simp [Leaf.layout]

/-- Both zeros are written in one way, and so are numbers with zeros at the end of their places. -/
example : (⟨true, 0, 3, by decide, by decide⟩ : Decimal).canonicalText = "0" ∧
    (⟨true, 1500, 3, by decide, by decide⟩ : Decimal).canonicalText = "-1.5" := by
  decide +kernel

end Decimal

end MarketDag
